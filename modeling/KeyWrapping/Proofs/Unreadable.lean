import KeyWrapping.Proofs.Grouping
/-!
# What the refusal of a text says

A text is refused for a byte that cannot stand where it stands, for bits of its last symbol that
belong to no byte, or for one symbol too many, and the reason in the report names which, with the
byte and its offset (`Error.message_injective`). What it names is there (`Error.TrueOf`): a foreign
byte is the first of its kind, unless the text was refused for its last byte alone; a symbol with
bits in excess is the last one, with nothing but padding behind it, and the text can be read once
these bits are cleared.
-/

namespace KeyWrapping

namespace Text

/-- The bytes of a text without the blanks around it. -/
def trimmedBytes (text : String) : Bytes := (trim text.toList).flatMap String.utf8EncodeChar

end Text

namespace Base64

section Messages

/-- The characters of a printed number. -/
theorem toList_toString (number : Nat) : (toString number).toList = Nat.toDigits 10 number := by
  rw [Nat.toString_eq_repr, Nat.repr_eq_ofList_toDigits, String.toList_ofList]

/-- A printed number ends where something else than a digit follows. -/
theorem decimal_inj {number other : Nat} {mark : Char} {rest others : List Char}
    (ends : mark.isDigit = false)
    (same : (toString number).toList ++ mark :: rest = (toString other).toList ++ mark :: others) :
    number = other ∧ rest = others := by
  rw [toList_toString, toList_toString] at same
  -- The mark is no digit, so the digits in front of it are all that is taken.
  have taken (value : Nat) (rest : List Char) :
      (Nat.toDigits 10 value ++ mark :: rest).takeWhile Char.isDigit = Nat.toDigits 10 value := by
    rw [List.takeWhile_append_of_pos fun c among =>
      Nat.isDigit_of_mem_toDigits (by decide) (by decide) among, List.takeWhile_cons_of_neg,
      List.append_nil]
    simp [ends]
  have digits : Nat.toDigits 10 number = Nat.toDigits 10 other := by
    rw [← taken number rest, same, taken]
  rw [digits, List.append_cancel_left_eq] at same
  have value := congrArg (Nat.ofDigitChars 10 · 0) digits
  simp only [Nat.ofDigitChars_ten_toDigits] at value
  exact ⟨value, (List.cons.inj same).2⟩

/-- The byte and the offset that a message names are determined by it. -/
theorem positioned_inj {front : String} {byte other : UInt8} {offset place : Nat}
    (same : front ++ toString byte.toNat ++ ", offset " ++ toString offset ++ "." =
      front ++ toString other.toNat ++ ", offset " ++ toString place ++ ".") :
    byte = other ∧ offset = place := by
  simp only [String.append_assoc, String.append_right_inj] at same
  have lists := congrArg String.toList same
  simp only [String.toList_append] at lists
  have comma : ", offset ".toList = ',' :: " offset ".toList := by decide
  have dot : ".".toList = ['.'] := by decide
  rw [comma, dot, List.cons_append, List.cons_append] at lists
  obtain ⟨bytes, later⟩ := decimal_inj (by decide) lists
  obtain ⟨offsets, _⟩ := decimal_inj (by decide) (List.append_cancel_left later)
  exact ⟨UInt8.toNat_inj.mp bytes, offsets⟩

/-- The first characters of a text are those of its first part. -/
theorem take_toList_append {front : String} (back : String) {count : Nat}
    (long : count ≤ front.toList.length) :
    (front ++ back).toList.take count = front.toList.take count := by
  rw [String.toList_append, List.take_append_of_le_length long]

/-- The kind of a refusal shows in the first nine characters of its message. -/
theorem Error.take_message (error : Error) :
    error.message.toList.take 9 =
      match error with
      | foreignByte _ _ => "Invalid b".toList
      | looseSymbol => "Encoded t".toList
      | excessBits _ _ => "Invalid l".toList := by
  cases error with
  | foreignByte byte offset =>
    unfold message
    dsimp only
    rw [String.append_assoc, String.append_assoc, String.append_assoc,
      take_toList_append _ (by decide)]
    decide
  | looseSymbol => decide
  | excessBits byte offset =>
    unfold message
    dsimp only
    rw [String.append_assoc, String.append_assoc, String.append_assoc,
      take_toList_append _ (by decide)]
    decide

/-- A message is that of one refusal only. -/
theorem Error.message_injective : Function.Injective Error.message := by
  intro error other same
  -- Messages of two kinds differ in front, messages of one kind in the numbers that they name.
  have starts := congrArg (·.toList.take 9) same
  rw [take_message, take_message] at starts
  cases error with
  | foreignByte byte offset =>
    cases other with
    | foreignByte other place =>
      unfold message at same
      obtain ⟨rfl, rfl⟩ := positioned_inj same
      rfl
    | looseSymbol | excessBits _ _ => exact absurd starts (by dsimp only; decide)
  | looseSymbol =>
    cases other with
    | looseSymbol => rfl
    | foreignByte _ _ | excessBits _ _ => exact absurd starts (by dsimp only; decide)
  | excessBits byte offset =>
    cases other with
    | excessBits other place =>
      unfold message at same
      obtain ⟨rfl, rfl⟩ := positioned_inj same
      rfl
    | foreignByte _ _ | looseSymbol => exact absurd starts (by dsimp only; decide)

end Messages

/-- A byte is one of the symbols of the published form. -/
def InAlphabet (byte : UInt8) : Prop := Char.ofUInt8 byte ∈ Standard.Base64.alphabet

/-- Different bytes are different characters. -/
theorem ofUInt8_injective : Function.Injective Char.ofUInt8 := by
  intro byte other same
  have back (byte : UInt8) : (Char.ofUInt8 byte).toUInt8 = byte := UInt8.toUInt8_toUInt32 byte
  rw [← back byte, same, back]

/-- The bytes with a value are those of the alphabet. -/
theorem inAlphabet_iff (byte : UInt8) : InAlphabet byte ↔ (value? byte).isSome := by
  have size : Standard.Base64.alphabet.length = 64 := rfl
  constructor
  · intro listed
    obtain ⟨place, inside, found⟩ := List.getElem_of_mem listed
    have number : (UInt8.ofNat place).toNat = place := by
      rw [UInt8.toNat_ofNat']
      omega
    have small : UInt8.ofNat place < 64 := by
      rw [small_iff, number]
      omega
    have written := ofUInt8_symbol (UInt8.ofNat place) small
    rw [number, List.getD_eq_getElem?_getD, List.getElem?_eq_getElem inside, Option.getD_some,
      found] at written
    rw [← ofUInt8_injective written, value?_symbol _ small]
    rfl
  · intro known
    obtain ⟨value, found⟩ := Option.isSome_iff_exists.mp known
    obtain ⟨rfl, small⟩ := symbol_of_value? found
    have inside : value.toNat < Standard.Base64.alphabet.length := by
      rw [size]
      exact (small_iff value).mp small
    rw [InAlphabet, ofUInt8_symbol value small, List.getD_eq_getElem?_getD,
      List.getElem?_eq_getElem inside]
    exact List.getElem_mem inside

/-- A value without the bits that complete no byte, when it is the last of so many. -/
def cleared (symbols : Nat) (value : UInt8) : UInt8 := value &&& ~~~unusedBits symbols

/-- A byte that cannot stand where it stands. The bytes before it are symbols, unless the text was
refused for its last byte alone. -/
structure ForeignAt (text : Bytes) (byte : UInt8) (offset : Nat) : Prop where
  /-- The offset is one of the text. -/
  inside : offset < text.length
  /-- The byte stands there. -/
  found : text[offset]? = some byte
  /-- It is padding or no symbol. -/
  foreign : byte = pad ∨ ¬InAlphabet byte
  /-- All before it are symbols, or it is the last byte of a text of an impossible length. -/
  first : (∀ earlier ∈ text.take offset, InAlphabet earlier) ∨
    text.length % 4 = 1 ∧ offset = text.length - 1

/-- A last symbol with bits that belong to no byte, and the symbol that is left without them. -/
structure ExcessAt (text : Bytes) (byte : UInt8) (offset : Nat) (mended : UInt8) : Prop where
  /-- The byte stands at the offset. -/
  found : text[offset]? = some byte
  /-- All before it are symbols. -/
  before : ∀ earlier ∈ text.take offset, InAlphabet earlier
  /-- All behind it is padding. -/
  behind : ∀ later ∈ text.drop (offset + 1), later = pad
  /-- The byte is a symbol, and the other one is the symbol of its value without the unused bits. -/
  clears : ∃ value < 64, symbol value = byte ∧ symbol (cleared (offset + 1) value) = mended

/-- A text with a symbol alone behind whole groups of four. -/
structure LooseEnd (text : Bytes) : Prop where
  /-- There is one byte behind whole groups. -/
  odd : text.length % 4 = 1
  /-- The last byte could stand in a text. -/
  stands : ∃ last, text.getLast? = some last ∧ (last = pad ∨ InAlphabet last)

/-- What a refusal says is true of a text. -/
def Error.TrueOf (text : Bytes) : Error → Prop
  | foreignByte byte offset => ForeignAt text byte offset
  | looseSymbol => LooseEnd text
  | excessBits byte offset =>
    ∃ mended, ExcessAt text byte offset mended ∧
      (∀ byte ∈ text.set offset mended, Stands byte) ∧
      ∃ data, decodeBytes (text.set offset mended) = .ok data

section Truth

/-- A symbol is in the alphabet. -/
theorem inAlphabet_symbol {value : UInt8} (small : value < 64) : InAlphabet (symbol value) := by
  rw [inAlphabet_iff, value?_symbol value small]
  rfl

/-- A byte without a value is not in the alphabet. -/
theorem not_inAlphabet {byte : UInt8} (foreign : value? byte = none) : ¬InAlphabet byte := by
  rw [inAlphabet_iff, foreign]
  decide

/-- A value without its unused bits has none of them. -/
theorem cleared_and_unusedBits (symbols : Nat) (value : UInt8) :
    cleared symbols value &&& unusedBits symbols = 0 := by
  rw [cleared, UInt8.and_assoc, UInt8.and_comm (~~~_), UInt8.and_not_self, UInt8.and_zero]

/-- A value without its unused bits is a value. -/
theorem cleared_lt (symbols : Nat) {value : UInt8} (small : value < 64) :
    cleared symbols value < 64 := by
  rw [small_iff] at small ⊢
  rw [cleared, UInt8.toNat_and]
  exact Nat.lt_of_le_of_lt Nat.and_le_left small

/-- The bytes in front of the first foreign one are symbols. -/
theorem inAlphabet_of_mem_take {text : Bytes} {count : Nat} (within : count ≤ (scan text).1.length) :
    ∀ byte ∈ text.take count, InAlphabet byte := by
  obtain ⟨written, small⟩ := symbols_scan text
  generalize (scan text).1 = values at written small within
  intro byte among
  rw [← written, List.take_append_of_le_length (by rwa [List.length_map]), ← List.map_take] at among
  obtain ⟨value, listed, rfl⟩ := List.mem_map.mp among
  exact inAlphabet_symbol (small value (List.mem_of_mem_take listed))

/-- A text is refused for its length with good reason. -/
theorem trueOf_of_checkLength {text : Bytes} {error : Error}
    (refused : checkLength text = .error error) : error.TrueOf text := by
  have odd : text.length % 4 = 1 := by
    by_contra even
    rw [(checkLength_eq_ok_iff text).mpr even] at refused
    contradiction
  rw [checkLength, if_pos odd] at refused
  cases last : text.getLast? with
  | none =>
    rw [last] at refused
    contradiction
  | some byte =>
    simp only [last] at refused
    split at refused
    · next stands =>
      obtain rfl := Except.error.inj refused
      rw [← inAlphabet_iff] at stands
      exact ⟨odd, byte, last, stands⟩
    · next foreign =>
      obtain rfl := Except.error.inj refused
      rw [← inAlphabet_iff, not_or] at foreign
      have inside : text.length - 1 < text.length := by omega
      rw [List.getLast?_eq_getElem?] at last
      exact ⟨inside, last, .inr foreign.2, .inr ⟨odd, rfl⟩⟩

/-- A text is refused for what follows its symbols with good reason. -/
theorem trueOf_of_checkPadding {text : Bytes} {error : Error}
    (refused : checkPadding (scan text).1.length (scan text).2 = .error error) :
    error.TrueOf text := by
  obtain ⟨written, _⟩ := symbols_scan text
  cases after : (scan text).2 with
  | nil =>
    rw [after] at refused
    contradiction
  | cons byte rest =>
    rw [after, checkPadding] at refused
    split at refused
    · contradiction
    · obtain rfl := Except.error.inj refused
      have found : text[(scan text).1.length]? = some byte := by
        rw [after] at written
        generalize (scan text).1 = values at written
        rw [← written, List.getElem?_append_right (by rw [List.length_map]), List.length_map,
          Nat.sub_self]
        rfl
      obtain ⟨inside, _⟩ := List.getElem?_eq_some_iff.mp found
      have foreign := value?_head_scan text byte (by rw [after]; rfl)
      exact ⟨inside, found, .inr (not_inAlphabet foreign),
        .inl (inAlphabet_of_mem_take (Nat.le_refl _))⟩

/-- Symbols of which none is alone behind whole groups are read, with padding that completes a group,
once the last one has no bits in excess. -/
theorem exists_decodeBytes_cleared {values : List UInt8} {last : UInt8} {pads : Nat}
    (small : ∀ value ∈ values ++ [cleared (values.length + 1) last], value < 64)
    (grouped : (values.length + 1) % 4 ≠ 1)
    (length : (values.length + 1 + pads) % 4 ≠ 1)
    (padding : checkPadding (values.length + 1) (List.replicate pads pad) = .ok ()) :
    ∃ data, decodeBytes ((values ++ [cleared (values.length + 1) last]).map symbol ++
      List.replicate pads pad) = .ok data := by
  have zero : excess (values ++ [cleared (values.length + 1) last]) = 0 := by
    rw [excess_concat _ _ grouped, cleared_and_unusedBits]
  refine ⟨_, (decodeBytes_eq_ok_iff _ _).mpr ⟨?_, ?_, ?_, rfl⟩⟩
  · rw [checkLength_eq_ok_iff, List.length_append, List.length_map, List.length_append,
      List.length_singleton, List.length_replicate]
    exact length
  · rw [scan_written small, List.length_append, List.length_singleton]
    exact padding
  · rw [scan_written small, checkExcess_eq_ok_iff]
    exact zero

/-- The last symbol of a text is rightly named for bits in excess: without them the text is read. -/
theorem trueOf_excessBits {values : List UInt8} {last : UInt8} {pads : Nat}
    (small : ∀ value ∈ values ++ [last], value < 64) (grouped : (values.length + 1) % 4 ≠ 1)
    (length : (values.length + 1 + pads) % 4 ≠ 1)
    (padding : checkPadding (values.length + 1) (List.replicate pads pad) = .ok ()) :
    (Error.excessBits (symbol last) values.length).TrueOf
      ((values ++ [last]).map symbol ++ List.replicate pads pad) := by
  obtain ⟨others, lastSmall⟩ := List.forall_mem_append.mp small
  rw [List.forall_mem_singleton] at lastSmall
  have smallCleared : ∀ value ∈ values ++ [cleared (values.length + 1) last], value < 64 := by
    rw [List.forall_mem_append, List.forall_mem_singleton]
    exact ⟨others, cleared_lt _ lastSmall⟩
  have mends : ((values ++ [last]).map symbol ++ List.replicate pads pad).set values.length
      (symbol (cleared (values.length + 1) last)) =
        (values ++ [cleared (values.length + 1) last]).map symbol ++ List.replicate pads pad := by
    simp
  have front : ((values ++ [last]).map symbol ++ List.replicate pads pad).take values.length =
      values.map symbol := by
    simp
  have behind : ((values ++ [last]).map symbol ++ List.replicate pads pad).drop
      (values.length + 1) = List.replicate pads pad :=
    List.drop_left' (by simp)
  refine ⟨symbol (cleared (values.length + 1) last), ?_, ?_, ?_⟩
  · refine ⟨by simp, ?_, ?_, last, lastSmall, rfl, rfl⟩
    · rw [front]
      intro earlier among
      obtain ⟨value, listed, rfl⟩ := List.mem_map.mp among
      exact inAlphabet_symbol (others value listed)
    · rw [behind]
      exact fun later among => List.eq_of_mem_replicate among
  · rw [mends]
    exact fun byte among => stands_of_mem_written smallCleared among
  · rw [mends]
    exact exists_decodeBytes_cleared smallCleared grouped length padding

/-- A text is refused for bits in excess with good reason. -/
theorem trueOf_of_checkExcess {text : Bytes} {error : Error} (length : checkLength text = .ok ())
    (padding : checkPadding (scan text).1.length (scan text).2 = .ok ())
    (refused : checkExcess text (scan text).1 = .error error) : error.TrueOf text := by
  obtain ⟨grouped, pads, padded, _⟩ := exists_pads_of_checked length padding
  obtain ⟨written, small⟩ := symbols_scan text
  rw [checkLength_eq_ok_iff] at length
  rw [padded] at written padding
  generalize (scan text).1 = list at written small grouped padding refused
  subst written
  obtain rfl | ⟨values, last, rfl⟩ := List.eq_nil_or_concat list
  · simp [checkExcess, excess] at refused
  · simp only [List.concat_eq_append, List.length_append, List.length_map, List.length_singleton,
      List.length_replicate] at refused small grouped padding length ⊢
    rw [checkExcess] at refused
    split at refused
    · contradiction
    · obtain rfl := Except.error.inj refused
      have named : ((values ++ [last]).map symbol ++ List.replicate pads pad).getD
          ((values ++ [last]).length - 1) 0 = symbol last := by
        simp [List.getD]
      rw [named]
      simpa using trueOf_excessBits small grouped length padding

/-- A text is refused with good reason. -/
theorem trueOf_of_decodeBytes {text : Bytes} {error : Error}
    (refused : decodeBytes text = .error error) : error.TrueOf text := by
  unfold decodeBytes at refused
  simp only [bind, Except.bind] at refused
  cases length : checkLength text with
  | error found =>
    rw [length] at refused
    obtain rfl : found = error := Except.error.inj refused
    exact trueOf_of_checkLength length
  | ok _ =>
    cases padding : checkPadding (scan text).1.length (scan text).2 with
    | error found =>
      simp only [length, padding] at refused
      obtain rfl : found = error := Except.error.inj refused
      exact trueOf_of_checkPadding padding
    | ok _ =>
      cases excess : checkExcess text (scan text).1 with
      | error found =>
        simp only [length, padding, excess] at refused
        obtain rfl : found = error := Except.error.inj refused
        exact trueOf_of_checkExcess length padding excess
      | ok _ =>
        simp only [length, padding, excess] at refused
        contradiction

end Truth

end Base64

namespace Text

open Base64 (Stands)

/-- Symbols and padding are the bytes of a text. -/
theorem exists_trimmedBytes {bytes : Bytes} (stands : ∀ byte ∈ bytes, Stands byte) :
    ∃ text, trimmedBytes text = bytes := by
  have solid : ∀ char ∈ bytes.map Char.ofUInt8, isBlank char = false := by
    intro char among
    obtain ⟨byte, listed, rfl⟩ := List.mem_map.mp among
    exact Base64.isBlank_of_stands byte (stands byte listed)
  have bare := trim_append (List.forall_mem_nil _) solid (List.forall_mem_nil _)
  rw [List.nil_append, List.append_nil] at bare
  refine ⟨String.ofList (bytes.map Char.ofUInt8), ?_⟩
  rw [trimmedBytes, String.toList_ofList, bare, Base64.utf8_map stands]

end Text

namespace WrappedKey

open Base64 (Error)

/-- A text that is refused with the code of unreadable texts. -/
def Unreadable (text : String) : Prop :=
  ∃ failure, ofText text = .error failure ∧ failure.report.code = 2003

/-- A text is unreadable for what the decoder says of its bytes, and for nothing else. -/
theorem eq_unreadableText {text : String} {failure : Failure}
    (refused : ofText text = .error failure) (coded : failure.report.code = 2003) :
    ∃ error, failure = .unreadableText error ∧
      Base64.decodeBytes (Text.trimmedBytes text) = .error error := by
  cases decoded : Base64.decode (Text.trim text.toList) with
  | error error =>
    rw [ofText, decoded] at refused
    obtain rfl := Except.error.inj refused
    exact ⟨error, rfl, decoded⟩
  | ok data =>
    rw [ofText, decoded] at refused
    obtain rfl | ⟨first, rfl⟩ := failure_of_ofBytes refused
    · exact absurd coded (show (2001 : UInt32) ≠ 2003 by decide)
    · exact absurd coded (show (2002 : UInt32) ≠ 2003 by decide)

/-- A text whose bytes are decoded is not unreadable. -/
theorem not_unreadable {text : String} {data : Bytes}
    (decoded : Base64.decodeBytes (Text.trimmedBytes text) = .ok data) : ¬Unreadable text := by
  rintro ⟨failure, refused, coded⟩
  obtain ⟨error, _, found⟩ := eq_unreadableText refused coded
  rw [decoded] at found
  contradiction

/-- What the reason says of an unreadable text is true of its bytes, blanks around the text left out.
A byte that is named as foreign stands at its offset, is padding or no symbol, and is the first such
byte, unless a text one byte longer than whole groups is refused for its last byte. A last symbol
that is named for its bits stands at its offset, behind symbols and in front of padding only, and the
text with these bits cleared is not unreadable. A text that is refused for a symbol alone is one byte
longer than whole groups, and its last byte can stand in a text. Every reason is one of these, and
it is the one that reading in groups of eight comes to. -/
theorem unreadable_for_true_reason {text : String} {failure : Failure}
    (refused : ofText text = .error failure) (coded : failure.report.code = 2003) :
    let bytes := Text.trimmedBytes text
    ∃ reason, failure.report = .record ("invalid base64: " ++ reason) 2003 ∧
      (∀ (byte : UInt8) (offset : Nat),
        reason = "Invalid byte " ++ toString byte.toNat ++ ", offset " ++ toString offset ++ "." →
          Base64.ForeignAt bytes byte offset) ∧
      (∀ (byte : UInt8) (offset : Nat),
        reason =
          "Invalid last symbol " ++ toString byte.toNat ++ ", offset " ++ toString offset ++ "." →
          ∃ mended, Base64.ExcessAt bytes byte offset mended ∧
            (∃ other, Text.trimmedBytes other = bytes.set offset mended) ∧
            ∀ other, Text.trimmedBytes other = bytes.set offset mended → ¬Unreadable other) ∧
      (reason = "Encoded text cannot have a 6-bit remainder." → Base64.LooseEnd bytes) ∧
      ∃ error : Error, reason = error.message ∧
        Base64.Grouped.decodeBytes bytes = .error error := by
  intro bytes
  obtain ⟨error, rfl, decoded⟩ := eq_unreadableText refused coded
  have holds := Base64.trueOf_of_decodeBytes decoded
  rw [Base64.decodeBytes_eq_grouped] at decoded
  have said {other : Error} (same : error.message = other.message) : other.TrueOf bytes :=
    Error.message_injective same ▸ holds
  refine ⟨error.message, rfl, ?_, ?_, ?_, error, rfl, decoded⟩
  · intro byte offset same
    have found : (Error.foreignByte byte offset).TrueOf bytes := said same
    exact found
  · intro byte offset same
    have found : (Error.excessBits byte offset).TrueOf bytes := said same
    obtain ⟨mended, excess, stands, data, read⟩ := found
    refine ⟨mended, excess, Text.exists_trimmedBytes stands, ?_⟩
    intro other same
    exact not_unreadable (same ▸ read)
  · intro same
    have found : Error.looseSymbol.TrueOf bytes := said same
    exact found

/-- The nine at the end of this text has a bit that belongs to no byte; without it, it is an eight. -/
theorem nine_named_for_its_bit :
    ofText " Zm9=\n" = .error (.unreadableText (.excessBits 57 2)) ∧
      (Failure.unreadableText (.excessBits 57 2)).report.code = 2003 ∧
      Base64.ExcessAt (Text.trimmedBytes " Zm9=\n") 57 2 56 ∧
      ∀ other, Text.trimmedBytes other = (Text.trimmedBytes " Zm9=\n").set 2 56 →
        ¬Unreadable other := by
  have refused : ofText " Zm9=\n" = .error (.unreadableText (.excessBits 57 2)) := by decide
  obtain ⟨reason, reported, _, excess, _⟩ := unreadable_for_true_reason refused rfl
  have named : (Error.excessBits 57 2).message = reason :=
    (String.append_right_inj "invalid base64: ").mp (Report.record.inj reported).1
  obtain ⟨mended, found, _, reads⟩ := excess 57 2 named.symm
  have eight : mended = 56 := by
    obtain ⟨value, small, isNine, isMended⟩ := found.clears
    have known := Base64.value?_symbol value small
    rw [isNine] at known
    obtain rfl : 61 = value := Option.some.inj known
    exact isMended.symm
  rw [eight] at found reads
  exact ⟨refused, rfl, found, reads⟩

end WrappedKey

end KeyWrapping
