import KeyWrapping.Proofs.Refusals
import KeyWrapping.Proofs.SixBits
import Mathlib.Data.List.DropRight
/-!
# Which texts are read

A text is checked for its length, for what follows its symbols and for the bits that its last symbol
has in excess. The three checks together say that the text is the written form of some bytes, with
or without padding at its end (`Base64.decodeBytes_eq_ok_iff_append`), because the values of the
symbols and the bytes determine each other. Written forms have symbols and padding only, which take
one byte each and are not blank; so the same holds of characters (`Base64.decode_eq_ok_iff`), with
the published form for the written one, and blanks around a stored text do not matter.
-/

namespace KeyWrapping

namespace Base64

/-- A text passes for its length unless it is one byte longer than whole groups. -/
theorem checkLength_eq_ok_iff (text : Bytes) : checkLength text = .ok () ↔ text.length % 4 ≠ 1 := by
  by_cases odd : text.length % 4 = 1
  · rw [checkLength, if_pos odd]
    cases last : text.getLast? with
    | none =>
      obtain rfl := List.getLast?_eq_none_iff.mp last
      contradiction
    | some byte =>
      simp only [odd]
      split <;> simp
  · simp [checkLength, odd]

/-- Nothing may follow the symbols but padding that completes a group. -/
theorem checkPadding_eq_ok_iff (count : Nat) (after : Bytes) :
    checkPadding count after = .ok () ↔
      ∃ pads, after = List.replicate pads pad ∧
        (pads = 0 ∨ 2 ≤ count % 4 ∧ pads ≤ 4 - count % 4) := by
  cases after with
  | nil =>
    simp only [checkPadding, true_iff]
    exact ⟨0, rfl, .inl rfl⟩
  | cons byte rest =>
    have replicated : (byte :: rest).all (· == pad) = true ↔
        byte :: rest = List.replicate (rest.length + 1) pad := by
      rw [List.all_eq_true, List.eq_replicate_iff]
      simp
    simp only [checkPadding]
    split
    · next fits =>
      simp only [true_iff]
      exact ⟨rest.length + 1, replicated.mp fits.1, .inr fits.2⟩
    · next misfit =>
      simp only [reduceCtorEq, false_iff]
      rintro ⟨pads, same, allowed⟩
      have counted : rest.length + 1 = pads := by
        simpa using congrArg List.length same
      subst counted
      rcases allowed with none | fits
      · contradiction
      · exact misfit ⟨replicated.mpr same, fits⟩

/-- The bits in excess pass when they are zero. -/
theorem checkExcess_eq_ok_iff (text : Bytes) (list : List UInt8) :
    checkExcess text list = .ok () ↔ excess list = 0 := by
  unfold checkExcess
  split <;> simp [*]

/-- A text is read when it passes the three checks, as the bytes of the values of its symbols. -/
theorem decodeBytes_eq_ok_iff (text data : Bytes) :
    decodeBytes text = .ok data ↔
      checkLength text = .ok () ∧ checkPadding (scan text).1.length (scan text).2 = .ok () ∧
        checkExcess text (scan text).1 = .ok () ∧ bytes (scan text).1 = data := by
  unfold decodeBytes
  cases length : checkLength text with
  | error failure => simp [bind, Except.bind]
  | ok _ =>
    cases padding : checkPadding (scan text).1.length (scan text).2 with
    | error failure => simp [bind, Except.bind, padding]
    | ok _ =>
      cases rest : checkExcess text (scan text).1 with
      | error failure => simp [bind, Except.bind, padding, rest]
      | ok _ => simp [bind, Except.bind, padding, rest, pure, Except.pure]

/-- A written form without some of its padding is its symbols and the rest of the padding. -/
theorem exists_pads_of_append {text data : Bytes} {count : Nat}
    (same : text ++ List.replicate count pad = encodeBytes data) :
    ∃ pads, text = (values data).map symbol ++ List.replicate pads pad ∧
      pads + count = (4 - (values data).length % 4) % 4 := by
  have noPad : pad ∉ (values data).map symbol := by
    intro symbolic
    obtain ⟨value, listed, isPad⟩ := List.mem_map.mp symbolic
    exact symbol_ne_pad (values_lt data value listed) isPad
  rw [encodeBytes, padding, List.append_eq_append_iff] at same
  rcases same with ⟨taken, symbols, padded⟩ | ⟨kept, rfl, padded⟩
  · -- Symbols could only have been taken away as padding, which none of them is.
    have none : taken = [] := by
      rw [List.eq_nil_iff_forall_not_mem]
      intro byte among
      have isPad : byte = pad := List.eq_of_mem_replicate (padded ▸ List.mem_append_left _ among)
      exact noPad (symbols ▸ isPad ▸ List.mem_append_right _ among)
    rw [none, List.append_nil] at symbols
    rw [none, List.nil_append, List.replicate_inj] at padded
    exact ⟨0, by rw [symbols, List.replicate_zero, List.append_nil], by omega⟩
  · obtain ⟨counted, allPads, _⟩ := List.append_eq_replicate_iff.mp padded.symm
    refine ⟨kept.length, by rw [← allPads], ?_⟩
    rw [List.length_replicate] at counted
    exact counted

/-- The padding after symbols completes a group, whether the length of the text is looked at or
that of the symbols. -/
theorem fits_padding_iff (symbols pads : Nat) :
    ((symbols + pads) % 4 ≠ 1 ∧ (pads = 0 ∨ 2 ≤ symbols % 4 ∧ pads ≤ 4 - symbols % 4)) ↔
      symbols % 4 ≠ 1 ∧ pads ≤ (4 - symbols % 4) % 4 := by
  omega

/-- A text that passes for its length and its padding has no symbol alone behind whole groups, and
nothing but padding after its symbols, no more than completes a group. -/
theorem exists_pads_of_checked {text : Bytes} (length : checkLength text = .ok ())
    (padding : checkPadding (scan text).1.length (scan text).2 = .ok ()) :
    (scan text).1.length % 4 ≠ 1 ∧ ∃ pads, (scan text).2 = List.replicate pads pad ∧
      pads ≤ (4 - (scan text).1.length % 4) % 4 := by
  obtain ⟨pads, padded, allowed⟩ := (checkPadding_eq_ok_iff _ _).mp padding
  have total := length_scan text
  rw [padded, List.length_replicate] at total
  have whole := (checkLength_eq_ok_iff text).mp length
  rw [← total] at whole
  obtain ⟨grouped, fits⟩ := (fits_padding_iff _ pads).mp ⟨whole, allowed⟩
  exact ⟨grouped, pads, padded, fits⟩

/-- Symbols in front of padding. -/
theorem scan_written {list : List UInt8} (small : ∀ value ∈ list, value < 64) (pads : Nat) :
    scan (list.map symbol ++ List.replicate pads pad) = (list, List.replicate pads pad) := by
  refine scan_symbols small ?_
  intro byte first
  rw [List.eq_of_mem_replicate (List.mem_of_mem_head? first)]
  exact value?_pad

/-- A text is read as some bytes exactly when it is their written form, with or without the padding
at its end. -/
theorem decodeBytes_eq_ok_iff_append (text data : Bytes) :
    decodeBytes text = .ok data ↔ ∃ count, text ++ List.replicate count pad = encodeBytes data := by
  rw [decodeBytes_eq_ok_iff, checkExcess_eq_ok_iff]
  constructor
  · rintro ⟨length, checked, zero, rfl⟩
    obtain ⟨whole, pads, padded, fits⟩ := exists_pads_of_checked length checked
    obtain ⟨written, small⟩ := symbols_scan text
    generalize (scan text).1 = list at written small zero whole fits ⊢
    rw [padded] at written
    refine ⟨(4 - list.length % 4) % 4 - pads, ?_⟩
    rw [encodeBytes, values_bytes list small zero whole, padding, ← written, List.append_assoc,
      List.replicate_append_replicate, Nat.add_sub_cancel' fits]
  · rintro ⟨count, same⟩
    obtain ⟨pads, rfl, counted⟩ := exists_pads_of_append same
    obtain ⟨grouped, allowed⟩ := (fits_padding_iff (values data).length pads).mpr
      ⟨length_values data, by omega⟩
    rw [checkLength_eq_ok_iff, checkPadding_eq_ok_iff, scan_written (values_lt data) pads,
      List.length_append, List.length_map, List.length_replicate]
    exact ⟨grouped, ⟨pads, rfl, allowed⟩, excess_values data, bytes_values data⟩

/-- A byte that stands in a written form is one of the symbols or padding. -/
def Stands (byte : UInt8) : Prop := (value? byte).isSome ∨ byte = pad

instance (byte : UInt8) : Decidable (Stands byte) := inferInstanceAs (Decidable (_ ∨ _))

/-- Symbols and padding stand in written forms. -/
theorem stands_of_mem_written {list : List UInt8} (small : ∀ value ∈ list, value < 64) {pads : Nat}
    {byte : UInt8} (among : byte ∈ list.map symbol ++ List.replicate pads pad) : Stands byte := by
  rcases List.mem_append.mp among with symbolic | padded
  · obtain ⟨value, listed, rfl⟩ := List.mem_map.mp symbolic
    exact .inl (by rw [value?_symbol value (small value listed)]; rfl)
  · exact .inr (List.eq_of_mem_replicate padded)

/-- Written forms have symbols and padding only. -/
theorem stands_of_mem_encodeBytes {data : Bytes} {byte : UInt8} (among : byte ∈ encodeBytes data) :
    Stands byte :=
  stands_of_mem_written (values_lt data) among

/-- The characters of written forms take one byte each. -/
theorem utf8_of_stands : ∀ byte : UInt8, Stands byte →
    String.utf8EncodeChar (Char.ofUInt8 byte) = [byte] :=
  forall_byte (by decide +kernel)

/-- The characters of written forms are not blank. -/
theorem isBlank_of_stands : ∀ byte : UInt8, Stands byte →
    Text.isBlank (Char.ofUInt8 byte) = false :=
  forall_byte (by decide +kernel)

/-- The encoding of the characters of symbols and padding. -/
theorem utf8_map {text : Bytes} (stands : ∀ byte ∈ text, Stands byte) :
    (text.map Char.ofUInt8).flatMap String.utf8EncodeChar = text := by
  induction text with
  | nil => rfl
  | cons byte rest ih =>
    obtain ⟨first, others⟩ := List.forall_mem_cons.mp stands
    rw [List.map_cons, List.flatMap_cons, utf8_of_stands byte first, ih others]
    rfl

/-- Texts with one encoding are equal. -/
theorem utf8_injective {text other : List Char}
    (same : text.flatMap String.utf8EncodeChar = other.flatMap String.utf8EncodeChar) :
    text = other := by
  have encodings : text.utf8Encode = other.utf8Encode := by
    rw [List.utf8Encode, List.utf8Encode, same]
  have decoded : some text.toArray = some other.toArray := by
    rw [← List.utf8Decode?_utf8Encode, ← List.utf8Decode?_utf8Encode, encodings]
  simpa using decoded

/-- The character of padding. -/
def padChar : Char := '='

/-- The encoding of padding. -/
theorem utf8_replicate (count : Nat) :
    (List.replicate count padChar).flatMap String.utf8EncodeChar = List.replicate count pad := by
  have padded : List.replicate count padChar = (List.replicate count pad).map Char.ofUInt8 := by
    rw [List.map_replicate]
    rfl
  rw [padded]
  exact utf8_map fun byte among => .inr (List.eq_of_mem_replicate among)

/-- A text spells bytes when it is their published form without some of the padding at its end. -/
def Spells (text : List Char) (data : Bytes) : Prop :=
  ∃ count, text ++ List.replicate count padChar = Standard.Base64.written data

/-- Exactly the texts that spell bytes are read, each as those bytes. -/
theorem decode_eq_ok_iff (text : List Char) (data : Bytes) :
    decode text = .ok data ↔ Spells text data := by
  have encoded (count : Nat) :
      (text ++ List.replicate count padChar).flatMap String.utf8EncodeChar =
        text.flatMap String.utf8EncodeChar ++ List.replicate count pad := by
    rw [List.flatMap_append, utf8_replicate]
  have written : (encode data).flatMap String.utf8EncodeChar = encodeBytes data :=
    utf8_map fun byte => stands_of_mem_encodeBytes
  rw [decode, decodeBytes_eq_ok_iff_append, Spells]
  refine exists_congr fun count => ?_
  rw [← encoded, ← written, ← encode_eq_written]
  exact ⟨utf8_injective, congrArg _⟩

/-- Padding may be left out, but bits in excess may not be set. -/
example : decode "Zm8".toList = .ok [102, 111] ∧
    decode "Zm9=".toList = .error (.excessBits 57 2) := by decide

/-- A text spells at most one byte string. -/
theorem Spells.eq {text : List Char} {data other : Bytes} (spelled : Spells text data)
    (again : Spells text other) : other = data := by
  have read := (decode_eq_ok_iff text data).mpr spelled
  rw [(decode_eq_ok_iff text other).mpr again] at read
  exact Except.ok.inj read

/-- Texts that spell the same bytes are equal up to the padding at their ends. -/
theorem Spells.unpadded_eq {text other : List Char} {data : Bytes} (spelled : Spells text data)
    (again : Spells other data) :
    text.rdropWhile (· == padChar) = other.rdropWhile (· == padChar) := by
  have unpadded (front : List Char) (count : Nat) :
      (front ++ List.replicate count padChar).rdropWhile (· == padChar) =
        front.rdropWhile (· == padChar) := by
    rw [List.rdropWhile, List.rdropWhile, List.reverse_append, List.reverse_replicate,
      List.dropWhile_append_of_pos]
    intro char among
    rw [List.eq_of_mem_replicate among, beq_self_eq_true]
  obtain ⟨count, same⟩ := spelled
  obtain ⟨count', same'⟩ := again
  rw [← unpadded text count, ← unpadded other count', same, same']

end Base64

namespace Text

/-- The blanks in front of something that does not start with a blank are dropped. -/
theorem dropWhile_blank {front rest : List Char} (blank : ∀ char ∈ front, isBlank char)
    (stops : ∀ char ∈ rest.head?, isBlank char = false) :
    (front ++ rest).dropWhile isBlank = rest := by
  rw [List.dropWhile_append_of_pos blank]
  cases rest with
  | nil => rfl
  | cons char rest => exact List.dropWhile_cons_of_neg (by simp [stops char rfl])

/-- Blanks around a text without blanks are what is taken away. -/
theorem trim_append {before core after : List Char} (blankBefore : ∀ char ∈ before, isBlank char)
    (solid : ∀ char ∈ core, isBlank char = false) (blankAfter : ∀ char ∈ after, isBlank char) :
    trim (before ++ core ++ after) = core := by
  cases core with
  | nil =>
    have blank : ∀ char ∈ before ++ [] ++ after, isBlank char := by
      simpa [or_imp, forall_and] using ⟨blankBefore, blankAfter⟩
    rw [trim, List.dropWhile_eq_nil_iff.mpr blank]
    rfl
  | cons first core =>
    have front : (before ++ (first :: core) ++ after).dropWhile isBlank =
        first :: core ++ after := by
      rw [List.append_assoc]
      refine dropWhile_blank blankBefore ?_
      rintro char ⟨⟩
      exact solid first (List.mem_cons_self ..)
    have back : (first :: core ++ after).reverse.dropWhile isBlank = (first :: core).reverse := by
      rw [List.reverse_append]
      refine dropWhile_blank (by simpa using blankAfter) ?_
      intro char last
      exact solid char (List.mem_reverse.mp (List.mem_of_mem_head? last))
    rw [trim, front, back, List.reverse_reverse]

end Text

namespace WrappedKey

/-- A written form has no blanks. -/
theorem isBlank_toText (key : WrappedKey) :
    ∀ char ∈ key.toText.toList, Text.isBlank char = false := by
  intro char among
  rw [toText, String.toList_ofList, Base64.encode] at among
  obtain ⟨byte, listed, rfl⟩ := List.mem_map.mp among
  exact Base64.isBlank_of_stands byte (Base64.stands_of_mem_encodeBytes listed)

/-- A text that spells bytes is read as these bytes are. -/
theorem ofText_of_spells {text : String} {data : Bytes}
    (spelled : Base64.Spells (Text.trim text.toList) data) : ofText text = ofBytes data := by
  rw [ofText, (Base64.decode_eq_ok_iff _ _).mpr spelled]

/-- A text that is read spells the stored form of what is read. -/
theorem spells_of_ofText {text : String} {key : WrappedKey} (read : ofText text = .ok key) :
    Base64.Spells (Text.trim text.toList) key.toBytes := by
  unfold ofText at read
  split at read
  · next bytes decoded =>
    rw [toBytes_of_ofBytes read]
    exact (Base64.decode_eq_ok_iff _ _).mp decoded
  · contradiction

/-- Texts are read exactly when, without the blanks around them, they are the published form of some
bytes, with or without the padding at its end. There is one such byte string at most; the text is
read as it is, and refused for its length or its version as it is. Every other text is refused as
unreadable. So a stored text comes back whatever blanks are around it, and two texts of one record
differ in blanks and in padding only. -/
theorem ofText_exactly :
    (∀ (text : String) (data : Bytes), Base64.Spells (Text.trim text.toList) data →
      (∀ other, Base64.Spells (Text.trim text.toList) other → other = data) ∧
      ofText text = ofBytes data ∧
      (data.length < 45 →
        RefusedAs (ofText text) (.recordTooShort data.length) "MalformedBlob" 2001) ∧
      (45 ≤ data.length → ∀ first, data.head? = some first → first ≠ 1 →
        RefusedAs (ofText text) (.unknownVersion first) "MalformedBlob" 2002) ∧
      (45 ≤ data.length → data.head? = some 1 →
        ∃ key, ofText text = .ok key ∧ key.toBytes = data)) ∧
    (∀ text : String, (¬∃ data, Base64.Spells (Text.trim text.toList) data) →
      ∃ error, RefusedAs (ofText text) (.unreadableText error) "MalformedBlob" 2003) ∧
    (∀ (key : WrappedKey) (before after : String), (∀ char ∈ before.toList, Text.isBlank char) →
      (∀ char ∈ after.toList, Text.isBlank char) →
      ofText (before ++ key.toText ++ after) = .ok key) ∧
    ∀ (text other : String) (key : WrappedKey), ofText text = .ok key → ofText other = .ok key →
      (Text.trim text.toList).rdropWhile (· == '=') =
        (Text.trim other.toList).rdropWhile (· == '=') := by
  refine ⟨?_, ?_, ?_, ?_⟩
  · intro text data spelled
    have read := ofText_of_spells spelled
    refine ⟨fun other again => spelled.eq again, read, ?_, ?_, ?_⟩
    · intro short
      exact ⟨read.trans (ofBytes_of_short short), rfl, rfl⟩
    · intro long first starts unknown
      exact ⟨read.trans (ofBytes_of_unknown long starts unknown), rfl, rfl⟩
    · intro long starts
      obtain ⟨key, stored, _⟩ := exists_ofBytes long starts
      exact ⟨key, read.trans stored, toBytes_of_ofBytes stored⟩
  · intro text unspelled
    cases decoded : Base64.decode (Text.trim text.toList) with
    | ok data => exact absurd ⟨data, (Base64.decode_eq_ok_iff _ _).mp decoded⟩ unspelled
    | error error => exact ⟨error, by rw [ofText, decoded], rfl, rfl⟩
  · intro key before after blankBefore blankAfter
    have spelled :
        Base64.Spells (Text.trim (before ++ key.toText ++ after).toList) key.toBytes := by
      rw [String.toList_append, String.toList_append,
        Text.trim_append blankBefore key.isBlank_toText blankAfter, toText, String.toList_ofList,
        Base64.encode_eq_written]
      exact ⟨0, List.append_nil _⟩
    rw [ofText_of_spells spelled, ofBytes_toBytes]
  · intro text other key read again
    exact (spells_of_ofText read).unpadded_eq (spells_of_ofText again)

end WrappedKey

end KeyWrapping
