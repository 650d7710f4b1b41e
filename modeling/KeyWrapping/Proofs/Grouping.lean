import KeyWrapping.Proofs.TextForm
import KeyWrapping.Text.Base64.Grouped
/-!
# Reading all at once and reading in groups

The symbols in front of a text are the same whether they are looked for in the whole text or in one
group after another. If a group before the last one has a foreign byte, this byte has more of the
text behind it than padding could fill, so both ways of reading refuse it. Otherwise the last group
decides: what follows its symbols is padding that completes a half of it, or is refused at its first
byte, and the bits that are left over are those of the last symbol alone. So both ways give the same
bytes and the same refusals, with the same offsets (`decodeBytes_eq_grouped`).
-/

namespace KeyWrapping.Base64

section Symbols

variable {front : Bytes} (back : Bytes)

/-- What stands after the symbols in front does not start with a symbol. -/
theorem value?_head_scan (text : Bytes) : ∀ byte ∈ (scan text).2.head?, value? byte = none := by
  induction text with
  | nil => simp [scan]
  | cons byte rest ih =>
    cases found : value? byte with
    | none => simp [scan, found]
    | some value => simpa [scan, found] using ih

/-- Behind symbols only, the search goes on. -/
theorem scan_append_of_symbols (symbolic : (scan front).2 = []) :
    scan (front ++ back) = ((scan front).1 ++ (scan back).1, (scan back).2) := by
  obtain ⟨written, small⟩ := symbols_scan front
  obtain ⟨writtenBack, smallBack⟩ := symbols_scan back
  rw [symbolic, List.append_nil] at written
  have joined : front ++ back =
      ((scan front).1 ++ (scan back).1).map symbol ++ (scan back).2 := by
    rw [List.map_append, List.append_assoc, writtenBack, written]
  rw [joined]
  exact scan_symbols (List.forall_mem_append.mpr ⟨small, smallBack⟩) (value?_head_scan back)

/-- The search ends at the first foreign byte, whatever follows. -/
theorem scan_append_of_foreign {byte : UInt8} {rest : Bytes}
    (foreign : (scan front).2 = byte :: rest) :
    scan (front ++ back) = ((scan front).1, byte :: (rest ++ back)) := by
  obtain ⟨written, small⟩ := symbols_scan front
  have ends := value?_head_scan front
  rw [foreign] at written ends
  have joined : front ++ back = (scan front).1.map symbol ++ byte :: (rest ++ back) := by
    rw [← List.cons_append, ← List.append_assoc, written]
  rw [joined]
  exact scan_symbols small ends

end Symbols

/-- The last symbol stands at the last place of the symbols. -/
theorem getElem?_last_symbol {text : Bytes} {last : UInt8}
    (found : (scan text).1.getLast? = some last) :
    text[(scan text).1.length - 1]? = some (symbol last) := by
  obtain ⟨written, _⟩ := symbols_scan text
  rw [List.getLast?_eq_getElem?] at found
  obtain ⟨inside, _⟩ := List.getElem?_eq_some_iff.mp found
  generalize (scan text).1 = values at written found inside ⊢
  rw [← written, List.getElem?_append_left (by rwa [List.length_map]), List.getElem?_map, found]
  rfl

/-- The unused bits of the second, the third and the fourth symbol of a group of four. -/
theorem unusedBits_group : unusedBits 2 = 15 ∧ unusedBits 3 = 3 ∧ unusedBits 4 = 0 := by decide

/-- The bits in excess are the unused ones of the last symbol. -/
theorem excess_concat (front : List UInt8) (last : UInt8) (grouped : (front.length + 1) % 4 ≠ 1) :
    excess (front ++ [last]) = last &&& unusedBits (front.length + 1) := by
  match front with
  | [] => exact absurd rfl grouped
  | [_] | [_, _] | [_, _, _] => simp [excess, unusedBits_group]
  | a :: b :: c :: d :: rest =>
    have inner := excess_concat rest last (by simp only [List.length_cons] at grouped; omega)
    have counted :
        6 * ((a :: b :: c :: d :: rest).length + 1) % 8 = 6 * (rest.length + 1) % 8 := by
      simp only [List.length_cons]
      omega
    rw [unusedBits, counted, ← unusedBits, ← inner]
    rfl

/-- The bytes of whole groups and of what follows them. -/
theorem bytes_append (front back : List UInt8) (whole : front.length % 4 = 0) :
    bytes (front ++ back) = bytes front ++ bytes back := by
  match front with
  | [] => rfl
  | [_] | [_, _] | [_, _, _] => contradiction
  | a :: b :: c :: d :: rest =>
    have inner := bytes_append rest back (by simp only [List.length_cons] at whole; omega)
    simp only [List.cons_append, bytes, inner]

/-- Whole groups have no bits in excess. -/
theorem excess_append (front back : List UInt8) (whole : front.length % 4 = 0) :
    excess (front ++ back) = excess back := by
  match front with
  | [] => rfl
  | [_] | [_, _] | [_, _, _] => contradiction
  | a :: b :: c :: d :: rest =>
    have inner := excess_append rest back (by simp only [List.length_cons] at whole; omega)
    simp only [List.cons_append, excess, inner]

namespace Grouped

/-- A group is read as its symbols, or refused at its first foreign byte. -/
theorem readGroup_eq (start : Nat) (text : Bytes) :
    readGroup start text =
      match (scan text).2 with
      | [] => .ok (scan text).1
      | byte :: _ => .error (.foreignByte byte (start + (scan text).1.length)) := by
  induction text generalizing start with
  | nil => rfl
  | cons byte rest ih =>
    cases found : value? byte with
    | none => simp [readGroup, scan, found]
    | some value =>
      simp only [readGroup, scan, found, ih (start + 1), List.length_cons]
      cases (scan rest).2 with
      | nil => rfl
      | cons foreign others =>
        rw [Nat.add_right_comm, Nat.add_assoc]
        rfl

/-- A group that is cut in two is read in two. -/
theorem readGroup_append (start : Nat) (front back : Bytes) :
    readGroup start (front ++ back) = (do
      let group ← readGroup start front
      let others ← readGroup (start + front.length) back
      return group ++ others) := by
  rw [readGroup_eq start front]
  cases foreign : (scan front).2 with
  | nil =>
    have counted : (scan front).1.length = front.length := by
      simpa [foreign] using length_scan front
    rw [readGroup_eq, readGroup_eq, scan_append_of_symbols back foreign]
    cases (scan back).2 with
    | nil => rfl
    | cons byte rest =>
      simp only [List.length_append, counted, ← Nat.add_assoc]
      rfl
  | cons byte rest =>
    rw [readGroup_eq, scan_append_of_foreign back foreign]
    rfl

/-- Groups of eight are read as one group that is as long as all of them. -/
theorem readGroups_eq_readGroup (start count : Nat) (text : Bytes)
    (long : 8 * count ≤ text.length) :
    readGroups start count text = readGroup start (text.take (8 * count)) := by
  induction count generalizing start text with
  | zero => rfl
  | succ count ih =>
    have first : (text.take 8).length = 8 := by
      rw [List.length_take]
      omega
    have parted : text.take (8 * (count + 1)) = text.take 8 ++ (text.drop 8).take (8 * count) := by
      rw [Nat.mul_succ, Nat.add_comm, List.take_add]
    rw [readGroups, ih (start + 8) (text.drop 8) (by rw [List.length_drop]; omega), parted,
      readGroup_append, first]

/-- Once there is padding, only padding can follow, up to the end of the half group; if not, the
first padding is named. -/
theorem readEnding_of_padded (start place first : Nat) (values : List UInt8) (lastSymbol : UInt8)
    (rest : Bytes) :
    readEnding start place ⟨values, lastSymbol, some first⟩ rest =
      if rest.all (· == pad) ∧ (rest = [] ∨ 2 ≤ place % 4 ∧ rest.length ≤ 4 - place % 4) then
        .ok ⟨values, lastSymbol, some first⟩
      else .error (.foreignByte pad (start + first)) := by
  -- Each further padding moves the place on until half a group of four is full.
  induction rest generalizing place with
  | nil => simp [readEnding]
  | cons byte rest ih =>
    by_cases padded : byte = pad
    · by_cases early : place % 4 < 2
      · have misfit : ¬2 ≤ place % 4 := Nat.not_le.mpr early
        simp [readEnding, Ending.read, padded, early, misfit, bind, Except.bind]
      · have next : Ending.read start place ⟨values, lastSymbol, some first⟩ byte =
            .ok ⟨values, lastSymbol, some first⟩ := by
          simp [Ending.read, padded, early]
        have fits : (rest = [] ∨ 2 ≤ (place + 1) % 4 ∧ rest.length ≤ 4 - (place + 1) % 4) ↔
            2 ≤ place % 4 ∧ (byte :: rest).length ≤ 4 - place % 4 := by
          rw [← List.length_eq_zero_iff, List.length_cons]
          omega
        rw [readEnding, next]
        change readEnding start (place + 1) _ rest = _
        rw [ih]
        simp [padded, fits]
    · simp [readEnding, Ending.read, padded, bind, Except.bind]

/-- What follows the symbols of a last group is padding that completes the group; if not, its first
byte is named. -/
theorem readEnding_of_foreign (start place : Nat) (values : List UInt8) (lastSymbol : UInt8)
    {byte : UInt8} (rest : Bytes) (foreign : value? byte = none) (whole : start % 4 = 0) :
    readEnding start place ⟨values, lastSymbol, none⟩ (byte :: rest) =
      (checkPadding (start + place) (byte :: rest)).map fun _ =>
        ⟨values, lastSymbol, some place⟩ := by
  have placed : (start + place) % 4 = place % 4 := by omega
  by_cases padded : byte = pad
  · subst padded
    by_cases early : place % 4 < 2
    · have misfit : ¬2 ≤ place % 4 := Nat.not_le.mpr early
      simp [readEnding, Ending.read, checkPadding, early, misfit, placed, bind, Except.bind,
        Except.map]
    · have next : Ending.read start place ⟨values, lastSymbol, none⟩ pad =
          .ok ⟨values, lastSymbol, some place⟩ := by
        simp [Ending.read, early]
      have fits : (rest = [] ∨ 2 ≤ (place + 1) % 4 ∧ rest.length ≤ 4 - (place + 1) % 4) ↔
          2 ≤ place % 4 ∧ rest.length + 1 ≤ 4 - place % 4 := by
        rw [← List.length_eq_zero_iff]
        omega
      rw [readEnding, next]
      change readEnding start (place + 1) _ rest = _
      rw [readEnding_of_padded, checkPadding, placed]
      simp only [fits, List.all_cons, beq_self_eq_true, Bool.true_and]
      split
      · rfl
      · rfl
  · simp [readEnding, Ending.read, checkPadding, padded, foreign, bind, Except.bind, Except.map]

/-- A last group is read as its symbols, if they are all or padding completes the group. -/
theorem readEnding_eq (start place : Nat) (values : List UInt8) (lastSymbol : UInt8) (text : Bytes)
    (whole : start % 4 = 0) :
    readEnding start place ⟨values, lastSymbol, none⟩ text =
      (checkPadding (start + place + (scan text).1.length) (scan text).2).map fun _ =>
        ⟨values ++ (scan text).1, ((scan text).1.getLast?.map symbol).getD lastSymbol,
          (scan text).2.head?.map fun _ => place + (scan text).1.length⟩ := by
  induction text generalizing place values lastSymbol with
  | nil => simp [readEnding, scan, checkPadding, Except.map]
  | cons byte rest ih =>
    cases found : value? byte with
    | some value =>
      have symbolic : byte ≠ pad := by
        rintro rfl
        rw [value?_pad] at found
        contradiction
      have next : Ending.read start place ⟨values, lastSymbol, none⟩ byte =
          .ok ⟨values ++ [value], byte, none⟩ := by
        simp [Ending.read, symbolic, found]
      have lastOf : ((scan rest).1.getLast?.map symbol).getD byte =
          ((value :: (scan rest).1).getLast?.map symbol).getD lastSymbol := by
        rw [List.getLast?_cons, ← (symbol_of_value? found).1]
        cases (scan rest).1.getLast? with
        | none => rfl
        | some last => rfl
      have counted (front : Nat) : front + 1 + (scan rest).1.length =
          front + (value :: (scan rest).1).length := by
        rw [List.length_cons]
        omega
      rw [readEnding, next]
      change readEnding start (place + 1) _ rest = _
      simp only [ih, scan, found, lastOf, ← Nat.add_assoc start place 1, counted, List.append_assoc,
        List.singleton_append]
    | none => simp [readEnding_of_foreign, scan, found, whole]

/-- The unused bits of the last symbol decide, whether its place is counted in its group or in the
whole text. -/
theorem check_scan {front : Bytes} (back : Bytes) (firstPad : Option Nat)
    (symbolic : (scan front).2 = []) (whole : (scan front).1.length % 4 = 0)
    (grouped : (scan back).1.length % 4 ≠ 1) :
    Ending.check (scan front).1.length
        ⟨(scan back).1, ((scan back).1.getLast?.map symbol).getD 0, firstPad⟩ =
      checkExcess (front ++ back) ((scan front).1 ++ (scan back).1) := by
  have scanned := scan_append_of_symbols back symbolic
  rw [checkExcess, excess_append _ _ whole, Ending.check, List.length_append]
  obtain empty | ⟨values, last, parted⟩ := List.eq_nil_or_concat (scan back).1
  · rw [empty]
    rfl
  · rw [List.concat_eq_append] at parted
    rw [parted] at scanned grouped ⊢
    have bits := excess_concat values last (by simpa using grouped)
    have behind : (scan (front ++ back)).1.getLast? = some last := by simp [scanned]
    have named := getElem?_last_symbol behind
    rw [scanned, List.length_append] at named
    rw [List.getD_eq_getElem?_getD, named]
    simp only [bits, List.length_append, List.length_singleton, List.getLast?_concat,
      Option.map_some, Option.getD_some]

end Grouped

/-- A foreign byte in front of the last group is refused, because padding there could not complete
its group. -/
theorem checkPadding_of_front (symbols : Nat) (byte : UInt8) {rest back : Bytes}
    (whole : (symbols + rest.length + 1) % 4 = 0) (followed : back ≠ []) :
    checkPadding symbols (byte :: (rest ++ back)) = .error (.foreignByte byte symbols) := by
  have more := List.length_pos_iff.mpr followed
  rw [checkPadding, if_neg]
  rintro ⟨_, _, few⟩
  rw [List.length_append] at few
  omega

/-- Reading all symbols at once and reading in groups come to the same bytes and the same refusals. -/
theorem decodeBytes_eq_grouped (text : Bytes) : decodeBytes text = Grouped.decodeBytes text := by
  unfold decodeBytes Grouped.decodeBytes
  cases length : checkLength text with
  | error failure => rfl
  | ok _ =>
    generalize counted : (text.length - 1) / 8 = count
    have long : 8 * count ≤ text.length := by omega
    have parted := List.take_append_drop (8 * count) text
    have first : (text.take (8 * count)).length = 8 * count := by
      rw [List.length_take]
      omega
    simp only [bind, Except.bind]
    rw [Grouped.readGroups_eq_readGroup 0 count text long, Grouped.readGroup_eq]
    generalize text.take (8 * count) = front at parted first ⊢
    generalize text.drop (8 * count) = back at parted ⊢
    have total := length_scan front
    cases foreign : (scan front).2 with
    | cons byte rest =>
      -- The last group is not empty, so the foreign byte has too much behind it to be padding.
      rw [foreign, List.length_cons, first] at total
      have followed : back ≠ [] := by
        rintro rfl
        rw [← parted, List.append_nil, first] at counted
        omega
      have refused := checkPadding_of_front (scan front).1.length byte
        (show ((scan front).1.length + rest.length + 1) % 4 = 0 by omega) followed
      rw [← parted, scan_append_of_foreign back foreign]
      simp only [refused, Nat.zero_add]
    | nil =>
      -- All groups in front are symbols, and what is asked of the last one is asked of the text.
      rw [foreign, List.length_nil, Nat.add_zero, first] at total
      have scanned := scan_append_of_symbols back foreign
      have whole : 8 * count % 4 = 0 := by omega
      simp only [Grouped.readEnding_eq _ _ _ _ back whole, ← parted, scanned, List.length_append,
        total, Nat.add_zero, List.nil_append]
      cases padding : checkPadding (8 * count + (scan back).1.length) (scan back).2 with
      | error failure => rfl
      | ok _ =>
        have grouped : (8 * count + (scan back).1.length) % 4 ≠ 1 := by
          have checked := exists_pads_of_checked (parted ▸ length)
          rw [scanned, List.length_append, total] at checked
          exact (checked padding).1
        have decided := Grouped.check_scan back
          ((scan back).2.head?.map fun _ => 0 + (scan back).1.length) foreign (by omega) (by omega)
        rw [total] at decided
        simp only [Except.map, decided, bytes_append (scan front).1 (scan back).1 (by omega)]

/-- Padding in front of the last group is named where it starts, and so is padding that does not
complete a group. -/
example : Grouped.decodeBytes (List.replicate 6 65 ++ [61, 61, 65, 65]) =
      .error (.foreignByte 61 6) ∧
    Grouped.decodeBytes (List.replicate 10 65 ++ [61, 61, 61, 61]) =
      .error (.foreignByte 61 10) := by decide

end KeyWrapping.Base64
