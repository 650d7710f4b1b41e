import KeyWrapping.Proofs.ByteOrder
import KeyWrapping.Standard.Base64
import KeyWrapping.Text.Base64
/-!
# Bytes in groups of six bits

Three bytes and four six-bit values are two ways to write one number, so that bytes and values go
over into each other without loss (`bytes_values`, `values_bytes`). One or two last bytes leave bits
over, which are zero in the values of bytes; one value alone is no byte. A symbol and its value
determine each other, and padding is no symbol. The values of bytes are the numbers of their bits in
groups of six, so the written form is the published one (`encode_eq_written`).
-/

namespace KeyWrapping.Base64

/-- A value below sixty-four is the value of its symbol. -/
theorem value?_symbol : ∀ value : UInt8, value < 64 → value? (symbol value) = some value :=
  forall_byte (by decide +kernel)

/-- A byte with a value is the symbol of that value, which is below sixty-four. -/
theorem symbol_of_value? {byte value : UInt8} (found : value? byte = some value) :
    symbol value = byte ∧ value < 64 := by
  have checked : ∀ byte : UInt8,
      (value? byte).all (fun value => symbol value == byte && value < 64) = true :=
    forall_byte (by decide +kernel)
  have both := checked byte
  rw [found] at both
  simpa using both

/-- Padding has no value. -/
theorem value?_pad : value? pad = none := by decide

/-- No symbol is padding. -/
theorem symbol_ne_pad {value : UInt8} (small : value < 64) : symbol value ≠ pad := by
  intro same
  have found := value?_symbol value small
  rw [same, value?_pad] at found
  contradiction

/-- Six bits write the numbers below sixty-four. -/
theorem small_iff (value : UInt8) : value < 64 ↔ value.toNat < 64 := UInt8.lt_iff_toNat_lt

section Numbers

variable (a b c d x y z : UInt8)

/-- A byte without its last places. -/
theorem toNat_shiftRight (byte : UInt8) (places : Nat) (few : places < 8) :
    (byte >>> UInt8.ofNat places).toNat = byte.toNat / 2 ^ places := by
  have count : (UInt8.ofNat places).toNat % 8 = places := by
    rw [UInt8.toNat_ofNat']
    omega
  rw [UInt8.toNat_shiftRight, count, Nat.shiftRight_eq_div_pow]

/-- The last places of a byte. -/
theorem toNat_and_mask (byte : UInt8) (places : Nat) (few : places < 8) :
    (byte &&& UInt8.ofNat (2 ^ places - 1)).toNat = byte.toNat % 2 ^ places := by
  have fits : 2 ^ places ≤ 2 ^ 8 := Nat.pow_le_pow_right (by decide) (Nat.le_of_lt few)
  have mask : (UInt8.ofNat (2 ^ places - 1)).toNat = 2 ^ places - 1 := by
    rw [UInt8.toNat_ofNat']
    exact Nat.mod_eq_of_lt (by omega)
  rw [UInt8.toNat_and, mask, Nat.and_two_pow_sub_one_eq_mod]

/-- The last two places of a byte. -/
theorem toNat_and_three : (x &&& 3).toNat = x.toNat % 4 := toNat_and_mask x 2 (by decide)

/-- The last four places of a byte. -/
theorem toNat_and_fifteen : (x &&& 15).toNat = x.toNat % 16 := toNat_and_mask x 4 (by decide)

/-- A byte moved up by some places, and a number of fewer places joined to it. -/
theorem toNat_shiftLeft_or (high low : UInt8) (places : Nat) (few : places < 8)
    (small : low.toNat < 2 ^ places) :
    ((high <<< UInt8.ofNat places) ||| low).toNat =
      high.toNat * 2 ^ places % 2 ^ 8 + low.toNat := by
  have count : (UInt8.ofNat places).toNat % 8 = places := by
    rw [UInt8.toNat_ofNat']
    omega
  have split : 2 ^ 8 = 2 ^ places * 2 ^ (8 - places) := by
    rw [← Nat.pow_add]
    congr 1
    omega
  rw [UInt8.toNat_or, UInt8.toNat_shiftLeft, count, Nat.shiftLeft_eq, split, Nat.mul_comm,
    Nat.mul_mod_mul_left, Nat.two_pow_add_eq_or_of_lt small]

/-- The first value of three bytes. -/
theorem toNat_firstValue : (x >>> 2).toNat = x.toNat / 4 := toNat_shiftRight x 2 (by decide)

/-- The second value of three bytes. -/
theorem toNat_secondValue :
    (((x &&& 3) <<< 4) ||| (y >>> 4)).toNat = x.toNat % 4 * 16 + y.toNat / 16 := by
  have bound := y.toNat_lt
  have high := toNat_and_three x
  have low : (y >>> 4).toNat = y.toNat / 16 := toNat_shiftRight y 4 (by decide)
  have joined := toNat_shiftLeft_or (x &&& 3) (y >>> 4) 4 (by decide) (by omega)
  refine joined.trans ?_
  omega

/-- The third value of three bytes. -/
theorem toNat_thirdValue :
    (((y &&& 15) <<< 2) ||| (z >>> 6)).toNat = y.toNat % 16 * 4 + z.toNat / 64 := by
  have bound := z.toNat_lt
  have high := toNat_and_fifteen y
  have low : (z >>> 6).toNat = z.toNat / 64 := toNat_shiftRight z 6 (by decide)
  have joined := toNat_shiftLeft_or (y &&& 15) (z >>> 6) 2 (by decide) (by omega)
  refine joined.trans ?_
  omega

/-- The last value of one byte. -/
theorem toNat_secondValue_last : ((x &&& 3) <<< 4).toNat = x.toNat % 4 * 16 := by
  simpa using toNat_secondValue x 0

/-- The last value of two bytes. -/
theorem toNat_thirdValue_last : ((y &&& 15) <<< 2).toNat = y.toNat % 16 * 4 := by
  simpa using toNat_thirdValue y 0

/-- The fourth value of three bytes. -/
theorem toNat_fourthValue : (z &&& 63).toNat = z.toNat % 64 := toNat_and_mask z 6 (by decide)

/-- The first value has six bits. -/
theorem firstValue_lt : x >>> 2 < 64 := by
  have bound := x.toNat_lt
  rw [small_iff, toNat_firstValue]
  omega

/-- The second value has six bits. -/
theorem secondValue_lt : ((x &&& 3) <<< 4) ||| (y >>> 4) < 64 := by
  have bound := y.toNat_lt
  rw [small_iff, toNat_secondValue]
  omega

/-- The third value has six bits. -/
theorem thirdValue_lt : ((y &&& 15) <<< 2) ||| (z >>> 6) < 64 := by
  have bound := z.toNat_lt
  rw [small_iff, toNat_thirdValue]
  omega

/-- The last value of one byte has six bits. -/
theorem secondValue_last_lt : (x &&& 3) <<< 4 < 64 := by
  rw [small_iff, toNat_secondValue_last]
  omega

/-- The last value of two bytes has six bits. -/
theorem thirdValue_last_lt : (y &&& 15) <<< 2 < 64 := by
  rw [small_iff, toNat_thirdValue_last]
  omega

/-- The fourth value has six bits. -/
theorem fourthValue_lt : z &&& 63 < 64 := by
  rw [small_iff, toNat_fourthValue]
  omega

variable {b c d}

/-- The first byte of four values. -/
theorem toNat_firstByte (small : b < 64) :
    ((a <<< 2) ||| (b >>> 4)).toNat = a.toNat * 4 % 256 + b.toNat / 16 := by
  have bound : b.toNat < 64 := (small_iff _).mp small
  have low : (b >>> 4).toNat = b.toNat / 16 := toNat_shiftRight b 4 (by decide)
  have joined := toNat_shiftLeft_or a (b >>> 4) 2 (by decide) (by omega)
  refine joined.trans ?_
  omega

variable (b) in
/-- The second byte of four values. -/
theorem toNat_secondByte (small : c < 64) :
    ((b <<< 4) ||| (c >>> 2)).toNat = b.toNat * 16 % 256 + c.toNat / 4 := by
  have bound : c.toNat < 64 := (small_iff _).mp small
  have low : (c >>> 2).toNat = c.toNat / 4 := toNat_shiftRight c 2 (by decide)
  have joined := toNat_shiftLeft_or b (c >>> 2) 4 (by decide) (by omega)
  refine joined.trans ?_
  omega

variable (c) in
/-- The third byte of four values. -/
theorem toNat_thirdByte (small : d < 64) :
    ((c <<< 6) ||| d).toNat = c.toNat * 64 % 256 + d.toNat :=
  toNat_shiftLeft_or c d 6 (by decide) ((small_iff _).mp small)

end Numbers

/-- The values of bytes have six bits. -/
theorem values_lt (data : Bytes) : ∀ value ∈ values data, value < 64 := by
  fun_induction values data with
  | case1 => simp
  | case2 x => simp [firstValue_lt, secondValue_last_lt]
  | case3 x y => simp [firstValue_lt, secondValue_lt, thirdValue_last_lt]
  | case4 x y z rest ih =>
    simp only [List.forall_mem_cons]
    exact ⟨firstValue_lt x, secondValue_lt x y, thirdValue_lt y z, fourthValue_lt z, ih⟩

/-- The bytes of the values of bytes are the bytes. -/
theorem bytes_values (data : Bytes) : bytes (values data) = data := by
  fun_induction values data with
  | case1 => rfl
  | case2 x =>
    have bound := x.toNat_lt
    simp only [bytes, List.cons.injEq, and_true, ← UInt8.toNat_inj,
      toNat_firstByte _ (secondValue_last_lt x), toNat_firstValue, toNat_secondValue_last]
    omega
  | case3 x y =>
    have boundX := x.toNat_lt
    have boundY := y.toNat_lt
    simp only [bytes, List.cons.injEq, and_true, ← UInt8.toNat_inj,
      toNat_firstByte _ (secondValue_lt x y), toNat_secondByte _ (thirdValue_last_lt y),
      toNat_firstValue, toNat_secondValue, toNat_thirdValue_last]
    omega
  | case4 x y z rest ih =>
    have boundX := x.toNat_lt
    have boundY := y.toNat_lt
    have boundZ := z.toNat_lt
    simp only [bytes, ih, List.cons.injEq, and_true, ← UInt8.toNat_inj,
      toNat_firstByte _ (secondValue_lt x y), toNat_secondByte _ (thirdValue_lt y z),
      toNat_thirdByte _ (fourthValue_lt z), toNat_firstValue, toNat_secondValue, toNat_thirdValue,
      toNat_fourthValue]
    omega

/-- The values of bytes leave no bits over. -/
theorem excess_values (data : Bytes) : excess (values data) = 0 := by
  fun_induction values data with
  | case1 => rfl
  | case2 x =>
    simp only [excess, ← UInt8.toNat_inj, toNat_and_fifteen, toNat_secondValue_last,
      UInt8.toNat_zero]
    omega
  | case3 x y =>
    simp only [excess, ← UInt8.toNat_inj, toNat_and_three, toNat_thirdValue_last, UInt8.toNat_zero]
    omega
  | case4 x y z rest ih => exact ih

/-- Bytes have no value that stands alone behind whole groups. -/
theorem length_values (data : Bytes) : (values data).length % 4 ≠ 1 := by
  fun_induction values data with
  | case1 => decide
  | case2 x => simp
  | case3 x y => simp
  | case4 x y z rest ih =>
    simp only [List.length_cons]
    omega

/-- Values that leave no bits over and no value alone are the values of their bytes. -/
theorem values_bytes (list : List UInt8) (small : ∀ value ∈ list, value < 64)
    (zero : excess list = 0) (grouped : list.length % 4 ≠ 1) : values (bytes list) = list := by
  fun_induction bytes list with
  | case1 a b c d rest ih =>
    simp only [List.forall_mem_cons] at small
    obtain ⟨smallA, smallB, smallC, smallD, others⟩ := small
    have inner := ih others zero (by simp only [List.length_cons] at grouped; omega)
    have boundA := (small_iff a).mp smallA
    have boundB := (small_iff b).mp smallB
    have boundC := (small_iff c).mp smallC
    have boundD := (small_iff d).mp smallD
    simp only [values, inner, List.cons.injEq, and_true, ← UInt8.toNat_inj, toNat_firstValue,
      toNat_secondValue, toNat_thirdValue, toNat_fourthValue, toNat_firstByte _ smallB,
      toNat_secondByte _ smallC, toNat_thirdByte _ smallD]
    omega
  | case2 a b c =>
    simp only [List.forall_mem_cons] at small
    obtain ⟨smallA, smallB, smallC, _⟩ := small
    have boundA := (small_iff a).mp smallA
    have boundB := (small_iff b).mp smallB
    have boundC := (small_iff c).mp smallC
    simp only [excess, ← UInt8.toNat_inj, toNat_and_three, UInt8.toNat_zero] at zero
    simp only [values, List.cons.injEq, and_true, ← UInt8.toNat_inj, toNat_firstValue,
      toNat_secondValue, toNat_thirdValue_last, toNat_firstByte _ smallB, toNat_secondByte _ smallC]
    omega
  | case3 a b =>
    simp only [List.forall_mem_cons] at small
    obtain ⟨smallA, smallB, _⟩ := small
    have boundA := (small_iff a).mp smallA
    have boundB := (small_iff b).mp smallB
    simp only [excess, ← UInt8.toNat_inj, toNat_and_fifteen, UInt8.toNat_zero] at zero
    simp only [values, List.cons.injEq, and_true, ← UInt8.toNat_inj, toNat_firstValue,
      toNat_secondValue_last, toNat_firstByte _ smallB]
    omega
  | case4 list notFour notThree notTwo =>
    match list with
    | [] => rfl
    | [_] => exact absurd rfl grouped
    | [a, b] => exact (notTwo a b rfl).elim
    | [a, b, c] => exact (notThree a b c rfl).elim
    | a :: b :: c :: d :: rest => exact (notFour a b c d rest rfl).elim

/-- The values of the symbols in front of something that does not start with a symbol. -/
theorem scan_symbols {list : List UInt8} (small : ∀ value ∈ list, value < 64) {after : Bytes}
    (ends : ∀ byte ∈ after.head?, value? byte = none) :
    scan (list.map symbol ++ after) = (list, after) := by
  induction list with
  | nil =>
    cases after with
    | nil => rfl
    | cons byte rest =>
      have foreign : value? byte = none := ends byte rfl
      simp only [List.map_nil, List.nil_append, scan, foreign]
  | cons value list ih =>
    obtain ⟨first, others⟩ := List.forall_mem_cons.mp small
    simp only [List.map_cons, List.cons_append, scan, value?_symbol value first, ih others]

/-- A text is the symbols of the values in front and what stands after them. -/
theorem symbols_scan (text : Bytes) :
    (scan text).1.map symbol ++ (scan text).2 = text ∧ ∀ value ∈ (scan text).1, value < 64 := by
  induction text with
  | nil => exact ⟨rfl, by simp [scan]⟩
  | cons byte rest ih =>
    cases found : value? byte with
    | none => simp [scan, found]
    | some value =>
      obtain ⟨same, small⟩ := symbol_of_value? found
      simp only [scan, found, List.map_cons, List.cons_append, same, ih.1, List.forall_mem_cons]
      exact ⟨trivial, small, ih.2⟩

/-- The symbols in front and what stands after them are the whole text. -/
theorem length_scan (text : Bytes) : (scan text).1.length + (scan text).2.length = text.length := by
  have written := congrArg List.length (symbols_scan text).1
  rwa [List.length_append, List.length_map] at written

section Published

open Standard.Base64 (bits groups number)

/-- The number of bits behind a number. -/
theorem number_foldl (start : Nat) (back : List Bool) :
    back.foldl (fun number bit => number * 2 + bit.toNat) start =
      start * 2 ^ back.length + number back := by
  induction back generalizing start with
  | nil => simp [number]
  | cons bit back ih =>
    rw [number, List.foldl_cons, List.foldl_cons, ih, ih, List.length_cons, Nat.pow_succ,
      Nat.zero_mul, Nat.zero_add, Nat.add_mul, Nat.add_assoc, Nat.mul_assoc, Nat.mul_comm 2]

/-- The number of bits behind others. -/
theorem number_append (front back : List Bool) :
    number (front ++ back) = number front * 2 ^ back.length + number back := by
  rw [number, List.foldl_append, number_foldl]
  rfl

/-- Bits write a number of so many bits. -/
theorem number_lt (list : List Bool) : number list < 2 ^ list.length := by
  induction list with
  | nil => decide
  | cons bit rest ih =>
    have first : number [bit] < 2 := by cases bit <;> decide
    rw [← List.singleton_append, number_append, List.length_append, List.length_singleton,
      Nat.pow_add, Nat.pow_one]
    calc
      number [bit] * 2 ^ rest.length + number rest
        < number [bit] * 2 ^ rest.length + 2 ^ rest.length := Nat.add_lt_add_left ih _
      _ = (number [bit] + 1) * 2 ^ rest.length := (Nat.succ_mul _ _).symm
      _ ≤ 2 * 2 ^ rest.length := Nat.mul_le_mul_right _ first

/-- The bits of a byte write it. -/
theorem number_bits : ∀ byte : UInt8, number (bits byte) = byte.toNat :=
  forall_byte (by decide +kernel)

/-- A byte is the number of its first bits and that of the others, which is smaller than the unit of
the first. -/
theorem number_parts (byte : UInt8) (count : Nat) :
    number ((bits byte).take count) * 2 ^ (8 - count) + number ((bits byte).drop count) =
        byte.toNat ∧
      number ((bits byte).drop count) < 2 ^ (8 - count) := by
  have others : ((bits byte).drop count).length = 8 - count := List.length_drop
  refine ⟨?_, others ▸ number_lt _⟩
  rw [← others, ← number_append, List.take_append_drop, number_bits]

/-- The first bits of a byte. -/
theorem number_take_bits (byte : UInt8) (count : Nat) :
    number ((bits byte).take count) = byte.toNat / 2 ^ (8 - count) := by
  obtain ⟨whole, small⟩ := number_parts byte count
  rw [← whole, Nat.mul_comm, Nat.mul_add_div (Nat.two_pow_pos _), Nat.div_eq_of_lt small,
    Nat.add_zero]

/-- The last bits of a byte. -/
theorem number_drop_bits (byte : UInt8) (count : Nat) :
    number ((bits byte).drop count) = byte.toNat % 2 ^ (8 - count) := by
  obtain ⟨whole, small⟩ := number_parts byte count
  rw [← whole, Nat.mul_comm, Nat.mul_add_mod, Nat.mod_eq_of_lt small]

/-- The last bits of a byte and the first of the next. -/
theorem number_joined_bits (byte next : UInt8) (last : Nat) {first : Nat} (inside : first ≤ 8) :
    number ((bits byte).drop last ++ (bits next).take first) =
      byte.toNat % 2 ^ (8 - last) * 2 ^ first + next.toNat / 2 ^ (8 - first) := by
  have counted : ((bits next).take first).length = first := by
    rw [List.length_take]
    exact Nat.min_eq_left inside
  rw [number_append, counted, number_drop_bits, number_take_bits]

/-- The last bits of a byte, filled with zeros. -/
theorem number_filled_bits (byte : UInt8) (last count : Nat) :
    number ((bits byte).drop last ++ List.replicate count false) =
      byte.toNat % 2 ^ (8 - last) * 2 ^ count := by
  have zeros : number (List.replicate count false) = 0 := by
    induction count with
    | zero => rfl
    | succ count ih => exact ih
  rw [number_append, zeros, List.length_replicate, number_drop_bits, Nat.add_zero]

section Groups

variable (x y z : UInt8)

/-- The first group writes the first value. -/
theorem number_firstGroup : number ((bits x).take 6) = (x >>> 2).toNat :=
  (number_take_bits x 6).trans (toNat_firstValue x).symm

/-- The second group writes the second value. -/
theorem number_secondGroup :
    number ((bits x).drop 6 ++ (bits y).take 4) = (((x &&& 3) <<< 4) ||| (y >>> 4)).toNat :=
  (number_joined_bits x y 6 (by decide)).trans (toNat_secondValue x y).symm

/-- The third group writes the third value. -/
theorem number_thirdGroup :
    number ((bits y).drop 4 ++ (bits z).take 2) = (((y &&& 15) <<< 2) ||| (z >>> 6)).toNat :=
  (number_joined_bits y z 4 (by decide)).trans (toNat_thirdValue y z).symm

/-- The fourth group writes the fourth value. -/
theorem number_fourthGroup : number ((bits z).drop 2) = (z &&& 63).toNat :=
  (number_drop_bits z 2).trans (toNat_fourthValue z).symm

/-- The filled group after one byte writes its last value. -/
theorem number_secondGroup_last :
    number ((bits x).drop 6 ++ List.replicate 4 false) = ((x &&& 3) <<< 4).toNat :=
  (number_filled_bits x 6 4).trans (toNat_secondValue_last x).symm

/-- The filled group after two bytes writes their last value. -/
theorem number_thirdGroup_last :
    number ((bits y).drop 4 ++ List.replicate 2 false) = ((y &&& 15) <<< 2).toNat :=
  (number_filled_bits y 4 2).trans (toNat_thirdValue_last y).symm

end Groups

/-- The groups of the bits of bytes write the values of the bytes. -/
theorem number_groups (data : Bytes) :
    (groups (data.flatMap bits)).map number = (values data).map UInt8.toNat := by
  fun_induction values data with
  | case1 => rfl
  | case2 x =>
    have parted : groups ([x].flatMap bits) =
        [(bits x).take 6, (bits x).drop 6 ++ List.replicate 4 false] := rfl
    simp only [parted, List.map_cons, List.map_nil, number_firstGroup, number_secondGroup_last]
  | case3 x y =>
    have parted : groups ([x, y].flatMap bits) =
        [(bits x).take 6, (bits x).drop 6 ++ (bits y).take 4,
          (bits y).drop 4 ++ List.replicate 2 false] := rfl
    simp only [parted, List.map_cons, List.map_nil, number_firstGroup, number_secondGroup,
      number_thirdGroup_last]
  | case4 x y z rest ih =>
    have parted : groups ((x :: y :: z :: rest).flatMap bits) =
        (bits x).take 6 :: ((bits x).drop 6 ++ (bits y).take 4) ::
          ((bits y).drop 4 ++ (bits z).take 2) :: (bits z).drop 2 ::
            groups (rest.flatMap bits) := rfl
    simp only [parted, List.map_cons, ih, number_firstGroup, number_secondGroup, number_thirdGroup,
      number_fourthGroup]

/-- The symbol of a value. -/
theorem ofUInt8_symbol : ∀ value : UInt8, value < 64 →
    Char.ofUInt8 (symbol value) = Standard.Base64.alphabet.getD value.toNat '=' :=
  forall_byte (by decide +kernel)

/-- The written form is the published one. -/
theorem encode_eq_written (data : Bytes) : encode data = Standard.Base64.written data := by
  have symbols : (groups (data.flatMap bits)).map Standard.Base64.symbol =
      ((values data).map symbol).map Char.ofUInt8 := by
    calc
      (groups (data.flatMap bits)).map Standard.Base64.symbol
        = ((groups (data.flatMap bits)).map number).map
            (Standard.Base64.alphabet.getD · '=') := by rw [List.map_map]; rfl
      _ = (values data).map fun value => Standard.Base64.alphabet.getD value.toNat '=' := by
          rw [number_groups, List.map_map]; rfl
      _ = ((values data).map symbol).map Char.ofUInt8 := by
          rw [List.map_map]
          exact List.map_congr_left fun value listed =>
            (ofUInt8_symbol value (values_lt data value listed)).symm
  simp only [Standard.Base64.written, symbols, encode, encodeBytes, padding, List.map_append,
    List.map_replicate, List.length_map]
  rfl

/-- A last group of one byte has two symbols, and one of two bytes has three. -/
example : encode [77, 97, 110] = "TWFu".toList ∧ encode [77, 97] = "TWE=".toList ∧
    encode [77] = "TQ==".toList := by decide +kernel

end Published

end KeyWrapping.Base64
