import KeyWrapping.Cipher.Block
import Mathlib.Algebra.Ring.Nat
/-!
# Words and their bytes

A word is the number that its bytes write, the first byte counting most (`toNat_doubleOfBytes`), so
that eight bytes and a double word are two forms of the same thing (`bytesOfDouble_doubleOfBytes`,
`bytesOfDouble_injective`). A block made from a byte string keeps its first sixteen bytes and
nothing else (`ofBytes_eq_iff`). What is claimed of all bytes can be tested (`forall_byte`).
-/

namespace KeyWrapping

/-- What holds of the first two hundred and fifty-six numbers as bytes holds of every byte. -/
theorem forall_byte {holds : UInt8 → Prop} (checked : ∀ number < 256, holds (UInt8.ofNat number))
    (byte : UInt8) : holds byte := by
  have found := checked byte.toNat byte.toNat_lt
  rwa [UInt8.ofNat_toNat] at found

/-- Joining a byte below the places of a number appends it as the next digit. -/
theorem or_next (high next places : Nat) (small : next < 2 ^ 8) :
    high * 2 ^ (places + 8) ||| next * 2 ^ places = (high * 2 ^ 8 + next) * 2 ^ places := by
  have bound : next * 2 ^ places < 2 ^ (places + 8) := by
    rw [Nat.pow_add, Nat.mul_comm]
    exact Nat.mul_lt_mul_of_pos_left small (Nat.two_pow_pos _)
  calc
    high * 2 ^ (places + 8) ||| next * 2 ^ places
      = 2 ^ (places + 8) * high + next * 2 ^ places := by
        rw [Nat.mul_comm high, Nat.two_pow_add_eq_or_of_lt bound high]
    _ = (high * 2 ^ 8 + next) * 2 ^ places := by
        rw [Nat.pow_add, Nat.add_mul, Nat.mul_comm _ high, Nat.mul_comm (2 ^ places), Nat.mul_assoc]

/-- A double word is the number that its eight bytes write. -/
theorem toNat_doubleOfBytes (b0 b1 b2 b3 b4 b5 b6 b7 : UInt8) :
    (doubleOfBytes b0 b1 b2 b3 b4 b5 b6 b7).toNat =
      ((((((b0.toNat * 2 ^ 8 + b1.toNat) * 2 ^ 8 + b2.toNat) * 2 ^ 8 + b3.toNat) * 2 ^ 8 +
        b4.toNat) * 2 ^ 8 + b5.toNat) * 2 ^ 8 + b6.toNat) * 2 ^ 8 + b7.toNat := by
  have h0 := b0.toNat_lt
  have h1 := b1.toNat_lt
  have h2 := b2.toNat_lt
  have h3 := b3.toNat_lt
  have h4 := b4.toNat_lt
  have h5 := b5.toNat_lt
  have h6 := b6.toNat_lt
  have h7 := b7.toNat_lt
  simp only [doubleOfBytes, UInt64.toNat_or, UInt64.toNat_shiftLeft, UInt8.toNat_toUInt64,
    Nat.shiftLeft_eq, UInt64.toNat_ofNat]
  simp (disch := omega) only [Nat.mod_eq_of_lt]
  rw [or_next _ _ 48 h1, or_next _ _ 40 h2, or_next _ _ 32 h3, or_next _ _ 24 h4, or_next _ _ 16 h5,
    or_next _ _ 8 h6]
  simpa using or_next _ b7.toNat 0 h7

/-- The bytes of a double word are the bytes that it was made from. -/
theorem bytesOfDouble_doubleOfBytes (b0 b1 b2 b3 b4 b5 b6 b7 : UInt8) :
    bytesOfDouble (doubleOfBytes b0 b1 b2 b3 b4 b5 b6 b7) = [b0, b1, b2, b3, b4, b5, b6, b7] := by
  have h0 := b0.toNat_lt
  have h1 := b1.toNat_lt
  have h2 := b2.toNat_lt
  have h3 := b3.toNat_lt
  have h4 := b4.toNat_lt
  have h5 := b5.toNat_lt
  have h6 := b6.toNat_lt
  have h7 := b7.toNat_lt
  simp only [bytesOfDouble, List.cons.injEq, and_true, ← UInt8.toNat_inj, UInt64.toNat_toUInt8,
    UInt64.toNat_shiftRight, toNat_doubleOfBytes, Nat.shiftRight_eq_div_pow, UInt64.toNat_ofNat,
    Nat.reduceMod, Nat.reducePow]
  omega

/-- Two double words with the same bytes are equal. -/
theorem bytesOfDouble_injective {left right : UInt64}
    (same : bytesOfDouble left = bytesOfDouble right) : left = right := by
  simp only [bytesOfDouble, List.cons.injEq, and_true, ← UInt8.toNat_inj, UInt64.toNat_toUInt8,
    UInt64.toNat_shiftRight, Nat.shiftRight_eq_div_pow, UInt64.toNat_ofNat, Nat.reduceMod,
    Nat.reducePow] at same
  have hl := left.toNat_lt
  have hr := right.toNat_lt
  apply UInt64.toNat_inj.mp
  omega

/-- The bytes of a double word make the double word again. -/
theorem doubleOfBytes_bytesOfDouble (double : UInt64) :
    doubleOfBytes (double >>> 56).toUInt8 (double >>> 48).toUInt8 (double >>> 40).toUInt8
      (double >>> 32).toUInt8 (double >>> 24).toUInt8 (double >>> 16).toUInt8
      (double >>> 8).toUInt8 double.toUInt8 = double := by
  apply bytesOfDouble_injective
  rw [bytesOfDouble_doubleOfBytes]
  rfl

namespace Block

/-- Two blocks with the same bytes are equal. -/
theorem toBytes_injective {left right : Block} (same : left.toBytes = right.toBytes) :
    left = right := by
  obtain ⟨high, low⟩ := List.append_inj same rfl
  exact Block.ext (bytesOfDouble_injective high) (bytesOfDouble_injective low)

/-- The bytes of a block are the first sixteen of the string, with zeros for what is missing. -/
theorem toBytes_ofBytes (bytes : Bytes) :
    (ofBytes bytes).toBytes = (List.range 16).map fun index => bytes.getD index 0 := by
  simp only [toBytes, ofBytes, bytesOfDouble_doubleOfBytes]
  rfl

/-- The bytes of a block are the first sixteen of the string, filled with zeros to as many. -/
theorem toBytes_ofBytes_eq_append (bytes : Bytes) :
    (ofBytes bytes).toBytes =
      bytes.take 16 ++ List.replicate (16 - (bytes.take 16).length) 0 := by
  rw [toBytes_ofBytes]
  apply List.ext_getElem
  · simp only [List.length_map, List.length_range, List.length_append, List.length_take,
      List.length_replicate]
    omega
  · intro index small _
    simp only [List.length_map, List.length_range] at small
    rw [List.getElem_map, List.getElem_range, List.getD_eq_getElem?_getD]
    by_cases inside : index < bytes.length
    · rw [List.getElem_append_left, List.getElem_take, List.getElem?_eq_getElem inside,
        Option.getD_some]
      rw [List.length_take]
      omega
    · rw [List.getElem_append_right, List.getElem_replicate, List.getElem?_eq_none, Option.getD_none]
      · omega
      · rw [List.length_take]
        omega

/-- Sixteen bytes are the bytes of their block. -/
theorem toBytes_ofBytes_of_length {bytes : Bytes} (counted : bytes.length = 16) :
    (ofBytes bytes).toBytes = bytes := by
  have whole : bytes.take 16 = bytes := List.take_of_length_le (Nat.le_of_eq counted)
  rw [toBytes_ofBytes_eq_append, whole, counted, Nat.sub_self, List.replicate_zero,
    List.append_nil]

/-- The bytes of a block make the block again. -/
@[simp] theorem ofBytes_toBytes (block : Block) : ofBytes block.toBytes = block := by
  apply toBytes_injective
  rw [toBytes_ofBytes]
  rfl

/-- Two strings make the same block exactly when they agree in their first sixteen bytes. -/
theorem ofBytes_eq_iff (left right : Bytes) :
    ofBytes left = ofBytes right ↔ ∀ index < 16, left.getD index 0 = right.getD index 0 := by
  constructor
  · intro same index inside
    have bytes := congrArg toBytes same
    rw [toBytes_ofBytes, toBytes_ofBytes, List.map_inj_left] at bytes
    exact bytes index (List.mem_range.mpr inside)
  · intro agree
    apply toBytes_injective
    rw [toBytes_ofBytes, toBytes_ofBytes, List.map_inj_left]
    intro index counted
    exact agree index (List.mem_range.mp counted)

end Block

end KeyWrapping
