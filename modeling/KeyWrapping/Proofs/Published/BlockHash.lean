import KeyWrapping.Proofs.BinaryField
import KeyWrapping.Proofs.Published.Numbers
import KeyWrapping.Standard.Gcm
/-!
# The hash of blocks is the published one

A block of two double words is a string of one hundred and twenty-eight bits, the first double word at
the high end (`Block.bits`), and its bytes are the published bytes (`bytes_bits`). The multiplier of a
product is read from two double words one after the other, while the multiplicand moves on
(`bits_addProduct`); step by step this is the published product (`bits_multiply`), and so is the hash
of a list of blocks (`bits_hash`).
-/

namespace KeyWrapping

open KeyWrapping.Standard (value bigEndian)
open KeyWrapping.Standard.Gcm (Bits ghash partialProduct reduction shifted)

namespace Block

/-- The bits of a block, the first one at the high end. -/
def bits (block : Block) : Bits := block.high.toBitVec ++ block.low.toBitVec

/-- The number of a block. -/
theorem toNat_bits (block : Block) :
    block.bits.toNat = block.high.toNat * 2 ^ 64 + block.low.toNat := by
  rw [bits, BitVec.toNat_append, UInt64.toNat_toBitVec, UInt64.toNat_toBitVec, Nat.shiftLeft_eq,
    Nat.mul_comm, Nat.two_pow_add_eq_or_of_lt block.low.toNat_lt]

/-- The bytes of a block write its number. -/
theorem value_toBytes (block : Block) : value block.toBytes = block.bits.toNat := by
  have small (double : UInt64) : double.toNat % 256 ^ 8 = double.toNat :=
    Nat.mod_eq_of_lt double.toNat_lt
  rw [toBytes, Standard.value_append, Standard.bytesOfDouble_eq, Standard.bytesOfDouble_eq,
    Standard.value_bigEndian, Standard.value_bigEndian, small, small,
    Standard.length_bigEndian, toNat_bits]
  rfl

/-- The published bytes of a block are its bytes. -/
theorem bytes_bits (block : Block) : Standard.Gcm.bytes block.bits = block.toBytes := by
  rw [Standard.Gcm.bytes, ← value_toBytes]
  exact Standard.bigEndian_value block.toBytes

/-- The published block of at most sixteen bytes. -/
theorem bits_take (bytes : Bytes) : Standard.Gcm.bits (bytes.take 16) = (ofBytes bytes).bits := by
  rw [Standard.Gcm.bits, ← toBytes_ofBytes_eq_append, value_toBytes, BitVec.ofNat_toNat,
    BitVec.setWidth_eq]

/-- The bytes of a block make it. -/
theorem bits_toBytes (block : Block) : Standard.Gcm.bits block.toBytes = block.bits := by
  have whole := bits_take block.toBytes
  rwa [ofBytes_toBytes, List.take_of_length_le (Nat.le_refl 16)] at whole

/-- Text is cut into the published blocks. -/
theorem map_bits_blocks (text : Bytes) :
    (blocks text).map bits = Standard.Gcm.blocks text := by
  apply List.ext_getElem?
  intro index
  rw [List.getElem?_map, getElem?_blocks, Standard.Gcm.blocks, List.getElem?_map, ← needed]
  by_cases inside : index < needed text.length
  · rw [if_pos inside, List.getElem?_range inside, Option.map_some, Option.map_some, bits_take]
  · rw [if_neg inside, List.getElem?_eq_none, Option.map_none, Option.map_none]
    rw [List.length_range]
    exact Nat.not_lt.mp inside

/-- A bit of a block is one of a double word. -/
theorem getLsbD_bits (block : Block) (index : Nat) :
    block.bits.getLsbD index =
      if index < 64 then block.low.toBitVec.getLsbD index
      else block.high.toBitVec.getLsbD (index - 64) := by
  rw [bits, BitVec.getLsbD_append]

/-- Counted from the high end, the first bits of a block are those of the first double word. -/
theorem getMsbD_bits (block : Block) (index : Nat) :
    block.bits.getMsbD index =
      if 64 ≤ index then block.low.toBitVec.getMsbD (index - 64)
      else block.high.toBitVec.getMsbD index := by
  rw [bits, BitVec.getMsbD_append]

/-- Sums of blocks are taken bit by bit. -/
theorem bits_xor (left right : Block) : (left.xor right).bits = left.bits ^^^ right.bits := by
  apply BitVec.eq_of_getLsbD_eq
  intro index _
  rw [BitVec.getLsbD_xor, getLsbD_bits, getLsbD_bits, getLsbD_bits]
  split
  · rw [xor, UInt64.toBitVec_xor, BitVec.getLsbD_xor]
  · rw [xor, UInt64.toBitVec_xor, BitVec.getLsbD_xor]

/-- The block of zeros. -/
theorem bits_zero : zero.bits = 0 := rfl

end Block

namespace Ghash

/-- The bits of a word moved on by one place. -/
theorem getLsbD_shiftRight_one (word : UInt64) (index : Nat) :
    (word >>> 1).toBitVec.getLsbD index = word.toBitVec.getLsbD (index + 1) := by
  simp [Nat.add_comm]

/-- Only the lowest bit of a word is left where it becomes the highest. -/
theorem getLsbD_shiftLeft_last (word : UInt64) (index : Nat) :
    (word <<< 63).toBitVec.getLsbD index = (decide (index = 63) && word.toBitVec.getLsbD 0) := by
  rcases Nat.lt_trichotomy index 63 with low | rfl | high
  · simp [low, Nat.ne_of_lt low]
  · simp
  · simp [Nat.ne_of_gt high, show ¬index < 64 by omega]

/-- The bits of a block moved on by one place. -/
theorem bits_moved (block : Block) :
    Block.bits ⟨block.high >>> 1, (block.low >>> 1) ||| (block.high <<< 63)⟩ = block.bits >>> 1 := by
  apply BitVec.eq_of_getLsbD_eq
  intro index _
  rw [BitVec.getLsbD_ushiftRight, Nat.add_comm 1, Block.getLsbD_bits, Block.getLsbD_bits]
  simp only [UInt64.toBitVec_or, BitVec.getLsbD_or, getLsbD_shiftRight_one, getLsbD_shiftLeft_last]
  -- The lowest bit of the first double word becomes the highest one of the second.
  rcases Nat.lt_trichotomy index 63 with low | rfl | high
  · rw [if_pos (by omega), if_pos (by omega), decide_eq_false (Nat.ne_of_lt low), Bool.false_and,
      Bool.or_false]
  · rw [if_pos (by decide), if_neg (by decide), BitVec.getLsbD_of_ge _ _ (by decide),
      decide_eq_true rfl, Bool.true_and, Bool.false_or]
  · rw [if_neg (by omega), if_neg (by omega), show index - 64 + 1 = index + 1 - 64 by omega]

/-- The bit that falls off. -/
theorem and_one_eq_zero_iff_bits (block : Block) :
    block.low &&& 1 = 0 ↔ block.bits.getLsbD 0 = false := by
  rw [and_one_eq_zero_iff, Block.getLsbD_bits, if_pos (by decide)]
  rfl

/-- The constant that is added for the bit that falls off. -/
theorem bits_reduced (high low : UInt64) :
    Block.bits ⟨high ^^^ 0xe100000000000000, low⟩ = Block.bits ⟨high, low⟩ ^^^ reduction := by
  have constant : Block.bits ⟨0xe100000000000000, 0⟩ = reduction := by decide
  rw [← constant, ← Block.bits_xor, Block.xor, UInt64.xor_zero]

/-- The multiplicand moves on as published. -/
theorem bits_halve {block : Block} {y : Bits} {count : Nat}
    (reached : block.bits = shifted y count) : (halve block).bits = shifted y (count + 1) := by
  rw [shifted, ← reached, ← bits_moved, halve]
  by_cases clear : block.low &&& 1 = 0
  · have bit := (and_one_eq_zero_iff_bits block).mp clear
    simp only [if_pos clear, bit, Bool.false_eq_true, if_false]
  · have bit := (and_one_eq_zero_iff_bits block).not.mp clear
    rw [Bool.not_eq_false] at bit
    simp only [if_neg clear, bit, if_true, bits_reduced]

/-- Some further bits of a multiplier are taken in, from a sum that has taken in the bits before. -/
theorem bits_addProduct {x y : Bits} {start count : Nat} {word : UInt64} {sum block : Block}
    (few : count ≤ 64)
    (read : ∀ index < count, word.toBitVec.getMsbD index = x.getMsbD (start + index))
    (summed : sum.bits = partialProduct x y start) (moved : block.bits = shifted y start) :
    (addProduct count word sum block).1.bits = partialProduct x y (start + count) ∧
      (addProduct count word sum block).2.bits = shifted y (start + count) := by
  induction count generalizing start word sum block with
  | zero => exact ⟨summed, moved⟩
  | succ count ih =>
    have first := read 0 (Nat.succ_pos count)
    have later : ∀ index < count,
        (word <<< 1).toBitVec.getMsbD index = x.getMsbD (start + 1 + index) := by
      intro index inside
      rw [Nat.add_assoc, Nat.add_comm 1, ← read (index + 1) (by omega)]
      simp
    have taken : (if word >>> 63 = 0 then sum else sum.xor block).bits =
        partialProduct x y (start + 1) := by
      rw [partialProduct, ← Nat.add_zero start, ← first, Nat.add_zero]
      by_cases clear : word >>> 63 = 0
      · have bit := (shiftRight_eq_zero_iff word).mp clear
        simp only [if_pos clear, bit, Bool.false_eq_true, if_false, summed]
      · have bit := (shiftRight_eq_zero_iff word).not.mp clear
        rw [Bool.not_eq_false] at bit
        simp only [if_neg clear, bit, if_true, Block.bits_xor, summed, moved]
    have rest := ih (by omega) later taken (bits_halve moved)
    rwa [Nat.add_assoc, Nat.add_comm 1] at rest

/-- The second half of a product goes on from what the first one has made. -/
theorem multiply_of_half {left right sum block : Block}
    (half : addProduct 64 left.high Block.zero right = (sum, block)) :
    multiply left right = (addProduct 64 left.low sum block).1 := by
  rw [multiply, half]

/-- The product of blocks is the published one. -/
theorem bits_multiply (left right : Block) :
    (multiply left right).bits = Standard.Gcm.product left.bits right.bits := by
  have high : ∀ index < 64, left.high.toBitVec.getMsbD index = left.bits.getMsbD (0 + index) := by
    intro index inside
    rw [Nat.zero_add, Block.getMsbD_bits, if_neg (Nat.not_le.mpr inside)]
  have low : ∀ index < 64, left.low.toBitVec.getMsbD index = left.bits.getMsbD (64 + index) := by
    intro index _
    rw [Block.getMsbD_bits, if_pos (Nat.le_add_right 64 index), Nat.add_sub_cancel_left]
  have added : Block.zero.bits = partialProduct left.bits right.bits 0 := by
    rw [partialProduct, Block.bits_zero]
  have moved : right.bits = shifted right.bits 0 := by rw [shifted]
  rcases half : addProduct 64 left.high Block.zero right with ⟨sum, block⟩
  obtain ⟨summed, reached⟩ := bits_addProduct (Nat.le_refl 64) high added moved
  rw [half, Nat.zero_add] at summed reached
  obtain ⟨whole, -⟩ := bits_addProduct (Nat.le_refl 64) low summed reached
  -- Both counts are written alike, for otherwise the steps would be unfolded to compare them.
  rw [show 64 + 64 = 128 from rfl] at whole
  rw [multiply_of_half half, whole, Standard.Gcm.product]

/-- The hash of a list of blocks is the published one. -/
theorem bits_hash (key : Block) (blocks : List Block) :
    (hash key blocks).bits = ghash key.bits (blocks.map Block.bits) := by
  have continued (sum : Block) : (blocks.foldl (absorb key) sum).bits =
      (blocks.map Block.bits).foldl
        (fun hash block => Standard.Gcm.product (hash ^^^ block) key.bits) sum.bits := by
    induction blocks generalizing sum with
    | nil => rfl
    | cons block rest ih =>
      rw [List.foldl_cons, ih, List.map_cons, List.foldl_cons, absorb, bits_multiply, Block.bits_xor]
  exact continued Block.zero

end Ghash

end KeyWrapping
