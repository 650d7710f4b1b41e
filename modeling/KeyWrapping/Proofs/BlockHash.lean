import KeyWrapping.Cipher.Gcm
import KeyWrapping.Proofs.Agreement
import KeyWrapping.Proofs.BinaryField
import KeyWrapping.Proofs.ByteOrder
/-!
# What a change inside one block does to the hash

Two byte strings of one length that differ only inside one block are hashed from lists that differ
in exactly one block (`blocks_changed`). The two hashes then differ by the product of the difference
with a power of the hash key (`element_hash_changed`), so they are the same only under the hash key
zero (`hash_changed_iff`). Under two hash keys, on the other hand, one block can be chosen to make
the two hashes differ by whatever is wanted (`exists_hash_xor_eq`).
-/

namespace KeyWrapping

namespace Block

/-- The block at a place is read from sixteen bytes for each place before it. -/
theorem getElem_blocks (bytes : Bytes) (place : Nat) (inside : place < (blocks bytes).length) :
    (blocks bytes)[place] = ofBytes (bytes.drop (16 * place)) := by
  have read := getElem?_blocks place bytes
  rw [List.getElem?_eq_getElem inside, if_pos (by rwa [length_blocks] at inside)] at read
  exact Option.some.inj read

/-- Strings that agree on the stretch of a block have the same block there. -/
theorem ofBytes_drop_eq {left right : Bytes} (start : Nat)
    (agree : ∀ offset < 16, left[start + offset]? = right[start + offset]?) :
    ofBytes (left.drop start) = ofBytes (right.drop start) := by
  rw [ofBytes_eq_iff]
  intro offset small
  simp only [List.getD_eq_getElem?_getD, List.getElem?_drop, agree offset small]

/-- Strings of one length that have the same block at a stretch agree on it. -/
theorem getElem?_eq_of_ofBytes_drop {left right : Bytes} (counted : left.length = right.length)
    (start : Nat) (same : ofBytes (left.drop start) = ofBytes (right.drop start)) (offset : Nat)
    (small : offset < 16) : left[start + offset]? = right[start + offset]? := by
  by_cases inside : start + offset < left.length
  · have byte := (ofBytes_eq_iff _ _).mp same offset small
    simp only [List.getD_eq_getElem?_getD, List.getElem?_drop] at byte
    rw [List.getElem?_eq_getElem inside, List.getElem?_eq_getElem (by omega)] at byte ⊢
    exact congrArg some byte
  · rw [List.getElem?_eq_none (by omega), List.getElem?_eq_none (by omega)]

/-- Byte strings that differ only inside one block are cut into lists that differ in one entry. -/
theorem blocks_changed {left right : Bytes} {place : Nat} (counted : left.length = right.length)
    (agree : AgreeOutside (16 * place) 16 left right) (differ : left ≠ right) :
    ∃ before after first second, blocks left = before ++ first :: after ∧
      blocks right = before ++ second :: after ∧ first ≠ second := by
  obtain ⟨index, fromStart, beforeEnd, changed⟩ := agree.exists_inside differ
  have inside : index < left.length := by
    by_contra outside
    apply changed
    rw [List.getElem?_eq_none (by omega), List.getElem?_eq_none (by omega)]
  have listed : place < (blocks left).length := by
    simp only [length_blocks, needed]
    omega
  have equally : (blocks left).length = (blocks right).length := by
    rw [length_blocks, length_blocks, counted]
  have others : AgreeOutside place 1 (blocks left) (blocks right) := by
    intro other outside
    have apart : other ≠ place := by omega
    have stretch := ofBytes_drop_eq (16 * other) fun offset small =>
      agree (16 * other + offset) (by omega)
    rw [getElem?_blocks other left, getElem?_blocks other right, counted, stretch]
  obtain ⟨before, after, inLeft, inRight⟩ := others.exists_parts equally listed
  refine ⟨before, after, _, _, inLeft, inRight, ?_⟩
  intro same
  rw [getElem_blocks left, getElem_blocks right] at same
  have byte := getElem?_eq_of_ofBytes_drop counted (16 * place) same (index - 16 * place) (by omega)
  rw [show 16 * place + (index - 16 * place) = index by omega] at byte
  exact changed byte

end Block

namespace Ghash

/-- Two hashes of one list from different beginnings differ by the product of the difference of the
beginnings with a power of the hash key. -/
theorem element_foldl_absorb (key first second : Block) (blocks : List Block) :
    element (blocks.foldl (absorb key) first) + element (blocks.foldl (absorb key) second) =
      (element first + element second) * element key ^ blocks.length := by
  induction blocks generalizing first second with
  | nil => simp
  | cons block rest ih =>
    rw [List.foldl_cons, List.foldl_cons, ih, absorb, absorb, element_multiply, element_multiply,
      element_xor, element_xor, List.length_cons, pow_succ', ← mul_assoc, ← add_mul,
      add_add_add_comm, ZModModule.add_self, add_zero]

/-- The hashes of two lists that differ in one entry differ by the product of the difference of the
entries with a power of the hash key. -/
theorem element_hash_changed (key first second : Block) (before after : List Block) :
    element (hash key (before ++ first :: after)) + element (hash key (before ++ second :: after)) =
      (element first + element second) * element key ^ (after.length + 1) := by
  rw [hash, hash, List.foldl_append, List.foldl_append, List.foldl_cons, List.foldl_cons,
    element_foldl_absorb, absorb, absorb, element_multiply, element_multiply, element_xor,
    element_xor, pow_succ', ← mul_assoc, ← add_mul, add_add_add_comm, ZModModule.add_self,
    zero_add]

/-- A change in one entry leaves the hash as it was exactly under the hash key zero. -/
theorem hash_changed_iff (key : Block) {first second : Block} (before after : List Block)
    (differ : first ≠ second) :
    hash key (before ++ first :: after) = hash key (before ++ second :: after) ↔
      key = Block.zero := by
  have sum := element_hash_changed key first second before after
  have apart : element first + element second ≠ 0 := by
    rw [← ZModModule.sub_eq_add, sub_ne_zero]
    exact fun same => differ (element_injective same)
  rw [← element_injective.eq_iff, ← sub_eq_zero, ZModModule.sub_eq_add, sum,
    mul_eq_zero_iff_left apart, pow_eq_zero_iff (Nat.succ_ne_zero _), element_eq_zero_iff]

/-- There are finitely many blocks. -/
instance : Finite Block := by
  apply Finite.of_injective fun block : Block => (block.high.toFin, block.low.toFin)
  intro left right same
  have high : left.high.toFin = right.high.toFin := congrArg Prod.fst same
  have low : left.low.toFin = right.low.toFin := congrArg Prod.snd same
  exact Block.ext (UInt64.toFin_inj.mp high) (UInt64.toFin_inj.mp low)

/-- Every block is a product with a given block that is not zero. -/
theorem exists_multiply_eq {key : Block} (nonzero : key ≠ Block.zero) (target : Block) :
    ∃ block, multiply block key = target := by
  have unit : element key ≠ 0 := by
    rw [ne_eq, element_eq_zero_iff]
    exact nonzero
  have injective : Function.Injective fun block => multiply block key := by
    intro left right same
    have products : element left * element key = element right * element key := by
      rw [← element_multiply, ← element_multiply]
      exact congrArg element same
    exact element_injective (mul_right_cancel₀ unit products)
  exact Finite.surjective_of_injective injective target

/-- A hash is linear in the last entry but one, with the square of the hash key for its slope. -/
theorem element_hash_next_to_last (key block last : Block) (before : List Block) :
    element (hash key (before ++ [block, last])) =
      element (hash key (before ++ [Block.zero, last])) + element block * element key ^ 2 := by
  have sum := element_hash_changed key block Block.zero before [last]
  rw [element_zero, add_zero] at sum
  calc
    element (hash key (before ++ [block, last]))
      = element (hash key (before ++ [Block.zero, last])) +
          (element (hash key (before ++ [block, last])) +
            element (hash key (before ++ [Block.zero, last]))) := by
        rw [add_comm (element (hash key (before ++ [block, last]))), ← add_assoc,
          ZModModule.add_self, zero_add]
    _ = element (hash key (before ++ [Block.zero, last])) + element block * element key ^ 2 := by
        rw [sum, List.length_singleton]

/-- Under two hash keys the entry before the last can be chosen so that the two hashes differ by
any given block. -/
theorem exists_hash_xor_eq {first second : Block} (differ : first ≠ second) (before : List Block)
    (last target : Block) :
    ∃ block, (hash first (before ++ [block, last])).xor (hash second (before ++ [block, last])) =
      target := by
  let rest := (hash first (before ++ [Block.zero, last])).xor
    (hash second (before ++ [Block.zero, last]))
  have slope : multiply (first.xor second) (first.xor second) ≠ Block.zero := by
    rw [ne_eq, multiply_eq_zero_iff, or_self, ← element_eq_zero_iff, element_xor,
      ← ZModModule.sub_eq_add, sub_eq_zero, element_injective.eq_iff]
    exact differ
  obtain ⟨block, product⟩ := exists_multiply_eq slope (target.xor rest)
  refine ⟨block, element_injective ?_⟩
  have square : (element first + element second) * (element first + element second) =
      element first ^ 2 + element second ^ 2 := by
    have mixed : element first * element second + element first * element second = 0 :=
      ZModModule.add_self _
    linear_combination mixed
  have scaled : element block * (element first ^ 2 + element second ^ 2) =
      element target + element rest := by
    rw [← square, ← element_xor, ← element_multiply, ← element_multiply, product, element_xor]
  calc
    element ((hash first (before ++ [block, last])).xor (hash second (before ++ [block, last])))
      = element rest + element block * (element first ^ 2 + element second ^ 2) := by
        rw [element_xor, element_hash_next_to_last first, element_hash_next_to_last second,
          element_xor]
        ring
    _ = element target := by
        rw [scaled, add_left_comm, ZModModule.add_self, add_zero]

end Ghash

end KeyWrapping
