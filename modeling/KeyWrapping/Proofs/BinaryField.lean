import KeyWrapping.Cipher.Ghash
import Mathlib.FieldTheory.Finite.Extension
import Mathlib.Tactic.ComputeDegree
/-!
# Blocks as elements of a field

A block is read as a polynomial over the field of two elements, the bit at the high end being the
coefficient of degree zero, and then modulo the reduction polynomial. Sums of blocks are sums and
products of blocks are products of these classes (`element_multiply`). The reduction polynomial is
irreducible (`modulus_irreducible`): the test runs on the product of blocks itself, by squaring the
class of the variable. So a product of blocks is zero only when a factor is
(`multiply_eq_zero_iff`).
-/

namespace KeyWrapping.Ghash

open Polynomial

/-- The polynomial of the first `count` bits of a word, read from its high end. -/
noncomputable def wordPolynomial (count : Nat) (word : UInt64) : (ZMod 2)[X] :=
  ∑ index ∈ Finset.range count, if word.toBitVec.getMsbD index then X ^ index else 0

/-- The word of zeros has no terms. -/
@[simp] theorem wordPolynomial_zero (count : Nat) : wordPolynomial count 0 = 0 := by
  simp [wordPolynomial]

/-- Sums of words are sums of polynomials, bit by bit. -/
theorem wordPolynomial_xor (count : Nat) (left right : UInt64) :
    wordPolynomial count (left ^^^ right) =
      wordPolynomial count left + wordPolynomial count right := by
  have cancel (p : (ZMod 2)[X]) : p + p = 0 := CharTwo.add_self_eq_zero p
  simp only [wordPolynomial, ← Finset.sum_add_distrib, UInt64.toBitVec_xor, BitVec.getMsbD_xor]
  refine Finset.sum_congr rfl fun index _ => ?_
  cases left.toBitVec.getMsbD index <;> cases right.toBitVec.getMsbD index <;> simp [cancel]

/-- The coefficients of a word are its bits. -/
theorem coeff_wordPolynomial (count : Nat) (word : UInt64) (degree : Nat) :
    (wordPolynomial count word).coeff degree =
      if degree < count ∧ word.toBitVec.getMsbD degree then 1 else 0 := by
  have term (index : Nat) :
      (if word.toBitVec.getMsbD index then (X : (ZMod 2)[X]) ^ index else 0).coeff degree =
        if degree = index then if word.toBitVec.getMsbD degree then 1 else 0 else 0 := by
    by_cases same : degree = index
    · subst same
      by_cases bit : word.toBitVec.getMsbD degree <;> simp [bit]
    · by_cases bit : word.toBitVec.getMsbD index <;> simp [bit, same, coeff_X_pow]
  simp only [wordPolynomial, finsetSum_coeff, term, Finset.sum_ite_eq, Finset.mem_range]
  by_cases inside : degree < count <;> simp [inside]

/-- A word whose shift to its last place is zero has no bit at its high end. -/
theorem shiftRight_eq_zero_iff (word : UInt64) :
    word >>> 63 = 0 ↔ word.toBitVec.getMsbD 0 = false := by
  rw [← UInt64.toBitVec_inj]
  constructor
  · intro cleared
    have last := congrArg (fun bits : BitVec 64 => bits.getLsbD 0) cleared
    simpa [BitVec.getMsbD] using last
  · intro cleared
    apply BitVec.eq_of_getLsbD_eq
    intro index inside
    by_cases first : index = 0
    · subst first
      simpa [BitVec.getMsbD] using cleared
    · simp [BitVec.getLsbD_of_ge, show 64 ≤ 63 + index by omega]

/-- A word whose last place is masked to zero has no bit at its low end. -/
theorem and_one_eq_zero_iff (word : UInt64) :
    word &&& 1 = 0 ↔ word.toBitVec.getMsbD 63 = false := by
  rw [← UInt64.toBitVec_inj]
  constructor
  · intro cleared
    have last := congrArg (fun bits : BitVec 64 => bits.getLsbD 0) cleared
    simpa [BitVec.getMsbD] using last
  · intro cleared
    apply BitVec.eq_of_getLsbD_eq
    intro index inside
    by_cases first : index = 0
    · subst first
      simpa [BitVec.getMsbD] using cleared
    · simp [first]

/-- The bit at the high end is the constant term; the others are one degree lower in the word
moved on by one place. -/
theorem wordPolynomial_succ (count : Nat) (word : UInt64) (inside : count < 64) :
    wordPolynomial (count + 1) word =
      (if word >>> 63 = 0 then (0 : (ZMod 2)[X]) else 1) +
        X * wordPolynomial count (word <<< 1) := by
  have rest : ∀ index ∈ Finset.range count,
      (if word.toBitVec.getMsbD (index + 1) then X ^ (index + 1) else 0) =
        X * (if (word <<< 1).toBitVec.getMsbD index then (X : (ZMod 2)[X]) ^ index else 0) := by
    intro index counted
    have bound : index < 64 := by
      have := Finset.mem_range.mp counted
      omega
    simp only [UInt64.toBitVec_shiftLeft, BitVec.shiftLeft_eq', BitVec.getMsbD_shiftLeft]
    simp [pow_succ']
  rw [wordPolynomial, Finset.sum_range_succ', Finset.sum_congr rfl rest, ← Finset.mul_sum,
    add_comm, wordPolynomial]
  congr 1
  by_cases first : word.toBitVec.getMsbD 0
  · have set := (shiftRight_eq_zero_iff word).not.mpr (by simp [first])
    simp [first, set]
  · have cleared := (shiftRight_eq_zero_iff word).mpr (by simpa using first)
    simp [first, cleared]

/-- A word moved one place to the low end is the product with the variable, without the bit that
falls off. -/
theorem wordPolynomial_shiftRight (word : UInt64) :
    wordPolynomial 64 (word >>> 1) = X * wordPolynomial 63 word := by
  have rest : ∀ index ∈ Finset.range 63,
      (if (word >>> 1).toBitVec.getMsbD (index + 1) then X ^ (index + 1) else 0) =
        X * (if word.toBitVec.getMsbD index then (X : (ZMod 2)[X]) ^ index else 0) := by
    intro index counted
    have bound := Finset.mem_range.mp counted
    simp only [UInt64.toBitVec_shiftRight, BitVec.ushiftRight_eq', BitVec.getMsbD_ushiftRight]
    simp [pow_succ', show index + 1 < 64 by omega]
  rw [wordPolynomial, Finset.sum_range_succ', Finset.sum_congr rfl rest, ← Finset.mul_sum,
    wordPolynomial]
  simp [BitVec.getMsbD_ushiftRight]

/-- The bit at the low end is the term of degree sixty-three. -/
theorem wordPolynomial_last (word : UInt64) :
    wordPolynomial 64 word =
      wordPolynomial 63 word + if word.toBitVec.getMsbD 63 then X ^ 63 else 0 := by
  rw [wordPolynomial, Finset.sum_range_succ, wordPolynomial]

/-- A bit carried into a word from the word before it becomes the constant term. -/
theorem wordPolynomial_carry (word before : UInt64) :
    wordPolynomial 64 ((word >>> 1) ||| (before <<< 63)) =
      (if before.toBitVec.getMsbD 63 then (1 : (ZMod 2)[X]) else 0) +
        X * wordPolynomial 63 word := by
  rw [← wordPolynomial_shiftRight]
  ext degree
  simp only [coeff_add, coeff_wordPolynomial, UInt64.toBitVec_or, BitVec.getMsbD_or,
    UInt64.toBitVec_shiftRight, UInt64.toBitVec_shiftLeft]
  by_cases first : degree = 0
  · subst first
    by_cases bit : before.toBitVec.getMsbD 63 <;> simp [bit, BitVec.getMsbD_ushiftRight]
  · have outside : before.toBitVec.getMsbD (degree + 63) = false :=
      BitVec.getMsbD_of_ge _ _ (by omega)
    by_cases bit : before.toBitVec.getMsbD 63 <;>
      simp [bit, first, outside, coeff_one]

/-- A word without terms is the word of zeros. -/
theorem eq_zero_of_wordPolynomial {word : UInt64} (none : wordPolynomial 64 word = 0) :
    word = 0 := by
  rw [← UInt64.toBitVec_inj]
  apply BitVec.eq_of_getMsbD_eq
  intro index inside
  have term := congrArg (fun p : (ZMod 2)[X] => p.coeff index) none
  simpa [coeff_wordPolynomial, inside] using term

/-- The terms of the constant that a bit falling off comes back as. -/
theorem wordPolynomial_reduction :
    wordPolynomial 64 0xe100000000000000 = X ^ 7 + X ^ 2 + X + 1 := by
  simp [wordPolynomial, Finset.sum_range_succ]
  ring

/-- The polynomial of a block: its first word has the lower degrees. -/
noncomputable def polynomial (block : Block) : (ZMod 2)[X] :=
  wordPolynomial 64 block.high + X ^ 64 * wordPolynomial 64 block.low

/-- The terms of a block have degrees below one hundred and twenty-eight. -/
theorem degree_polynomial_lt (block : Block) : (polynomial block).degree < 128 := by
  rw [show (128 : WithBot Nat) = (128 : Nat) from rfl, degree_lt_iff_coeff_zero]
  intro degree large
  have high : (wordPolynomial 64 block.high).coeff degree = 0 := by
    simp [coeff_wordPolynomial, show ¬ degree < 64 by omega]
  have low : (wordPolynomial 64 block.low).coeff (degree - 64) = 0 := by
    simp [coeff_wordPolynomial, show ¬ degree - 64 < 64 by omega]
  simp [polynomial, coeff_X_pow_mul', high, low]

/-- A block without terms is the block of zeros. -/
theorem eq_zero_of_polynomial {block : Block} (none : polynomial block = 0) :
    block = Block.zero := by
  have term (degree : Nat) : (polynomial block).coeff degree = 0 := by
    rw [none, coeff_zero]
  simp only [polynomial, coeff_add, coeff_X_pow_mul'] at term
  have high : block.high = 0 := eq_zero_of_wordPolynomial <| by
    ext degree
    by_cases inside : degree < 64
    · simpa [show ¬64 ≤ degree by omega] using term degree
    · simp [coeff_wordPolynomial, inside]
  have low : block.low = 0 := eq_zero_of_wordPolynomial <| by
    ext degree
    simpa [high] using term (degree + 64)
  exact Block.ext high low

/-- The reduction polynomial. It is never opened by unification, which would go on to the powers. -/
@[irreducible] noncomputable def modulus : (ZMod 2)[X] := X ^ 128 + (X ^ 7 + X ^ 2 + X + 1)

/-- The terms of the reduction polynomial. -/
theorem modulus_eq : modulus = X ^ 128 + (X ^ 7 + X ^ 2 + X + 1) := by
  unfold modulus
  with_reducible rfl

/-- The reduction polynomial has the leading coefficient one. -/
theorem modulus_monic : modulus.Monic := by
  rw [modulus_eq]
  apply monic_X_pow_add
  compute_degree!

/-- The reduction polynomial has the degree of a block. -/
theorem natDegree_modulus : modulus.natDegree = 128 := by
  rw [modulus_eq]
  compute_degree!

/-- The degree is above that of every block. -/
theorem degree_modulus : modulus.degree = 128 :=
  (degree_eq_iff_natDegree_eq_of_pos (by norm_num)).mpr natDegree_modulus

/-- The class of a block modulo the reduction polynomial. -/
noncomputable def element (block : Block) : AdjoinRoot modulus :=
  AdjoinRoot.mk modulus (polynomial block)

/-- The class of the variable. -/
noncomputable def generator : AdjoinRoot modulus := AdjoinRoot.mk modulus X

/-- The class of the variable by its name. -/
theorem mk_X : AdjoinRoot.mk modulus X = generator := rfl

/-- The block of zeros is the element zero. -/
@[simp] theorem element_zero : element Block.zero = 0 := by
  simp [element, polynomial, Block.zero]

/-- Sums of blocks are sums of polynomials. -/
theorem polynomial_xor (left right : Block) :
    polynomial (left.xor right) = polynomial left + polynomial right := by
  simp only [polynomial, Block.xor, wordPolynomial_xor]
  ring

/-- Sums of blocks are sums of elements. -/
@[simp] theorem element_xor (left right : Block) :
    element (left.xor right) = element left + element right := by
  rw [element, polynomial_xor, map_add, element, element]

/-- The power of the variable that no block reaches is a sum of lower powers. -/
theorem generator_pow : generator ^ 128 = generator ^ 7 + generator ^ 2 + generator + 1 := by
  have vanishes : AdjoinRoot.mk modulus (X ^ 128 + (X ^ 7 + X ^ 2 + X + 1)) = 0 := by
    rw [← modulus_eq]
    exact AdjoinRoot.mk_self
  simp only [map_add, map_pow, map_one, mk_X] at vanishes
  exact eq_of_sub_eq_zero (by rwa [ZModModule.sub_eq_add])

/-- Moving a block on by one place is the product with the variable. -/
theorem element_halve (block : Block) : element (halve block) = generator * element block := by
  have moved : X * polynomial block =
      polynomial ⟨block.high >>> 1, (block.low >>> 1) ||| (block.high <<< 63)⟩ +
        if block.low.toBitVec.getMsbD 63 then X ^ 128 else 0 := by
    rw [polynomial, polynomial, wordPolynomial_last block.high, wordPolynomial_last block.low,
      wordPolynomial_shiftRight, wordPolynomial_carry]
    split <;> split <;> ring
  have classes := congrArg (AdjoinRoot.mk modulus) moved
  rw [map_mul, mk_X, map_add] at classes
  change _ = generator * AdjoinRoot.mk modulus (polynomial block)
  rw [classes]
  by_cases clear : block.low &&& 1 = 0
  · have bit := (and_one_eq_zero_iff block.low).mp clear
    simp [halve, clear, bit, element]
  · have bit : block.low.toBitVec.getMsbD 63 = true := by
      simpa using (and_one_eq_zero_iff block.low).not.mp clear
    simp only [halve, clear, bit, element, if_true, if_false, map_pow, mk_X,
      generator_pow, polynomial, wordPolynomial_xor, wordPolynomial_reduction, map_add, map_mul,
      map_one]
    ring

/-- Adding the product with some bits of a word: the bits are the terms of the factor, and the block
is moved on once for each of them. -/
theorem element_addProduct (count : Nat) (bits : UInt64) (sum block : Block)
    (inside : count ≤ 64) :
    element (addProduct count bits sum block).1 =
        element sum + AdjoinRoot.mk modulus (wordPolynomial count bits) * element block ∧
      element (addProduct count bits sum block).2 = generator ^ count * element block := by
  induction count generalizing bits sum block with
  | zero => simp [addProduct, wordPolynomial]
  | succ count ih =>
    obtain ⟨added, moved⟩ := ih (bits <<< 1) (if bits >>> 63 = 0 then sum else sum.xor block)
      (halve block) (by omega)
    rw [element_halve] at added moved
    rw [addProduct, added, moved, wordPolynomial_succ count bits (by omega), map_add, map_mul,
      mk_X]
    constructor
    · by_cases clear : bits >>> 63 = 0
      · simp only [clear, if_true, map_zero]
        ring
      · simp only [clear, if_false, map_one, element_xor]
        ring
    · ring

/-- Products of blocks are products of elements. -/
@[simp] theorem element_multiply (left right : Block) :
    element (multiply left right) = element left * element right := by
  rcases first : addProduct 64 left.high Block.zero right with ⟨sum, moved⟩
  have high := element_addProduct 64 left.high Block.zero right (le_refl 64)
  rw [first, element_zero, zero_add] at high
  obtain ⟨low, -⟩ := element_addProduct 64 left.low sum moved (le_refl 64)
  rw [high.1, high.2] at low
  have parts : element left = AdjoinRoot.mk modulus (wordPolynomial 64 left.high) +
      generator ^ 64 * AdjoinRoot.mk modulus (wordPolynomial 64 left.low) := by
    rw [element, polynomial, map_add, map_mul, map_pow, mk_X]
  rw [multiply, first, low, parts]
  ring

/-- The block of the variable. -/
def generatorBlock : Block := ⟨0x4000000000000000, 0⟩

/-- The block of the variable after `count` squarings. -/
def squared : (count : Nat) → Block → Block
  | 0, block => block
  | count + 1, block => squared count (multiply block block)

/-- Squaring a block `count` times is a power of its element. -/
theorem element_squared (count : Nat) (block : Block) :
    element (squared count block) = element block ^ 2 ^ count := by
  induction count generalizing block with
  | zero => simp [squared]
  | succ count ih =>
    rw [squared, ih, element_multiply, ← pow_two, ← pow_mul, pow_succ' 2 count]

/-- Squarings follow each other. -/
theorem squared_add (first second : Nat) (block : Block) :
    squared (first + second) block = squared second (squared first block) := by
  induction first generalizing block with
  | zero => rw [Nat.zero_add, squared]
  | succ first ih => rw [Nat.add_right_comm, squared, squared, ih]

/-- The block of the variable is the variable. -/
theorem element_generatorBlock : element generatorBlock = generator := by
  have high : wordPolynomial 64 0x4000000000000000 = X := by
    simp [wordPolynomial, Finset.sum_range_succ]
  rw [element, polynomial, generatorBlock, high, wordPolynomial_zero, mul_zero, add_zero,
    mk_X]

/-- The block of one. -/
def oneBlock : Block := ⟨0x8000000000000000, 0⟩

/-- The block of one is one. -/
theorem element_oneBlock : element oneBlock = 1 := by
  have high : wordPolynomial 64 0x8000000000000000 = 1 := by
    simp [wordPolynomial, Finset.sum_range_succ]
  rw [element, polynomial, oneBlock, high, wordPolynomial_zero, mul_zero, add_zero, map_one]

/-- The variable squared sixty-four times. -/
def halfway : Block := ⟨8041535205642184482, 11334463870085932678⟩

/-- The inverse of the sum of the variable and its sixty-fourth square. -/
def separator : Block := ⟨1733227475620795778, 5891057661291483769⟩

/-- Sixty-four squarings take the variable halfway. -/
theorem squared_generatorBlock : squared 64 generatorBlock = halfway := by
  decide +kernel

/-- Sixty-four more squarings bring it back. -/
theorem squared_halfway : squared 64 halfway = generatorBlock := by
  decide +kernel

/-- The separator is the inverse that it is said to be. -/
theorem multiply_separator : multiply separator (halfway.xor generatorBlock) = oneBlock := by
  decide +kernel

/-- A polynomial over the field of two elements whose degree is a power of two has no proper factor
when, modulo it, squaring the variable as often as the degree says changes nothing, while squaring
it half as often changes it by a unit. -/
theorem irreducible_of_squares (f : (ZMod 2)[X]) (level : Nat)
    (degree : f.natDegree = 2 ^ (level + 1))
    (whole : AdjoinRoot.mk f (X ^ 2 ^ 2 ^ (level + 1) - X) = 0)
    (half : IsUnit (AdjoinRoot.mk f (X ^ 2 ^ 2 ^ level - X))) : Irreducible f := by
  have positive : 0 < f.natDegree := by
    rw [degree]
    exact Nat.two_pow_pos _
  have nonzero : f ≠ 0 := ne_zero_of_natDegree_gt positive
  have proper : ¬IsUnit f := not_isUnit_of_natDegree_pos f positive
  obtain ⟨factor, irreducible, divides⟩ := WfDvdMonoid.exists_irreducible_factor proper nonzero
  have card : Nat.card (ZMod 2) = 2 := Nat.card_zmod 2
  have degree_dvd : factor.natDegree ∣ 2 ^ (level + 1) := by
    apply irreducible.natDegree_dvd_of_dvd_X_pow_card_pow_sub_X
    rw [card]
    exact divides.trans (AdjoinRoot.mk_eq_zero.mp whole)
  obtain ⟨exponent, bound, power⟩ := (Nat.dvd_prime_pow Nat.prime_two).mp degree_dvd
  -- The degree of a smaller factor divides half the degree, so the factor divides a unit.
  have top : exponent = level + 1 := by
    by_contra smaller
    have lower : factor.natDegree ∣ 2 ^ level := by
      rw [power]
      exact pow_dvd_pow 2 (by omega)
    have common := irreducible.natDegree_dvd_iff_dvd_X_pow_card_pow_sub_X.mp lower
    rw [card] at common
    obtain ⟨inverse, one⟩ := half.exists_right_inv
    obtain ⟨lifted, rfl⟩ := AdjoinRoot.mk_surjective inverse
    rw [← map_mul, ← map_one (AdjoinRoot.mk f), AdjoinRoot.mk_eq_mk] at one
    have unit : factor ∣ 1 := by
      have difference := (common.mul_right lifted).sub (divides.trans one)
      rwa [sub_sub_cancel] at difference
    exact irreducible.not_isUnit (isUnit_of_dvd_one unit)
  have associated := associated_of_dvd_of_natDegree_le divides nonzero (by rw [degree, power, top])
  exact associated.irreducible irreducible

/-- The reduction polynomial has no proper factor: squaring the variable 128 times changes nothing
modulo it, and the variable and its sixty-fourth square have an invertible sum. -/
theorem modulus_irreducible : Irreducible modulus := by
  have squares (count : Nat) : AdjoinRoot.mk modulus (X ^ 2 ^ count - X) =
      element ((squared count generatorBlock).xor generatorBlock) := by
    rw [map_sub, map_pow, mk_X, ZModModule.sub_eq_add, element_xor, element_squared,
      element_generatorBlock]
  apply irreducible_of_squares modulus 6
  · rw [natDegree_modulus]
    norm_num
  · rw [squares, show 2 ^ (6 + 1) = 64 + 64 by norm_num, squared_add, squared_generatorBlock,
      squared_halfway, element_xor, ZModModule.add_self]
  · rw [squares, show 2 ^ 6 = 64 by norm_num, squared_generatorBlock]
    apply IsUnit.of_mul_eq_one (element separator)
    rw [mul_comm, ← element_multiply, multiply_separator, element_oneBlock]

/-- Blocks are elements of a field. -/
instance : Fact (Irreducible modulus) := ⟨modulus_irreducible⟩

/-- A block is the element zero only if all its bits are zeros. -/
theorem element_eq_zero_iff (block : Block) : element block = 0 ↔ block = Block.zero := by
  constructor
  · intro zero
    have small : (polynomial block).degree < modulus.degree := by
      rw [degree_modulus]
      exact degree_polynomial_lt block
    have multiple : modulus ∣ polynomial block := AdjoinRoot.mk_eq_zero.mp zero
    have none : polynomial block = 0 := by
      by_contra nonzero
      exact modulus_monic.not_dvd_of_degree_lt nonzero small multiple
    exact eq_zero_of_polynomial none
  · rintro rfl
    exact element_zero

/-- Different blocks are different elements. -/
theorem element_injective : Function.Injective element := by
  intro left right same
  have none : left.xor right = Block.zero := by
    rw [← element_eq_zero_iff, element_xor, same, ZModModule.add_self]
  have high := UInt64.xor_eq_zero_iff.mp (congrArg Block.high none)
  have low := UInt64.xor_eq_zero_iff.mp (congrArg Block.low none)
  exact Block.ext high low

/-- A product of blocks is zero exactly when a factor is. -/
theorem multiply_eq_zero_iff (left right : Block) :
    multiply left right = Block.zero ↔ left = Block.zero ∨ right = Block.zero := by
  rw [← element_eq_zero_iff, ← element_eq_zero_iff, ← element_eq_zero_iff, element_multiply,
    mul_eq_zero]

end KeyWrapping.Ghash
