import KeyWrapping.Proofs.BlockCipher
import KeyWrapping.Proofs.Published.Numbers
import KeyWrapping.Standard.Aes
/-!
# The tables of the block cipher are those of the field of bytes

The published cipher computes with products of bytes, where the cipher that runs has a table and
doublings. A product is a sum of repeated doublings, so the products with two bytes can be taken in
either order (`product_comm`), and a byte has one inverse at most (`eq_of_times_eq_one`). The table
names an inverse of every byte, and that is the one that is published (`toBitVec_substitute`); the
doublings that mix a column make up the published matrix (`toBitVec_mix`).
-/

namespace KeyWrapping.Standard.Aes

/-- What holds of the first two hundred and fifty-six numbers as elements holds of every element. -/
theorem forall_element {holds : Element → Prop}
    (checked : ∀ number < 256, holds (BitVec.ofNat 8 number)) (a : Element) : holds a := by
  have found := checked a.toNat a.isLt
  rwa [BitVec.ofNat_toNat, BitVec.setWidth_eq] at found

/-! ## Products -/

/-- Doubling a byte is the product with the element of degree one. -/
theorem toBitVec_double :
    ∀ byte : UInt8, (KeyWrapping.Aes.double byte).toBitVec = timesX byte.toBitVec :=
  forall_byte (by decide +kernel)

/-- The product with the element of degree one keeps sums. -/
theorem timesX_xor (a b : Element) : timesX (a ^^^ b) = timesX a ^^^ timesX b := by
  have sum := congrArg UInt8.toBitVec
    (KeyWrapping.Aes.double_xor (UInt8.ofBitVec a) (UInt8.ofBitVec b))
  rwa [← UInt8.ofBitVec_xor, UInt8.toBitVec_xor, toBitVec_double, toBitVec_double,
    toBitVec_double] at sum

/-- Repeated products with the element of degree one keep sums. -/
theorem repeat_timesX_xor (count : Nat) (a b : Element) :
    Nat.repeat timesX count (a ^^^ b) =
      Nat.repeat timesX count a ^^^ Nat.repeat timesX count b := by
  induction count with
  | zero => rfl
  | succ count ih => rw [Nat.repeat, ih, timesX_xor, Nat.repeat, Nat.repeat]

/-- Repeated products of zero are zero. -/
theorem repeat_timesX_zero (count : Nat) : Nat.repeat timesX count 0 = 0 := by
  induction count with
  | zero => rfl
  | succ count ih =>
    rw [Nat.repeat, ih]
    decide

/-- The term of degree `degree` of a product. -/
def term (a b : Element) (degree : Nat) : Element :=
  if b.getLsbD degree then Nat.repeat timesX degree a else 0

/-- A product is the sum of its terms. -/
theorem product_succ (a b : Element) (count : Nat) :
    product a b (count + 1) = term a b count ^^^ product a b count := rfl

/-- Terms keep sums. -/
theorem term_xor (a b c : Element) (degree : Nat) :
    term (a ^^^ b) c degree = term a c degree ^^^ term b c degree := by
  unfold term
  split
  · exact repeat_timesX_xor degree a b
  · rfl

/-- Products keep sums. -/
theorem product_xor (a b c : Element) (count : Nat) :
    product (a ^^^ b) c count = product a c count ^^^ product b c count := by
  induction count with
  | zero =>
    rw [product, product, product]
    decide
  | succ count ih =>
    rw [product_succ, product_succ, product_succ, ih, term_xor]
    ac_rfl

/-- A product of zero is zero. -/
theorem product_zero (b : Element) (count : Nat) : product 0 b count = 0 := by
  induction count with
  | zero => rfl
  | succ count ih =>
    rw [product_succ, ih, term, repeat_timesX_zero, ite_self]
    decide

/-- The product with the element of degree one can be taken before another or after it. -/
theorem timesX_product (a b : Element) (count : Nat) :
    timesX (product a b count) = product (timesX a) b count := by
  induction count with
  | zero =>
    rw [product, product]
    decide
  | succ count ih =>
    have first : timesX (term a b count) = term (timesX a) b count := by
      unfold term
      split
      · exact (repeat_apply timesX count a).symm
      · exact repeat_timesX_zero 1
    rw [product_succ, product_succ, timesX_xor, ih, first]

/-- A term of a product is the product of the term. -/
theorem term_product (a b c : Element) (count degree : Nat) :
    term (product a b count) c degree = product (term a c degree) b count := by
  unfold term
  split
  · clear * -
    induction degree with
    | zero => rfl
    | succ degree ih => rw [Nat.repeat, ih, timesX_product, Nat.repeat]
  · exact (product_zero b count).symm

/-- Products with two elements can be taken in either order. -/
theorem product_comm (a b c : Element) (count count' : Nat) :
    product (product a b count) c count' = product (product a c count') b count := by
  induction count' with
  | zero => exact (product_zero b count).symm
  | succ count' ih => rw [product_succ, ih, term_product, ← product_xor, ← product_succ]

/-- The products of one. -/
theorem one_times : ∀ b : Element, times 1 b = b := forall_element (by decide +kernel)

/-- The products with two. -/
theorem two_times : ∀ b : Element, times 2 b = timesX b := forall_element (by decide +kernel)

/-- The products with three. -/
theorem three_times : ∀ b : Element, times 3 b = timesX b ^^^ b :=
  forall_element (by decide +kernel)

/-! ## Inverses and the substitution -/

/-- An element has one inverse at most. -/
theorem eq_of_times_eq_one {a b c : Element} (left : times a b = 1) (right : times a c = 1) :
    b = c := by
  calc
    b = times (times a c) b := by rw [right, one_times]
    _ = times (times a b) c := product_comm a c b 8 8
    _ = c := by rw [left, one_times]

/-- The inverse that is found is the one that there is. -/
theorem inverse_eq {a b : Element} (inverted : times a b = 1) : inverse a = b := by
  unfold inverse
  cases found : ((List.range 256).map (BitVec.ofNat 8)).find? fun b => times a b = 1 with
  | none =>
    have listed : b ∈ (List.range 256).map (BitVec.ofNat 8) :=
      List.mem_map.mpr ⟨b.toNat, List.mem_range.mpr b.isLt, by simp⟩
    have missed := List.find?_eq_none.mp found b listed
    simp [inverted] at missed
  | some c =>
    have one := List.find?_some found
    exact eq_of_times_eq_one (of_decide_eq_true one) inverted

/-- No element is an inverse of zero. -/
theorem inverse_zero : inverse 0 = 0 := by
  have none : ((List.range 256).map (BitVec.ofNat 8)).find? (fun b => times 0 b = 1) = none := by
    rw [List.find?_eq_none]
    intro b _
    rw [times, product_zero]
    decide
  rw [inverse, none, Option.getD_none]

/-- The map of the bits that follows the inverse. -/
def mapped (b : Element) : Element :=
  b ^^^ b.rotateLeft 1 ^^^ b.rotateLeft 2 ^^^ b.rotateLeft 3 ^^^ b.rotateLeft 4 ^^^ 0x63

/-- The map of the bits, backwards. -/
def unmapped (b : Element) : Element := b.rotateLeft 1 ^^^ b.rotateLeft 3 ^^^ b.rotateLeft 6 ^^^ 0x05

/-- The map of the bits can be undone. -/
theorem mapped_unmapped : ∀ b : Element, mapped (unmapped b) = b :=
  forall_element (by decide +kernel)

/-- Undoing the map of the bits on an entry of the table gives the inverse of the byte replaced. -/
theorem table_inverts : ∀ byte : UInt8,
    let inverse := unmapped (KeyWrapping.Aes.substitute byte).toBitVec
    byte = 0 ∧ inverse = 0 ∨ times byte.toBitVec inverse = 1 :=
  forall_byte (by decide +kernel)

/-- The table is the published substitution. -/
theorem toBitVec_substitute (byte : UInt8) :
    (KeyWrapping.Aes.substitute byte).toBitVec = substitute byte.toBitVec := by
  rw [← mapped_unmapped (KeyWrapping.Aes.substitute byte).toBitVec]
  rcases table_inverts byte with ⟨rfl, zero⟩ | inverted
  · rw [zero]
    exact congrArg mapped inverse_zero.symm
  · exact congrArg mapped (inverse_eq inverted).symm

/-! ## The mixing matrix -/

/-- Every byte of a mixed column is the product of its row of the matrix with the column. -/
theorem toBitVec_mix (column : KeyWrapping.Aes.Column) :
    let x0 := column.b0.toBitVec
    let x1 := column.b1.toBitVec
    let x2 := column.b2.toBitVec
    let x3 := column.b3.toBitVec
    column.mix.b0.toBitVec = times 2 x0 ^^^ times 3 x1 ^^^ times 1 x2 ^^^ times 1 x3 ∧
      column.mix.b1.toBitVec = times 1 x0 ^^^ times 2 x1 ^^^ times 3 x2 ^^^ times 1 x3 ∧
      column.mix.b2.toBitVec = times 1 x0 ^^^ times 1 x1 ^^^ times 2 x2 ^^^ times 3 x3 ∧
      column.mix.b3.toBitVec = times 3 x0 ^^^ times 1 x1 ^^^ times 1 x2 ^^^ times 2 x3 := by
  have drop (a b : Element) : a ^^^ (a ^^^ b) = b := by
    rw [← BitVec.xor_assoc, BitVec.xor_self, BitVec.zero_xor]
  have swap (a b c : Element) : a ^^^ (b ^^^ c) = b ^^^ (a ^^^ c) := by ac_rfl
  simp only [KeyWrapping.Aes.Column.mix, UInt8.toBitVec_xor, toBitVec_double, timesX_xor, one_times,
    two_times, three_times, BitVec.xor_assoc, BitVec.xor_comm, swap, drop, and_self]

end KeyWrapping.Standard.Aes
