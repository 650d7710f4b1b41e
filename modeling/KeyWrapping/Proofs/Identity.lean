import KeyWrapping.Proofs.ByteOrder
import KeyWrapping.Proofs.Layout
import KeyWrapping.Proofs.TextForm
/-!
# When two secrets and two records are the same

Secrets are compared without stopping early. A comparison can keep the union of all differences, or
it can keep one bit and add the answer for every pair of bytes to it (`agreement`); both read every
pair, both come to the same answer (`sameBytes_eq_agreement`), and this answer is equality. Records
have no other identity than their stored form: with one comparison of the bytes that they are kept
as, their texts and all their parts are settled as well.
-/

namespace KeyWrapping

namespace Bytes

/-- One where two bytes are equal and zero elsewhere, without a branch: the highest bit of a byte or
of its negative is set unless the byte is zero. -/
def equalBit (left right : UInt8) : UInt8 :=
  let difference := left ^^^ right
  ((difference ||| (0 - difference)) >>> 7) ^^^ 1

/-- The equal pairs of two strings taken together, read to the end of the shorter one. -/
def agreement (left right : Bytes) (start : UInt8) : UInt8 :=
  (List.zipWith equalBit left right).foldl (· &&& ·) start

/-- The bit of a difference is set exactly when there is none. -/
theorem equalBit_of_difference : ∀ difference : UInt8,
    ((difference ||| (0 - difference)) >>> 7) ^^^ 1 = if difference = 0 then 1 else 0 :=
  forall_byte (by decide +kernel)

/-- The bit of two bytes tells whether they are equal. -/
theorem equalBit_eq (left right : UInt8) :
    equalBit left right = if left = right then 1 else 0 := by
  rw [equalBit, equalBit_of_difference]
  simp only [UInt8.xor_eq_zero_iff]

/-- A pair of bytes leaves what was kept if it is equal, and clears it if not. -/
theorem agreement_cons (first second : UInt8) (left right : Bytes) (start : UInt8)
    (bit : start = 0 ∨ start = 1) :
    agreement (first :: left) (second :: right) start =
      agreement left right (if first = second then start else 0) := by
  rw [agreement, List.zipWith_cons_cons, List.foldl_cons, equalBit_eq, agreement]
  by_cases equal : first = second
  · rw [if_pos equal, if_pos equal]
    rcases bit with rfl | rfl
    · rfl
    · rfl
  · rw [if_neg equal, if_neg equal, UInt8.and_zero]

/-- For strings of one length the bit that was set at the start is still set at the end exactly when
no pair differs; a bit that was cleared stays so. -/
theorem agreement_eq_one_iff (left right : Bytes) (counted : left.length = right.length)
    (start : UInt8) (bit : start = 0 ∨ start = 1) :
    agreement left right start = 1 ↔ start = 1 ∧ left = right := by
  induction left generalizing right start with
  | nil =>
    obtain rfl := List.length_eq_zero_iff.mp counted.symm
    simp [agreement]
  | cons first left ih =>
    cases right with
    | nil => simp at counted
    | cons second right =>
      have shorter : left.length = right.length := by simpa using counted
      rw [agreement_cons first second left right start bit]
      by_cases equal : first = second
      · rw [if_pos equal, ih right shorter start bit, List.cons.injEq]
        simp only [equal, true_and]
      · rw [if_neg equal, ih right shorter 0 (.inl rfl), List.cons.injEq]
        simp [equal]

/-- Keeping the union of the differences and keeping one bit come to the same answer. -/
theorem sameBytes_eq_agreement (left right : Bytes) :
    sameBytes left right = (left.length == right.length && agreement left right 1 == 1) := by
  rw [Bool.eq_iff_iff, sameBytes_iff, Bool.and_eq_true, beq_iff_eq, beq_iff_eq]
  constructor
  · rintro rfl
    exact ⟨rfl, (agreement_eq_one_iff left left rfl 1 (.inr rfl)).mpr ⟨rfl, rfl⟩⟩
  · rintro ⟨counted, agreeing⟩
    exact ((agreement_eq_one_iff left right counted 1 (.inr rfl)).mp agreeing).2

end Bytes

namespace WrappedKey

/-- Stored forms of different records are different. -/
theorem toBytes_injective {key other : WrappedKey} (equal : key.toBytes = other.toBytes) :
    key = other := by
  have read := key.ofBytes_toBytes
  rw [equal, other.ofBytes_toBytes] at read
  exact (Except.ok.inj read).symm

/-- Texts of different records are different. -/
theorem toText_injective {key other : WrappedKey} (equal : key.toText = other.toText) :
    key = other := by
  have spelled (record : WrappedKey) : Base64.Spells record.toText.toList record.toBytes := by
    rw [toText, String.toList_ofList, Base64.encode_eq_written]
    exact ⟨0, List.append_nil _⟩
  have again := spelled key
  rw [equal] at again
  exact toBytes_injective ((spelled other).eq again)

/-- Every part that is looked up in one string is found the same in another. -/
structure SameParts (bytes others : Bytes) : Prop where
  /-- The salts. -/
  salt_eq : salt? bytes = salt? others
  /-- The nonces. -/
  nonce_eq : nonce? bytes = nonce? others
  /-- The ciphertexts. -/
  ciphertext_eq : ciphertext? bytes = ciphertext? others
  /-- The tags. -/
  tag_eq : tag? bytes = tag? others

/-- Stored forms with the same parts are stored forms of one record. -/
theorem SameParts.eq {key other : WrappedKey} (parts : SameParts key.toBytes other.toBytes) :
    key = other := by
  have found := other.inPlace_toBytes
  exact eq_of_found (parts.salt_eq.trans found.salt_eq) (parts.nonce_eq.trans found.nonce_eq)
    (parts.ciphertext_eq.trans found.ciphertext_eq) (parts.tag_eq.trans found.tag_eq)

/-- The comparison that reads every pair of bytes answers whether two strings are equal, and so does
the comparison of a secret with a string. For records, wherever they come from, this comparison is
all that there is to ask: they compare as the same exactly when they are kept as the same bytes,
when they have the same text, and when salts, nonces, ciphertexts and tags are the same. -/
theorem sameness_is_equality :
    (∀ left right : Bytes, (Bytes.sameBytes left right = true ↔ left = right) ∧
      Bytes.sameBytes left right =
        (left.length == right.length && Bytes.agreement left right 1 == 1)) ∧
    (∀ (secret : Secret) (bytes : Bytes), secret.holds bytes = true ↔ secret.bytes = bytes) ∧
    ∀ (key other : WrappedKey) (bytes others : Bytes), Stored key bytes → Stored other others →
      (key.same other = true ↔ bytes = others) ∧
      (key.same other = true ↔ key.toBytes = other.toBytes) ∧
      (key.same other = true ↔ key.toText = other.toText) ∧
      (key.same other = true ↔ SameParts bytes others) ∧
      (key.same other = true ↔ key = other) := by
  refine ⟨?_, Secret.holds_iff, ?_⟩
  · intro left right
    exact ⟨Bytes.sameBytes_iff left right, Bytes.sameBytes_eq_agreement left right⟩
  · intro key other bytes others stored stored'
    obtain rfl := stored.eq_toBytes
    obtain rfl := stored'.eq_toBytes
    have same : key.same other = true ↔ key.toBytes = other.toBytes :=
      Bytes.sameBytes_iff key.toBytes other.toBytes
    have bytes_iff : key.toBytes = other.toBytes ↔ key = other :=
      ⟨toBytes_injective, congrArg toBytes⟩
    refine ⟨same, same, ?_, ?_, same.trans bytes_iff⟩
    · rw [same, bytes_iff]
      exact ⟨congrArg toText, toText_injective⟩
    · rw [same]
      constructor
      · intro equal
        rw [equal]
        exact ⟨rfl, rfl, rfl, rfl⟩
      · intro parts
        exact congrArg toBytes parts.eq

end WrappedKey

end KeyWrapping
