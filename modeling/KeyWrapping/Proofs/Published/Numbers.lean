import KeyWrapping.Proofs.ByteOrder
import KeyWrapping.Standard.Numbers
import Mathlib.Data.List.Induction
/-!
# Words written as numbers

The published definitions write words and blocks as numbers in a fixed count of bytes. Here the words
of the library are such numbers: the bytes of a word are its number written down
(`bytesOfWord_eq`, `bytesOfDouble_eq`), and a word made from bytes is the number that they write
(`value_four`). Writing and reading are inverse to each other up to what does not fit
(`bigEndian_value`, `value_bigEndian`). Steps that the definitions repeat can be counted from either
end (`repeat_apply`).
-/

namespace KeyWrapping.Standard

/-- Of repeated steps, the first can be counted apart as well as the last. -/
theorem repeat_apply {α : Type} (step : α → α) (count : Nat) (start : α) :
    Nat.repeat step count (step start) = step (Nat.repeat step count start) := by
  induction count with
  | zero => rfl
  | succ count ih => rw [Nat.repeat, ih, Nat.repeat]

/-- One more byte at the end is one more digit. -/
theorem value_concat (bytes : Bytes) (byte : UInt8) :
    value (bytes ++ [byte]) = value bytes * 256 + byte.toNat := by
  rw [value, List.foldl_append]
  rfl

/-- The number of two strings, one behind the other. -/
theorem value_append (left right : Bytes) :
    value (left ++ right) = value left * 256 ^ right.length + value right := by
  induction right using List.reverseRecOn with
  | nil => simp [value]
  | append_singleton front last ih =>
    rw [← List.append_assoc, value_concat, ih, value_concat, List.length_append,
      List.length_singleton, Nat.pow_succ, Nat.add_mul, Nat.mul_assoc, Nat.add_assoc]

/-- Bytes are the number that they write, in as many bytes. -/
theorem bigEndian_value (bytes : Bytes) : bigEndian bytes.length (value bytes) = bytes := by
  induction bytes using List.reverseRecOn with
  | nil => rfl
  | append_singleton front last ih =>
    have digit := last.toNat_lt
    have quotient : (value front * 256 + last.toNat) / 256 = value front := by omega
    have remainder : (value front * 256 + last.toNat) % 256 = last.toNat := by omega
    rw [value_concat, List.length_append, List.length_singleton, bigEndian, quotient, remainder, ih,
      UInt8.ofNat_toNat]

/-- A number that is written down is read as what fits. -/
theorem value_bigEndian (count number : Nat) :
    value (bigEndian count number) = number % 256 ^ count := by
  induction count generalizing number with
  | zero => rw [bigEndian, Nat.pow_zero, Nat.mod_one, value, List.foldl_nil]
  | succ count ih =>
    have digit : (UInt8.ofNat (number % 256)).toNat = number % 256 := by
      rw [UInt8.toNat_ofNat']
      omega
    rw [bigEndian, value_concat, ih, digit, Nat.pow_succ', Nat.mod_mul, Nat.add_comm, Nat.mul_comm]

/-- Only what fits is written down. -/
theorem bigEndian_mod (count number : Nat) :
    bigEndian count (number % 256 ^ count) = bigEndian count number := by
  have written := bigEndian_value (bigEndian count number)
  rwa [length_bigEndian, value_bigEndian] at written

/-- The bytes of a word are its number. -/
theorem bytesOfWord_eq (word : UInt32) : bytesOfWord word = bigEndian 4 word.toNat := by
  simp only [bytesOfWord, bigEndian, List.nil_append, List.cons_append, List.cons.injEq, and_true,
    ← UInt8.toNat_inj, UInt32.toNat_toUInt8, UInt32.toNat_shiftRight, UInt8.toNat_ofNat',
    Nat.shiftRight_eq_div_pow, UInt32.toNat_ofNat, Nat.reduceMod, Nat.reducePow]
  omega

/-- The bytes of a double word are its number. -/
theorem bytesOfDouble_eq (double : UInt64) : bytesOfDouble double = bigEndian 8 double.toNat := by
  simp only [bytesOfDouble, bigEndian, List.nil_append, List.cons_append, List.cons.injEq, and_true,
    ← UInt8.toNat_inj, UInt64.toNat_toUInt8, UInt64.toNat_shiftRight, UInt8.toNat_ofNat',
    Nat.shiftRight_eq_div_pow, UInt64.toNat_ofNat, Nat.reduceMod, Nat.reducePow]
  omega

/-- The double word of a number is the number, as far as it fits. -/
theorem bytesOfDouble_ofNat (number : Nat) :
    bytesOfDouble (UInt64.ofNat number) = bigEndian 8 number := by
  rw [bytesOfDouble_eq, UInt64.toNat_ofNat', ← bigEndian_mod 8 number]
  rfl

/-- Four bytes write the number of their word. -/
theorem value_four (b0 b1 b2 b3 : UInt8) :
    value [b0, b1, b2, b3] = (wordOfBytes b0 b1 b2 b3).toNat := by
  have h0 := b0.toNat_lt
  have h1 := b1.toNat_lt
  have h2 := b2.toNat_lt
  have h3 := b3.toNat_lt
  have word : (wordOfBytes b0 b1 b2 b3).toNat =
      ((b0.toNat * 2 ^ 8 + b1.toNat) * 2 ^ 8 + b2.toNat) * 2 ^ 8 + b3.toNat := by
    simp only [wordOfBytes, UInt32.toNat_or, UInt32.toNat_shiftLeft, UInt8.toNat_toUInt32,
      Nat.shiftLeft_eq, UInt32.toNat_ofNat]
    simp (disch := omega) only [Nat.mod_eq_of_lt]
    rw [or_next _ _ 16 h1, or_next _ _ 8 h2]
    simpa using or_next _ b3.toNat 0 h3
  rw [word]
  simp only [value, List.foldl_cons, List.foldl_nil]
  omega

end KeyWrapping.Standard
