import KeyWrapping.Json.Fault

/-!
# Numerals

A numeral is read for its form first: an optional minus sign, an integer part without leading
zeros, an optional fraction and an optional exponent. What matters about its value is whether it
is a natural number of 64 bits and, if not, whether a double-precision number can hold it; the
latter is decided on integers, with the rounding that a reader with one word of significand and
a table of powers of ten makes. Every natural number has one form of its own
(`valueOf_decimal`).
-/

namespace KeyWrapping.Json

/-- What is known of the value of a numeral. -/
inductive Numeral where
  /-- A natural number, written as one. -/
  | natural (value : UInt64)
  /-- Any other number that fits a double. -/
  | other
  /-- A number too large for a double. -/
  | tooLarge
  deriving DecidableEq

/-- A text in the form of a numeral, taken apart. -/
structure NumeralForm where
  /-- Whether it starts with a minus sign. -/
  negative : Bool
  /-- The digits of the integer part. -/
  whole : List Nat
  /-- The digits of the fraction, if there is a point. -/
  fraction : Option (List Nat)
  /-- The sign (true for minus) and the digits of the exponent, if there is one. -/
  exponent : Option (Bool × List Nat)
  deriving DecidableEq

namespace NumeralForm

/-- The largest value of a significand. -/
def significandLimit : Nat := UInt64.size - 1

/-- Take digits into a significand as long as it stays within its limit; the count of digits
left out is returned beside it. -/
def absorb (significand : Nat) : List Nat → Nat × Nat
  | [] => (significand, 0)
  | digit :: rest =>
    if significand * 10 + digit ≤ significandLimit then absorb (significand * 10 + digit) rest
    else (significand, rest.length + 1)

/-- The number that digits write. -/
def valueOf (digits : List Nat) : Nat := digits.foldl (fun value digit => value * 10 + digit) 0

/-- The significand and the power of ten that a reader makes of a numeral: integer digits left
out raise the power, digits of the fraction that are taken in lower it, and those left out do
not count. -/
def scientific (form : NumeralForm) : Nat × Int :=
  let (whole, droppedDigits) := absorb 0 form.whole
  let fraction := form.fraction.getD []
  let (significand, ignored) := absorb whole fraction
  let shift : Int := droppedDigits - (fraction.length - ignored : Nat)
  match form.exponent with
  | none => (significand, shift)
  | some (true, digits) => (significand, shift - valueOf digits)
  | some (false, digits) => (significand, shift + valueOf digits)

/-- A natural number rounded to fifty-three significant bits, a half to the even neighbour. -/
def roundDouble (value : Nat) : Nat :=
  let excess := value.log2 + 1 - 53
  let quotient := value >>> excess
  let remainder := value - (quotient <<< excess)
  let unit := 1 <<< excess
  let up := unit < 2 * remainder ∨ (2 * remainder = unit ∧ quotient % 2 = 1)
  (if up then quotient + 1 else quotient) <<< excess

/-- From here on a number rounds beyond the largest double. -/
def doubleLimit : Nat := (1 <<< 54 - 1) <<< 970

/-- Whether a significand and a power of ten leave the range of doubles. -/
def exceedsDouble (significand : Nat) (power : Int) : Bool :=
  if significand = 0 ∨ power < 0 then false
  else if 308 < power then true
  else doubleLimit ≤ roundDouble significand * roundDouble (Nat.pow 10 power.toNat)

/-- What is known of the value of a numeral. -/
def numeral (form : NumeralForm) : Numeral :=
  let (significand, power) := form.scientific
  if form.negative = false ∧ form.fraction = none ∧ form.exponent = none ∧
      valueOf form.whole ≤ significandLimit then
    .natural (UInt64.ofNat (valueOf form.whole))
  else if exceedsDouble significand power then .tooLarge
  else .other

/-- The decimal digits of a natural number. -/
def decimal (value : Nat) : List Nat :=
  if value < 10 then [value] else decimal (value / 10) ++ [value % 10]

/-- The form of a natural number. -/
def ofNat (value : Nat) : NumeralForm := ⟨false, decimal value, none, none⟩

/-- The decimal digits of a number write that number. -/
@[simp] theorem valueOf_decimal (value : Nat) : valueOf (decimal value) = value := by
  fun_induction decimal value with
  | case1 value small => simp [valueOf]
  | case2 value large ih =>
    simp only [valueOf, List.foldl_append, List.foldl_cons, List.foldl_nil] at ih ⊢
    rw [ih]
    omega

/-- The character of a decimal digit. -/
def digitChar (digit : Nat) : Char := Char.ofNat (48 + digit)

/-- The text of a numeral. -/
def written (form : NumeralForm) : List Char :=
  let sign := if form.negative then ['-'] else []
  let fraction := match form.fraction with
    | none => []
    | some digits => '.' :: digits.map digitChar
  let exponent := match form.exponent with
    | none => []
    | some (negative, digits) =>
      'e' :: (if negative then ['-'] else []) ++ digits.map digitChar
  sign ++ form.whole.map digitChar ++ fraction ++ exponent

end NumeralForm

/-- Whether a character is a decimal digit. -/
def isDigit (c : Char) : Bool := '0' ≤ c && c ≤ '9'

/-- The value of a decimal digit. -/
def digitValue (c : Char) : Nat := c.toNat - '0'.toNat

/-- The values of the leading digits, and what follows them. -/
def takeDigits (text : List Char) : List Nat × List Char :=
  ((text.takeWhile isDigit).map digitValue, text.dropWhile isDigit)

/-- A form that ends where a digit must stand: a reader that keeps the value tells the end of the
text from a wrong character, one that passes over it does not. -/
structure Incomplete where
  /-- What is wrong for a reader that keeps the value. -/
  kept : Fault
  /-- What is wrong for a reader that passes over it. -/
  passed : Fault
  deriving DecidableEq

/-- The fault where a digit must stand and the rest does not start with one. -/
def Incomplete.at (rest : List Char) : Incomplete :=
  ⟨if rest.isEmpty then .truncated else .malformed, .malformed⟩

/-- Read the fraction of a numeral, if a point comes next. -/
def scanFraction : List Char → Except Incomplete (Option (List Nat) × List Char)
  | '.' :: text =>
    match takeDigits text with
    | ([], rest) => .error (.at rest)
    | (digits, rest) => .ok (some digits, rest)
  | text => .ok (none, text)

/-- Read the sign of an exponent; none means plus. -/
def scanSign : List Char → Bool × List Char
  | '-' :: rest => (true, rest)
  | '+' :: rest => (false, rest)
  | rest => (false, rest)

/-- Read the exponent of a numeral, if one comes next. -/
def scanExponent : List Char → Except Incomplete (Option (Bool × List Nat) × List Char)
  | 'e' :: text => digitsAfterSign text
  | 'E' :: text => digitsAfterSign text
  | text => .ok (none, text)
where
  /-- Read the sign and the digits. -/
  digitsAfterSign (text : List Char) : Except Incomplete (Option (Bool × List Nat) × List Char) :=
    let (negative, unsigned) := scanSign text
    match takeDigits unsigned with
    | ([], rest) => .error (.at rest)
    | (digits, rest) => .ok (some (negative, digits), rest)

/-- Read the integer part of a numeral: one zero, or digits that do not start with zero. -/
def scanWhole (text : List Char) : Except Incomplete (List Nat × List Char) :=
  match takeDigits text with
  | ([], rest) => .error (.at rest)
  | (0 :: _ :: _, _) => .error ⟨.malformed, .malformed⟩
  | (digits, rest) => .ok (digits, rest)

/-- Read a numeral after its sign. -/
def scanUnsigned (negative : Bool) (text : List Char) :
    Except Incomplete (NumeralForm × List Char) := do
  let (whole, text) ← scanWhole text
  let (fraction, text) ← scanFraction text
  let (exponent, text) ← scanExponent text
  return (⟨negative, whole, fraction, exponent⟩, text)

/-- Read a numeral. -/
def scanNumeral : List Char → Except Incomplete (NumeralForm × List Char)
  | '-' :: text => scanUnsigned true text
  | text => scanUnsigned false text

/-- Digits are taken from the front of a text. -/
theorem length_takeDigits (text : List Char) :
    (takeDigits text).1.length + (takeDigits text).2.length = text.length := by
  simp only [takeDigits, List.length_map]
  rw [← List.length_append, List.takeWhile_append_dropWhile]

/-- An integer part takes at least one character. -/
theorem scanWhole_shorter {text rest : List Char} {digits : List Nat}
    (read : scanWhole text = .ok (digits, rest)) : rest.length < text.length := by
  have counted := length_takeDigits text
  unfold scanWhole at read
  split at read
  · contradiction
  · contradiction
  · next found left nonempty _ taken =>
    simp only [Except.ok.injEq, Prod.mk.injEq] at read
    obtain ⟨rfl, rfl⟩ := read
    rw [taken] at counted
    cases found with
    | nil => exact absurd rfl nonempty
    | cons first others => simp only [List.length_cons] at counted; omega

/-- A fraction lengthens nothing. -/
theorem scanFraction_le {text rest : List Char} {digits : Option (List Nat)}
    (read : scanFraction text = .ok (digits, rest)) : rest.length ≤ text.length := by
  unfold scanFraction at read
  split at read
  · next after =>
    have counted := length_takeDigits after
    split at read
    · contradiction
    · next taken =>
      simp only [Except.ok.injEq, Prod.mk.injEq] at read
      obtain ⟨_, rfl⟩ := read
      rw [taken] at counted
      simp only [List.length_cons] at counted ⊢
      omega
  · simp only [Except.ok.injEq, Prod.mk.injEq] at read
    exact read.2 ▸ Nat.le_refl _

/-- The digits of an exponent lengthen nothing. -/
theorem digitsAfterSign_le {text rest : List Char} {exponent : Option (Bool × List Nat)}
    (read : scanExponent.digitsAfterSign text = .ok (exponent, rest)) :
    rest.length ≤ text.length := by
  have signed : (scanSign text).2.length ≤ text.length := by
    unfold scanSign
    split <;> simp
  have counted := length_takeDigits (scanSign text).2
  unfold scanExponent.digitsAfterSign at read
  simp only at read
  split at read
  · contradiction
  · next taken =>
    simp only [Except.ok.injEq, Prod.mk.injEq] at read
    obtain ⟨_, rfl⟩ := read
    rw [taken] at counted
    simp only at counted
    omega

/-- An exponent lengthens nothing. -/
theorem scanExponent_le {text rest : List Char} {exponent : Option (Bool × List Nat)}
    (read : scanExponent text = .ok (exponent, rest)) : rest.length ≤ text.length := by
  unfold scanExponent at read
  split at read
  · exact Nat.le_succ_of_le (digitsAfterSign_le read)
  · exact Nat.le_succ_of_le (digitsAfterSign_le read)
  · simp only [Except.ok.injEq, Prod.mk.injEq] at read
    exact read.2 ▸ Nat.le_refl _

/-- A numeral without its sign takes at least one character. -/
theorem scanUnsigned_shorter {negative : Bool} {text rest : List Char} {form : NumeralForm}
    (read : scanUnsigned negative text = .ok (form, rest)) : rest.length < text.length := by
  simp only [scanUnsigned, bind, Except.bind] at read
  split at read
  · contradiction
  · next whole =>
    split at read
    · contradiction
    · next fraction =>
      split at read
      · contradiction
      · next exponent =>
        simp only [pure, Except.pure, Except.ok.injEq, Prod.mk.injEq] at read
        obtain ⟨_, rfl⟩ := read
        have first := scanWhole_shorter whole
        have second := scanFraction_le fraction
        have third := scanExponent_le exponent
        omega

/-- A numeral takes at least one character. -/
theorem scanNumeral_shorter {text rest : List Char} {form : NumeralForm}
    (read : scanNumeral text = .ok (form, rest)) : rest.length < text.length := by
  unfold scanNumeral at read
  split at read
  · exact Nat.lt_succ_of_lt (scanUnsigned_shorter read)
  · exact scanUnsigned_shorter read

end KeyWrapping.Json
