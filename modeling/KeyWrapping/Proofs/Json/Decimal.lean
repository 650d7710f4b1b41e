import KeyWrapping.Json.Token
/-!
# Numbers in decimal

A natural number is written as its decimal digits, without a zero in front (`written_ofNat`). Read
back, the digits are the whole numeral as long as nothing follows that would go on with it
(`EndsNumeral`), and the numeral is known as that number if it has sixty-four bits (`numeral_ofNat`).
-/

namespace KeyWrapping.Json

/-- What follows a numeral does not go on with it. -/
def EndsNumeral (rest : List Char) : Prop :=
  ∀ c ∈ rest.head?, isDigit c = false ∧ c ≠ '.' ∧ c ≠ 'e' ∧ c ≠ 'E'

namespace NumeralForm

/-- A digit is written as a digit, and is worth what it was. -/
theorem digit_of_digitChar :
    ∀ digit < 10, isDigit (digitChar digit) = true ∧ digitValue (digitChar digit) = digit := by
  decide

/-- Digits are below ten. -/
theorem lt_of_mem_decimal {value digit : Nat} (among : digit ∈ decimal value) : digit < 10 := by
  fun_induction decimal value with
  | case1 value small =>
    obtain rfl := List.mem_singleton.mp among
    exact small
  | case2 value large ih =>
    obtain inner | last := List.mem_append.mp among
    · exact ih inner
    · obtain rfl := List.mem_singleton.mp last
      exact Nat.mod_lt _ (by decide)

/-- A number above zero does not begin with zero. -/
theorem head_decimal {value first : Nat} {rest : List Nat} (positive : 0 < value)
    (digits : decimal value = first :: rest) : first ≠ 0 := by
  fun_induction decimal value generalizing rest with
  | case1 value small =>
    obtain ⟨rfl, _⟩ := List.cons.inj digits
    exact Nat.ne_of_gt positive
  | case2 value large ih =>
    have shorter : 0 < value / 10 := Nat.div_pos (Nat.not_lt.mp large) (by decide)
    cases inner : decimal (value / 10) with
    | nil =>
      have written := valueOf_decimal (value / 10)
      rw [inner] at written
      exact absurd written (Nat.ne_of_lt shorter)
    | cons head tail =>
      rw [inner] at digits
      obtain ⟨rfl, _⟩ := List.cons.inj digits
      exact ih shorter inner

/-- The digits of a number are a zero alone, or they begin with another digit. -/
theorem decimal_cases (value : Nat) :
    decimal value = [0] ∨ ∃ first rest, decimal value = first :: rest ∧ first ≠ 0 := by
  by_cases positive : 0 < value
  · cases digits : decimal value with
    | nil =>
      have written := valueOf_decimal value
      rw [digits] at written
      exact absurd written (Nat.ne_of_lt positive)
    | cons first rest => exact .inr ⟨first, rest, rfl, head_decimal positive digits⟩
  · obtain rfl : value = 0 := Nat.eq_zero_of_not_pos positive
    rw [decimal]
    exact .inl rfl

/-- The digits of a number are those that it is printed with. -/
theorem map_digitChar_decimal (value : Nat) :
    (decimal value).map digitChar = Nat.toDigits 10 value := by
  have digit : ∀ digit < 10, digitChar digit = Nat.digitChar digit := by decide
  fun_induction decimal value with
  | case1 value small =>
    rw [Nat.toDigits_of_lt_base small, List.map_singleton, digit value small]
  | case2 value large ih =>
    rw [Nat.toDigits_of_base_le (by decide) (Nat.not_lt.mp large), List.map_append, ih,
      List.map_singleton, digit _ (Nat.mod_lt _ (by decide))]

/-- A natural number is written as it is printed. -/
theorem written_ofNat (value : Nat) : (ofNat value).written = (toString value).toList := by
  rw [Nat.toString_eq_repr, Nat.repr_eq_ofList_toDigits, String.toList_ofList,
    ← map_digitChar_decimal, written, ofNat]
  simp

/-- A natural number of sixty-four bits is known as itself. -/
theorem numeral_ofNat {value : Nat} (small : value < UInt64.size) :
    (ofNat value).numeral = .natural (UInt64.ofNat value) := by
  have within : valueOf (decimal value) ≤ significandLimit := by
    rw [valueOf_decimal]
    exact Nat.le_sub_one_of_lt small
  rw [numeral]
  simp only [ofNat, true_and]
  rw [if_pos within, valueOf_decimal]

end NumeralForm

open NumeralForm

/-- Written digits are taken to their end. -/
theorem takeDigits_append {digits : List Nat} (small : ∀ digit ∈ digits, digit < 10)
    {rest : List Char} (ends : EndsNumeral rest) :
    takeDigits (digits.map digitChar ++ rest) = (digits, rest) := by
  have known : ∀ c ∈ digits.map digitChar, isDigit c = true := by
    intro c among
    obtain ⟨digit, listed, rfl⟩ := List.mem_map.mp among
    exact (digit_of_digitChar digit (small digit listed)).1
  have none_taken : rest.takeWhile isDigit = [] := by
    cases rest with
    | nil => rfl
    | cons c rest => exact List.takeWhile_cons_of_neg (by simp [(ends c rfl).1])
  have none_dropped : rest.dropWhile isDigit = rest := by
    cases rest with
    | nil => rfl
    | cons c rest => exact List.dropWhile_cons_of_neg (by simp [(ends c rfl).1])
  have values : (digits.map digitChar).map digitValue = digits := by
    rw [List.map_map]
    calc
      digits.map (digitValue ∘ digitChar) = digits.map id :=
        List.map_congr_left fun digit listed => (digit_of_digitChar digit (small digit listed)).2
      _ = digits := List.map_id digits
  rw [takeDigits, List.takeWhile_append_of_pos known, List.dropWhile_append_of_pos known,
    none_taken, none_dropped, List.append_nil, values]

/-- The digits of a number are read as its integer part. -/
theorem scanWhole_decimal (value : Nat) {rest : List Char} (ends : EndsNumeral rest) :
    scanWhole ((decimal value).map digitChar ++ rest) = .ok (decimal value, rest) := by
  have small : ∀ digit ∈ decimal value, digit < 10 := fun _ among => lt_of_mem_decimal among
  rw [scanWhole, takeDigits_append small ends]
  obtain zero | ⟨first, others, digits, nonzero⟩ := decimal_cases value
  · rw [zero]
    rfl
  · rw [digits]
    split
    · next empty => exact nomatch (Prod.mk.inj empty).1
    · next leading =>
      obtain ⟨rfl, _⟩ := List.cons.inj (Prod.mk.inj leading).1
      exact absurd rfl nonzero
    · next found left _ _ same =>
      obtain ⟨rfl, rfl⟩ := Prod.mk.inj same
      rfl

/-- A number that is not gone on with has no fraction and no exponent. -/
theorem scanUnsigned_decimal (value : Nat) {rest : List Char} (ends : EndsNumeral rest) :
    scanUnsigned false ((decimal value).map digitChar ++ rest) = .ok (ofNat value, rest) := by
  have noFraction : scanFraction rest = .ok (none, rest) := by
    cases rest with
    | nil => rfl
    | cons c rest =>
      rw [scanFraction]
      intro after starts
      exact (ends c rfl).2.1 (List.cons.inj starts).1
  have noExponent : scanExponent rest = .ok (none, rest) := by
    cases rest with
    | nil => rfl
    | cons c rest =>
      rw [scanExponent]
      · intro after starts
        exact (ends c rfl).2.2.1 (List.cons.inj starts).1
      · intro after starts
        exact (ends c rfl).2.2.2 (List.cons.inj starts).1
  rw [scanUnsigned, scanWhole_decimal value ends]
  change (scanFraction rest >>= _) = _
  rw [noFraction]
  change (scanExponent rest >>= _) = _
  rw [noExponent]
  rfl

/-- A printed number begins with a digit. -/
theorem exists_digit_cons (value : Nat) :
    ∃ c rest, (decimal value).map digitChar = c :: rest ∧ isDigit c = true := by
  obtain zero | ⟨first, others, digits, _⟩ := decimal_cases value
  · exact ⟨'0', [], by rw [zero]; rfl, by decide⟩
  · have small : first < 10 := lt_of_mem_decimal (by rw [digits]; exact List.mem_cons_self)
    refine ⟨digitChar first, others.map digitChar, by rw [digits]; rfl, ?_⟩
    exact (digit_of_digitChar first small).1

/-- A printed number is read as its own numeral. -/
theorem scanNumeral_decimal (value : Nat) {rest : List Char} (ends : EndsNumeral rest) :
    scanNumeral ((decimal value).map digitChar ++ rest) = .ok (ofNat value, rest) := by
  obtain ⟨c, others, starts, digit⟩ := exists_digit_cons value
  have unsigned := scanUnsigned_decimal value ends
  rw [starts] at unsigned ⊢
  rw [List.cons_append] at unsigned ⊢
  rw [scanNumeral]
  · exact unsigned
  · intro after signed
    rw [(List.cons.inj signed).1] at digit
    exact absurd digit (by decide)

end KeyWrapping.Json
