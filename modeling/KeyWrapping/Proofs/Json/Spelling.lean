import KeyWrapping.Json.Written
import KeyWrapping.Proofs.Json.Decimal
import Mathlib.Data.List.Chain
import Mathlib.Data.List.TakeWhile
/-!
# Texts of tokens

A string can be written in many ways: every character as itself, by a short escape or by its
sixteen-bit code units in hexadecimal, unless it is one of those that have to be escaped
(`SpelledChar`). Between the tokens there can be any blanks (`Renders`). Whatever way is chosen, the
text is cut into the same tokens (`tokens_of_renders`), as long as whatever follows a number is a
comma or a closing bracket (`Token.Apart`).
-/

namespace KeyWrapping.Json

/-! ## Strings -/

/-- The first code unit of a character beyond sixteen bits. -/
def highHalf (c : Char) : Nat := 0xd800 + (c.toNat - 0x10000) / 0x400

/-- The second code unit of a character beyond sixteen bits. -/
def lowHalf (c : Char) : Nat := 0xdc00 + (c.toNat - 0x10000) % 0x400

/-- The ways to write a character inside a string. -/
inductive SpelledChar : Char → List Char → Prop where
  /-- A character as itself, if it is none that has to be escaped. -/
  | plain {c : Char} (visible : 32 ≤ c.toNat) (noQuote : c ≠ '"') (noEscape : c ≠ '\\') :
    SpelledChar c [c]
  /-- A character by a letter. -/
  | short {c letter : Char} (known : shortEscape? letter = some c) : SpelledChar c ['\\', letter]
  /-- A character by its code unit. -/
  | unit {c h0 h1 h2 h3 : Char} (value : codeUnit? h0 h1 h2 h3 = some c.toNat) :
    SpelledChar c ['\\', 'u', h0, h1, h2, h3]
  /-- A character by two code units. -/
  | pair {c h0 h1 h2 h3 l0 l1 l2 l3 : Char} (beyond : 0x10000 ≤ c.toNat)
    (high : codeUnit? h0 h1 h2 h3 = some (highHalf c))
    (low : codeUnit? l0 l1 l2 l3 = some (lowHalf c)) :
    SpelledChar c ['\\', 'u', h0, h1, h2, h3, '\\', 'u', l0, l1, l2, l3]

/-- The ways to write the inside of a string. -/
inductive SpelledText : List Char → List Char → Prop where
  /-- Nothing is written as nothing. -/
  | nil : SpelledText [] []
  /-- Characters are written one after the other. -/
  | cons {c : Char} {word : List Char} {chars inside : List Char} (first : SpelledChar c word)
    (others : SpelledText chars inside) : SpelledText (c :: chars) (word ++ inside)

/-- A code point is no half of a pair. -/
theorem not_half (c : Char) : isLeading c.toNat = false ∧ isTrailing c.toNat = false := by
  have valid : c.toNat.isValidChar := c.valid
  unfold Nat.isValidChar at valid
  simp only [isLeading, isTrailing, Bool.and_eq_false_iff, decide_eq_false_iff_not]
  omega

/-- The code units of a character beyond sixteen bits are a pair that stands for it. -/
theorem pair_of_beyond {c : Char} (beyond : 0x10000 ≤ c.toNat) :
    isLeading (highHalf c) = true ∧ isTrailing (highHalf c) = false ∧
      isTrailing (lowHalf c) = true ∧ pairChar (highHalf c) (lowHalf c) = c := by
  have valid : c.toNat.isValidChar := c.valid
  unfold Nat.isValidChar at valid
  have parts : 0x10000 + (highHalf c - 0xd800) * 0x400 + (lowHalf c - 0xdc00) = c.toNat := by
    unfold highHalf lowHalf
    omega
  have high : 0xd800 ≤ highHalf c ∧ highHalf c ≤ 0xdbff := by
    unfold highHalf
    omega
  have low : 0xdc00 ≤ lowHalf c ∧ lowHalf c ≤ 0xdfff := by
    unfold lowHalf
    omega
  refine ⟨?_, ?_, ?_, ?_⟩
  · simpa [isLeading] using high
  · simp only [isTrailing, Bool.and_eq_false_iff, decide_eq_false_iff_not]
    omega
  · simpa [isTrailing] using low
  · rw [pairChar, parts, Char.ofNat_toNat]

/-- A character that need not be escaped is a piece. -/
theorem scanPieces_plain {c : Char} (visible : 32 ≤ c.toNat) (noQuote : c ≠ '"')
    (noEscape : c ≠ '\\') (rest : List Char) :
    scanPieces (c :: rest) = (.char c :: (scanPieces rest).1, (scanPieces rest).2) := by
  rw [scanPieces.eq_def]
  split
  · contradiction
  · next starts => exact absurd (List.cons.inj starts).1 noQuote
  · next starts => exact absurd (List.cons.inj starts).1 noEscape
  · next starts => exact absurd (List.cons.inj starts).1 noEscape
  · next starts => exact absurd (List.cons.inj starts).1 noEscape
  · next starts => exact absurd (List.cons.inj starts).1 noEscape
  · next first others _ _ _ _ _ starts =>
    obtain ⟨rfl, rfl⟩ := List.cons.inj starts
    rw [if_neg (Nat.not_lt.mpr visible)]

/-- A short escape is the piece of its character. -/
theorem scanPieces_short {c letter : Char} (known : shortEscape? letter = some c)
    (rest : List Char) :
    scanPieces ('\\' :: letter :: rest) =
      (.char c :: (scanPieces rest).1, (scanPieces rest).2) := by
  have noUnit : letter ≠ 'u' := by
    rintro rfl
    contradiction
  rw [scanPieces.eq_def]
  split
  · contradiction
  · next starts => exact absurd (List.cons.inj starts).1 (by decide)
  · next starts => exact nomatch (List.cons.inj starts).2
  · next starts => exact absurd (List.cons.inj (List.cons.inj starts).2).1 noUnit
  · next starts => exact absurd (List.cons.inj (List.cons.inj starts).2).1 noUnit
  · next starts =>
    obtain ⟨rfl, rfl⟩ := List.cons.inj (List.cons.inj starts).2
    rw [known]
  · next first others _ _ _ _ further starts =>
    obtain ⟨rfl, rfl⟩ := List.cons.inj starts
    exact (further _ _ rfl rfl).elim

/-- Four hexadecimal digits are the piece of their code unit. -/
theorem scanPieces_unit {h0 h1 h2 h3 : Char} {value : Nat}
    (known : codeUnit? h0 h1 h2 h3 = some value) (rest : List Char) :
    scanPieces ('\\' :: 'u' :: h0 :: h1 :: h2 :: h3 :: rest) =
      (.codeUnit value :: (scanPieces rest).1, (scanPieces rest).2) := by
  rw [scanPieces, known]

/-- A written character is read as pieces that stand for it, in front of the pieces of what
follows. -/
theorem exists_pieces_of_spelledChar {c : Char} {word : List Char} (spelled : SpelledChar c word) :
    ∃ pieces, (∀ rest, scanPieces (word ++ rest) =
        (pieces ++ (scanPieces rest).1, (scanPieces rest).2)) ∧
      ∀ others, join (pieces ++ others) = (join others).cons c := by
  cases spelled with
  | plain visible noQuote noEscape =>
    exact ⟨[.char c], scanPieces_plain visible noQuote noEscape, fun others => rfl⟩
  | short known => exact ⟨[.char c], scanPieces_short known, fun others => rfl⟩
  | unit value =>
    obtain ⟨noLeading, noTrailing⟩ := not_half c
    refine ⟨[.codeUnit c.toNat], scanPieces_unit value, ?_⟩
    intro others
    rw [List.singleton_append, join.eq_def]
    simp only
    rw [if_neg (by simp [noTrailing]), if_neg (by simp [noLeading]), Char.ofNat_toNat]
  | @pair h0 h1 h2 h3 l0 l1 l2 l3 beyond high low =>
    obtain ⟨leading, noTrailing, trailing, joined⟩ := pair_of_beyond beyond
    refine ⟨[.codeUnit (highHalf c), .codeUnit (lowHalf c)], ?_, ?_⟩
    · intro rest
      have scanned := scanPieces_unit high ('\\' :: 'u' :: l0 :: l1 :: l2 :: l3 :: rest)
      rw [scanPieces_unit low rest] at scanned
      exact scanned
    · intro others
      rw [List.cons_append, List.singleton_append, join, if_neg (by simp [noTrailing]),
        if_pos leading, if_pos trailing, joined]

/-- A written string is read to its closing quote, as pieces that stand for its characters. -/
theorem exists_pieces_of_spelledText {chars inside : List Char} (spelled : SpelledText chars inside)
    (rest : List Char) :
    ∃ pieces, scanPieces (inside ++ '"' :: rest) = (pieces, .ok rest) ∧
      join pieces = .whole chars := by
  induction spelled with
  | nil =>
    refine ⟨[], ?_, rfl⟩
    rw [List.nil_append, scanPieces]
  | @cons c word chars inside first others ih =>
    obtain ⟨before, scanned, stands⟩ := exists_pieces_of_spelledChar first
    obtain ⟨pieces, following, joined⟩ := ih
    refine ⟨before ++ pieces, ?_, ?_⟩
    · rw [List.append_assoc, scanned, following]
    · rw [stands, joined]
      rfl

/-- A written string is a token with its characters. -/
theorem textToken_of_spelled {chars inside : List Char} (spelled : SpelledText chars inside)
    (rest : List Char) : textToken (inside ++ '"' :: rest) = (.text (some chars), rest) := by
  obtain ⟨pieces, scanned, joined⟩ := exists_pieces_of_spelledText spelled rest
  rw [textToken, scanned]
  simp only [charsOf?, joined]

/-! ## Tokens -/

/-- The ways to write a token. -/
inductive Token.Spelled : Token → List Char → Prop where
  /-- The bracket that opens an array. -/
  | openArray : Spelled .openArray ['[']
  /-- The bracket that closes an array. -/
  | closeArray : Spelled .closeArray [']']
  /-- The bracket that opens an object. -/
  | openObject : Spelled .openObject ['{']
  /-- The bracket that closes an object. -/
  | closeObject : Spelled .closeObject ['}']
  /-- The comma between items or members. -/
  | comma : Spelled .comma [',']
  /-- The colon behind a key. -/
  | colon : Spelled .colon [':']
  /-- The word for nothing. -/
  | null : Spelled .null ['n', 'u', 'l', 'l']
  /-- The word for yes. -/
  | true : Spelled (.bool true) ['t', 'r', 'u', 'e']
  /-- The word for no. -/
  | false : Spelled (.bool false) ['f', 'a', 'l', 's', 'e']
  /-- A natural number as it is printed. -/
  | number (value : Nat) : Spelled (.number (.ofNat value)) (toString value).toList
  /-- A string in quotes. -/
  | text {chars inside : List Char} (spelled : SpelledText chars inside) :
    Spelled (.text (some chars)) ('"' :: inside ++ ['"'])

/-- A token that can follow a number. -/
def Token.Separates (token : Token) : Prop :=
  token = .comma ∨ token = .closeArray ∨ token = .closeObject

/-- Two tokens that can be written one after the other without a blank. -/
def Token.Apart (first second : Token) : Prop :=
  (∃ form, first = .number form) → second.Separates

/-- The ways to write tokens, with blanks anywhere between them. -/
inductive Renders : List Token → List Char → Prop where
  /-- No tokens are written as blanks. -/
  | done {blanks : List Char} (blank : ∀ c ∈ blanks, isSpace c = true) : Renders [] blanks
  /-- Tokens are written one after the other, with blanks in front. -/
  | next {token : Token} {rest : List Token} {blanks word text : List Char}
    (blank : ∀ c ∈ blanks, isSpace c = true) (spelled : token.Spelled word)
    (renders : Renders rest text) : Renders (token :: rest) (blanks ++ (word ++ text))

/-- A digit is the beginning of a numeral and of no other token. -/
theorem scanToken_digit {c : Char} (digit : isDigit c = true) (rest : List Char) :
    scanToken c rest = numberToken (c :: rest) ∧ isSpace c = false := by
  have differs (other : Char) (noDigit : isDigit other = false) : c ≠ other := by
    rintro rfl
    rw [digit] at noDigit
    contradiction
  constructor
  · unfold scanToken
    split
    · exact absurd rfl (differs '[' (by decide))
    · exact absurd rfl (differs ']' (by decide))
    · exact absurd rfl (differs '{' (by decide))
    · exact absurd rfl (differs '}' (by decide))
    · exact absurd rfl (differs ',' (by decide))
    · exact absurd rfl (differs ':' (by decide))
    · exact absurd rfl (differs '"' (by decide))
    · exact absurd rfl (differs 'n' (by decide))
    · exact absurd rfl (differs 't' (by decide))
    · exact absurd rfl (differs 'f' (by decide))
    · rw [if_pos (.inr digit)]
  · simp only [isSpace, Bool.or_eq_false_iff, decide_eq_false_iff_not]
    exact ⟨⟨⟨differs ' ' (by decide), differs '\n' (by decide)⟩, differs '\t' (by decide)⟩,
      differs '\r' (by decide)⟩

/-- A written token is read back, if it is no number or nothing goes on with it. -/
theorem scan_of_spelled {token : Token} {word : List Char} (spelled : token.Spelled word)
    {blanks : List Char} (blank : ∀ c ∈ blanks, isSpace c = true) {rest : List Char}
    (ends : (∃ form, token = .number form) → EndsNumeral rest) :
    scan (blanks ++ (word ++ rest)) = some (token, rest) := by
  have found {c : Char} {tail : List Char} (starts : word = c :: tail) (visible : isSpace c = false)
      (scanned : scanToken c (tail ++ rest) = (token, rest)) :
      scan (blanks ++ (word ++ rest)) = some (token, rest) := by
    have skipped : (blanks ++ (word ++ rest)).dropWhile isSpace = c :: (tail ++ rest) := by
      rw [List.dropWhile_append_of_pos blank, starts, List.cons_append]
      exact List.dropWhile_cons_of_neg (by simp [visible])
    rw [scan, skipped, ← scanned]
  cases spelled with
  | openArray | closeArray | openObject | closeObject | comma | colon =>
    exact found rfl (by decide) rfl
  | null | true | false => exact found rfl (by decide) rfl
  | number value =>
    have printed :
        (toString value).toList = (NumeralForm.decimal value).map NumeralForm.digitChar := by
      rw [← NumeralForm.written_ofNat]
      simp [NumeralForm.written, NumeralForm.ofNat]
    obtain ⟨c, tail, starts, digit⟩ := exists_digit_cons value
    refine found (printed.trans starts) (scanToken_digit digit []).2 ?_
    have scanned := scanNumeral_decimal value (ends ⟨_, rfl⟩)
    rw [starts] at scanned
    rw [(scanToken_digit digit _).1, numberToken, ← List.cons_append, scanned]
  | @text chars inside spelled =>
    refine found rfl (by decide) ?_
    change textToken ((inside ++ ['"']) ++ rest) = _
    rw [List.append_assoc]
    exact textToken_of_spelled spelled rest

/-- Written tokens, the first of which can follow a number, do not go on with one. -/
theorem endsNumeral_of_renders {tokens : List Token} {text : List Char}
    (renders : Renders tokens text) (separates : ∀ token ∈ tokens.head?, token.Separates) :
    EndsNumeral text := by
  have blank_ends {c : Char} (space : isSpace c = true) :
      isDigit c = false ∧ c ≠ '.' ∧ c ≠ 'e' ∧ c ≠ 'E' := by
    simp only [isSpace, Bool.or_eq_true, decide_eq_true_eq] at space
    rcases space with ((rfl | rfl) | rfl) | rfl <;> decide
  intro c starts
  cases renders with
  | done blank => exact blank_ends (blank c (List.mem_of_mem_head? starts))
  | @next token rest blanks word text blank spelled renders =>
    cases blanks with
    | cons first blanks =>
      obtain rfl : first = c := by simpa using starts
      exact blank_ends (blank first List.mem_cons_self)
    | nil =>
      rcases separates token rfl with rfl | rfl | rfl
      · cases spelled
        obtain rfl : ',' = c := by simpa using starts
        decide
      · cases spelled
        obtain rfl : ']' = c := by simpa using starts
        decide
      · cases spelled
        obtain rfl : '}' = c := by simpa using starts
        decide

/-- Whatever way tokens are written in, their text is cut into the same tokens. -/
theorem tokens_of_renders {toks : List Token} {text : List Char} (renders : Renders toks text)
    (apart : toks.IsChain Token.Apart) : tokens text = toks := by
  induction renders with
  | @done blanks blank =>
    apply tokens_of_scan_none
    have skipped : blanks.dropWhile isSpace = [] := List.dropWhile_eq_nil_iff.mpr blank
    rw [scan, skipped]
  | @next token rest blanks word text blank spelled renders ih =>
    obtain ⟨follows, others⟩ := List.isChain_cons.mp apart
    have ends : (∃ form, token = .number form) → EndsNumeral text := by
      intro number
      exact endsNumeral_of_renders renders fun next among => follows next among number
    rw [tokens_of_scan_some (scan_of_spelled spelled blank ends), ih others]

/-! ## The own text of a token -/

/-- A character is written in one of the ways. -/
theorem spelledChar_written (c : Char) : SpelledChar c (writtenChar c) := by
  have control : ∀ value < 32,
      codeUnit? '0' '0' (hexChar (value / 16)) (hexChar (value % 16)) = some value := by
    decide
  unfold writtenChar
  split
  · next quote =>
    subst quote
    exact .short rfl
  · next noQuote =>
    split
    · next escape =>
      subst escape
      exact .short rfl
    · next noEscape =>
      split
      · next small => exact .unit (control c.toNat small)
      · next visible => exact .plain (Nat.not_lt.mp visible) noQuote noEscape

/-- The inside of a string is written in one of the ways. -/
theorem spelledText_written (chars : List Char) :
    SpelledText chars (chars.flatMap writtenChar) := by
  induction chars with
  | nil => exact .nil
  | cons c chars ih =>
    rw [List.flatMap_cons]
    exact .cons (spelledChar_written c) ih

/-- Tokens are written one after the other without blanks. -/
theorem renders_of_spelled {toks : List Token}
    (spelled : ∀ token ∈ toks, token.Spelled token.written) :
    Renders toks (toks.flatMap Token.written) := by
  induction toks with
  | nil => exact .done (by simp)
  | cons token rest ih =>
    have others := ih fun other among => spelled other (List.mem_cons_of_mem token among)
    have noBlanks : ∀ c ∈ ([] : List Char), isSpace c = true := by simp
    exact .next noBlanks (spelled token List.mem_cons_self) others

end KeyWrapping.Json
