import KeyWrapping.Json.Numeral
import KeyWrapping.Json.Quoted

/-!
# Tokens

A text is cut into tokens from its front, with the blanks between them left out. Whatever cannot
be read as a token becomes one last token that says what is wrong with it, for a reader that
keeps values and for one that passes over them; so a fault counts only when a reader gets as far
as that. Every token takes at least one character (`scan_shorter`).
-/

namespace KeyWrapping.Json

/-- A token of a text. -/
inductive Token where
  | openArray | closeArray | openObject | closeObject | comma | colon
  | null
  | bool (value : Bool)
  | number (form : NumeralForm)
  /-- A string, by its characters; a string with an unpaired half of a pair has none. -/
  | text (chars : Option (List Char))
  /-- The rest of the text, which is no token; whether it starts as a string, and what is wrong
  with it. -/
  | unreadable (quoted : Bool) (kept passed : Fault)
  deriving DecidableEq

/-- Whether a character may stand between tokens. -/
def isSpace (c : Char) : Bool := c = ' ' || c = '\n' || c = '\t' || c = '\r'

/-- What follows a word, whose first character is already read. -/
def scanWord : (word : List Char) → List Char → Except Fault (List Char)
  | [], rest => .ok rest
  | _ :: _, [] => .error .truncated
  | expected :: word, c :: rest => if c = expected then scanWord word rest else .error .malformed

/-- A word as a token, and what follows it. -/
def wordToken (token : Token) (word text : List Char) : Token × List Char :=
  match scanWord word text with
  | .ok rest => (token, rest)
  | .error fault => (.unreadable false fault fault, [])

/-- A string as a token, and what follows it. -/
def textToken (text : List Char) : Token × List Char :=
  match scanPieces text with
  | (pieces, .ok rest) => (.text (charsOf? pieces), rest)
  | (pieces, .error fault) => (.unreadable true (keptFault pieces fault) fault, [])

/-- A numeral as a token, and what follows it. -/
def numberToken (text : List Char) : Token × List Char :=
  match scanNumeral text with
  | .ok (form, rest) => (.number form, rest)
  | .error fault => (.unreadable false fault.kept fault.passed, [])

/-- The token at the front of a text that does not start with a blank. -/
def scanToken (c : Char) (rest : List Char) : Token × List Char :=
  match c with
  | '[' => (.openArray, rest)
  | ']' => (.closeArray, rest)
  | '{' => (.openObject, rest)
  | '}' => (.closeObject, rest)
  | ',' => (.comma, rest)
  | ':' => (.colon, rest)
  | '"' => textToken rest
  | 'n' => wordToken .null ['u', 'l', 'l'] rest
  | 't' => wordToken (.bool true) ['r', 'u', 'e'] rest
  | 'f' => wordToken (.bool false) ['a', 'l', 's', 'e'] rest
  | _ =>
    if c = '-' ∨ isDigit c then numberToken (c :: rest)
    else (.unreadable false .malformed .malformed, [])

/-- The first token of a text and what follows it. -/
def scan (text : List Char) : Option (Token × List Char) :=
  match text.dropWhile isSpace with
  | [] => none
  | c :: rest => some (scanToken c rest)

/-- Reading a word lengthens nothing. -/
theorem scanWord_le {word text rest : List Char} (read : scanWord word text = .ok rest) :
    rest.length ≤ text.length := by
  fun_induction scanWord word text with
  | case1 => exact Except.ok.inj read ▸ Nat.le_refl _
  | case2 => contradiction
  | case3 expected word rest ih => exact Nat.le_succ_of_le (ih read)
  | case4 => contradiction

/-- What follows a word is no longer than the text. -/
theorem wordToken_le (token : Token) (word text : List Char) :
    (wordToken token word text).2.length ≤ text.length := by
  unfold wordToken
  split
  · next read => exact scanWord_le read
  · simp

/-- What follows a string is no longer than the text. -/
theorem textToken_le (text : List Char) : (textToken text).2.length ≤ text.length := by
  unfold textToken
  split
  · next read => exact scanPieces_le (by rw [read])
  · simp

/-- A numeral takes at least one character. -/
theorem numberToken_le (c : Char) (text : List Char) :
    (numberToken (c :: text)).2.length ≤ text.length := by
  unfold numberToken
  split
  · next read => exact Nat.le_of_lt_succ (scanNumeral_shorter read)
  · simp

/-- What follows a token is no longer than what follows its first character. -/
theorem scanToken_le (c : Char) (rest : List Char) :
    (scanToken c rest).2.length ≤ rest.length := by
  unfold scanToken
  split
  · exact Nat.le_refl _
  · exact Nat.le_refl _
  · exact Nat.le_refl _
  · exact Nat.le_refl _
  · exact Nat.le_refl _
  · exact Nat.le_refl _
  · exact textToken_le rest
  · exact wordToken_le _ _ rest
  · exact wordToken_le _ _ rest
  · exact wordToken_le _ _ rest
  · split
    · exact numberToken_le c rest
    · simp

/-- Every token takes at least one character. -/
theorem scan_shorter {text rest : List Char} {token : Token}
    (read : scan text = some (token, rest)) : rest.length < text.length := by
  unfold scan at read
  split at read
  · contradiction
  · next c after found =>
    obtain rfl : (scanToken c after).2 = rest := by rw [Option.some.inj read]
    have blanks := (List.dropWhile_sublist isSpace (l := text)).length_le
    have taken := scanToken_le c after
    rw [found] at blanks
    simp only [List.length_cons] at blanks
    omega

/-- The tokens of a text. -/
def tokens (text : List Char) : List Token :=
  match _found : scan text with
  | none => []
  | some (token, rest) => token :: tokens rest
termination_by text.length
decreasing_by exact scan_shorter _found

/-- A text without a token has none. -/
theorem tokens_of_scan_none {text : List Char} (found : scan text = none) : tokens text = [] := by
  rw [tokens]
  split
  · rfl
  · next other => rw [found] at other; contradiction

/-- The tokens of a text are its first token and those of what follows it. -/
theorem tokens_of_scan_some {text rest : List Char} {token : Token}
    (found : scan text = some (token, rest)) : tokens text = token :: tokens rest := by
  rw [tokens]
  split
  · next other => rw [found] at other; contradiction
  · next other =>
    rw [found] at other
    obtain ⟨rfl, rfl⟩ := Prod.mk.inj (Option.some.inj other)
    rfl

end KeyWrapping.Json
