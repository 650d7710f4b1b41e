import KeyWrapping.Json.Value

/-!
# Written values

The tokens of a value, and the text of a token. A value is written without blanks; strings are
written with an escape for quotes, backslashes and control characters only.
-/

namespace KeyWrapping.Json

/-- The hexadecimal digit of a value below sixteen. -/
def hexChar (value : Nat) : Char :=
  if value < 10 then Char.ofNat (48 + value) else Char.ofNat (87 + value)

/-- A character inside a written string. -/
def writtenChar (c : Char) : List Char :=
  if c = '"' then ['\\', '"']
  else if c = '\\' then ['\\', '\\']
  else if c.toNat < 32 then ['\\', 'u', '0', '0', hexChar (c.toNat / 16), hexChar (c.toNat % 16)]
  else [c]

/-- A string in quotes. -/
def writtenText (chars : List Char) : List Char := '"' :: chars.flatMap writtenChar ++ ['"']

/-- The text of a token; what is no token has none. -/
def Token.written : Token → List Char
  | .openArray => ['[']
  | .closeArray => [']']
  | .openObject => ['{']
  | .closeObject => ['}']
  | .comma => [',']
  | .colon => [':']
  | .null => ['n', 'u', 'l', 'l']
  | .bool true => ['t', 'r', 'u', 'e']
  | .bool false => ['f', 'a', 'l', 's', 'e']
  | .number form => form.written
  | .text (some chars) => writtenText chars
  | .text none => []
  | .unreadable .. => []

mutual

/-- The tokens of a value. -/
def Value.tokens : Value → List Token
  | .null => [.null]
  | .bool value => [.bool value]
  | .number form => [.number form]
  | .text chars => [.text (some chars)]
  | .array items => .openArray :: itemTokens items ++ [.closeArray]
  | .object members => .openObject :: memberTokens members ++ [.closeObject]

/-- The tokens of the items of an array, with commas between them. -/
def itemTokens : List Value → List Token
  | [] => []
  | item :: rest =>
    match rest with
    | [] => item.tokens
    | _ :: _ => item.tokens ++ .comma :: itemTokens rest

/-- The tokens of the members of an object, with commas between them. -/
def memberTokens : List (List Char × Value) → List Token
  | [] => []
  | member :: rest =>
    match rest with
    | [] => memberToken member
    | _ :: _ => memberToken member ++ .comma :: memberTokens rest

/-- The tokens of a member. -/
def memberToken : List Char × Value → List Token
  | (key, value) => .text (some key) :: .colon :: value.tokens

end

/-- The text of a value. -/
def Value.written (value : Value) : List Char := value.tokens.flatMap Token.written

end KeyWrapping.Json
