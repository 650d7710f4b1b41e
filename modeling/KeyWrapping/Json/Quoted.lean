import KeyWrapping.Json.Fault

/-!
# Strings in quotes

The inside of a string is a run of pieces: characters, and code units written in hexadecimal.
Reading the pieces decides where the string ends and whether its form is right; joining them
into characters decides whether every surrogate has its partner. A reader that passes over a
string does the first only.
-/

namespace KeyWrapping.Json

/-- A piece of a string. -/
inductive Piece where
  /-- A character, written as itself or by a short escape. -/
  | char (c : Char)
  /-- A code unit of sixteen bits, written in hexadecimal. -/
  | codeUnit (value : Nat)
  deriving DecidableEq

/-- The value of a hexadecimal digit. -/
def hexDigit? (c : Char) : Option Nat :=
  if '0' ≤ c ∧ c ≤ '9' then some (c.toNat - 48)
  else if 'a' ≤ c ∧ c ≤ 'f' then some (c.toNat - 87)
  else if 'A' ≤ c ∧ c ≤ 'F' then some (c.toNat - 55)
  else none

/-- The code unit of four hexadecimal digits. -/
def codeUnit? (a b c d : Char) : Option Nat := do
  let a ← hexDigit? a
  let b ← hexDigit? b
  let c ← hexDigit? c
  let d ← hexDigit? d
  return ((a * 16 + b) * 16 + c) * 16 + d

/-- The character of a short escape. -/
def shortEscape? (c : Char) : Option Char :=
  match c with
  | '"' => some '"'
  | '\\' => some '\\'
  | '/' => some '/'
  | 'b' => some '\x08'
  | 'f' => some '\x0c'
  | 'n' => some '\n'
  | 'r' => some '\r'
  | 't' => some '\t'
  | _ => none

/-- The count of bytes of a text in storage. -/
def storedSize (text : List Char) : Nat :=
  text.foldr (fun letter count => letter.utf8Size + count) 0

/-- The fault where four hexadecimal digits must stand and fewer than four characters are left:
the text counts as ended when it has fewer than four bytes. -/
def shortUnitFault (rest : List Char) : Fault :=
  if storedSize rest < 4 then .truncated else .malformed

/-- Read the inside of a string: its pieces, and what follows the closing quote or what is wrong
after the pieces. -/
def scanPieces : List Char → List Piece × Except Fault (List Char)
  | [] => ([], .error .truncated)
  | '"' :: rest => ([], .ok rest)
  | ['\\'] => ([], .error .truncated)
  | '\\' :: 'u' :: a :: b :: c :: d :: rest =>
    match codeUnit? a b c d with
    | none => ([], .error .malformed)
    | some value =>
      let (pieces, outcome) := scanPieces rest
      (.codeUnit value :: pieces, outcome)
  | '\\' :: 'u' :: rest => ([], .error (shortUnitFault rest))
  | '\\' :: c :: rest =>
    match shortEscape? c with
    | none => ([], .error .malformed)
    | some escaped =>
      let (pieces, outcome) := scanPieces rest
      (.char escaped :: pieces, outcome)
  | c :: rest =>
    if c.toNat < 32 then ([], .error .malformed)
    else
      let (pieces, outcome) := scanPieces rest
      (.char c :: pieces, outcome)

/-- Reading a string lengthens nothing. -/
theorem scanPieces_le {text rest : List Char} (read : (scanPieces text).2 = .ok rest) :
    rest.length ≤ text.length := by
  fun_induction scanPieces text with
  | case1 => contradiction
  | case2 after =>
    obtain rfl := Except.ok.inj read
    simp
  | case3 => contradiction
  | case4 => contradiction
  | case5 a b c d after value _ pieces outcome inner ih =>
    have shorter := ih (by rw [inner]; exact read)
    simp only [List.length_cons]
    omega
  | case6 => contradiction
  | case7 => contradiction
  | case8 c after _ _ escaped _ pieces outcome inner ih =>
    have shorter := ih (by rw [inner]; exact read)
    simp only [List.length_cons]
    omega
  | case9 => contradiction
  | case10 c after _ _ _ _ _ _ pieces outcome inner ih =>
    have shorter := ih (by rw [inner]; exact read)
    simp only [List.length_cons]
    omega

/-- Whether a code unit is the first half of a pair. -/
def isLeading (value : Nat) : Bool := 0xd800 ≤ value && value ≤ 0xdbff

/-- Whether a code unit is the second half of a pair. -/
def isTrailing (value : Nat) : Bool := 0xdc00 ≤ value && value ≤ 0xdfff

/-- The character of a pair of code units. -/
def pairChar (leading trailing : Nat) : Char :=
  Char.ofNat (0x10000 + (leading - 0xd800) * 0x400 + (trailing - 0xdc00))

/-- What a run of pieces stands for. -/
inductive Joined where
  /-- Characters. -/
  | whole (chars : List Char)
  /-- The run ends with the first half of a pair. -/
  | waiting
  /-- A half of a pair stands alone. -/
  | unpaired
  deriving DecidableEq

/-- One character in front of what follows it. -/
def Joined.cons (c : Char) : Joined → Joined
  | whole chars => whole (c :: chars)
  | waiting => waiting
  | unpaired => unpaired

/-- Join pieces into characters. -/
def join : List Piece → Joined
  | [] => .whole []
  | .char c :: rest => (join rest).cons c
  | .codeUnit value :: rest =>
    if isTrailing value then .unpaired
    else if isLeading value then
      match rest with
      | [] => .waiting
      | .codeUnit next :: others =>
        if isTrailing next then (join others).cons (pairChar value next) else .unpaired
      | .char _ :: _ => .unpaired
    else (join rest).cons (Char.ofNat value)

/-- The characters of a closed string, if every half of a pair has its partner. -/
def charsOf? (pieces : List Piece) : Option (List Char) :=
  match join pieces with
  | .whole chars => some chars
  | .waiting => none
  | .unpaired => none

/-- What a reader that keeps the string finds wrong with it, when the form is wrong after some
pieces: a half of a pair that stands alone among them is found first. -/
def keptFault (pieces : List Piece) (after : Fault) : Fault :=
  match join pieces with
  | .unpaired => .malformed
  | .waiting => after
  | .whole _ => after

end KeyWrapping.Json
