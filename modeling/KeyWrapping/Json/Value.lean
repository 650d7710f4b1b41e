import KeyWrapping.Json.Token

/-!
# Values

A value is read from tokens by a machine that takes one token per step (`step`) and keeps the
brackets still open on a stack; reading is the run of these steps (`readValue`), so two readings
of the same tokens can be compared step by step. The same machine serves a reader that keeps
what it reads and one that passes over it: the scrutiny says which.
-/

namespace KeyWrapping.Json

/-- A value. Strings and keys are lists of characters; members keep their order. -/
inductive Value where
  | null
  | bool (value : Bool)
  | number (form : NumeralForm)
  | text (chars : List Char)
  | array (items : List Value)
  | object (members : List (List Char × Value))

/-- How much of a value is looked at. -/
inductive Scrutiny where
  /-- The value is kept: strings must stand for characters, numbers must fit, and brackets are
  nested to a limited depth. -/
  | full
  /-- The value is passed over: only its form matters. -/
  | form
  deriving DecidableEq

/-- The number of brackets that may be open inside a value that is kept. -/
def depthLimit : Nat := 127

namespace Scrutiny

/-- What is wrong with a rest that is no token. -/
def fault (scrutiny : Scrutiny) (kept passed : Fault) : Fault :=
  match scrutiny with
  | full => kept
  | form => passed

/-- Whether another bracket may be opened inside `depth` open ones. -/
def admitsBracket (scrutiny : Scrutiny) (depth : Nat) : Bool :=
  match scrutiny with
  | full => depth < depthLimit
  | form => true

/-- The characters of a string; a reader that passes over it takes none. -/
def chars (scrutiny : Scrutiny) (found : Option (List Char)) : Except Fault (List Char) :=
  match scrutiny, found with
  | full, some chars => .ok chars
  | full, none => .error .malformed
  | form, _ => .ok []

/-- The value of a number; a reader that passes over it takes it for null. -/
def number (scrutiny : Scrutiny) (found : NumeralForm) : Except Fault Value :=
  match scrutiny with
  | full => if found.numeral = .tooLarge then .error .malformed else .ok (.number found)
  | form => .ok .null

end Scrutiny

/-- An open bracket that waits for a value, with what has been read inside it, the last first. -/
inductive Frame where
  /-- An array that waits for its next item. -/
  | array (items : List Value)
  /-- An object that waits for the value of a member. -/
  | member (members : List (List Char × Value)) (key : List Char)

/-- The state of a reading: what comes next, what has been read inside the innermost open bracket,
and the brackets outside it, the innermost first. -/
inductive Reading where
  /-- A value comes next. -/
  | value (outer : List Frame)
  /-- The first item of an array comes next, or its end. -/
  | itemOrClose (outer : List Frame)
  /-- A comma comes next, or the end of an array. -/
  | afterItem (items : List Value) (outer : List Frame)
  /-- The key of the first member of an object comes next, or its end. -/
  | keyOrClose (outer : List Frame)
  /-- The key of a further member comes next. -/
  | key (members : List (List Char × Value)) (outer : List Frame)
  /-- The colon after a key comes next. -/
  | colon (members : List (List Char × Value)) (key : List Char) (outer : List Frame)
  /-- A comma comes next, or the end of an object. -/
  | afterMember (members : List (List Char × Value)) (outer : List Frame)

/-- A reading before its first token. -/
def Reading.start : Reading := .value []

/-- What one token makes of a reading. -/
inductive Progress where
  /-- The value goes on. -/
  | more (reading : Reading)
  /-- The value is complete. -/
  | done (value : Value)

/-- A value is complete: it goes into the innermost open bracket, or is the result. -/
def complete (value : Value) : List Frame → Progress
  | [] => .done value
  | .array items :: outer => .more (.afterItem (value :: items) outer)
  | .member members key :: outer => .more (.afterMember ((key, value) :: members) outer)

/-- The first token of a value inside some open brackets. -/
def startValue (scrutiny : Scrutiny) (outer : List Frame) : Token → Except Fault Progress
  | .openArray =>
    if scrutiny.admitsBracket outer.length then .ok (.more (.itemOrClose outer))
    else .error .malformed
  | .openObject =>
    if scrutiny.admitsBracket outer.length then .ok (.more (.keyOrClose outer))
    else .error .malformed
  | .null => .ok (complete .null outer)
  | .bool value => .ok (complete (.bool value) outer)
  | .number form => (scrutiny.number form).map (complete · outer)
  | .text found => (scrutiny.chars found).map fun chars => complete (.text chars) outer
  | .unreadable _ kept passed => .error (scrutiny.fault kept passed)
  | .closeArray => .error .malformed
  | .closeObject => .error .malformed
  | .comma => .error .malformed
  | .colon => .error .malformed

/-- The key of a member that follows some members. -/
def startMember (scrutiny : Scrutiny) (members : List (List Char × Value)) (outer : List Frame) :
    Token → Except Fault Progress
  | .text found => (scrutiny.chars found).map fun key => .more (.colon members key outer)
  | .unreadable true kept passed => .error (scrutiny.fault kept passed)
  | _ => .error .malformed

/-- Take one token. -/
def step (scrutiny : Scrutiny) : Reading → Token → Except Fault Progress
  | .value outer, token => startValue scrutiny outer token
  | .itemOrClose outer, .closeArray => .ok (complete (.array []) outer)
  | .itemOrClose outer, token => startValue scrutiny (.array [] :: outer) token
  | .afterItem items outer, .comma => .ok (.more (.value (.array items :: outer)))
  | .afterItem items outer, .closeArray => .ok (complete (.array items.reverse) outer)
  | .afterItem _ _, _ => .error .malformed
  | .keyOrClose outer, .closeObject => .ok (complete (.object []) outer)
  | .keyOrClose outer, token => startMember scrutiny [] outer token
  | .key members outer, token => startMember scrutiny members outer token
  | .colon members key outer, .colon => .ok (.more (.value (.member members key :: outer)))
  | .colon _ _ _, _ => .error .malformed
  | .afterMember members outer, .comma => .ok (.more (.key members outer))
  | .afterMember members outer, .closeObject => .ok (complete (.object members.reverse) outer)
  | .afterMember _ _, _ => .error .malformed

/-- Read on to the end of the value; the tokens after it are left. -/
def readValue (scrutiny : Scrutiny) : Reading → List Token → Except Fault (Value × List Token)
  | _, [] => .error .truncated
  | reading, token :: rest =>
    match step scrutiny reading token with
    | .error fault => .error fault
    | .ok (.done value) => .ok (value, rest)
    | .ok (.more next) => readValue scrutiny next rest

/-- The value that a whole text stands for. -/
def Value.ofTokens (tokens : List Token) : Except Fault Value :=
  match readValue .full .start tokens with
  | .error fault => .error fault
  | .ok (value, []) => .ok value
  | .ok (_, _ :: _) => .error .malformed

/-- The value that a text stands for. -/
def Value.ofText (text : String) : Except Fault Value := Value.ofTokens (tokens text.toList)

end KeyWrapping.Json
