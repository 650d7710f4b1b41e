import KeyWrapping.Json.Written
import KeyWrapping.Params

/-!
# Stored parameters

Parameters are stored as a JSON object with one member per field. They can be read in two ways:
straight from the tokens of a text, passing over members that are not fields (`ofStream`), or
from a value that has been read before (`ofValue`). Both also take an array of the two fields in
order. A stream is read from left to right and the first fault counts; a value is complete, so
that everything wrong with it is a mismatch.
-/

namespace KeyWrapping.Params

open KeyWrapping.Json

/-- A field of stored parameters. -/
inductive Field where
  | iterations | keyLength
  deriving DecidableEq

/-- The stored name of a field. -/
def Field.key : Field → List Char
  | iterations => "iterations".toList
  | keyLength => "key_length".toList

/-- Parameters as a value. -/
def toValue (params : Params) : Value :=
  .object
    [(Field.iterations.key, .number (.ofNat params.iterations.toNat)),
      (Field.keyLength.key, .number (.ofNat params.keyLength.toNat))]

/-- The stored text of parameters. -/
def toJson (params : Params) : String := String.ofList params.toValue.written

/-- The field with a stored name. -/
def Field.ofKey? (key : List Char) : Option Field :=
  if key = iterations.key then some .iterations
  else if key = keyLength.key then some .keyLength
  else none

/-- The fields found so far. -/
structure Found where
  /-- The iterations, if found. -/
  iterations : Option UInt32
  /-- The key length, if found. -/
  keyLength : Option UInt64
  deriving DecidableEq

namespace Found

/-- Nothing found. -/
def none : Found := ⟨.none, .none⟩

/-- Whether a field is found. -/
def has (found : Found) : Field → Bool
  | .iterations => found.iterations.isSome
  | .keyLength => found.keyLength.isSome

/-- Add a field; the iterations have thirty-two bits and the key length sixty-four. -/
def add (found : Found) (field : Field) (value : UInt64) : Except Fault Found :=
  match field with
  | .iterations =>
    if value.toNat < UInt32.size then .ok { found with iterations := some value.toUInt32 }
    else .error .mismatch
  | .keyLength => .ok { found with keyLength := some value }

/-- The parameters, when both fields are found. -/
def params (found : Found) : Except Fault Params :=
  match found.iterations, found.keyLength with
  | some iterations, some keyLength => .ok ⟨iterations, keyLength⟩
  | _, _ => .error .mismatch

end Found

/-! ## From a value -/

/-- Add a field from a numeral, which must be a natural number. -/
def addNumber (found : Found) (field : Field) (form : NumeralForm) : Except Fault Found :=
  match form.numeral with
  | .natural value => found.add field value
  | .other => .error .mismatch
  | .tooLarge => .error .malformed

/-- Add a field from a value. -/
def addValue (found : Found) (field : Field) : Value → Except Fault Found
  | .number form => (addNumber found field form).mapError fun _ => .mismatch
  | _ => .error .mismatch

/-- The last member with a key. -/
def lastMember? (key : List Char) (members : List (List Char × Value)) : Option Value :=
  (members.reverse.find? (·.1 = key)).map (·.2)

/-- Add a field from the members of an object. -/
def addMember (members : List (List Char × Value)) (found : Found) (field : Field) :
    Except Fault Found :=
  match lastMember? field.key members with
  | some value => addValue found field value
  | none => .error .mismatch

/-- The parameters that a value stands for. -/
def ofValue : Value → Except Fault Params
  | .object members => do
    let found ← addMember members .none .iterations
    let found ← addMember members found .keyLength
    found.params
  | .array [first, second] => do
    let found ← addValue .none .iterations first
    let found ← addValue found .keyLength second
    found.params
  | _ => .error .mismatch

/-! ## From a stream of tokens -/

/-- What is wrong with a token that starts no number: a string, a word or a bracket is a
mismatch, and anything else, or a string that stands for no characters, starts no value. -/
def refusal : Token → Fault
  | .openArray => .mismatch
  | .openObject => .mismatch
  | .null => .mismatch
  | .bool _ => .mismatch
  | .number form => if form.numeral = .tooLarge then .malformed else .mismatch
  | .text (some _) => .mismatch
  | .text none => .malformed
  | .unreadable _ kept _ => kept
  | .closeArray => .malformed
  | .closeObject => .malformed
  | .comma => .malformed
  | .colon => .malformed

/-- Add a field from a token. -/
def addToken (found : Found) (field : Field) : Token → Except Fault Found
  | .number form => addNumber found field form
  | token => .error (refusal token)

/-- The state of the reading of a stream: what comes next, and the fields found so far. -/
inductive State where
  /-- Nothing has been read. -/
  | start
  /-- The first key of an object comes next, or its end. -/
  | keyOrClose
  /-- A further key comes next. -/
  | key (found : Found)
  /-- The colon after the key of a field comes next. -/
  | colon (found : Found) (field : Field)
  /-- The value of a field comes next. -/
  | value (found : Found) (field : Field)
  /-- The colon after another key comes next. -/
  | otherColon (found : Found)
  /-- The value of another member is being passed over. -/
  | otherValue (found : Found) (reading : Reading)
  /-- A comma comes next, or the end of the object. -/
  | commaOrClose (found : Found)
  /-- The first item of an array comes next. -/
  | firstItem
  /-- The comma after the first item comes next. -/
  | comma (found : Found)
  /-- The second item comes next. -/
  | secondItem (found : Found)
  /-- The end of the array comes next. -/
  | close (found : Found)

/-- What one token makes of a reading. -/
inductive Progress where
  /-- The stream goes on. -/
  | more (state : State)
  /-- The parameters are complete. -/
  | done (params : Params)

/-- A key is read: a field must not have been found before. -/
def takeKey (found : Found) : Token → Except Fault Progress
  | .text (some key) =>
    match Field.ofKey? key with
    | some field =>
      if found.has field then .error .mismatch else .ok (.more (.colon found field))
    | none => .ok (.more (.otherColon found))
  | .unreadable true kept _ => .error kept
  | _ => .error .malformed

/-- The fields are complete. -/
def finish (found : Found) : Except Fault Progress := found.params.map .done

/-- One token of a member that is passed over. -/
def passOver (found : Found) (reading : Reading) (token : Token) : Except Fault Progress :=
  match Json.step .form reading token with
  | .error fault => .error fault
  | .ok (.done _) => .ok (.more (.commaOrClose found))
  | .ok (.more reading) => .ok (.more (.otherValue found reading))

/-- Take one token. -/
def step : State → Token → Except Fault Progress
  | .start, .openObject => .ok (.more .keyOrClose)
  | .start, .openArray => .ok (.more .firstItem)
  | .start, token => .error (refusal token)
  | .keyOrClose, .closeObject => finish .none
  | .keyOrClose, token => takeKey .none token
  | .key found, token => takeKey found token
  | .colon found field, .colon => .ok (.more (.value found field))
  | .colon _ _, _ => .error .malformed
  | .value found field, token => (addToken found field token).map (.more <| .commaOrClose ·)
  | .otherColon found, .colon => .ok (.more (.otherValue found .start))
  | .otherColon _, _ => .error .malformed
  | .otherValue found reading, token => passOver found reading token
  | .commaOrClose found, .comma => .ok (.more (.key found))
  | .commaOrClose found, .closeObject => finish found
  | .commaOrClose _, _ => .error .malformed
  | .firstItem, .closeArray => .error .mismatch
  | .firstItem, token => (addToken .none .iterations token).map (.more <| .comma ·)
  | .comma found, .comma => .ok (.more (.secondItem found))
  | .comma _, .closeArray => .error .mismatch
  | .comma _, _ => .error .malformed
  | .secondItem found, token => (addToken found .keyLength token).map (.more <| .close ·)
  | .close found, .closeArray => finish found
  | .close _, _ => .error .malformed

/-- Read on to the end of the parameters; the tokens after them are left. -/
def readStream : State → List Token → Except Fault (Params × List Token)
  | _, [] => .error .truncated
  | state, token :: rest =>
    match step state token with
    | .error fault => .error fault
    | .ok (.done params) => .ok (params, rest)
    | .ok (.more next) => readStream next rest

/-- The parameters that a list of tokens stands for, read as a stream. -/
def ofTokens (tokens : List Token) : Except Fault Params :=
  match readStream .start tokens with
  | .error fault => .error fault
  | .ok (params, []) => .ok params
  | .ok (_, _ :: _) => .error .malformed

/-- The parameters that a text stands for, read as a stream. -/
def ofStream (text : String) : Except Fault Params := ofTokens (Json.tokens text.toList)

/-- The parameters that a text stands for, read as a value first. -/
def ofTextValue (text : String) : Except Fault Params := do
  let value ← Value.ofText text
  ofValue value

end KeyWrapping.Params
