import KeyWrapping.Bytes

/-!
# Base-64 text

Three bytes are written as four symbols of six bits; one or two last bytes as two or three
symbols, filled up to four with `=`. Reading accepts exactly the written forms, with or without
some of the `=` at the end: bits that the last symbol has in excess must be zero. A refusal
names the first byte that made the text unreadable and its offset.
-/

namespace KeyWrapping.Base64

/-- Why a text is refused. -/
inductive Error where
  /-- A byte that cannot stand where it stands. -/
  | foreignByte (byte : UInt8) (offset : Nat)
  /-- One symbol is left over, too little for a byte. -/
  | looseSymbol
  /-- The last symbol has bits that belong to no byte and are not zero. -/
  | excessBits (byte : UInt8) (offset : Nat)
  deriving DecidableEq

/-- The text of a refusal. -/
def Error.message : Error → String
  | foreignByte byte offset =>
    "Invalid byte " ++ toString byte.toNat ++ ", offset " ++ toString offset ++ "."
  | looseSymbol => "Encoded text cannot have a 6-bit remainder."
  | excessBits byte offset =>
    "Invalid last symbol " ++ toString byte.toNat ++ ", offset " ++ toString offset ++ "."

/-- The byte that fills a group of symbols. -/
def pad : UInt8 := 61

/-- The symbol of a value below sixty-four: capital letters, small letters, digits, `+`, `/`. -/
def symbol (value : UInt8) : UInt8 :=
  if value < 26 then value + 65
  else if value < 52 then value + 71
  else if value < 62 then value - 4
  else if value = 62 then 43
  else 47

/-- The value of a symbol. -/
def value? (byte : UInt8) : Option UInt8 :=
  if 65 ≤ byte ∧ byte ≤ 90 then some (byte - 65)
  else if 97 ≤ byte ∧ byte ≤ 122 then some (byte - 71)
  else if 48 ≤ byte ∧ byte ≤ 57 then some (byte + 4)
  else if byte = 43 then some 62
  else if byte = 47 then some 63
  else none

/-- The six-bit values of a byte string; missing low bits of the last one are zero. -/
def values : Bytes → List UInt8
  | [] => []
  | [x] => [x >>> 2, (x &&& 3) <<< 4]
  | [x, y] => [x >>> 2, ((x &&& 3) <<< 4) ||| (y >>> 4), (y &&& 15) <<< 2]
  | x :: y :: z :: rest =>
    (x >>> 2) :: (((x &&& 3) <<< 4) ||| (y >>> 4)) :: (((y &&& 15) <<< 2) ||| (z >>> 6)) ::
      (z &&& 63) :: values rest

/-- The bytes of a list of six-bit values; bits that complete no byte are dropped. -/
def bytes : List UInt8 → Bytes
  | a :: b :: c :: d :: rest =>
    ((a <<< 2) ||| (b >>> 4)) :: ((b <<< 4) ||| (c >>> 2)) :: ((c <<< 6) ||| d) :: bytes rest
  | [a, b, c] => [(a <<< 2) ||| (b >>> 4), (b <<< 4) ||| (c >>> 2)]
  | [a, b] => [(a <<< 2) ||| (b >>> 4)]
  | _ => []

/-- The bits that complete no byte. -/
def excess : List UInt8 → UInt8
  | _ :: _ :: _ :: _ :: rest => excess rest
  | [_, _, c] => c &&& 3
  | [_, b] => b &&& 15
  | _ => 0

/-- The padding after `count` symbols: none after whole groups, else up to a whole group. -/
def padding (count : Nat) : Bytes := List.replicate ((4 - count % 4) % 4) pad

/-- The written form of a byte string, in bytes. -/
def encodeBytes (data : Bytes) : Bytes :=
  (values data).map symbol ++ padding (values data).length

/-- The written form of a byte string. -/
def encode (data : Bytes) : List Char := (encodeBytes data).map Char.ofUInt8

/-- The values of the symbols in front, and what stands after them. -/
def scan : Bytes → List UInt8 × Bytes
  | [] => ([], [])
  | byte :: rest =>
    match value? byte with
    | none => ([], byte :: rest)
    | some value =>
      let (values, after) := scan rest
      (value :: values, after)

/-- After `count` symbols only padding may follow, and no more of it than completes a group that
holds at least two symbols; otherwise the first byte after the symbols is refused. -/
def checkPadding (count : Nat) : Bytes → Except Error Unit
  | [] => .ok ()
  | byte :: rest =>
    if (byte :: rest).all (· == pad) ∧ 2 ≤ count % 4 ∧ rest.length + 1 ≤ 4 - count % 4 then .ok ()
    else .error (.foreignByte byte count)

/-- A text that is one byte longer than whole groups is refused for its length, unless its last
byte is neither a symbol nor padding. -/
def checkLength (text : Bytes) : Except Error Unit :=
  if text.length % 4 = 1 then
    match text.getLast? with
    | some byte =>
      if byte = pad ∨ (value? byte).isSome then .error .looseSymbol
      else .error (.foreignByte byte (text.length - 1))
    | none => .ok ()
  else .ok ()

/-- The bits in excess after the last symbol must be zero. -/
def checkExcess (text : Bytes) (values : List UInt8) : Except Error Unit :=
  if excess values = 0 then .ok ()
  else .error (.excessBits (text.getD (values.length - 1) 0) (values.length - 1))

/-- Read a written form given in bytes. -/
def decodeBytes (text : Bytes) : Except Error Bytes := do
  checkLength text
  let (values, after) := scan text
  checkPadding values.length after
  checkExcess text values
  return bytes values

/-- Read a written form; offsets count the bytes of its encoding. -/
def decode (text : List Char) : Except Error Bytes :=
  decodeBytes (text.flatMap String.utf8EncodeChar)

end KeyWrapping.Base64
