import KeyWrapping.Text.Base64

/-!
# Reading in groups of eight

A text can be read eight symbols at a time. Every group but the last is eight symbols; the last one
may be shorter and is the only one that can end in padding. Places are counted from the start of a
group, so a refusal adds that start to name an offset in the whole text. `Base64.decodeBytes` reads
all symbols in one go instead; both come to the same bytes and to the same refusals
(`decodeBytes_eq_grouped`).
-/

namespace KeyWrapping.Base64

/-- The low bits that complete no byte in the value of the last of so many symbols: what is over when
six bits for each symbol are taken in bytes. -/
def unusedBits (symbols : Nat) : UInt8 := (1 <<< UInt8.ofNat (6 * symbols % 8)) - 1

namespace Grouped

/-- The values of a group that starts at `start`: each of its bytes must be a symbol. -/
def readGroup (start : Nat) : Bytes → Except Error (List UInt8)
  | [] => .ok []
  | byte :: rest =>
    match value? byte with
    | none => .error (.foreignByte byte start)
    | some value => do return value :: (← readGroup (start + 1) rest)

/-- The values of the next `count` groups of eight, the first of which starts at `start`. -/
def readGroups (start : Nat) : Nat → Bytes → Except Error (List UInt8)
  | 0, _ => .ok []
  | count + 1, text => do
    let group ← readGroup start (text.take 8)
    let others ← readGroups (start + 8) count (text.drop 8)
    return group ++ others

/-- What has been read of the last group. -/
structure Ending where
  /-- The values of its symbols. -/
  values : List UInt8
  /-- The symbol that was read last. -/
  lastSymbol : UInt8
  /-- The place of its first padding, if there is any yet. -/
  firstPad : Option Nat

/-- Read the byte at a place of the last group, which starts at `start`. Padding can only stand at
the last two of four places, and nothing but padding after it; if not, the first padding is what
cannot stand there. -/
def Ending.read (start place : Nat) (ending : Ending) (byte : UInt8) : Except Error Ending :=
  let first := ending.firstPad.getD place
  if byte = pad then
    if place % 4 < 2 then .error (.foreignByte pad (start + first))
    else .ok { ending with firstPad := some first }
  else if ending.firstPad.isSome then .error (.foreignByte pad (start + first))
  else
    match value? byte with
    | none => .error (.foreignByte byte (start + place))
    | some value => .ok { ending with values := ending.values ++ [value], lastSymbol := byte }

/-- Read the bytes from a place of the last group on. -/
def readEnding (start place : Nat) (ending : Ending) : Bytes → Except Error Ending
  | [] => .ok ending
  | byte :: rest => do readEnding start (place + 1) (← ending.read start place byte) rest

/-- The bits of the last symbol that complete no byte must be zero. -/
def Ending.check (start : Nat) (ending : Ending) : Except Error Unit :=
  let count := ending.values.length
  match ending.values.getLast? with
  | none => .ok ()
  | some value =>
    if value &&& unusedBits count = 0 then .ok ()
    else .error (.excessBits ending.lastSymbol (start + count - 1))

/-- Read a written form in groups: its length is looked at first, then all groups but the last, which
holds one byte at least. -/
def decodeBytes (text : Bytes) : Except Error Bytes := do
  checkLength text
  let count := (text.length - 1) / 8
  let front ← readGroups 0 count text
  let ending ← readEnding (8 * count) 0 ⟨[], 0, none⟩ (text.drop (8 * count))
  ending.check (8 * count)
  return bytes front ++ bytes ending.values

end Grouped

end KeyWrapping.Base64
