import KeyWrapping.Cipher.Block

/-!
# The block cipher

A block is enciphered as four columns of four bytes: a sum with the first round key, then
rounds that substitute every byte, shift the rows against each other, mix each column and add a
round key; the last round does not mix. Keys of sixteen bytes give ten rounds, keys of
thirty-two give fourteen. Round keys are made one from another, a whole key at a time.
-/

namespace KeyWrapping.Aes

set_option maxRecDepth 2000 in
/-- The byte substitution, in order of the byte replaced: the multiplicative inverse, then a
fixed affine map of its bits. -/
def substitutionTable : Vector UInt8 256 :=
  #v[0x63, 0x7c, 0x77, 0x7b, 0xf2, 0x6b, 0x6f, 0xc5, 0x30, 0x01, 0x67, 0x2b,
    0xfe, 0xd7, 0xab, 0x76, 0xca, 0x82, 0xc9, 0x7d, 0xfa, 0x59, 0x47, 0xf0,
    0xad, 0xd4, 0xa2, 0xaf, 0x9c, 0xa4, 0x72, 0xc0, 0xb7, 0xfd, 0x93, 0x26,
    0x36, 0x3f, 0xf7, 0xcc, 0x34, 0xa5, 0xe5, 0xf1, 0x71, 0xd8, 0x31, 0x15,
    0x04, 0xc7, 0x23, 0xc3, 0x18, 0x96, 0x05, 0x9a, 0x07, 0x12, 0x80, 0xe2,
    0xeb, 0x27, 0xb2, 0x75, 0x09, 0x83, 0x2c, 0x1a, 0x1b, 0x6e, 0x5a, 0xa0,
    0x52, 0x3b, 0xd6, 0xb3, 0x29, 0xe3, 0x2f, 0x84, 0x53, 0xd1, 0x00, 0xed,
    0x20, 0xfc, 0xb1, 0x5b, 0x6a, 0xcb, 0xbe, 0x39, 0x4a, 0x4c, 0x58, 0xcf,
    0xd0, 0xef, 0xaa, 0xfb, 0x43, 0x4d, 0x33, 0x85, 0x45, 0xf9, 0x02, 0x7f,
    0x50, 0x3c, 0x9f, 0xa8, 0x51, 0xa3, 0x40, 0x8f, 0x92, 0x9d, 0x38, 0xf5,
    0xbc, 0xb6, 0xda, 0x21, 0x10, 0xff, 0xf3, 0xd2, 0xcd, 0x0c, 0x13, 0xec,
    0x5f, 0x97, 0x44, 0x17, 0xc4, 0xa7, 0x7e, 0x3d, 0x64, 0x5d, 0x19, 0x73,
    0x60, 0x81, 0x4f, 0xdc, 0x22, 0x2a, 0x90, 0x88, 0x46, 0xee, 0xb8, 0x14,
    0xde, 0x5e, 0x0b, 0xdb, 0xe0, 0x32, 0x3a, 0x0a, 0x49, 0x06, 0x24, 0x5c,
    0xc2, 0xd3, 0xac, 0x62, 0x91, 0x95, 0xe4, 0x79, 0xe7, 0xc8, 0x37, 0x6d,
    0x8d, 0xd5, 0x4e, 0xa9, 0x6c, 0x56, 0xf4, 0xea, 0x65, 0x7a, 0xae, 0x08,
    0xba, 0x78, 0x25, 0x2e, 0x1c, 0xa6, 0xb4, 0xc6, 0xe8, 0xdd, 0x74, 0x1f,
    0x4b, 0xbd, 0x8b, 0x8a, 0x70, 0x3e, 0xb5, 0x66, 0x48, 0x03, 0xf6, 0x0e,
    0x61, 0x35, 0x57, 0xb9, 0x86, 0xc1, 0x1d, 0x9e, 0xe1, 0xf8, 0x98, 0x11,
    0x69, 0xd9, 0x8e, 0x94, 0x9b, 0x1e, 0x87, 0xe9, 0xce, 0x55, 0x28, 0xdf,
    0x8c, 0xa1, 0x89, 0x0d, 0xbf, 0xe6, 0x42, 0x68, 0x41, 0x99, 0x2d, 0x0f,
    0xb0, 0x54, 0xbb, 0x16]

/-- The byte that replaces a byte. -/
def substitute (byte : UInt8) : UInt8 := substitutionTable.get byte.toFin

/-- The product of a byte with the field element of degree one. -/
def double (byte : UInt8) : UInt8 :=
  (byte <<< 1) ^^^ (if byte &&& 0x80 = 0 then 0 else 0x1b)

/-- A column of the state, top byte first. -/
@[ext] structure Column where
  (b0 b1 b2 b3 : UInt8)
  deriving DecidableEq

namespace Column

/-- The bytewise sum of two columns. -/
def xor (left right : Column) : Column :=
  ⟨left.b0 ^^^ right.b0, left.b1 ^^^ right.b1, left.b2 ^^^ right.b2, left.b3 ^^^ right.b3⟩

/-- Every byte replaced. -/
def substitute (column : Column) : Column :=
  ⟨Aes.substitute column.b0, Aes.substitute column.b1, Aes.substitute column.b2,
    Aes.substitute column.b3⟩

/-- The top byte moved to the bottom. -/
def rotate (column : Column) : Column := ⟨column.b1, column.b2, column.b3, column.b0⟩

/-- The product with the mixing polynomial: every byte is added to the sum of all four and to
the double of its sum with the byte below. -/
def mix (column : Column) : Column :=
  let all := column.b0 ^^^ column.b1 ^^^ column.b2 ^^^ column.b3
  ⟨column.b0 ^^^ all ^^^ double (column.b0 ^^^ column.b1),
    column.b1 ^^^ all ^^^ double (column.b1 ^^^ column.b2),
    column.b2 ^^^ all ^^^ double (column.b2 ^^^ column.b3),
    column.b3 ^^^ all ^^^ double (column.b3 ^^^ column.b0)⟩

end Column

/-- The state of the cipher: four columns. Round keys have the same shape. -/
@[ext] structure State where
  (c0 c1 c2 c3 : Column)
  deriving DecidableEq

namespace State

/-- The columns of a block, byte after byte. -/
def ofBlock (block : Block) : State :=
  let byte (double : UInt64) (shift : UInt64) : UInt8 := (double >>> shift).toUInt8
  ⟨⟨byte block.high 56, byte block.high 48, byte block.high 40, byte block.high 32⟩,
    ⟨byte block.high 24, byte block.high 16, byte block.high 8, byte block.high 0⟩,
    ⟨byte block.low 56, byte block.low 48, byte block.low 40, byte block.low 32⟩,
    ⟨byte block.low 24, byte block.low 16, byte block.low 8, byte block.low 0⟩⟩

/-- The block of four columns. -/
def toBlock (s : State) : Block :=
  ⟨doubleOfBytes s.c0.b0 s.c0.b1 s.c0.b2 s.c0.b3 s.c1.b0 s.c1.b1 s.c1.b2 s.c1.b3,
    doubleOfBytes s.c2.b0 s.c2.b1 s.c2.b2 s.c2.b3 s.c3.b0 s.c3.b1 s.c3.b2 s.c3.b3⟩

/-- The bytewise sum of two states. -/
def xor (s t : State) : State := ⟨s.c0.xor t.c0, s.c1.xor t.c1, s.c2.xor t.c2, s.c3.xor t.c3⟩

/-- Every byte replaced. -/
def substitute (s : State) : State :=
  ⟨s.c0.substitute, s.c1.substitute, s.c2.substitute, s.c3.substitute⟩

/-- Row `r` moved `r` columns to the left, in a circle. -/
def shiftRows (s : State) : State :=
  ⟨⟨s.c0.b0, s.c1.b1, s.c2.b2, s.c3.b3⟩, ⟨s.c1.b0, s.c2.b1, s.c3.b2, s.c0.b3⟩,
    ⟨s.c2.b0, s.c3.b1, s.c0.b2, s.c1.b3⟩, ⟨s.c3.b0, s.c0.b1, s.c1.b2, s.c2.b3⟩⟩

/-- Every column mixed. -/
def mixColumns (s : State) : State := ⟨s.c0.mix, s.c1.mix, s.c2.mix, s.c3.mix⟩

/-- A round that mixes. -/
def round (s key : State) : State := s.substitute.shiftRows.mixColumns.xor key

/-- The last round. -/
def lastRound (s key : State) : State := s.substitute.shiftRows.xor key

/-- One round per key; the last does not mix. -/
def rounds : (keys : List State) → State → State
  | [], s => s
  | [key], s => s.lastRound key
  | key :: next :: others, s => rounds (next :: others) (s.round key)

end State

/-- The next round key: each column is the sum of that column of an earlier key and the new
column to its left, the first one with `carried` instead. -/
def nextKey (key : State) (carried : Column) : State :=
  let c0 := key.c0.xor carried
  let c1 := key.c1.xor c0
  let c2 := key.c2.xor c1
  ⟨c0, c1, c2, key.c3.xor c2⟩

/-- What the last column of a key carries into the first column of a later one at the start of
a cycle: rotated, replaced, and marked with the constant of the cycle. -/
def cycleCarry (constant : UInt8) (column : Column) : Column :=
  column.rotate.substitute.xor ⟨constant, 0, 0, 0⟩

/-- The round keys of a short key, one per cycle. -/
def expandShort : (constants : List UInt8) → (key : State) → List State
  | [], key => [key]
  | constant :: others, key =>
    key :: expandShort others (nextKey key (cycleCarry constant key.c3))

/-- The round keys of a long key, two per cycle; the second is carried into without rotation. -/
def expandLong : (constants : List UInt8) → (first second : State) → List State
  | [], first, _ => [first]
  | constant :: others, first, second =>
    let third := nextKey first (cycleCarry constant second.c3)
    first :: second :: expandLong others third (nextKey second third.c3.substitute)

/-- The constants of the cycles: the powers of the field element of degree one. -/
def cycleConstants : List UInt8 := [0x01, 0x02, 0x04, 0x08, 0x10, 0x20, 0x40, 0x80, 0x1b, 0x36]

/-- A key of one of the two lengths in use. -/
inductive Key where
  /-- Sixteen bytes. -/
  | short (octets : Octets 16)
  /-- Thirty-two bytes. -/
  | long (octets : Octets 32)
  deriving DecidableEq

namespace Key

/-- A byte string is a key exactly when it has sixteen or thirty-two bytes. -/
def ofBytes? (bytes : Bytes) : Option Key :=
  if counted : bytes.length = 16 then some (short ⟨bytes, counted⟩)
  else if counted : bytes.length = 32 then some (long ⟨bytes, counted⟩)
  else none

/-- The bytes of a key. -/
def bytes : Key → Bytes
  | short octets => octets.bytes
  | long octets => octets.bytes

/-- The count of bytes of a key. -/
def size : Key → Nat
  | short _ => 16
  | long _ => 32

/-- The keys of all rounds, the one added before the first round in front. -/
def roundKeys : Key → List State
  | short octets => expandShort cycleConstants (State.ofBlock (Block.ofBytes octets.bytes))
  | long octets =>
    expandLong (cycleConstants.take 7) (State.ofBlock (Block.ofBytes octets.bytes))
      (State.ofBlock (Block.ofBytes (octets.bytes.drop 16)))

/-- A key is as long as its kind promises. -/
@[simp] theorem length_bytes (key : Key) : key.bytes.length = key.size := by
  cases key with
  | short octets => exact octets.length_eq
  | long octets => exact octets.length_eq

end Key

/-- Encipher a block under round keys. -/
def encipherWith (keys : List State) (block : Block) : Block :=
  match keys with
  | [] => block
  | key :: others => (State.rounds others ((State.ofBlock block).xor key)).toBlock

/-- Encipher a block under a key. -/
def encipher (key : Key) : Block → Block :=
  encipherWith key.roundKeys

end KeyWrapping.Aes
