import KeyWrapping.Standard.Numbers

/-!
# The digest as published

The 256-bit digest by its text-book definition: the whole message is padded, each block of
sixteen words is extended to sixty-four one word at a time, and sixty-four rounds use one word
each. Nothing here is shared with the digest that runs.
-/

namespace KeyWrapping.Standard.Sha256

/-- A word of thirty-two bits. -/
abbrev Word := BitVec 32

/-- The state before the first block. -/
def initial : List Word :=
  [0x6a09e667, 0xbb67ae85, 0x3c6ef372, 0xa54ff53a, 0x510e527f, 0x9b05688c, 0x1f83d9ab, 0x5be0cd19]

/-- The round constants. -/
def constants : List Word :=
  [0x428a2f98, 0x71374491, 0xb5c0fbcf, 0xe9b5dba5, 0x3956c25b, 0x59f111f1, 0x923f82a4, 0xab1c5ed5,
    0xd807aa98, 0x12835b01, 0x243185be, 0x550c7dc3, 0x72be5d74, 0x80deb1fe, 0x9bdc06a7, 0xc19bf174,
    0xe49b69c1, 0xefbe4786, 0x0fc19dc6, 0x240ca1cc, 0x2de92c6f, 0x4a7484aa, 0x5cb0a9dc, 0x76f988da,
    0x983e5152, 0xa831c66d, 0xb00327c8, 0xbf597fc7, 0xc6e00bf3, 0xd5a79147, 0x06ca6351, 0x14292967,
    0x27b70a85, 0x2e1b2138, 0x4d2c6dfc, 0x53380d13, 0x650a7354, 0x766a0abb, 0x81c2c92e, 0x92722c85,
    0xa2bfe8a1, 0xa81a664b, 0xc24b8b70, 0xc76c51a3, 0xd192e819, 0xd6990624, 0xf40e3585, 0x106aa070,
    0x19a4c116, 0x1e376c08, 0x2748774c, 0x34b0bcb5, 0x391c0cb3, 0x4ed8aa4a, 0x5b9cca4f, 0x682e6ff3,
    0x748f82ee, 0x78a5636f, 0x84c87814, 0x8cc70208, 0x90befffa, 0xa4506ceb, 0xbef9a3f7, 0xc67178f2]

/-- The choice between two words by a third. -/
def choose (x y z : Word) : Word := (x &&& y) ^^^ (~~~x &&& z)

/-- The majority of three words. -/
def majority (x y z : Word) : Word := (x &&& y) ^^^ (x &&& z) ^^^ (y &&& z)

/-- The sum of three rotations used on the first variable. -/
def bigSigma0 (x : Word) : Word := x.rotateRight 2 ^^^ x.rotateRight 13 ^^^ x.rotateRight 22

/-- The sum of three rotations used on the fifth variable. -/
def bigSigma1 (x : Word) : Word := x.rotateRight 6 ^^^ x.rotateRight 11 ^^^ x.rotateRight 25

/-- The sum of two rotations and a shift used fifteen words back. -/
def smallSigma0 (x : Word) : Word := x.rotateRight 7 ^^^ x.rotateRight 18 ^^^ x >>> 3

/-- The sum of two rotations and a shift used two words back. -/
def smallSigma1 (x : Word) : Word := x.rotateRight 17 ^^^ x.rotateRight 19 ^^^ x >>> 10

/-- The words of a block with `count` further words of its schedule. -/
def schedule (block : List Word) : (count : Nat) → List Word
  | 0 => block
  | count + 1 =>
    let words := schedule block count
    let back (distance : Nat) : Word := words.getD (count + 16 - distance) 0
    words ++ [smallSigma1 (back 2) + back 7 + smallSigma0 (back 15) + back 16]

/-- The eight working variables. -/
structure Variables where
  (a b c d e f g h : Word)

/-- One round. -/
def round (v : Variables) (constant word : Word) : Variables :=
  let t1 := v.h + bigSigma1 v.e + choose v.e v.f v.g + constant + word
  let t2 := bigSigma0 v.a + majority v.a v.b v.c
  ⟨t1 + t2, v.a, v.b, v.c, v.d + t1, v.e, v.f, v.g⟩

/-- The working variables of a state. -/
def Variables.ofState (state : List Word) : Variables :=
  let word (index : Nat) : Word := state.getD index 0
  ⟨word 0, word 1, word 2, word 3, word 4, word 5, word 6, word 7⟩

/-- The working variables in order. -/
def Variables.words (v : Variables) : List Word := [v.a, v.b, v.c, v.d, v.e, v.f, v.g, v.h]

/-- The state after a block. -/
def compress (state block : List Word) : List Word :=
  let rounds := constants.zip (schedule block 48)
  let last := rounds.foldl (fun v (constant, word) => round v constant word) (.ofState state)
  List.zipWith (· + ·) state last.words

/-- The fewest zeros that, with a set bit before and a double word behind, complete a block. -/
def zeros (count : Nat) : Nat :=
  ((List.range 64).find? fun zeros => (count + 1 + zeros + 8) % 64 = 0).getD 0

/-- The padded message. -/
def padded (message : Bytes) : Bytes :=
  message ++ 0x80 :: List.replicate (zeros message.length) 0 ++ bigEndian 8 (8 * message.length)

/-- Word `index` of a byte string. -/
def word (bytes : Bytes) (index : Nat) : Word :=
  BitVec.ofNat 32 (value ((bytes.drop (4 * index)).take 4))

/-- Block `index` of a byte string. -/
def block (bytes : Bytes) (index : Nat) : List Word :=
  (List.range 16).map fun offset => word bytes (16 * index + offset)

/-- The digest of a message. -/
def digest (message : Bytes) : Bytes :=
  let text := padded message
  let blocks := (List.range (text.length / 64)).map (block text)
  (blocks.foldl compress initial).flatMap fun word => bigEndian 4 word.toNat

end KeyWrapping.Standard.Sha256
