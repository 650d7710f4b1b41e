import KeyWrapping.Bytes

/-!
# The 256-bit digest

A message is padded to whole blocks of sixteen words, and each block is folded into a
chaining state of eight words. The message schedule is extended sixteen words at a time, so
that one block of schedule feeds sixteen rounds; the four blocks of round constants have the
same shape. A state reached after whole blocks can be kept and continued later
(`State.finish`), which is what keyed digests do.
-/

namespace KeyWrapping.Sha256

/-- Sixteen words: a block of the message, a stretch of its schedule, or of the constants. -/
structure Block where
  (w0 w1 w2 w3 w4 w5 w6 w7 w8 w9 w10 w11 w12 w13 w14 w15 : UInt32)
  deriving DecidableEq

/-- The chaining state. -/
structure State where
  (a b c d e f g h : UInt32)
  deriving DecidableEq

/-- Rotation toward the low end. -/
@[inline] def rotateRight (word count : UInt32) : UInt32 :=
  (word >>> count) ||| (word <<< (32 - count))

/-- The mixing of the first state word. -/
@[inline] def bigSigma0 (x : UInt32) : UInt32 :=
  rotateRight x 2 ^^^ rotateRight x 13 ^^^ rotateRight x 22

/-- The mixing of the fifth state word. -/
@[inline] def bigSigma1 (x : UInt32) : UInt32 :=
  rotateRight x 6 ^^^ rotateRight x 11 ^^^ rotateRight x 25

/-- The mixing of the schedule word fifteen places back. -/
@[inline] def smallSigma0 (x : UInt32) : UInt32 :=
  rotateRight x 7 ^^^ rotateRight x 18 ^^^ (x >>> 3)

/-- The mixing of the schedule word two places back. -/
@[inline] def smallSigma1 (x : UInt32) : UInt32 :=
  rotateRight x 17 ^^^ rotateRight x 19 ^^^ (x >>> 10)

/-- Each bit of the first word chooses between the bits of the other two. -/
@[inline] def choose (x y z : UInt32) : UInt32 := (x &&& y) ^^^ (~~~x &&& z)

/-- Each bit is the one that at least two of the words have. -/
@[inline] def majority (x y z : UInt32) : UInt32 := (x &&& y) ^^^ (x &&& z) ^^^ (y &&& z)

/-- The next word of the schedule, from the words 16, 15, 7 and 2 places back. -/
@[inline] def extend (back16 back15 back7 back2 : UInt32) : UInt32 :=
  smallSigma1 back2 + back7 + smallSigma0 back15 + back16

/-- The sixteen schedule words that follow a stretch of sixteen. -/
def Block.next (b : Block) : Block :=
  let x0 := extend b.w0 b.w1 b.w9 b.w14
  let x1 := extend b.w1 b.w2 b.w10 b.w15
  let x2 := extend b.w2 b.w3 b.w11 x0
  let x3 := extend b.w3 b.w4 b.w12 x1
  let x4 := extend b.w4 b.w5 b.w13 x2
  let x5 := extend b.w5 b.w6 b.w14 x3
  let x6 := extend b.w6 b.w7 b.w15 x4
  let x7 := extend b.w7 b.w8 x0 x5
  let x8 := extend b.w8 b.w9 x1 x6
  let x9 := extend b.w9 b.w10 x2 x7
  let x10 := extend b.w10 b.w11 x3 x8
  let x11 := extend b.w11 b.w12 x4 x9
  let x12 := extend b.w12 b.w13 x5 x10
  let x13 := extend b.w13 b.w14 x6 x11
  let x14 := extend b.w14 b.w15 x7 x12
  let x15 := extend b.w15 x0 x8 x13
  ⟨x0, x1, x2, x3, x4, x5, x6, x7, x8, x9, x10, x11, x12, x13, x14, x15⟩

namespace State

/-- One round with one round constant and one schedule word. -/
@[inline] def round (s : State) (constant word : UInt32) : State :=
  let first := s.h + bigSigma1 s.e + choose s.e s.f s.g + constant + word
  let second := bigSigma0 s.a + majority s.a s.b s.c
  ⟨first + second, s.a, s.b, s.c, s.d + first, s.e, s.f, s.g⟩

/-- Sixteen rounds, with a block of constants beside a stretch of the schedule. -/
def rounds (s : State) (k w : Block) : State :=
  let s := (((s.round k.w0 w.w0).round k.w1 w.w1).round k.w2 w.w2).round k.w3 w.w3
  let s := (((s.round k.w4 w.w4).round k.w5 w.w5).round k.w6 w.w6).round k.w7 w.w7
  let s := (((s.round k.w8 w.w8).round k.w9 w.w9).round k.w10 w.w10).round k.w11 w.w11
  (((s.round k.w12 w.w12).round k.w13 w.w13).round k.w14 w.w14).round k.w15 w.w15

/-- The wordwise sum of two states. -/
@[inline] def add (s t : State) : State :=
  ⟨s.a + t.a, s.b + t.b, s.c + t.c, s.d + t.d, s.e + t.e, s.f + t.f, s.g + t.g, s.h + t.h⟩

/-- The bitwise sum of two states. -/
@[inline] def xor (s t : State) : State :=
  ⟨s.a ^^^ t.a, s.b ^^^ t.b, s.c ^^^ t.c, s.d ^^^ t.d,
    s.e ^^^ t.e, s.f ^^^ t.f, s.g ^^^ t.g, s.h ^^^ t.h⟩

/-- The eight words of a state. -/
def words (s : State) : List UInt32 := [s.a, s.b, s.c, s.d, s.e, s.f, s.g, s.h]

/-- The thirty-two bytes of a state. -/
def toBytes (s : State) : Bytes := s.words.flatMap bytesOfWord

/-- A state has thirty-two bytes. -/
@[simp] theorem length_toBytes (s : State) : s.toBytes.length = 32 := rfl

/-- Before any block: the leading fractional bits of the square roots of the first eight
primes. -/
def initial : State :=
  ⟨0x6a09e667, 0xbb67ae85, 0x3c6ef372, 0xa54ff53a, 0x510e527f, 0x9b05688c, 0x1f83d9ab, 0x5be0cd19⟩

end State

/-- Constants of the first sixteen rounds: with the three blocks below, the leading fractional
bits of the cube roots of the first sixty-four primes. -/
def constants0 : Block :=
  ⟨0x428a2f98, 0x71374491, 0xb5c0fbcf, 0xe9b5dba5, 0x3956c25b, 0x59f111f1, 0x923f82a4, 0xab1c5ed5,
    0xd807aa98, 0x12835b01, 0x243185be, 0x550c7dc3, 0x72be5d74, 0x80deb1fe, 0x9bdc06a7, 0xc19bf174⟩

/-- Constants of the second sixteen rounds. -/
def constants1 : Block :=
  ⟨0xe49b69c1, 0xefbe4786, 0x0fc19dc6, 0x240ca1cc, 0x2de92c6f, 0x4a7484aa, 0x5cb0a9dc, 0x76f988da,
    0x983e5152, 0xa831c66d, 0xb00327c8, 0xbf597fc7, 0xc6e00bf3, 0xd5a79147, 0x06ca6351, 0x14292967⟩

/-- Constants of the third sixteen rounds. -/
def constants2 : Block :=
  ⟨0x27b70a85, 0x2e1b2138, 0x4d2c6dfc, 0x53380d13, 0x650a7354, 0x766a0abb, 0x81c2c92e, 0x92722c85,
    0xa2bfe8a1, 0xa81a664b, 0xc24b8b70, 0xc76c51a3, 0xd192e819, 0xd6990624, 0xf40e3585, 0x106aa070⟩

/-- Constants of the last sixteen rounds. -/
def constants3 : Block :=
  ⟨0x19a4c116, 0x1e376c08, 0x2748774c, 0x34b0bcb5, 0x391c0cb3, 0x4ed8aa4a, 0x5b9cca4f, 0x682e6ff3,
    0x748f82ee, 0x78a5636f, 0x84c87814, 0x8cc70208, 0x90befffa, 0xa4506ceb, 0xbef9a3f7, 0xc67178f2⟩

/-- Fold one block into the chaining state. -/
def State.compress (s : State) (block : Block) : State :=
  let second := block.next
  let third := second.next
  let fourth := third.next
  let mixed := s.rounds constants0 block
  let mixed := mixed.rounds constants1 second
  let mixed := mixed.rounds constants2 third
  s.add (mixed.rounds constants3 fourth)

/-- The big-endian words of a byte string; fewer than four last bytes are left out. -/
def wordsOfBytes : Bytes → List UInt32
  | b0 :: b1 :: b2 :: b3 :: rest => wordOfBytes b0 b1 b2 b3 :: wordsOfBytes rest
  | _ => []

/-- The blocks of a list of words; fewer than sixteen last words are left out. -/
def blocksOfWords : List UInt32 → List Block
  | w0 :: w1 :: w2 :: w3 :: w4 :: w5 :: w6 :: w7 :: w8 :: w9 :: w10 :: w11 :: w12 :: w13 :: w14 ::
      w15 :: rest =>
    ⟨w0, w1, w2, w3, w4, w5, w6, w7, w8, w9, w10, w11, w12, w13, w14, w15⟩ :: blocksOfWords rest
  | _ => []

/-- Fold the whole blocks of a byte string into the chaining state. -/
def State.absorb (s : State) (bytes : Bytes) : State :=
  (blocksOfWords (wordsOfBytes bytes)).foldl State.compress s

/-- What follows a message of `count` bytes: a set bit, the fewest zeros that complete a block,
and the count of bits as a double word. -/
def padding (count : Nat) : Bytes :=
  0x80 :: List.replicate ((119 - count % 64) % 64) 0 ++ bytesOfDouble (UInt64.ofNat (8 * count))

/-- End a message of which `count` bytes, in whole blocks, are already in the state. -/
def State.finish (s : State) (count : Nat) (rest : Bytes) : State :=
  s.absorb (rest ++ padding (count + rest.length))

/-- The digest of a message. -/
def digest (message : Bytes) : Bytes := (State.initial.finish 0 message).toBytes

/-- A digest has thirty-two bytes. -/
@[simp] theorem length_digest (message : Bytes) : (digest message).length = 32 := by
  simp [digest]

end KeyWrapping.Sha256
