import KeyWrapping.Standard.Aes

/-!
# Authenticated encryption as published

Blocks are strings of 128 bits, the first bit at the high end, and the product of two blocks is
computed bit by bit. Texts are byte strings, as everywhere in this library.
-/

namespace KeyWrapping.Standard.Gcm

/-- A block as a string of bits. -/
abbrev Bits := BitVec 128

/-- The block of at most sixteen bytes, filled with zeros. -/
def bits (bytes : Bytes) : Bits :=
  BitVec.ofNat 128 (value (bytes ++ List.replicate (16 - bytes.length) 0))

/-- The sixteen bytes of a block. -/
def bytes (block : Bits) : Bytes := bigEndian 16 block.toNat

/-- The reduction constant: eleven, one, and zeros after the first byte. -/
def reduction : Bits := 0xe1 <<< 120

/-- The multiplicand after `count` steps of a product. -/
def shifted (y : Bits) : (count : Nat) → Bits
  | 0 => y
  | count + 1 =>
    let v := shifted y count
    if v.getLsbD 0 then (v >>> 1) ^^^ reduction else v >>> 1

/-- The sum after `count` steps of a product. -/
def partialProduct (x y : Bits) : (count : Nat) → Bits
  | 0 => 0
  | count + 1 =>
    if x.getMsbD count then partialProduct x y count ^^^ shifted y count
    else partialProduct x y count

/-- The product of two blocks. -/
def product (x y : Bits) : Bits := partialProduct x y 128

/-- The hash of a list of blocks. -/
def ghash (key : Bits) (blocks : List Bits) : Bits :=
  blocks.foldl (fun hash block => product (hash ^^^ block) key) 0

/-- The bits of a byte string in blocks, the last one filled with zeros. -/
def blocks (text : Bytes) : List Bits :=
  (List.range ((text.length + 15) / 16)).map fun index => bits ((text.drop (16 * index)).take 16)

/-- The block whose last thirty-two bits count one further, in a circle. -/
def increment (block : Bits) : Bits :=
  let whole := block.toNat / UInt32.size * UInt32.size
  BitVec.ofNat 128 (whole + (block.toNat + 1) % UInt32.size)

/-- The block before the first counter. -/
def firstBlock (nonce : Bytes) : Bits := bits (nonce ++ [0, 0, 0, 1])

variable (encipher : Bits → Bits)

/-- The keystream of `count` blocks that follow a block. -/
def keystream (block : Bits) (count : Nat) : Bytes :=
  (List.range count).flatMap fun index => bytes (encipher (Nat.repeat increment (index + 1) block))

/-- The ciphertext of a text. -/
def ciphertext (nonce text : Bytes) : Bytes :=
  List.zipWith (· ^^^ ·) text (keystream encipher (firstBlock nonce) ((text.length + 15) / 16))

/-- The tag of a ciphertext. -/
def tag (nonce associated masked : Bytes) : Bytes :=
  let lengths := bits (bigEndian 8 (8 * associated.length) ++ bigEndian 8 (8 * masked.length))
  let hash := ghash (encipher 0) (blocks associated ++ blocks masked ++ [lengths])
  bytes (encipher (firstBlock nonce) ^^^ hash)

/-- The ciphertext followed by the tag. -/
def sealText (nonce associated text : Bytes) : Bytes :=
  let masked := ciphertext encipher nonce text
  masked ++ tag encipher nonce associated masked

/-- Sealing under the block cipher. -/
def sealUnder (key nonce associated text : Bytes) : Bytes :=
  sealText (fun block => bits (Aes.encipher key (bytes block))) nonce associated text

end KeyWrapping.Standard.Gcm
