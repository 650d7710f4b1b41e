import KeyWrapping.Cipher.Ghash

/-!
# Authenticated encryption over a block function

Everything here is stated over any function on blocks, which a keyed cipher supplies. A text is
masked by the enciphered counters that follow the first one; the first one masks the hash of the
associated data, the masked text and their lengths, which is the tag. Opening computes the tag
again and unmasks only when it is the one received.
-/

namespace KeyWrapping.Gcm

/-- A masked text and its tag. -/
structure Sealed where
  /-- The masked text, as long as the plaintext. -/
  ciphertext : Bytes
  /-- The tag over associated data and ciphertext. -/
  tag : Octets 16
  deriving DecidableEq

namespace Sealed

/-- The ciphertext followed by the tag. -/
def toBytes (text : Sealed) : Bytes := text.ciphertext ++ text.tag.bytes

/-- Cut a string that is long enough: the last sixteen bytes are the tag. -/
def split (bytes : Bytes) (holds : 16 ≤ bytes.length) : Sealed where
  ciphertext := bytes.take (bytes.length - 16)
  tag := ⟨bytes.drop (bytes.length - 16), by simp only [List.length_drop]; omega⟩

/-- Read a sealed text; a string shorter than a tag holds none. -/
def ofBytes? (bytes : Bytes) : Option Sealed :=
  if holds : 16 ≤ bytes.length then some (split bytes holds) else none

/-- The written form is sixteen bytes longer than the ciphertext. -/
@[simp] theorem length_toBytes (text : Sealed) :
    text.toBytes.length = text.ciphertext.length + 16 := by
  simp [toBytes, text.tag.length_eq]

/-- Cutting a written form gives back its two parts. -/
@[simp] theorem split_toBytes (text : Sealed) (holds : 16 ≤ text.toBytes.length) :
    split text.toBytes holds = text := by
  simp [split, toBytes, text.tag.length_eq]

/-- The two parts of a string make up the string. -/
@[simp] theorem toBytes_split (bytes : Bytes) (holds : 16 ≤ bytes.length) :
    (split bytes holds).toBytes = bytes := by
  simp [split, toBytes]

/-- A sealed text is read back from its written form. -/
@[simp] theorem ofBytes?_toBytes (text : Sealed) : ofBytes? text.toBytes = some text := by
  simp [ofBytes?]

/-- Only written forms are read, each as its own text. -/
theorem toBytes_of_ofBytes? {bytes : Bytes} {text : Sealed} (read : ofBytes? bytes = some text) :
    text.toBytes = bytes := by
  unfold ofBytes? at read
  split at read
  · obtain rfl := Option.some.inj read
    simp
  · contradiction

end Sealed

/-- The first counter: the nonce, then the number one in four bytes. -/
def firstCounter (nonce : Octets 12) : Block := Block.ofBytes (nonce.bytes ++ [0, 0, 0, 1])

/-- The next counter: only the last four bytes count, and they wrap around. -/
def nextCounter (counter : Block) : Block :=
  ⟨counter.high,
    (counter.low &&& 0xffffffff00000000) ||| ((counter.low + 1) &&& 0x00000000ffffffff)⟩

variable (encipher : Block → Block)

/-- The bytes of `count` enciphered counters. -/
def keystream : (count : Nat) → (counter : Block) → Bytes
  | 0, _ => []
  | count + 1, counter => (encipher counter).toBytes ++ keystream count (nextCounter counter)

/-- A keystream has sixteen bytes per counter. -/
@[simp] theorem length_keystream (count : Nat) (counter : Block) :
    (keystream encipher count counter).length = 16 * count := by
  induction count generalizing counter with
  | zero => rfl
  | succ count ih => simp [keystream, ih]; omega

/-- The sum of a text and the keystream that follows the first counter. -/
def mask (nonce : Octets 12) (text : Bytes) : Bytes :=
  Bytes.xor text (keystream encipher (Block.needed text.length) (nextCounter (firstCounter nonce)))

/-- The keystream of a text covers it. -/
theorem length_le_keystream (counter : Block) (text : Bytes) :
    text.length ≤ (keystream encipher (Block.needed text.length) counter).length := by
  simp only [length_keystream, Block.needed]
  omega

/-- Masking keeps the length. -/
@[simp] theorem length_mask (nonce : Octets 12) (text : Bytes) :
    (mask encipher nonce text).length = text.length := by
  simp only [mask, Bytes.length_xor]
  exact Nat.min_eq_left (length_le_keystream encipher _ text)

/-- Masking twice changes nothing. -/
@[simp] theorem mask_mask (nonce : Octets 12) (text : Bytes) :
    mask encipher nonce (mask encipher nonce text) = text := by
  have cancel := Bytes.xor_xor_cancel text _
    (length_le_keystream encipher (nextCounter (firstCounter nonce)) text)
  rw [show mask encipher nonce (mask encipher nonce text) =
    Bytes.xor (mask encipher nonce text) (keystream encipher
      (Block.needed (mask encipher nonce text).length) (nextCounter (firstCounter nonce))) from rfl,
    length_mask]
  exact cancel

/-- The hash key: the enciphered block of zeros. -/
def hashKey : Block := encipher Block.zero

/-- The bit counts of associated data and ciphertext. -/
def lengthBlock (associated ciphertext : Bytes) : Block :=
  ⟨UInt64.ofNat (8 * associated.length), UInt64.ofNat (8 * ciphertext.length)⟩

/-- What is hashed: associated data and ciphertext, each filled to whole blocks, and their bit
counts. -/
def hashedBlocks (associated ciphertext : Bytes) : List Block :=
  Block.blocks associated ++ Block.blocks ciphertext ++ [lengthBlock associated ciphertext]

/-- The tag of a ciphertext. -/
def tag (nonce : Octets 12) (associated ciphertext : Bytes) : Octets 16 :=
  let hash := Ghash.hash (hashKey encipher) (hashedBlocks associated ciphertext)
  ((encipher (firstCounter nonce)).xor hash).toOctets

/-- Mask a plaintext and add the tag. -/
def sealText (nonce : Octets 12) (associated plaintext : Bytes) : Sealed :=
  let ciphertext := mask encipher nonce plaintext
  ⟨ciphertext, tag encipher nonce associated ciphertext⟩

/-- The plaintext, when the tag is the right one. -/
def openText (nonce : Octets 12) (associated : Bytes) (text : Sealed) : Option Bytes :=
  if Bytes.sameBytes (tag encipher nonce associated text.ciphertext).bytes text.tag.bytes then
    some (mask encipher nonce text.ciphertext)
  else none

end KeyWrapping.Gcm
