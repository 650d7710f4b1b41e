import KeyWrapping.Digest.Sha256

/-!
# Keyed digests

A keyed digest hashes the message behind one block made from the key, and that digest behind
another. Both blocks fill the chaining state exactly once, so a key is prepared as the two
states after them and used for as many messages as wanted. The key enters only through its
block of sixty-four bytes (`keyBlock`): two keys with the same block are one key.
-/

namespace KeyWrapping.Hmac

/-- The block of a key: the key, or its digest when it is longer than a block, filled with
zeros to sixty-four bytes. -/
def keyBlock (key : Bytes) : Bytes :=
  let short := if key.length ≤ 64 then key else Sha256.digest key
  short ++ List.replicate (64 - short.length) 0

/-- A block of a key has sixty-four bytes. -/
@[simp] theorem length_keyBlock (key : Bytes) : (keyBlock key).length = 64 := by
  by_cases short : key.length ≤ 64
  · simp [keyBlock, short]
  · simp [keyBlock, short]

/-- The byte added to a key block before the message. -/
def innerMask : UInt8 := 0x36

/-- The byte added to a key block before the inner digest. -/
def outerMask : UInt8 := 0x5c

/-- A prepared key: the chaining states after its two blocks. -/
structure Key where
  /-- The state that messages continue. -/
  inner : Sha256.State
  /-- The state that inner digests continue. -/
  outer : Sha256.State

namespace Key

/-- Prepare a key. -/
def ofBytes (key : Bytes) : Key where
  inner := Sha256.State.initial.absorb ((keyBlock key).map (· ^^^ innerMask))
  outer := Sha256.State.initial.absorb ((keyBlock key).map (· ^^^ outerMask))

/-- The keyed digest of a message. -/
def digest (key : Key) (message : Bytes) : Sha256.State :=
  key.outer.finish 64 (key.inner.finish 64 message).toBytes

/-- The last block of a message that is one key block and one digest long. -/
def closing (s : Sha256.State) : Sha256.Block :=
  ⟨s.a, s.b, s.c, s.d, s.e, s.f, s.g, s.h, 0x80000000, 0, 0, 0, 0, 0, 0, 768⟩

/-- The keyed digest of a digest, which takes one block on each side and is kept in words. -/
def digestAgain (key : Key) (s : Sha256.State) : Sha256.State :=
  key.outer.compress (closing (key.inner.compress (closing s)))

end Key

end KeyWrapping.Hmac
