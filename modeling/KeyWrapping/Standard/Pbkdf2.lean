import KeyWrapping.Standard.Sha256

/-!
# Keyed digests and stretched keys as published

A keyed digest is two nested digests of whole messages, and a stretched key the sum of a chain
of keyed digests, each made from the password anew.
-/

namespace KeyWrapping.Standard

/-- A key filled with zeros to a block, after digestion if it is longer than one. -/
def keyBlock (key : Bytes) : Bytes :=
  let short := if 64 < key.length then Sha256.digest key else key
  short ++ List.replicate (64 - short.length) 0

/-- The keyed digest of a message. -/
def hmac (key message : Bytes) : Bytes :=
  Sha256.digest (addByte 0x5c (keyBlock key) ++
    Sha256.digest (addByte 0x36 (keyBlock key) ++ message))

/-- Link `index + 1` of the chain. -/
def link (password salt : Bytes) : (index : Nat) → Bytes
  | 0 => hmac password (salt ++ [0, 0, 0, 1])
  | index + 1 => hmac password (link password salt index)

/-- The sum of the first `count + 1` links. -/
def linkSum (password salt : Bytes) : (count : Nat) → Bytes
  | 0 => link password salt 0
  | count + 1 =>
    List.zipWith (· ^^^ ·) (linkSum password salt count) (link password salt (count + 1))

/-- The first `length` bytes of the sum of `iterations` links. -/
def pbkdf2 (password salt : Bytes) (iterations length : Nat) : Bytes :=
  (linkSum password salt (iterations - 1)).take length

end KeyWrapping.Standard
