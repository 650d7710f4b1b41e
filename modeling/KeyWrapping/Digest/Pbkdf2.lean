import KeyWrapping.Digest.Hmac

/-!
# Stretching a password

The first block of the stretched key is the bitwise sum of a chain of keyed digests: the first
of the salt and the block number one, each further one of the digest before it. One block is
thirty-two bytes, which covers every key length in use here.
-/

namespace KeyWrapping.Pbkdf2

/-- Sum `count` further links of the chain after `link` into `sum`. -/
def chain (key : Hmac.Key) : (count : Nat) → (link sum : Sha256.State) → Sha256.State
  | 0, _, sum => sum
  | count + 1, link, sum =>
    let next := key.digestAgain link
    chain key count next (sum.xor next)

/-- The number of the first block, as it follows the salt. -/
def firstBlock : Bytes := bytesOfWord 1

/-- `pbkdf2_sha256` — the first `length` bytes, at most thirty-two, stretched from a password and a
salt through `iterations` links. -/
def stretch (password salt : Bytes) (iterations length : Nat) : Bytes :=
  let key := Hmac.Key.ofBytes password
  let link := key.digest (salt ++ firstBlock)
  (chain key (iterations - 1) link link).toBytes.take length

/-- A stretched key has the length asked for. -/
theorem length_stretch (password salt : Bytes) (iterations length : Nat) (short : length ≤ 32) :
    (stretch password salt iterations length).length = length := by
  simp [stretch, short]

end KeyWrapping.Pbkdf2
