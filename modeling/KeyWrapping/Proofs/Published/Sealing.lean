import KeyWrapping.Proofs.Binding
import KeyWrapping.Proofs.Published.BlockCipher
import KeyWrapping.Proofs.Published.BlockHash
/-!
# What is sealed is the published text

Counters count on in their last four bytes as published (`bits_nextCounter`), so the enciphered
counters make the published keystream (`keystream_eq`) and the ciphertext is the published one
(`mask_eq`). The tag is made from the published hash of the same blocks (`bytes_tag`). So sealing under
a key of either length writes the published ciphertext and tag (`seals_published_text`).
-/

namespace KeyWrapping

open KeyWrapping.Standard (bigEndian)
open KeyWrapping.Standard.Gcm (Bits increment)

namespace Gcm

/-- The bytes of a counter that stay. -/
theorem toNat_kept (low : UInt64) :
    (low &&& 0xffffffff00000000 : UInt64).toNat = low.toNat / 2 ^ 32 * 2 ^ 32 := by
  rw [UInt64.toNat_and]
  change low.toNat &&& (2 ^ 32 - 1) * 2 ^ 32 = _
  apply Nat.eq_of_testBit_eq
  intro place
  rw [Nat.testBit_and, Nat.testBit_mul_two_pow, Nat.testBit_mul_two_pow,
    Nat.testBit_two_pow_sub_one, Nat.testBit_div_two_pow]
  by_cases outside : 64 ≤ place
  · have high : low.toNat < 2 ^ place :=
      Nat.lt_of_lt_of_le low.toNat_lt (Nat.pow_le_pow_right (by decide) outside)
    rw [Nat.sub_add_cancel (by omega), Nat.testBit_lt_two_pow high,
      Bool.false_and, Bool.and_false]
  by_cases upper : 32 ≤ place
  · have inside : place - 32 < 32 := by omega
    rw [Nat.sub_add_cancel upper, decide_eq_true inside, Bool.and_true, Bool.and_comm]
  · simp only [decide_eq_false upper, Bool.false_and, Bool.and_false]

/-- The bytes of a counter that count on. -/
theorem toNat_counted (low : UInt64) :
    ((low + 1) &&& (0x00000000ffffffff : UInt64)).toNat = (low.toNat + 1) % 2 ^ 32 := by
  rw [UInt64.toNat_and, UInt64.toNat_add]
  change (low.toNat + 1) % 2 ^ 64 &&& 2 ^ 32 - 1 = _
  rw [Nat.and_two_pow_sub_one_eq_mod, Nat.mod_mod_of_dvd _ (by decide)]

/-- The low double word of the next counter, by its number. -/
theorem toNat_nextLow (counter : Block) :
    (nextCounter counter).low.toNat =
      counter.low.toNat / 2 ^ 32 * 2 ^ 32 + (counter.low.toNat + 1) % 2 ^ 32 := by
  have small : (counter.low.toNat + 1) % 2 ^ 32 < 2 ^ 32 := Nat.mod_lt _ (by decide)
  rw [nextCounter, UInt64.toNat_or, toNat_kept, toNat_counted, Nat.mul_comm,
    ← Nat.two_pow_add_eq_or_of_lt small]

/-- The next counter is the published one. -/
theorem bits_nextCounter (counter : Block) :
    (nextCounter counter).bits = increment counter.bits := by
  have high := counter.high.toNat_lt
  have low := counter.low.toNat_lt
  apply BitVec.eq_of_toNat_eq
  have kept : (nextCounter counter).high = counter.high := rfl
  rw [Block.toNat_bits, toNat_nextLow, kept, increment, BitVec.toNat_ofNat, Block.toNat_bits]
  simp only [UInt32.size]
  omega

/-- The first counter is the published one. -/
theorem bits_firstCounter (nonce : Octets 12) :
    (firstCounter nonce).bits = Standard.Gcm.firstBlock nonce.bytes := by
  have counted : (nonce.bytes ++ [0, 0, 0, 1]).length = 16 := by
    rw [List.length_append, nonce.length_eq]
    rfl
  rw [firstCounter, ← Block.bits_take, List.take_of_length_le (Nat.le_of_eq counted),
    Standard.Gcm.firstBlock]

/-- The block of the lengths is the published one. -/
theorem bits_lengthBlock (associated ciphertext : Bytes) :
    (lengthBlock associated ciphertext).bits =
      Standard.Gcm.bits (bigEndian 8 (8 * associated.length) ++
        bigEndian 8 (8 * ciphertext.length)) := by
  rw [← Block.bits_toBytes, Block.toBytes, lengthBlock, Standard.bytesOfDouble_ofNat,
    Standard.bytesOfDouble_ofNat]

section Text

variable {encipher : Block → Block} {published : Bits → Bits}
  (same : ∀ block, (encipher block).bits = published block.bits)

include same

/-- The keystream is the published one. -/
theorem keystream_eq (count : Nat) (counter : Block) :
    keystream encipher count (nextCounter counter) =
      Standard.Gcm.keystream published counter.bits count := by
  induction count generalizing counter with
  | zero => rfl
  | succ count ih =>
    rw [keystream, ih, ← Block.bytes_bits, same, Standard.Gcm.keystream, Standard.Gcm.keystream,
      List.range_succ_eq_map, List.flatMap_cons, List.flatMap_map, bits_nextCounter]
    simp only [Standard.repeat_apply, Nat.succ_eq_add_one]
    rfl

/-- The ciphertext is the published one. -/
theorem mask_eq (nonce : Octets 12) (text : Bytes) :
    mask encipher nonce text = Standard.Gcm.ciphertext published nonce.bytes text := by
  rw [mask, keystream_eq same, bits_firstCounter, Standard.Gcm.ciphertext, Block.needed]
  rfl

/-- The tag is the published one. -/
theorem bytes_tag (nonce : Octets 12) (associated ciphertext : Bytes) :
    (tag encipher nonce associated ciphertext).bytes =
      Standard.Gcm.tag published nonce.bytes associated ciphertext := by
  have hashed : (hashedBlocks associated ciphertext).map Block.bits =
      Standard.Gcm.blocks associated ++ Standard.Gcm.blocks ciphertext ++
        [(lengthBlock associated ciphertext).bits] := by
    rw [hashedBlocks, List.map_append, List.map_append, Block.map_bits_blocks,
      Block.map_bits_blocks, List.map_singleton]
  change ((encipher (firstCounter nonce)).xor (Ghash.hash (hashKey encipher)
    (hashedBlocks associated ciphertext))).toBytes = _
  rw [← Block.bytes_bits, Block.bits_xor, same, bits_firstCounter, Ghash.bits_hash, hashKey, same,
    Block.bits_zero, hashed, bits_lengthBlock, Standard.Gcm.tag]

/-- What is sealed is the published text. -/
theorem toBytes_sealText (nonce : Octets 12) (associated plaintext : Bytes) :
    (sealText encipher nonce associated plaintext).toBytes =
      Standard.Gcm.sealText published nonce.bytes associated plaintext := by
  rw [sealText, Sealed.toBytes, bytes_tag same, mask_eq same, Standard.Gcm.sealText]

end Text

end Gcm

namespace Cipher

/-- The function on blocks is the published block cipher under the key. -/
theorem bits_encipher (cipher : Cipher) (block : Block) :
    (cipher.encipher block).bits =
      Standard.Gcm.bits (Standard.Aes.encipher cipher.key.bytes (Standard.Gcm.bytes block.bits)) := by
  rw [Block.bytes_bits, ← Aes.toBytes_encipher, Block.bits_toBytes, encipher]

/-- Under every key of one of the two lengths sealing writes the published ciphertext and tag, for
every nonce, plaintext and associated data of lengths that the cipher takes; absent associated data
count as empty. -/
theorem seals_published_text {key : Bytes} (sized : key.length = 16 ∨ key.length = 32) :
    ∃ cipher, ofKey key = .ok cipher ∧
      ∀ (nonce : Octets 12) (associated : Option Bytes) (plaintext : Bytes),
        Fits (associated.getD []) plaintext →
          cipher.sealBytes nonce associated plaintext =
            .ok (Standard.Gcm.sealUnder key nonce.bytes (associated.getD []) plaintext) := by
  obtain ⟨cipher, keyed, kept⟩ := exists_ofKey sized
  refine ⟨cipher, keyed, ?_⟩
  intro nonce associated plaintext fits
  have published :
      (Gcm.sealText cipher.encipher nonce (associated.getD []) plaintext).toBytes =
        Standard.Gcm.sealUnder cipher.key.bytes nonce.bytes (associated.getD []) plaintext :=
    Gcm.toBytes_sealText cipher.bits_encipher nonce (associated.getD []) plaintext
  rw [sealBytes, sealText_of_fits fits, ← kept]
  exact congrArg Except.ok published

/-- Under sixteen zeros and a nonce of zeros the empty text is sealed as published, which is a known
answer. -/
theorem zero_key_known_answer :
    let key : Bytes := List.replicate 16 0
    let nonce : Octets 12 := ⟨List.replicate 12 0, rfl⟩
    let answer := Standard.Gcm.sealUnder key nonce.bytes [] []
    (key.length = 16 ∨ key.length = 32) ∧ answer = [0x58, 0xe2, 0xfc, 0xce, 0xfa, 0x7e, 0x30, 0x61,
        0x36, 0x7f, 0x1d, 0x57, 0xa4, 0xe7, 0x45, 0x5a] ∧
      ∃ cipher, ofKey key = .ok cipher ∧ cipher.sealBytes nonce none [] = .ok answer := by
  intro key nonce answer
  have sized : key.length = 16 ∨ key.length = 32 := by decide
  obtain ⟨cipher, keyed, published⟩ := seals_published_text sized
  have fits : Fits ((none : Option Bytes).getD []) [] := by decide
  have wrote : cipher.sealBytes nonce none [] = .ok answer := published nonce none [] fits
  refine ⟨sized, ?_, cipher, keyed, wrote⟩
  obtain rfl : ⟨.short ⟨key, rfl⟩⟩ = cipher := Except.ok.inj keyed
  refine Except.ok.inj (show (.ok answer : Except Failure Bytes) = .ok _ from ?_)
  rw [← wrote]
  decide +kernel

end Cipher

end KeyWrapping
