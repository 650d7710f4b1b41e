import KeyWrapping.Cipher
import KeyWrapping.Proofs.BlockHash
/-!
# What a sealed text opens to

Opening succeeds exactly on what sealing writes (`openText_eq_some_iff`), and its only question is
whether the tag is the one computed from the key, the nonce, the associated data and the
ciphertext. Tags under one key and nonce are compared through their hashes (`tag_eq_iff`), so a text
with one of its hashed blocks changed keeps its tag exactly when the hash key is zero
(`tag_changed_block_iff`), whether the block is of the ciphertext or of the associated data. Where
no two blocks are enciphered alike, another nonce gives another tag (`tag_injective`). Tags under
two keys do not keep the keys apart: with different hash keys, some ciphertext has one tag under
both (`exists_same_tag`). A cipher limits the lengths of what it seals and of what it opens; the
limit is the same on both sides, so what it opens is still exactly what it seals
(`Cipher.openText_eq_ok_iff`).
-/

namespace KeyWrapping

/-- A bitwise sum determines its second term. -/
theorem Block.xor_right_injective (mask : Block) : Function.Injective mask.xor := by
  intro left right same
  have sums := congrArg Ghash.element same
  rw [Ghash.element_xor, Ghash.element_xor] at sums
  exact Ghash.element_injective (add_left_cancel sums)

/-- A bitwise sum determines its first term. -/
theorem Block.xor_left_injective (mask : Block) :
    Function.Injective fun block => Block.xor block mask := by
  intro left right same
  have sums : Ghash.element (left.xor mask) = Ghash.element (right.xor mask) :=
    congrArg Ghash.element same
  rw [Ghash.element_xor, Ghash.element_xor] at sums
  exact Ghash.element_injective (add_right_cancel sums)

/-- Of two equal sums of two terms, one term of each can be moved to the other side. -/
theorem Block.xor_eq_xor_of_xor_eq {first second third fourth : Block}
    (equal : first.xor second = third.xor fourth) : first.xor third = second.xor fourth := by
  have sums := congrArg Ghash.element equal
  have twiceSecond := ZModModule.add_self (Ghash.element second)
  have twiceThird := ZModModule.add_self (Ghash.element third)
  apply Ghash.element_injective
  rw [Ghash.element_xor, Ghash.element_xor] at sums ⊢
  linear_combination sums - twiceSecond + twiceThird

/-- The bytes of one block are cut into that block. -/
theorem Block.blocks_toBytes (block : Block) : Block.blocks block.toBytes = [block] := by
  have one : Block.needed block.toBytes.length = 1 := by rw [length_toBytes, needed]
  rw [blocks, one, firstBlocks, firstBlocks, ofBytes_toBytes]

/-- Two blocks with the same octets are equal. -/
theorem Block.toOctets_injective : Function.Injective Block.toOctets := by
  intro left right same
  exact Block.toBytes_injective (congrArg Octets.bytes same)

namespace Gcm

variable (encipher : Block → Block)

/-- A text with the right tag opens to its unmasked ciphertext. -/
theorem openText_of_tag {nonce : Octets 12} {associated : Bytes} {text : Sealed}
    (right : tag encipher nonce associated text.ciphertext = text.tag) :
    openText encipher nonce associated text = some (mask encipher nonce text.ciphertext) := by
  rw [openText, if_pos]
  rw [Bytes.sameBytes_iff, right]

/-- A text with another tag does not open. -/
theorem openText_of_tag_ne {nonce : Octets 12} {associated : Bytes} {text : Sealed}
    (other : tag encipher nonce associated text.ciphertext ≠ text.tag) :
    openText encipher nonce associated text = none := by
  rw [openText, if_neg]
  rw [Bytes.sameBytes_iff]
  exact fun same => other (Octets.ext same)

/-- What opens to a plaintext is exactly what sealing writes for it. -/
theorem openText_eq_some_iff (nonce : Octets 12) (associated plaintext : Bytes) (text : Sealed) :
    openText encipher nonce associated text = some plaintext ↔
      text = sealText encipher nonce associated plaintext := by
  constructor
  · intro opened
    by_cases right : tag encipher nonce associated text.ciphertext = text.tag
    · rw [openText_of_tag encipher right, Option.some.injEq] at opened
      have masked : mask encipher nonce plaintext = text.ciphertext := by
        rw [← opened, mask_mask]
      rw [sealText, masked, right]
    · rw [openText_of_tag_ne encipher right] at opened
      contradiction
  · rintro rfl
    rw [openText_of_tag encipher rfl, sealText, mask_mask]

/-- Tags under one nonce are equal exactly when the hashes are. -/
theorem tag_eq_iff (nonce : Octets 12) (associated ciphertext associated' ciphertext' : Bytes) :
    tag encipher nonce associated ciphertext = tag encipher nonce associated' ciphertext' ↔
      Ghash.hash (hashKey encipher) (hashedBlocks associated ciphertext) =
        Ghash.hash (hashKey encipher) (hashedBlocks associated' ciphertext') := by
  rw [tag, tag, Block.toOctets_injective.eq_iff, (Block.xor_right_injective _).eq_iff]

/-- With one hashed block changed the tag is kept exactly when the hash key is zero. -/
theorem tag_changed_block_iff (nonce : Octets 12)
    {associated ciphertext associated' ciphertext' : Bytes} {before after : List Block}
    {first second : Block} (hashed : hashedBlocks associated ciphertext = before ++ first :: after)
    (changed : hashedBlocks associated' ciphertext' = before ++ second :: after)
    (differ : first ≠ second) :
    tag encipher nonce associated ciphertext = tag encipher nonce associated' ciphertext' ↔
      hashKey encipher = Block.zero := by
  rw [tag_eq_iff, hashed, changed]
  exact Ghash.hash_changed_iff _ _ _ differ

/-- A ciphertext changed inside one block keeps its tag exactly when the hash key is zero. -/
theorem tag_changed_ciphertext_iff (nonce : Octets 12) (associated : Bytes)
    {ciphertext changed : Bytes} {place : Nat} (counted : ciphertext.length = changed.length)
    (agree : AgreeOutside (16 * place) 16 ciphertext changed)
    (differ : ciphertext ≠ changed) :
    tag encipher nonce associated ciphertext = tag encipher nonce associated changed ↔
      hashKey encipher = Block.zero := by
  obtain ⟨before, after, first, second, cut, cutChanged, apart⟩ :=
    Block.blocks_changed counted agree differ
  have lengths : lengthBlock associated changed = lengthBlock associated ciphertext := by
    rw [lengthBlock, lengthBlock, counted]
  have hashed : hashedBlocks associated ciphertext = (Block.blocks associated ++ before) ++
      first :: (after ++ [lengthBlock associated ciphertext]) := by
    rw [hashedBlocks, cut]
    simp only [List.append_assoc, List.cons_append]
  have hashedChanged : hashedBlocks associated changed = (Block.blocks associated ++ before) ++
      second :: (after ++ [lengthBlock associated ciphertext]) := by
    rw [hashedBlocks, cutChanged, lengths]
    simp only [List.append_assoc, List.cons_append]
  exact tag_changed_block_iff encipher nonce hashed hashedChanged apart

/-- Associated data changed inside one block keep the tag exactly when the hash key is zero. -/
theorem tag_changed_associated_iff (nonce : Octets 12) (ciphertext : Bytes)
    {associated changed : Bytes} {place : Nat} (counted : associated.length = changed.length)
    (agree : AgreeOutside (16 * place) 16 associated changed)
    (differ : associated ≠ changed) :
    tag encipher nonce associated ciphertext = tag encipher nonce changed ciphertext ↔
      hashKey encipher = Block.zero := by
  obtain ⟨before, after, first, second, cut, cutChanged, apart⟩ :=
    Block.blocks_changed counted agree differ
  have lengths : lengthBlock changed ciphertext = lengthBlock associated ciphertext := by
    rw [lengthBlock, lengthBlock, counted]
  have hashed : hashedBlocks associated ciphertext = before ++ first ::
      (after ++ Block.blocks ciphertext ++ [lengthBlock associated ciphertext]) := by
    rw [hashedBlocks, cut]
    simp only [List.append_assoc, List.cons_append]
  have hashedChanged : hashedBlocks changed ciphertext = before ++ second ::
      (after ++ Block.blocks ciphertext ++ [lengthBlock associated ciphertext]) := by
    rw [hashedBlocks, cutChanged, lengths]
    simp only [List.append_assoc, List.cons_append]
  exact tag_changed_block_iff encipher nonce hashed hashedChanged apart

/-- Under two functions with the same hash key the tags of a text are equal exactly when the first
counters are enciphered to the same block. -/
theorem tag_eq_iff_of_hashKey_eq {encipher' : Block → Block}
    (same : hashKey encipher = hashKey encipher') (nonce : Octets 12)
    (associated ciphertext : Bytes) :
    tag encipher nonce associated ciphertext = tag encipher' nonce associated ciphertext ↔
      encipher (firstCounter nonce) = encipher' (firstCounter nonce) := by
  rw [tag, tag, same, Block.toOctets_injective.eq_iff]
  exact (Block.xor_left_injective _).eq_iff

/-- Two nonces have different first counters. -/
theorem firstCounter_injective : Function.Injective firstCounter := by
  intro first second same
  have counted (nonce : Octets 12) : (nonce.bytes ++ [0, 0, 0, 1]).length = 16 := by
    rw [List.length_append, nonce.length_eq]
    rfl
  have strings := congrArg Block.toBytes same
  rw [firstCounter, firstCounter, Block.toBytes_ofBytes_of_length (counted first),
    Block.toBytes_ofBytes_of_length (counted second)] at strings
  exact Octets.ext (List.append_cancel_right strings)

/-- Where no two blocks are enciphered to the same block, a text has another tag under another
nonce. -/
theorem tag_injective {encipher : Block → Block} (apart : Function.Injective encipher)
    (associated ciphertext : Bytes) :
    Function.Injective fun nonce => tag encipher nonce associated ciphertext := by
  intro first second same
  have masks := Block.xor_left_injective _ (Block.toOctets_injective same)
  exact firstCounter_injective (apart masks)

/-- Under two functions with different hash keys some ciphertext of one block has the same tag. -/
theorem exists_same_tag {encipher' : Block → Block}
    (differ : hashKey encipher ≠ hashKey encipher') (nonce : Octets 12) (associated : Bytes) :
    ∃ ciphertext, ciphertext.length = 16 ∧ tag encipher nonce associated ciphertext =
      tag encipher' nonce associated ciphertext := by
  let first := firstCounter nonce
  obtain ⟨block, balanced⟩ := Ghash.exists_hash_xor_eq differ (Block.blocks associated)
    (lengthBlock associated Block.zero.toBytes) ((encipher first).xor (encipher' first))
  refine ⟨block.toBytes, Block.length_toBytes block, ?_⟩
  have hashed : hashedBlocks associated block.toBytes =
      Block.blocks associated ++ [block, lengthBlock associated Block.zero.toBytes] := by
    rw [hashedBlocks, Block.blocks_toBytes, List.append_assoc]
    rfl
  rw [tag, tag, hashed, Block.toOctets_injective.eq_iff]
  exact Block.xor_eq_xor_of_xor_eq balanced.symm

end Gcm

namespace Cipher

variable {cipher : Cipher} {nonce : Octets 12} {associated : Bytes}

/-- A masked text is taken exactly when the text is. -/
theorem fits_mask_iff {encipher : Block → Block} {text : Bytes} :
    Fits associated (Gcm.mask encipher nonce text) ↔ Fits associated text := by
  rw [Fits, Fits, Gcm.length_mask]

/-- Sealing gives a text exactly when nothing is too long and the text is the one that is
computed. -/
theorem sealText_eq_ok_iff {plaintext : Bytes} {text : Gcm.Sealed} :
    cipher.sealText nonce associated plaintext = .ok text ↔ Fits associated plaintext ∧
      Gcm.sealText cipher.encipher nonce associated plaintext = text := by
  by_cases fits : Fits associated plaintext
  · rw [sealText_of_fits fits, Except.ok.injEq]
    exact (and_iff_right fits).symm
  · rw [sealText_of_not_fits fits]
    simp [fits]

/-- A text of a length that is taken opens when its tag is the right one. -/
theorem openText_of_tag {text : Gcm.Sealed} (fits : Fits associated text.ciphertext)
    (right : Gcm.tag cipher.encipher nonce associated text.ciphertext = text.tag) :
    cipher.openText nonce associated text =
      .ok (Gcm.mask cipher.encipher nonce text.ciphertext) := by
  rw [openText, if_pos fits, Gcm.openText_of_tag _ right]

/-- A text that is too long is refused, and so is one with another tag. -/
theorem openText_of_wrong {text : Gcm.Sealed}
    (wrong : ¬(Fits associated text.ciphertext ∧
      Gcm.tag cipher.encipher nonce associated text.ciphertext = text.tag)) :
    cipher.openText nonce associated text = .error .authentication := by
  by_cases fits : Fits associated text.ciphertext
  · rw [openText, if_pos fits, Gcm.openText_of_tag_ne _ fun right => wrong ⟨fits, right⟩]
  · rw [openText, if_neg fits]

/-- What opens to a plaintext is exactly what sealing gives for it. -/
theorem openText_eq_ok_iff {plaintext : Bytes} {text : Gcm.Sealed} :
    cipher.openText nonce associated text = .ok plaintext ↔
      cipher.sealText nonce associated plaintext = .ok text := by
  rw [sealText_eq_ok_iff]
  by_cases fits : Fits associated text.ciphertext
  · have unlimited : cipher.openText nonce associated text = .ok plaintext ↔
        Gcm.openText cipher.encipher nonce associated text = some plaintext := by
      rw [openText, if_pos fits]
      cases Gcm.openText cipher.encipher nonce associated text <;> simp
    rw [unlimited, Gcm.openText_eq_some_iff]
    constructor
    · rintro rfl
      exact ⟨fits_mask_iff.mp fits, rfl⟩
    · rintro ⟨_, same⟩
      exact same.symm
  · rw [openText, if_neg fits]
    constructor
    · intro opened
      contradiction
    · rintro ⟨short, rfl⟩
      exact absurd (fits_mask_iff.mpr short) fits

end Cipher

end KeyWrapping
