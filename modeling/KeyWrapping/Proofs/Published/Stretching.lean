import KeyWrapping.Proofs.Derivation
import KeyWrapping.Proofs.Published.Digest
import KeyWrapping.Standard.Pbkdf2
/-!
# The derived key is the published one

A key is prepared once, as the two states after its blocks, and the links of the chain are kept in
words. A link made so is the published keyed digest of the link before it (`toBytes_digest`,
`digestAgain_eq`), and the sum that runs along is the published sum of all links (`toBytes_chain`).
So a deriver gives the published key for everything that it accepts (`derives_published_key`).
-/

namespace KeyWrapping

/-- The word of the bytes of a word is the word. -/
theorem wordOfBytes_bytesOfWord (word : UInt32) :
    wordOfBytes (word >>> 24).toUInt8 (word >>> 16).toUInt8 (word >>> 8).toUInt8 word.toUInt8 =
      word := by
  have number : Standard.value (bytesOfWord word) = word.toNat := by
    rw [Standard.bytesOfWord_eq, Standard.value_bigEndian]
    exact Nat.mod_eq_of_lt word.toNat_lt
  rw [bytesOfWord, Standard.value_four] at number
  exact UInt32.toNat_inj.mp number

/-- The bytes of a sum of words are summed one by one. -/
theorem bytesOfWord_xor (left right : UInt32) :
    bytesOfWord (left ^^^ right) = Bytes.xor (bytesOfWord left) (bytesOfWord right) := by
  simp only [bytesOfWord, Bytes.xor, List.zipWith_cons_cons, List.zipWith_nil_left,
    UInt32.shiftRight_xor, UInt32.toUInt8_xor]

namespace Sha256

/-- The bytes of words are read as the words. -/
theorem wordsOfBytes_flatMap (words : List UInt32) (rest : Bytes) :
    wordsOfBytes (words.flatMap bytesOfWord ++ rest) = words ++ wordsOfBytes rest := by
  induction words with
  | nil => rfl
  | cons word others ih =>
    rw [List.flatMap_cons, List.append_assoc]
    simp only [bytesOfWord, List.cons_append, List.nil_append, wordsOfBytes, ih,
      wordOfBytes_bytesOfWord]

/-- The bytes of a sum of states are summed one by one. -/
theorem State.toBytes_xor (s t : State) : (s.xor t).toBytes = Bytes.xor s.toBytes t.toBytes := by
  simp only [State.toBytes, State.xor, State.words, List.flatMap_cons, List.flatMap_nil,
    bytesOfWord_xor]
  rfl

end Sha256

namespace Hmac

/-- The block of a key is the published one. -/
theorem keyBlock_eq (key : Bytes) : keyBlock key = Standard.keyBlock key := by
  by_cases short : key.length ≤ 64
  · have notLong : ¬64 < key.length := Nat.not_lt.mpr short
    simp only [keyBlock, Standard.keyBlock, if_pos short, if_neg notLong]
  · have long : 64 < key.length := Nat.not_le.mp short
    simp only [keyBlock, Standard.keyBlock, if_neg short, if_pos long, Sha256.digest_eq]

/-- The sum with one byte does not depend on the order. -/
theorem map_xor_eq (mask : UInt8) (bytes : Bytes) :
    bytes.map (· ^^^ mask) = Standard.addByte mask bytes :=
  List.map_congr_left fun byte _ => UInt8.xor_comm byte mask

/-- A state after the block of a key goes on to the digest of the block and the message. -/
theorem toBytes_finish (mask : UInt8) (key message : Bytes) :
    ((Sha256.State.initial.absorb ((keyBlock key).map (· ^^^ mask))).finish 64 message).toBytes =
      Standard.Sha256.digest (Standard.addByte mask (Standard.keyBlock key) ++ message) := by
  have counted : (Standard.addByte mask (Standard.keyBlock key)).length = 64 := by
    rw [Standard.addByte, List.length_map, ← keyBlock_eq, length_keyBlock]
  have whole := Sha256.toBytes_finish_absorb _ message (congrArg (· % 64) counted)
  rw [counted] at whole
  rw [map_xor_eq, keyBlock_eq, whole]

namespace Key

/-- The keyed digest is the published one. -/
theorem toBytes_digest (key message : Bytes) :
    ((ofBytes key).digest message).toBytes = Standard.hmac key message := by
  rw [digest, ofBytes, toBytes_finish, toBytes_finish]
  rfl

/-- A digest behind the block of a key fills one more block. -/
theorem finish_toBytes (state s : Sha256.State) :
    state.finish 64 s.toBytes = state.compress (closing s) := by
  have padded : Sha256.wordsOfBytes (Sha256.padding 96) = [0x80000000, 0, 0, 0, 0, 0, 0, 768] := by
    decide +kernel
  rw [Sha256.State.finish, Sha256.State.absorb, Sha256.State.length_toBytes, Sha256.State.toBytes,
    Sha256.wordsOfBytes_flatMap, padded]
  rfl

/-- The keyed digest that is kept in words is the keyed digest of the bytes. -/
theorem digestAgain_eq (key : Key) (s : Sha256.State) : key.digestAgain s = key.digest s.toBytes := by
  rw [digestAgain, digest, finish_toBytes, finish_toBytes]

end Key

end Hmac

namespace Pbkdf2

/-- From a link of the chain and the sum up to it, further links make the published sum. -/
theorem toBytes_chain (password salt : Bytes) {index : Nat} {link sum : Sha256.State}
    (linked : link.toBytes = Standard.link password salt index)
    (summed : sum.toBytes = Standard.linkSum password salt index) (count : Nat) :
    (chain (Hmac.Key.ofBytes password) count link sum).toBytes =
      Standard.linkSum password salt (index + count) := by
  induction count generalizing index link sum with
  | zero => exact summed
  | succ count ih =>
    let next := (Hmac.Key.ofBytes password).digestAgain link
    have linkedNext : next.toBytes = Standard.link password salt (index + 1) := by
      unfold next
      rw [Hmac.Key.digestAgain_eq, Hmac.Key.toBytes_digest, linked, Standard.link]
    have summedNext : (sum.xor next).toBytes = Standard.linkSum password salt (index + 1) := by
      rw [Sha256.State.toBytes_xor, summed, linkedNext]
      rfl
    rw [chain, ih linkedNext summedNext, Nat.add_assoc, Nat.add_comm 1]

/-- What is stretched from a password and a salt is the published key. -/
theorem stretch_eq (password salt : Bytes) (iterations length : Nat) :
    stretch password salt iterations length =
      Standard.pbkdf2 password salt iterations length := by
  let first := (Hmac.Key.ofBytes password).digest (salt ++ firstBlock)
  have linked : first.toBytes = Standard.link password salt 0 :=
    Hmac.Key.toBytes_digest password (salt ++ firstBlock)
  rw [stretch, toBytes_chain password salt linked linked, Nat.zero_add]
  rfl

-- The published key of the password "password" and the salt "salt" after two iterations.
example : Standard.pbkdf2 [0x70, 0x61, 0x73, 0x73, 0x77, 0x6f, 0x72, 0x64] [0x73, 0x61, 0x6c, 0x74]
    2 32 =
    [0xae, 0x4d, 0x0c, 0x95, 0xaf, 0x6b, 0x46, 0xd3, 0x2d, 0x0a, 0xdf, 0xf9, 0x28, 0xf0, 0x6d, 0xd0,
      0x2a, 0x30, 0x3f, 0x8e, 0xf3, 0xc2, 0x51, 0xdf, 0xd6, 0xe2, 0xd8, 0x5a, 0x95, 0x47, 0x4c,
      0x43] := by
  rw [← stretch_eq]
  decide +kernel

/-- The shorter key is the first half of the longer one. -/
theorem stretch_half (password salt : Bytes) (iterations : Nat) :
    stretch password salt iterations 16 =
      (stretch password salt iterations 32).take
        ((stretch password salt iterations 32).length / 2) := by
  rw [length_stretch password salt iterations 32 (Nat.le_refl 32), stretch, stretch,
    List.take_take]
  rfl

end Pbkdf2

namespace Deriver

/-- From a password, a salt of sixteen bytes and parameters that a deriver accepts it derives the
published key, whether the parameters come one by one or together. The shorter key of the same
password, salt and iterations is the first half of the longer one. -/
theorem derives_published_key (deriver : Deriver) {password salt : Bytes} {iterations : UInt32}
    {keyLength : UInt64} (nonempty : password ≠ []) (salted : salt.length = 16)
    (accepted : deriver.Accepts ⟨iterations, keyLength⟩) :
    (deriver.derive password salt iterations keyLength).result =
      .ok ⟨Standard.pbkdf2 password salt iterations.toNat keyLength.toNat⟩ ∧
    deriver.deriveFor password salt ⟨iterations, keyLength⟩ =
      deriver.derive password salt iterations keyLength ∧
    ∃ short long, (deriver.derive password salt iterations 16).result = .ok short ∧
      (deriver.derive password salt iterations 32).result = .ok long ∧
      short.bytes = long.bytes.take (long.size / 2) := by
  have derived {length : UInt64} (known : length = 16 ∨ length = 32) :
      (deriver.derive password salt iterations length).result =
        .ok ⟨Pbkdf2.stretch password salt iterations.toNat length.toNat⟩ :=
    (derive_eq_ok_iff _).mpr ⟨⟨nonempty, salted, accepted.1, known⟩, rfl⟩
  refine ⟨?_, rfl, _, _, derived (.inl rfl), derived (.inr rfl), ?_⟩
  · rw [← Pbkdf2.stretch_eq]
    exact derived accepted.2
  · exact Pbkdf2.stretch_half password salt iterations.toNat

/-- With the fewest iterations, from a password of one byte and a salt of zeros. -/
theorem fewest_iterations_publish :
    let salt : Bytes := List.replicate 16 0
    [0x70] ≠ ([] : Bytes) ∧ salt.length = 16 ∧ standard.Accepts ⟨100000, 16⟩ ∧
      (standard.derive [0x70] salt 100000 16).result =
        .ok ⟨Standard.pbkdf2 [0x70] salt 100000 16⟩ := by
  intro salt
  have nonempty : [0x70] ≠ ([] : Bytes) := by decide
  have salted : salt.length = 16 := rfl
  have accepted : standard.Accepts ⟨100000, 16⟩ := by decide
  exact ⟨nonempty, salted, accepted, (standard.derives_published_key nonempty salted accepted).1⟩

end Deriver

end KeyWrapping
