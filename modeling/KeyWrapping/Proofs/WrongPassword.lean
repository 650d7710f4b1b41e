import KeyWrapping.Proofs.RoundTrip
/-!
# What a wrong password does

A password enters a derivation only through the block that the keyed digest makes of it. Passwords
that give one block, such as a short one and the same with zero bytes behind it, are one password
(`unwrapKey_of_keyBlock`). Any other password opens a record exactly when it gives the tag of the
record. With the hash keys of the two passwords apart there is a payload for which it does, so a
password is refused for all payloads exactly when it gives the same hash key and another mask
(`forall_unrecognized_iff`).
-/

namespace KeyWrapping

namespace Hmac

/-- Zero bytes behind a key that still fits into its block change nothing. -/
theorem keyBlock_append_zeros (key : Bytes) (count : Nat) (short : key.length + count ≤ 64) :
    keyBlock (key ++ List.replicate count 0) = keyBlock key := by
  have shorter : key.length ≤ 64 := by omega
  have filled : count + (64 - (key.length + count)) = 64 - key.length := by omega
  simp only [keyBlock, List.length_append, List.length_replicate, if_pos short, if_pos shorter,
    List.append_assoc, List.replicate_append_replicate, filled]

/-- A key is prepared from its block. -/
theorem Key.ofBytes_congr {left right : Bytes} (same : keyBlock left = keyBlock right) :
    Key.ofBytes left = Key.ofBytes right := by
  rw [Key.ofBytes, Key.ofBytes, same]

end Hmac

/-- Passwords with one block are stretched alike. -/
theorem Pbkdf2.stretch_congr {left right : Bytes}
    (same : Hmac.keyBlock left = Hmac.keyBlock right) (salt : Bytes) (iterations length : Nat) :
    stretch left salt iterations length = stretch right salt iterations length := by
  rw [stretch, stretch, Hmac.Key.ofBytes_congr same]

/-- A key of the block cipher is determined by its bytes. -/
theorem Aes.Key.bytes_injective : Function.Injective Aes.Key.bytes := by
  intro left right same
  apply Option.some.inj
  rw [← Aes.Key.ofBytes?_bytes left, ← Aes.Key.ofBytes?_bytes right, same]

namespace Wrapper

variable (wrapper : Wrapper) {password other : Bytes}

/-- Passwords with one block give the same keys. -/
theorem keyFor_of_keyBlock (same : Hmac.keyBlock other = Hmac.keyBlock password)
    (salt : Octets 16) : wrapper.keyFor other salt = wrapper.keyFor password salt := by
  apply Aes.Key.bytes_injective
  rw [bytes_keyFor, bytes_keyFor, Pbkdf2.stretch_congr same]

/-- Passwords with one block open a wrapped key alike. -/
theorem unwrapKey_of_keyBlock (nonempty : password ≠ []) (nonempty' : other ≠ [])
    (same : Hmac.keyBlock other = Hmac.keyBlock password) (key : WrappedKey) :
    wrapper.unwrapKey other key = wrapper.unwrapKey password key := by
  have together : other = [] ↔ password = [] := iff_of_false nonempty' nonempty
  exact unwrapKey_eq_of_keyFor wrapper rfl together (wrapper.keyFor_of_keyBlock same key.salt)

/-- The record of a payload that is not too long is recognized under another password exactly when
both passwords give one tag for its ciphertext. -/
theorem recognizes_record_iff {payload : Bytes} (fits : payload.length ≤ Cipher.longest)
    (salt : Octets 16) (nonce : Octets 12) :
    wrapper.Recognizes other (wrapper.record password payload salt nonce) ↔
      Gcm.tag (wrapper.encipherFor other salt) nonce (WrappedKey.headerOf salt nonce)
          (Gcm.mask (wrapper.encipherFor password salt) nonce payload) =
        Gcm.tag (wrapper.encipherFor password salt) nonce (WrappedKey.headerOf salt nonce)
          (Gcm.mask (wrapper.encipherFor password salt) nonce payload) := by
  rw [Recognizes, payloadSize_record, and_iff_right fits]
  rfl

/-- No record of a password is recognized under another password exactly when both give the same
hash key and they mask tags differently. -/
theorem forall_unrecognized_iff (salt : Octets 16) (nonce : Octets 12) :
    (∀ payload : Bytes, payload.length ≤ Cipher.longest →
        ¬wrapper.Recognizes other (wrapper.record password payload salt nonce)) ↔
      wrapper.hashKeyFor other salt = wrapper.hashKeyFor password salt ∧
        wrapper.encipherFor other salt (Gcm.firstCounter nonce) ≠
          wrapper.encipherFor password salt (Gcm.firstCounter nonce) := by
  constructor
  · intro unrecognized
    have hashKeys : wrapper.hashKeyFor other salt = wrapper.hashKeyFor password salt := by
      by_contra differ
      obtain ⟨ciphertext, counted, same⟩ := Gcm.exists_same_tag (wrapper.encipherFor other salt)
        differ nonce (WrappedKey.headerOf salt nonce)
      -- The payload to take is the one that is masked to this ciphertext.
      let payload := Gcm.mask (wrapper.encipherFor password salt) nonce ciphertext
      have short : payload.length ≤ Cipher.longest := by
        rw [Gcm.length_mask, counted]
        decide
      apply unrecognized payload short
      rw [wrapper.recognizes_record_iff short, Gcm.mask_mask]
      exact same
    refine ⟨hashKeys, ?_⟩
    intro masks
    have short : ([] : Bytes).length ≤ Cipher.longest := Nat.zero_le _
    apply unrecognized [] short
    rw [wrapper.recognizes_record_iff short, Gcm.tag_eq_iff_of_hashKey_eq _ hashKeys]
    exact masks
  · rintro ⟨hashKeys, masks⟩ payload fits
    rw [wrapper.recognizes_record_iff fits, Gcm.tag_eq_iff_of_hashKey_eq _ hashKeys]
    exact masks

/-- A record that is not too long is refused under a password exactly when the password gives it
another tag. -/
theorem fails_iff_tag_ne (nonempty : password ≠ []) (key : WrappedKey)
    (short : key.payloadSize ≤ Cipher.longest) :
    wrapper.Fails password key.toBytes .authentication (.ok false) ↔
      Gcm.tag (wrapper.encipherFor password key.salt) key.nonce key.header key.ciphertext ≠
        key.tag :=
  (wrapper.fails_iff_unrecognized nonempty key.ofBytes_toBytes).trans
    (not_congr (and_iff_right short))

/-- A password that gives a record its tag is taken for the right one. -/
theorem verifyPassword_of_tag (nonempty : password ≠ []) (key : WrappedKey)
    (short : key.payloadSize ≤ Cipher.longest) (same :
      Gcm.tag (wrapper.encipherFor password key.salt) key.nonce key.header key.ciphertext =
        key.tag) : (wrapper.verifyPassword password key.toBytes).result = .ok true :=
  wrapper.verifyPassword_eq_true nonempty key.ofBytes_toBytes ⟨short, same⟩

/-- When exactly a password is refused for what was wrapped under another one. For the record of one
payload, which there is unless the payload is too long: when the tag that it gives is not the one of
the record; otherwise it is taken for the right one, and a password with the same block opens the
payload itself. For all payloads at once: when both passwords give the same hash key and encipher
the first counter differently. -/
theorem wrong_password_refused_iff (nonempty : password ≠ []) (nonempty' : other ≠ [])
    {supply : Supply} (enough : 28 ≤ supply.remaining.length) :
    ∃ (salt : Octets 16) (nonce : Octets 12) (own guessed : Cipher),
      supply.remaining.take 28 = salt.bytes ++ nonce.bytes ∧
      (wrapper.cipher password salt).result = .ok own ∧
      (wrapper.cipher other salt).result = .ok guessed ∧
      (∀ payload, ((∃ key, (wrapper.wrap password payload supply).1.result = .ok key) ↔
          payload.length ≤ Cipher.longest) ∧
        ∀ key, (wrapper.wrap password payload supply).1.result = .ok key →
        (wrapper.Fails other key.toBytes .authentication (.ok false) ↔
          Gcm.tag guessed.encipher nonce key.header key.ciphertext ≠ key.tag) ∧
        (Gcm.tag guessed.encipher nonce key.header key.ciphertext = key.tag →
          (wrapper.verifyPassword other key.toBytes).result = .ok true) ∧
        (Hmac.keyBlock other = Hmac.keyBlock password →
          (wrapper.unwrap other key.toBytes).result = .ok ⟨payload⟩)) ∧
      ((∀ payload key, (wrapper.wrap password payload supply).1.result = .ok key →
          wrapper.Fails other key.toBytes .authentication (.ok false)) ↔
        Gcm.hashKey guessed.encipher = Gcm.hashKey own.encipher ∧
          guessed.encipher (Gcm.firstCounter nonce) ≠
            own.encipher (Gcm.firstCounter nonce)) := by
  obtain ⟨salt, nonce, drawn, wraps⟩ := wrapper.exists_wrap_eq enough
  have ownCipher := wrapper.cipher_of_password nonempty salt
  have guessedCipher := wrapper.cipher_of_password nonempty' salt
  have wrapped {payload : Bytes} (fits : payload.length ≤ Cipher.longest) :
      (wrapper.wrap password payload supply).1.result =
        .ok (wrapper.record password payload salt nonce) := by
    rw [wraps password payload nonempty fits]
  refine ⟨salt, nonce, ⟨wrapper.keyFor password salt⟩, ⟨wrapper.keyFor other salt⟩, drawn,
    by rw [ownCipher], by rw [guessedCipher], ?_, ?_⟩
  · intro payload
    have takes := wrapper.exists_wrap_iff nonempty enough payload
    refine ⟨takes, ?_⟩
    intro key result
    have fits : payload.length ≤ Cipher.longest := takes.mp ⟨key, result⟩
    rw [wrapped fits] at result
    obtain rfl := Except.ok.inj result
    let key := wrapper.record password payload salt nonce
    have short : key.payloadSize ≤ Cipher.longest := by
      rw [payloadSize_record]
      exact fits
    refine ⟨?_, ?_, ?_⟩
    · rw [encipher_keyFor]
      exact wrapper.fails_iff_tag_ne nonempty' key short
    · rw [encipher_keyFor]
      exact wrapper.verifyPassword_of_tag nonempty' key short
    · intro same
      rw [unwrap_of_read wrapper (WrappedKey.ofBytes_toBytes _),
        wrapper.unwrapKey_of_keyBlock nonempty nonempty' same]
      exact wrapper.unwrapKey_record nonempty fits salt nonce
  · rw [encipher_keyFor, encipher_keyFor]
    refine Iff.trans ?_ (wrapper.forall_unrecognized_iff salt nonce)
    constructor
    · intro refused payload fits
      have fails := refused payload _ (wrapped fits)
      exact (wrapper.fails_iff_unrecognized nonempty' (WrappedKey.ofBytes_toBytes _)).mp fails
    · intro unrecognized payload key result
      have fits := (wrapper.exists_wrap_iff nonempty enough payload).mp ⟨key, result⟩
      rw [wrapped fits] at result
      obtain rfl := Except.ok.inj result
      exact (wrapper.fails_iff_unrecognized nonempty' (WrappedKey.ofBytes_toBytes _)).mpr
        (unrecognized payload fits)

/-- Under the usual wrapper a zero byte behind a password of one byte goes unnoticed. -/
theorem opens_with_zero_behind :
    ([0x61] : Bytes) ≠ [] ∧ ([0x61, 0] : Bytes) ≠ [] ∧
      28 ≤ (Supply.mk (List.replicate 28 0)).remaining.length ∧
      ∃ key, (standard.wrap [0x61] [0x62] ⟨List.replicate 28 0⟩).1.result = .ok key ∧
        (standard.unwrap [0x61, 0] key.toBytes).result = .ok ⟨[0x62]⟩ := by
  have nonempty : ([0x61] : Bytes) ≠ [] := by decide
  have nonempty' : ([0x61, 0] : Bytes) ≠ [] := by decide
  have enough : 28 ≤ (Supply.mk (List.replicate 28 0)).remaining.length := by decide
  have same : Hmac.keyBlock [0x61, 0] = Hmac.keyBlock [0x61] :=
    Hmac.keyBlock_append_zeros [0x61] 1 (by decide)
  obtain ⟨_, _, _, _, _, _, _, answers, _⟩ :=
    wrong_password_refused_iff standard nonempty nonempty' enough
  obtain ⟨wraps, met⟩ := answers [0x62]
  obtain ⟨key, wrapped⟩ := wraps.mpr (by decide)
  obtain ⟨_, _, opens⟩ := met key wrapped
  exact ⟨nonempty, nonempty', enough, key, wrapped, opens same⟩

/-- Not every other password is refused: with the quick parameters and zeros for the salt and the
nonce, the password of one byte and the same with a zero byte behind it open one record. -/
theorem other_password_accepted :
    let wrapper : Wrapper := ⟨.interactive, .standard, by decide⟩
    ([0x61, 0] : Bytes) ≠ [0x61] ∧
      ∃ key, (wrapper.wrap [0x61] [] ⟨List.replicate 28 0⟩).1.result = .ok key ∧
        (wrapper.unwrap [0x61, 0] key.toBytes).result = .ok ⟨[]⟩ ∧
        (wrapper.verifyPassword [0x61, 0] key.toBytes).result = .ok true := by
  intro wrapper
  have enough : 28 ≤ (Supply.mk (List.replicate 28 0)).remaining.length := by decide
  have same : Hmac.keyBlock [0x61, 0] = Hmac.keyBlock [0x61] :=
    Hmac.keyBlock_append_zeros [0x61] 1 (by decide)
  obtain ⟨salt, nonce, _, wraps⟩ := wrapper.exists_wrap_eq enough
  let key := wrapper.record [0x61] [] salt nonce
  have opened : (wrapper.unwrap [0x61, 0] key.toBytes).result = .ok ⟨[]⟩ := by
    rw [unwrap_of_read wrapper key.ofBytes_toBytes,
      wrapper.unwrapKey_of_keyBlock (by decide) (by decide) same]
    exact wrapper.unwrapKey_record (by decide) (Nat.zero_le _) salt nonce
  refine ⟨by decide, key, ?_, opened, ?_⟩
  · rw [wraps [0x61] [] (by decide) (Nat.zero_le _)]
  · rw [result_verifyPassword, opened]
    rfl

end Wrapper

end KeyWrapping
