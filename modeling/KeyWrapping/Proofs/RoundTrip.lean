import KeyWrapping.Proofs.Calls
/-!
# What opens is what was wrapped

A stored form opens to a payload under a password exactly when wrapping that payload under that
password, with the salt and the nonce of the stored form, writes the stored form again
(`unwrap_eq_ok_iff`). Opening is thus the inverse of wrapping and of nothing else: what is wrapped
opens, and a second stored form of one payload has another salt or another nonce. This needs no
condition on lengths, because opening refuses whatever holds more than wrapping takes. The floor of
a deriver has no part in it (`unwrap_congr`).
-/

namespace KeyWrapping

/-- The salt and the nonce of a record stand in its stored form behind the version. -/
theorem WrappedKey.take_drop_toBytes (key : WrappedKey) :
    (key.toBytes.drop 1).take 28 = key.salt.bytes ++ key.nonce.bytes := by
  have counted : (key.salt.bytes ++ key.nonce.bytes).length = 28 := by
    rw [List.length_append, key.salt.length_eq, key.nonce.length_eq]
  have behind : key.toBytes.drop 1 = (key.salt.bytes ++ key.nonce.bytes) ++ key.text.toBytes := rfl
  rw [behind, List.take_left' counted]

namespace Wrapper

variable (wrapper : Wrapper)

/-- Sealing gives a record exactly when there is a password, the payload is not too long and the
record is that of the payload. -/
theorem sealWith_eq_ok_iff (password payload : Bytes) (salt : Octets 16) (nonce : Octets 12)
    (key : WrappedKey) :
    (wrapper.sealWith password payload salt nonce).result = .ok key ↔
      password ≠ [] ∧ payload.length ≤ Cipher.longest ∧
        wrapper.record password payload salt nonce = key := by
  by_cases empty : password = []
  · rw [empty, sealWith_of_empty]
    simp
  by_cases fits : payload.length ≤ Cipher.longest
  · rw [sealWith_of_password wrapper empty fits]
    simp [empty, fits]
  · rw [sealWith_of_overlong wrapper empty (Nat.not_le.mp fits)]
    simp [fits]

/-- A record opens to a payload exactly when sealing the payload with the salt and the nonce of the
record gives the record. -/
theorem unwrapKey_eq_ok_iff (password payload : Bytes) (key : WrappedKey) :
    (wrapper.unwrapKey password key).result = .ok ⟨payload⟩ ↔
      (wrapper.sealWith password payload key.salt key.nonce).result = .ok key := by
  by_cases empty : password = []
  · rw [empty, unwrapKey_of_empty, sealWith_of_empty]
    simp
  let cipher : Cipher := ⟨wrapper.keyFor password key.salt⟩
  have opens : (wrapper.unwrapKey password key).result = .ok ⟨payload⟩ ↔
      cipher.openText key.nonce key.header key.text = .ok payload := by
    rw [unwrapKey, cipher_of_password wrapper empty, Traced.bind_ok rfl, openWith]
    cases cipher.openText key.nonce key.header key.text <;> simp
  have rebuilt : wrapper.record password payload key.salt key.nonce = key ↔
      Gcm.sealText cipher.encipher key.nonce key.header payload = key.text := by
    constructor
    · intro same
      exact congrArg WrappedKey.text same
    · intro same
      rw [record, ← encipher_keyFor, ← WrappedKey.header, same]
  rw [opens, Cipher.openText_eq_ok_iff, Cipher.sealText_eq_ok_iff, sealWith_eq_ok_iff, rebuilt,
    WrappedKey.header, Cipher.fits_headerOf_iff]
  exact (and_iff_right empty).symm

/-- The record of a payload that is not too long opens to it. -/
theorem unwrapKey_record {password payload : Bytes} (nonempty : password ≠ [])
    (fits : payload.length ≤ Cipher.longest) (salt : Octets 16) (nonce : Octets 12) :
    (wrapper.unwrapKey password (wrapper.record password payload salt nonce)).result =
      .ok ⟨payload⟩ := by
  rw [unwrapKey_eq_ok_iff, sealWith_eq_ok_iff]
  exact ⟨nonempty, fits, rfl⟩

/-- Wrapping with the salt and the nonce of a record seals with them. -/
theorem wrap_take_drop_toBytes (password payload : Bytes) (key : WrappedKey) :
    (wrapper.wrap password payload ⟨(key.toBytes.drop 1).take 28⟩).1 =
      wrapper.sealWith password payload key.salt key.nonce := by
  have drawn : ((key.toBytes.drop 1).take 28).take 28 = key.salt.bytes ++ key.nonce.bytes := by
    rw [List.take_take, Nat.min_self, key.take_drop_toBytes]
  rw [wrapper.wrap_of_drawn drawn]

/-- A stored form opens to a payload exactly when wrapping the payload with the salt and the nonce
of the stored form writes it again. -/
theorem unwrap_eq_ok_iff (password payload stored : Bytes) :
    (wrapper.unwrap password stored).result = .ok ⟨payload⟩ ↔
      ∃ key, (wrapper.wrap password payload ⟨(stored.drop 1).take 28⟩).1.result = .ok key ∧
        key.toBytes = stored := by
  constructor
  · intro opened
    cases read : WrappedKey.ofBytes stored with
    | error failure =>
      rw [unwrap_of_unread wrapper read] at opened
      contradiction
    | ok key =>
      rw [unwrap_of_read wrapper read, unwrapKey_eq_ok_iff] at opened
      obtain rfl := WrappedKey.toBytes_of_ofBytes read
      refine ⟨key, ?_, rfl⟩
      rw [wrap_take_drop_toBytes]
      exact opened
  · rintro ⟨key, wrapped, rfl⟩
    rw [wrap_take_drop_toBytes] at wrapped
    rw [unwrap_of_read wrapper key.ofBytes_toBytes, unwrapKey_eq_ok_iff]
    exact wrapped

/-- What opens is not too long to be wrapped again. -/
theorem length_le_of_unwrap {password stored : Bytes} {payload : Secret}
    (opened : (wrapper.unwrap password stored).result = .ok payload) :
    payload.bytes.length ≤ Cipher.longest := by
  cases read : WrappedKey.ofBytes stored with
  | error failure =>
    rw [unwrap_of_unread wrapper read] at opened
    contradiction
  | ok key =>
    rw [unwrap_of_read wrapper read] at opened
    exact ((wrapper.sealWith_eq_ok_iff _ _ _ _ _).mp
      ((wrapper.unwrapKey_eq_ok_iff password payload.bytes key).mp opened)).2.1

/-- A stored form opens alike under all wrappers with the same parameters. -/
theorem unwrap_congr {other : Wrapper} (equal : other.params = wrapper.params)
    (password stored : Bytes) : other.unwrap password stored = wrapper.unwrap password stored := by
  cases read : WrappedKey.ofBytes stored with
  | error failure => rw [unwrap_of_unread wrapper read, unwrap_of_unread other read]
  | ok key =>
    rw [unwrap_of_read wrapper read, unwrap_of_read other read, unwrapKey_congr wrapper equal]

/-- With enough to draw from, every payload that is not too long is wrapped under every password
into the record of what was drawn. -/
theorem exists_wrap_eq {supply : Supply} (enough : 28 ≤ supply.remaining.length) :
    ∃ salt nonce, supply.remaining.take 28 = salt.bytes ++ nonce.bytes ∧
      ∀ password payload, password ≠ [] → payload.length ≤ Cipher.longest →
        wrapper.wrap password payload supply =
          (⟨.ok (wrapper.record password payload salt nonce),
            [wrapper.derived, wrapper.sealedEvent payload.length]⟩,
            ⟨supply.remaining.drop 28⟩) := by
  obtain ⟨salt, nonce, drawn⟩ := Supply.exists_drawn enough
  refine ⟨salt, nonce, drawn, ?_⟩
  intro password payload nonempty fits
  rw [wrapper.wrap_of_drawn drawn, sealWith_of_password wrapper nonempty fits]

/-- With enough to draw from, a payload that is too long is refused under every password, behind the
draws and the derivation. -/
theorem wrap_of_overlong {password payload : Bytes} (nonempty : password ≠ [])
    (long : Cipher.longest < payload.length) {supply : Supply}
    (enough : 28 ≤ supply.remaining.length) :
    wrapper.wrap password payload supply =
      (⟨.error .sealing, [wrapper.derived]⟩, ⟨supply.remaining.drop 28⟩) := by
  obtain ⟨salt, nonce, drawn⟩ := Supply.exists_drawn enough
  rw [wrapper.wrap_of_drawn drawn, sealWith_of_overlong wrapper nonempty long]

/-- With a password and enough to draw from, just the payloads that are not too long are wrapped. -/
theorem exists_wrap_iff {password : Bytes} (nonempty : password ≠ []) {supply : Supply}
    (enough : 28 ≤ supply.remaining.length) (payload : Bytes) :
    (∃ key, (wrapper.wrap password payload supply).1.result = .ok key) ↔
      payload.length ≤ Cipher.longest := by
  constructor
  · rintro ⟨key, wrapped⟩
    by_contra long
    rw [wrapper.wrap_of_overlong nonempty (Nat.not_le.mp long) enough] at wrapped
    contradiction
  · intro fits
    obtain ⟨salt, nonce, _, wraps⟩ := wrapper.exists_wrap_eq enough
    rw [wraps password payload nonempty fits]
    exact ⟨_, rfl⟩

/-- What is wrapped is recognized under its password, opens to the payload and has its size. -/
theorem exists_wrapped {password payload : Bytes} (nonempty : password ≠ [])
    (fits : payload.length ≤ Cipher.longest) {supply : Supply}
    (enough : 28 ≤ supply.remaining.length) :
    ∃ key, (wrapper.wrap password payload supply).1.result = .ok key ∧
      wrapper.Recognizes password key ∧
      (wrapper.unwrap password key.toBytes).result = .ok ⟨payload⟩ ∧
      key.payloadSize = payload.length := by
  obtain ⟨salt, nonce, _, wraps⟩ := wrapper.exists_wrap_eq enough
  have size := wrapper.payloadSize_record password payload salt nonce
  refine ⟨wrapper.record password payload salt nonce, ?_, ⟨?_, rfl⟩, ?_, size⟩
  · rw [wraps password payload nonempty fits]
  · rw [size]
    exact fits
  · rw [unwrap_of_read wrapper (WrappedKey.ofBytes_toBytes _)]
    exact wrapper.unwrapKey_record nonempty fits salt nonce

/-- Opening and wrapping are inverse to each other. A stored form opens to a payload exactly when
it is what wrapping the payload writes on its own salt and nonce; a payload that is not too long is
wrapped and then opens to itself, from no other stored form with that salt and nonce; and a wrapped
key opens as its stored form does. The wrapper that opens may have another floor than the one that
wraps. -/
theorem unwrap_exactly_wrapped (other : Wrapper) (equal : other.params = wrapper.params)
    (password payload : Bytes) :
    (∀ stored, (other.unwrap password stored).result = .ok ⟨payload⟩ ↔
      ∃ key, (wrapper.wrap password payload ⟨(stored.drop 1).take 28⟩).1.result = .ok key ∧
        key.toBytes = stored) ∧
    (∀ supply : Supply, password ≠ [] → payload.length ≤ Cipher.longest →
      28 ≤ supply.remaining.length →
      ∃ key, (wrapper.wrap password payload supply).1.result = .ok key ∧
        (key.toBytes.drop 1).take 28 = supply.remaining.take 28 ∧
        (other.unwrap password key.toBytes).result = .ok ⟨payload⟩ ∧
        ∀ second, (second.drop 1).take 28 = (key.toBytes.drop 1).take 28 →
          (other.unwrap password second).result = .ok ⟨payload⟩ → second = key.toBytes) ∧
    ∀ stored key, WrappedKey.ofBytes stored = .ok key →
      other.unwrapKey password key = other.unwrap password stored := by
  have exactly (stored : Bytes) : (other.unwrap password stored).result = .ok ⟨payload⟩ ↔
      ∃ key, (wrapper.wrap password payload ⟨(stored.drop 1).take 28⟩).1.result = .ok key ∧
        key.toBytes = stored := by
    rw [unwrap_congr wrapper equal]
    exact wrapper.unwrap_eq_ok_iff password payload stored
  refine ⟨exactly, ?_, fun stored key read => (unwrap_of_read other read password).symm⟩
  intro supply nonempty fits enough
  obtain ⟨salt, nonce, drawn, wraps⟩ := wrapper.exists_wrap_eq enough
  have wrapped := wraps password payload nonempty fits
  let key := wrapper.record password payload salt nonce
  have inFront : (key.toBytes.drop 1).take 28 = salt.bytes ++ nonce.bytes := by
    rw [WrappedKey.take_drop_toBytes]
    rfl
  have again : (wrapper.wrap password payload ⟨(key.toBytes.drop 1).take 28⟩).1.result =
      .ok key := by
    rw [wrap_take_drop_toBytes, sealWith_eq_ok_iff]
    exact ⟨nonempty, fits, rfl⟩
  refine ⟨key, by rw [wrapped], by rw [inFront, drawn], ?_, ?_⟩
  · rw [exactly]
    exact ⟨key, again, rfl⟩
  · intro second same opened
    obtain ⟨written, rewritten, rfl⟩ := (exactly second).mp opened
    rw [same, again] at rewritten
    rw [Except.ok.inj rewritten]

/-- A wrapper with twice the lowest floor opens what the usual wrapper has wrapped. -/
theorem unwrap_under_raised_floor :
    let raised : Wrapper := ⟨.moderate, ⟨200000, by decide⟩, by decide⟩
    raised.params = standard.params ∧
      ∃ key, (standard.wrap [0x61] [0x62] ⟨List.replicate 28 0⟩).1.result = .ok key ∧
        (raised.unwrap [0x61] key.toBytes).result = .ok ⟨[0x62]⟩ := by
  intro raised
  have equal : raised.params = standard.params := rfl
  obtain ⟨key, wrapped, _, opened, _⟩ :=
    (unwrap_exactly_wrapped standard raised equal [0x61] [0x62]).2.1 ⟨List.replicate 28 0⟩
      (by decide) (by decide) (by decide)
  exact ⟨equal, key, wrapped, opened⟩

end Wrapper

end KeyWrapping
