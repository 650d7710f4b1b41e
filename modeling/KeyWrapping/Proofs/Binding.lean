import KeyWrapping.Proofs.BlockCipher
import KeyWrapping.Proofs.Refusals
/-!
# What a sealed text is bound to

Sealing and opening bytes under a key are inverse to each other: what opens to a plaintext is what
is sealed from it and nothing else (`openBytes_eq_ok_iff`), and everything else is refused alike.
What is too long is not sealed, and for a reason of its own (`sealBytes_of_not_fits`). A sealed text
opens under one nonce only, whatever the key, because no two counters are enciphered alike
(`sealText_nonce_eq`). Under other associated data of the same length that differ within one block it
is refused as well, unless the hash key is zero (`openText_of_changed_associated`).
-/

namespace KeyWrapping

namespace Gcm

/-- Where no two blocks are enciphered alike, one sealed text is not written under two nonces. -/
theorem sealText_nonce_eq {encipher : Block → Block} (apart : Function.Injective encipher)
    {first second : Octets 12} {associated plaintext other : Bytes}
    (same : sealText encipher first associated plaintext =
      sealText encipher second associated other) : first = second := by
  have ciphertexts : mask encipher first plaintext = mask encipher second other :=
    congrArg Sealed.ciphertext same
  have tags : tag encipher first associated (mask encipher first plaintext) =
      tag encipher second associated (mask encipher second other) := congrArg Sealed.tag same
  rw [ciphertexts] at tags
  exact tag_injective apart associated _ tags

/-- Under associated data changed inside one block a sealed text opens exactly when the hash key is
zero. -/
theorem openText_of_changed_associated (encipher : Block → Block) (nonce : Octets 12)
    (plaintext : Bytes) {associated changed : Bytes} {place : Nat}
    (counted : associated.length = changed.length)
    (agree : AgreeOutside (16 * place) 16 associated changed) (differ : associated ≠ changed) :
    openText encipher nonce changed (sealText encipher nonce associated plaintext) =
      if hashKey encipher = Block.zero then some plaintext else none := by
  let text := sealText encipher nonce associated plaintext
  have kept : text.tag = tag encipher nonce changed text.ciphertext ↔
      hashKey encipher = Block.zero :=
    tag_changed_associated_iff encipher nonce text.ciphertext counted agree differ
  have unmasked : mask encipher nonce text.ciphertext = plaintext :=
    mask_mask encipher nonce plaintext
  change openText encipher nonce changed text = _
  split
  · next zero => rw [openText_of_tag encipher (kept.mpr zero).symm, unmasked]
  · next nonzero => exact openText_of_tag_ne encipher fun same => nonzero (kept.mp same.symm)

end Gcm

namespace Cipher

/-- Every string of one of the two lengths is the key of a cipher. -/
theorem exists_ofKey {key : Bytes} (sized : key.length = 16 ∨ key.length = 32) :
    ∃ cipher, ofKey key = .ok cipher ∧ cipher.key.bytes = key := by
  rcases sized with short | long
  · refine ⟨⟨.short ⟨key, short⟩⟩, ?_, rfl⟩
    rw [ofKey, Aes.Key.ofBytes?, dif_pos short]
  · have other : key.length ≠ 16 := by omega
    refine ⟨⟨.long ⟨key, long⟩⟩, ?_, rfl⟩
    rw [ofKey, Aes.Key.ofBytes?, dif_neg other, dif_pos long]

/-- No two blocks are enciphered alike by a cipher. -/
theorem encipher_injective (cipher : Cipher) : Function.Injective cipher.encipher :=
  Aes.encipher_injective cipher.key

variable (cipher : Cipher) (nonce : Octets 12) (associated : Option Bytes)

/-- The written form of a sealed text is opened as the text is. -/
theorem openBytes_toBytes (text : Gcm.Sealed) :
    cipher.openBytes nonce associated text.toBytes =
      cipher.openText nonce (associated.getD []) text := by
  rw [openBytes, Gcm.Sealed.ofBytes?_toBytes]

/-- What is sealed into bytes is the written form of a sealed text. -/
theorem sealBytes_eq_ok_iff (plaintext sealedBytes : Bytes) :
    cipher.sealBytes nonce associated plaintext = .ok sealedBytes ↔
      ∃ text, cipher.sealText nonce (associated.getD []) plaintext = .ok text ∧
        text.toBytes = sealedBytes := by
  rw [sealBytes]
  cases cipher.sealText nonce (associated.getD []) plaintext with
  | ok text => simp [Except.map]
  | error failure => simp [Except.map]

/-- Bytes open to a plaintext exactly when they are sealed from it. -/
theorem openBytes_eq_ok_iff (sealedBytes plaintext : Bytes) :
    cipher.openBytes nonce associated sealedBytes = .ok plaintext ↔
      cipher.sealBytes nonce associated plaintext = .ok sealedBytes := by
  rw [sealBytes_eq_ok_iff]
  constructor
  · intro opened
    cases read : Gcm.Sealed.ofBytes? sealedBytes with
    | none =>
      rw [openBytes, read] at opened
      contradiction
    | some text =>
      obtain rfl := Gcm.Sealed.toBytes_of_ofBytes? read
      rw [openBytes_toBytes, openText_eq_ok_iff] at opened
      exact ⟨text, opened, rfl⟩
  · rintro ⟨text, written, rfl⟩
    rw [openBytes_toBytes, openText_eq_ok_iff]
    exact written

/-- There is one way not to open. -/
theorem openBytes_eq_error {sealedBytes : Bytes} {failure : Failure}
    (failed : cipher.openBytes nonce associated sealedBytes = .error failure) :
    failure = .authentication := by
  unfold openBytes openText at failed
  split at failed
  · split at failed
    · split at failed
      · contradiction
      · exact (Except.error.inj failed).symm
    · exact (Except.error.inj failed).symm
  · exact (Except.error.inj failed).symm

/-- What is not sealed from anything is refused. -/
theorem openBytes_of_unsealed {sealedBytes : Bytes}
    (unsealed : ∀ plaintext, cipher.sealBytes nonce associated plaintext ≠ .ok sealedBytes) :
    RefusedAs (cipher.openBytes nonce associated sealedBytes) .authentication
      "AuthenticationFailed" 3001 := by
  cases result : cipher.openBytes nonce associated sealedBytes with
  | ok plaintext =>
    rw [openBytes_eq_ok_iff] at result
    exact absurd result (unsealed plaintext)
  | error failure =>
    obtain rfl := cipher.openBytes_eq_error nonce associated result
    exact ⟨rfl, rfl, rfl⟩

/-- A sealed text is sixteen bytes longer than its plaintext. -/
theorem length_of_sealBytes {plaintext sealedBytes : Bytes}
    (written : cipher.sealBytes nonce associated plaintext = .ok sealedBytes) :
    sealedBytes.length = plaintext.length + 16 := by
  obtain ⟨text, sealedAs, rfl⟩ := (cipher.sealBytes_eq_ok_iff _ _ _ _).mp written
  obtain ⟨_, rfl⟩ := sealText_eq_ok_iff.mp sealedAs
  rw [Gcm.Sealed.length_toBytes, Gcm.sealText, Gcm.length_mask]

/-- What is not too long is sealed. -/
theorem exists_sealBytes {plaintext : Bytes} (fits : Fits (associated.getD []) plaintext) :
    ∃ sealedBytes, cipher.sealBytes nonce associated plaintext = .ok sealedBytes ∧
      sealedBytes.length = plaintext.length + 16 := by
  have written : cipher.sealBytes nonce associated plaintext =
      .ok (Gcm.sealText cipher.encipher nonce (associated.getD []) plaintext).toBytes := by
    rw [sealBytes, sealText_of_fits fits]
    rfl
  exact ⟨_, written, cipher.length_of_sealBytes nonce associated written⟩

/-- What is too long is not sealed, and the refusal is reported as one of the cipher. -/
theorem sealBytes_of_not_fits {plaintext : Bytes} (long : ¬Fits (associated.getD []) plaintext) :
    RefusedAs (cipher.sealBytes nonce associated plaintext) .sealing "AesError" 5001 := by
  refine ⟨?_, rfl, rfl⟩
  rw [sealBytes, sealText_of_not_fits long]
  rfl

/-- A string too short to hold a tag is refused. -/
theorem openBytes_of_short {sealedBytes : Bytes} (short : sealedBytes.length < 16) :
    RefusedAs (cipher.openBytes nonce associated sealedBytes) .authentication
      "AuthenticationFailed" 3001 := by
  apply openBytes_of_unsealed
  intro plaintext written
  have counted := cipher.length_of_sealBytes nonce associated written
  omega

/-- Sealed bytes open under one nonce at most. -/
theorem nonce_eq_of_openBytes {associated : Option Bytes} {sealedBytes plaintext other : Bytes}
    {first second : Octets 12}
    (opened : cipher.openBytes first associated sealedBytes = .ok plaintext)
    (again : cipher.openBytes second associated sealedBytes = .ok other) : first = second := by
  rw [openBytes_eq_ok_iff, sealBytes_eq_ok_iff] at opened again
  obtain ⟨text, sealedFirst, rfl⟩ := opened
  obtain ⟨text', sealedSecond, written⟩ := again
  have texts := congrArg Gcm.Sealed.ofBytes? written
  rw [Gcm.Sealed.ofBytes?_toBytes, Gcm.Sealed.ofBytes?_toBytes, Option.some.injEq] at texts
  obtain ⟨_, computed⟩ := sealText_eq_ok_iff.mp sealedFirst
  obtain ⟨_, computed'⟩ := sealText_eq_ok_iff.mp sealedSecond
  exact Gcm.sealText_nonce_eq cipher.encipher_injective
    (computed.trans (texts.symm.trans computed'.symm))

/-- Bytes sealed under one nonce are refused under every other. -/
theorem openBytes_of_other_nonce {associated : Option Bytes} {first second : Octets 12}
    (differ : first ≠ second) {plaintext sealedBytes : Bytes}
    (written : cipher.sealBytes first associated plaintext = .ok sealedBytes) :
    RefusedAs (cipher.openBytes second associated sealedBytes) .authentication
      "AuthenticationFailed" 3001 := by
  apply openBytes_of_unsealed
  intro other same
  have opened := (cipher.openBytes_eq_ok_iff first associated _ plaintext).mpr written
  have again := (cipher.openBytes_eq_ok_iff second associated _ other).mpr same
  exact differ (cipher.nonce_eq_of_openBytes opened again)

/-- Under associated data changed inside one block sealed bytes open exactly when the hash key is
zero. -/
theorem openBytes_of_changed_associated {associated changed plaintext sealedBytes : Bytes}
    (written : cipher.sealBytes nonce (some associated) plaintext = .ok sealedBytes) {place : Nat}
    (counted : associated.length = changed.length)
    (agree : AgreeOutside (16 * place) 16 associated changed) (differ : associated ≠ changed) :
    cipher.openBytes nonce (some changed) sealedBytes =
      if Gcm.hashKey cipher.encipher = Block.zero then .ok plaintext
      else .error .authentication := by
  have opened := Gcm.openText_of_changed_associated cipher.encipher nonce plaintext counted agree
    differ
  obtain ⟨text, sealedAs, rfl⟩ := (cipher.sealBytes_eq_ok_iff _ _ _ _).mp written
  obtain ⟨⟨short, fits⟩, rfl⟩ := sealText_eq_ok_iff.mp sealedAs
  have still : Fits changed (Gcm.mask cipher.encipher nonce plaintext) := by
    refine fits_mask_iff.mpr ⟨?_, fits⟩
    rw [← counted]
    exact short
  rw [openBytes_toBytes, Option.getD_some, Option.getD_some, openText, opened]
  refine (if_pos still).trans ?_
  by_cases zero : Gcm.hashKey cipher.encipher = Block.zero
  · simp only [if_pos zero]
  · simp only [if_neg zero]

/-- Unless the hash key is zero, sealed bytes are refused under associated data with another byte
in one place. -/
theorem openBytes_of_set_associated (nonzero : Gcm.hashKey cipher.encipher ≠ Block.zero)
    {associated plaintext sealedBytes : Bytes}
    (written : cipher.sealBytes nonce (some associated) plaintext = .ok sealedBytes) {index : Nat}
    {byte : UInt8} (inside : index < associated.length)
    (other : associated[index]? ≠ some byte) :
    RefusedAs (cipher.openBytes nonce (some (associated.set index byte)) sealedBytes)
      .authentication "AuthenticationFailed" 3001 := by
  have counted : associated.length = (associated.set index byte).length := by
    rw [List.length_set]
  have agree : AgreeOutside (16 * (index / 16)) 16 associated (associated.set index byte) :=
    (AgreeOutside.set associated index byte).widen (by omega) (by omega)
  have differ : associated ≠ associated.set index byte := by
    intro same
    apply other
    rw [same, List.getElem?_set_self inside]
  refine ⟨?_, rfl, rfl⟩
  rw [cipher.openBytes_of_changed_associated nonce written counted agree differ, if_neg nonzero]

/-- Under every key of one of the two lengths opening is the inverse of sealing: a string opens to a
plaintext exactly when it is what sealing the plaintext writes, and every other string, such as one
without room for a tag, is refused as a wrong tag is. Within the lengths that the cipher takes
something is written, sixteen bytes longer than the plaintext, and beyond them sealing is refused.
No associated data and empty ones are the same. -/
theorem opens_exactly_sealed {key : Bytes} (sized : key.length = 16 ∨ key.length = 32) :
    ∃ cipher, ofKey key = .ok cipher ∧ ∀ (nonce : Octets 12) (associated : Option Bytes),
      (∀ sealedBytes plaintext,
        cipher.openBytes nonce associated sealedBytes = .ok plaintext ↔
          cipher.sealBytes nonce associated plaintext = .ok sealedBytes) ∧
      (∀ sealedBytes,
        (∀ plaintext, cipher.sealBytes nonce associated plaintext ≠ .ok sealedBytes) →
          RefusedAs (cipher.openBytes nonce associated sealedBytes) .authentication
            "AuthenticationFailed" 3001) ∧
      (∀ sealedBytes, sealedBytes.length < 16 →
        RefusedAs (cipher.openBytes nonce associated sealedBytes) .authentication
          "AuthenticationFailed" 3001) ∧
      (∀ plaintext, Fits (associated.getD []) plaintext →
        ∃ sealedBytes, cipher.sealBytes nonce associated plaintext = .ok sealedBytes ∧
          sealedBytes.length = plaintext.length + 16) ∧
      (∀ plaintext, ¬Fits (associated.getD []) plaintext →
        RefusedAs (cipher.sealBytes nonce associated plaintext) .sealing "AesError" 5001) ∧
      ∀ bytes, cipher.sealBytes nonce none bytes = cipher.sealBytes nonce (some []) bytes ∧
        cipher.openBytes nonce none bytes = cipher.openBytes nonce (some []) bytes := by
  obtain ⟨cipher, keyed, _⟩ := exists_ofKey sized
  refine ⟨cipher, keyed, fun nonce associated => ⟨?_, ?_, ?_, ?_, ?_, ?_⟩⟩
  · exact cipher.openBytes_eq_ok_iff nonce associated
  · exact fun _ => cipher.openBytes_of_unsealed nonce associated
  · exact fun _ => cipher.openBytes_of_short nonce associated
  · exact fun _ => cipher.exists_sealBytes nonce associated
  · exact fun _ => cipher.sealBytes_of_not_fits nonce associated
  · exact fun _ => ⟨rfl, rfl⟩

/-- Under the key of sixteen zeros one byte is sealed and opened again, and fifteen bytes are not
opened. -/
theorem zero_key_reopens :
    let key : Bytes := List.replicate 16 0
    let nonce : Octets 12 := ⟨List.replicate 12 0, rfl⟩
    (key.length = 16 ∨ key.length = 32) ∧ ∃ cipher sealedBytes, ofKey key = .ok cipher ∧
      cipher.sealBytes nonce none [0x62] = .ok sealedBytes ∧
      cipher.openBytes nonce none sealedBytes = .ok [0x62] ∧
      RefusedAs (cipher.openBytes nonce none (List.replicate 15 0)) .authentication
        "AuthenticationFailed" 3001 := by
  intro key nonce
  have sized : key.length = 16 ∨ key.length = 32 := by decide
  obtain ⟨cipher, keyed, exactly⟩ := opens_exactly_sealed sized
  obtain ⟨opens, _, short, seals, _⟩ := exactly nonce none
  obtain ⟨sealedBytes, written, _⟩ := seals [0x62] (by decide)
  exact ⟨sized, cipher, sealedBytes, keyed, written, (opens _ _).mpr written,
    short _ (by decide)⟩

/-- Under every key of one of the two lengths a string opens under one nonce at most, whatever the
associated data; so what is sealed under one nonce is refused under every other one. -/
theorem opens_under_one_nonce {key : Bytes} (sized : key.length = 16 ∨ key.length = 32) :
    ∃ cipher, ofKey key = .ok cipher ∧ ∀ associated : Option Bytes,
      (∀ (sealedBytes plaintext other : Bytes) (first second : Octets 12),
        cipher.openBytes first associated sealedBytes = .ok plaintext →
          cipher.openBytes second associated sealedBytes = .ok other → first = second) ∧
      ∀ (plaintext sealedBytes : Bytes) (first second : Octets 12), first ≠ second →
        cipher.sealBytes first associated plaintext = .ok sealedBytes →
        RefusedAs (cipher.openBytes second associated sealedBytes) .authentication
          "AuthenticationFailed" 3001 := by
  obtain ⟨cipher, keyed, _⟩ := exists_ofKey sized
  refine ⟨cipher, keyed, fun associated => ⟨?_, ?_⟩⟩
  · intro sealedBytes plaintext other first second opened again
    exact cipher.nonce_eq_of_openBytes opened again
  · intro plaintext sealedBytes first second differ written
    exact cipher.openBytes_of_other_nonce differ written

/-- Under the key of thirty-two zeros, what is sealed under the nonce of zeros is refused under the
nonce of ones. -/
theorem zero_key_refuses_other_nonce :
    let key : Bytes := List.replicate 32 0
    let zeros : Octets 12 := ⟨List.replicate 12 0, rfl⟩
    let ones : Octets 12 := ⟨List.replicate 12 1, rfl⟩
    (key.length = 16 ∨ key.length = 32) ∧ ∃ cipher sealedBytes, ofKey key = .ok cipher ∧
      cipher.sealBytes zeros none [0x62] = .ok sealedBytes ∧
      RefusedAs (cipher.openBytes ones none sealedBytes) .authentication
        "AuthenticationFailed" 3001 := by
  intro key zeros ones
  have sized : key.length = 16 ∨ key.length = 32 := by decide
  obtain ⟨cipher, keyed, bound⟩ := opens_under_one_nonce sized
  have fits : Fits ((none : Option Bytes).getD []) [0x62] := by decide
  obtain ⟨sealedBytes, written, _⟩ := cipher.exists_sealBytes zeros none fits
  exact ⟨sized, cipher, sealedBytes, keyed, written,
    (bound none).2 [0x62] sealedBytes zeros ones (by decide) written⟩

/-- Under every key of one of the two lengths, what is sealed with associated data is refused with
others of the same length that differ inside one block exactly when the enciphered block of zeros is
not zero, and opens to the plaintext otherwise. In particular a record is refused with any one byte
of its header changed, unless the enciphered block of zeros is zero. -/
theorem associated_change_refused_iff {key : Bytes} (sized : key.length = 16 ∨ key.length = 32) :
    ∃ cipher, ofKey key = .ok cipher ∧ ∀ (nonce : Octets 12) (plaintext sealedBytes : Bytes),
      (∀ (associated changed : Bytes) (place : Nat),
        cipher.sealBytes nonce (some associated) plaintext = .ok sealedBytes →
        changed.length = associated.length → changed ≠ associated →
        AgreeOutside (16 * place) 16 associated changed →
        (RefusedAs (cipher.openBytes nonce (some changed) sealedBytes) .authentication
            "AuthenticationFailed" 3001 ↔
          cipher.encipher Block.zero ≠ Block.zero) ∧
        (cipher.encipher Block.zero = Block.zero →
          cipher.openBytes nonce (some changed) sealedBytes = .ok plaintext)) ∧
      (cipher.encipher Block.zero ≠ Block.zero → ∀ (salt : Octets 16) (index : Nat) (byte : UInt8),
        cipher.sealBytes nonce (some (WrappedKey.headerOf salt nonce)) plaintext =
          .ok sealedBytes →
        index < 29 → (WrappedKey.headerOf salt nonce)[index]? ≠ some byte →
          RefusedAs (cipher.openBytes nonce
            (some ((WrappedKey.headerOf salt nonce).set index byte)) sealedBytes)
            .authentication "AuthenticationFailed" 3001) := by
  obtain ⟨cipher, keyed, _⟩ := exists_ofKey sized
  refine ⟨cipher, keyed, fun nonce plaintext sealedBytes => ⟨?_, ?_⟩⟩
  · intro associated changed place written counted differ agree
    have opened := cipher.openBytes_of_changed_associated nonce written counted.symm agree
      differ.symm
    rw [Gcm.hashKey] at opened
    constructor
    · constructor
      · intro refused zero
        have failed := refused.failed
        rw [opened, if_pos zero] at failed
        contradiction
      · intro nonzero
        refine ⟨?_, rfl, rfl⟩
        rw [opened, if_neg nonzero]
    · intro zero
      rw [opened, if_pos zero]
  · intro nonzero salt index byte written inside other
    have counted : (WrappedKey.headerOf salt nonce).length = 29 := WrappedKey.length_headerOf _ _
    exact cipher.openBytes_of_set_associated nonce nonzero written (by rwa [counted]) other

/-- Under the key of sixteen zeros the hash key is not zero, so a header with two for its version is
refused. -/
theorem zero_key_refuses_other_version :
    let key : Bytes := List.replicate 16 0
    let salt : Octets 16 := ⟨List.replicate 16 0, rfl⟩
    let nonce : Octets 12 := ⟨List.replicate 12 0, rfl⟩
    let header := WrappedKey.headerOf salt nonce
    (key.length = 16 ∨ key.length = 32) ∧ ∃ cipher sealedBytes, ofKey key = .ok cipher ∧
      cipher.encipher Block.zero ≠ Block.zero ∧
      cipher.sealBytes nonce (some header) [0x62] = .ok sealedBytes ∧
      RefusedAs (cipher.openBytes nonce (some (header.set 0 2)) sealedBytes) .authentication
        "AuthenticationFailed" 3001 := by
  intro key salt nonce header
  have sized : key.length = 16 ∨ key.length = 32 := by decide
  obtain ⟨cipher, keyed, bound⟩ := associated_change_refused_iff sized
  have nonzero : cipher.encipher Block.zero ≠ Block.zero := by
    obtain rfl := Except.ok.inj keyed
    decide +kernel
  have fits : Fits ((some header).getD []) [0x62] := by decide
  obtain ⟨sealedBytes, written, _⟩ := cipher.exists_sealBytes nonce (some header) fits
  exact ⟨sized, cipher, sealedBytes, keyed, nonzero, written,
    (bound nonce [0x62] sealedBytes).2 nonzero salt 0 2 written (by decide) (by decide)⟩

end Cipher

end KeyWrapping
