import KeyWrapping.Wrapper
import KeyWrapping.Proofs.Sealing
/-!
# What each call of a wrapper does

One law for each operation of a wrapper, by the cases that its callers can tell apart; everything
proved about calls is proved from these laws. A wrapper never asks its deriver for parameters that
it refuses, so the only argument that a derivation can refuse is an empty password. Beside that, a
call that seals gives the record of its arguments and of what was drawn (`sealWith_of_password`),
unless the payload is longer than the cipher takes (`sealWith_of_overlong`), and a call that opens
asks whether the record is recognized (`unwrapKey_of_recognized`, `unwrapKey_of_unrecognized`). What
fails to open fails in every other use too (`fails_of_unwrap`).
-/

namespace KeyWrapping

/-- The two lengths of keys are the lengths of keys of the block cipher. -/
theorem Aes.Key.ofBytes?_bytes (key : Aes.Key) : Aes.Key.ofBytes? key.bytes = some key := by
  cases key with
  | short octets => simp [Aes.Key.ofBytes?, Aes.Key.bytes, octets.length_eq]
  | long octets => simp [Aes.Key.ofBytes?, Aes.Key.bytes, octets.length_eq]

/-- A supply of twenty-eight bytes begins with a salt and a nonce. -/
theorem Supply.exists_drawn {supply : Supply} (enough : 28 ≤ supply.remaining.length) :
    ∃ (salt : Octets 16) (nonce : Octets 12),
      supply.remaining.take 28 = salt.bytes ++ nonce.bytes := by
  refine ⟨Octets.slice supply.remaining 0 16 (by omega), Octets.slice supply.remaining 16 12 enough,
    ?_⟩
  simp only [Octets.slice, List.drop_zero]
  exact List.take_add (i := 16) (j := 12)

/-- A header is short, so together with one a text is taken exactly when it is not too long. -/
theorem Cipher.fits_headerOf_iff {salt : Octets 16} {nonce : Octets 12} {text : Bytes} :
    Fits (WrappedKey.headerOf salt nonce) text ↔ text.length ≤ longest := by
  rw [Fits, WrappedKey.length_headerOf]
  exact and_iff_right (by decide)

namespace WrappedKey

variable {bytes : Bytes}

/-- A string shorter than every stored form is refused for its length. -/
theorem ofBytes_of_short (short : bytes.length < leastSize) :
    ofBytes bytes = .error (.recordTooShort bytes.length) := by
  rw [ofBytes, dif_neg (Nat.not_le.mpr short)]

/-- A long enough string with another first byte is refused for its version. -/
theorem ofBytes_of_unknown (long : leastSize ≤ bytes.length) {first : UInt8}
    (starts : bytes.head? = some first) (unknown : first ≠ version) :
    ofBytes bytes = .error (.unknownVersion first) := by
  obtain ⟨rest, rfl⟩ := List.head?_eq_some_iff.mp starts
  rw [ofBytes, dif_pos long]
  exact if_neg unknown

/-- A long enough string of the version in use is read, into a record of its size. -/
theorem exists_ofBytes (long : leastSize ≤ bytes.length) (starts : bytes.head? = some version) :
    ∃ key, ofBytes bytes = .ok key ∧ key.size = bytes.length := by
  obtain ⟨rest, rfl⟩ := List.head?_eq_some_iff.mp starts
  obtain ⟨key, read⟩ : ∃ key, ofBytes (version :: rest) = .ok key := by
    rw [ofBytes, dif_pos long]
    exact ⟨_, if_pos rfl⟩
  exact ⟨key, read, by rw [size, toBytes_of_ofBytes read]⟩

end WrappedKey

namespace Deriver

variable {deriver : Deriver} {params : Params}

/-- Accepted iterations pass their check. -/
theorem checkIterations_of_accepts (accepted : deriver.Accepts params) :
    deriver.checkIterations params.iterations = .ok () := by
  rw [checkIterations, if_pos accepted.1]

/-- An accepted key length passes its check. -/
theorem checkKeyLength_of_accepts (accepted : deriver.Accepts params) :
    checkKeyLength params.keyLength = .ok () := by
  rw [checkKeyLength, if_pos accepted.2]

/-- Without a password nothing is derived and nothing is logged. -/
theorem deriveFor_of_empty (salt : Bytes) :
    deriver.deriveFor [] salt params = ⟨.error .emptyPassword, []⟩ := rfl

/-- With accepted parameters every password and salt give a key. -/
theorem deriveFor_of_password (accepted : deriver.Accepts params) {password : Bytes}
    (nonempty : password ≠ []) (salt : Octets 16) :
    deriver.deriveFor password salt.bytes params =
      ⟨.ok ⟨Pbkdf2.stretch password salt.bytes params.iterations.toNat params.keyLength.toNat⟩,
        [.derivation params.keyLength.toNat params.iterations.toNat]⟩ := by
  have password_ok : checkPassword password = .ok () := by
    rw [checkPassword, if_neg]
    simpa using nonempty
  have salt_ok : checkSalt salt.bytes = .ok () := by
    rw [checkSalt, if_pos]
    exact salt.length_eq
  rw [deriveFor, derive, password_ok, salt_ok, checkIterations_of_accepts accepted,
    checkKeyLength_of_accepts accepted]
  rfl

end Deriver

namespace Wrapper

/-- Every wrapper is the one built over a deriver with its floor and from its parameters. -/
theorem exists_withDeriver (wrapper : Wrapper) :
    ∃ deriver, Deriver.withFloor wrapper.deriver.floor = .ok deriver ∧
      withDeriver wrapper.params deriver = .ok wrapper := by
  refine ⟨wrapper.deriver, dif_pos wrapper.deriver.lowest_le_floor, ?_⟩
  unfold withDeriver
  split
  · rfl
  · next checked =>
    rw [(Deriver.validate_eq_ok_iff _ _).mpr wrapper.accepted] at checked
    contradiction

variable (wrapper : Wrapper)

/-- The key that a password and a salt give under the parameters of a wrapper. -/
def keyFor (password : Bytes) (salt : Octets 16) : Aes.Key :=
  let iterations := wrapper.params.iterations.toNat
  if wrapper.params.keyLength = 16 then
    .short ⟨Pbkdf2.stretch password salt.bytes iterations 16,
      Pbkdf2.length_stretch _ _ _ _ (by decide)⟩
  else
    .long ⟨Pbkdf2.stretch password salt.bytes iterations 32,
      Pbkdf2.length_stretch _ _ _ _ (by decide)⟩

/-- The key is the stretched password, as long as the parameters say. -/
theorem bytes_keyFor (password : Bytes) (salt : Octets 16) :
    (wrapper.keyFor password salt).bytes =
      Pbkdf2.stretch password salt.bytes wrapper.params.iterations.toNat
        wrapper.params.keyLength.toNat := by
  rcases wrapper.accepted.2 with short | long
  · simp [keyFor, short, Aes.Key.bytes]
  · simp [keyFor, long, Aes.Key.bytes]

/-- The function on blocks that a password and a salt choose. -/
def encipherFor (password : Bytes) (salt : Octets 16) : Block → Block :=
  Aes.encipher (wrapper.keyFor password salt)

/-- The cipher under the key of a password and a salt applies the function that they choose. -/
theorem encipher_keyFor (password : Bytes) (salt : Octets 16) :
    Cipher.encipher ⟨wrapper.keyFor password salt⟩ = wrapper.encipherFor password salt := rfl

/-- The hash key of a password and a salt. -/
def hashKeyFor (password : Bytes) (salt : Octets 16) : Block :=
  Gcm.hashKey (wrapper.encipherFor password salt)

/-- The event of a derivation under the parameters of a wrapper. -/
def derived : Event :=
  .derivation wrapper.params.keyLength.toNat wrapper.params.iterations.toNat

/-- The event of sealing a payload of some length. -/
def sealedEvent (count : Nat) : Event :=
  .wrapped count (wrapper.params.keyLength.toNat * 8) wrapper.params.iterations.toNat

/-- Without a password there is no cipher. -/
theorem cipher_of_empty (salt : Octets 16) :
    wrapper.cipher [] salt = ⟨.error .emptyPassword, []⟩ := by
  rw [cipher, Deriver.deriveFor_of_empty]
  exact Traced.bind_error rfl _

/-- Every password and salt give a cipher. -/
theorem cipher_of_password {password : Bytes} (nonempty : password ≠ []) (salt : Octets 16) :
    wrapper.cipher password salt = ⟨.ok ⟨wrapper.keyFor password salt⟩, [wrapper.derived]⟩ := by
  have key := Deriver.deriveFor_of_password wrapper.accepted nonempty salt
  rw [cipher, key, Traced.bind_ok rfl, ← bytes_keyFor, Cipher.ofKey, Aes.Key.ofBytes?_bytes]
  rfl

/-- The record of a payload with a salt and a nonce. -/
def record (password payload : Bytes) (salt : Octets 16) (nonce : Octets 12) : WrappedKey :=
  ⟨salt, nonce, Gcm.sealText (wrapper.encipherFor password salt) nonce
    (WrappedKey.headerOf salt nonce) payload⟩

/-- The record of a payload is as long as the payload, apart from what every record has. -/
@[simp] theorem payloadSize_record (password payload : Bytes) (salt : Octets 16)
    (nonce : Octets 12) :
    (wrapper.record password payload salt nonce).payloadSize = payload.length :=
  Gcm.length_mask _ _ _

/-- Without a password nothing is sealed. -/
theorem sealWith_of_empty (payload : Bytes) (salt : Octets 16) (nonce : Octets 12) :
    wrapper.sealWith [] payload salt nonce = ⟨.error .emptyPassword, []⟩ := by
  rw [sealWith, cipher_of_empty]
  exact Traced.bind_error rfl _

/-- Under every password a payload of a length that the cipher takes is sealed into its record. -/
theorem sealWith_of_password {password payload : Bytes} (nonempty : password ≠ [])
    (fits : payload.length ≤ Cipher.longest) (salt : Octets 16) (nonce : Octets 12) :
    wrapper.sealWith password payload salt nonce =
      ⟨.ok (wrapper.record password payload salt nonce),
        [wrapper.derived, wrapper.sealedEvent payload.length]⟩ := by
  rw [sealWith, cipher_of_password wrapper nonempty, Traced.bind_ok rfl,
    Cipher.sealText_of_fits (Cipher.fits_headerOf_iff.mpr fits)]
  rfl

/-- Under every password a longer payload is refused by the cipher, and no sealing is logged. -/
theorem sealWith_of_overlong {password payload : Bytes} (nonempty : password ≠ [])
    (long : Cipher.longest < payload.length) (salt : Octets 16) (nonce : Octets 12) :
    wrapper.sealWith password payload salt nonce = ⟨.error .sealing, [wrapper.derived]⟩ := by
  have refused : ¬Cipher.Fits (WrappedKey.headerOf salt nonce) payload :=
    mt Cipher.fits_headerOf_iff.mp (Nat.not_le.mpr long)
  rw [sealWith, cipher_of_password wrapper nonempty, Traced.bind_ok rfl,
    Cipher.sealText_of_not_fits refused]
  rfl

/-- The salt and the nonce are the first twenty-eight bytes of the supply. -/
theorem wrap_of_drawn {supply : Supply} {salt : Octets 16} {nonce : Octets 12}
    (drawn : supply.remaining.take 28 = salt.bytes ++ nonce.bytes) (password payload : Bytes) :
    wrapper.wrap password payload supply =
      (wrapper.sealWith password payload salt nonce, ⟨supply.remaining.drop 28⟩) := by
  have parts : supply = ⟨salt.bytes ++ (nonce.bytes ++ supply.remaining.drop 28)⟩ := by
    rw [← List.append_assoc, ← drawn, List.take_append_drop]
  calc
    wrapper.wrap password payload supply
      = wrapper.wrap password payload
          ⟨salt.bytes ++ (nonce.bytes ++ supply.remaining.drop 28)⟩ := by rw [← parts]
    _ = (wrapper.sealWith password payload salt nonce, ⟨supply.remaining.drop 28⟩) := by
        simp only [wrap, Supply.draw_append]

/-- Wrapping looks at twenty-eight bytes of the supply and leaves the others. -/
theorem wrap_take {supply : Supply} (enough : 28 ≤ supply.remaining.length)
    (password payload : Bytes) :
    wrapper.wrap password payload supply =
      ((wrapper.wrap password payload ⟨supply.remaining.take 28⟩).1,
        ⟨supply.remaining.drop 28⟩) := by
  obtain ⟨salt, nonce, drawn⟩ := Supply.exists_drawn enough
  have again : (supply.remaining.take 28).take 28 = salt.bytes ++ nonce.bytes := by
    rw [List.take_take, Nat.min_self, drawn]
  have alone : wrapper.wrap password payload ⟨supply.remaining.take 28⟩ = _ :=
    wrapper.wrap_of_drawn again password payload
  rw [wrap_of_drawn wrapper drawn, alone]

/-- A record is recognized under a password when it is not too long for the cipher and its tag is
the one that the password gives. -/
def Recognizes (password : Bytes) (key : WrappedKey) : Prop :=
  key.payloadSize ≤ Cipher.longest ∧
    Gcm.tag (wrapper.encipherFor password key.salt) key.nonce key.header key.ciphertext = key.tag

/-- Without a password nothing is opened. -/
theorem unwrapKey_of_empty (key : WrappedKey) :
    wrapper.unwrapKey [] key = ⟨.error .emptyPassword, []⟩ := by
  rw [unwrapKey, cipher_of_empty]
  exact Traced.bind_error rfl _

/-- The cipher of a password unmasks a recognized record. -/
theorem openText_of_recognized {password : Bytes} {key : WrappedKey}
    (recognized : wrapper.Recognizes password key) :
    Cipher.openText ⟨wrapper.keyFor password key.salt⟩ key.nonce key.header key.text =
      .ok (Gcm.mask (wrapper.encipherFor password key.salt) key.nonce key.ciphertext) :=
  Cipher.openText_of_tag (Cipher.fits_headerOf_iff.mpr recognized.1) recognized.2

/-- The cipher of a password refuses a record that is not recognized. -/
theorem openText_of_unrecognized {password : Bytes} {key : WrappedKey}
    (unrecognized : ¬wrapper.Recognizes password key) :
    Cipher.openText ⟨wrapper.keyFor password key.salt⟩ key.nonce key.header key.text =
      .error .authentication := by
  apply Cipher.openText_of_wrong
  rintro ⟨fits, right⟩
  exact unrecognized ⟨Cipher.fits_headerOf_iff.mp fits, right⟩

/-- A recognized record opens to its unmasked ciphertext. -/
theorem unwrapKey_of_recognized {password : Bytes} (nonempty : password ≠ []) {key : WrappedKey}
    (recognized : wrapper.Recognizes password key) :
    wrapper.unwrapKey password key =
      ⟨.ok ⟨Gcm.mask (wrapper.encipherFor password key.salt) key.nonce key.ciphertext⟩,
        [wrapper.derived, .unwrapped key.payloadSize]⟩ := by
  rw [unwrapKey, cipher_of_password wrapper nonempty, Traced.bind_ok rfl, openWith,
    openText_of_recognized wrapper recognized]
  simp only [Gcm.length_mask, WrappedKey.payloadSize, List.singleton_append]

/-- A record that is not recognized is refused. -/
theorem unwrapKey_of_unrecognized {password : Bytes} (nonempty : password ≠ []) {key : WrappedKey}
    (unrecognized : ¬wrapper.Recognizes password key) :
    wrapper.unwrapKey password key =
      ⟨.error .authentication, [wrapper.derived, .rejected key.size]⟩ := by
  rw [unwrapKey, cipher_of_password wrapper nonempty, Traced.bind_ok rfl, openWith,
    openText_of_unrecognized wrapper unrecognized]
  rfl

/-- Opening a stored form is opening what it stores. -/
theorem unwrap_of_read {stored : Bytes} {key : WrappedKey}
    (read : WrappedKey.ofBytes stored = .ok key) (password : Bytes) :
    wrapper.unwrap password stored = wrapper.unwrapKey password key := by
  rw [unwrap, read]
  exact Traced.bind_ok rfl _

/-- What cannot be read is not opened, and nothing is logged about it. -/
theorem unwrap_of_unread {stored : Bytes} {failure : Failure}
    (unread : WrappedKey.ofBytes stored = .error failure) (password : Bytes) :
    wrapper.unwrap password stored = ⟨.error failure, []⟩ := by
  rw [unwrap, unread]
  exact Traced.bind_error rfl _

/-- A payload that was recovered is wrapped again, behind the events of its recovery. -/
theorem rewrap_of_opened {password stored : Bytes} {payload : Secret}
    (opened : (wrapper.unwrap password stored).result = .ok payload) (newPassword : Bytes)
    (supply : Supply) :
    wrapper.rewrap password newPassword stored supply =
      (⟨(wrapper.wrap newPassword payload.bytes supply).1.result,
        (wrapper.unwrap password stored).events ++
          (wrapper.wrap newPassword payload.bytes supply).1.events⟩,
        (wrapper.wrap newPassword payload.bytes supply).2) := by
  rw [rewrap, opened]

/-- A stored form that does not open is not wrapped again, and nothing is drawn. -/
theorem rewrap_of_refused {password stored : Bytes} {failure : Failure}
    (refused : (wrapper.unwrap password stored).result = .error failure) (newPassword : Bytes)
    (supply : Supply) :
    wrapper.rewrap password newPassword stored supply =
      (⟨.error failure, (wrapper.unwrap password stored).events⟩, supply) := by
  rw [rewrap, refused]

/-- The answer about a password is the verdict on the attempt to open with it. -/
theorem result_verifyPassword (password stored : Bytes) :
    (wrapper.verifyPassword password stored).result =
      verdict (wrapper.unwrap password stored).result := rfl

/-- All that can be asked about a stored form ends in a failure: it is neither opened nor moved to
another password, trying the password has a fixed answer, and nothing is drawn. -/
structure Fails (password stored : Bytes) (failure : Failure) (answer : Except Failure Bool) :
    Prop where
  /-- Opening fails. -/
  opening : (wrapper.unwrap password stored).result = .error failure
  /-- Trying the password answers. -/
  trying : (wrapper.verifyPassword password stored).result = answer
  /-- Moving to another password fails, and the supply stays as it was. -/
  moving : ∀ newPassword supply,
    (wrapper.rewrap password newPassword stored supply).1.result = .error failure ∧
      (wrapper.rewrap password newPassword stored supply).2 = supply

/-- A stored form that fails to open fails in every use. -/
theorem fails_of_unwrap {password stored : Bytes} {failure : Failure}
    (failed : (wrapper.unwrap password stored).result = .error failure) :
    wrapper.Fails password stored failure (verdict (.error failure)) := by
  refine ⟨failed, ?_, ?_⟩
  · rw [result_verifyPassword, failed]
  · intro newPassword supply
    rw [rewrap_of_refused wrapper failed]
    exact ⟨rfl, rfl⟩

/-- A stored form that cannot be read fails in every use, whatever the password. -/
theorem fails_of_unread {stored : Bytes} {failure : Failure}
    (unread : WrappedKey.ofBytes stored = .error failure) (password : Bytes) :
    wrapper.Fails password stored failure (verdict (.error failure)) := by
  apply fails_of_unwrap
  rw [unwrap_of_unread wrapper unread]

/-- A record is refused in every use exactly when it is not recognized. -/
theorem fails_iff_unrecognized {password stored : Bytes} {key : WrappedKey}
    (nonempty : password ≠ []) (read : WrappedKey.ofBytes stored = .ok key) :
    wrapper.Fails password stored .authentication (.ok false) ↔
      ¬wrapper.Recognizes password key := by
  constructor
  · intro fails recognized
    have refused := fails.opening
    rw [unwrap_of_read wrapper read, unwrapKey_of_recognized wrapper nonempty recognized] at refused
    contradiction
  · intro unrecognized
    have refused : (wrapper.unwrap password stored).result = .error .authentication := by
      rw [unwrap_of_read wrapper read, unwrapKey_of_unrecognized wrapper nonempty unrecognized]
    exact fails_of_unwrap wrapper refused

/-- The right answer about a password is that the record is recognized. -/
theorem verifyPassword_eq_true {password stored : Bytes} {key : WrappedKey}
    (nonempty : password ≠ []) (read : WrappedKey.ofBytes stored = .ok key)
    (recognized : wrapper.Recognizes password key) :
    (wrapper.verifyPassword password stored).result = .ok true := by
  rw [result_verifyPassword, unwrap_of_read wrapper read,
    unwrapKey_of_recognized wrapper nonempty recognized]
  rfl

/-- Keys depend on the parameters of a wrapper and on nothing else of it. -/
theorem keyFor_congr {other : Wrapper} (equal : other.params = wrapper.params) :
    other.keyFor = wrapper.keyFor := by
  obtain ⟨params, deriver, accepted⟩ := wrapper
  obtain ⟨params', deriver', accepted'⟩ := other
  obtain rfl : params' = params := equal
  rfl

/-- What a wrapped key opens to depends on the derived key, on the parameters, and on whether there
is a password at all. -/
theorem unwrapKey_eq_of_keyFor {other : Wrapper} (equal : other.params = wrapper.params)
    {password password' : Bytes} (together : password' = [] ↔ password = []) {key : WrappedKey}
    (keys : other.keyFor password' key.salt = wrapper.keyFor password key.salt) :
    other.unwrapKey password' key = wrapper.unwrapKey password key := by
  have enciphers : other.encipherFor password' key.salt =
      wrapper.encipherFor password key.salt := by
    rw [encipherFor, encipherFor, keys]
  have derivations : other.derived = wrapper.derived := by rw [derived, derived, equal]
  have recognizes : other.Recognizes password' key ↔ wrapper.Recognizes password key := by
    rw [Recognizes, Recognizes, enciphers]
  by_cases empty : password = []
  · have empty' : password' = [] := together.mpr empty
    rw [empty, empty', unwrapKey_of_empty, unwrapKey_of_empty]
  have nonempty' : password' ≠ [] := mt together.mp empty
  by_cases recognized : wrapper.Recognizes password key
  · have recognized' := recognizes.mpr recognized
    rw [unwrapKey_of_recognized wrapper empty recognized,
      unwrapKey_of_recognized other nonempty' recognized', enciphers, derivations]
  · have unrecognized' := mt recognizes.mp recognized
    rw [unwrapKey_of_unrecognized wrapper empty recognized,
      unwrapKey_of_unrecognized other nonempty' unrecognized', derivations]

/-- A wrapped key opens alike under all wrappers with the same parameters. -/
theorem unwrapKey_congr {other : Wrapper} (equal : other.params = wrapper.params)
    (password : Bytes) (key : WrappedKey) :
    other.unwrapKey password key = wrapper.unwrapKey password key := by
  have keys : other.keyFor password key.salt = wrapper.keyFor password key.salt := by
    rw [keyFor_congr wrapper equal]
  exact unwrapKey_eq_of_keyFor wrapper equal Iff.rfl keys

end Wrapper

end KeyWrapping
