import KeyWrapping.Cipher
import KeyWrapping.Deriver
import KeyWrapping.Supply
import KeyWrapping.WrappedKey

/-!
# Wrapping payloads under passwords

A wrapper seals payloads with keys derived from passwords. Sealing draws a fresh salt and a fresh
nonce and binds both to the record through its header; all that follows the draws is a function
of what was drawn (`sealWith`). Opening needs no random bytes. A wrapper cannot be built with
parameters that its deriver refuses.
-/

namespace KeyWrapping

/-- `KeyWrapper` — a deriver with parameters that it accepts. -/
structure Wrapper where
  /-- The parameters of every derivation. -/
  params : Params
  /-- The source of keys. -/
  deriver : Deriver
  /-- The deriver accepts the parameters. -/
  accepted : deriver.Accepts params

namespace Wrapper

/-- `KeyWrapper::default` — the usual wrapper. -/
def standard : Wrapper := ⟨.moderate, .standard, by decide⟩

/-- `KeyWrapper::with_deriver` — a wrapper over a deriver, if the deriver accepts the parameters. -/
def withDeriver (params : Params) (deriver : Deriver) : Except Failure Wrapper :=
  match checked : deriver.validate params with
  | .ok () => .ok ⟨params, deriver, (deriver.validate_eq_ok_iff params).mp checked⟩
  | .error failure => .error failure

/-- `KeyWrapper::new` — a wrapper over the deriver with the lowest floor. -/
def ofParams (params : Params) : Except Failure Wrapper := withDeriver params .standard

/-- The wrapper as a record, as a `KeyWrapper` is debugged. -/
def shown (wrapper : Wrapper) : String :=
  Text.record "KeyWrapper"
    [("params", wrapper.params.shown), ("deriver", wrapper.deriver.shown)]

/-- The cipher for a password and a salt: `KeyDeriver::derive_with_params`, then `AesGcm::new`. -/
def cipher (wrapper : Wrapper) (password : Bytes) (salt : Octets 16) : Traced Cipher := do
  let key ← wrapper.deriver.deriveFor password salt.bytes wrapper.params
  Traced.ofExcept (Cipher.ofKey key.bytes)

/-- Seal a payload with a salt and a nonce that are already drawn, which is what `KeyWrapper::wrap`
does behind its draws. A payload that is too long is refused after the derivation. -/
def sealWith (wrapper : Wrapper) (password payload : Bytes) (salt : Octets 16)
    (nonce : Octets 12) : Traced WrappedKey := do
  let cipher ← wrapper.cipher password salt
  let text ← Traced.ofExcept (cipher.sealText nonce (WrappedKey.headerOf salt nonce) payload)
  Traced.log (.wrapped payload.length (wrapper.params.keyLength.toNat * 8)
    wrapper.params.iterations.toNat)
  return ⟨salt, nonce, text⟩

/-- `KeyWrapper::wrap` — wrap a payload: the salt is drawn first and the nonce next, before the
password is looked at. -/
def wrap (wrapper : Wrapper) (password payload : Bytes) (supply : Supply) :
    Traced WrappedKey × Supply :=
  match supply.draw 16 with
  | (.error failure, afterSalt) => (Traced.fail failure, afterSalt)
  | (.ok salt, afterSalt) =>
    match afterSalt.draw 12 with
    | (.error failure, afterNonce) => (Traced.fail failure, afterNonce)
    | (.ok nonce, afterNonce) => (wrapper.sealWith password payload salt nonce, afterNonce)

/-- Open a sealed text with a cipher, and note how it went, as `KeyWrapper::unwrap_blob` does at its
end. -/
def openWith (cipher : Cipher) (key : WrappedKey) : Traced Secret :=
  match cipher.openText key.nonce key.header key.text with
  | .ok payload => ⟨.ok ⟨payload⟩, [.unwrapped payload.length]⟩
  | .error failure => ⟨.error failure, [.rejected key.size]⟩

/-- `KeyWrapper::unwrap_blob` — recover the payload of a wrapped key. -/
def unwrapKey (wrapper : Wrapper) (password : Bytes) (key : WrappedKey) : Traced Secret := do
  let cipher ← wrapper.cipher password key.salt
  openWith cipher key

/-- `KeyWrapper::unwrap` — recover the payload of a stored form. -/
def unwrap (wrapper : Wrapper) (password stored : Bytes) : Traced Secret := do
  let key ← Traced.ofExcept (WrappedKey.ofBytes stored)
  wrapper.unwrapKey password key

/-- `KeyWrapper::rewrap` — wrap the payload of a stored form again, under another password. -/
def rewrap (wrapper : Wrapper) (oldPassword newPassword stored : Bytes) (supply : Supply) :
    Traced WrappedKey × Supply :=
  let opened := wrapper.unwrap oldPassword stored
  match opened.result with
  | .error failure => (⟨.error failure, opened.events⟩, supply)
  | .ok payload =>
    let (wrapped, left) := wrapper.wrap newPassword payload.bytes supply
    (⟨wrapped.result, opened.events ++ wrapped.events⟩, left)

/-- Whether a password opened a record: a refused tag is an answer, any other failure is one. -/
def verdict : Except Failure Secret → Except Failure Bool
  | .ok _ => .ok true
  | .error .authentication => .ok false
  | .error failure => .error failure

/-- `KeyWrapper::verify_password` — find out whether a password opens a stored form. -/
def verifyPassword (wrapper : Wrapper) (password stored : Bytes) : Traced Bool :=
  (wrapper.unwrap password stored).mapResult verdict

end Wrapper

end KeyWrapping
