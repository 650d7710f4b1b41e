import KeyWrapping.Bytes

/-!
# Secrets

A secret is a byte string that shows only its length. It is compared byte for byte without
stopping early, and can be changed in place or emptied.
-/

namespace KeyWrapping

/-- `SecureBytes` — a byte string that is not shown. -/
structure Secret where
  /-- The bytes themselves. -/
  bytes : Bytes

namespace Secret

/-- `SecureBytes::zeroed` — a secret of `count` zeros. -/
def zeroed (count : Nat) : Secret := ⟨List.replicate count 0⟩

/-- `SecureBytes::len` — the count of bytes. -/
def size (secret : Secret) : Nat := secret.bytes.length

/-- `SecureBytes::is_empty` — whether there are no bytes. -/
def isEmpty (secret : Secret) : Bool := secret.bytes.isEmpty

/-- Write one byte through `SecureBytes::as_bytes_mut`; there must be one to write over. -/
def set? (secret : Secret) (index : Nat) (byte : UInt8) : Option Secret :=
  if index < secret.bytes.length then some ⟨secret.bytes.set index byte⟩ else none

/-- `SecureBytes::clear` — the secret without its bytes. -/
def clear (_secret : Secret) : Secret := ⟨[]⟩

/-- `SecureBytes::eq` — whether the secret has exactly these bytes. -/
def holds (secret : Secret) (bytes : Bytes) : Bool := Bytes.sameBytes secret.bytes bytes

/-- The secret by its length, as a `SecureBytes` is debugged. -/
def shown (secret : Secret) : String := "SecureBytes([REDACTED; " ++ toString secret.size ++ "])"

/-- A secret holds exactly its bytes. -/
theorem holds_iff (secret : Secret) (bytes : Bytes) :
    secret.holds bytes = true ↔ secret.bytes = bytes :=
  Bytes.sameBytes_iff _ _

end Secret

end KeyWrapping
