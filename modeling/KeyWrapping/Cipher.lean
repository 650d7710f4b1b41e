import KeyWrapping.Cipher.Aes
import KeyWrapping.Cipher.Gcm
import KeyWrapping.Failure
import KeyWrapping.Text.Record

/-!
# Keyed ciphers

A cipher is a key of sixteen or thirty-two bytes; it seals a text under a nonce, with associated
data that is authenticated but not sealed, and opens what it has sealed. Absent associated data
are the same as none. Texts and associated data have a greatest length (`Fits`): nothing longer is
sealed, and nothing that would hold a longer text is opened. Opening fails in one way only, whatever
is wrong.
-/

namespace KeyWrapping

/-- `AesGcm` — an authenticated cipher under a key. -/
structure Cipher where
  /-- The key. -/
  key : Aes.Key
  deriving DecidableEq

namespace Cipher

/-- `NONCE_SIZE` — the count of bytes of a nonce. -/
def nonceSize : Nat := 12

/-- `TAG_SIZE` — the count of bytes of a tag. -/
def tagSize : Nat := 16

/-- `SUPPORTED_KEY_SIZES` — the lengths of keys. -/
def keySizes : List Nat := [16, 32]

/-- The count of bytes of the longest text, and of the longest associated data: 2³⁶. -/
def longest : Nat := 68719476736

/-- `AesGcm::new` — a cipher from the bytes of its key. -/
def ofKey (bytes : Bytes) : Except Failure Cipher :=
  match Aes.Key.ofBytes? bytes with
  | some key => .ok ⟨key⟩
  | none => .error (.cipherKeyLength bytes.length)

/-- `AesGcm::key_size` — the count of bytes of the key. -/
def keySize (cipher : Cipher) : Nat := cipher.key.size

/-- The cipher by the length of its key in bits, as an `AesGcm` is debugged. -/
def shown (cipher : Cipher) : String :=
  let bits := toString (8 * cipher.keySize)
  Text.record "AesGcm" [("cipher", Text.quoted ("[AES-" ++ bits ++ "-GCM Cipher]"))]

/-- The function on blocks that the key chooses. -/
def encipher (cipher : Cipher) : Block → Block := Aes.encipher cipher.key

/-- Neither the associated data nor the text, sealed or not, are longer than the cipher takes. -/
def Fits (associated text : Bytes) : Prop :=
  associated.length ≤ longest ∧ text.length ≤ longest

instance (associated text : Bytes) : Decidable (Fits associated text) :=
  inferInstanceAs (Decidable (_ ∧ _))

/-- Seal a text that is not too long. -/
def sealText (cipher : Cipher) (nonce : Octets 12) (associated plaintext : Bytes) :
    Except Failure Gcm.Sealed :=
  if Fits associated plaintext then .ok (Gcm.sealText cipher.encipher nonce associated plaintext)
  else .error .sealing

/-- Open a sealed text; one that is too long is refused like a wrong tag. -/
def openText (cipher : Cipher) (nonce : Octets 12) (associated : Bytes) (text : Gcm.Sealed) :
    Except Failure Bytes :=
  if Fits associated text.ciphertext then
    match Gcm.openText cipher.encipher nonce associated text with
    | some plaintext => .ok plaintext
    | none => .error .authentication
  else .error .authentication

/-- `AesGcm::encrypt` — seal a text into bytes: the ciphertext, then the tag. -/
def sealBytes (cipher : Cipher) (nonce : Octets 12) (associated : Option Bytes)
    (plaintext : Bytes) : Except Failure Bytes :=
  (cipher.sealText nonce (associated.getD []) plaintext).map Gcm.Sealed.toBytes

/-- `AesGcm::decrypt` — open sealed bytes; a string too short to hold a tag is refused like a wrong
tag. -/
def openBytes (cipher : Cipher) (nonce : Octets 12) (associated : Option Bytes)
    (sealedBytes : Bytes) : Except Failure Bytes :=
  match Gcm.Sealed.ofBytes? sealedBytes with
  | some text => cipher.openText nonce (associated.getD []) text
  | none => .error .authentication

variable {cipher : Cipher} {nonce : Octets 12} {associated : Bytes}

/-- What is not too long is sealed. -/
theorem sealText_of_fits {plaintext : Bytes} (fits : Fits associated plaintext) :
    cipher.sealText nonce associated plaintext =
      .ok (Gcm.sealText cipher.encipher nonce associated plaintext) := if_pos fits

/-- What is too long is not sealed. -/
theorem sealText_of_not_fits {plaintext : Bytes} (long : ¬Fits associated plaintext) :
    cipher.sealText nonce associated plaintext = .error .sealing := if_neg long

end Cipher

end KeyWrapping
