import KeyWrapping.Cipher.Gcm
import KeyWrapping.Failure
import KeyWrapping.Text.Base64
import KeyWrapping.Text.Blank
import KeyWrapping.Text.Record

/-!
# Wrapped keys

A wrapped key is a payload sealed under a key that was derived from a password: the salt of the
derivation, the nonce, the ciphertext and the tag. It is stored as a version byte followed by
these four, so that everything but the ciphertext has a fixed place. Reading accepts exactly the
written forms (`ofBytes_toBytes`, `toBytes_of_ofBytes`); the parameters of the derivation are not
part of it.
-/

namespace KeyWrapping

/-- `WrappedBlob` — a sealed payload with what is needed, beside the password, to open it. -/
structure WrappedKey where
  /-- The salt of the derivation. -/
  salt : Octets 16
  /-- The nonce of the cipher. -/
  nonce : Octets 12
  /-- Ciphertext and tag. -/
  text : Gcm.Sealed
  deriving DecidableEq

namespace WrappedKey

/-- `BLOB_VERSION` — the one version in use. -/
def version : UInt8 := 1

/-- `HEADER_SIZE` — the count of bytes in front of the ciphertext. -/
def headerSize : Nat := 29

/-- `MIN_BLOB_SIZE` — the count of bytes without any ciphertext. -/
def leastSize : Nat := 45

/-- `blob::header` — the bytes in front of the ciphertext, which are also what the tag covers beside
it. -/
def headerOf (salt : Octets 16) (nonce : Octets 12) : Bytes := version :: salt.bytes ++ nonce.bytes

/-- `WrappedBlob::header` — the bytes in front of the ciphertext. -/
def header (key : WrappedKey) : Bytes := headerOf key.salt key.nonce

/-- `WrappedBlob::ciphertext` — the bytes of the payload, sealed. -/
def ciphertext (key : WrappedKey) : Bytes := key.text.ciphertext

/-- `WrappedBlob::tag` — the tag. -/
def tag (key : WrappedKey) : Octets 16 := key.text.tag

/-- `WrappedBlob::as_bytes` — the stored form, as `WrappedBlob::assemble` puts it together. -/
def toBytes (key : WrappedKey) : Bytes := key.header ++ key.text.toBytes

/-- `WrappedBlob::len` — the count of bytes of the stored form. -/
def size (key : WrappedKey) : Nat := key.toBytes.length

/-- `WrappedBlob::payload_len` — the count of bytes of the payload. -/
def payloadSize (key : WrappedKey) : Nat := key.ciphertext.length

/-- `WrappedBlob::parse` and `WrappedBlob::from_vec` — read a stored form: its length is looked at
first, its version next, and nothing else can be wrong with it. -/
def ofBytes (bytes : Bytes) : Except Failure WrappedKey :=
  if long : leastSize ≤ bytes.length then
    match bytes with
    | [] => .error (.recordTooShort 0)
    | first :: rest =>
      if first = version then
        have counted : 44 ≤ rest.length := by
          simp only [leastSize, List.length_cons] at long
          omega
        .ok {
          salt := Octets.slice rest 0 16 (by omega)
          nonce := Octets.slice rest 16 12 (by omega)
          text := Gcm.Sealed.split (rest.drop 28) (by simp only [List.length_drop]; omega) }
      else .error (.unknownVersion first)
  else .error (.recordTooShort bytes.length)

/-- The header has twenty-nine bytes. -/
@[simp] theorem length_headerOf (salt : Octets 16) (nonce : Octets 12) :
    (headerOf salt nonce).length = headerSize := by
  simp [headerOf, salt.length_eq, nonce.length_eq, headerSize]

/-- A stored form is longer than its payload by the bytes that every stored form has. -/
theorem size_eq (key : WrappedKey) : key.size = leastSize + key.payloadSize := by
  simp only [size, toBytes, header, List.length_append, length_headerOf, headerSize,
    Gcm.Sealed.length_toBytes, leastSize, payloadSize, ciphertext]
  omega

/-- A stored form is long enough to be read. -/
theorem leastSize_le (key : WrappedKey) : leastSize ≤ key.toBytes.length := by
  have counted := size_eq key
  simp only [size] at counted
  omega

/-- Reading a stored form gives back what was stored. -/
@[simp] theorem ofBytes_toBytes (key : WrappedKey) : ofBytes key.toBytes = .ok key := by
  unfold ofBytes
  rw [dif_pos key.leastSize_le]
  obtain ⟨⟨salt, saltCount⟩, ⟨nonce, nonceCount⟩, text⟩ := key
  have afterNonce : (salt ++ (nonce ++ text.toBytes)).drop 28 = text.toBytes := by
    rw [← List.append_assoc]
    exact List.drop_left' (by simp [saltCount, nonceCount])
  have afterSalt : (salt ++ (nonce ++ text.toBytes)).drop 16 = nonce ++ text.toBytes :=
    List.drop_left' saltCount
  simp [toBytes, header, headerOf, Octets.slice, afterNonce, afterSalt, List.take_left' saltCount,
    List.take_left' nonceCount]

/-- Only stored forms are read, each as what was stored. -/
theorem toBytes_of_ofBytes {bytes : Bytes} {key : WrappedKey} (read : ofBytes bytes = .ok key) :
    key.toBytes = bytes := by
  unfold ofBytes at read
  split at read
  · next long =>
    split at read
    · contradiction
    · next first rest _ =>
      split at read
      · next known =>
        obtain rfl := Except.ok.inj read
        have parts : rest = rest.take 16 ++ ((rest.drop 16).take 12 ++ rest.drop 28) := by
          rw [show rest.drop 28 = (rest.drop 16).drop 12 by rw [List.drop_drop],
            List.take_append_drop, List.take_append_drop]
        simp only [toBytes, header, headerOf, Octets.slice, Gcm.Sealed.toBytes_split,
          List.drop_zero, known, List.cons_append, List.append_assoc, List.cons.injEq, true_and]
        exact parts.symm
      · contradiction
  · contradiction

/-- `WrappedBlob::eq` — whether two wrapped keys have the same stored form, found out without
stopping early. -/
def same (left right : WrappedKey) : Bool := Bytes.sameBytes left.toBytes right.toBytes

/-- `WrappedBlob::to_base64` — the stored form as text. -/
def toText (key : WrappedKey) : String := String.ofList (Base64.encode key.toBytes)

/-- `WrappedBlob::from_base64` — read the stored form from a text; blanks around it do not
matter. -/
def ofText (text : String) : Except Failure WrappedKey :=
  match Base64.decode (Text.trim text.toList) with
  | .ok bytes => ofBytes bytes
  | .error error => .error (.unreadableText error)

/-- The wrapped key as a record of its lengths, as a `WrappedBlob` is debugged. -/
def shown (key : WrappedKey) : String :=
  Text.record "WrappedBlob"
    [("version", toString version.toNat), ("len", toString key.size),
      ("payload_len", toString key.payloadSize)]

end WrappedKey

end KeyWrapping
