import KeyWrapping.Proofs.Refusals
/-!
# Where the parts of a stored form stand

A record that is kept as its bytes has its parts at fixed places, counted from the front or from the
end. A look at such a place fails where the string is too short, and the type of byte strings does
not keep it from failing. But the strings that records are kept as (`Stored`) were either read, and
so were long enough, or put together from a header and from what a cipher seals, which has room for
a tag. They all are stored forms (`Stored.eq_toBytes`), and in a stored form every look finds its
part (`inPlace_toBytes`). The parts make up the string, and every choice of parts makes up exactly
one string that is read.
-/

namespace KeyWrapping

namespace Bytes

/-- The bytes from `start` to just before `stop`, if the string has these places in this order. -/
def between? (bytes : Bytes) (start stop : Nat) : Option Bytes :=
  if start ≤ stop ∧ stop ≤ bytes.length then some ((bytes.drop start).take (stop - start)) else none

/-- How many bytes are left without `count` of them, if there are that many. -/
def without? (bytes : Bytes) (count : Nat) : Option Nat :=
  if count ≤ bytes.length then some (bytes.length - count) else none

/-- The middle one of three parts is found between their borders. -/
theorem between?_of_parts {bytes front part rest : Bytes} (parts : bytes = front ++ (part ++ rest))
    {start stop : Nat} (starts : front.length = start) (stops : start + part.length = stop) :
    bytes.between? start stop = some part := by
  have inside : start ≤ stop ∧ stop ≤ bytes.length := by
    rw [parts, List.length_append, List.length_append]
    omega
  rw [between?, if_pos inside, parts, List.drop_left' starts, List.take_left' (by omega)]

end Bytes

namespace WrappedKey

/-- The version in a string. -/
def version? (bytes : Bytes) : Option UInt8 := bytes[0]?

/-- The salt in a string, behind the version. -/
def salt? (bytes : Bytes) : Option (Octets 16) := (bytes.between? 1 17).bind (Octets.ofBytes? 16)

/-- The nonce in a string, behind the salt. -/
def nonce? (bytes : Bytes) : Option (Octets 12) :=
  (bytes.between? 17 headerSize).bind (Octets.ofBytes? 12)

/-- The header in a string. -/
def header? (bytes : Bytes) : Option Bytes := bytes.between? 0 headerSize

/-- The ciphertext in a string: all between the header and the last sixteen bytes. -/
def ciphertext? (bytes : Bytes) : Option Bytes :=
  (bytes.without? 16).bind fun stop => bytes.between? headerSize stop

/-- The tag in a string: the last sixteen bytes. -/
def tag? (bytes : Bytes) : Option (Octets 16) :=
  (bytes.without? 16).bind fun start =>
    (bytes.between? start bytes.length).bind (Octets.ofBytes? 16)

/-- Ciphertext and tag in a string: all behind the header. -/
def sealed? (bytes : Bytes) : Option Bytes := bytes.between? headerSize bytes.length

/-- The count of bytes of the payload, from the length of a string alone. -/
def payloadSize? (bytes : Bytes) : Option Nat := bytes.without? leastSize

/-- A header and sealed bytes put together; whether these have room for a tag is not looked at. -/
def assemble (salt : Octets 16) (nonce : Octets 12) (sealedBytes : Bytes) : Bytes :=
  headerOf salt nonce ++ sealedBytes

/-- A record and the bytes that it is kept as, for every way to come to a record. -/
inductive Stored : WrappedKey → Bytes → Prop where
  /-- A string that is read is kept as it is, whether it was lent or handed over. -/
  | read {bytes : Bytes} {key : WrappedKey} (accepted : ofBytes bytes = .ok key) : Stored key bytes
  /-- Of a text that is read the bytes are kept. -/
  | readText {text : String} {bytes : Bytes} {key : WrappedKey}
      (decoded : Base64.decode (Text.trim text.toList) = .ok bytes)
      (accepted : ofText text = .ok key) : Stored key bytes
  /-- Wrapping puts the header in front of what the cipher seals. -/
  | wrapped (wrapper : Wrapper) {password payload sealedBytes : Bytes} {supply : Supply}
      {key : WrappedKey} {cipher : Cipher}
      (given : (wrapper.wrap password payload supply).1.result = .ok key)
      (keyed : (wrapper.cipher password key.salt).result = .ok cipher)
      (written : cipher.sealBytes key.nonce (some (headerOf key.salt key.nonce)) payload =
        .ok sealedBytes) :
      Stored key (assemble key.salt key.nonce sealedBytes)
  /-- Moving to another password does the same with the payload that was opened. -/
  | rewrapped (wrapper : Wrapper) {oldPassword newPassword stored sealedBytes : Bytes}
      {supply : Supply} {payload : Secret} {key : WrappedKey} {cipher : Cipher}
      (opened : (wrapper.unwrap oldPassword stored).result = .ok payload)
      (given : (wrapper.rewrap oldPassword newPassword stored supply).1.result = .ok key)
      (keyed : (wrapper.cipher newPassword key.salt).result = .ok cipher)
      (written : cipher.sealBytes key.nonce (some (headerOf key.salt key.nonce)) payload.bytes =
        .ok sealedBytes) :
      Stored key (assemble key.salt key.nonce sealedBytes)
  /-- A copy is kept as the same bytes. -/
  | copied {key : WrappedKey} {bytes : Bytes} (stored : Stored key bytes) : Stored key bytes

/-- Every look at a string finds the part of a record. -/
structure InPlace (key : WrappedKey) (bytes : Bytes) : Prop where
  /-- The version is the one in use. -/
  version_eq : version? bytes = some version
  /-- The salt. -/
  salt_eq : salt? bytes = some key.salt
  /-- The nonce. -/
  nonce_eq : nonce? bytes = some key.nonce
  /-- The header is the one of this salt and this nonce. -/
  header_eq : header? bytes = some (headerOf key.salt key.nonce)
  /-- The ciphertext. -/
  ciphertext_eq : ciphertext? bytes = some key.ciphertext
  /-- The tag. -/
  tag_eq : tag? bytes = some key.tag
  /-- Ciphertext and tag follow each other. -/
  sealed_eq : sealed? bytes = some (key.ciphertext ++ key.tag.bytes)
  /-- The payload is as long as the ciphertext. -/
  payloadSize_eq : payloadSize? bytes = some key.ciphertext.length

/-- A stored form is made of five parts. -/
theorem toBytes_eq_parts (key : WrappedKey) :
    key.toBytes = [version] ++ key.salt.bytes ++ key.nonce.bytes ++ key.ciphertext ++
      key.tag.bytes := by
  simp only [toBytes, header, headerOf, Gcm.Sealed.toBytes, ciphertext, tag, List.append_assoc,
    List.cons_append, List.nil_append]

/-- In a stored form every look finds its part. -/
theorem inPlace_toBytes (key : WrappedKey) : InPlace key key.toBytes := by
  have salted : key.salt.bytes.length = 16 := key.salt.length_eq
  have nonced : key.nonce.bytes.length = 12 := key.nonce.length_eq
  have tagged : key.tag.bytes.length = 16 := key.tag.length_eq
  have headed : key.header.length = headerSize := length_headerOf _ _
  have sized : headerSize = 29 := rfl
  have least : leastSize = 45 := rfl
  have counted : key.toBytes.length = leastSize + key.ciphertext.length := key.size_eq
  have untagged : key.toBytes.without? 16 = some (headerSize + key.ciphertext.length) := by
    rw [Bytes.without?, if_pos (by omega), Option.some.injEq]
    omega
  have salt : key.toBytes.between? 1 17 = some key.salt.bytes := by
    have parts : key.toBytes = [version] ++ (key.salt.bytes ++
        (key.nonce.bytes ++ (key.ciphertext ++ key.tag.bytes))) := by
      simp only [toBytes_eq_parts, List.append_assoc]
    exact Bytes.between?_of_parts parts rfl (by omega)
  have nonce : key.toBytes.between? 17 headerSize = some key.nonce.bytes := by
    have parts : key.toBytes = ([version] ++ key.salt.bytes) ++ (key.nonce.bytes ++
        (key.ciphertext ++ key.tag.bytes)) := by
      simp only [toBytes_eq_parts, List.append_assoc]
    have front : ([version] ++ key.salt.bytes).length = 17 := by
      rw [List.length_append, salted]
      rfl
    exact Bytes.between?_of_parts parts front (by omega)
  have ciphertext : key.toBytes.between? headerSize (headerSize + key.ciphertext.length) =
      some key.ciphertext := by
    have parts : key.toBytes = key.header ++ (key.ciphertext ++ key.tag.bytes) := rfl
    exact Bytes.between?_of_parts parts headed rfl
  have tag : key.toBytes.between? (headerSize + key.ciphertext.length) key.toBytes.length =
      some key.tag.bytes := by
    have parts : key.toBytes = (key.header ++ key.ciphertext) ++ (key.tag.bytes ++ []) := by
      rw [List.append_nil, List.append_assoc]
      rfl
    have front : (key.header ++ key.ciphertext).length = headerSize + key.ciphertext.length := by
      rw [List.length_append, headed]
    exact Bytes.between?_of_parts parts front (by omega)
  constructor
  · rfl
  · rw [salt?, salt, Option.bind_some, Octets.ofBytes?_bytes]
  · rw [nonce?, nonce, Option.bind_some, Octets.ofBytes?_bytes]
  · have parts : key.toBytes = [] ++ (key.header ++ key.text.toBytes) := rfl
    exact Bytes.between?_of_parts parts rfl (by omega)
  · rw [ciphertext?, untagged, Option.bind_some, ciphertext]
  · rw [tag?, untagged, Option.bind_some, tag, Option.bind_some, Octets.ofBytes?_bytes]
  · have parts : key.toBytes = key.header ++ ((key.ciphertext ++ key.tag.bytes) ++ []) := by
      rw [List.append_nil]
      rfl
    exact Bytes.between?_of_parts parts headed (by rw [List.length_append]; omega)
  · rw [payloadSize?, Bytes.without?, if_pos (by omega), Option.some.injEq]
    omega

/-- A string is read exactly when it is long enough and begins with the version in use. -/
theorem exists_ofBytes_iff (bytes : Bytes) :
    (∃ key, ofBytes bytes = .ok key) ↔ leastSize ≤ bytes.length ∧ bytes.head? = some version := by
  constructor
  · rintro ⟨key, accepted⟩
    obtain rfl := toBytes_of_ofBytes accepted
    exact ⟨key.leastSize_le, rfl⟩
  · rintro ⟨long, starts⟩
    obtain ⟨key, accepted, _⟩ := exists_ofBytes long starts
    exact ⟨key, accepted⟩

end WrappedKey

namespace Wrapper

variable (wrapper : Wrapper)

/-- Behind the header of what is wrapped stands what the cipher seals. -/
theorem sealBytes_of_wrap {password payload : Bytes} {supply : Supply} {key : WrappedKey}
    {cipher : Cipher} (given : (wrapper.wrap password payload supply).1.result = .ok key)
    (keyed : (wrapper.cipher password key.salt).result = .ok cipher) :
    cipher.sealBytes key.nonce (some (WrappedKey.headerOf key.salt key.nonce)) payload =
      .ok key.text.toBytes := by
  obtain ⟨nonempty, fits, recorded⟩ := wrapper.record_of_wrap given
  rw [wrapper.cipher_of_password nonempty] at keyed
  obtain rfl := Except.ok.inj keyed
  have text : Gcm.sealText (wrapper.encipherFor password key.salt) key.nonce
      (WrappedKey.headerOf key.salt key.nonce) payload = key.text :=
    congrArg WrappedKey.text recorded
  rw [Cipher.sealBytes, Option.getD_some,
    Cipher.sealText_of_fits (Cipher.fits_headerOf_iff.mpr fits), encipher_keyFor, text]
  rfl

end Wrapper

namespace WrappedKey

/-- The bytes that a record is kept as are its stored form. -/
theorem Stored.eq_toBytes {key : WrappedKey} {bytes : Bytes} (stored : Stored key bytes) :
    bytes = key.toBytes := by
  induction stored with
  | read accepted => exact (toBytes_of_ofBytes accepted).symm
  | readText decoded accepted =>
    rw [ofText, decoded] at accepted
    exact (toBytes_of_ofBytes accepted).symm
  | wrapped wrapper given keyed written =>
    rw [wrapper.sealBytes_of_wrap given keyed] at written
    obtain rfl := Except.ok.inj written
    rfl
  | rewrapped wrapper opened given keyed written =>
    rw [wrapper.rewrap_of_opened opened] at given
    rw [wrapper.sealBytes_of_wrap given keyed] at written
    obtain rfl := Except.ok.inj written
    rfl
  | copied _ ih => exact ih

/-- What is wrapped is kept as its stored form. -/
theorem stored_of_wrap {wrapper : Wrapper} {password payload : Bytes} {supply : Supply}
    {key : WrappedKey} (given : (wrapper.wrap password payload supply).1.result = .ok key) :
    Stored key key.toBytes := by
  obtain ⟨nonempty, _, _⟩ := wrapper.record_of_wrap given
  have keyed := congrArg Traced.result (wrapper.cipher_of_password nonempty key.salt)
  exact .wrapped wrapper given keyed (wrapper.sealBytes_of_wrap given keyed)

/-- What is moved to another password is kept as its stored form. -/
theorem stored_of_rewrap {wrapper : Wrapper} {oldPassword newPassword stored : Bytes}
    {supply : Supply} {key : WrappedKey}
    (given : (wrapper.rewrap oldPassword newPassword stored supply).1.result = .ok key) :
    Stored key key.toBytes := by
  cases opened : (wrapper.unwrap oldPassword stored).result with
  | error failure =>
    rw [wrapper.rewrap_of_refused opened] at given
    contradiction
  | ok payload =>
    have moved := given
    rw [wrapper.rewrap_of_opened opened] at moved
    obtain ⟨nonempty, _, _⟩ := wrapper.record_of_wrap moved
    have keyed := congrArg Traced.result (wrapper.cipher_of_password nonempty key.salt)
    exact .rewrapped wrapper opened given keyed (wrapper.sealBytes_of_wrap moved keyed)

/-- A record is given by its parts as they are found in its stored form. -/
theorem eq_of_found {key : WrappedKey} {salt : Octets 16} {nonce : Octets 12} {ciphertext : Bytes}
    {tag : Octets 16} (salted : salt? key.toBytes = some salt)
    (nonced : nonce? key.toBytes = some nonce)
    (masked : ciphertext? key.toBytes = some ciphertext) (tagged : tag? key.toBytes = some tag) :
    key = ⟨salt, nonce, ⟨ciphertext, tag⟩⟩ := by
  have found := key.inPlace_toBytes
  rw [found.salt_eq, Option.some.injEq] at salted
  rw [found.nonce_eq, Option.some.injEq] at nonced
  rw [found.ciphertext_eq, Option.some.injEq] at masked
  rw [found.tag_eq, Option.some.injEq] at tagged
  calc
    key = ⟨key.salt, key.nonce, ⟨key.ciphertext, key.tag⟩⟩ := rfl
    _ = ⟨salt, nonce, ⟨ciphertext, tag⟩⟩ := by rw [salted, nonced, masked, tagged]

/-- Wherever a record comes from, it is kept as its stored form, in which every part is found in its
place and the parts are all that there is; put together again or read again, they give the same
record. What a wrapper gives is kept so. A string is read exactly when it has forty-five bytes and
begins with the version, and every salt, nonce, ciphertext and tag are the parts of exactly one
string that is read. -/
theorem stored_parts_in_place :
    (∀ key bytes, Stored key bytes →
      45 ≤ bytes.length ∧ bytes.head? = some 1 ∧ bytes = key.toBytes ∧
      bytes = [1] ++ key.salt.bytes ++ key.nonce.bytes ++ key.ciphertext ++ key.tag.bytes ∧
      InPlace key bytes ∧
      assemble key.salt key.nonce (key.ciphertext ++ key.tag.bytes) = bytes ∧
      ofBytes bytes = .ok key) ∧
    (∀ (wrapper : Wrapper) (password payload : Bytes) (supply : Supply) (key : WrappedKey),
      (wrapper.wrap password payload supply).1.result = .ok key → Stored key key.toBytes) ∧
    (∀ (wrapper : Wrapper) (oldPassword newPassword stored : Bytes) (supply : Supply)
      (key : WrappedKey),
      (wrapper.rewrap oldPassword newPassword stored supply).1.result = .ok key →
        Stored key key.toBytes) ∧
    (∀ bytes, (∃ key, ofBytes bytes = .ok key) ↔ 45 ≤ bytes.length ∧ bytes.head? = some 1) ∧
    ∀ (salt : Octets 16) (nonce : Octets 12) (ciphertext : Bytes) (tag : Octets 16),
      ∃! bytes, (∃ key, ofBytes bytes = .ok key) ∧ salt? bytes = some salt ∧
        nonce? bytes = some nonce ∧ ciphertext? bytes = some ciphertext ∧
        tag? bytes = some tag := by
  refine ⟨?_, ?_, ?_, exists_ofBytes_iff, ?_⟩
  · intro key bytes stored
    obtain rfl := stored.eq_toBytes
    exact ⟨key.leastSize_le, rfl, rfl, key.toBytes_eq_parts, key.inPlace_toBytes, rfl,
      key.ofBytes_toBytes⟩
  · intro wrapper password payload supply key given
    exact stored_of_wrap given
  · intro wrapper oldPassword newPassword stored supply key given
    exact stored_of_rewrap given
  · intro salt nonce ciphertext tag
    let key : WrappedKey := ⟨salt, nonce, ⟨ciphertext, tag⟩⟩
    have found := key.inPlace_toBytes
    refine ⟨key.toBytes, ⟨⟨key, key.ofBytes_toBytes⟩, found.salt_eq, found.nonce_eq,
      found.ciphertext_eq, found.tag_eq⟩, ?_⟩
    rintro bytes ⟨⟨other, accepted⟩, salted, nonced, masked, tagged⟩
    obtain rfl := toBytes_of_ofBytes accepted
    rw [eq_of_found salted nonced masked tagged]

end WrappedKey

end KeyWrapping
