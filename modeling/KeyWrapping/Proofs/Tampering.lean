import KeyWrapping.Proofs.RoundTrip
import KeyWrapping.Report
/-!
# What happens to an altered stored form

An altered stored form that keeps its first twenty-nine bytes is read with the old salt and nonce
and with another sealed text (`exists_read_of_agree`). With the ciphertext kept, its tag is wrong;
with the ciphertext changed inside one block, its tag is right exactly when the hash key is zero.
A changed version is noticed before anything is derived.
-/

namespace KeyWrapping

/-- The ciphertext stands in front of the tag. -/
theorem Gcm.Sealed.take_toBytes {text : Gcm.Sealed} {count : Nat}
    (counted : text.ciphertext.length = count) : text.toBytes.take count = text.ciphertext := by
  rw [toBytes, List.take_left' counted]

/-- The tag stands behind the ciphertext. -/
theorem Gcm.Sealed.drop_toBytes {text : Gcm.Sealed} {count : Nat}
    (counted : text.ciphertext.length = count) : text.toBytes.drop count = text.tag.bytes := by
  rw [toBytes, List.drop_left' counted]

namespace WrappedKey

/-- A string of the same length that agrees with a stored form in front of the ciphertext is read
with the same salt and nonce, and its sealed text differs where the strings differ. -/
theorem exists_read_of_agree (key : WrappedKey) {altered : Bytes} {start count : Nat}
    (counted : altered.length = key.toBytes.length)
    (agree : AgreeOutside (headerSize + start) count key.toBytes altered) :
    ∃ text : Gcm.Sealed, ofBytes altered = .ok ⟨key.salt, key.nonce, text⟩ ∧
      text.ciphertext.length = key.ciphertext.length ∧
      altered = key.header ++ text.toBytes ∧
      AgreeOutside start count key.text.toBytes text.toBytes := by
  have headerCount : key.header.length = headerSize := length_headerOf _ _
  have inFront : key.header = altered.take headerSize := by
    rw [← agree.take_eq (Nat.le_add_right _ _), toBytes, List.take_left' headerCount]
  have behind : key.text.toBytes = key.toBytes.drop headerSize := by
    rw [toBytes, List.drop_left' headerCount]
  have sizes : key.toBytes.length = headerSize + (key.ciphertext.length + 16) := by
    rw [toBytes, List.length_append, headerCount, Gcm.Sealed.length_toBytes, ciphertext]
  have holds : 16 ≤ (altered.drop headerSize).length := by
    rw [List.length_drop]
    omega
  let text := Gcm.Sealed.split (altered.drop headerSize) holds
  have split : text.toBytes = altered.drop headerSize := Gcm.Sealed.toBytes_split _ holds
  have written : altered = key.header ++ text.toBytes := by
    rw [split, inFront, List.take_append_drop]
  refine ⟨text, ?_, ?_, written, ?_⟩
  · rw [written]
    exact ofBytes_toBytes ⟨key.salt, key.nonce, text⟩
  · have textCount : text.toBytes.length = text.ciphertext.length + 16 :=
      Gcm.Sealed.length_toBytes text
    rw [split, List.length_drop] at textCount
    omega
  · rw [behind, split]
    exact agree.drop

/-- A string of the same length as a stored form with another first byte is refused for it. -/
theorem exists_unknown_version (key : WrappedKey) {altered : Bytes}
    (counted : altered.length = key.toBytes.length) (other : altered.head? ≠ some version) :
    ∃ first, ofBytes altered = .error (.unknownVersion first) := by
  have long : leastSize ≤ altered.length := by
    rw [counted]
    exact key.leastSize_le
  cases starts : altered.head? with
  | none =>
    obtain rfl := List.head?_eq_none_iff.mp starts
    contradiction
  | some first =>
    have unknown : first ≠ version := by
      intro same
      exact other (starts.trans (congrArg some same))
    exact ⟨first, ofBytes_of_unknown long starts unknown⟩

end WrappedKey

namespace Wrapper

variable (wrapper : Wrapper)

variable {password : Bytes} {key : WrappedKey} {altered : Bytes}

/-- A recognized record with another tag is not recognized. -/
theorem exists_unrecognized_of_tag_changed (recognized : wrapper.Recognizes password key)
    (counted : altered.length = key.toBytes.length) (differ : altered ≠ key.toBytes)
    (agree : AgreeOutside (key.toBytes.length - 16) 16 key.toBytes altered) :
    ∃ changed, WrappedKey.ofBytes altered = .ok changed ∧
      ¬wrapper.Recognizes password changed := by
  have size : key.toBytes.length - 16 = WrappedKey.headerSize + key.ciphertext.length := by
    have sizes := key.size_eq
    rw [WrappedKey.size, WrappedKey.leastSize, WrappedKey.payloadSize] at sizes
    rw [sizes, WrappedKey.headerSize]
    omega
  rw [size] at agree
  obtain ⟨text, read, length, written, inText⟩ := key.exists_read_of_agree counted agree
  have own : key.text.ciphertext.length = key.ciphertext.length := rfl
  have kept : text.ciphertext = key.ciphertext := by
    have inFront := inText.take_eq (Nat.le_refl _)
    rw [Gcm.Sealed.take_toBytes own, Gcm.Sealed.take_toBytes length] at inFront
    exact inFront.symm
  refine ⟨⟨key.salt, key.nonce, text⟩, read, ?_⟩
  intro again
  have tags : text.tag = key.text.tag := by
    have computed : Gcm.tag (wrapper.encipherFor password key.salt) key.nonce key.header
        text.ciphertext = text.tag := again.2
    rw [← computed, kept]
    exact recognized.2
  apply differ
  rw [written, Gcm.Sealed.toBytes, kept, tags]
  rfl

/-- A recognized record with its ciphertext changed inside one block is recognized exactly under
the hash key zero. -/
theorem exists_recognized_iff_of_block_changed (recognized : wrapper.Recognizes password key)
    (counted : altered.length = key.toBytes.length) (differ : altered ≠ key.toBytes) (place : Nat)
    (agree : AgreeOutside (WrappedKey.headerSize + 16 * place)
      (min 16 (key.payloadSize - 16 * place)) key.toBytes altered) :
    ∃ changed, WrappedKey.ofBytes altered = .ok changed ∧
      (wrapper.Recognizes password changed ↔
        wrapper.hashKeyFor password key.salt = Block.zero) := by
  have inside : 16 * place < key.payloadSize := by
    obtain ⟨index, _, _, _⟩ := agree.exists_inside differ.symm
    omega
  obtain ⟨text, read, length, written, inText⟩ := key.exists_read_of_agree counted agree
  have own : key.text.ciphertext.length = key.ciphertext.length := rfl
  have tags : text.tag = key.text.tag := by
    have late : 16 * place + min 16 (key.payloadSize - 16 * place) ≤ key.ciphertext.length := by
      change _ ≤ key.payloadSize
      omega
    have behind := inText.drop_eq late
    rw [Gcm.Sealed.drop_toBytes own, Gcm.Sealed.drop_toBytes length] at behind
    exact Octets.ext behind.symm
  have inCiphertext : AgreeOutside (16 * place) 16 key.ciphertext text.ciphertext := by
    have inFront := inText.take key.ciphertext.length
    rw [Gcm.Sealed.take_toBytes own, Gcm.Sealed.take_toBytes length] at inFront
    exact AgreeOutside.widen inFront (Nat.le_refl _) (by omega)
  have changed : key.ciphertext ≠ text.ciphertext := by
    intro same
    apply differ
    rw [written, Gcm.Sealed.toBytes, ← same, tags]
    rfl
  have tagKept := Gcm.tag_changed_ciphertext_iff (wrapper.encipherFor password key.salt) key.nonce
    key.header length.symm inCiphertext changed
  have short : text.ciphertext.length ≤ Cipher.longest := by
    rw [length]
    exact recognized.1
  refine ⟨⟨key.salt, key.nonce, text⟩, read, ?_⟩
  refine (and_iff_right short).trans ?_
  change Gcm.tag _ key.nonce key.header text.ciphertext = text.tag ↔ _
  have computed : Gcm.tag (wrapper.encipherFor password key.salt) key.nonce key.header
      key.ciphertext = key.text.tag := recognized.2
  rw [tags, ← computed, eq_comm]
  exact tagKept

/-- Another tag is refused in every use. -/
theorem fails_of_tag_changed (nonempty : password ≠ [])
    (recognized : wrapper.Recognizes password key)
    (counted : altered.length = key.toBytes.length) (differ : altered ≠ key.toBytes)
    (agree : AgreeOutside (key.toBytes.length - 16) 16 key.toBytes altered) :
    wrapper.Fails password altered .authentication (.ok false) := by
  obtain ⟨changed, read, unrecognized⟩ :=
    wrapper.exists_unrecognized_of_tag_changed recognized counted differ agree
  exact (wrapper.fails_iff_unrecognized nonempty read).mpr unrecognized

/-- A ciphertext changed inside one block is refused in every use, unless the hash key is zero; in
that case the password is still the right one. -/
theorem fails_iff_of_block_changed (nonempty : password ≠ [])
    (recognized : wrapper.Recognizes password key)
    (counted : altered.length = key.toBytes.length) (differ : altered ≠ key.toBytes) (place : Nat)
    (agree : AgreeOutside (WrappedKey.headerSize + 16 * place)
      (min 16 (key.payloadSize - 16 * place)) key.toBytes altered) :
    (wrapper.Fails password altered .authentication (.ok false) ↔
      wrapper.hashKeyFor password key.salt ≠ Block.zero) ∧
    (wrapper.hashKeyFor password key.salt = Block.zero →
      (wrapper.verifyPassword password altered).result = .ok true) := by
  obtain ⟨changed, read, recognizes⟩ :=
    wrapper.exists_recognized_iff_of_block_changed recognized counted differ place agree
  constructor
  · rw [wrapper.fails_iff_unrecognized nonempty read, recognizes]
  · intro zero
    exact wrapper.verifyPassword_eq_true nonempty read (recognizes.mpr zero)

/-- Another version is reported in every use, whatever the password. -/
theorem fails_of_version_changed (password : Bytes)
    (counted : altered.length = key.toBytes.length)
    (other : altered.head? ≠ some WrappedKey.version) :
    ∃ failure : Failure, failure.report.kind = "MalformedBlob" ∧ failure.report.code = 2002 ∧
      wrapper.Fails password altered failure (.error failure) := by
  obtain ⟨first, unread⟩ := key.exists_unknown_version counted other
  exact ⟨.unknownVersion first, rfl, rfl, wrapper.fails_of_unread unread password⟩

/-- A single byte changed behind the nonce is refused in every use, unless the hash key is zero. -/
theorem fails_of_byte_changed (nonempty : password ≠ [])
    (recognized : wrapper.Recognizes password key)
    (counted : altered.length = key.toBytes.length) (differ : altered ≠ key.toBytes) (index : Nat)
    (behind : WrappedKey.headerSize ≤ index)
    (agree : AgreeOutside index 1 key.toBytes altered)
    (nonzero : wrapper.hashKeyFor password key.salt ≠ Block.zero) :
    wrapper.Fails password altered .authentication (.ok false) := by
  have sizes : key.toBytes.length = 45 + key.payloadSize := key.size_eq
  have start : WrappedKey.headerSize = 29 := rfl
  have inside : index < key.toBytes.length := by
    obtain ⟨found, notBefore, notBehind, changed⟩ := agree.exists_inside differ.symm
    by_contra outside
    apply changed
    rw [List.getElem?_eq_none (by omega), List.getElem?_eq_none (by omega)]
  by_cases inTag : key.toBytes.length - 16 ≤ index
  · have inLast : AgreeOutside (key.toBytes.length - 16) 16 key.toBytes altered :=
      agree.widen inTag (by omega)
    exact wrapper.fails_of_tag_changed nonempty recognized counted differ inLast
  · let place := (index - 29) / 16
    have inBlock : AgreeOutside (WrappedKey.headerSize + 16 * place)
        (min 16 (key.payloadSize - 16 * place)) key.toBytes altered :=
      agree.widen (by omega) (by omega)
    have refused := wrapper.fails_iff_of_block_changed nonempty recognized counted differ place
      inBlock
    exact refused.1.mpr nonzero

/-- Just the payloads that are not too long are wrapped, and every change of the stored form that
keeps its length is met as follows. With only the tag changed, the record is refused in every use.
With only one block of the ciphertext changed, it is refused exactly when the enciphered block of
zeros is not zero, and opens otherwise. With another first byte, its version is reported. In
particular a single changed byte of ciphertext or tag is noticed, unless the enciphered block of
zeros is zero. -/
theorem alteration_noticed {password : Bytes} (nonempty : password ≠ []) (payload : Bytes)
    {supply : Supply} (enough : 28 ≤ supply.remaining.length) :
    ((∃ key, (wrapper.wrap password payload supply).1.result = .ok key) ↔
      payload.length ≤ Cipher.longest) ∧
    ∀ key, (wrapper.wrap password payload supply).1.result = .ok key →
      ∃ cipher, (wrapper.cipher password key.salt).result = .ok cipher ∧
      ∀ altered, altered.length = key.toBytes.length → altered ≠ key.toBytes →
        (AgreeOutside (key.toBytes.length - 16) 16 key.toBytes altered →
          wrapper.Fails password altered .authentication (.ok false)) ∧
        (∀ place, AgreeOutside (29 + 16 * place) (min 16 (payload.length - 16 * place))
            key.toBytes altered →
          (wrapper.Fails password altered .authentication (.ok false) ↔
            Gcm.hashKey cipher.encipher ≠ Block.zero) ∧
          (Gcm.hashKey cipher.encipher = Block.zero →
            (wrapper.verifyPassword password altered).result = .ok true)) ∧
        (altered.head? ≠ some 1 → ∃ failure : Failure,
          failure.report.kind = "MalformedBlob" ∧ failure.report.code = 2002 ∧
            wrapper.Fails password altered failure (.error failure)) ∧
        (∀ index, 29 ≤ index → AgreeOutside index 1 key.toBytes altered →
          Gcm.hashKey cipher.encipher ≠ Block.zero →
            wrapper.Fails password altered .authentication (.ok false)) := by
  have wraps := wrapper.exists_wrap_iff nonempty enough payload
  refine ⟨wraps, ?_⟩
  intro key wrapped
  have fits : payload.length ≤ Cipher.longest := wraps.mp ⟨key, wrapped⟩
  obtain ⟨record, recorded, recognized, _, sizes⟩ :=
    wrapper.exists_wrapped nonempty fits enough
  rw [wrapped] at recorded
  obtain rfl := Except.ok.inj recorded
  have derived := wrapper.cipher_of_password nonempty key.salt
  have hashed : Gcm.hashKey (Cipher.encipher ⟨wrapper.keyFor password key.salt⟩) =
      wrapper.hashKeyFor password key.salt := by
    rw [encipher_keyFor, hashKeyFor]
  refine ⟨⟨wrapper.keyFor password key.salt⟩, by rw [derived], ?_⟩
  intro altered counted differ
  rw [hashed, ← sizes]
  refine ⟨?_, ?_, ?_, ?_⟩
  · exact wrapper.fails_of_tag_changed nonempty recognized counted differ
  · exact wrapper.fails_iff_of_block_changed nonempty recognized counted differ
  · exact wrapper.fails_of_version_changed password counted
  · exact wrapper.fails_of_byte_changed nonempty recognized counted differ

/-- Whatever is written over the last byte of what the usual wrapper wraps is noticed. -/
theorem last_byte_noticed :
    ∃ key, (standard.wrap [0x61] [0x62] ⟨List.replicate 28 0⟩).1.result = .ok key ∧
      ∀ byte, key.toBytes[key.toBytes.length - 1]? ≠ some byte →
        standard.Fails [0x61] (key.toBytes.set (key.toBytes.length - 1) byte) .authentication
          (.ok false) := by
  have nonempty : ([0x61] : Bytes) ≠ [] := by decide
  have enough : 28 ≤ (Supply.mk (List.replicate 28 0)).remaining.length := by decide
  obtain ⟨wraps, met⟩ := alteration_noticed standard nonempty [0x62] enough
  obtain ⟨key, wrapped⟩ := wraps.mpr (by decide)
  obtain ⟨_, _, noticed⟩ := met key wrapped
  refine ⟨key, wrapped, ?_⟩
  intro byte other
  let last := key.toBytes.length - 1
  have long := key.leastSize_le
  rw [WrappedKey.leastSize] at long
  have counted : (key.toBytes.set last byte).length = key.toBytes.length := List.length_set
  have differ : key.toBytes.set last byte ≠ key.toBytes := by
    intro same
    apply other
    rw [← same, counted]
    exact List.getElem?_set_self (by omega)
  have inTag : AgreeOutside (key.toBytes.length - 16) 16 key.toBytes
      (key.toBytes.set last byte) :=
    (AgreeOutside.set key.toBytes last byte).widen (by omega) (by omega)
  exact (noticed _ counted differ).1 inTag

end Wrapper

end KeyWrapping
