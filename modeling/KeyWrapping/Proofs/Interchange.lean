import KeyWrapping.Proofs.Layout
import KeyWrapping.Proofs.WrongPassword
/-!
# Passwords that are one password

A password is used in two ways only: it is looked at whether it is empty, and the keyed digest makes
its block. Passwords with one block therefore derive the same keys (`derive_congr`), and no call of
a wrapper, nor any run of calls, can tell them apart (`session_congr`). Which passwords have one block
is decided by the zero bytes that fill it: they agree up to zeros at the end, with the digest standing
in for a password that is longer than the block (`keyBlock_eq_iff`).
-/

namespace KeyWrapping

namespace Hmac

/-- The bytes of a key before its block is filled. -/
def shortened (key : Bytes) : Bytes := if key.length ≤ 64 then key else Sha256.digest key

/-- A string filled with zeros to a block. -/
def filled (bytes : Bytes) : Bytes := bytes ++ List.replicate (64 - bytes.length) 0

/-- A block is the shortened key, filled. -/
theorem keyBlock_eq_filled (key : Bytes) : keyBlock key = filled (shortened key) := rfl

/-- A key that fits into its block is not shortened. -/
theorem shortened_of_short {key : Bytes} (short : key.length ≤ 64) : shortened key = key :=
  if_pos short

/-- A key that is longer than its block is digested. -/
theorem shortened_of_long {key : Bytes} (long : 64 < key.length) :
    shortened key = Sha256.digest key :=
  if_neg (Nat.not_le.mpr long)

/-- Zero bytes behind a string that still fits into the block change nothing. -/
theorem filled_append_zeros (bytes : Bytes) (count : Nat) (short : bytes.length + count ≤ 64) :
    filled (bytes ++ List.replicate count 0) = filled bytes := by
  have together : count + (64 - (bytes.length + count)) = 64 - bytes.length := by omega
  rw [filled, filled, List.append_assoc, List.length_append, List.length_replicate,
    List.replicate_append_replicate, together]

/-- Of two strings that are filled to one block, the longer is the shorter with zeros behind it. -/
theorem eq_append_zeros_of_filled {left right : Bytes} (same : filled left = filled right)
    (le : left.length ≤ right.length) (short : right.length ≤ 64) :
    right = left ++ List.replicate (right.length - left.length) 0 := by
  have least : min (right.length - left.length) (64 - left.length) =
      right.length - left.length := by omega
  calc
    right = (filled right).take right.length := by rw [filled, List.take_left]
    _ = (filled left).take right.length := by rw [same]
    _ = left ++ List.replicate (right.length - left.length) 0 := by
      rw [filled, List.take_append, List.take_of_length_le le, List.take_replicate, least]

/-- The ways in which two passwords have one block. -/
inductive SameBlock : Bytes → Bytes → Prop where
  /-- One is the other with zero bytes behind it, and both fit into the block. -/
  | zeros (key : Bytes) (count : Nat) (short : key.length + count ≤ 64) :
    SameBlock key (key ++ List.replicate count 0)
  /-- One is longer than the block, and the other is its digest with zero bytes behind it. -/
  | digest {key : Bytes} (long : 64 < key.length) (count : Nat) (short : 32 + count ≤ 64) :
    SameBlock key (Sha256.digest key ++ List.replicate count 0)
  /-- One is longer than the block, and the other is its digest without zero bytes at the end. -/
  | cut {key : Bytes} (long : 64 < key.length) {start : Bytes} {count : Nat}
    (ends : Sha256.digest key = start ++ List.replicate count 0) : SameBlock key start
  /-- Both are longer than the block and have one digest. -/
  | digests {key other : Bytes} (long : 64 < key.length) (long' : 64 < other.length)
    (same : Sha256.digest key = Sha256.digest other) : SameBlock key other
  /-- The order does not matter. -/
  | symm {key other : Bytes} (same : SameBlock key other) : SameBlock other key

/-- Passwords in one of these ways have one block. -/
theorem SameBlock.keyBlock_eq {left right : Bytes} (same : SameBlock left right) :
    keyBlock left = keyBlock right := by
  induction same with
  | zeros key count short => exact (keyBlock_append_zeros key count short).symm
  | @digest key long count short =>
    have fits : (Sha256.digest key ++ List.replicate count 0).length ≤ 64 := by
      rwa [List.length_append, List.length_replicate, Sha256.length_digest]
    rw [keyBlock_eq_filled, keyBlock_eq_filled, shortened_of_long long, shortened_of_short fits,
      filled_append_zeros _ _ (by rwa [Sha256.length_digest])]
  | @cut key long start count ends =>
    have counted : start.length + count = 32 := by
      have lengths := congrArg List.length ends
      rw [Sha256.length_digest, List.length_append, List.length_replicate] at lengths
      exact lengths.symm
    rw [keyBlock_eq_filled, keyBlock_eq_filled, shortened_of_long long,
      shortened_of_short (by omega), ends, filled_append_zeros _ _ (by omega)]
  | digests long long' same =>
    rw [keyBlock_eq_filled, keyBlock_eq_filled, shortened_of_long long, shortened_of_long long',
      same]
  | symm _ ih => exact ih.symm

/-- A password with the block of a longer one that fits into it is that one without some zeros. -/
theorem sameBlock_of_short {left right : Bytes} (same : keyBlock left = keyBlock right)
    (le : left.length ≤ right.length) (short : right.length ≤ 64) : SameBlock left right := by
  rw [keyBlock_eq_filled, keyBlock_eq_filled, shortened_of_short short,
    shortened_of_short (Nat.le_trans le short)] at same
  have longer := eq_append_zeros_of_filled same le short
  rw [longer]
  exact .zeros left _ (by omega)

/-- A password that fits into the block of a longer one is its digest up to zeros. -/
theorem sameBlock_of_long {left right : Bytes} (same : keyBlock left = keyBlock right)
    (long : 64 < left.length) (short : right.length ≤ 64) : SameBlock left right := by
  rw [keyBlock_eq_filled, keyBlock_eq_filled, shortened_of_long long,
    shortened_of_short short] at same
  have counted : (Sha256.digest left).length = 32 := Sha256.length_digest left
  by_cases whole : 32 ≤ right.length
  · have longer := eq_append_zeros_of_filled same (by omega) short
    rw [longer]
    exact .digest long _ (by omega)
  · exact .cut long (eq_append_zeros_of_filled same.symm (by omega) (by omega))

/-- Passwords have one block in these ways and in no other. -/
theorem keyBlock_eq_iff (left right : Bytes) :
    keyBlock left = keyBlock right ↔ SameBlock left right := by
  refine ⟨?_, SameBlock.keyBlock_eq⟩
  intro same
  by_cases long : 64 < left.length
  · by_cases long' : 64 < right.length
    · have counted (key : Bytes) : (Sha256.digest key).length = 32 := Sha256.length_digest key
      rw [keyBlock_eq_filled, keyBlock_eq_filled, shortened_of_long long,
        shortened_of_long long'] at same
      exact .digests long long' (List.append_inj same (by rw [counted, counted])).1
    · exact sameBlock_of_long same long (Nat.not_lt.mp long')
  · by_cases long' : 64 < right.length
    · exact (sameBlock_of_long same.symm long' (Nat.not_lt.mp long)).symm
    · rcases Nat.le_total left.length right.length with le | le
      · exact sameBlock_of_short same le (Nat.not_lt.mp long')
      · exact (sameBlock_of_short same.symm le (Nat.not_lt.mp long)).symm

end Hmac

/-- Two passwords that are both empty or both not, and have one block. -/
structure Interchangeable (left right : Bytes) : Prop where
  /-- Neither is empty unless the other is. -/
  together : left = [] ↔ right = []
  /-- They have one block. -/
  block : Hmac.keyBlock left = Hmac.keyBlock right

namespace Interchangeable

/-- A password can stand in for itself. -/
theorem refl (password : Bytes) : Interchangeable password password := ⟨Iff.rfl, rfl⟩

/-- Passwords that are not empty and have one block can stand in for each other. -/
theorem of_block {left right : Bytes} (given : left ≠ []) (given' : right ≠ [])
    (block : Hmac.keyBlock left = Hmac.keyBlock right) : Interchangeable left right :=
  ⟨iff_of_false given given', block⟩

/-- They pass the check of a password together. -/
theorem checkPassword_eq {left right : Bytes} (same : Interchangeable left right) :
    Deriver.checkPassword left = Deriver.checkPassword right := by
  simp only [Deriver.checkPassword, List.isEmpty_iff, same.together]

end Interchangeable

/-- From interchangeable passwords a deriver derives the same, with the same events. -/
theorem Deriver.derive_congr {left right : Bytes} (same : Interchangeable left right)
    (deriver : Deriver) (salt : Bytes) (iterations : UInt32) (keyLength : UInt64) :
    deriver.derive left salt iterations keyLength =
      deriver.derive right salt iterations keyLength := by
  rw [derive, derive, same.checkPassword_eq, Pbkdf2.stretch_congr same.block]

/-- Calls that are the same but for interchangeable passwords. -/
inductive Call.SamePasswords : Call → Call → Prop where
  /-- One payload. -/
  | wrap {password password' : Bytes} (same : Interchangeable password password')
    (payload : Bytes) : SamePasswords (.wrap password payload) (.wrap password' payload)
  /-- One stored form. -/
  | unwrap {password password' : Bytes} (same : Interchangeable password password')
    (stored : Bytes) : SamePasswords (.unwrap password stored) (.unwrap password' stored)
  /-- One record. -/
  | unwrapKey {password password' : Bytes} (same : Interchangeable password password')
    (key : WrappedKey) : SamePasswords (.unwrapKey password key) (.unwrapKey password' key)
  /-- One stored form, and two passwords that change independently. -/
  | rewrap {oldPassword oldPassword' newPassword newPassword' : Bytes}
    (old : Interchangeable oldPassword oldPassword')
    (new : Interchangeable newPassword newPassword') (stored : Bytes) :
    SamePasswords (.rewrap oldPassword newPassword stored)
      (.rewrap oldPassword' newPassword' stored)
  /-- One stored form. -/
  | verifyPassword {password password' : Bytes} (same : Interchangeable password password')
    (stored : Bytes) :
    SamePasswords (.verifyPassword password stored) (.verifyPassword password' stored)

namespace Wrapper

variable (wrapper : Wrapper) {left right : Bytes}

/-- Interchangeable passwords give the same cipher, with the same events. -/
theorem cipher_congr (same : Interchangeable left right) (salt : Octets 16) :
    wrapper.cipher left salt = wrapper.cipher right salt := by
  rw [cipher, cipher, Deriver.deriveFor, Deriver.deriveFor, Deriver.derive_congr same]

/-- A payload is wrapped alike under interchangeable passwords. -/
theorem wrap_congr (same : Interchangeable left right) (payload : Bytes) (supply : Supply) :
    wrapper.wrap left payload supply = wrapper.wrap right payload supply := by
  simp only [wrap, sealWith, wrapper.cipher_congr same]

/-- A record opens alike under interchangeable passwords. -/
theorem unwrapKey_congr_password (same : Interchangeable left right) (key : WrappedKey) :
    wrapper.unwrapKey left key = wrapper.unwrapKey right key := by
  rw [unwrapKey, unwrapKey, wrapper.cipher_congr same]

/-- A stored form opens alike under interchangeable passwords. -/
theorem unwrap_congr_password (same : Interchangeable left right) (stored : Bytes) :
    wrapper.unwrap left stored = wrapper.unwrap right stored := by
  simp only [unwrap, wrapper.unwrapKey_congr_password same]

/-- Interchangeable passwords are tried with one outcome. -/
theorem verifyPassword_congr (same : Interchangeable left right) (stored : Bytes) :
    wrapper.verifyPassword left stored = wrapper.verifyPassword right stored := by
  rw [verifyPassword, verifyPassword, wrapper.unwrap_congr_password same]

/-- A stored form is moved alike from and to interchangeable passwords. -/
theorem rewrap_congr {left' right' : Bytes} (old : Interchangeable left right)
    (new : Interchangeable left' right') (stored : Bytes) (supply : Supply) :
    wrapper.rewrap left left' stored supply = wrapper.rewrap right right' stored supply := by
  simp only [rewrap, wrapper.unwrap_congr_password old, wrapper.wrap_congr new]

/-- A call does not tell interchangeable passwords apart. -/
theorem answer_congr {call call' : Call} (same : call.SamePasswords call') (supply : Supply) :
    wrapper.answer call supply = wrapper.answer call' supply := by
  cases same with
  | wrap same payload => simp only [answer, wrapper.wrap_congr same]
  | unwrap same stored => simp only [answer, wrapper.unwrap_congr_password same]
  | unwrapKey same key => simp only [answer, wrapper.unwrapKey_congr_password same]
  | rewrap old new stored => simp only [answer, wrapper.rewrap_congr old new]
  | verifyPassword same stored => simp only [answer, wrapper.verifyPassword_congr same]

/-- A run of calls does not tell interchangeable passwords apart, wherever they are used. -/
theorem session_congr {calls calls' : List Call}
    (same : List.Forall₂ Call.SamePasswords calls calls') (supply : Supply) :
    wrapper.session calls supply = wrapper.session calls' supply := by
  induction same generalizing supply with
  | nil => rfl
  | cons first _ ih => rw [session, session, wrapper.answer_congr first, ih]

/-- A payload that is wrapped opens under every interchangeable password. -/
theorem unwrap_of_wrap (same : Interchangeable left right) {payload : Bytes} {supply : Supply}
    {key : WrappedKey} (wrapped : (wrapper.wrap left payload supply).1.result = .ok key) :
    (wrapper.unwrap right key.toBytes).result = .ok ⟨payload⟩ := by
  obtain ⟨nonempty, fits, recorded⟩ := wrapper.record_of_wrap wrapped
  rw [← wrapper.unwrap_congr_password same, unwrap_of_read wrapper key.ofBytes_toBytes, ← recorded]
  exact wrapper.unwrapKey_record nonempty fits key.salt key.nonce

/-- A stored form that is moved to an interchangeable password still opens under the old one. -/
theorem unwrap_of_rewrap (same : Interchangeable left right) {stored : Bytes} {payload : Secret}
    {supply : Supply} {key : WrappedKey}
    (opened : (wrapper.unwrap left stored).result = .ok payload)
    (moved : (wrapper.rewrap left right stored supply).1.result = .ok key) :
    (wrapper.unwrap left key.toBytes).result = .ok payload := by
  rw [wrapper.rewrap_of_opened opened] at moved
  rw [wrapper.unwrap_congr_password same]
  exact wrapper.unwrap_of_wrap (Interchangeable.refl right) moved

/-- Passwords that are not empty and have one block are one password: a deriver derives the same
from them, and every call answers alike and notes the same, whichever of them it is given and in
whichever place, and so does every run of calls. So what is wrapped under one opens under the other,
and moving a stored form from one to the other leaves the old one valid. Passwords have one block
when they are equal up to zero bytes at the end, with the digest for a password of more than
sixty-four bytes. -/
theorem one_block_one_password {password other : Bytes} (given : password ≠ [])
    (given' : other ≠ []) (block : Hmac.keyBlock password = Hmac.keyBlock other) :
    (∀ first second,
      Hmac.keyBlock first = Hmac.keyBlock second ↔ Hmac.SameBlock first second) ∧
    (∀ (deriver : Deriver) (salt : Bytes) (iterations : UInt32) (keyLength : UInt64),
      deriver.derive password salt iterations keyLength =
        deriver.derive other salt iterations keyLength) ∧
    (∀ (wrapper : Wrapper) (payload : Bytes) (supply : Supply),
      wrapper.wrap password payload supply = wrapper.wrap other payload supply) ∧
    (∀ (wrapper : Wrapper) (key : WrappedKey),
      wrapper.unwrapKey password key = wrapper.unwrapKey other key) ∧
    (∀ (wrapper : Wrapper) (stored : Bytes),
      wrapper.unwrap password stored = wrapper.unwrap other stored ∧
      wrapper.verifyPassword password stored = wrapper.verifyPassword other stored ∧
      ∀ (third : Bytes) (supply : Supply),
        wrapper.rewrap password third stored supply = wrapper.rewrap other third stored supply ∧
        wrapper.rewrap third password stored supply = wrapper.rewrap third other stored supply) ∧
    (∀ (wrapper : Wrapper) (calls calls' : List Call) (supply : Supply),
      List.Forall₂ Call.SamePasswords calls calls' →
        wrapper.session calls supply = wrapper.session calls' supply) ∧
    (∀ (wrapper : Wrapper) (payload : Bytes) (supply : Supply) (key : WrappedKey),
      (wrapper.wrap password payload supply).1.result = .ok key →
        (wrapper.unwrap other key.toBytes).result = .ok ⟨payload⟩) ∧
    ∀ (wrapper : Wrapper) (stored : Bytes) (payload : Secret) (supply : Supply)
      (key : WrappedKey), (wrapper.unwrap password stored).result = .ok payload →
        (wrapper.rewrap password other stored supply).1.result = .ok key →
        (wrapper.unwrap password key.toBytes).result = .ok payload := by
  have same : Interchangeable password other := .of_block given given' block
  refine ⟨Hmac.keyBlock_eq_iff, Deriver.derive_congr same, ?_, ?_, ?_, ?_, ?_, ?_⟩
  · intro wrapper
    exact wrapper.wrap_congr same
  · intro wrapper
    exact wrapper.unwrapKey_congr_password same
  · intro wrapper stored
    refine ⟨wrapper.unwrap_congr_password same stored, wrapper.verifyPassword_congr same stored,
      fun third supply => ⟨?_, ?_⟩⟩
    · exact wrapper.rewrap_congr same (.refl third) stored supply
    · exact wrapper.rewrap_congr (.refl third) same stored supply
  · intro wrapper calls calls' supply alike
    exact wrapper.session_congr alike supply
  · intro wrapper payload supply key wrapped
    exact wrapper.unwrap_of_wrap same wrapped
  · intro wrapper stored payload supply key opened moved
    exact wrapper.unwrap_of_rewrap same opened moved

/-- The digest of seventy-two zeros ends in a zero, so its other thirty-one bytes are the same
password as the seventy-two: what is wrapped under these opens under those, and after moving it from
these to those it still opens under these. -/
theorem digest_without_its_zero_opens :
    let password : Bytes := List.replicate 72 0
    let other : Bytes := (Sha256.digest password).take 31
    let supply : Supply := ⟨List.replicate 28 0⟩
    password ≠ [] ∧ other ≠ [] ∧ Hmac.keyBlock password = Hmac.keyBlock other ∧
      ∃ key moved, (standard.wrap password [0x62] supply).1.result = .ok key ∧
        (standard.unwrap other key.toBytes).result = .ok ⟨[0x62]⟩ ∧
        (standard.rewrap password other key.toBytes supply).1.result = .ok moved ∧
        (standard.unwrap password moved.toBytes).result = .ok ⟨[0x62]⟩ := by
  intro password other supply
  have given : password ≠ [] := by decide
  have given' : other ≠ [] := by decide +kernel
  have block : Hmac.keyBlock password = Hmac.keyBlock other := by decide +kernel
  have enough : 28 ≤ supply.remaining.length := by decide
  obtain ⟨_, _, _, _, _, _, opens, stays⟩ := one_block_one_password given given' block
  have fits : ([0x62] : Bytes).length ≤ Cipher.longest := by decide
  obtain ⟨key, wrapped, _, opened, _⟩ := standard.exists_wrapped given fits enough
  obtain ⟨moved, wrapped', _, _, _⟩ := standard.exists_wrapped given' fits enough
  have moves : (standard.rewrap password other key.toBytes supply).1.result = .ok moved := by
    rw [standard.rewrap_of_opened opened]
    exact wrapped'
  exact ⟨given, given', block, key, moved, wrapped, opens standard [0x62] supply key wrapped, moves,
    stays standard key.toBytes ⟨[0x62]⟩ supply moved opened moves⟩

end Wrapper

end KeyWrapping
