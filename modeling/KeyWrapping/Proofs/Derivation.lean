import KeyWrapping.Proofs.Binding
/-!
# What a deriver accepts

A deriver checks the password, then the salt, and then the parameters as if they were checked alone
(`derive_of_salted`). So a key is derived exactly from a password, a salt of sixteen bytes and
accepted parameters (`derive_eq_ok_iff`); what it is does not depend on the floor, which only decides
about refusals. No deriver can be built with a floor below the lowest one, and no wrapper with
parameters that its deriver refuses, so nothing is ever derived with fewer iterations.
-/

namespace KeyWrapping

namespace Deriver

variable {deriver : Deriver} {password salt : Bytes} {iterations : UInt32} {keyLength : UInt64}

/-- A deriver is built with any floor that is not below the lowest one. -/
theorem withFloor_of_high {floor : UInt32} (high : lowestFloor ≤ floor) :
    ∃ deriver, withFloor floor = .ok deriver ∧ deriver.floor = floor :=
  ⟨⟨floor, high⟩, dif_pos high, rfl⟩

/-- No deriver is built with a lower floor. -/
theorem withFloor_of_low {floor : UInt32} (low : floor < lowestFloor) :
    withFloor floor = .error (.floorTooLow lowestFloor floor) :=
  dif_neg (UInt32.not_le.mpr low)

/-- Parameters with too few iterations are refused for them, whatever their key length. -/
theorem validate_of_few (few : iterations < deriver.floor) :
    deriver.validate ⟨iterations, keyLength⟩ =
      .error (.tooFewIterations deriver.floor iterations) := by
  rw [validate, checkIterations, if_neg (UInt32.not_le.mpr few)]
  rfl

/-- Parameters with enough iterations are refused for a key length that no cipher takes. -/
theorem validate_of_length (enough : deriver.floor ≤ iterations)
    (other : ¬(keyLength = 16 ∨ keyLength = 32)) :
    deriver.validate ⟨iterations, keyLength⟩ = .error (.derivedKeyLength keyLength) := by
  rw [validate, checkIterations, if_pos enough, checkKeyLength, if_neg other]
  rfl

/-- The event of a derivation. -/
def event (iterations : UInt32) (keyLength : UInt64) : Event :=
  .derivation keyLength.toNat iterations.toNat

/-- A salt of another length is refused for it, whatever the parameters. -/
theorem derive_of_unsalted (nonempty : password ≠ []) (unsalted : salt.length ≠ 16) :
    deriver.derive password salt iterations keyLength =
      ⟨.error (.saltLength salt.length), []⟩ := by
  have password_ok : checkPassword password = .ok () := by
    rw [checkPassword, if_neg]
    simpa using nonempty
  rw [derive, password_ok, checkSalt, if_neg (by simpa [saltSize] using unsalted)]
  rfl

/-- Behind a password and a salt, deriving is the check of the parameters alone and then the key. -/
theorem derive_of_salted (nonempty : password ≠ []) (salted : salt.length = 16) :
    deriver.derive password salt iterations keyLength =
      match deriver.validate ⟨iterations, keyLength⟩ with
      | .ok () =>
        ⟨.ok ⟨Pbkdf2.stretch password salt iterations.toNat keyLength.toNat⟩,
          [event iterations keyLength]⟩
      | .error failure => ⟨.error failure, []⟩ := by
  have password_ok : checkPassword password = .ok () := by
    rw [checkPassword, if_neg]
    simpa using nonempty
  have salt_ok : checkSalt salt = .ok () := by
    rw [checkSalt, if_pos]
    exact salted
  rw [derive, password_ok, salt_ok, validate]
  cases deriver.checkIterations iterations with
  | error failure => rfl
  | ok enough =>
    cases checkKeyLength keyLength with
    | error failure => rfl
    | ok known => rfl

/-- A key is derived from a password, a salt of sixteen bytes and accepted parameters, and from
nothing else; the floor has no part in what it is. -/
theorem derive_eq_ok_iff (key : Secret) :
    (deriver.derive password salt iterations keyLength).result = .ok key ↔
      (password ≠ [] ∧ salt.length = 16 ∧ deriver.Accepts ⟨iterations, keyLength⟩) ∧
        ⟨Pbkdf2.stretch password salt iterations.toNat keyLength.toNat⟩ = key := by
  by_cases empty : password = []
  · subst empty
    constructor
    · intro derived
      cases derived
    · rintro ⟨⟨nonempty, _⟩, _⟩
      contradiction
  by_cases salted : salt.length = 16
  · rw [derive_of_salted empty salted, ← validate_eq_ok_iff]
    cases deriver.validate ⟨iterations, keyLength⟩ with
    | error failure => simp
    | ok checked => simp [empty, salted]
  · simp [derive_of_unsalted empty salted, salted]

/-- An accepted derivation gives its key. -/
theorem exists_derive_iff :
    (∃ key, (deriver.derive password salt iterations keyLength).result = .ok key) ↔
      password ≠ [] ∧ salt.length = 16 ∧ deriver.Accepts ⟨iterations, keyLength⟩ := by
  simp only [derive_eq_ok_iff, exists_and_left, exists_eq', and_true]

/-- A derivation is noted exactly when it gives a key. -/
theorem events_derive :
    (deriver.derive password salt iterations keyLength).events =
      match (deriver.derive password salt iterations keyLength).result with
      | .ok _ => [event iterations keyLength]
      | .error _ => [] := by
  by_cases empty : password = []
  · subst empty
    rfl
  by_cases salted : salt.length = 16
  · rw [derive_of_salted empty salted]
    cases deriver.validate ⟨iterations, keyLength⟩ with
    | error failure => rfl
    | ok checked => rfl
  · rw [derive_of_unsalted empty salted]

/-- A derivation is traced exactly when it gives a key. -/
theorem traced_iff :
    (∃ entry ∈ (deriver.derive password salt iterations keyLength).events, entry.level = .trace) ↔
      ∃ key, (deriver.derive password salt iterations keyLength).result = .ok key := by
  rw [events_derive]
  cases (deriver.derive password salt iterations keyLength).result with
  | error failure => simp
  | ok key => simp [event, Event.level]

/-- Behind a password and a salt, deriving is refused exactly as the check of the parameters is. -/
theorem derive_eq_error_iff (nonempty : password ≠ []) (salted : salt.length = 16)
    (failure : Failure) :
    (deriver.derive password salt iterations keyLength).result = .error failure ↔
      deriver.validate ⟨iterations, keyLength⟩ = .error failure := by
  rw [derive_of_salted nonempty salted]
  cases deriver.validate ⟨iterations, keyLength⟩ with
  | error refused => simp
  | ok checked => simp

/-- The floor cannot be undercut, and no key has another length. -/
theorem bounds_of_derived {key : Secret}
    (derived : (deriver.derive password salt iterations keyLength).result = .ok key) :
    100000 ≤ iterations ∧ (keyLength = 16 ∨ keyLength = 32) := by
  obtain ⟨_, _, enough, known⟩ := exists_derive_iff.mp ⟨key, derived⟩
  exact ⟨UInt32.le_trans deriver.lowest_le_floor enough, known⟩

/-- A derived key is as long as asked for, and a cipher takes it. -/
theorem cipher_of_derived {key : Secret}
    (derived : (deriver.derive password salt iterations keyLength).result = .ok key) :
    key.size = keyLength.toNat ∧
      ∃ cipher, Cipher.ofKey key.bytes = .ok cipher ∧ cipher.keySize = keyLength.toNat := by
  obtain ⟨⟨_, _, _, known⟩, rfl⟩ := (derive_eq_ok_iff key).mp derived
  have sized : keyLength.toNat = 16 ∨ keyLength.toNat = 32 := by
    rcases known with short | long
    · exact .inl (congrArg UInt64.toNat short)
    · exact .inr (congrArg UInt64.toNat long)
  have counted := Pbkdf2.length_stretch password salt iterations.toNat keyLength.toNat (by omega)
  obtain ⟨cipher, keyed, kept⟩ := Cipher.exists_ofKey (counted ▸ sized)
  refine ⟨counted, cipher, keyed, ?_⟩
  rw [Cipher.keySize, ← Aes.Key.length_bytes, kept, counted]

/-- What a deriver accepts is accepted by every deriver with a lower floor. -/
theorem accepts_of_floor_le {other : Deriver} (lower : deriver.floor ≤ other.floor)
    {params : Params} (accepted : other.Accepts params) : deriver.Accepts params :=
  ⟨UInt32.le_trans lower accepted.1, accepted.2⟩

/-- What a deriver derives is derived by every deriver with a lower floor. -/
theorem derive_of_floor_le {other : Deriver} (lower : deriver.floor ≤ other.floor) {key : Secret}
    (derived : (other.derive password salt iterations keyLength).result = .ok key) :
    (deriver.derive password salt iterations keyLength).result = .ok key := by
  rw [derive_eq_ok_iff] at derived ⊢
  obtain ⟨⟨nonempty, salted, accepted⟩, same⟩ := derived
  exact ⟨⟨nonempty, salted, accepts_of_floor_le lower accepted⟩, same⟩

end Deriver

namespace Wrapper

/-- A wrapper is built over a deriver exactly from the parameters that pass its check. -/
theorem withDeriver_eq_ok_iff (params : Params) (deriver : Deriver) (wrapper : Wrapper) :
    withDeriver params deriver = .ok wrapper ↔
      deriver.validate params = .ok () ∧ wrapper.params = params ∧ wrapper.deriver = deriver := by
  obtain ⟨own, source, accepted⟩ := wrapper
  unfold withDeriver
  split
  · next checked =>
    simp only [Except.ok.injEq, mk.injEq, checked, true_and]
    exact and_congr eq_comm eq_comm
  · next failure refused => simp [refused]

/-- Parameters that pass the check of a deriver, and no others, make a wrapper over it. -/
theorem exists_withDeriver_iff (params : Params) (deriver : Deriver) :
    (∃ wrapper, withDeriver params deriver = .ok wrapper) ↔ deriver.validate params = .ok () := by
  simp only [withDeriver_eq_ok_iff]
  constructor
  · rintro ⟨wrapper, checked, _⟩
    exact checked
  · intro checked
    exact ⟨⟨params, deriver, (Deriver.validate_eq_ok_iff _ _).mp checked⟩, checked, rfl, rfl⟩

end Wrapper

namespace Deriver

/-- Deriving and checking agree, and the floor holds. A key is derived exactly from a password, a
salt of sixteen bytes and parameters that pass their check; otherwise the first of password, salt,
iterations and key length that is wrong names the refusal, and behind a good password and salt it is
the refusal of the check. A derivation is traced exactly when it gives a key; the key has the length
asked for and is taken by a cipher of this key size. Two derivers that both give a key give the same
one, and the lower floor accepts all that the higher one does. No deriver is built with a floor
below a hundred thousand, so with fewer iterations, or for another key length than sixteen and
thirty-two, there is never a key; and a wrapper is built exactly from what its deriver accepts. -/
theorem derives_what_it_validates (deriver : Deriver) (password salt : Bytes)
    (iterations : UInt32) (keyLength : UInt64) :
    let derived := deriver.derive password salt iterations keyLength
    let checked := deriver.validate ⟨iterations, keyLength⟩
    ((∃ key, derived.result = .ok key) ↔
      password ≠ [] ∧ salt.length = 16 ∧ checked = .ok ()) ∧
    (password = [] → RefusedAs derived.result .emptyPassword "InvalidParameter" 1004) ∧
    (password ≠ [] → salt.length ≠ 16 →
      RefusedAs derived.result (.saltLength salt.length) "InvalidParameter" 1001) ∧
    (password ≠ [] → salt.length = 16 →
      (iterations < deriver.floor →
        RefusedAs derived.result (.tooFewIterations deriver.floor iterations)
          "InvalidParameter" 1002) ∧
      (deriver.floor ≤ iterations → ¬(keyLength = 16 ∨ keyLength = 32) →
        RefusedAs derived.result (.derivedKeyLength keyLength) "InvalidParameter" 1003) ∧
      ∀ failure, derived.result = .error failure ↔ checked = .error failure) ∧
    ((∃ entry ∈ derived.events, entry.level = .trace) ↔ ∃ key, derived.result = .ok key) ∧
    (∀ key, derived.result = .ok key →
      derived.events = [.derivation keyLength.toNat iterations.toNat] ∧
      key.size = keyLength.toNat ∧
      ∃ cipher, Cipher.ofKey key.bytes = .ok cipher ∧ cipher.keySize = keyLength.toNat) ∧
    (∀ (other : Deriver) (key key' : Secret), derived.result = .ok key →
      (other.derive password salt iterations keyLength).result = .ok key' → key = key') ∧
    (∀ other : Deriver, deriver.floor ≤ other.floor →
      (∀ key, (other.derive password salt iterations keyLength).result = .ok key →
        derived.result = .ok key) ∧
      ∀ params, other.validate params = .ok () → deriver.validate params = .ok ()) ∧
    (∀ floor, (floor < 100000 → RefusedAs (withFloor floor) (.floorTooLow 100000 floor)
        "InvalidParameter" 1002) ∧
      (100000 ≤ floor → ∃ raised, withFloor floor = .ok raised ∧ raised.floor = floor)) ∧
    (∀ key, derived.result = .ok key →
      100000 ≤ iterations ∧ (keyLength = 16 ∨ keyLength = 32)) ∧
    ∀ params, ((∃ wrapper, Wrapper.withDeriver params deriver = .ok wrapper) ↔
        deriver.validate params = .ok ()) ∧
      ∀ wrapper, Wrapper.withDeriver params deriver = .ok wrapper →
        wrapper.params = params ∧ wrapper.deriver = deriver := by
  refine ⟨?_, ?_, ?_, ?_, traced_iff, ?_, ?_, ?_, ?_, fun _ => bounds_of_derived, ?_⟩
  · rw [validate_eq_ok_iff]
    exact exists_derive_iff
  · rintro rfl
    exact ⟨rfl, rfl, rfl⟩
  · intro nonempty unsalted
    refine ⟨?_, rfl, rfl⟩
    rw [derive_of_unsalted nonempty unsalted]
  · intro nonempty salted
    refine ⟨?_, ?_, derive_eq_error_iff nonempty salted⟩
    · intro few
      exact ⟨(derive_eq_error_iff nonempty salted _).mpr (validate_of_few few), rfl, rfl⟩
    · intro enough other
      exact ⟨(derive_eq_error_iff nonempty salted _).mpr (validate_of_length enough other), rfl, rfl⟩
  · intro key derived
    refine ⟨?_, cipher_of_derived derived⟩
    rw [events_derive, derived]
    rfl
  · intro other key key' derived derived'
    rw [derive_eq_ok_iff] at derived derived'
    rw [← derived.2, ← derived'.2]
  · intro other lower
    refine ⟨fun _ => derive_of_floor_le lower, ?_⟩
    intro params
    rw [validate_eq_ok_iff, validate_eq_ok_iff]
    exact accepts_of_floor_le lower
  · intro floor
    refine ⟨?_, withFloor_of_high⟩
    intro low
    exact ⟨withFloor_of_low low, rfl, rfl⟩
  · intro params
    refine ⟨Wrapper.exists_withDeriver_iff params deriver, ?_⟩
    intro wrapper built
    exact ((Wrapper.withDeriver_eq_ok_iff params deriver wrapper).mp built).2

end Deriver

end KeyWrapping
