import KeyWrapping.Digest.Pbkdf2
import KeyWrapping.Params
import KeyWrapping.Secret
import KeyWrapping.Traced

/-!
# Deriving keys from passwords

A deriver refuses to work with fewer iterations than its floor, and no deriver has a floor below
the lowest one. It checks the password, the salt, the iterations and the key length, in this
order, and then derives; parameters can be checked alone, with the same refusals.
-/

namespace KeyWrapping

/-- `SALT_SIZE` — the count of bytes of a salt. -/
def saltSize : Nat := 16

/-- `MIN_ITERATIONS` — the floor that no deriver can go below. -/
def lowestFloor : UInt32 := 100000

/-- `KeyDeriver` — a source of keys with a floor for the iterations. -/
structure Deriver where
  /-- The least number of iterations. -/
  floor : UInt32
  /-- No floor is below the lowest one. -/
  lowest_le_floor : lowestFloor ≤ floor
  deriving DecidableEq

namespace Deriver

/-- `KeyDeriver::new` — the deriver with the lowest floor. -/
def standard : Deriver := ⟨lowestFloor, by decide⟩

/-- `KeyDeriver::with_min_iterations` — a deriver with a raised floor. -/
def withFloor (floor : UInt32) : Except Failure Deriver :=
  if high : lowestFloor ≤ floor then .ok ⟨floor, high⟩
  else .error (.floorTooLow lowestFloor floor)

/-- The deriver as a record, as a `KeyDeriver` is debugged. -/
def shown (deriver : Deriver) : String :=
  Text.record "KeyDeriver" [("min_iterations", toString deriver.floor.toNat)]

/-- The parameters that a deriver works with. -/
def Accepts (deriver : Deriver) (params : Params) : Prop :=
  deriver.floor ≤ params.iterations ∧ (params.keyLength = 16 ∨ params.keyLength = 32)

instance (deriver : Deriver) (params : Params) : Decidable (deriver.Accepts params) :=
  inferInstanceAs (Decidable (_ ∧ _))

/-- The first check of `KeyDeriver::derive`: a password has at least one byte. -/
def checkPassword (password : Bytes) : Except Failure Unit :=
  if password.isEmpty then .error .emptyPassword else .ok ()

/-- The second check of `KeyDeriver::derive`: a salt has sixteen bytes. -/
def checkSalt (salt : Bytes) : Except Failure Unit :=
  if salt.length = saltSize then .ok () else .error (.saltLength salt.length)

/-- `KeyDeriver::check_iterations` — the iterations reach the floor. -/
def checkIterations (deriver : Deriver) (iterations : UInt32) : Except Failure Unit :=
  if deriver.floor ≤ iterations then .ok () else .error (.tooFewIterations deriver.floor iterations)

/-- `check_key_length` — a key has sixteen or thirty-two bytes. -/
def checkKeyLength (keyLength : UInt64) : Except Failure Unit :=
  if keyLength = 16 ∨ keyLength = 32 then .ok () else .error (.derivedKeyLength keyLength)

/-- `KeyDeriver::validate` — check parameters alone. -/
def validate (deriver : Deriver) (params : Params) : Except Failure Unit := do
  deriver.checkIterations params.iterations
  checkKeyLength params.keyLength

/-- `KeyDeriver::derive` — derive a key from a password and a salt. -/
def derive (deriver : Deriver) (password salt : Bytes) (iterations : UInt32)
    (keyLength : UInt64) : Traced Secret := do
  Traced.ofExcept (checkPassword password)
  Traced.ofExcept (checkSalt salt)
  Traced.ofExcept (deriver.checkIterations iterations)
  Traced.ofExcept (checkKeyLength keyLength)
  Traced.log (.derivation keyLength.toNat iterations.toNat)
  return ⟨Pbkdf2.stretch password salt iterations.toNat keyLength.toNat⟩

/-- `KeyDeriver::derive_with_params` — derive a key with the iterations and the length of some
parameters. -/
def deriveFor (deriver : Deriver) (password salt : Bytes) (params : Params) : Traced Secret :=
  deriver.derive password salt params.iterations params.keyLength

/-- Parameters pass the check exactly when the deriver accepts them. -/
theorem validate_eq_ok_iff (deriver : Deriver) (params : Params) :
    deriver.validate params = .ok () ↔ deriver.Accepts params := by
  unfold validate checkIterations checkKeyLength Accepts
  by_cases high : deriver.floor ≤ params.iterations
  · by_cases known : params.keyLength = 16 ∨ params.keyLength = 32
    · simp [high, known, bind, Except.bind]
    · simp [high, known, bind, Except.bind]
  · simp [high, bind, Except.bind]

end Deriver

end KeyWrapping
