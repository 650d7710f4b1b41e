import KeyWrapping.Text.Record

/-!
# Derivation parameters

How much work a derivation is to do and how long its key is to be. Parameters are not stored in
a wrapped key, so whoever opens one has to know them; presets fix the usual choices.
-/

namespace KeyWrapping

/-- `KeyDerivationParams` — the parameters of a derivation; any values, acceptable or not. -/
structure Params where
  /-- The number of links in the chain of digests. -/
  iterations : UInt32
  /-- The count of bytes of the derived key. -/
  keyLength : UInt64
  deriving DecidableEq

namespace Params

/-- `DEFAULT_ITERATIONS` — the usual number of iterations. -/
def usualIterations : UInt32 := 310000

/-- `KeyDerivationParams::interactive` — for logins that must not wait. -/
def interactive : Params := ⟨100000, 32⟩

/-- `KeyDerivationParams::moderate`, which is also the default — the usual parameters. -/
def moderate : Params := ⟨usualIterations, 32⟩

/-- `KeyDerivationParams::high_security` — for keys that are rarely opened. -/
def highSecurity : Params := ⟨600000, 32⟩

/-- `KeyDerivationParams::legacy_aes128` — for records under the shorter key. -/
def shortKey : Params := ⟨usualIterations, 16⟩

/-- The fields by their stored names, in decimal. -/
def fields (params : Params) : List (String × String) :=
  [("iterations", toString params.iterations.toNat),
    ("key_length", toString params.keyLength.toNat)]

/-- The parameters as a record, as `KeyDerivationParams` are debugged. -/
def shown (params : Params) : String := Text.record "KeyDerivationParams" params.fields

end Params

end KeyWrapping
