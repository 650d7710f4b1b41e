import KeyWrapping.Text.Base64

/-!
# Failures

Every reason for which an operation of this library can refuse, with the values that it was
refused for. The wording is added by a report.
-/

namespace KeyWrapping

/-- Why an operation gave no result: the causes behind a `KeyWrapError`. -/
inductive Failure where
  /-- The password has no bytes. -/
  | emptyPassword
  /-- The salt has `count` bytes instead of sixteen. -/
  | saltLength (count : Nat)
  /-- The iterations asked for are below the floor of the deriver. -/
  | tooFewIterations (floor requested : UInt32)
  /-- The floor asked for is below the lowest one. -/
  | floorTooLow (lowest requested : UInt32)
  /-- The derived key is to have a length that no cipher takes. -/
  | derivedKeyLength (requested : UInt64)
  /-- The cipher is given a key of `count` bytes. -/
  | cipherKeyLength (count : Nat)
  /-- A stored record is to be read from `count` bytes, fewer than any record has. -/
  | recordTooShort (count : Nat)
  /-- A stored record starts with a version that is not known. -/
  | unknownVersion (version : UInt8)
  /-- A stored text is not the text of any bytes. -/
  | unreadableText (error : Base64.Error)
  /-- The tag does not belong to the key, the header and the ciphertext. -/
  | authentication
  /-- The supply of random bytes holds fewer than asked for. -/
  | supplyExhausted
  /-- The text or the associated data are longer than the cipher seals. -/
  | sealing
  deriving DecidableEq

end KeyWrapping
