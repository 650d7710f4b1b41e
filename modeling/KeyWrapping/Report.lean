import KeyWrapping.Failure
import KeyWrapping.Text.Record

/-!
# Reports

A report is what a caller is told about a failure: a kind, a numeric code, a message for the
log, one for the user, advice, whether trying again can help, and the details by name. Reports
can also be made directly, with any texts and any code, by callers that add failures of their
own. `Failure.report` fixes the report of every failure of this library.
-/

namespace KeyWrapping

/-- The codes that reports carry: the constants of `error_codes`. -/
inductive Code where
  | saltLength | tooFewIterations | keyLength | emptyPassword
  | recordTooShort | unknownVersion | unreadableText
  | authentication | supplyExhausted | sealing
  deriving DecidableEq

/-- The number of a code: thousands by kind of report. -/
def Code.number : Code → UInt32
  | saltLength => 1001
  | tooFewIterations => 1002
  | keyLength => 1003
  | emptyPassword => 1004
  | recordTooShort => 2001
  | unknownVersion => 2002
  | unreadableText => 2003
  | authentication => 3001
  | supplyExhausted => 4001
  | sealing => 5001

/-- `KeyWrapError` — what a caller is told about a failure. -/
inductive Report where
  /-- An argument does not have the form it must have. -/
  | parameter (name expected actual : String) (code : UInt32)
  /-- A stored record cannot be read. -/
  | record (reason : String) (code : UInt32)
  /-- The password is wrong or the record was altered; nothing tells which. -/
  | authentication
  /-- No random bytes could be had. -/
  | randomness (cause : String) (code : UInt32)
  /-- The cipher failed. -/
  | cipher (operation cause : String) (code : UInt32)
  deriving DecidableEq

namespace Report

/-- `KeyWrapError::error_type` — the name of the kind of report. -/
def kind : Report → String
  | parameter .. => "InvalidParameter"
  | record .. => "MalformedBlob"
  | authentication => "AuthenticationFailed"
  | randomness .. => "RandomGenerationError"
  | cipher .. => "AesError"

/-- `KeyWrapError::error_code` — the code of a report. -/
def code : Report → UInt32
  | parameter _ _ _ code => code
  | record _ code => code
  | authentication => Code.authentication.number
  | randomness _ code => code
  | cipher _ _ code => code

/-- The message for the log, as a `KeyWrapError` displays itself. -/
def message : Report → String
  | parameter name expected actual _ =>
    "Invalid parameter: " ++ name ++ " - " ++ expected ++ " - got " ++ actual
  | record reason _ => "Malformed wrapped blob: " ++ reason
  | authentication => "Authentication failed"
  | randomness cause _ => "Random number generation failed: " ++ cause
  | cipher operation cause _ => "AES operation failed: " ++ operation ++ " - " ++ cause

/-- `KeyWrapError::user_friendly_message` — the message for the user, without technical detail. -/
def userMessage : Report → String
  | parameter name expected _ _ =>
    "Invalid parameter '" ++ name ++ "'. Expected " ++ expected ++ "."
  | record .. =>
    "The wrapped key is not in a recognized format. " ++
      "It may be truncated or from an incompatible version."
  | authentication =>
    "The wrapped key could not be opened. " ++
      "The password may be wrong or the data may have been altered."
  | randomness .. => "Random number generation failed. The key could not be wrapped safely."
  | cipher operation _ _ => "Encryption operation '" ++ operation ++ "' failed."

/-- `KeyWrapError::suggested_remediation` — what the caller can do about it. -/
def remediation : Report → Option String
  | parameter _ _ _ code =>
    if code = Code.tooFewIterations.number then
      some "Raise the iteration count to at least the configured minimum."
    else if code = Code.keyLength.number then some "Use a key length of 16 or 32 bytes."
    else if code = Code.emptyPassword.number then some "Supply a non-empty password."
    else some "Check the derivation parameters passed by the caller."
  | record .. =>
    some "Verify the stored blob was not truncated and was produced by a compatible version."
  | authentication =>
    some "Re-prompt for the password. Retrying with the same input will fail again."
  | randomness .. => some "Check system entropy sources."
  | cipher .. => none

/-- `KeyWrapError::is_retryable` — only a want of random bytes can pass by itself. -/
def retryable : Report → Bool
  | randomness .. => true
  | _ => false

/-- The fields of a report by name, without its code. -/
def fields : Report → List (String × String)
  | parameter name expected actual _ =>
    [("parameter", name), ("expected", expected), ("actual", actual)]
  | record reason _ => [("reason", reason)]
  | authentication => []
  | randomness cause _ => [("cause", cause)]
  | cipher operation cause _ => [("operation", operation), ("cause", cause)]

/-- `KeyWrapError::technical_details` — the details of a report made at a time, by name. -/
def details (time : String) (report : Report) : List (String × String) :=
  [("error_code", toString report.code.toNat), ("error_type", report.kind), ("timestamp", time)] ++
    report.fields

/-- The report as a record, as a `KeyWrapError` is debugged; a report without fields is its kind
alone. -/
def shown (report : Report) : String :=
  match report with
  | authentication => report.kind
  | _ =>
    Text.record report.kind
      ((report.fields.map fun (field, value) => (field, Text.quoted value)) ++
        [("error_code", toString report.code.toNat)])

end Report

/-- A count of bytes in words. -/
def countedBytes (count : Nat) : String := toString count ++ " bytes"

/-- A lower bound in words. -/
def atLeast (bound : UInt32) : String := "at least " ++ toString bound.toNat

/-- The lengths of keys in words. -/
def keyLengthsText : String := "16 or 32 bytes"

/-- The report of a failure of this library. -/
def Failure.report : Failure → Report
  | emptyPassword =>
    .parameter "password" "non-empty byte string" (countedBytes 0) Code.emptyPassword.number
  | saltLength count =>
    .parameter "salt" (countedBytes 16) (countedBytes count) Code.saltLength.number
  | tooFewIterations floor requested =>
    .parameter "iterations" (atLeast floor) (toString requested.toNat) Code.tooFewIterations.number
  | floorTooLow lowest requested =>
    .parameter "min_iterations" (atLeast lowest) (toString requested.toNat)
      Code.tooFewIterations.number
  | derivedKeyLength requested =>
    .parameter "key_length" keyLengthsText (countedBytes requested.toNat) Code.keyLength.number
  | cipherKeyLength count =>
    .parameter "key" keyLengthsText (countedBytes count) Code.keyLength.number
  | recordTooShort count =>
    .record ("expected at least 45 bytes, got " ++ toString count) Code.recordTooShort.number
  | unknownVersion version =>
    .record ("unsupported format version " ++ toString version.toNat) Code.unknownVersion.number
  | unreadableText error =>
    .record ("invalid base64: " ++ error.message) Code.unreadableText.number
  | authentication => .authentication
  | supplyExhausted => .randomness "random stream exhausted" Code.supplyExhausted.number
  | sealing => .cipher "encrypt" "AES-GCM encryption failed: aead::Error" Code.sealing.number

end KeyWrapping
