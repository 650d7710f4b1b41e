/-!
# Events

What an operation tells the log on its way. An event names lengths and counts, never contents;
its level says how much it matters.
-/

namespace KeyWrapping

/-- How much an event matters to the reader of a log. -/
inductive Level where
  | trace | debug | warn
  deriving DecidableEq

/-- The name of a level. -/
def Level.name : Level → String
  | trace => "TRACE"
  | debug => "DEBUG"
  | warn => "WARN"

/-- What an operation passed on its way. -/
inductive Event where
  /-- All checks are passed and a key is being derived. -/
  | derivation (keyLength iterations : Nat)
  /-- A payload was sealed. -/
  | wrapped (payload bits iterations : Nat)
  /-- A payload was recovered. -/
  | unwrapped (payload : Nat)
  /-- A record of some length was refused. -/
  | rejected (record : Nat)
  deriving DecidableEq

namespace Event

/-- The level of an event. -/
def level : Event → Level
  | derivation .. => .trace
  | wrapped .. => .debug
  | unwrapped .. => .debug
  | rejected .. => .warn

/-- The text of an event. -/
def message : Event → String
  | derivation keyLength iterations =>
    "deriving " ++ toString keyLength ++ "-byte key-encryption key with " ++ toString iterations ++
      " PBKDF2 iterations"
  | wrapped payload bits iterations =>
    "wrapped " ++ toString payload ++ "-byte payload (AES-" ++ toString bits ++ "-GCM, " ++
      toString iterations ++ " iterations)"
  | unwrapped payload => "unwrapped " ++ toString payload ++ "-byte payload"
  | rejected record => "unwrap of " ++ toString record ++ "-byte blob failed authentication"

end Event

end KeyWrapping
