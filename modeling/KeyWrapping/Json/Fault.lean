/-!
# Faults of stored JSON

What can be wrong with a stored text, told apart as far as a caller needs it.
-/

namespace KeyWrapping.Json

/-- What is wrong with a text. -/
inductive Fault where
  /-- The text cannot be continued to JSON. -/
  | malformed
  /-- The text ends too early. -/
  | truncated
  /-- The text is JSON so far, but not of the kind expected. -/
  | mismatch
  deriving DecidableEq

end KeyWrapping.Json
