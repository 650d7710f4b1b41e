import KeyWrapping.Event
import KeyWrapping.Failure

/-!
# Traced results

An operation gives, beside its result, the events that it passed, in order. Operations follow
each other as long as they succeed; the events of a failed one stay, and nothing after it adds
any (`bind_error`, `bind_ok`).
-/

namespace KeyWrapping

/-- A result and the events on the way to it. -/
structure Traced (α : Type) where
  /-- The value, or why there is none. -/
  result : Except Failure α
  /-- The events in order. -/
  events : List Event

namespace Traced

variable {α β : Type}

/-- A value without events. -/
def value (value : α) : Traced α := ⟨.ok value, []⟩

/-- A failure without events. -/
def fail (failure : Failure) : Traced α := ⟨.error failure, []⟩

/-- A result without events. -/
def ofExcept (result : Except Failure α) : Traced α := ⟨result, []⟩

/-- One event. -/
def log (event : Event) : Traced Unit := ⟨.ok (), [event]⟩

/-- Continue with the value, if there is one; the events of both parts follow each other. -/
def andThen (first : Traced α) (next : α → Traced β) : Traced β :=
  match first.result with
  | .error failure => ⟨.error failure, first.events⟩
  | .ok found => ⟨(next found).result, first.events ++ (next found).events⟩

instance : Monad Traced where
  pure := value
  bind := andThen

/-- Change the result, with the events kept. -/
def mapResult (change : Except Failure α → Except Failure β) (traced : Traced α) : Traced β :=
  ⟨change traced.result, traced.events⟩

/-- After a failure nothing follows. -/
theorem bind_error {first : Traced α} {failure : Failure} (failed : first.result = .error failure)
    (next : α → Traced β) : first >>= next = ⟨.error failure, first.events⟩ := by
  change andThen first next = _
  rw [andThen, failed]

/-- After a value the next operation follows, and so do its events. -/
theorem bind_ok {first : Traced α} {found : α} (succeeded : first.result = .ok found)
    (next : α → Traced β) :
    first >>= next = ⟨(next found).result, first.events ++ (next found).events⟩ := by
  change andThen first next = _
  rw [andThen, succeeded]

end Traced

end KeyWrapping
