import HealthRelay.Failure

/-!
# Progress

What one look at a piece of work finds: still pending, or ready with a result. Background work may
also end in a panic.
-/

namespace HealthRelay

/-- The answer of one look at a piece of work. -/
inductive Progress (α : Type) where
  | pending
  | ready (result : α)
deriving DecidableEq, Repr

/-- How a probe call can end. -/
inductive Ending (α : Type) where
  | done (result : α)
  | failed (cause : Failure)
  | panicked (message : String)
deriving DecidableEq, Repr

namespace Ending

/-- The end of a call that either was let down from outside or came to an end of its own. -/
def ofResult {α : Type} : Except Failure (Ending α) → Ending α
  | .ok ending => ending
  | .error cause => .failed cause

end Ending

namespace Progress

def map {α β : Type} (f : α → β) : Progress α → Progress β
  | .pending => .pending
  | .ready a => .ready (f a)

def isReady {α : Type} : Progress α → Bool
  | .pending => false
  | .ready _ => true

end Progress

end HealthRelay
