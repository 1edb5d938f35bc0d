import HealthRelay.Progress

/-!
# Deadline scopes

A scope bounds one outbound call: it has a budget, an absolute expiry, and it counts as cancelled
once it is released or its parent is cancelled. `run` looks at cancellation first, then at the work,
then at the expiry.
-/

namespace HealthRelay

/-- A bounded scope for one call. Times are nanoseconds on the clock. -/
structure Scope where
  openedAt : Nat
  budget : Duration
  expiresAt : Nat
  /-- Set once the call that the scope was opened for is over. -/
  isReleased : Bool
deriving DecidableEq, Repr

namespace Scope

/-- Stands in for budgets that are too long for the clock: thirty years. -/
def farFuture : Duration := .ofSecs 946080000

/-- The clock counts seconds below `2 ^ 63`. -/
def clockEnd : Duration := .ofSecs 9223372036854775808

/-- When a budget that starts now is used up. -/
def expiry (now : Nat) (budget : Duration) : Nat :=
  if now + budget.nanos < clockEnd.nanos then now + budget.nanos else now + farFuture.nanos

def start (now : Nat) (budget : Duration) : Scope :=
  { openedAt := now, budget, expiresAt := expiry now budget, isReleased := false }

def remaining (s : Scope) (now : Nat) : Duration := ⟨s.expiresAt - now⟩

def hasExpired (s : Scope) (now : Nat) : Bool := decide (s.expiresAt ≤ now)

/-- Whether the scope is cancelled, given whether its parent is. -/
def isCancelled (s : Scope) (parent : Bool) : Bool := s.isReleased || parent

def release (s : Scope) : Scope := { s with isReleased := true }

/-- One look at work that runs inside the scope. The work itself is looked at only if the scope is
not cancelled. -/
def run {σ α : Type} (s : Scope) (now : Nat) (parent : Bool) (look : σ → σ × Progress α)
    (work : σ) : σ × Progress (Except Failure α) :=
  if s.isCancelled parent then (work, .ready (.error .cancelled))
  else
    match look work with
    | (work, .ready a) => (work, .ready (.ok a))
    | (work, .pending) =>
      if s.hasExpired now then (work, .ready (.error (.deadlineElapsed s.budget)))
      else (work, .pending)

/-- The first millisecond at which the expiry is noticed. -/
def wakeAt (s : Scope) : Nat := (s.expiresAt + 999999) / 1000000 * 1000000

end Scope

end HealthRelay
