import HealthRelay.Scope

/-!
# Calls

One call of a collaborator, from its opening to its end. The call owns a scope; gated work runs
inside that scope, any other work is looked at as it is.
-/

namespace HealthRelay

/-- A call of a collaborator. -/
structure Call where
  scope : Scope
  /-- Whether the work behind the call has ever been looked at. -/
  hasWorked : Bool
deriving DecidableEq, Repr

namespace Call

def start (now : Nat) (budget : Duration) : Call := ⟨.start now budget, false⟩

/-- One look at a call, given what its work would answer. Gated work is left alone once the scope
is cancelled. -/
def look {α : Type} (c : Call) (isGated : Bool) (now : Nat) (cancelled : Bool)
    (answer : Progress α) : Call × Progress (Except Failure α) :=
  if isGated then
    let (hasWorked, progress) := c.scope.run now cancelled (fun _ => (true, answer)) c.hasWorked
    ({ c with hasWorked }, progress)
  else ({ c with hasWorked := true }, answer.map .ok)

def release (c : Call) : Call := { c with scope := c.scope.release }

end Call

end HealthRelay
