import HealthRelay.Failure

/-!
# Result events

What a session tells its supervisor: a comment, and the failure behind it if there is one.
-/

namespace HealthRelay

/-- A notice of a failure that stopped nothing, or of the end of something. -/
structure Event where
  comment : String
  failure : Option Failure
deriving DecidableEq, Repr

namespace Event

/-- An event without a failure. -/
def note (comment : String) : Event := ⟨comment, none⟩

def about (comment : String) (failure : Failure) : Event := ⟨comment, some failure⟩

def text (e : Event) : String :=
  match e.failure with
  | some failure => e.comment ++ ": " ++ failure.message
  | none => e.comment

end Event

end HealthRelay
