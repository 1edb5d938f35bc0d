import HealthRelay.Session

/-!
# Scripts

Collaborators that behave as they are told, call by call; the last behaviour repeats. Every call may
sleep before it does anything else.
-/

namespace HealthRelay.Simulation

/-- What a call does after its sleep. -/
inductive Course where
  | ends (ending : Ending Sample)
  | never
  /-- Ends once its scope is cancelled. -/
  | whenCancelled (sample : Sample)
deriving DecidableEq, Repr

/-- How a collaborator behaves in one call. -/
structure Behaviour where
  /-- The sleep in nanoseconds. -/
  delay : Nat
  /-- Whether the call keeps to its scope. -/
  isGated : Bool
  course : Course
deriving DecidableEq, Repr

namespace Behaviour

/-- What the call answers after some time. -/
def answer (b : Behaviour) (elapsed : Nat) (cancelled : Bool) : Progress (Ending Sample) :=
  if elapsed < b.delay then .pending
  else
    match b.course with
    | .ends ending => .ready ending
    | .never => .pending
    | .whenCancelled sample => if cancelled then .ready (.done sample) else .pending

/-- A call that keeps to its scope and ends as soon as it is looked at. -/
def settled (ending : Ending Sample) : Behaviour := ⟨0, true, .ends ending⟩

end Behaviour

/-- The behaviours of a collaborator, call by call. -/
abbrev Script := List Behaviour

namespace Script

def get (s : Script) (n : Nat) : Behaviour :=
  (s[n]?.or s.getLast?).getD ⟨0, true, .never⟩

def isGated (s : Script) (n : Nat) : Bool := (s.get n).isGated

/-- What a probe call answers. The calls that have begun are given; any other begins now. -/
def probe (s : Script) (calls : List Call) (now : Nat) (cancelled : Bool) (n : Nat) :
    Progress (Ending Sample) :=
  let began := (calls[n]?.map (·.scope.openedAt)).getD now
  (s.get n).answer (now - began) cancelled

def deliver (s : Script) (calls : List Call) (now : Nat) (cancelled : Bool) (n : Nat) :
    Progress (Except Failure Unit) :=
  (s.probe calls now cancelled n).map fun
    | .done _ => .ok ()
    | .failed cause => .error cause
    | .panicked message => .error (.task message)

def timers (s : Script) (calls : List Call) : List Nat :=
  match calls.getLast? with
  | some c =>
    if c.scope.isReleased then [] else [c.scope.openedAt + (s.get (calls.length - 1)).delay]
  | none => []

end Script

/-- A token that a task fires at a time, or that never fires. -/
structure Alarm where
  firesAt : Option Nat
  hasFired : Bool
deriving DecidableEq, Repr

namespace Alarm

/-- A token that fires some time from now. Without a wait it has fired already. -/
def start (now : Nat) (wait : Option Nat) : Alarm :=
  ⟨wait.map (now + ·), wait == some 0⟩

/-- The turn of the task that fires the token. -/
def poll (a : Alarm) (now : Nat) : Alarm :=
  match a.firesAt with
  | some t => if t ≤ now then { a with hasFired := true } else a
  | none => a

def timers (a : Alarm) : List Nat := a.firesAt.toList

end Alarm

/-- The wall clock at the start of every simulation, in milliseconds. -/
def wallStart : Nat := 1700000000000

def wallMs (now : Nat) : UInt64 := UInt64.ofNat (wallStart + now / 1000000)

end HealthRelay.Simulation
