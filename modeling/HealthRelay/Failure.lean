import HealthRelay.ConfigError

/-!
# Failures

What can go wrong while a session runs. Only an identity failure ends a session; every other one
travels upward in an event or inside a sample.
-/

namespace HealthRelay

/-- A failure, with the reason that its origin gave. -/
inductive Failure where
  /-- No identity could be made for a session. -/
  | identity (reason : String)
  /-- A probe did not observe the server. -/
  | probe (reason : String)
  /-- A report did not reach the management plane. -/
  | delivery (reason : String)
  /-- A configuration was refused. -/
  | config (reason : String)
  /-- A call did not finish within its budget. -/
  | deadlineElapsed (budget : Duration)
  /-- A call was stopped from outside. -/
  | cancelled
  /-- A background task did not end well. -/
  | task (reason : String)
deriving DecidableEq, Repr

def Failure.message : Failure → String
  | .identity reason => "identity generation failed: " ++ reason
  | .probe reason => "health probe failed: " ++ reason
  | .delivery reason => "status delivery failed: " ++ reason
  | .config reason => "invalid configuration: " ++ reason
  | .deadlineElapsed budget => "deadline of " ++ budget.text ++ " elapsed"
  | .cancelled => "operation cancelled"
  | .task reason => "background task failed: " ++ reason

def ConfigError.toFailure (e : ConfigError) : Failure :=
  .config e.reason

end HealthRelay
