import HealthRelay.Config
import HealthRelay.Failure
import HealthRelay.SessionId

/-!
# The journal

Everything that the daemon tells its operator, as causes. `Entry.record` says for each of them its
level, where it comes from, its message and its fields in order.
-/

namespace HealthRelay

inductive Level where
  | info
  | warn
  | error
deriving DecidableEq, Repr

def Level.word : Level → String
  | .info => "INFO"
  | .warn => "WARN"
  | .error => "ERROR"

inductive FieldValue where
  | text (s : String)
  | count (n : Nat)
deriving DecidableEq, Repr

def FieldValue.shown : FieldValue → String
  | .text s => s
  | .count n => Text.decimalText n

structure Record where
  level : Level
  /-- The part of the daemon that speaks. -/
  target : String
  message : String
  fields : List (String × FieldValue)
deriving DecidableEq, Repr

inductive StopSignal where
  | terminate
  | interrupt
deriving DecidableEq, Repr

def StopSignal.name : StopSignal → String
  | .terminate => "SIGTERM"
  | .interrupt => "SIGINT"

/-- Why an event did not get into the sink. -/
inductive SinkFault where
  /-- The receiver was gone. -/
  | closed
  /-- There was no room until the end. -/
  | full
deriving DecidableEq, Repr

def SinkFault.words : SinkFault → String
  | .closed => "result sink closed"
  | .full => "result sink full at shutdown"

inductive Entry where
  | agentStarting (config : Config)
  | sessionAborted (cause : Failure)
  | sessionStarted (id : SessionId) (interval : Duration)
  | pollerFailed (id : SessionId) (reason : String)
  | sessionEnded (id : SessionId) (produced reported : Nat)
  | eventDropped (fault : SinkFault)
  | deliveryFailureDropped (id : SessionId) (fault : SinkFault)
  | sessionRestarting (delay : Duration)
  | agentFailure (comment : String) (cause : Failure)
  | agentEvent (comment : String)
  | signalReceived (signal : StopSignal)
  | agentStopped (sessions events : Nat)
deriving DecidableEq, Repr

namespace Entry

def agentTarget : String := "beacond::agent_mode"

def sessionTarget : String := "beacon_agent::session"

def managementTarget : String := "beacon_report::management"

def record : Entry → Record
  | .agentStarting config =>
    ⟨.info, agentTarget, "Beacon daemon starting in agent mode",
      [("local_addr", .text config.localAddr.text),
        ("external_addr", .text config.externalAddr.text),
        ("management_addr", .text config.managementAddr.text),
        ("interval", .text config.reportingInterval.text)]⟩
  | .sessionAborted cause =>
    ⟨.error, sessionTarget, "session aborted before start", [("error", .text cause.message)]⟩
  | .sessionStarted id interval =>
    ⟨.info, sessionTarget, "monitoring session started",
      [("session_id", .text id.text), ("interval", .text interval.text)]⟩
  | .pollerFailed id reason =>
    ⟨.error, sessionTarget, "poller task failed",
      [("session_id", .text id.text), ("error", .text reason)]⟩
  | .sessionEnded id produced reported =>
    ⟨.info, sessionTarget, "monitoring session ended",
      [("session_id", .text id.text), ("produced", .count produced), ("reported", .count reported)]⟩
  | .eventDropped fault => ⟨.warn, sessionTarget, fault.words ++ "; dropping event", []⟩
  | .deliveryFailureDropped id fault =>
    ⟨.warn, managementTarget, fault.words ++ "; dropping delivery failure",
      [("session_id", .text id.text)]⟩
  | .sessionRestarting delay =>
    ⟨.warn, agentTarget, "monitoring session ended; restarting", [("restart_in", .text delay.text)]⟩
  | .agentFailure comment cause =>
    ⟨.error, agentTarget, "agent failure",
      [("comment", .text comment), ("error", .text cause.message)]⟩
  | .agentEvent comment => ⟨.warn, agentTarget, "agent event", [("comment", .text comment)]⟩
  | .signalReceived signal => ⟨.info, agentTarget, "received " ++ signal.name, []⟩
  | .agentStopped sessions events =>
    ⟨.info, agentTarget, "agent stopped",
      [("sessions", .count sessions), ("events", .count events)]⟩

end Entry

end HealthRelay
