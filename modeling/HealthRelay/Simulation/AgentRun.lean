import HealthRelay.Agent
import HealthRelay.Simulation.SessionRun

/-!
# An agent by itself

An agent over scripted collaborators, from the first note in its sink to its end.
-/

namespace HealthRelay.Simulation

/-- An agent with the notes that still have to be sent before it begins. -/
structure AgentRun where
  agent : Agent
  notes : List String
  shutdown : Alarm
  endedAt : Option Nat
deriving DecidableEq, Repr

namespace AgentRun

def start (config : SessionConfig) (capacity : Nat) (restartDelay : Duration) (notes : List String)
    (shutdownAt : Option Nat) : AgentRun :=
  { agent := .start config restartDelay (.empty capacity), notes,
    shutdown := .start 0 shutdownAt, endedAt := none }

/-- Sends notes while there is room. -/
def sendNotes : List String → Sink → List String × Sink
  | [], sink => ([], sink)
  | note :: notes, sink =>
    match sink.offer (.note note) with
    | .sent sink => sendNotes notes sink
    | _ => (note :: notes, sink)

/-- The agent's turn, the token's, the watcher's, the poller's, and the supervisor's. -/
def round (c : Cast) (now : Nat) (r : AgentRun) : AgentRun :=
  let moment (a : Agent) (t : Alarm) : AgentMoment :=
    { c.moment a.session now t.hasFired with prefersStop := true }
  let (notes, sink) := sendNotes r.notes r.agent.sink
  let agent := { r.agent with sink }
  let agent := if notes.isEmpty then agent.poll c.crew (moment agent r.shutdown) else agent
  let shutdown := r.shutdown.poll now
  let agent := agent.pollWatcher.pollPoller c.crew (moment agent shutdown).toMoment
  let agent := agent.pollSupervisor
  { agent, notes, shutdown, endedAt := r.endedAt.or (if agent.isStopped then some now else none) }

def timers (c : Cast) (r : AgentRun) : List Nat :=
  r.shutdown.timers ++ r.agent.timers ++ c.timers r.agent.session

def run (c : Cast) (r : AgentRun) : AgentRun :=
  Clockwork.start ⟨round c, timers c⟩ r

end AgentRun

end HealthRelay.Simulation
