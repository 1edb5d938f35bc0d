import HealthRelay.Supervisor
import HealthRelay.Watcher

/-!
# The agent

Runs one session after the other until it is told to stop, with a pause after each that ended by
itself. A supervisor takes the events of all sessions, and a watcher follows their phases.
-/

namespace HealthRelay

inductive AgentStage where
  /-- It has not had its first turn. -/
  | fresh
  | inSession
  /-- Waiting for the next session's time. -/
  | pausing (wakeAt : Nat)
  | stopped
deriving DecidableEq, Repr

structure Agent where
  session : Session
  sink : Sink
  restartDelay : Duration
  stage : AgentStage
  /-- How many sessions are over. -/
  sessions : Nat
  supervisor : Supervisor
  watcher : Watcher
  journal : List Entry
deriving DecidableEq, Repr

/-- What stands outside the agent while one of its tasks gets a turn. -/
structure AgentMoment extends Moment where
  /-- Which way to go when a pause ends just as the token fires: whether to stop. -/
  prefersStop : Bool

namespace Agent

def defaultRestartDelay : Duration := .ofSecs 1

def sinkCapacity : Nat := 64

/-- An agent before its first turn, with a sink that may hold notes already. -/
def start (config : SessionConfig) (restartDelay : Duration) (sink : Sink) : Agent :=
  { session := .start config, sink, restartDelay, stage := .fresh, sessions := 0
    supervisor := .start, watcher := .start, journal := [] }

def isStopped (a : Agent) : Bool := a.stage == .stopped

/-- How many senders of the sink there are: the agent's own, and one of the session that is on. -/
def senders (a : Agent) : Nat :=
  (if a.isStopped then 0 else 1) + (if a.session.isIdle then 0 else 1)

def desk (a : Agent) : SessionDesk := ⟨a.session, a.sink, a.journal⟩

/-- The agent after its session had a turn. -/
def withDesk (a : Agent) (d : SessionDesk) : Agent :=
  { a with session := d.session, sink := d.sink, journal := d.journal }

/-- Looks whether the session is over, and if so stops or pauses. -/
def afterSession (a : Agent) (m : Moment) : Agent :=
  if a.session.isIdle then
    let a := { a with sessions := a.sessions + 1 }
    if m.isShutdown then { a with stage := .stopped }
    else { a with
      stage := .pausing (m.now + a.restartDelay.nanos)
      journal := a.journal ++ [.sessionRestarting a.restartDelay] }
  else { a with stage := .inSession }

def launch (a : Agent) (crew : Crew) (m : Moment) : Agent :=
  (a.withDesk (a.desk.begin crew m)).afterSession m

def poll (a : Agent) (crew : Crew) (m : AgentMoment) : Agent :=
  match a.stage with
  | .fresh => a.launch crew m.toMoment
  | .inSession => (a.withDesk (a.desk.poll crew m.toMoment)).afterSession m.toMoment
  | .pausing wakeAt =>
    let isDue := decide (wakeAt ≤ m.now)
    if m.isShutdown && (!isDue || m.prefersStop) then { a with stage := .stopped }
    else if isDue then a.launch crew m.toMoment
    else a
  | .stopped => a

def pollPoller (a : Agent) (crew : Crew) (m : Moment) : Agent :=
  a.withDesk (a.desk.pollPoller crew m)

def pollSupervisor (a : Agent) : Agent :=
  let (supervisor, sink, entries) := a.supervisor.poll (a.senders == 0) a.sink
  { a with supervisor, sink, journal := a.journal ++ entries }

/-- One turn of the watcher. The session goes away when the agent stops. -/
def pollWatcher (a : Agent) : Agent :=
  { a with watcher := a.watcher.poll a.isStopped a.session }

/-- When an agent wants its next turn, the work of its calls aside. -/
def timers (a : Agent) : List Nat :=
  match a.stage with
  | .pausing wakeAt => [wakeAt]
  | _ => a.session.timers

end Agent

end HealthRelay
