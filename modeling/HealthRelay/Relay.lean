import HealthRelay.Agent
import HealthRelay.CommandLine
import HealthRelay.HealthCheck
import HealthRelay.Settings.Toml

/-!
# The relay

The daemon put together: from an invocation to a configuration, from a configuration to a health
check and a client, and from the exchanges of those two to what an agent finds in each of its turns.
A call has no exchange before it has been looked at, so a look that starts it finds it pending.
-/

namespace HealthRelay

/-- The configuration that an invocation means, given what its file holds. -/
def Invocation.config? (i : Invocation) (read : String → Except FileFault (List UInt8)) :
    Except ConfigError Config := do
  let base ← match i.configPath with
    | some path => Settings.ofFile? path (read path)
    | none => .ok {}
  Config.ofSettings? (base.overlay i.settings)

/-- The two ends that the daemon relays between. -/
structure Relay where
  check : HealthCheck
  client : ManagementClient
deriving DecidableEq, Repr

namespace Relay

/-- The relay of a configuration; its api key must be fit for a header. -/
def ofConfig? (c : Config) : Except ConfigError Relay :=
  (HealthCheck.make c.localAddr c.apiKey).map fun check => ⟨check, ⟨c.managementAddr⟩⟩

/-- What stands outside an agent, given how far the exchanges of all calls have come. -/
structure Exchanges where
  probe : Nat → Progress Http.Exchange
  deliver : Nat → Progress Http.Exchange

def probe (r : Relay) (s : Session) (x : Exchanges) (wallMs : UInt64) (n : Nat) :
    Progress (Ending Sample) :=
  if n < s.probeCalls.length then r.check.answer (x.probe n) wallMs else .pending

def deliver (r : Relay) (s : Session) (x : Exchanges) (n : Nat) : Progress (Except Failure Unit) :=
  match s.deliveries[n]? with
  | some d => r.client.answer d.report (x.deliver n)
  | none => .pending

/-- What an agent finds in a turn. -/
def moment (r : Relay) (s : Session) (x : Exchanges) (identity : Nat → Except Failure SessionId)
    (now : Nat) (wallMs : UInt64) (isShutdown : Bool) : AgentMoment :=
  { now, wallMs, isShutdown, identity, probe := r.probe s x wallMs, deliver := r.deliver s x,
    prefersStop := true }

/-- The probe call whose exchange should be under way, with its number and its request. -/
def probeUnderWay? (r : Relay) (s : Session) : Option (Nat × Call × Http.Request) :=
  match s.run?.bind (·.poller.inFlight?), r.check.prepare with
  | some call, .ok request => some (s.probeCalls.length - 1, call, request)
  | _, _ => none

/-- The deliver call whose exchange should be under way, with its number and its request. -/
def deliverUnderWay? (r : Relay) (s : Session) : Option (Nat × Call × Http.Request) :=
  match s.run?.bind (·.reporter.working?) with
  | some d =>
    match r.client.prepare d.report with
    | .ok request => some (s.deliveries.length - 1, d.call, request)
    | .error _ => none
  | none => none

/-- Every task of the agent has one turn: the agent itself, the watcher, the poller and the
supervisor. -/
def round (r : Relay) (a : Agent) (x : Exchanges) (identity : Nat → Except Failure SessionId)
    (now : Nat) (wallMs : UInt64) (isShutdown : Bool) : Agent :=
  let moment (a : Agent) : AgentMoment := r.moment a.session x identity now wallMs isShutdown
  let a := (a.poll Crew.relay (moment a)).pollWatcher
  (a.pollPoller Crew.relay (moment a).toMoment).pollSupervisor

/-- Rounds until one changes nothing, at most `fuel`. -/
def settle (r : Relay) (x : Exchanges) (identity : Nat → Except Failure SessionId) (now : Nat)
    (wallMs : UInt64) (isShutdown : Bool) : Nat → Agent → Agent
  | 0, a => a
  | fuel + 1, a =>
    let after := r.round a x identity now wallMs isShutdown
    if after = a then a else settle r x identity now wallMs isShutdown fuel after

end Relay

namespace Agent

def ofConfig (c : Config) : Agent :=
  .start c.session defaultRestartDelay (.empty sinkCapacity)

def hear (a : Agent) (signal : StopSignal) : Agent :=
  { a with journal := a.journal ++ [.signalReceived signal] }

def isDone (a : Agent) : Bool := a.isStopped && a.supervisor.isDone && a.watcher.isDone

def farewell (a : Agent) : Entry := .agentStopped a.sessions a.supervisor.seen.length

end Agent

end HealthRelay
