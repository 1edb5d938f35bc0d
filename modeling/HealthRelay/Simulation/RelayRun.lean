import HealthRelay.Relay
import HealthRelay.Simulation.Clock
import HealthRelay.Simulation.Script

/-!
# The daemon by itself

The agent of a configuration on a virtual clock, over exchanges that end at once. It is told to stop
once a report has been delivered or a failure has been journalled.
-/

namespace HealthRelay.Simulation

/-- The world around a daemon. -/
structure RelayWorld where
  relay : Relay
  probe : Http.Exchange
  deliver : Http.Exchange
  identity : SessionId
  signal : StopSignal

structure RelayRun where
  agent : Agent
  isShutdown : Bool
deriving DecidableEq, Repr

namespace RelayRun

def start (config : Config) : RelayRun := ⟨.ofConfig config, false⟩

def isDue (a : Agent) : Bool :=
  !a.supervisor.seen.isEmpty || a.session.deliveries.any fun d => d.outcome == some .accepted

/-- A round of the agent, and the signal if there is a reason for it. -/
def round (w : RelayWorld) (now : Nat) (r : RelayRun) : RelayRun :=
  let exchanges : Relay.Exchanges :=
    { probe := fun _ => .ready w.probe, deliver := fun _ => .ready w.deliver }
  let agent :=
    w.relay.round r.agent exchanges (fun _ => .ok w.identity) now (wallMs now) r.isShutdown
  if !r.isShutdown && isDue agent then ⟨agent.hear w.signal, true⟩ else ⟨agent, r.isShutdown⟩

def journal (w : RelayWorld) (config : Config) : List Entry :=
  let agent := (Clockwork.start ⟨round w, fun r => r.agent.timers⟩ (start config)).agent
  .agentStarting config :: agent.journal ++ [agent.farewell]

end RelayRun

end HealthRelay.Simulation
