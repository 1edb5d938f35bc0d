import HealthRelay.Simulation.Clock
import HealthRelay.Simulation.Script
import HealthRelay.Simulation.SinkReader

/-!
# A session by itself

One session object that runs again and again over scripted collaborators, with a token of its own
for every run.
-/

namespace HealthRelay.Simulation

structure Cast where
  /-- The answers to asking for an identity; the last one repeats. -/
  identities : List (Except Failure SessionId)
  probe : Script
  deliver : Script

namespace Cast

/-- The scripted deliverer tells of a failure under this comment. -/
def notice : DeliveryNotice := ⟨"delivery", false⟩

/-- How the collaborators behave in general. -/
def crew (c : Cast) : Crew :=
  { probeIsGated := c.probe.isGated, deliverIsGated := c.deliver.isGated, notice }

def identity (c : Cast) (n : Nat) : Except Failure SessionId :=
  (c.identities[n]?.or c.identities.getLast?).getD (.ok ⟨""⟩)

def moment (c : Cast) (s : Session) (now : Nat) (isShutdown : Bool) : Moment :=
  let isCancelled := match s.run? with
    | some run => run.isCancelled isShutdown
    | none => isShutdown
  { now, wallMs := wallMs now, isShutdown, identity := c.identity,
    probe := c.probe.probe s.probeCalls now isCancelled,
    deliver := c.deliver.deliver (s.deliveries.map (·.call)) now isCancelled }

def timers (c : Cast) (s : Session) : List Nat :=
  s.timers ++ c.probe.timers s.probeCalls ++ c.deliver.timers (s.deliveries.map (·.call))

end Cast

/-- A session with the runs that lie before it. -/
structure SessionRun where
  desk : SessionDesk
  /-- After how long the token of each run fires, for the runs that have not begun. -/
  ahead : List (Option Nat)
  shutdown : Alarm
  reader : SinkReader
deriving DecidableEq, Repr

namespace SessionRun

def start (config : SessionConfig) (capacity : Nat) (runs : List (Option Nat))
    (read : List ReadStep) : SessionRun :=
  { desk := ⟨.start config, .empty capacity, []⟩, ahead := runs, shutdown := .start 0 none,
    reader := .start read }

/-- Begins runs until one of them is not over at once. -/
def launch (c : Cast) (now : Nat) :
    List (Option Nat) → Alarm → SessionDesk → List (Option Nat) × Alarm × SessionDesk
  | [], shutdown, desk => ([], shutdown, desk)
  | after :: ahead, shutdown, desk =>
    if desk.session.isIdle then
      let shutdown : Alarm := .start now after
      launch c now ahead shutdown
        (desk.begin c.crew (c.moment desk.session now shutdown.hasFired))
    else (after :: ahead, shutdown, desk)

/-- The session's turn, the token's, the poller's, and the reader's. -/
def round (c : Cast) (now : Nat) (r : SessionRun) : SessionRun :=
  let moment (d : SessionDesk) (a : Alarm) : Moment := c.moment d.session now a.hasFired
  let desk := r.desk.poll c.crew (moment r.desk r.shutdown)
  let (ahead, shutdown, desk) := launch c now r.ahead r.shutdown desk
  let shutdown := shutdown.poll now
  let desk := desk.pollPoller c.crew (moment desk shutdown)
  let sendersGone := desk.session.isIdle && ahead.isEmpty
  let (reader, sink) := r.reader.poll now sendersGone desk.sink
  { desk := { desk with sink }, ahead, shutdown, reader }

def timers (c : Cast) (r : SessionRun) : List Nat :=
  r.shutdown.timers ++ r.reader.timers ++ c.timers r.desk.session

def run (c : Cast) (r : SessionRun) : SessionRun :=
  Clockwork.start ⟨round c, timers c⟩ r

end SessionRun

end HealthRelay.Simulation
