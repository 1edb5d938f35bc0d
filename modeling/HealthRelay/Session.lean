import HealthRelay.Poller
import HealthRelay.Reporter

/-!
# Monitoring sessions

One session object runs again and again. Each run makes one identity; then a poller and a reporter
work side by side over a handoff until the poller stops. The run ends once the poller has been
joined. Its token is cancelled with the caller's, or when the reporter is done.
-/

namespace HealthRelay

/-- What a session shows of itself. -/
inductive Phase where
  | init
  | running
  | terminated
deriving DecidableEq, Repr

def Phase.name : Phase → String
  | .init => "Init"
  | .running => "Running"
  | .terminated => "Terminated"

/-- What stands outside a session while it gets one turn: the clock, the caller's token, and what
the collaborators would answer. Their calls are counted over all runs. -/
structure Moment where
  now : Nat
  /-- The wall clock in milliseconds since the epoch. -/
  wallMs : UInt64
  /-- Whether the caller's token has fired. -/
  isShutdown : Bool
  identity : Nat → Except Failure SessionId
  probe : Nat → Progress (Ending Sample)
  deliver : Nat → Progress (Except Failure Unit)

/-- How the collaborators of a session behave in general. -/
structure Crew where
  /-- Whether a probe call keeps to its scope. -/
  probeIsGated : Nat → Bool
  /-- Whether a deliver call keeps to its scope. -/
  deliverIsGated : Nat → Bool
  notice : DeliveryNotice

/-- The health check and the management client: both keep to their scopes. -/
def Crew.relay : Crew :=
  { probeIsGated := fun _ => true, deliverIsGated := fun _ => true
    notice := ManagementClient.notice }

/-- What the session itself is doing in a run with an identity. -/
inductive Activity where
  | reporting
  /-- Waiting for the poller's end. -/
  | joining
  /-- Waiting for room to tell of a panic of the poller. -/
  | mourning (emission : Emission)
  | over
deriving DecidableEq, Repr

/-- A run with an identity. -/
structure Run where
  sessionId : SessionId
  handoff : Handoff
  poller : Poller
  reporter : Reporter
  /-- Set when the reporter is done: whatever still produces must stop. -/
  isClosing : Bool
  activity : Activity
deriving DecidableEq, Repr

/-- A run that is over, or the current one. -/
structure Attempt where
  startedAt : Nat
  /-- The phase that showed when the identity was asked for. -/
  phase : Phase
  /-- The identity that was made, if one could be made. -/
  identity : Option SessionId
  run : Option Run
  endedAt : Option Nat
deriving DecidableEq, Repr

inductive SessionStage where
  | idle
  /-- Without an identity, waiting for room to tell of that. -/
  | refusing (attempt : Attempt) (emission : Emission)
  | running (attempt : Attempt) (run : Run)
deriving DecidableEq, Repr

structure Session where
  config : SessionConfig
  stage : SessionStage
  /-- Every phase that has been written, in order. -/
  written : List Phase
  past : List Attempt
deriving DecidableEq, Repr

/-- A session with what it shares with others. -/
structure SessionDesk where
  session : Session
  sink : Sink
  journal : List Entry
deriving DecidableEq, Repr

namespace Run

def isCancelled (r : Run) (shutdown : Bool) : Bool := shutdown || r.isClosing

/-- The words for a task that ended in a panic. -/
def panicReason (task : Nat) (message : String) : String :=
  "task " ++ Text.decimalText task ++ " panicked with message " ++ Text.quote message

end Run

namespace Session

def start (config : SessionConfig) : Session :=
  { config, stage := .idle, written := [], past := [] }

def identityFailed : String := "failed to generate agent session id"

def pollerFailed : String := "poller task failed"

def phase (s : Session) : Phase := s.written.getLast?.getD .init

/-- What a session shows whenever a run with an identity is on, and so at every call of a
collaborator. -/
def phaseOfRun : Phase := .running

def isIdle (s : Session) : Bool := s.stage == .idle

/-- The run that is on, if it has an identity. -/
def run? (s : Session) : Option Run :=
  match s.stage with
  | .running _ run => some run
  | _ => none

/-- All runs with an identity, in order. -/
def runs (s : Session) : List Run :=
  s.past.filterMap (·.run) ++ s.run?.toList

/-- All runs, in order. -/
def attempts (s : Session) : List Attempt :=
  s.past ++
    match s.stage with
    | .idle => []
    | .refusing attempt _ => [attempt]
    | .running attempt run => [{ attempt with run := some run }]

def probeCalls (s : Session) : List Call := s.runs.flatMap (·.poller.calls)

def deliveries (s : Session) : List Delivery := s.runs.flatMap (·.reporter.deliveries)

/-- How many probe calls the runs before the current one made. -/
def probesBefore (s : Session) : Nat :=
  ((s.past.filterMap (·.run)).flatMap (·.poller.past)).length

/-- How many deliver calls the runs before the current one made. -/
def deliveriesBefore (s : Session) : Nat :=
  ((s.past.filterMap (·.run)).flatMap (·.reporter.past)).length

/-- When a session wants its next turn, the work of its calls aside. -/
def timers (s : Session) : List Nat :=
  match s.run? with
  | some run => run.poller.timers ++ run.reporter.timers
  | none => []

def write (s : Session) (phase : Phase) : Session := { s with written := s.written ++ [phase] }

def pollerTurn (s : Session) (crew : Crew) (m : Moment) (run : Run) : Poller.Turn :=
  let n := s.probesBefore + run.poller.past.length
  { now := m.now, wallMs := m.wallMs, isCancelled := run.isCancelled m.isShutdown,
    isGated := crew.probeIsGated n, answer := m.probe n }

def reporterTurn (s : Session) (crew : Crew) (m : Moment) (run : Run) : Reporter.Turn :=
  let before := s.deliveriesBefore
  { now := m.now, isCancelled := run.isCancelled m.isShutdown,
    isGated := fun n => crew.deliverIsGated (before + n),
    answer := fun n => m.deliver (before + n) }

end Session

namespace SessionDesk

def tell (d : SessionDesk) (entries : List Entry) : SessionDesk :=
  { d with journal := d.journal ++ entries }

/-- What the journal says about an event of the session itself. -/
def entries (emitted : Emitted) : List Entry :=
  (emitted.fault?.map Entry.eventDropped).toList

/-- The run without an identity is over. -/
def abort (d : SessionDesk) (attempt : Attempt) (now : Nat) : SessionDesk :=
  let s := d.session.write .terminated
  { d with session := { s with
      stage := .idle
      past := s.past ++ [{ attempt with endedAt := some now }] } }

/-- The event about a missing identity has been looked at. -/
def refuse (d : SessionDesk) (attempt : Attempt) (e : Emission) (looked : Progress Emitted × Sink)
    (now : Nat) : SessionDesk :=
  match looked with
  | (.pending, sink) => { d with sink, session := { d.session with stage := .refusing attempt e } }
  | (.ready emitted, sink) => ({ d with sink }.tell (entries emitted)).abort attempt now

/-- The run is over: its poller has been joined. -/
def finish (d : SessionDesk) (attempt : Attempt) (run : Run) (now : Nat) : SessionDesk :=
  let s := d.session.write .terminated
  let produced := match run.poller.stage with
    | .finished => run.poller.produced
    | _ => 0
  { d with session := { s with
      stage := .idle
      past := s.past ++
        [{ attempt with run := some { run with activity := .over }, endedAt := some now }] } }.tell
    [.sessionEnded run.sessionId produced run.reporter.reported]

/-- The event about a panic has been looked at. -/
def mourn (d : SessionDesk) (attempt : Attempt) (run : Run) (e : Emission)
    (looked : Progress Emitted × Sink) (now : Nat) : SessionDesk :=
  match looked with
  | (.pending, sink) =>
    { d with sink, session :=
      { d.session with stage := .running attempt { run with activity := .mourning e } } }
  | (.ready emitted, sink) => ({ d with sink }.tell (entries emitted)).finish attempt run now

/-- Looks whether the poller has stopped. -/
def join (d : SessionDesk) (attempt : Attempt) (run : Run) (m : Moment) : SessionDesk :=
  match run.poller.stage with
  | .finished => d.finish attempt run m.now
  | .panicked message =>
    let reason := Run.panicReason d.session.past.length message
    let e : Emission := ⟨.about Session.pollerFailed (.task reason), 0⟩
    (d.tell [.pollerFailed run.sessionId reason]).mourn attempt run e (e.start m.isShutdown d.sink)
      m.now
  | _ =>
    { d with session :=
      { d.session with stage := .running attempt { run with activity := .joining } } }

/-- The reporter gets its turn; once it is done the run is closing. -/
def report (d : SessionDesk) (attempt : Attempt) (run : Run) (crew : Crew) (m : Moment) :
    SessionDesk :=
  let (reporter, desk) :=
    run.reporter.poll (d.session.reporterTurn crew m run) ⟨run.handoff, d.sink, d.journal⟩
  let run := { run with reporter, handoff := desk.handoff }
  let d := { d with sink := desk.sink, journal := desk.journal }
  if reporter.isOver then d.join attempt { run with isClosing := true } m
  else { d with session := { d.session with stage := .running attempt run } }

/-- A run begins: it asks for an identity, and without one it is soon over. -/
def begin (d : SessionDesk) (crew : Crew) (m : Moment) : SessionDesk :=
  let s := d.session.write .init
  let identity := m.identity s.past.length
  let attempt : Attempt := ⟨m.now, s.phase, identity.toOption, none, none⟩
  match identity with
  | .error cause =>
    let e : Emission := ⟨.about Session.identityFailed cause, 0⟩
    ({ d with session := s }.tell [.sessionAborted cause]).refuse attempt e
      (e.start m.isShutdown d.sink) m.now
  | .ok id =>
    let run : Run :=
      { sessionId := id, handoff := .empty, poller := .start s.config.interval
        reporter := .start s.config.interval id s.config.agentName s.config.externalAddr crew.notice
        isClosing := false, activity := .reporting }
    ({ d with session := s.write .running }.tell [.sessionStarted id s.config.interval]).report
      attempt run crew m

def poll (d : SessionDesk) (crew : Crew) (m : Moment) : SessionDesk :=
  match d.session.stage with
  | .idle => d
  | .refusing attempt e => d.refuse attempt e (e.look m.isShutdown d.sink) m.now
  | .running attempt run =>
    match run.activity with
    | .reporting => d.report attempt run crew m
    | .joining => d.join attempt run m
    | .mourning e => d.mourn attempt run e (e.look m.isShutdown d.sink) m.now
    | .over => d

def pollPoller (d : SessionDesk) (crew : Crew) (m : Moment) : SessionDesk :=
  match d.session.stage with
  | .running attempt run =>
    let (poller, handoff) := run.poller.poll (d.session.pollerTurn crew m run) run.handoff
    { d with session :=
      { d.session with stage := .running attempt { run with poller, handoff } } }
  | _ => d

end SessionDesk

end HealthRelay
