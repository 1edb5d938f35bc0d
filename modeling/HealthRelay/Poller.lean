import HealthRelay.Call
import HealthRelay.Handoff
import HealthRelay.Ticker

/-!
# The poller

Waits for a tick, probes, hands the sample over, and begins again. A probe that fails gives a sample
too. The poller stops when its token fires or nobody receives any more; it looks at its token before
the tick, and at the handoff before its token.
-/

namespace HealthRelay

inductive PollerStage where
  /-- It has not had its first turn. -/
  | fresh
  | waiting (ticker : Ticker)
  | probing (ticker : Ticker) (call : Call)
  | handing (ticker : Ticker) (ticket : Nat)
  | finished
  | panicked (message : String)
deriving DecidableEq, Repr

/-- The producing half of a session. -/
structure Poller where
  interval : Duration
  stage : PollerStage
  /-- How many of its samples it knows to be taken. -/
  produced : Nat
  /-- The probe calls that are over. -/
  past : List Call
  /-- Every sample that a probe call gave, in order. -/
  samples : List Sample
deriving DecidableEq, Repr

namespace Poller

def start (interval : Duration) : Poller :=
  { interval, stage := .fresh, produced := 0, past := [], samples := [] }

/-- What a poller finds in one turn. -/
structure Turn where
  now : Nat
  /-- The wall clock in milliseconds since the epoch. -/
  wallMs : UInt64
  /-- Whether the poller's token is cancelled. -/
  isCancelled : Bool
  /-- Whether the probe in flight, or the next one, keeps to its scope. -/
  isGated : Bool
  /-- What that probe would answer. -/
  answer : Progress (Ending Sample)

def isOver (p : Poller) : Bool :=
  match p.stage with
  | .finished => true
  | .panicked _ => true
  | _ => false

def inFlight? (p : Poller) : Option Call :=
  match p.stage with
  | .probing _ call => some call
  | _ => none

def calls (p : Poller) : List Call := p.past ++ p.inFlight?.toList

/-- The end: the sender goes away with the poller. -/
def finish (p : Poller) (h : Handoff) : Poller × Handoff :=
  ({ p with stage := .finished }, h.dropSender)

/-- A sample has come of a call: the send begins, and goes on unless the token has fired. -/
def give (p : Poller) (ticker : Ticker) (call : Call) (sample : Sample) (turn : Turn)
    (h : Handoff) : Poller × Handoff :=
  let p := { p with past := p.past ++ [call.release], samples := p.samples ++ [sample] }
  match h.begin sample with
  | (none, h) => p.finish h
  | (some ticket, h) =>
    if turn.isCancelled then p.finish (h.abandon ticket)
    else ({ p with stage := .handing ticker ticket }, h)

/-- The sample of a probe call that is over; a panic gives none. -/
def sampleOf (ending : Ending Sample) (wallMs : UInt64) : Except String Sample :=
  match ending with
  | .done sample => .ok sample
  | .failed cause => .ok (.failed cause.message wallMs)
  | .panicked message => .error message

def observe (p : Poller) (ticker : Ticker) (call : Call) (turn : Turn) (h : Handoff) :
    Poller × Handoff :=
  match call.look turn.isGated turn.now turn.isCancelled turn.answer with
  | (call, .pending) => ({ p with stage := .probing ticker call }, h)
  | (call, .ready result) =>
    match sampleOf (.ofResult result) turn.wallMs with
    | .ok sample => p.give ticker call sample turn h
    | .error message =>
      ({ p with stage := .panicked message, past := p.past ++ [call.release] }, h.dropSender)

/-- Waits for a tick, and probes on it. -/
def tick (p : Poller) (ticker : Ticker) (turn : Turn) (h : Handoff) : Poller × Handoff :=
  if turn.isCancelled then p.finish h
  else
    match ticker.look turn.now with
    | none => ({ p with stage := .waiting ticker }, h)
    | some ticker => p.observe ticker (.start turn.now p.interval) turn h

def poll (p : Poller) (turn : Turn) (h : Handoff) : Poller × Handoff :=
  match p.stage with
  | .fresh => p.tick (.start p.interval turn.now) turn h
  | .waiting ticker => p.tick ticker turn h
  | .probing ticker call => p.observe ticker call turn h
  | .handing ticker ticket =>
    match h.look ticket with
    | (.ready .taken, h) => { p with produced := p.produced + 1 }.tick ticker turn h
    | (.ready .closed, h) => p.finish h
    | (.pending, h) => if turn.isCancelled then p.finish (h.abandon ticket) else (p, h)
  | .finished => (p, h)
  | .panicked _ => (p, h)

/-- When a poller wants its next turn, the work of its call aside. -/
def timers (p : Poller) : List Nat :=
  match p.stage with
  | .waiting ticker => [ticker.due]
  | .probing _ call => [call.scope.wakeAt]
  | _ => []

end Poller

end HealthRelay
