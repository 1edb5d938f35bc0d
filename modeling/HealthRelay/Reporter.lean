import HealthRelay.Call
import HealthRelay.Delivery
import HealthRelay.Emission
import HealthRelay.Handoff
import HealthRelay.Journal

/-!
# The reporter

Takes samples from the handoff and delivers each of them, one after the other. A delivery that fails
is told to the sink and stops nothing; one that is interrupted by the end of the session is told to
nobody.
-/

namespace HealthRelay

inductive DeliveryEnd where
  | accepted
  /-- The session stopped. -/
  | interrupted
  /-- It failed, and what became of the event about it. -/
  | failed (cause : Failure) (notice : Emitted)
deriving DecidableEq, Repr

/-- One deliver call, with all that it was given. -/
structure Delivery where
  call : Call
  sample : Sample
  sessionId : SessionId
  agentName : Option String
  target : Address
  doneAt : Option Nat
  outcome : Option DeliveryEnd
deriving DecidableEq, Repr

def Delivery.report (d : Delivery) : Report :=
  { agentName := d.agentName, sessionId := d.sessionId, externalAddr := d.target
    sample := d.sample }

/-- How failed deliveries are told. -/
structure DeliveryNotice where
  comment : String
  /-- Whether the journal says that an event was dropped. -/
  isLogged : Bool
deriving DecidableEq, Repr

/-- The management client's way to tell of failed deliveries. -/
def ManagementClient.notice : DeliveryNotice := ⟨ManagementClient.deliveryFailed, true⟩

/-- What is wrong with the sink when an event did not get in. -/
def Emitted.fault? : Emitted → Option SinkFault
  | .sent => none
  | .closed => some .closed
  | .cancelled => some .full

inductive ReporterStage where
  | receiving
  | delivering (delivery : Delivery)
  | announcing (delivery : Delivery) (cause : Failure) (emission : Emission)
  | finished
deriving DecidableEq, Repr

/-- The consuming half of a session. -/
structure Reporter where
  interval : Duration
  sessionId : SessionId
  agentName : Option String
  target : Address
  notice : DeliveryNotice
  stage : ReporterStage
  reported : Nat
  /-- The deliveries that are over. -/
  past : List Delivery
deriving DecidableEq, Repr

structure Desk where
  handoff : Handoff
  sink : Sink
  journal : List Entry
deriving DecidableEq, Repr

namespace Reporter

def start (interval : Duration) (sessionId : SessionId) (agentName : Option String)
    (target : Address) (notice : DeliveryNotice) : Reporter :=
  { interval, sessionId, agentName, target, notice, stage := .receiving, reported := 0, past := [] }

/-- What a reporter finds in one turn. Deliveries are counted from the first one on. -/
structure Turn where
  now : Nat
  /-- Whether the reporter's token is cancelled. -/
  isCancelled : Bool
  /-- Whether a delivery keeps to its scope. -/
  isGated : Nat → Bool
  /-- What a delivery would answer. -/
  answer : Nat → Progress (Except Failure Unit)

def isOver (r : Reporter) : Bool := r.stage == .finished

def inFlight? (r : Reporter) : Option Delivery :=
  match r.stage with
  | .delivering delivery => some delivery
  | .announcing delivery _ _ => some delivery
  | _ => none

/-- The delivery whose work is not over. -/
def working? (r : Reporter) : Option Delivery :=
  match r.stage with
  | .delivering delivery => some delivery
  | _ => none

def deliveries (r : Reporter) : List Delivery := r.past ++ r.inFlight?.toList

/-- The delivery of a sample that has just been taken. -/
def begin (r : Reporter) (sample : Sample) (now : Nat) : Delivery :=
  { call := .start now r.interval, sample, sessionId := r.sessionId, agentName := r.agentName,
    target := r.target, doneAt := none, outcome := none }

def close (r : Reporter) (d : Delivery) (outcome : DeliveryEnd) (now : Nat) : Reporter :=
  { r with
    stage := .receiving
    reported := r.reported + 1
    past := r.past ++
      [{ d with call := d.call.release, doneAt := some now, outcome := some outcome }] }

/-- What the journal says about an event. -/
def entries (r : Reporter) (emitted : Emitted) : List Entry :=
  if r.notice.isLogged then
    (emitted.fault?.map (Entry.deliveryFailureDropped r.sessionId)).toList
  else []

/-- The event about a failed delivery has been looked at. -/
def announce (r : Reporter) (d : Delivery) (cause : Failure) (e : Emission)
    (looked : Progress Emitted × Sink) (now : Nat) (desk : Desk) : Reporter × Desk :=
  match looked with
  | (.pending, sink) => ({ r with stage := .announcing d cause e }, { desk with sink })
  | (.ready emitted, sink) =>
    (r.close d (.failed cause emitted) now,
      { desk with sink, journal := desk.journal ++ r.entries emitted })

/-- A delivery gets its turn. -/
def deliver (r : Reporter) (d : Delivery) (turn : Turn) (desk : Desk) : Reporter × Desk :=
  let n := r.past.length
  match d.call.look (turn.isGated n) turn.now turn.isCancelled (turn.answer n) with
  | (call, .pending) => ({ r with stage := .delivering { d with call } }, desk)
  | (call, .ready answer) =>
    let d := { d with call }
    match answer.bind id with
    | .ok () => (r.close d .accepted turn.now, desk)
    | .error .cancelled => (r.close d .interrupted turn.now, desk)
    | .error cause =>
      let e : Emission := ⟨.about r.notice.comment cause, n⟩
      r.announce d cause e (e.start turn.isCancelled desk.sink) turn.now desk

/-- Takes and delivers samples until one of them keeps it waiting, at most `fuel`. -/
def receiveWithin (r : Reporter) (turn : Turn) : Nat → Desk → Reporter × Desk
  | 0, desk => (r, desk)
  | fuel + 1, desk =>
    if r.stage = .receiving then
      match desk.handoff.receive with
      | (.sample sample, handoff) =>
        let (r, desk) := r.deliver (r.begin sample turn.now) turn { desk with handoff }
        r.receiveWithin turn fuel desk
      | (.pending, handoff) => (r, { desk with handoff })
      | (.closed, handoff) =>
        ({ r with stage := .finished }, { desk with handoff := handoff.dropReceiver })
    else (r, desk)

/-- One turn of the reporter. It ends with the receiver of the handoff when the sender is gone. -/
def poll (r : Reporter) (turn : Turn) (desk : Desk) : Reporter × Desk :=
  let (r, desk) :=
    match r.stage with
    | .delivering d => r.deliver d turn desk
    | .announcing d cause e =>
      r.announce d cause e (e.look turn.isCancelled desk.sink) turn.now desk
    | _ => (r, desk)
  r.receiveWithin turn (desk.handoff.slot.queue.length + 1) desk

/-- When a reporter wants its next turn, the work of its call aside. -/
def timers (r : Reporter) : List Nat :=
  match r.stage with
  | .delivering d => [d.call.scope.wakeAt]
  | _ => []

end Reporter

end HealthRelay
