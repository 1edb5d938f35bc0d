import HealthRelay.Emission

/-!
# Sink readers

A receiver of events that follows a script. After its script it waits until every sender is gone,
and reads what is left.
-/

namespace HealthRelay.Simulation

inductive ReadStep where
  | wait (nanos : Nat)
  /-- Takes one event if there is one. -/
  | take
  /-- Reads until every sender is gone. -/
  | all
  /-- The receiver goes away. -/
  | close
deriving DecidableEq, Repr

/-- A reader with what it has read, each event with its time; those read at the end have none. -/
structure SinkReader where
  steps : List ReadStep
  /-- When the wait that is on ends. -/
  wakeAt : Option Nat
  events : List (Option Nat × Event)
  isDone : Bool
deriving DecidableEq, Repr

namespace SinkReader

def start (steps : List ReadStep) : SinkReader :=
  { steps, wakeAt := none, events := [], isDone := false }

/-- Reads all that is queued, at most `fuel` events. -/
def drain (time : Option Nat) : Nat → Sink → List (Option Nat × Event) × Sink
  | 0, sink => ([], sink)
  | fuel + 1, sink =>
    match sink.take? with
    | none => ([], sink)
    | some (e, sink) =>
      let (events, sink) := drain time fuel sink
      ((time, e) :: events, sink)

def follow (now : Nat) (sendersGone : Bool) :
    List ReadStep → Option Nat → List (Option Nat × Event) → Sink → SinkReader × Sink
  | [], _, events, sink =>
    if sendersGone then
      let (rest, sink) := drain none sink.queue.length sink
      (⟨[], none, events ++ rest, true⟩, sink)
    else (⟨[], none, events, false⟩, sink)
  | .wait nanos :: steps, wakeAt, events, sink =>
    let t := wakeAt.getD (now + nanos)
    if t ≤ now then follow now sendersGone steps none events sink
    else (⟨.wait nanos :: steps, some t, events, false⟩, sink)
  | .take :: steps, _, events, sink =>
    match sink.take? with
    | none => follow now sendersGone steps none events sink
    | some (e, sink) => follow now sendersGone steps none (events ++ [(some now, e)]) sink
  | .all :: steps, _, events, sink =>
    let (read, sink) := drain (some now) sink.queue.length sink
    if sendersGone || sink.gate = .dropped then
      follow now sendersGone steps none (events ++ read) sink
    else (⟨.all :: steps, none, events ++ read, false⟩, sink)
  | .close :: steps, _, events, sink => follow now sendersGone steps none events sink.drop

def poll (r : SinkReader) (now : Nat) (sendersGone : Bool) (sink : Sink) : SinkReader × Sink :=
  if r.isDone then (r, sink) else follow now sendersGone r.steps r.wakeAt r.events sink

def timers (r : SinkReader) : List Nat := r.wakeAt.toList

end SinkReader

end HealthRelay.Simulation
