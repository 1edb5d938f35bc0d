import HealthRelay.Emission
import HealthRelay.Journal

/-!
# The supervisor

The receiving end of the sink. It journals every event, and it stops once every sender is gone and
nothing is queued any more.
-/

namespace HealthRelay

structure Supervisor where
  /-- The events it has taken, in order. -/
  seen : List Event
  isDone : Bool
deriving DecidableEq, Repr

namespace Supervisor

def start : Supervisor := ⟨[], false⟩

def entry (e : Event) : Entry :=
  match e.failure with
  | some cause => .agentFailure e.comment cause
  | none => .agentEvent e.comment

/-- Takes all that is queued, at most `fuel` events. -/
def take (s : Supervisor) : Nat → Sink → Supervisor × Sink × List Entry
  | 0, sink => (s, sink, [])
  | fuel + 1, sink =>
    match sink.take? with
    | none => (s, sink, [])
    | some (e, sink) =>
      let (s, sink, entries) := take { s with seen := s.seen ++ [e] } fuel sink
      (s, sink, entry e :: entries)

/-- One turn of the supervisor, given whether every sender is gone. -/
def poll (s : Supervisor) (sendersGone : Bool) (sink : Sink) : Supervisor × Sink × List Entry :=
  if s.isDone then (s, sink, [])
  else
    let (s, sink, entries) := s.take sink.queue.length sink
    ({ s with isDone := sendersGone && sink.queue.isEmpty }, sink, entries)

end Supervisor

end HealthRelay
