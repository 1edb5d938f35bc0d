import HealthRelay.Simulation.Clock
import HealthRelay.Simulation.Script

/-!
# A poller by itself

A poller over a scripted probe, and a consumer at the other end of the handoff.
-/

namespace HealthRelay.Simulation

inductive ConsumeStep where
  | wait (nanos : Nat)
  /-- Waits for a sample, or for the end of the sender. -/
  | take
  /-- The receiver goes away. -/
  | drop
deriving DecidableEq, Repr

structure Consumer where
  steps : List ConsumeStep
  wakeAt : Option Nat
  taken : List (Nat × Option Sample)
deriving DecidableEq, Repr

namespace Consumer

def follow (now : Nat) :
    List ConsumeStep → Option Nat → List (Nat × Option Sample) → Handoff → Consumer × Handoff
  | [], _, taken, h => (⟨[], none, taken⟩, h)
  | .wait nanos :: steps, wakeAt, taken, h =>
    let t := wakeAt.getD (now + nanos)
    if t ≤ now then follow now steps none taken h else (⟨.wait nanos :: steps, some t, taken⟩, h)
  | .take :: steps, _, taken, h =>
    if h.slot.gate = .dropped then follow now steps none taken h
    else
      match h.receive with
      | (.sample s, h) => follow now steps none (taken ++ [(now, some s)]) h
      | (.closed, h) => follow now steps none (taken ++ [(now, none)]) h
      | (.pending, h) => (⟨.take :: steps, none, taken⟩, h)
  | .drop :: steps, _, taken, h => follow now steps none taken h.dropReceiver

def poll (c : Consumer) (now : Nat) (h : Handoff) : Consumer × Handoff :=
  follow now c.steps c.wakeAt c.taken h

end Consumer

structure PollerRun where
  poller : Poller
  handoff : Handoff
  consumer : Consumer
  shutdown : Alarm
  endedAt : Option Nat
deriving DecidableEq, Repr

namespace PollerRun

def start (interval : Duration) (steps : List ConsumeStep) (shutdownAt : Option Nat) : PollerRun :=
  { poller := .start interval, handoff := .empty, consumer := ⟨steps, none, []⟩,
    shutdown := .start 0 shutdownAt, endedAt := none }

/-- The consumer's turn, the token's, and the poller's. -/
def round (probe : Script) (now : Nat) (r : PollerRun) : PollerRun :=
  let (consumer, handoff) := r.consumer.poll now r.handoff
  let shutdown := r.shutdown.poll now
  let isCancelled := shutdown.hasFired
  let n := r.poller.past.length
  let (poller, handoff) := r.poller.poll
    { now, wallMs := wallMs now, isCancelled, isGated := probe.isGated n,
      answer := probe.probe r.poller.calls now isCancelled n } handoff
  { poller, handoff, consumer, shutdown,
    endedAt := r.endedAt.or (if poller.isOver then some now else none) }

def timers (probe : Script) (r : PollerRun) : List Nat :=
  r.shutdown.timers ++ r.consumer.wakeAt.toList ++ r.poller.timers ++
    probe.timers r.poller.calls

def run (probe : Script) (r : PollerRun) : PollerRun :=
  Clockwork.start ⟨round probe, timers probe⟩ r

end PollerRun

end HealthRelay.Simulation
