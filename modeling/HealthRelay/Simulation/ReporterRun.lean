import HealthRelay.Simulation.Clock
import HealthRelay.Simulation.Script
import HealthRelay.Simulation.SinkReader

/-!
# A reporter by itself

A reporter over a scripted deliverer, with a producer at the other end of the handoff and a reader
at the other end of the sink.
-/

namespace HealthRelay.Simulation

inductive ProduceStep where
  | wait (nanos : Nat)
  /-- Sends a sample, and may give up after some time. -/
  | send (sample : Sample) (patience : Option Nat)
deriving DecidableEq, Repr

inductive SendEnd where
  | taken
  | abandoned
  | closed
deriving DecidableEq, Repr

inductive ProducerWait where
  | none
  | until (time : Nat)
  | send (ticket : Nat) (givesUpAt : Option Nat)
deriving DecidableEq, Repr

/-- A producer with what became of its sends. -/
structure Producer where
  steps : List ProduceStep
  wait : ProducerWait
  ends : List (Nat × SendEnd)
deriving DecidableEq, Repr

namespace Producer

/-- Whether a send has waited long enough. -/
def givesUp (now : Nat) : Option Nat → Bool
  | some t => decide (t ≤ now)
  | none => false

/-- Follows the script as far as it goes now. The sender goes away after the last step. -/
def follow (now : Nat) :
    List ProduceStep → ProducerWait → List (Nat × SendEnd) → Handoff → Producer × Handoff
  | [], _, ends, h => (⟨[], .none, ends⟩, h.dropSender)
  | .wait nanos :: steps, wait, ends, h =>
    let t := match wait with
      | .until t => t
      | _ => now + nanos
    if t ≤ now then follow now steps .none ends h else (⟨.wait nanos :: steps, .until t, ends⟩, h)
  | .send sample patience :: steps, wait, ends, h =>
    let begun : Option (Nat × Option Nat) × Handoff := match wait with
      | .send ticket givesUpAt => (some (ticket, givesUpAt), h)
      | _ =>
        let (ticket, h) := h.begin sample
        (ticket.map fun ticket => (ticket, patience.map (now + ·)), h)
    match begun with
    | (none, h) => follow now steps .none (ends ++ [(now, .closed)]) h
    | (some (ticket, givesUpAt), h) =>
      match h.look ticket with
      | (.ready .taken, h) => follow now steps .none (ends ++ [(now, .taken)]) h
      | (.ready .closed, h) => follow now steps .none (ends ++ [(now, .closed)]) h
      | (.pending, h) =>
        if givesUp now givesUpAt then
          follow now steps .none (ends ++ [(now, .abandoned)]) (h.abandon ticket)
        else (⟨.send sample patience :: steps, .send ticket givesUpAt, ends⟩, h)

def poll (p : Producer) (now : Nat) (h : Handoff) : Producer × Handoff :=
  follow now p.steps p.wait p.ends h

def timers (p : Producer) : List Nat :=
  match p.wait with
  | .none => []
  | .until t => [t]
  | .send _ givesUpAt => givesUpAt.toList

end Producer

structure ReporterRun where
  reporter : Reporter
  desk : Desk
  producer : Producer
  reader : SinkReader
  shutdown : Alarm
  endedAt : Option Nat
deriving DecidableEq, Repr

namespace ReporterRun

def start (reporter : Reporter) (sink : Sink) (produce : List ProduceStep) (read : List ReadStep)
    (shutdownAt : Option Nat) : ReporterRun :=
  { reporter, desk := ⟨.empty, sink, []⟩, producer := ⟨produce, .none, []⟩, reader := .start read,
    shutdown := .start 0 shutdownAt, endedAt := none }

/-- The reporter's turn, the token's, the producer's, and the reader's. -/
def round (deliver : Script) (now : Nat) (r : ReporterRun) : ReporterRun :=
  let isCancelled := r.shutdown.hasFired
  let (reporter, desk) := r.reporter.poll
    { now, isCancelled, isGated := deliver.isGated,
      answer := deliver.deliver (r.reporter.deliveries.map (·.call)) now isCancelled } r.desk
  let (producer, handoff) := r.producer.poll now desk.handoff
  let (reader, sink) := r.reader.poll now reporter.isOver desk.sink
  { reporter, desk := { desk with handoff, sink }, producer, reader,
    shutdown := r.shutdown.poll now,
    endedAt := r.endedAt.or (if reporter.isOver then some now else none) }

def timers (deliver : Script) (r : ReporterRun) : List Nat :=
  r.shutdown.timers ++ r.producer.timers ++ r.reader.timers ++ r.reporter.timers ++
    deliver.timers (r.reporter.deliveries.map (·.call))

def run (deliver : Script) (r : ReporterRun) : ReporterRun :=
  Clockwork.start ⟨round deliver, timers deliver⟩ r

end ReporterRun

end HealthRelay.Simulation
