import HealthRelay.Event
import HealthRelay.Mailbox
import HealthRelay.Progress

/-!
# Emissions

Pushing one event to the sink. An event that finds room is sent at once, whatever else has happened;
one that finds the sink full waits for room, but only until its token fires.
-/

namespace HealthRelay

/-- Where the events of all sessions go. -/
abbrev Sink := Mailbox Event

inductive Emitted where
  | sent
  /-- The receiver was gone. -/
  | closed
  /-- The sink stayed full until the token fired. -/
  | cancelled
deriving DecidableEq, Repr

/-- An event that waits for room under a ticket. -/
structure Emission where
  event : Event
  ticket : Nat
deriving DecidableEq, Repr

namespace Emission

/-- The first look: the event gets in, or is turned away, or takes its place in line. -/
def start (e : Emission) (cancelled : Bool) (sink : Sink) : Progress Emitted × Sink :=
  match sink.offer e.event with
  | .sent sink => (.ready .sent, sink)
  | .shut => (.ready .closed, sink)
  | .full =>
    if cancelled then (.ready .cancelled, sink)
    else (.pending, sink.joinLine e.ticket)

/-- Every later look: the token comes first, then the sink. -/
def look (e : Emission) (cancelled : Bool) (sink : Sink) : Progress Emitted × Sink :=
  if cancelled then (.ready .cancelled, sink.withdraw e.ticket)
  else
    match sink.claim e.ticket e.event with
    | .placed sink => (.ready .sent, sink)
    | .shut sink => (.ready .closed, sink)
    | .waiting => (.pending, sink)

/-- The sink when nobody waits for the emission any more. -/
def abandon (e : Emission) (sink : Sink) : Sink :=
  sink.withdraw e.ticket

end Emission

end HealthRelay
