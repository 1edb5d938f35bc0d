import HealthRelay.Mailbox
import HealthRelay.Progress
import HealthRelay.Sample

/-!
# The handoff

A channel without a buffer: a send is over only when its sample has been taken. One envelope lies in
a slot, later sends wait in line; each envelope carries the ticket of its send, so the receiver
skips envelopes whose send has been given up.
-/

namespace HealthRelay

/-- A sample on its way, with the ticket of its send. -/
structure Envelope where
  ticket : Nat
  sample : Sample
deriving DecidableEq, Repr

/-- How far a send has come. -/
inductive SendStage where
  /-- In line for the slot. -/
  | waiting
  /-- Its envelope lies in the slot. -/
  | posted
  /-- The receiver has taken its sample. -/
  | taken
  /-- Its envelope went away with the receiver. -/
  | lost
deriving DecidableEq, Repr

/-- A send that nobody has given up and that is not over. -/
structure Sending where
  ticket : Nat
  sample : Sample
  stage : SendStage
deriving DecidableEq, Repr

inductive Handed where
  | taken
  /-- There is no receiver. -/
  | closed
deriving DecidableEq, Repr

def Handed.closedMessage : String := "handoff channel closed"

/-- The channel between a sender and a receiver. -/
structure Handoff where
  slot : Mailbox Envelope
  /-- The sends in flight, in the order in which they began. -/
  sends : List Sending
  /-- The ticket of the next send. -/
  nextTicket : Nat
  /-- Every envelope whose sample has been taken, in order. -/
  taken : List Envelope
  hasSender : Bool
deriving DecidableEq, Repr

namespace Handoff

def empty : Handoff :=
  { slot := .empty 1, sends := [], nextTicket := 0, taken := [], hasSender := true }

def send? (h : Handoff) (ticket : Nat) : Option Sending :=
  h.sends.find? fun s => s.ticket == ticket

def setStage (h : Handoff) (ticket : Nat) (stage : SendStage) : Handoff :=
  { h with sends := h.sends.map fun s => if s.ticket = ticket then { s with stage } else s }

def forget (h : Handoff) (ticket : Nat) : Handoff :=
  { h with sends := h.sends.filter fun s => s.ticket != ticket }

/-- A new send's first look. Without a receiver it is over at once; else its sample is posted or
waits in line. -/
def begin (h : Handoff) (sample : Sample) : Option Nat × Handoff :=
  let ticket := h.nextTicket
  let h := { h with nextTicket := ticket + 1 }
  match h.slot.offer ⟨ticket, sample⟩ with
  | .shut => (none, h)
  | .sent slot => (some ticket, { h with slot, sends := h.sends ++ [⟨ticket, sample, .posted⟩] })
  | .full =>
    (some ticket,
      { h with slot := h.slot.joinLine ticket, sends := h.sends ++ [⟨ticket, sample, .waiting⟩] })

def look (h : Handoff) (ticket : Nat) : Progress Handed × Handoff :=
  match h.send? ticket with
  | none => (.pending, h)
  | some s =>
    match s.stage with
    | .taken => (.ready .taken, h.forget ticket)
    | .lost => (.ready .closed, h.forget ticket)
    | .posted => (.pending, h)
    | .waiting =>
      match h.slot.claim ticket ⟨ticket, s.sample⟩ with
      | .shut slot => (.ready .closed, { h with slot }.forget ticket)
      | .placed slot => (.pending, { h with slot }.setStage ticket .posted)
      | .waiting => (.pending, h)

/-- Nobody waits for a send any more. An envelope in the slot stays there, dead. -/
def abandon (h : Handoff) (ticket : Nat) : Handoff :=
  match h.send? ticket with
  | none => h
  | some s =>
    match s.stage with
    | .waiting => { h with slot := h.slot.withdraw ticket }.forget ticket
    | _ => h.forget ticket

inductive Received where
  | sample (s : Sample)
  | pending
  | closed
deriving DecidableEq, Repr

/-- Takes envelopes from the slot until one is alive, at most `fuel`. -/
def receiveWithin : Nat → Handoff → Received × Handoff
  | 0, h => (.pending, h)
  | fuel + 1, h =>
    match h.slot.take? with
    | none => (if h.hasSender then .pending else .closed, h)
    | some (envelope, slot) =>
      match h.send? envelope.ticket with
      | some _ =>
        (.sample envelope.sample,
          { { h with slot }.setStage envelope.ticket .taken with
            taken := h.taken ++ [envelope] })
      | none => receiveWithin fuel { h with slot }

/-- The receiver's look at the channel. -/
def receive (h : Handoff) : Received × Handoff :=
  receiveWithin (h.slot.queue.length + 1) h

def dropSender (h : Handoff) : Handoff := { h with hasSender := false }

/-- The receiver goes away; what lies in the slot is lost. -/
def dropReceiver (h : Handoff) : Handoff :=
  { h with
    slot := h.slot.drop
    sends := h.sends.map fun s =>
      match s.stage with
      | .posted => { s with stage := .lost }
      | _ => s }

end Handoff

end HealthRelay
