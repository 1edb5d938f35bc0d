import HealthRelay.Handoff

/-!
# Handoffs by hand

Many sends over one handoff. After every action all unfinished sends are looked at, the oldest
first, again and again until a round finishes none. The sender goes away once it is let go and no
send is left.
-/

namespace HealthRelay.Simulation

/-- A send that is not over; without a ticket it has not been looked at yet. -/
structure HandoffCall where
  id : String
  sample : Sample
  ticket : Option Nat
deriving DecidableEq, Repr

inductive HandoffAnswer where
  | sample (s : Sample)
  | pending
  | closed
  | noReceiver
  | noSender
deriving DecidableEq, Repr

inductive HandoffAction where
  | send (id : String) (sample : Sample)
  | abandon (id : String)
  | receive
  | dropSender
  | dropReceiver
deriving DecidableEq, Repr

/-- A handoff with the sends over it. -/
structure Handoffs where
  handoff : Handoff
  calls : List HandoffCall
  isLetGo : Bool
deriving DecidableEq, Repr

namespace Handoffs

def start : Handoffs := { handoff := .empty, calls := [], isLetGo := false }

def look (c : HandoffCall) (h : Handoff) : Progress Handed × HandoffCall × Handoff :=
  match c.ticket with
  | some ticket =>
    let (progress, h) := h.look ticket
    (progress, c, h)
  | none =>
    match h.begin c.sample with
    | (none, h) => (.ready .closed, c, h)
    | (some ticket, h) => (.pending, { c with ticket := some ticket }, h)

/-- Looks at each send once: those that ended, those that go on, and the handoff. -/
def round : List HandoffCall → Handoff → List (String × Handed) × List HandoffCall × Handoff
  | [], h => ([], [], h)
  | c :: calls, h =>
    let (progress, c, h) := look c h
    let (done, rest, h) := round calls h
    match progress with
    | .ready outcome => ((c.id, outcome) :: done, rest, h)
    | .pending => (done, c :: rest, h)

/-- Rounds until one finishes nothing, at most `fuel`. -/
def settle : Nat → Handoffs → List (String × Handed) × Handoffs
  | 0, s => ([], s)
  | fuel + 1, s =>
    let (done, calls, handoff) := round s.calls s.handoff
    let s := { s with calls, handoff }
    match done with
    | [] => ([], s)
    | _ =>
      let (more, s) := settle fuel s
      (done ++ more, s)

def receive (s : Handoffs) : HandoffAnswer × Handoffs :=
  if s.handoff.slot.gate = .dropped then (.noReceiver, s)
  else
    match s.handoff.receive with
    | (.sample sample, handoff) => (.sample sample, { s with handoff })
    | (.pending, handoff) => (.pending, { s with handoff })
    | (.closed, handoff) => (.closed, { s with handoff })

/-- An action, before the sends are looked at. -/
def act (s : Handoffs) : HandoffAction → Option HandoffAnswer × Handoffs
  | .send id sample =>
    if s.isLetGo then (some .noSender, s)
    else (none, { s with calls := s.calls ++ [⟨id, sample, none⟩] })
  | .abandon id =>
    match s.calls.find? fun c => c.id == id with
    | some c =>
      (none, { s with
        calls := s.calls.filter fun d => d.id != id
        handoff := match c.ticket with
          | some ticket => s.handoff.abandon ticket
          | none => s.handoff })
    | none => (none, s)
  | .receive =>
    let (answer, s) := s.receive
    (some answer, s)
  | .dropSender => (none, { s with isLetGo := true })
  | .dropReceiver => (none, { s with handoff := s.handoff.dropReceiver })

/-- The sender goes away if it is let go and no send is left. -/
def release (s : Handoffs) : Handoffs :=
  if s.isLetGo && s.calls.isEmpty then { s with handoff := s.handoff.dropSender } else s

structure Outcome where
  answer : Option HandoffAnswer
  done : List (String × Handed)
  waiting : List String

def step (s : Handoffs) (a : HandoffAction) : Outcome × Handoffs :=
  let (answer, s) := s.act a
  let (done, s) := settle (s.calls.length + 1) s
  ({ answer, done, waiting := s.calls.map (·.id) }, s.release)

end Handoffs

end HealthRelay.Simulation
