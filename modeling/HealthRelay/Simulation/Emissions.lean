import HealthRelay.Emission

/-!
# Emissions by hand

Many emissions over one sink, each with a token by name. After every action all unfinished emissions
are looked at, the oldest first, again and again until a round finishes none.
-/

namespace HealthRelay.Simulation

structure EmissionCall where
  id : String
  token : String
  emission : Emission
  isStarted : Bool
deriving DecidableEq, Repr

inductive SinkAnswer where
  | event (e : Event)
  | empty
  | disconnected
  | noReceiver
deriving DecidableEq, Repr

inductive EmissionAction where
  | emit (id token : String) (event : Event)
  | cancel (token : String)
  | abandon (id : String)
  | close
  | drop
  | receive
deriving DecidableEq, Repr

/-- A sink with the emissions over it. -/
structure Emissions where
  sink : Sink
  fired : List String
  calls : List EmissionCall
  nextTicket : Nat
deriving DecidableEq, Repr

namespace Emissions

def start (capacity : Nat) : Emissions :=
  { sink := .empty capacity, fired := [], calls := [], nextTicket := 0 }

def look (fired : List String) (c : EmissionCall) (sink : Sink) : Progress Emitted × Sink :=
  let cancelled := fired.contains c.token
  if c.isStarted then c.emission.look cancelled sink else c.emission.start cancelled sink

/-- Looks at each emission once: those that ended, those that go on, and the sink. -/
def round (fired : List String) :
    List EmissionCall → Sink → List (String × Emitted) × List EmissionCall × Sink
  | [], sink => ([], [], sink)
  | c :: calls, sink =>
    let (progress, sink) := look fired c sink
    let (done, rest, sink) := round fired calls sink
    match progress with
    | .ready outcome => ((c.id, outcome) :: done, rest, sink)
    | .pending => (done, { c with isStarted := true } :: rest, sink)

/-- Rounds until one finishes nothing, at most `fuel`. -/
def settle : Nat → Emissions → List (String × Emitted) × Emissions
  | 0, s => ([], s)
  | fuel + 1, s =>
    let (done, calls, sink) := round s.fired s.calls s.sink
    let s := { s with calls, sink }
    match done with
    | [] => ([], s)
    | _ =>
      let (more, s) := settle fuel s
      (done ++ more, s)

def receive (s : Emissions) : SinkAnswer × Emissions :=
  match s.sink.gate with
  | .dropped => (.noReceiver, s)
  | gate =>
    match s.sink.take? with
    | some (e, sink) => (.event e, { s with sink })
    | none => (if gate = .opened then .empty else .disconnected, s)

/-- An action, before the emissions are looked at. -/
def act (s : Emissions) : EmissionAction → Option SinkAnswer × Emissions
  | .emit id token event =>
    let call : EmissionCall :=
      { id, token, emission := ⟨event, s.nextTicket⟩, isStarted := false }
    (none, { s with calls := s.calls ++ [call], nextTicket := s.nextTicket + 1 })
  | .cancel token => (none, { s with fired := token :: s.fired })
  | .abandon id =>
    match s.calls.find? fun c => c.id == id with
    | some c =>
      (none, { s with
        calls := s.calls.filter fun d => d.emission.ticket != c.emission.ticket
        sink := c.emission.abandon s.sink })
    | none => (none, s)
  | .close => (none, { s with sink := s.sink.close })
  | .drop => (none, { s with sink := s.sink.drop })
  | .receive =>
    let (answer, s) := s.receive
    (some answer, s)

structure Outcome where
  answer : Option SinkAnswer
  done : List (String × Emitted)
  waiting : List String

def step (s : Emissions) (a : EmissionAction) : Outcome × Emissions :=
  let (answer, s) := s.act a
  let (done, s) := settle (s.calls.length + 1) s
  ({ answer, done, waiting := s.calls.map (·.id) }, s)

end Emissions

end HealthRelay.Simulation
