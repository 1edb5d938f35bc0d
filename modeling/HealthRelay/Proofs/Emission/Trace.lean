import HealthRelay.Proofs.Emission

/-!
# Traces of a sink

A sink in the hands of its users: calls that push an event begin, are polled again and are given up,
each under a token of its own or one it shares, tokens fire, the receiver takes events, lets nothing
more in and goes away, in any order. What cannot be done changes nothing. `facts` is what the users
see; a call's ticket is its number among all calls that began.

`Sound` ties the facts to the sink: whoever waits is in line and found the sink full, what the sink
has accepted are the events of the calls that ended well, and a call that is over has left the line.
-/

namespace HealthRelay

/-- What is done with a sink and the calls over it. -/
inductive EmitAct where
  /-- A call is polled for the first time. -/
  | emit (event : Event) (token : Nat)
  /-- A call that waits is polled again. -/
  | look (ticket : Nat)
  /-- A call that waits is dropped. -/
  | giveUp (ticket : Nat)
  | fire (token : Nat)
  /-- The receiver takes an event, if there is one. -/
  | take
  /-- The receiver lets nothing more in, and keeps what it has. -/
  | closeReceiver
  | dropReceiver
deriving DecidableEq, Repr

structure EmitCall where
  event : Event
  token : Nat
  found : SinkFound
deriving DecidableEq, Repr

/-- What is seen of a sink from outside. -/
inductive EmitFact where
  | began (call : EmitCall)
  /-- The event of a call got into the sink. -/
  | entered (ticket : Nat)
  | ended (ticket : Nat) (outcome : Emitted)
  | givenUp (ticket : Nat)
  | fired (token : Nat)
  /-- The receiver closed the sink. -/
  | shut
  /-- The receiver went away. -/
  | dropped
deriving DecidableEq, Repr

namespace EmitFact

/-- All calls, in the order in which they began. -/
def calls : List EmitFact → List EmitCall :=
  List.filterMap fun
    | .began call => some call
    | _ => none

/-- The tickets of the events that got into the sink, in order. -/
def entries : List EmitFact → List Nat :=
  List.filterMap fun
    | .entered t => some t
    | _ => none

/-- The calls that came to an end, in order. -/
def ends : List EmitFact → List (Nat × Emitted) :=
  List.filterMap fun
    | .ended t outcome => some (t, outcome)
    | _ => none

variable (fs gs : List EmitFact)

@[simp] theorem calls_append : calls (fs ++ gs) = calls fs ++ calls gs := List.filterMap_append

@[simp] theorem entries_append : entries (fs ++ gs) = entries fs ++ entries gs :=
  List.filterMap_append

@[simp] theorem ends_append : ends (fs ++ gs) = ends fs ++ ends gs := List.filterMap_append

/-- The tickets of the calls that ended well, in the order in which they ended. -/
def sent (fs : List EmitFact) : List Nat :=
  ((ends fs).filter fun e => e.2 == .sent).map Prod.fst

@[simp] theorem sent_append : sent (fs ++ gs) = sent fs ++ sent gs := by simp [sent]

variable {fs}

theorem mem_sent {t : Nat} : t ∈ sent fs ↔ (t, .sent) ∈ ends fs := by
  simp [sent]

theorem mem_ends {t : Nat} {o : Emitted} : (t, o) ∈ ends fs ↔ .ended t o ∈ fs := by
  unfold ends
  rw [List.mem_filterMap]
  constructor
  · rintro ⟨f, hf, he⟩
    cases f <;> cases he
    exact hf
  · intro h
    exact ⟨_, h, rfl⟩

end EmitFact

/-- A call that waits for room. -/
structure Waiter where
  emission : Emission
  token : Nat
deriving DecidableEq, Repr

def Waiter.ticket (w : Waiter) : Nat := w.emission.ticket

/-- A sink with the calls that wait, and all that has been seen of it. -/
structure EmissionTrace where
  sink : Sink
  waiters : List Waiter
  facts : List EmitFact
deriving DecidableEq, Repr

namespace EmissionTrace

open EmitFact

def start (capacity : Nat) : EmissionTrace := ⟨.empty capacity, [], []⟩

def hasFired (c : EmissionTrace) (token : Nat) : Bool := decide (.fired token ∈ c.facts)

/-- How many calls have begun: the ticket of the next one. -/
def next (c : EmissionTrace) : Nat := (calls c.facts).length

/-- What is seen of a look: whether the sink's log has grown, and whether the call is over. -/
def told (ticket : Nat) (before : Sink) (looked : Progress Emitted × Sink) : List EmitFact :=
  (if before.accepted.length < looked.2.accepted.length then [.entered ticket] else []) ++
    match looked.1 with
    | .ready outcome => [.ended ticket outcome]
    | .pending => []

def waiter? (c : EmissionTrace) (ticket : Nat) : Option Waiter :=
  c.waiters.find? fun w => w.ticket == ticket

/-- Everybody who waits but the call of a ticket. -/
def without (c : EmissionTrace) (ticket : Nat) : List Waiter :=
  c.waiters.filter fun w => w.ticket != ticket

def step (c : EmissionTrace) : EmitAct → EmissionTrace
  | .emit event token =>
    let e : Emission := ⟨event, c.next⟩
    let looked := e.start (c.hasFired token) c.sink
    { sink := looked.2
      waiters := if looked.1.isReady then c.waiters else c.waiters ++ [⟨e, token⟩]
      facts := c.facts ++ .began ⟨event, token, c.sink.found⟩ :: told c.next c.sink looked }
  | .look t =>
    match c.waiter? t with
    | none => c
    | some w =>
      let looked := w.emission.look (c.hasFired w.token) c.sink
      { sink := looked.2
        waiters := if looked.1.isReady then c.without t else c.waiters
        facts := c.facts ++ told t c.sink looked }
  | .giveUp t =>
    match c.waiter? t with
    | none => c
    | some w => ⟨w.emission.abandon c.sink, c.without t, c.facts ++ [.givenUp t]⟩
  | .fire token => { c with facts := c.facts ++ [.fired token] }
  | .take =>
    match c.sink.take? with
    | none => c
    | some (_, sink) => { c with sink }
  | .closeReceiver =>
    if c.sink.isOpen then { c with sink := c.sink.close, facts := c.facts ++ [.shut] } else c
  | .dropReceiver => { c with sink := c.sink.drop, facts := c.facts ++ [.dropped] }

def perform (c : EmissionTrace) (acts : List EmitAct) : EmissionTrace := acts.foldl step c

def run (capacity : Nat) (acts : List EmitAct) : EmissionTrace := (start capacity).perform acts

/-! ## The invariant -/

/-- The receiver let nothing more in. -/
def IsShut (facts : List EmitFact) : Prop := .shut ∈ facts ∨ .dropped ∈ facts

theorem IsShut.append {facts : List EmitFact} (h : IsShut facts) (new : List EmitFact) :
    IsShut (facts ++ new) := h.imp (List.mem_append_left _) (List.mem_append_left _)

theorem isShut_append {facts new : List EmitFact} (hn : ¬ IsShut new) :
    IsShut (facts ++ new) ↔ IsShut facts := by
  refine ⟨fun h => ?_, fun h => h.append new⟩
  simp only [IsShut, List.mem_append] at h hn
  exact h.imp (fun h => h.resolve_right fun h' => hn (.inl h'))
    fun h => h.resolve_right fun h' => hn (.inr h')

/-- What the end of a call says about the time before it. -/
def Rightly (facts : List EmitFact) (t : Nat) : Emitted → Prop
  | .sent => True
  | .closed => IsShut facts
  | .cancelled => ∃ call, (calls facts)[t]? = some call ∧ call.found = .full ∧
      .fired call.token ∈ facts

/-- Where a call is that has begun. -/
def Settled (facts : List EmitFact) (line : List Nat) (t : Nat) : Prop :=
  t ∈ line ∨ (∃ o, (t, o) ∈ ends facts) ∨ .givenUp t ∈ facts

/-- The facts are those of the sink. -/
structure Sound (c : EmissionTrace) : Prop where
  fair : c.sink.Fair
  shut : c.sink.isOpen = false ↔ IsShut c.facts
  line : c.sink.line = c.waiters.map Waiter.ticket
  /-- Whoever has waited longer stands before. -/
  order : c.sink.line.Pairwise (· < ·)
  fresh : ∀ t ∈ c.sink.line, t < c.next
  waiting : ∀ w ∈ c.waiters,
    (calls c.facts)[w.ticket]? = some ⟨w.emission.event, w.token, .full⟩
  accepted : c.sink.accepted.map some =
    (entries c.facts).map fun t => (calls c.facts)[t]?.map (·.event)
  entries_eq : entries c.facts = sent c.facts
  ends_nodup : ((ends c.facts).map Prod.fst).Nodup
  ended : ∀ t o, (t, o) ∈ ends c.facts → t < c.next ∧ t ∉ c.sink.line ∧ Rightly c.facts t o
  free : ∀ t call, (calls c.facts)[t]? = some call → call.found = .free →
    (t, .sent) ∈ ends c.facts
  settled : ∀ t, t < c.next → Settled c.facts c.sink.line t

theorem sound_start (capacity : Nat) : (start capacity).Sound where
  fair := Mailbox.fair_empty capacity
  shut := by simp [start, Mailbox.empty, Mailbox.isOpen, IsShut]
  line := rfl
  order := .nil
  fresh := by simp [start, Mailbox.empty, Mailbox.line]
  waiting := by simp [start]
  accepted := rfl
  entries_eq := rfl
  ends_nodup := .nil
  ended := by simp [start, ends]
  free := by simp [start, calls]
  settled := by simp [start, next, calls]

theorem Rightly.append {facts : List EmitFact} {t : Nat} {o : Emitted} (h : Rightly facts t o)
    (new : List EmitFact) : Rightly (facts ++ new) t o := by
  cases o with
  | sent => trivial
  | closed => exact IsShut.append h new
  | cancelled =>
    obtain ⟨call, hc, hf, ht⟩ := h
    refine ⟨call, ?_, hf, List.mem_append_left _ ht⟩
    rw [calls_append, List.getElem?_append_left (List.getElem?_eq_some_iff.mp hc).1, hc]

/-- A call that has begun with these facts. -/
def IsNew (c : EmissionTrace) (new : List EmitFact) (t : Nat) : Prop :=
  c.next ≤ t ∧ t < c.next + (calls new).length

theorem isNew_singleton {c : EmissionTrace} {new : List EmitFact} (h : (calls new).length = 1)
    {t : Nat} : c.IsNew new t ↔ t = c.next := by
  rw [IsNew, h]
  omega

theorem not_isNew {c : EmissionTrace} {new : List EmitFact} (h : calls new = []) (t : Nat) :
    ¬ c.IsNew new t := by
  rw [IsNew, h, List.length_nil]
  omega

/-- What a trace that goes on has to say to stay sound: `c'` comes of `c` by an act with the facts
`new`. -/
structure Extends (c c' : EmissionTrace) (new : List EmitFact) : Prop where
  facts : c'.facts = c.facts ++ new
  fair : c'.sink.Fair
  shut : c'.sink.isOpen = false ↔ IsShut c'.facts
  line : c'.sink.line = c'.waiters.map Waiter.ticket
  order : c'.sink.line.Pairwise (· < ·)
  /-- Nobody comes into the line but those who have just begun. -/
  fresh : ∀ t ∈ c'.sink.line, t ∈ c.sink.line ∨ c.IsNew new t
  waiting : ∀ w ∈ c'.waiters, w ∈ c.waiters ∨
    (calls c'.facts)[w.ticket]? = some ⟨w.emission.event, w.token, .full⟩
  accepted : ∃ extra, c'.sink.accepted = c.sink.accepted ++ extra ∧
    extra.map some = (entries new).map fun t => (calls c'.facts)[t]?.map (·.event)
  entries_eq : entries new = sent new
  ends_nodup : ((ends new).map Prod.fst).Nodup
  /-- Only who stood in line or has just begun comes to an end, and then leaves the line. -/
  ended : ∀ t o, (t, o) ∈ ends new →
    (t ∈ c.sink.line ∨ c.IsNew new t) ∧ t ∉ c'.sink.line ∧ Rightly c'.facts t o
  free : ∀ i call, (calls new)[i]? = some call → call.found = .free →
    (c.next + i, .sent) ∈ ends new
  settled : ∀ t, t ∈ c.sink.line ∨ c.IsNew new t → Settled new c'.sink.line t

theorem Settled.append {facts : List EmitFact} {line : List Nat} {t : Nat}
    (h : Settled facts line t) (before : List EmitFact) : Settled (before ++ facts) line t := by
  unfold Settled at h ⊢
  rw [ends_append]
  exact h.imp_right (Or.imp (fun ⟨o, ho⟩ => ⟨o, List.mem_append_right _ ho⟩)
    (List.mem_append_right _))

theorem Sound.extend {c c' : EmissionTrace} (hc : c.Sound) {new : List EmitFact}
    (hn : c.Extends c' new) : c'.Sound := by
  have hcalls : calls c'.facts = calls c.facts ++ calls new := by rw [hn.facts, calls_append]
  have hnext : c'.next = c.next + (calls new).length := by
    simp only [next, hcalls, List.length_append]
  -- what is known of the calls of old stays known
  have hold : ∀ {t : Nat} {call}, (calls c.facts)[t]? = some call →
      (calls c'.facts)[t]? = some call := by
    intro t call h
    rw [hcalls, List.getElem?_append_left (List.getElem?_eq_some_iff.mp h).1, h]
  have hover : ∀ t o, (t, o) ∈ ends c.facts → t ∉ c'.sink.line := by
    intro t o h hin
    obtain ⟨hlt, hout, -⟩ := hc.ended t o h
    rcases hn.fresh t hin with hin | hnew
    · exact hout hin
    · exact Nat.not_lt.mpr hnew.1 hlt
  -- who was in line, or has just begun, has a ticket
  have hticket : ∀ t, t ∈ c.sink.line ∨ c.IsNew new t → t < c'.next := by
    intro t ht
    rw [hnext]
    rcases ht with h | h
    · exact Nat.lt_add_right _ (hc.fresh t h)
    · exact h.2
  refine {
    fair := hn.fair
    shut := hn.shut
    line := hn.line
    order := hn.order
    fresh := fun t ht => hticket t (hn.fresh t ht)
    waiting := fun w hw => (hn.waiting w hw).elim (fun h => hold (hc.waiting w h)) id
    accepted := ?_
    entries_eq := by
      rw [hn.facts, entries_append, sent_append, hc.entries_eq, hn.entries_eq]
    ends_nodup := ?_
    ended := fun t o ht => ?_
    free := fun t call ht hf => ?_
    settled := fun t ht => ?_ }
  · obtain ⟨extra, hacc, hextra⟩ := hn.accepted
    rw [hacc, List.map_append, hextra, hc.accepted, hn.facts, entries_append, List.map_append,
      ← hn.facts]
    congr 1
    apply List.map_congr_left
    intro t ht
    -- an entry of old is one of a call of old
    rw [hc.entries_eq, mem_sent] at ht
    have hlt := (hc.ended t _ ht).1
    rw [hcalls, List.getElem?_append_left hlt]
  · rw [hn.facts, ends_append, List.map_append, List.nodup_append]
    refine ⟨hc.ends_nodup, hn.ends_nodup, fun t ht t' ht' heq => ?_⟩
    rw [← heq] at ht'
    obtain ⟨⟨t, o⟩, ho, rfl⟩ := List.mem_map.mp ht
    obtain ⟨⟨t', o'⟩, ho', rfl⟩ := List.mem_map.mp ht'
    obtain ⟨hlt, hout, -⟩ := hc.ended t' o ho
    rcases (hn.ended t' o' ho').1 with h | h
    · exact hout h
    · exact Nat.not_lt.mpr h.1 hlt
  · rw [hn.facts, ends_append] at ht
    rcases List.mem_append.mp ht with ht | ht
    · obtain ⟨hlt, -, hr⟩ := hc.ended t o ht
      exact ⟨by omega, hover t o ht, hn.facts ▸ hr.append new⟩
    · obtain ⟨hwho, hout⟩ := hn.ended t o ht
      exact ⟨hticket t hwho, hout⟩
  · rw [hn.facts, ends_append, List.mem_append]
    by_cases hlt : t < (calls c.facts).length
    · rw [hcalls, List.getElem?_append_left hlt] at ht
      exact .inl (hc.free t call ht hf)
    · rw [hcalls, List.getElem?_append_right (Nat.not_lt.mp hlt)] at ht
      have := hn.free _ call ht hf
      rw [next, Nat.add_sub_cancel' (Nat.not_lt.mp hlt)] at this
      exact .inr this
  · by_cases hlt : t < c.next
    · rcases hc.settled t hlt with h | ⟨o, h⟩ | h
      · exact hn.facts ▸ (hn.settled t (.inl h)).append c.facts
      · exact .inr (.inl ⟨o, by rw [hn.facts, ends_append]; exact List.mem_append_left _ h⟩)
      · exact .inr (.inr (hn.facts ▸ List.mem_append_left _ h))
    · exact hn.facts ▸ (hn.settled t (.inr ⟨Nat.not_lt.mp hlt, hnext ▸ ht⟩)).append c.facts

end EmissionTrace

end HealthRelay
