import HealthRelay.Emission
import HealthRelay.Proofs.Mailbox

/-!
# What an emission does to the sink

`start_cases` and `look_cases` list all that a look at an emission can do. `Adds P s s'`: between `s`
and `s'` only events with `P` got into the sink. A look at an emission adds its own event at most, a
look after the token has fired adds nothing, and in neither case does a fired token leave an emission
waiting.
-/

namespace HealthRelay

inductive SinkFound where
  /-- There is a place that is neither filled nor promised. -/
  | free
  | full
  /-- There is no receiver. -/
  | gone
deriving DecidableEq, Repr

/-- How somebody who has just come finds a sink. -/
def Sink.found (s : Sink) : SinkFound :=
  if !s.isOpen then .gone else if s.hasRoom then .free else .full

namespace Sink

variable {s : Sink}

theorem found_eq_gone : s.found = .gone ↔ s.isOpen = false := by
  unfold found
  cases s.isOpen <;> cases s.hasRoom <;> simp

theorem found_eq_free : s.found = .free ↔ s.isOpen = true ∧ s.hasRoom = true := by
  unfold found
  cases s.isOpen <;> cases s.hasRoom <;> simp

theorem found_eq_full : s.found = .full ↔ s.isOpen = true ∧ s.hasRoom = false := by
  unfold found
  cases s.isOpen <;> cases s.hasRoom <;> simp

end Sink

/-- Only events with a property got into the sink. -/
def Sink.Adds (P : Event → Prop) (s s' : Sink) : Prop :=
  ∃ new, s'.accepted = s.accepted ++ new ∧ ∀ e ∈ new, P e

namespace Sink

variable {P : Event → Prop} {s s' s'' : Sink}

theorem adds_of_eq (h : s'.accepted = s.accepted) : Adds P s s' :=
  ⟨[], by rw [h, List.append_nil], by simp⟩

theorem adds_refl (P : Event → Prop) (s : Sink) : Adds P s s := adds_of_eq rfl

theorem Adds.trans (h : Adds P s s') (h' : Adds P s' s'') : Adds P s s'' := by
  obtain ⟨new, hs, hn⟩ := h
  obtain ⟨new', hs', hn'⟩ := h'
  refine ⟨new ++ new', by rw [hs', hs, List.append_assoc], fun e he => ?_⟩
  exact (List.mem_append.mp he).elim (hn e) (hn' e)

theorem Adds.imp {Q : Event → Prop} (h : Adds P s s') (hpq : ∀ e, P e → Q e) : Adds Q s s' := by
  obtain ⟨new, hs, hn⟩ := h
  exact ⟨new, hs, fun e he => hpq e (hn e he)⟩

end Sink

/-- A mailbox after the owner of a place has filled it. -/
def Mailbox.fill {α : Type} (m : Mailbox α) (ticket : Nat) (a : α) : Mailbox α :=
  { m with granted := m.granted.erase ticket }.push a

namespace Emission

/-- All that a first look can do. -/
theorem start_cases (e : Emission) (cancelled : Bool) (sink : Sink) :
    (sink.found = .free ∧ e.start cancelled sink = (.ready .sent, sink.push e.event)) ∨
      (sink.found = .gone ∧ e.start cancelled sink = (.ready .closed, sink)) ∨
      (sink.found = .full ∧ cancelled = true ∧ e.start cancelled sink = (.ready .cancelled, sink)) ∨
      (sink.found = .full ∧ cancelled = false ∧
        e.start cancelled sink = (.pending, sink.joinLine e.ticket)) := by
  unfold start Mailbox.offer Sink.found
  cases sink.isOpen <;> cases sink.hasRoom <;> cases cancelled <;> simp

/-- All that a later look can do. -/
theorem look_cases (e : Emission) (cancelled : Bool) (sink : Sink) :
    (cancelled = true ∧ e.look cancelled sink = (.ready .cancelled, sink.withdraw e.ticket)) ∨
      (cancelled = false ∧ sink.isOpen = false ∧
        e.look cancelled sink = (.ready .closed, sink.withdraw e.ticket)) ∨
      (cancelled = false ∧ sink.isOpen = true ∧ e.ticket ∈ sink.granted ∧
        e.look cancelled sink = (.ready .sent, sink.fill e.ticket e.event)) ∨
      (cancelled = false ∧ sink.isOpen = true ∧ e.ticket ∉ sink.granted ∧
        e.look cancelled sink = (.pending, sink)) := by
  unfold look Mailbox.claim Mailbox.fill
  cases cancelled
  · cases sink.isOpen
    · simp
    · by_cases hg : e.ticket ∈ sink.granted <;> simp [hg]
  · simp

theorem start_adds (e : Emission) (cancelled : Bool) (sink : Sink) :
    Sink.Adds (· = e.event) sink (e.start cancelled sink).2 := by
  unfold start Mailbox.offer
  cases sink.isOpen with
  | false => exact Sink.adds_refl _ _
  | true =>
    cases sink.hasRoom with
    | true => exact ⟨[e.event], rfl, by simp⟩
    | false => cases cancelled <;> exact Sink.adds_of_eq rfl

/-- A fired token leaves no new emission waiting. -/
theorem start_isReady (e : Emission) (sink : Sink) : (e.start true sink).1.isReady = true := by
  unfold start Mailbox.offer
  cases sink.isOpen with
  | false => rfl
  | true => cases sink.hasRoom <;> rfl

theorem look_cancelled (e : Emission) (sink : Sink) :
    e.look true sink = (.ready .cancelled, sink.withdraw e.ticket) := rfl

theorem look_cancelled_adds (P : Event → Prop) (e : Emission) (sink : Sink) :
    Sink.Adds P sink (e.look true sink).2 := by
  rw [look_cancelled]
  exact Sink.adds_of_eq (sink.withdraw_accepted e.ticket)

end Emission

end HealthRelay
