import HealthRelay.Handoff
import HealthRelay.Proofs.Mailbox

/-!
# What the operations of a handoff do

Membership in the sends after each change of them, the ways in which a send's look can go, and the
three ways in which the receiver's look can go: the slot is empty, its envelope is alive, or its
envelope is dead.
-/

namespace HealthRelay.Handoff

/-! ## Sends -/

theorem mem_of_send? {h : Handoff} {t : Nat} {s : Sending} (hs : h.send? t = some s) :
    s ∈ h.sends ∧ s.ticket = t :=
  ⟨List.mem_of_find?_eq_some hs, by simpa using List.find?_some hs⟩

theorem send?_eq_none {h : Handoff} {t : Nat} :
    h.send? t = none ↔ ∀ s ∈ h.sends, s.ticket ≠ t := by
  simp [send?, List.find?_eq_none]

theorem mem_forget {h : Handoff} {t : Nat} {s : Sending} :
    s ∈ (h.forget t).sends ↔ s ∈ h.sends ∧ s.ticket ≠ t := by
  simp [forget]

theorem mem_setStage {h : Handoff} {t : Nat} {stage : SendStage} {s : Sending} :
    s ∈ (h.setStage t stage).sends ↔
      ∃ s₀ ∈ h.sends, s = if s₀.ticket = t then { s₀ with stage } else s₀ := by
  simp only [setStage, List.mem_map, eq_comm]

/-- A change of stage keeps all that does not look at stages. -/
theorem setStage_map {β : Type} (f : Sending → β) (hf : ∀ s stage, f { s with stage } = f s)
    (h : Handoff) (t : Nat) (stage : SendStage) :
    (h.setStage t stage).sends.map f = h.sends.map f := by
  rw [setStage, List.map_map]
  apply List.map_congr_left
  intro s _
  simp only [Function.comp]
  split
  · exact hf s stage
  · rfl

theorem dropReceiver_map {β : Type} (f : Sending → β) (hf : ∀ s stage, f { s with stage } = f s)
    (h : Handoff) : h.dropReceiver.sends.map f = h.sends.map f := by
  rw [dropReceiver, List.map_map]
  apply List.map_congr_left
  intro s _
  simp only [Function.comp]
  split
  · exact hf s .lost
  · rfl

/-! ## A send's looks, and its end from outside -/

section
variable {h : Handoff} {t : Nat} {s : Sending}

theorem begin_shut (ho : h.slot.isOpen = false) (sample : Sample) :
    h.begin sample = (none, { h with nextTicket := h.nextTicket + 1 }) := by
  simp only [begin, Mailbox.offer, ho, Bool.not_false, ↓reduceIte]

theorem begin_sent (ho : h.slot.isOpen = true) (hr : h.slot.hasRoom = true) (sample : Sample) :
    h.begin sample = (some h.nextTicket, { h with
      nextTicket := h.nextTicket + 1
      slot := h.slot.push ⟨h.nextTicket, sample⟩
      sends := h.sends ++ [⟨h.nextTicket, sample, .posted⟩] }) := by
  simp only [begin, Mailbox.offer, ho, hr, Bool.not_true, Bool.false_eq_true, ↓reduceIte]

theorem begin_full (ho : h.slot.isOpen = true) (hr : h.slot.hasRoom = false) (sample : Sample) :
    h.begin sample = (some h.nextTicket, { h with
      nextTicket := h.nextTicket + 1
      slot := h.slot.joinLine h.nextTicket
      sends := h.sends ++ [⟨h.nextTicket, sample, .waiting⟩] }) := by
  simp only [begin, Mailbox.offer, ho, hr, Bool.not_true, Bool.false_eq_true, ↓reduceIte]

theorem look_none (hf : h.send? t = none) : h.look t = (.pending, h) := by
  simp only [look, hf]

theorem look_taken (hf : h.send? t = some s) (hst : s.stage = .taken) :
    h.look t = (.ready .taken, h.forget t) := by
  simp only [look, hf, hst]

theorem look_lost (hf : h.send? t = some s) (hst : s.stage = .lost) :
    h.look t = (.ready .closed, h.forget t) := by
  simp only [look, hf, hst]

theorem look_posted (hf : h.send? t = some s) (hst : s.stage = .posted) :
    h.look t = (.pending, h) := by
  simp only [look, hf, hst]

/-- Without a receiver a send that waits is over. -/
theorem look_shut (hf : h.send? t = some s) (hst : s.stage = .waiting)
    (ho : h.slot.isOpen = false) :
    h.look t = (.ready .closed, { h with slot := h.slot.withdraw t }.forget t) := by
  simp only [look, hf, hst, Mailbox.claim, ho, Bool.not_false, ↓reduceIte]

/-- The handoff once the owner of the place has filled it. -/
def filled (h : Handoff) (s : Sending) : Handoff :=
  { h with
    slot := { h.slot with granted := h.slot.granted.erase s.ticket }.push ⟨s.ticket, s.sample⟩
  }.setStage s.ticket .posted

theorem look_owner (hf : h.send? t = some s) (hst : s.stage = .waiting)
    (ho : h.slot.isOpen = true) (hg : t ∈ h.slot.granted) :
    h.look t = (.pending, h.filled s) := by
  obtain ⟨-, rfl⟩ := mem_of_send? hf
  have hc : h.slot.granted.contains s.ticket = true := by simpa using hg
  simp only [look, hf, hst, Mailbox.claim, ho, hc, Bool.not_true, Bool.false_eq_true, ↓reduceIte]
  rfl

theorem look_in_line (hf : h.send? t = some s) (hst : s.stage = .waiting)
    (ho : h.slot.isOpen = true) (hg : t ∉ h.slot.granted) : h.look t = (.pending, h) := by
  have hc : h.slot.granted.contains t = false := by simpa using hg
  simp only [look, hf, hst, Mailbox.claim, ho, hc, Bool.not_true, Bool.false_eq_true, ↓reduceIte]

theorem abandon_none (hf : h.send? t = none) : h.abandon t = h := by
  simp only [abandon, hf]

theorem abandon_waiting (hf : h.send? t = some s) (hst : s.stage = .waiting) :
    h.abandon t = { h with slot := h.slot.withdraw t }.forget t := by
  simp only [abandon, hf, hst]

/-- An envelope in the slot stays there when its send is given up. -/
theorem abandon_placed (hf : h.send? t = some s) (hst : s.stage ≠ .waiting) :
    h.abandon t = h.forget t := by
  simp only [abandon, hf]

end

/-! ## The receiver's look -/

/-- What the receiver finds when nothing is left in the slot. -/
def emptyAnswer (h : Handoff) : Received := if h.hasSender then .pending else .closed

/-- The handoff once an envelope has left the slot. -/
def popped (h : Handoff) (rest : List Envelope) : Handoff :=
  { h with slot := { h.slot with queue := rest }.grant }

def served (h : Handoff) (e : Envelope) (rest : List Envelope) : Handoff :=
  { (h.popped rest).setStage e.ticket .taken with taken := h.taken ++ [e] }

theorem receiveWithin_nil {h : Handoff} (hq : h.slot.queue = []) (n : Nat) :
    receiveWithin (n + 1) h = (h.emptyAnswer, h) := by
  rw [receiveWithin, Mailbox.take?_eq_none.mpr hq]
  rfl

theorem receiveWithin_alive {h : Handoff} {e : Envelope} {rest : List Envelope} {s : Sending}
    (hq : h.slot.queue = e :: rest) (hs : h.send? e.ticket = some s) (n : Nat) :
    receiveWithin (n + 1) h = (.sample e.sample, h.served e rest) := by
  rw [receiveWithin, Mailbox.take?_eq_some.mpr ⟨rest, hq, rfl⟩]
  simp only [hs]
  rfl

theorem receiveWithin_dead {h : Handoff} {e : Envelope} {rest : List Envelope}
    (hq : h.slot.queue = e :: rest) (hs : h.send? e.ticket = none) (n : Nat) :
    receiveWithin (n + 1) h = receiveWithin n (h.popped rest) := by
  rw [receiveWithin, Mailbox.take?_eq_some.mpr ⟨rest, hq, rfl⟩]
  simp only [hs]
  rfl

@[simp] theorem popped_queue (h : Handoff) (rest : List Envelope) :
    (h.popped rest).slot.queue = rest := Mailbox.grant_queue _

@[simp] theorem popped_line (h : Handoff) (rest : List Envelope) :
    (h.popped rest).slot.line = h.slot.line := Mailbox.grant_line _

@[simp] theorem popped_capacity (h : Handoff) (rest : List Envelope) :
    (h.popped rest).slot.capacity = h.slot.capacity := Mailbox.grant_capacity _

@[simp] theorem popped_gate (h : Handoff) (rest : List Envelope) :
    (h.popped rest).slot.gate = h.slot.gate := Mailbox.grant_gate _

@[simp] theorem popped_taken (h : Handoff) (rest : List Envelope) :
    (h.popped rest).taken = h.taken := rfl

@[simp] theorem served_slot (h : Handoff) (e : Envelope) (rest : List Envelope) :
    (h.served e rest).slot = (h.popped rest).slot := rfl

@[simp] theorem served_taken (h : Handoff) (e : Envelope) (rest : List Envelope) :
    (h.served e rest).taken = h.taken ++ [e] := rfl

/-! ## The two ends -/

/-- How the receiver's end and the sender's end stand. -/
def ends (h : Handoff) : Gate × Bool := (h.slot.gate, h.hasSender)

theorem begin_ends (h : Handoff) (sample : Sample) : (h.begin sample).2.ends = h.ends := by
  unfold begin Mailbox.offer
  cases ho : h.slot.isOpen with
  | false => simp [ho, ends]
  | true =>
    cases hr : h.slot.hasRoom with
    | false => simp [ho, hr, ends, Mailbox.joinLine]
    | true => simp [ho, hr, ends, Mailbox.push]

theorem look_ends (h : Handoff) (t : Nat) : (h.look t).2.ends = h.ends := by
  unfold look
  split
  · rfl
  · split <;> try rfl
    unfold Mailbox.claim
    split
    · rename_i hclaim
      split at hclaim
      · cases hclaim
        exact congrArg (·, h.hasSender) (Mailbox.withdraw_gate ..)
      · split at hclaim <;> cases hclaim
    · rename_i hclaim
      split at hclaim
      · cases hclaim
      · split at hclaim <;> cases hclaim
        rfl
    · rfl

theorem abandon_ends (h : Handoff) (t : Nat) : (h.abandon t).ends = h.ends := by
  unfold abandon
  split
  · rfl
  · split
    · exact congrArg (·, h.hasSender) (Mailbox.withdraw_gate ..)
    · rfl

theorem popped_ends (h : Handoff) (rest : List Envelope) : (h.popped rest).ends = h.ends :=
  congrArg (·, h.hasSender) (h.popped_gate rest)

theorem served_ends (h : Handoff) (e : Envelope) (rest : List Envelope) :
    (h.served e rest).ends = h.ends := h.popped_ends rest

/-! ## One envelope at most -/

theorem receive_nil {h : Handoff} (hq : h.slot.queue = []) : h.receive = (h.emptyAnswer, h) := by
  rw [receive, receiveWithin_nil hq]

theorem receive_alive {h : Handoff} {e : Envelope} {rest : List Envelope} {s : Sending}
    (hq : h.slot.queue = e :: rest) (hs : h.send? e.ticket = some s) :
    h.receive = (.sample e.sample, h.served e rest) := by
  rw [receive, receiveWithin_alive hq hs]

theorem receive_dead {h : Handoff} {e : Envelope} (hq : h.slot.queue = [e])
    (hs : h.send? e.ticket = none) : h.receive = (h.emptyAnswer, h.popped []) := by
  rw [receive, hq, receiveWithin_dead hq hs, List.length_singleton,
    receiveWithin_nil (h.popped_queue [])]
  rfl

end HealthRelay.Handoff
