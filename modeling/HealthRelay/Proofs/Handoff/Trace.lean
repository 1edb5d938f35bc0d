import HealthRelay.Proofs.Handoff.Order

/-!
# Traces of a handoff

A handoff in the hands of its users: sends begin, are polled again and are given up, the receiver's
future is polled and dropped, and either end goes away, in any order. A send that is under way
borrows the sender, so the sender goes away only when no send is under way, and nothing is received
without a receiver; what cannot be done changes nothing. `facts` is what the users see.

`Sound` ties the facts to the channel: the samples that came out are those of the taken envelopes,
and a send that is over leaves no trace in the channel.
-/

namespace HealthRelay

inductive HandoffAct where
  /-- A send is polled for the first time. -/
  | send (sample : Sample)
  /-- A send that is under way is polled again. -/
  | look (ticket : Nat)
  /-- A send that is under way is dropped. -/
  | giveUp (ticket : Nat)
  /-- The receiver's future is polled. -/
  | receive
  /-- The receiver's future is dropped while it is pending. -/
  | stopReceiving
  | dropSender
  | dropReceiver
deriving DecidableEq, Repr

/-- What is seen of a handoff from outside. Sends are numbered in the order in which they began. -/
inductive HandoffFact where
  | began (sample : Sample)
  | ended (ticket : Nat) (outcome : Handed)
  | givenUp (ticket : Nat)
  | received (sample : Sample)
  /-- The receiver found that there will be nothing more. -/
  | drained
deriving DecidableEq, Repr

namespace HandoffFact

/-- The samples of all sends, in the order in which they began. -/
def begun : List HandoffFact → List Sample :=
  List.filterMap fun
    | .began s => some s
    | _ => none

/-- The samples that the receiver was given, in order. -/
def receipts : List HandoffFact → List Sample :=
  List.filterMap fun
    | .received s => some s
    | _ => none

@[simp] theorem begun_append (fs gs : List HandoffFact) : begun (fs ++ gs) = begun fs ++ begun gs :=
  List.filterMap_append

@[simp] theorem receipts_append (fs gs : List HandoffFact) :
    receipts (fs ++ gs) = receipts fs ++ receipts gs :=
  List.filterMap_append

end HandoffFact

/-- A handoff with all that has been seen of it. -/
structure HandoffTrace where
  handoff : Handoff
  facts : List HandoffFact
deriving DecidableEq, Repr

namespace HandoffTrace

def start : HandoffTrace := ⟨.empty, []⟩

/-- The tickets of the samples that have been taken, in order. -/
def tickets (c : HandoffTrace) : List Nat := c.handoff.taken.map (·.ticket)

def step (c : HandoffTrace) : HandoffAct → HandoffTrace
  | .send sample =>
    if c.handoff.hasSender then
      match c.handoff.begin sample with
      | (some _, h) => ⟨h, c.facts ++ [.began sample]⟩
      | (none, h) => ⟨h, c.facts ++ [.began sample, .ended c.handoff.nextTicket .closed]⟩
    else c
  | .look t =>
    match c.handoff.look t with
    | (.ready outcome, h) => ⟨h, c.facts ++ [.ended t outcome]⟩
    | (.pending, h) => ⟨h, c.facts⟩
  | .giveUp t =>
    if (c.handoff.send? t).isSome then ⟨c.handoff.abandon t, c.facts ++ [.givenUp t]⟩ else c
  | .receive =>
    if c.handoff.slot.isOpen then
      match c.handoff.receive with
      | (.sample s, h) => ⟨h, c.facts ++ [.received s]⟩
      | (.pending, h) => ⟨h, c.facts⟩
      | (.closed, h) => ⟨h, c.facts ++ [.drained]⟩
    else c
  | .stopReceiving => c
  | .dropSender => if c.handoff.sends.isEmpty then ⟨c.handoff.dropSender, c.facts⟩ else c
  | .dropReceiver => ⟨c.handoff.dropReceiver, c.facts⟩

def perform (c : HandoffTrace) (acts : List HandoffAct) : HandoffTrace := acts.foldl step c

def run (acts : List HandoffAct) : HandoffTrace := start.perform acts

end HandoffTrace

/-! ## What an operation leaves behind -/

namespace Handoff

/-- Every envelope of the channel: taken, in the slot, or of a send under way. -/
def letters (h : Handoff) : List Envelope :=
  h.taken ++ h.slot.queue ++ h.sends.map fun s => ⟨s.ticket, s.sample⟩

/-- A send that began and is not under way any more. -/
def IsOver (h : Handoff) (t : Nat) : Prop := t < h.nextTicket ∧ ∀ s ∈ h.sends, s.ticket ≠ t

/-- `h'` comes of `h` by an operation that begins no send. -/
structure Follows (h h' : Handoff) : Prop where
  next : h'.nextTicket = h.nextTicket
  letters : h'.letters ⊆ h.letters
  sends : ∀ s ∈ h'.sends, ∃ s₀ ∈ h.sends, s₀.ticket = s.ticket

theorem Follows.refl (h : Handoff) : Follows h h := ⟨rfl, fun _ hp => hp, fun s hm => ⟨s, hm, rfl⟩⟩

theorem Follows.isOver {h h' : Handoff} (hf : Follows h h') {t : Nat} (ho : h.IsOver t) :
    h'.IsOver t := by
  refine ⟨hf.next ▸ ho.1, fun s hm he => ?_⟩
  obtain ⟨s₀, hm₀, ht⟩ := hf.sends s hm
  exact ho.2 s₀ hm₀ (ht.trans he)

variable {h : Handoff}

theorem mem_letters_of_send {s : Sending} (hm : s ∈ h.sends) : ⟨s.ticket, s.sample⟩ ∈ h.letters :=
  List.mem_append_right _ (List.mem_map.mpr ⟨s, hm, rfl⟩)

theorem follows_leave {slot : Mailbox Envelope} (hq : slot.queue = h.slot.queue) (t : Nat) :
    Follows h ({ h with slot }.forget t) := by
  refine ⟨rfl, ?_, fun s hm => ⟨s, (mem_forget.mp hm).1, rfl⟩⟩
  simp only [letters, forget, hq]
  exact ((List.Sublist.refl _).append (List.filter_sublist.map _)).subset

/-- The sends keep their tickets and samples, and no envelope is new. -/
theorem follows_of_sends {h' : Handoff} (hn : h'.nextTicket = h.nextTicket)
    (hs : h'.sends.map (fun s => (⟨s.ticket, s.sample⟩ : Envelope)) =
      h.sends.map fun s => ⟨s.ticket, s.sample⟩)
    (he : h'.taken ++ h'.slot.queue ⊆ h.letters) : Follows h h' := by
  refine ⟨hn, fun e hm => ?_, fun s hm => ?_⟩
  · rcases List.mem_append.mp hm with hm | hm
    · exact he hm
    · rw [hs] at hm
      exact List.mem_append_right _ hm
  · have hm' := List.mem_map_of_mem (f := fun s : Sending => (⟨s.ticket, s.sample⟩ : Envelope)) hm
    rw [hs] at hm'
    obtain ⟨s₀, hm₀, heq⟩ := List.mem_map.mp hm'
    exact ⟨s₀, hm₀, congrArg Envelope.ticket heq⟩

theorem follows_filled {s : Sending} (hm : s ∈ h.sends) : Follows h (h.filled s) := by
  refine follows_of_sends rfl (setStage_map _ (fun _ _ => rfl) _ _ _) fun e he => ?_
  change e ∈ h.taken ++ (h.slot.queue ++ [⟨s.ticket, s.sample⟩]) at he
  rw [← List.append_assoc] at he
  rcases List.mem_append.mp he with he | he
  · exact List.mem_append_left _ he
  · rw [List.mem_singleton.mp he]
    exact mem_letters_of_send hm

theorem follows_popped {e : Envelope} {rest : List Envelope} (hq : h.slot.queue = e :: rest) :
    Follows h (h.popped rest) := by
  refine follows_of_sends rfl rfl fun e' he => List.mem_append_left _ ?_
  rw [popped_taken, popped_queue] at he
  rw [hq]
  exact ((List.Sublist.refl _).append (List.sublist_cons_self _ _)).subset he

theorem follows_served {e : Envelope} {rest : List Envelope} (hq : h.slot.queue = e :: rest) :
    Follows h (h.served e rest) := by
  refine follows_of_sends rfl (setStage_map _ (fun _ _ => rfl) _ _ _) fun e' he =>
    List.mem_append_left _ ?_
  rw [served_taken, served_slot, popped_queue, List.append_assoc] at he
  rw [hq]
  exact he

theorem follows_look (h : Handoff) (t : Nat) : Follows h (h.look t).2 := by
  cases hf : h.send? t with
  | none => rw [look_none hf]; exact .refl h
  | some s =>
    cases hst : s.stage with
    | taken => rw [look_taken hf hst]; exact follows_leave rfl t
    | lost => rw [look_lost hf hst]; exact follows_leave rfl t
    | posted => rw [look_posted hf hst]; exact .refl h
    | waiting =>
      cases ho : h.slot.isOpen with
      | false =>
        rw [look_shut hf hst ho]
        exact follows_leave (h.slot.withdraw_queue t) t
      | true =>
        by_cases hg : t ∈ h.slot.granted
        · rw [look_owner hf hst ho hg]
          exact follows_filled (mem_of_send? hf).1
        · rw [look_in_line hf hst ho hg]; exact .refl h

theorem follows_abandon (h : Handoff) (t : Nat) : Follows h (h.abandon t) := by
  cases hf : h.send? t with
  | none => rw [abandon_none hf]; exact .refl h
  | some s =>
    by_cases hst : s.stage = .waiting
    · rw [abandon_waiting hf hst]; exact follows_leave (h.slot.withdraw_queue t) t
    · rw [abandon_placed hf hst]; exact follows_leave rfl t

theorem follows_receive (hs : h.Sound) : Follows h h.receive.2 := by
  rcases hs.receive_cases with ⟨-, hr⟩ | ⟨e, s, hq, -, -, -, hr⟩ | ⟨e, hq, -, hr⟩
  · rw [hr]; exact .refl h
  · rw [hr]; exact follows_served hq
  · rw [hr]; exact follows_popped hq

theorem follows_dropSender (h : Handoff) : Follows h h.dropSender :=
  ⟨rfl, fun _ hp => hp, fun s hm => ⟨s, hm, rfl⟩⟩

theorem follows_dropReceiver (h : Handoff) : Follows h h.dropReceiver := by
  refine follows_of_sends rfl (dropReceiver_map _ (fun _ _ => rfl) h) fun e he => ?_
  change e ∈ h.taken ++ [] at he
  rw [List.append_nil] at he
  exact List.mem_append_left _ (List.mem_append_left _ he)

theorem isOver_forget (hs : h.Sound) {t : Nat} {s : Sending} (hf : h.send? t = some s)
    (slot : Mailbox Envelope) : ({ h with slot }.forget t).IsOver t := by
  obtain ⟨hm, rfl⟩ := mem_of_send? hf
  exact ⟨hs.sends_fresh s hm, fun _ hm' => (mem_forget.mp hm').2⟩

theorem isOver_abandon (hs : h.Sound) {t : Nat} {s : Sending} (hf : h.send? t = some s) :
    (h.abandon t).IsOver t := by
  by_cases hst : s.stage = .waiting
  · rw [abandon_waiting hf hst]; exact isOver_forget hs hf _
  · rw [abandon_placed hf hst]; exact isOver_forget hs hf _

/-- Only the receiver takes. -/
theorem look_taken_eq (h : Handoff) (t : Nat) : (h.look t).2.taken = h.taken := by
  unfold look
  split
  · rfl
  · split <;> try rfl
    split <;> rfl

theorem begin_taken_eq (h : Handoff) (sample : Sample) :
    (h.begin sample).2.taken = h.taken := by
  unfold begin
  simp only
  split <;> rfl

theorem abandon_taken_eq (h : Handoff) (t : Nat) : (h.abandon t).taken = h.taken := by
  unfold abandon
  split
  · rfl
  · split <;> rfl

end Handoff

end HealthRelay
