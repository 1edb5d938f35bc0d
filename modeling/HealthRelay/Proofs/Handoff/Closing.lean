import HealthRelay.Proofs.Handoff.Agreement
import Mathlib.Data.List.Induction

/-!
# How a handoff closes

Either end of a handoff can go away, and neither comes back. `handoff_closes` says what that means
to the other end, whatever has been done with the handoff before: the receiver is told the end once
the sender is gone and not earlier, and gets nothing but the end from then on, since an envelope
that is left behind is that of a send that was given up; a send is refused once the receiver is
gone, unless its sample had been taken.
-/

namespace HealthRelay

open HandoffFact

theorem Handoff.Sound.receive_ends {h : Handoff} (hs : h.Sound) : h.receive.2.ends = h.ends := by
  rcases hs.receive_cases with ⟨-, hr⟩ | ⟨e, s, -, -, -, -, hr⟩ | ⟨e, -, -, hr⟩ <;> rw [hr]
  · exact h.served_ends e []
  · exact h.popped_ends []

namespace HandoffTrace

variable {c : HandoffTrace}

theorem run_append (acts more : List HandoffAct) : run (acts ++ more) = (run acts).perform more :=
  List.foldl_append

theorem run_concat (acts : List HandoffAct) (a : HandoffAct) :
    run (acts ++ [a]) = (run acts).step a := run_append acts [a]

theorem sound_run (acts : List HandoffAct) : (run acts).Sound := sound_start.perform acts

/-! ## The channel after one act -/

theorem step_send (c : HandoffTrace) (sample : Sample) : (c.step (.send sample)).handoff =
    if c.handoff.hasSender then (c.handoff.begin sample).2 else c.handoff := by
  simp only [HandoffTrace.step]
  split
  · split <;> rename_i h <;> rw [h]
  · rfl

theorem step_look (c : HandoffTrace) (t : Nat) :
    (c.step (.look t)).handoff = (c.handoff.look t).2 := by
  simp only [HandoffTrace.step]
  split <;> rename_i h <;> rw [h]

theorem step_receive (c : HandoffTrace) : (c.step .receive).handoff =
    if c.handoff.slot.isOpen then c.handoff.receive.2 else c.handoff := by
  simp only [HandoffTrace.step]
  split
  · split <;> rename_i h <;> rw [h]
  · rfl

/-- An end goes away only by being dropped. -/
theorem step_ends (hc : c.Sound) {a : HandoffAct} (hs : a ≠ .dropSender) (hr : a ≠ .dropReceiver) :
    (c.step a).handoff.ends = c.handoff.ends := by
  cases a with
  | send sample =>
    rw [step_send]
    split
    · exact c.handoff.begin_ends sample
    · rfl
  | look t => exact (step_look c t).symm ▸ c.handoff.look_ends t
  | giveUp t =>
    simp only [HandoffTrace.step]
    split
    · exact c.handoff.abandon_ends t
    · rfl
  | receive =>
    rw [step_receive]
    split
    · exact hc.handoff.receive_ends
    · rfl
  | stopReceiving => rfl
  | dropSender => exact absurd rfl hs
  | dropReceiver => exact absurd rfl hr

theorem step_gate (hc : c.Sound) (a : HandoffAct) : (c.step a).handoff.slot.gate =
    if a = .dropReceiver then .dropped else c.handoff.slot.gate := by
  by_cases hr : a = .dropReceiver
  · rw [if_pos hr, hr]
    rfl
  by_cases hs : a = .dropSender
  · rw [if_neg hr, hs]
    simp only [HandoffTrace.step]
    split <;> rfl
  · rw [if_neg hr]
    exact congrArg Prod.fst (step_ends hc hs hr)

theorem step_hasSender (hc : c.Sound) (a : HandoffAct) : (c.step a).handoff.hasSender =
    (c.handoff.hasSender && !(decide (a = .dropSender) && c.handoff.sends.isEmpty)) := by
  by_cases hs : a = .dropSender
  · subst hs
    simp only [HandoffTrace.step]
    split <;> simp_all [Handoff.dropSender]
  by_cases hr : a = .dropReceiver
  · simp [hr, HandoffTrace.step, Handoff.dropReceiver]
  · have hends : (c.step a).handoff.hasSender = c.handoff.hasSender :=
      congrArg Prod.snd (step_ends hc hs hr)
    simp [hends, hs]

/-! ## No end comes back -/

theorem perform_gate (hc : c.Sound) (acts : List HandoffAct) :
    (c.perform acts).handoff.slot.gate = .dropped ↔
      c.handoff.slot.gate = .dropped ∨ .dropReceiver ∈ acts := by
  induction acts generalizing c with
  | nil => simp [perform]
  | cons a acts ih =>
    change ((c.step a).perform acts).handoff.slot.gate = .dropped ↔ _
    rw [ih (hc.step a), step_gate hc]
    by_cases ha : a = .dropReceiver <;> simp [ha, eq_comm]

theorem perform_senderless (hc : c.Sound) (hs : c.handoff.hasSender = false)
    (acts : List HandoffAct) : (c.perform acts).handoff.hasSender = false := by
  induction acts generalizing c with
  | nil => exact hs
  | cons a acts ih => exact ih (hc.step a) (by rw [step_hasSender hc, hs, Bool.false_and])

/-- The sender is gone once it was dropped while no send was under way. -/
theorem run_senderless_iff (acts : List HandoffAct) :
    (run acts).handoff.hasSender = false ↔ ∃ before after,
      acts = before ++ .dropSender :: after ∧ (run before).handoff.sends = [] := by
  constructor
  · intro h
    induction acts using List.reverseRec with
    | nil => cases h
    | append_singleton acts a ih =>
      cases hs : (run acts).handoff.hasSender with
      | false =>
        obtain ⟨before, after, rfl, hn⟩ := ih hs
        exact ⟨before, after ++ [a], by simp, hn⟩
      | true =>
        rw [run_concat, step_hasSender (sound_run acts), hs] at h
        simp only [Bool.true_and, Bool.not_eq_false', Bool.and_eq_true, decide_eq_true_eq,
          List.isEmpty_iff] at h
        exact ⟨acts, [], by rw [h.1], h.2⟩
  · rintro ⟨before, after, rfl, hn⟩
    rw [← List.singleton_append, ← List.append_assoc, run_append]
    refine perform_senderless (sound_run _) ?_ after
    rw [run_concat, step_hasSender (sound_run before), hn]
    simp

/-! ## Without a sender -/

theorem step_idle (hc : c.Sound) (hs : c.handoff.hasSender = false) (hn : c.handoff.sends = [])
    (a : HandoffAct) : (c.step a).handoff.sends = [] := by
  have hnone : ∀ t, c.handoff.send? t = none := fun t =>
    Handoff.send?_eq_none.mpr (by simp [hn])
  cases a with
  | send sample => rw [step_send, if_neg (by simp [hs]), hn]
  | look t => rw [step_look, Handoff.look_none (hnone t), hn]
  | giveUp t => simp only [HandoffTrace.step, hnone]; exact hn
  | receive =>
    rw [step_receive]
    split
    · rcases hc.handoff.receive_cases with ⟨-, h⟩ | ⟨e, s, -, hf, -⟩ | ⟨e, -, -, h⟩
      · rw [h]; exact hn
      · rw [hnone] at hf; cases hf
      · rw [h]; exact hn
    · exact hn
  | stopReceiving => exact hn
  | dropSender => simp only [HandoffTrace.step]; split <;> exact hn
  | dropReceiver => simp [HandoffTrace.step, Handoff.dropReceiver, hn]

theorem perform_idle (hc : c.Sound) (hs : c.handoff.hasSender = false) (hn : c.handoff.sends = [])
    (acts : List HandoffAct) : (c.perform acts).handoff.sends = [] := by
  induction acts generalizing c with
  | nil => exact hn
  | cons a acts ih =>
    exact ih (hc.step a) (perform_senderless hc hs [a]) (step_idle hc hs hn a)

/-- No send outlives the sender. -/
theorem run_idle {acts : List HandoffAct} (hs : (run acts).handoff.hasSender = false) :
    (run acts).handoff.sends = [] := by
  obtain ⟨before, after, rfl, hn⟩ := (run_senderless_iff acts).mp hs
  have hdrop : (run (before ++ [.dropSender])).handoff = (run before).handoff.dropSender := by
    rw [run_concat]
    simp [HandoffTrace.step, hn]
  rw [← List.singleton_append, ← List.append_assoc, run_append]
  exact perform_idle (sound_run _) (hdrop ▸ rfl) (hdrop ▸ hn) after

/-- Without a sender the receiver skips what is left and finds the end at once. -/
theorem receive_idle (hc : c.Sound) (hs : c.handoff.hasSender = false)
    (hn : c.handoff.sends = []) : ∃ h, c.handoff.receive = (.closed, h) ∧ h.slot.queue = [] ∧
      h.taken = c.handoff.taken := by
  have hempty : c.handoff.emptyAnswer = .closed := if_neg (by simp [hs])
  rcases hc.handoff.receive_cases with ⟨hq, h⟩ | ⟨e, s, -, hf, -⟩ | ⟨e, -, -, h⟩
  · exact ⟨_, hempty ▸ h, hq, rfl⟩
  · rw [Handoff.send?_eq_none.mpr (by simp [hn])] at hf
    cases hf
  · exact ⟨_, hempty ▸ h, c.handoff.popped_queue [], rfl⟩

/-- The receiver is told the end only if the sender is gone. -/
theorem senderless_of_drained (hc : c.Sound)
    (h : (c.step .receive).facts = c.facts ++ [.drained]) : c.handoff.hasSender = false := by
  by_contra hs
  have hempty : c.handoff.emptyAnswer = .pending := if_pos (by simpa using hs)
  simp only [HandoffTrace.step] at h
  split at h
  · rcases hc.handoff.receive_cases with ⟨-, hr⟩ | ⟨e, s, -, -, -, -, hr⟩ | ⟨e, -, -, hr⟩
    · rw [hr, hempty] at h
      simp at h
    · rw [hr] at h
      simp at h
    · rw [hr, hempty] at h
      simp at h
  · simp at h

theorem drained_of_senderless (hc : c.Sound) (hs : c.handoff.hasSender = false)
    (hn : c.handoff.sends = []) (hg : c.handoff.slot.gate = .opened) :
    (c.step .receive).facts = c.facts ++ [.drained] ∧
      (c.step .receive).handoff.slot.queue = [] := by
  obtain ⟨h, hr, hqueue, -⟩ := receive_idle hc hs hn
  simp only [HandoffTrace.step, Mailbox.isOpen_iff.mpr hg, ↓reduceIte, hr]
  exact ⟨trivial, hqueue⟩

end HandoffTrace

/-! ## What is left behind -/

namespace Handoff

variable {h : Handoff}

/-- Every send whose envelope lies in the slot stays under way, and no envelope gets into the slot
without its send. -/
structure Retains (h h' : Handoff) : Prop where
  queue : ∀ e ∈ h'.slot.queue, e ∈ h.slot.queue ∨ ∃ s ∈ h'.sends, s.ticket = e.ticket
  sends : ∀ s ∈ h.sends, s.stage = .posted → ∃ s' ∈ h'.sends, s'.ticket = s.ticket

theorem Retains.refl (h : Handoff) : Retains h h :=
  ⟨fun _ he => .inl he, fun s hm _ => ⟨s, hm, rfl⟩⟩

theorem retains_setStage {slot : Mailbox Envelope} {taken : List Envelope} (t : Nat)
    (stage : SendStage)
    (hq : ∀ e ∈ slot.queue, e ∈ h.slot.queue ∨ ∃ s ∈ h.sends, s.ticket = e.ticket) :
    Retains h { h.setStage t stage with slot, taken } := by
  have hkeep : ∀ s ∈ h.sends, ∃ s' ∈ (h.setStage t stage).sends, s'.ticket = s.ticket :=
    fun s hm => ⟨_, mem_setStage.mpr ⟨s, hm, rfl⟩, by split <;> rfl⟩
  refine ⟨fun e he => (hq e he).imp_right fun ⟨s, hm, ht⟩ => ?_, fun s hm _ => hkeep s hm⟩
  exact ht ▸ hkeep s hm

/-- A send leaves whose envelope does not lie in the slot. -/
theorem Sound.retains_forget (hs : h.Sound) {s : Sending} (hm : s ∈ h.sends)
    (hst : s.stage ≠ .posted) {slot : Mailbox Envelope} (hq : slot.queue = h.slot.queue) :
    Retains h ({ h with slot }.forget s.ticket) := by
  refine ⟨fun e he => .inl (hq ▸ he), fun s' hm' hst' => ?_⟩
  refine ⟨s', mem_forget.mpr ⟨hm', fun ht => ?_⟩, rfl⟩
  exact hst (hs.eq_of_ticket hm' hm ht ▸ hst')

theorem retains_begin (h : Handoff) (sample : Sample) : Retains h (h.begin sample).2 := by
  have hkeep : ∀ {s new : Sending}, s ∈ h.sends → ∃ s' ∈ h.sends ++ [new], s'.ticket = s.ticket :=
    fun hm => ⟨_, List.mem_append_left _ hm, rfl⟩
  cases ho : h.slot.isOpen with
  | false =>
    rw [begin_shut ho]
    exact ⟨fun _ he => .inl he, fun s hm _ => ⟨s, hm, rfl⟩⟩
  | true =>
    cases hr : h.slot.hasRoom with
    | false =>
      rw [begin_full ho hr]
      exact ⟨fun _ he => .inl he, fun s hm _ => hkeep hm⟩
    | true =>
      rw [begin_sent ho hr]
      refine ⟨fun e he => ?_, fun s hm _ => hkeep hm⟩
      rcases List.mem_append.mp he with he | he
      · exact .inl he
      · rw [List.mem_singleton.mp he]
        exact .inr ⟨_, List.mem_append_right _ (List.mem_singleton_self _), rfl⟩

theorem Sound.retains_look (hs : h.Sound) (t : Nat) : Retains h (h.look t).2 := by
  cases hf : h.send? t with
  | none => exact (look_none hf).symm ▸ .refl h
  | some s =>
    obtain ⟨hm, rfl⟩ := mem_of_send? hf
    cases hst : s.stage with
    | taken => exact (look_taken hf hst).symm ▸ hs.retains_forget hm (by simp [hst]) rfl
    | lost => exact (look_lost hf hst).symm ▸ hs.retains_forget hm (by simp [hst]) rfl
    | posted => exact (look_posted hf hst).symm ▸ .refl h
    | waiting =>
      cases ho : h.slot.isOpen with
      | false =>
        exact (look_shut hf hst ho).symm ▸
          hs.retains_forget hm (by simp [hst]) (h.slot.withdraw_queue _)
      | true =>
        by_cases hg : s.ticket ∈ h.slot.granted
        · rw [look_owner hf hst ho hg]
          refine retains_setStage s.ticket .posted fun e he => ?_
          rcases List.mem_append.mp he with he | he
          · exact .inl he
          · rw [List.mem_singleton.mp he]
            exact .inr ⟨s, hm, rfl⟩
        · exact (look_in_line hf hst ho hg).symm ▸ .refl h

theorem Sound.retains_receive (hs : h.Sound) : Retains h h.receive.2 := by
  rcases hs.receive_cases with ⟨-, hr⟩ | ⟨e, s, -, -, -, -, hr⟩ | ⟨e, -, -, hr⟩ <;> rw [hr]
  · exact .refl h
  · refine retains_setStage e.ticket .taken fun e' he => ?_
    change e' ∈ (h.popped []).slot.queue at he
    rw [h.popped_queue []] at he
    cases he
  · refine ⟨fun e' he => ?_, fun s hm _ => ⟨s, hm, rfl⟩⟩
    rw [h.popped_queue []] at he
    cases he

theorem abandon_queue (h : Handoff) (t : Nat) :
    (h.abandon t).slot.queue = h.slot.queue := by
  unfold abandon
  split
  · rfl
  · split
    · exact h.slot.withdraw_queue t
    · rfl

theorem mem_abandon {t : Nat} {s : Sending} (hm : s ∈ h.sends) (ht : s.ticket ≠ t) :
    s ∈ (h.abandon t).sends := by
  unfold abandon
  split
  · exact hm
  · split <;> exact mem_forget.mpr ⟨hm, ht⟩

end Handoff

namespace HandoffTrace

variable {c : HandoffTrace}

/-- An envelope in the slot is that of a send under way, or of one that was given up. -/
def Accounted (c : HandoffTrace) : Prop :=
  ∀ e ∈ c.handoff.slot.queue,
    (∃ s ∈ c.handoff.sends, s.ticket = e.ticket) ∨ .givenUp e.ticket ∈ c.facts

theorem Accounted.of_retains (ha : c.Accounted) (hc : c.Sound) {c' : HandoffTrace}
    (hf : c.facts ⊆ c'.facts) (hr : c.handoff.Retains c'.handoff) : c'.Accounted := by
  intro e he
  rcases hr.queue e he with hq | hnew
  · rcases ha e hq with ⟨s, hm, ht⟩ | hg
    · exact .inl (ht ▸ hr.sends s hm (hc.handoff.posted_of_queue hm hq ht).1)
    · exact .inr (hf hg)
  · exact .inl hnew

theorem Accounted.step (ha : c.Accounted) (hc : c.Sound) (a : HandoffAct) :
    (c.step a).Accounted := by
  have hfacts : c.facts ⊆ (c.step a).facts := (c.facts_step a).subset
  cases a with
  | send sample =>
    refine ha.of_retains hc hfacts (step_send c sample ▸ ?_)
    split
    · exact Handoff.retains_begin _ sample
    · exact .refl _
  | look t => exact ha.of_retains hc hfacts (step_look c t ▸ hc.handoff.retains_look t)
  | giveUp t =>
    simp only [HandoffTrace.step] at hfacts ⊢
    split
    · intro e he
      rw [Handoff.abandon_queue] at he
      rcases ha e he with ⟨s, hm, ht⟩ | hg
      · by_cases hgiven : s.ticket = t
        · exact .inr (by simp [← ht, hgiven])
        · exact .inl ⟨s, Handoff.mem_abandon hm hgiven, ht⟩
      · exact .inr (List.mem_append_left _ hg)
    · exact ha
  | receive =>
    refine ha.of_retains hc hfacts (step_receive c ▸ ?_)
    split
    · exact hc.handoff.retains_receive
    · exact .refl _
  | stopReceiving => exact ha
  | dropSender =>
    simp only [HandoffTrace.step]
    split
    · exact ha
    · exact ha
  | dropReceiver => exact fun e he => absurd he List.not_mem_nil

theorem accounted_run (acts : List HandoffAct) : (run acts).Accounted := by
  induction acts using List.reverseRec with
  | nil => exact fun e he => absurd he List.not_mem_nil
  | append_singleton acts a ih => exact run_concat acts a ▸ ih.step (sound_run acts) a

/-! ## Without one of the ends -/

/-- One of the ends is gone. -/
def IsClosed (c : HandoffTrace) : Prop :=
  c.handoff.slot.gate = .dropped ∨ (c.handoff.hasSender = false ∧ c.handoff.sends = [])

theorem IsClosed.step (h : c.IsClosed) (hc : c.Sound) (a : HandoffAct) :
    (c.step a).IsClosed ∧ (c.step a).handoff.taken = c.handoff.taken := by
  constructor
  · rcases h with hg | ⟨hs, hn⟩
    · left
      rw [step_gate hc, hg, ite_self]
    · exact .inr ⟨perform_senderless hc hs [a], step_idle hc hs hn a⟩
  · cases a with
    | send sample =>
      rw [step_send]
      split
      · exact c.handoff.begin_taken_eq sample
      · rfl
    | look t => rw [step_look, Handoff.look_taken_eq]
    | giveUp t =>
      simp only [HandoffTrace.step]
      split
      · exact c.handoff.abandon_taken_eq t
      · rfl
    | receive =>
      rw [step_receive]
      split
      · rename_i ho
        rcases h with hg | ⟨hs, hn⟩
        · rw [Mailbox.isOpen_iff, hg] at ho
          cases ho
        · obtain ⟨h', hr, -, htaken⟩ := receive_idle hc hs hn
          rw [hr, htaken]
      · rfl
    | stopReceiving => rfl
    | dropSender =>
      simp only [HandoffTrace.step]
      split <;> rfl
    | dropReceiver => rfl

theorem IsClosed.perform (h : c.IsClosed) (hc : c.Sound) (acts : List HandoffAct) :
    (c.perform acts).handoff.taken = c.handoff.taken := by
  induction acts generalizing c with
  | nil => rfl
  | cons a acts ih =>
    obtain ⟨hclosed, htaken⟩ := h.step hc a
    exact (ih hclosed (hc.step a)).trans htaken

/-- Without a receiver a send is over at its next look, well only if its sample had been taken. -/
theorem look_refused (hc : c.Sound) (hg : c.handoff.slot.gate = .dropped) {s : Sending}
    (hm : s ∈ c.handoff.sends) : (c.step (.look s.ticket)).facts =
      c.facts ++ [.ended s.ticket (if s.ticket ∈ c.tickets then .taken else .closed)] := by
  have hf := hc.handoff.send?_eq hm
  have hp := hc.handoff.placed s hm
  have hshut : c.handoff.slot.isOpen = false := by simp [Mailbox.isOpen, hg]
  have hqueue : c.handoff.slot.queue = [] := by
    rcases hc.handoff.opened_or_dropped with ho | ⟨-, hq⟩
    · rw [ho] at hg; cases hg
    · exact hq
  simp only [HandoffTrace.step]
  cases hst : s.stage with
  | waiting =>
    simp only [Handoff.Placed, hst] at hp
    have hnot : s.ticket ∉ c.tickets := fun hin => by
      obtain ⟨e, he, het⟩ := List.mem_map.mp hin
      exact hc.handoff.disjoint.2.1 e he (het ▸ hp)
    rw [Handoff.look_shut hf hst hshut, if_neg hnot]
  | posted =>
    simp only [Handoff.Placed, hst, hqueue] at hp
    cases hp
  | taken =>
    simp only [Handoff.Placed, hst] at hp
    have hin : s.ticket ∈ c.tickets := List.mem_map.mpr ⟨_, hp, rfl⟩
    rw [Handoff.look_taken hf hst, if_pos hin]
  | lost =>
    simp only [Handoff.Placed, hst] at hp
    have hnot : s.ticket ∉ c.tickets := fun hin => hp.2 <| by
      rw [Handoff.order, List.map_append, List.append_assoc]
      exact List.mem_append_left _ hin
    rw [Handoff.look_lost hf hst, if_neg hnot]

theorem send_refused (hg : c.handoff.slot.gate = .dropped) (hs : c.handoff.hasSender = true)
    (sample : Sample) : (c.step (.send sample)).facts =
      c.facts ++ [.began sample, .ended c.handoff.nextTicket .closed] := by
  have hshut : c.handoff.slot.isOpen = false := by simp [Mailbox.isOpen, hg]
  simp only [HandoffTrace.step, hs, Handoff.begin_shut hshut, ↓reduceIte]

/-! ## All acts -/

/-- What it means to a handoff that one of its ends has gone away, once these acts have been done
with it. -/
structure Closes (acts : List HandoffAct) : Prop where
  /-- The sender is gone once it has been dropped; no send is under way then. -/
  senderless_iff : (run acts).handoff.hasSender = false ↔ ∃ before after,
    acts = before ++ .dropSender :: after ∧ (run before).handoff.sends = []
  receiverless_iff : (run acts).handoff.slot.gate = .dropped ↔ .dropReceiver ∈ acts
  /-- The receiver is told the end only if the sender is gone. -/
  end_only : (run (acts ++ [.receive])).facts = (run acts).facts ++ [.drained] →
    (run acts).handoff.hasSender = false
  /-- If the sender is gone, the receiver is told the end whenever it looks, and at once. -/
  end_always : (run acts).handoff.hasSender = false → (run acts).handoff.slot.gate ≠ .dropped →
    (run (acts ++ [.receive])).facts = (run acts).facts ++ [.drained] ∧
      (run (acts ++ [.receive])).handoff.slot.queue = []
  /-- What the receiver skips then are envelopes of sends that were given up. -/
  leftovers : (run acts).handoff.hasSender = false → ∀ e ∈ (run acts).handoff.slot.queue,
    .givenUp e.ticket ∈ (run acts).facts
  /-- If the receiver is gone, every send under way is over at its next look. It has failed unless
  its sample had been taken. -/
  pending_refused : (run acts).handoff.slot.gate = .dropped → ∀ s ∈ (run acts).handoff.sends,
    (run (acts ++ [.look s.ticket])).facts = (run acts).facts ++
      [.ended s.ticket (if s.ticket ∈ (run acts).tickets then .taken else .closed)]
  /-- Every later send has failed at its first look. -/
  later_refused : (run acts).handoff.slot.gate = .dropped → (run acts).handoff.hasSender = true →
    ∀ sample, (run (acts ++ [.send sample])).facts = (run acts).facts ++
      [.began sample, .ended (run acts).handoff.nextTicket .closed]
  /-- Neither end comes back. -/
  for_good : ∀ more,
    ((run acts).handoff.hasSender = false → (run (acts ++ more)).handoff.hasSender = false) ∧
    ((run acts).handoff.slot.gate = .dropped → (run (acts ++ more)).handoff.slot.gate = .dropped)
  /-- If either end is gone, no sample comes out any more. -/
  yields_nothing : (run acts).handoff.hasSender = false ∨ (run acts).handoff.slot.gate = .dropped →
    ∀ more, (run (acts ++ more)).tickets = (run acts).tickets ∧
      receipts (run (acts ++ more)).facts = receipts (run acts).facts

/-- **A handoff closes once and for all**, whatever has been done with it and whatever lies in its
slot. -/
theorem handoff_closes (acts : List HandoffAct) : Closes acts := by
  have hc := sound_run acts
  refine {
    senderless_iff := run_senderless_iff acts
    receiverless_iff := ?_
    end_only := fun h => ?_
    end_always := fun hs hg => ?_
    leftovers := fun hs e he => ?_
    pending_refused := fun hg s hm => run_concat acts _ ▸ look_refused hc hg hm
    later_refused := fun hg hs sample => run_concat acts _ ▸ send_refused hg hs sample
    for_good := fun more => ⟨fun hs => ?_, fun hg => ?_⟩
    yields_nothing := fun hclosed more => ?_ }
  · refine (perform_gate sound_start acts).trans (or_iff_right fun hg => ?_)
    cases hg
  · rw [run_concat] at h
    exact senderless_of_drained hc h
  · rw [run_concat]
    exact drained_of_senderless hc hs (run_idle hs) (hc.handoff.opened_or_dropped.resolve_right
      fun h => hg h.1)
  · refine (accounted_run acts e he).resolve_left fun ⟨s, hm, _⟩ => ?_
    rw [run_idle hs] at hm
    cases hm
  · rw [run_append]
    exact perform_senderless hc hs more
  · rw [run_append]
    exact (perform_gate hc more).mpr (.inl hg)
  · have hclosed : (run acts).IsClosed := hclosed.elim (fun hs => .inr ⟨hs, run_idle hs⟩) .inl
    have htaken := hclosed.perform hc more
    rw [← run_append] at htaken
    rw [(sound_run (acts ++ more)).received, hc.received, tickets, tickets, htaken]
    exact ⟨rfl, rfl⟩

end HandoffTrace

end HealthRelay
