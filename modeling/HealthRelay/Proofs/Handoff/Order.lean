import HealthRelay.Proofs.Handoff.Basic
import Mathlib.Data.List.Nodup

/-!
# The order of a handoff

`order h` is every ticket in the order in which the receiver meets it: taken, in the slot, owning
the place of the slot, waiting for it. `Sound h` says that this order is the order of the tickets
themselves and that every send in flight is where its stage says. Each operation keeps `Sound`: it
adds a newest ticket at the end, takes a ticket out, or moves the border between two parts of the
order.
-/

namespace HealthRelay.Handoff

/-- All tickets, as the receiver has met them and will meet them. -/
def order (h : Handoff) : List Nat :=
  (h.taken ++ h.slot.queue).map (·.ticket) ++ h.slot.line

/-- A send is where its stage says. -/
def Placed (h : Handoff) (s : Sending) : Prop :=
  match s.stage with
  | .waiting => s.ticket ∈ h.slot.line
  | .posted => ⟨s.ticket, s.sample⟩ ∈ h.slot.queue
  | .taken => ⟨s.ticket, s.sample⟩ ∈ h.taken
  | .lost => h.slot.gate = .dropped ∧ s.ticket ∉ h.order

theorem Placed.imp {h h' : Handoff} {s : Sending} (hp : h.Placed s)
    (hline : s.ticket ∈ h.slot.line → s.ticket ∈ h'.slot.line)
    (hqueue : ⟨s.ticket, s.sample⟩ ∈ h.slot.queue → ⟨s.ticket, s.sample⟩ ∈ h'.slot.queue)
    (htaken : ⟨s.ticket, s.sample⟩ ∈ h.taken → ⟨s.ticket, s.sample⟩ ∈ h'.taken)
    (hlost : h.slot.gate = .dropped ∧ s.ticket ∉ h.order →
      h'.slot.gate = .dropped ∧ s.ticket ∉ h'.order) : h'.Placed s := by
  unfold Placed at hp ⊢
  cases hst : s.stage <;> simp only [hst] at hp ⊢
  exacts [hline hp, hqueue hp, htaken hp, hlost hp]

/-- What every sequence of operations keeps. -/
structure Sound (h : Handoff) : Prop where
  capacity : h.slot.capacity = 1
  fair : h.slot.Fair
  order : h.order.Pairwise (· < ·)
  order_fresh : ∀ t ∈ h.order, t < h.nextTicket
  sends : (h.sends.map (·.ticket)).Pairwise (· < ·)
  sends_fresh : ∀ s ∈ h.sends, s.ticket < h.nextTicket
  placed : ∀ s ∈ h.sends, h.Placed s
  line_alive : ∀ t ∈ h.slot.line, ∃ s ∈ h.sends, s.ticket = t
  opened_or_dropped : h.slot.gate = .opened ∨ (h.slot.gate = .dropped ∧ h.slot.queue = [])

theorem sound_empty : Handoff.empty.Sound where
  capacity := rfl
  fair := Mailbox.fair_empty 1
  order := by simp [Handoff.order, empty, Mailbox.empty, Mailbox.line]
  order_fresh := by simp [Handoff.order, empty, Mailbox.empty, Mailbox.line]
  sends := by simp [empty]
  sends_fresh := by simp [empty]
  placed := by simp [empty]
  line_alive := by simp [empty, Mailbox.empty, Mailbox.line]
  opened_or_dropped := .inl rfl

namespace Sound

variable {h : Handoff}

theorem eq_of_ticket (hs : h.Sound) {s s' : Sending} (hm : s ∈ h.sends) (hm' : s' ∈ h.sends)
    (ht : s.ticket = s'.ticket) : s = s' :=
  List.inj_on_of_nodup_map (hs.sends.imp fun hlt => Nat.ne_of_lt hlt) hm hm' ht

theorem send?_eq (hs : h.Sound) {s : Sending} (hm : s ∈ h.sends) : h.send? s.ticket = some s := by
  cases hf : h.send? s.ticket with
  | none => exact absurd rfl (send?_eq_none.mp hf s hm)
  | some s' =>
    obtain ⟨hm', ht⟩ := mem_of_send? hf
    rw [hs.eq_of_ticket hm' hm ht]

theorem order_nodup (hs : h.Sound) : h.order.Nodup :=
  hs.order.imp fun hlt => Nat.ne_of_lt hlt

/-- The four parts of the order hold no ticket twice. -/
theorem disjoint (hs : h.Sound) :
    (∀ e ∈ h.taken, ∀ e' ∈ h.slot.queue, e.ticket ≠ e'.ticket) ∧
      (∀ e ∈ h.taken, e.ticket ∉ h.slot.line) ∧ (∀ e ∈ h.slot.queue, e.ticket ∉ h.slot.line) := by
  have hn := hs.order_nodup
  simp only [Handoff.order, List.map_append, List.nodup_append, List.mem_append, List.mem_map] at hn
  obtain ⟨⟨-, -, h1⟩, -, h2⟩ := hn
  refine ⟨fun e he e' he' => h1 _ ⟨e, he, rfl⟩ _ ⟨e', he', rfl⟩, fun e he hl => ?_,
    fun e he hl => ?_⟩
  · exact h2 _ (.inl ⟨e, he, rfl⟩) _ hl rfl
  · exact h2 _ (.inr ⟨e, he, rfl⟩) _ hl rfl

theorem line_nodup (hs : h.Sound) : h.slot.line.Nodup :=
  (List.nodup_append.mp hs.order_nodup).2.1

theorem queue_length_le (hs : h.Sound) : h.slot.queue.length ≤ 1 := by
  have hu := hs.fair.used_le
  have hc := hs.capacity
  simp only [Mailbox.used] at hu
  omega

/-- An owner of a place owns the only one. -/
theorem granted_eq (hs : h.Sound) {t : Nat} (ht : t ∈ h.slot.granted) :
    h.slot.granted = [t] ∧ h.slot.queue = [] := by
  have hu := hs.fair.used_le
  have hc := hs.capacity
  have hpos := List.length_pos_of_mem ht
  simp only [Mailbox.used] at hu
  obtain ⟨u, hg⟩ := List.length_eq_one_iff.mp (show h.slot.granted.length = 1 by omega)
  rw [hg, List.mem_singleton] at ht
  exact ⟨by rw [hg, ht], List.length_eq_zero_iff.mp (by omega)⟩

/-- The envelope in the slot of a send in flight is that send's, and the send is posted. -/
theorem posted_of_queue (hs : h.Sound) {s : Sending} {e : Envelope} (hm : s ∈ h.sends)
    (he : e ∈ h.slot.queue) (ht : s.ticket = e.ticket) :
    s.stage = .posted ∧ s.sample = e.sample := by
  obtain ⟨hd1, hd2, hd3⟩ := hs.disjoint
  have hp := hs.placed s hm
  unfold Placed at hp
  split at hp
  · exact absurd (ht ▸ hp) (hd3 e he)
  · rename_i hst
    obtain ⟨x, hx⟩ := List.length_eq_one_iff.mp
      (show h.slot.queue.length = 1 from
        Nat.le_antisymm hs.queue_length_le (List.length_pos_of_mem he))
    rw [hx, List.mem_singleton] at hp he
    exact ⟨hst, by rw [he, ← hp]⟩
  · exact absurd ht (hd1 _ hp e he)
  · rcases hs.opened_or_dropped with ho | ⟨-, hq⟩
    · rw [ho] at hp; cases hp.1
    · rw [hq] at he; cases he

theorem waiting_of_line (hs : h.Sound) {s : Sending} (hm : s ∈ h.sends)
    (hl : s.ticket ∈ h.slot.line) : s.stage = .waiting := by
  obtain ⟨-, hd2, hd3⟩ := hs.disjoint
  have hp := hs.placed s hm
  unfold Placed at hp
  split at hp
  · assumption
  · exact absurd hl (hd3 _ hp)
  · exact absurd hl (hd2 _ hp)
  · exact absurd (List.mem_append_right _ hl) hp.2

/-! ## New sends -/

/-- The newest send stands at the end of the order. -/
theorem newcomer (hs : h.Sound) {sample : Sample} {stage : SendStage} {slot : Mailbox Envelope}
    (ho : h.slot.gate = .opened) (hgate : slot.gate = .opened) (hcap : slot.capacity = 1)
    (hfair : slot.Fair) (hqueue : h.slot.queue ⊆ slot.queue) (hline : h.slot.line ⊆ slot.line)
    (hline' : ∀ t ∈ slot.line, t ∈ h.slot.line ∨ t = h.nextTicket)
    (horder : ({ h with slot } : Handoff).order = h.order ++ [h.nextTicket])
    (hnew : ({ h with slot } : Handoff).Placed ⟨h.nextTicket, sample, stage⟩) :
    Sound { h with
      slot, nextTicket := h.nextTicket + 1
      sends := h.sends ++ [⟨h.nextTicket, sample, stage⟩] } where
  capacity := hcap
  fair := hfair
  order := by
    change ({ h with slot } : Handoff).order.Pairwise (· < ·)
    rw [horder, List.pairwise_append]
    exact ⟨hs.order, List.pairwise_singleton _ _, by simpa using hs.order_fresh⟩
  order_fresh := by
    change ∀ t ∈ ({ h with slot } : Handoff).order, t < h.nextTicket + 1
    rw [horder]
    intro t ht
    rcases List.mem_append.mp ht with ht | ht
    · exact Nat.lt_succ_of_lt (hs.order_fresh t ht)
    · rw [List.mem_singleton.mp ht]; exact Nat.lt_succ_self _
  sends := by
    rw [List.map_append, List.pairwise_append]
    exact ⟨hs.sends, List.pairwise_singleton _ _, by simpa using hs.sends_fresh⟩
  sends_fresh := by
    intro s hm
    rcases List.mem_append.mp hm with hm | hm
    · exact Nat.lt_succ_of_lt (hs.sends_fresh s hm)
    · rw [List.mem_singleton.mp hm]; exact Nat.lt_succ_self _
  placed := by
    intro s hm
    rcases List.mem_append.mp hm with hm | hm
    · refine (hs.placed s hm).imp (fun hl => hline hl) (fun hq => hqueue hq) id fun hl => ?_
      rw [ho] at hl
      cases hl.1
    · rw [List.mem_singleton.mp hm]
      exact hnew
  line_alive := by
    intro t ht
    rcases hline' t ht with ht | rfl
    · obtain ⟨s, hm, hst⟩ := hs.line_alive t ht
      exact ⟨s, List.mem_append_left _ hm, hst⟩
    · exact ⟨_, List.mem_append_right _ (List.mem_singleton_self _), rfl⟩
  opened_or_dropped := .inl hgate

theorem begin (hs : h.Sound) (sample : Sample) : (h.begin sample).2.Sound := by
  cases ho : h.slot.isOpen with
  | false =>
    rw [begin_shut ho]
    exact { hs with
      order_fresh := fun t ht => Nat.lt_succ_of_lt (hs.order_fresh t ht)
      sends_fresh := fun s hm => Nat.lt_succ_of_lt (hs.sends_fresh s hm) }
  | true =>
    have hgate := Mailbox.isOpen_iff.mp ho
    cases hr : h.slot.hasRoom with
    | true =>
      have hlt := Mailbox.hasRoom_iff.mp hr
      have hw := hs.fair.waiting_eq_nil ho hr
      have hcap := hs.capacity
      simp only [Mailbox.used] at hlt
      have hg : h.slot.granted = [] := List.length_eq_zero_iff.mp (by omega)
      rw [begin_sent ho hr]
      refine hs.newcomer hgate hgate hcap (hs.fair.push hr _)
        (fun _ he => List.mem_append_left _ he) (fun _ ht => ht) (fun _ ht => .inl ht) ?_ ?_
      · simp [Handoff.order, Mailbox.push, Mailbox.line, hw, hg]
      · exact List.mem_append_right _ (List.mem_singleton_self _)
    | false =>
      have hline : (h.slot.joinLine h.nextTicket).line = h.slot.line ++ [h.nextTicket] := by
        simp [Mailbox.line, Mailbox.joinLine]
      rw [begin_full ho hr]
      refine hs.newcomer hgate hgate hs.capacity (hs.fair.joinLine hr _) (fun _ he => he)
        ?_ ?_ ?_ ?_
      · rw [hline]; exact List.subset_append_left ..
      · rw [hline]; simp
      · simp [Handoff.order, Mailbox.line, Mailbox.joinLine]
      · change h.nextTicket ∈ (h.slot.joinLine h.nextTicket).line
        rw [hline]; simp

/-! ## Sends that are over -/

/-- A send leaves, and with it its ticket in the line if it has one. -/
theorem leave (hs : h.Sound) (t : Nat) {slot : Mailbox Envelope} (hcap : slot.capacity = 1)
    (hfair : slot.Fair) (hgate : slot.gate = h.slot.gate) (hqueue : slot.queue = h.slot.queue)
    (hline : slot.line = h.slot.line.erase t) : ({ h with slot }.forget t).Sound where
  capacity := hcap
  fair := hfair
  order := by
    refine hs.order.sublist ?_
    simp only [Handoff.order, forget, hqueue, hline]
    exact (List.Sublist.refl _).append List.erase_sublist
  order_fresh := by
    intro u hu
    refine hs.order_fresh u ?_
    simp only [Handoff.order, forget, hqueue, hline] at hu
    exact ((List.Sublist.refl _).append List.erase_sublist).subset hu
  sends := hs.sends.sublist (List.filter_sublist.map _)
  sends_fresh := fun s hm => hs.sends_fresh s (mem_forget.mp hm).1
  placed := by
    intro s hm
    obtain ⟨hm, hne⟩ := mem_forget.mp hm
    refine (hs.placed s hm).imp (fun hl => ?_) (fun hq => hqueue ▸ hq) id
      fun hl => ⟨hgate ▸ hl.1, ?_⟩
    · change s.ticket ∈ slot.line
      rw [hline]
      exact (List.mem_erase_of_ne hne).mpr hl
    · refine fun ho => hl.2 ?_
      simp only [Handoff.order, forget, hqueue, hline] at ho
      exact ((List.Sublist.refl _).append List.erase_sublist).subset ho
  line_alive := by
    intro u hu
    change u ∈ slot.line at hu
    rw [hline] at hu
    obtain ⟨s, hm, rfl⟩ := hs.line_alive u (List.mem_of_mem_erase hu)
    refine ⟨s, mem_forget.mpr ⟨hm, fun he => ?_⟩, rfl⟩
    rw [he] at hu
    exact hs.line_nodup.not_mem_erase hu
  opened_or_dropped := by
    simpa only [forget, hgate, hqueue] using hs.opened_or_dropped

theorem forget (hs : h.Sound) {t : Nat} (ht : t ∉ h.slot.line) : (h.forget t).Sound :=
  hs.leave t hs.capacity hs.fair rfl rfl (List.erase_of_not_mem ht).symm

theorem withdraw (hs : h.Sound) (t : Nat) :
    ({ h with slot := h.slot.withdraw t }.forget t).Sound :=
  hs.leave t ((h.slot.withdraw_capacity t).trans hs.capacity) (hs.fair.withdraw t)
    (h.slot.withdraw_gate t) (h.slot.withdraw_queue t) (h.slot.withdraw_line t)

theorem not_mem_line (hs : h.Sound) {s : Sending} (hm : s ∈ h.sends) (hst : s.stage ≠ .waiting) :
    s.ticket ∉ h.slot.line :=
  fun hl => hst (hs.waiting_of_line hm hl)

theorem abandon (hs : h.Sound) (t : Nat) : (h.abandon t).Sound := by
  cases hf : h.send? t with
  | none => rw [abandon_none hf]; exact hs
  | some s =>
    by_cases hst : s.stage = .waiting
    · exact abandon_waiting hf hst ▸ hs.withdraw t
    · obtain ⟨hm, ht⟩ := mem_of_send? hf
      exact abandon_placed hf hst ▸ hs.forget (ht ▸ hs.not_mem_line hm hst)

/-! ## A waiter gets its place -/

/-- The owner of the place fills it: the border between line and slot moves by one. -/
theorem filled (hs : h.Sound) (ho : h.slot.gate = .opened) {s : Sending} (hm : s ∈ h.sends)
    (ht : s.ticket ∈ h.slot.granted) : (h.filled s).Sound := by
  obtain ⟨hg, hq⟩ := hs.granted_eq ht
  have horder : (h.filled s).order = h.order := by
    simp [Handoff.order, Handoff.filled, setStage, Mailbox.push, Mailbox.line, hg, hq]
  have hline : h.slot.line = s.ticket :: (h.filled s).slot.line := by
    simp [Handoff.filled, setStage, Mailbox.push, Mailbox.line, hg]
  refine {
    capacity := hs.capacity
    fair := hs.fair.fill ht _
    order := horder ▸ hs.order
    order_fresh := horder ▸ hs.order_fresh
    sends := by rw [Handoff.filled, setStage_map _ fun _ _ => rfl]; exact hs.sends
    sends_fresh := ?_
    placed := ?_
    line_alive := ?_
    opened_or_dropped := .inl ho }
  · intro s' hm'
    obtain ⟨s₀, hm₀, rfl⟩ := mem_setStage.mp hm'
    split <;> exact hs.sends_fresh s₀ hm₀
  · intro s' hm'
    obtain ⟨s₀, hm₀, rfl⟩ := mem_setStage.mp hm'
    split
    · rename_i he
      rw [hs.eq_of_ticket hm₀ hm he]
      exact List.mem_append_right _ (List.mem_singleton_self _)
    · rename_i hne
      refine (hs.placed s₀ hm₀).imp (fun hl => ?_) (fun he => ?_) id fun hl => ?_
      · rw [hline] at hl
        exact (List.mem_cons.mp hl).resolve_left hne
      · rw [hq] at he; cases he
      · rw [ho] at hl; cases hl.1
  · intro t hl
    obtain ⟨s₀, hm₀, rfl⟩ := hs.line_alive t (hline ▸ List.mem_cons_of_mem _ hl)
    refine ⟨_, mem_setStage.mpr ⟨s₀, hm₀, rfl⟩, ?_⟩
    split <;> rfl

theorem look (hs : h.Sound) (t : Nat) : (h.look t).2.Sound := by
  cases hf : h.send? t with
  | none => exact look_none hf ▸ hs
  | some s =>
    obtain ⟨hm, ht⟩ := mem_of_send? hf
    cases hst : s.stage with
    | taken => exact look_taken hf hst ▸ hs.forget (ht ▸ hs.not_mem_line hm (by simp [hst]))
    | lost => exact look_lost hf hst ▸ hs.forget (ht ▸ hs.not_mem_line hm (by simp [hst]))
    | posted => exact look_posted hf hst ▸ hs
    | waiting =>
      cases ho : h.slot.isOpen with
      | false => exact look_shut hf hst ho ▸ hs.withdraw t
      | true =>
        by_cases hg : t ∈ h.slot.granted
        · exact look_owner hf hst ho hg ▸ hs.filled (Mailbox.isOpen_iff.mp ho) hm (ht ▸ hg)
        · exact look_in_line hf hst ho hg ▸ hs

/-! ## The receiver -/

theorem opened_of_queue (hs : h.Sound) {e : Envelope} {rest : List Envelope}
    (hq : h.slot.queue = e :: rest) : h.slot.gate = .opened := by
  rcases hs.opened_or_dropped with ho | ⟨-, hn⟩
  · exact ho
  · rw [hq] at hn; cases hn

theorem popped (hs : h.Sound) {e : Envelope} {rest : List Envelope} (hq : h.slot.queue = e :: rest)
    (hd : h.send? e.ticket = none) : (h.popped rest).Sound := by
  have ho := hs.opened_of_queue hq
  have hsub : (h.popped rest).order.Sublist h.order := by
    simp only [Handoff.order, popped_line, popped_queue, popped_taken, hq, List.map_append,
      List.map_cons]
    exact ((List.Sublist.refl _).append (List.sublist_cons_self _ _)).append (List.Sublist.refl _)
  refine {
    capacity := (h.popped_capacity rest).trans hs.capacity
    fair := hs.fair.take hq
    order := hs.order.sublist hsub
    order_fresh := fun t ht => hs.order_fresh t (hsub.subset ht)
    sends := hs.sends
    sends_fresh := hs.sends_fresh
    placed := fun s hm => ?_
    line_alive := by rw [popped_line]; exact hs.line_alive
    opened_or_dropped := .inl ((h.popped_gate rest).trans ho) }
  refine (hs.placed s hm).imp (fun hl => (h.popped_line rest).symm ▸ hl) (fun he => ?_) id
    fun hl => ?_
  · rw [popped_queue]
    rw [hq] at he
    refine (List.mem_cons.mp he).resolve_left fun heq => ?_
    exact send?_eq_none.mp hd s hm (congrArg Envelope.ticket heq)
  · rw [ho] at hl; cases hl.1

/-- An envelope that is alive leaves the slot: the border between slot and taken moves by one. -/
theorem served (hs : h.Sound) {e : Envelope} {rest : List Envelope} (hq : h.slot.queue = e :: rest)
    {s : Sending} (hf : h.send? e.ticket = some s) : (h.served e rest).Sound := by
  have ho := hs.opened_of_queue hq
  obtain ⟨hm, ht⟩ := mem_of_send? hf
  have hpost := hs.posted_of_queue hm (hq ▸ List.mem_cons_self) ht
  have hline : (h.served e rest).slot.line = h.slot.line := by simp
  have horder : (h.served e rest).order = h.order := by
    simp [Handoff.order, hq]
  refine {
    capacity := (h.popped_capacity rest).trans hs.capacity
    fair := hs.fair.take hq
    order := horder ▸ hs.order
    order_fresh := horder ▸ hs.order_fresh
    sends := by
      change (((h.popped rest).setStage e.ticket .taken).sends.map (·.ticket)).Pairwise (· < ·)
      rw [setStage_map _ fun _ _ => rfl]
      exact hs.sends
    sends_fresh := ?_
    placed := ?_
    line_alive := ?_
    opened_or_dropped := .inl ((h.popped_gate rest).trans ho) }
  · intro s' hm'
    obtain ⟨s₀, hm₀, rfl⟩ := mem_setStage.mp hm'
    split <;> exact hs.sends_fresh s₀ hm₀
  · intro s' hm'
    obtain ⟨s₀, hm₀, rfl⟩ := mem_setStage.mp hm'
    split
    · rename_i he
      rw [hs.eq_of_ticket hm₀ hm (he.trans ht.symm)]
      refine List.mem_append_right _ (List.mem_singleton.mpr ?_)
      rw [ht, hpost.2]
    · rename_i hne
      refine (hs.placed s₀ hm₀).imp (fun hl => hline ▸ hl) (fun he => ?_)
        (fun he => List.mem_append_left _ he) fun hl => ?_
      · rw [hq] at he
        rw [served_slot, popped_queue]
        exact (List.mem_cons.mp he).resolve_left fun heq => hne (congrArg Envelope.ticket heq)
      · rw [ho] at hl; cases hl.1
  · intro t hl
    obtain ⟨s₀, hm₀, rfl⟩ := hs.line_alive t (hline ▸ hl)
    refine ⟨_, mem_setStage.mpr ⟨s₀, hm₀, rfl⟩, ?_⟩
    split <;> rfl

theorem receive_cases (hs : h.Sound) :
    (h.slot.queue = [] ∧ h.receive = (h.emptyAnswer, h)) ∨
      (∃ e s, h.slot.queue = [e] ∧ h.send? e.ticket = some s ∧ s.stage = .posted ∧
        s.sample = e.sample ∧ h.receive = (.sample e.sample, h.served e [])) ∨
      ∃ e, h.slot.queue = [e] ∧ h.send? e.ticket = none ∧
        h.receive = (h.emptyAnswer, h.popped []) := by
  have hle := hs.queue_length_le
  rcases hq : h.slot.queue with _ | ⟨e, rest⟩
  · exact .inl ⟨rfl, receive_nil hq⟩
  · have hrest : rest = [] := by
      rw [hq, List.length_cons] at hle
      exact List.length_eq_zero_iff.mp (by omega)
    subst hrest
    cases hf : h.send? e.ticket with
    | some s =>
      obtain ⟨hm, ht⟩ := mem_of_send? hf
      obtain ⟨hst, hsa⟩ := hs.posted_of_queue hm (hq ▸ List.mem_cons_self) ht
      exact .inr (.inl ⟨e, s, rfl, hf, hst, hsa, receive_alive hq hf⟩)
    | none => exact .inr (.inr ⟨e, rfl, hf, receive_dead hq hf⟩)

theorem receive (hs : h.Sound) : h.receive.2.Sound := by
  rcases hs.receive_cases with ⟨-, hr⟩ | ⟨e, s, hq, hf, -, -, hr⟩ | ⟨e, hq, hd, hr⟩
  · rw [hr]; exact hs
  · rw [hr]; exact hs.served hq hf
  · rw [hr]; exact hs.popped hq hd

/-! ## The two ends -/

theorem dropSender (hs : h.Sound) : h.dropSender.Sound := { hs with }

theorem dropReceiver (hs : h.Sound) : h.dropReceiver.Sound := by
  obtain ⟨-, -, hd⟩ := hs.disjoint
  have hsub : h.dropReceiver.order.Sublist h.order := by
    simp only [Handoff.order, Handoff.dropReceiver, Mailbox.drop, List.append_nil, List.map_append]
    exact (List.sublist_append_left _ _).append (List.Sublist.refl _)
  refine {
    capacity := hs.capacity
    fair := hs.fair.drop
    order := hs.order.sublist hsub
    order_fresh := fun t ht => hs.order_fresh t (hsub.subset ht)
    sends := by rw [dropReceiver_map _ fun _ _ => rfl]; exact hs.sends
    sends_fresh := ?_
    placed := ?_
    line_alive := ?_
    opened_or_dropped := .inr ⟨rfl, rfl⟩ }
  · intro s hm
    obtain ⟨s₀, hm₀, rfl⟩ := List.mem_map.mp hm
    split <;> exact hs.sends_fresh s₀ hm₀
  · intro s hm
    obtain ⟨s₀, hm₀, rfl⟩ := List.mem_map.mp hm
    have hp := hs.placed s₀ hm₀
    split
    · rename_i hst
      simp only [Placed, hst] at hp
      refine ⟨rfl, fun hord => ?_⟩
      simp only [Handoff.order, Handoff.dropReceiver, Mailbox.drop, List.append_nil,
        List.mem_append, List.mem_map] at hord
      rcases hord with ⟨e, he, het⟩ | hl
      · exact hs.disjoint.1 e he _ hp het
      · exact hd _ hp hl
    · rename_i hst
      refine hp.imp id (fun he => absurd ?_ hst) id fun hl => ⟨rfl, fun ho => hl.2 (hsub.subset ho)⟩
      exact (hs.posted_of_queue hm₀ he rfl).1
  · intro t ht
    obtain ⟨s₀, hm₀, rfl⟩ := hs.line_alive t ht
    refine ⟨_, List.mem_map.mpr ⟨s₀, hm₀, rfl⟩, ?_⟩
    split <;> rfl

end Sound

end HealthRelay.Handoff
