import HealthRelay.Proofs.Handoff.Trace

/-!
# Sender and receiver agree

`HandoffTrace.Sound` ties what the users of a handoff see to the channel. From it,
`handoff_agreement`: whatever is done with a handoff, the samples that come out are those of sends
in the order in which the sends began, none twice; a send that ended well had its sample taken
before; a send that ended badly, or was given up before its sample was taken, never has its sample
taken; and giving up a pending receive loses nothing.
-/

namespace HealthRelay

open HandoffFact

namespace HandoffTrace

/-- The facts are those of the channel. -/
structure Sound (c : HandoffTrace) : Prop where
  handoff : c.handoff.Sound
  begun_length : (begun c.facts).length = c.handoff.nextTicket
  letters : ∀ e ∈ c.handoff.letters, (begun c.facts)[e.ticket]? = some e.sample
  received : receipts c.facts = c.handoff.taken.map (·.sample)
  taken : ∀ i t, c.facts[i]? = some (.ended t .taken) →
    t ∈ c.tickets.take (receipts (c.facts.take i)).length
  closed : ∀ t, .ended t .closed ∈ c.facts → c.handoff.IsOver t ∧ t ∉ c.tickets
  givenUp : ∀ i t, c.facts[i]? = some (.givenUp t) → c.handoff.IsOver t ∧
    (t ∈ c.tickets.take (receipts (c.facts.take i)).length ∨ t ∉ c.tickets)

theorem sound_start : start.Sound where
  handoff := Handoff.sound_empty
  begun_length := rfl
  letters := by simp [start, Handoff.letters, Handoff.empty, Mailbox.empty]
  received := rfl
  taken := by simp [start]
  closed := by simp [start]
  givenUp := by simp [start]

/-- What the facts of one act have to say to keep a trace sound. -/
structure Extends (c : HandoffTrace) (h : Handoff) (new : List HandoffFact) : Prop where
  handoff : h.Sound
  begun_length : (begun (c.facts ++ new)).length = h.nextTicket
  letters : ∀ e ∈ h.letters, (begun (c.facts ++ new))[e.ticket]? = some e.sample
  isOver : ∀ t, c.handoff.IsOver t → h.IsOver t
  /-- Only sends under way are taken. -/
  served : ∃ extra, h.taken = c.handoff.taken ++ extra ∧ receipts new = extra.map (·.sample) ∧
    ∀ e ∈ extra, ¬ c.handoff.IsOver e.ticket
  taken : ∀ t, .ended t .taken ∈ new → t ∈ c.tickets
  closed : ∀ t, .ended t .closed ∈ new → h.IsOver t ∧ t ∉ h.taken.map (·.ticket)
  givenUp : ∀ t, .givenUp t ∈ new → h.IsOver t ∧ (t ∈ c.tickets ∨ t ∉ h.taken.map (·.ticket))

/-- A fact of a longer list is an old one in its old place, or a new one after all old ones. -/
theorem fact_cases {facts new : List HandoffFact} {i : Nat} {f : HandoffFact}
    (hi : (facts ++ new)[i]? = some f) :
    (facts[i]? = some f ∧ (facts ++ new).take i = facts.take i) ∨
      (f ∈ new ∧ (receipts facts).length ≤ (receipts ((facts ++ new).take i)).length) := by
  by_cases hlt : i < facts.length
  · rw [List.getElem?_append_left hlt] at hi
    exact .inl ⟨hi, List.take_append_of_le_length (Nat.le_of_lt hlt)⟩
  · rw [List.getElem?_append_right (by omega)] at hi
    refine .inr ⟨List.mem_of_getElem? hi, ?_⟩
    rw [List.take_append, List.take_of_length_le (by omega), receipts_append, List.length_append]
    omega

theorem Sound.extend {c : HandoffTrace} (hc : c.Sound) {h : Handoff} {new : List HandoffFact}
    (hn : c.Extends h new) : Sound ⟨h, c.facts ++ new⟩ := by
  obtain ⟨extra, htaken, hrec, hextra⟩ := hn.served
  have htickets : tickets ⟨h, c.facts ++ new⟩ = c.tickets ++ extra.map (·.ticket) := by
    rw [tickets, tickets, htaken, List.map_append]
  have hlen : (receipts c.facts).length = c.tickets.length := by
    rw [hc.received, tickets, List.length_map, List.length_map]
  -- what was taken before the new facts is taken before each of them
  have hold : ∀ {t k}, t ∈ c.tickets → (receipts c.facts).length ≤ k →
      t ∈ (tickets ⟨h, c.facts ++ new⟩).take k := by
    intro t k ht hk
    rw [htickets, List.take_append, List.take_of_length_le (by omega)]
    exact List.mem_append_left _ ht
  have hkeep : ∀ {t k}, t ∈ c.tickets.take k → t ∈ (tickets ⟨h, c.facts ++ new⟩).take k := by
    intro t k ht
    rw [htickets, List.take_append]
    exact List.mem_append_left _ ht
  have hnever : ∀ {t}, c.handoff.IsOver t → t ∉ c.tickets →
      t ∉ tickets ⟨h, c.facts ++ new⟩ := by
    intro t hover hno hin
    rw [htickets] at hin
    rcases List.mem_append.mp hin with hin | hin
    · exact hno hin
    · obtain ⟨e, he, rfl⟩ := List.mem_map.mp hin
      exact hextra e he hover
  refine {
    handoff := hn.handoff
    begun_length := hn.begun_length
    letters := hn.letters
    received := by rw [receipts_append, hc.received, hrec, htaken, List.map_append]
    taken := fun i t hi => ?_
    closed := fun t hm => ?_
    givenUp := fun i t hi => ?_ }
  · rcases fact_cases hi with ⟨hi, htake⟩ | ⟨hm, hle⟩
    · rw [htake]
      exact hkeep (hc.taken i t hi)
    · exact hold (hn.taken t hm) hle
  · rcases List.mem_append.mp hm with hm | hm
    · obtain ⟨hover, hno⟩ := hc.closed t hm
      exact ⟨hn.isOver t hover, hnever hover hno⟩
    · exact hn.closed t hm
  · rcases fact_cases hi with ⟨hi, htake⟩ | ⟨hm, hle⟩
    · obtain ⟨hover, hin | hno⟩ := hc.givenUp i t hi
      · exact ⟨hn.isOver t hover, .inl (by rw [htake]; exact hkeep hin)⟩
      · exact ⟨hn.isOver t hover, .inr (hnever hover hno)⟩
    · obtain ⟨hover, hin | hno⟩ := hn.givenUp t hm
      · exact ⟨hover, .inl (hold hin hle)⟩
      · exact ⟨hover, .inr hno⟩

theorem Extends.of_follows {c : HandoffTrace} (hc : c.Sound) {h : Handoff} {new : List HandoffFact}
    (hs : h.Sound) (hf : c.handoff.Follows h) (hb : begun new = [])
    (hserved : ∃ extra, h.taken = c.handoff.taken ++ extra ∧
      receipts new = extra.map (·.sample) ∧ ∀ e ∈ extra, ¬ c.handoff.IsOver e.ticket)
    (htaken : ∀ t, .ended t .taken ∈ new → t ∈ c.tickets)
    (hclosed : ∀ t, .ended t .closed ∈ new → h.IsOver t ∧ t ∉ h.taken.map (·.ticket))
    (hgivenUp : ∀ t, .givenUp t ∈ new →
      h.IsOver t ∧ (t ∈ c.tickets ∨ t ∉ h.taken.map (·.ticket))) : c.Extends h new where
  handoff := hs
  begun_length := by rw [begun_append, hb, List.append_nil, hc.begun_length, hf.next]
  letters := fun e he => by
    rw [begun_append, hb, List.append_nil]
    exact hc.letters e (hf.letters he)
  isOver := fun _ => hf.isOver
  served := hserved
  taken := htaken
  closed := hclosed
  givenUp := hgivenUp

/-! ## One act -/

/-- The first poll of a send, whatever becomes of it. -/
theorem Sound.began {c : HandoffTrace} (hc : c.Sound) {h : Handoff} {sample : Sample}
    {ends : List HandoffFact} (hs : h.Sound) (hn : h.nextTicket = c.handoff.nextTicket + 1)
    (hl : ∀ e ∈ h.letters, e ∈ c.handoff.letters ∨ e = ⟨c.handoff.nextTicket, sample⟩)
    (hover : ∀ t, c.handoff.IsOver t → h.IsOver t) (ht : h.taken = c.handoff.taken)
    (he : ends = [] ∨ (ends = [.ended c.handoff.nextTicket .closed] ∧
      h.IsOver c.handoff.nextTicket)) : Sound ⟨h, c.facts ++ .began sample :: ends⟩ := by
  have hb : begun (c.facts ++ .began sample :: ends) = begun c.facts ++ [sample] := by
    rcases he with rfl | ⟨rfl, -⟩ <;> simp [begun]
  have hr : receipts (.began sample :: ends) = [] := by
    rcases he with rfl | ⟨rfl, -⟩ <;> rfl
  refine hc.extend {
    handoff := hs
    begun_length := by rw [hb, List.length_append, hc.begun_length, hn]; rfl
    letters := fun e hm => ?_
    isOver := hover
    served := ⟨[], by simp [ht], hr, by simp⟩
    taken := ?_
    closed := ?_
    givenUp := ?_ }
  · rw [hb]
    rcases hl e hm with hm | rfl
    · have hk := hc.letters e hm
      rw [List.getElem?_append_left (List.getElem?_eq_some_iff.mp hk).1]
      exact hk
    · simp [← hc.begun_length]
  · rcases he with rfl | ⟨rfl, -⟩ <;> simp
  · intro t hm
    rcases he with rfl | ⟨rfl, hov⟩
    · simp at hm
    · simp only [List.mem_cons, reduceCtorEq, HandoffFact.ended.injEq, and_true, List.not_mem_nil,
        or_false, false_or] at hm
      subst hm
      refine ⟨hov, fun hin => ?_⟩
      have hin' : c.handoff.nextTicket ∈ c.handoff.order := by
        rw [ht] at hin
        rw [Handoff.order, List.map_append, List.append_assoc]
        exact List.mem_append_left _ hin
      exact Nat.lt_irrefl _ (hc.handoff.order_fresh _ hin')
  · rcases he with rfl | ⟨rfl, -⟩ <;> simp

theorem Sound.send {c : HandoffTrace} (hc : c.Sound) (sample : Sample) :
    (c.step (.send sample)).Sound := by
  have hs := hc.handoff.begin sample
  have hnew : ∀ {h : Handoff} {stage}, h.nextTicket = c.handoff.nextTicket + 1 →
      h.sends = c.handoff.sends ++ [⟨c.handoff.nextTicket, sample, stage⟩] →
      ∀ t, c.handoff.IsOver t → h.IsOver t := by
    intro h stage hn hsends t hover
    refine ⟨hn ▸ Nat.lt_succ_of_lt hover.1, fun s hm => ?_⟩
    rw [hsends] at hm
    rcases List.mem_append.mp hm with hm | hm
    · exact hover.2 s hm
    · rw [List.mem_singleton.mp hm]
      exact Nat.ne_of_gt hover.1
  simp only [HandoffTrace.step]
  split
  · cases ho : c.handoff.slot.isOpen with
    | false =>
      rw [Handoff.begin_shut ho] at hs ⊢
      refine hc.began hs rfl (fun e hm => .inl hm) (fun t hover => ?_) rfl (.inr ⟨rfl, ?_⟩)
      · exact ⟨Nat.lt_succ_of_lt hover.1, hover.2⟩
      · exact ⟨Nat.lt_succ_self _, fun s hm => Nat.ne_of_lt (hc.handoff.sends_fresh s hm)⟩
    | true =>
      cases hr : c.handoff.slot.hasRoom with
      | true =>
        rw [Handoff.begin_sent ho hr] at hs ⊢
        refine hc.began hs rfl (fun e hm => ?_) (hnew rfl rfl) rfl (.inl rfl)
        simp only [Handoff.letters, Mailbox.push, List.map_append, List.mem_append] at hm ⊢
        simp only [List.map_cons, List.map_nil, List.mem_singleton] at hm
        tauto
      | false =>
        rw [Handoff.begin_full ho hr] at hs ⊢
        refine hc.began hs rfl (fun e hm => ?_) (hnew rfl rfl) rfl (.inl rfl)
        simp only [Handoff.letters, Mailbox.joinLine, List.map_append, List.mem_append] at hm ⊢
        simp only [List.map_cons, List.map_nil, List.mem_singleton] at hm
        tauto
  · exact hc

theorem Sound.quiet {c : HandoffTrace} (hc : c.Sound) {h : Handoff} (hs : h.Sound)
    (hf : c.handoff.Follows h) (ht : h.taken = c.handoff.taken) : Sound ⟨h, c.facts⟩ := by
  have hn : c.Extends h [] :=
    .of_follows hc hs hf rfl ⟨[], by simp [ht], rfl, by simp⟩ (by simp) (by simp) (by simp)
  have := hc.extend hn
  rwa [List.append_nil] at this

theorem Sound.drained {c : HandoffTrace} (hc : c.Sound) {h : Handoff} (hs : h.Sound)
    (hf : c.handoff.Follows h) (ht : h.taken = c.handoff.taken) :
    Sound ⟨h, c.facts ++ [.drained]⟩ :=
  hc.extend (.of_follows hc hs hf rfl ⟨[], by simp [ht], rfl, by simp⟩
    (by simp) (by simp) (by simp))

/-- A send that ends tells the truth: well if its sample has been taken, badly if it never will
be. -/
theorem Sound.ended {c : HandoffTrace} (hc : c.Sound) {t : Nat} {s : Sending}
    (hf : c.handoff.send? t = some s) {slot : Mailbox Envelope} {outcome : Handed}
    (hs : ({ c.handoff with slot }.forget t).Sound) (hq : slot.queue = c.handoff.slot.queue)
    (hout : (outcome = .taken ∧ t ∈ c.tickets) ∨ (outcome = .closed ∧ t ∉ c.tickets)) :
    Sound ⟨{ c.handoff with slot }.forget t, c.facts ++ [.ended t outcome]⟩ := by
  have hover := Handoff.isOver_forget hc.handoff hf slot
  refine hc.extend (.of_follows hc hs (Handoff.follows_leave hq t) rfl
    ⟨[], (List.append_nil _).symm, rfl, by simp⟩ (fun u hu => ?_) (fun u hu => ?_) (by simp))
  · obtain ⟨rfl, rfl⟩ := HandoffFact.ended.inj (List.mem_singleton.mp hu)
    rcases hout with ⟨-, ht⟩ | ⟨h, -⟩
    · exact ht
    · cases h
  · obtain ⟨rfl, rfl⟩ := HandoffFact.ended.inj (List.mem_singleton.mp hu)
    rcases hout with ⟨h, -⟩ | ⟨-, ht⟩
    · cases h
    · exact ⟨hover, ht⟩

theorem Sound.look {c : HandoffTrace} (hc : c.Sound) (t : Nat) : (c.step (.look t)).Sound := by
  have hs := hc.handoff.look t
  have hfol := c.handoff.follows_look t
  have htaken := c.handoff.look_taken_eq t
  simp only [HandoffTrace.step]
  cases hf : c.handoff.send? t with
  | none =>
    rw [Handoff.look_none hf]
    exact hc
  | some s =>
    obtain ⟨hm, rfl⟩ := Handoff.mem_of_send? hf
    have hp := hc.handoff.placed s hm
    cases hst : s.stage with
    | taken =>
      rw [Handoff.look_taken hf hst] at hs ⊢
      simp only [Handoff.Placed, hst] at hp
      exact hc.ended hf hs rfl (.inl ⟨rfl, List.mem_map.mpr ⟨_, hp, rfl⟩⟩)
    | lost =>
      rw [Handoff.look_lost hf hst] at hs ⊢
      simp only [Handoff.Placed, hst] at hp
      refine hc.ended hf hs rfl (.inr ⟨rfl, fun hin => hp.2 ?_⟩)
      rw [Handoff.order, List.map_append, List.append_assoc]
      exact List.mem_append_left _ hin
    | posted =>
      rw [Handoff.look_posted hf hst]
      exact hc
    | waiting =>
      cases ho : c.handoff.slot.isOpen with
      | false =>
        rw [Handoff.look_shut hf hst ho] at hs ⊢
        simp only [Handoff.Placed, hst] at hp
        refine hc.ended hf hs (c.handoff.slot.withdraw_queue _) (.inr ⟨rfl, fun hin => ?_⟩)
        obtain ⟨e, he, het⟩ := List.mem_map.mp hin
        exact hc.handoff.disjoint.2.1 e he (het ▸ hp)
      | true =>
        by_cases hg : s.ticket ∈ c.handoff.slot.granted
        · rw [Handoff.look_owner hf hst ho hg] at hs hfol htaken ⊢
          exact hc.quiet hs hfol htaken
        · rw [Handoff.look_in_line hf hst ho hg]
          exact hc

theorem Sound.giveUp {c : HandoffTrace} (hc : c.Sound) (t : Nat) :
    (c.step (.giveUp t)).Sound := by
  simp only [HandoffTrace.step]
  split
  · rename_i hsome
    obtain ⟨s, hf⟩ := Option.isSome_iff_exists.mp hsome
    have htaken := c.handoff.abandon_taken_eq t
    refine hc.extend (.of_follows hc (hc.handoff.abandon _) (c.handoff.follows_abandon _) rfl
      ⟨[], by simp [htaken], rfl, by simp⟩ (by simp) (by simp) fun u hu => ?_)
    simp only [List.mem_singleton, HandoffFact.givenUp.injEq] at hu
    subst hu
    exact ⟨Handoff.isOver_abandon hc.handoff hf, htaken ▸ Classical.em _⟩
  · exact hc

theorem Sound.receive {c : HandoffTrace} (hc : c.Sound) : (c.step .receive).Sound := by
  have hs := hc.handoff.receive
  have hfol := Handoff.follows_receive hc.handoff
  simp only [HandoffTrace.step]
  split
  · rcases hc.handoff.receive_cases with ⟨-, hr⟩ | ⟨e, s, hq, hf, hst, hsa, hr⟩ | ⟨e, hq, hf, hr⟩
    · rw [hr]
      unfold Handoff.emptyAnswer
      cases c.handoff.hasSender
      · exact hc.drained hc.handoff (.refl _) rfl
      · exact hc
    · rw [hr] at hs hfol ⊢
      obtain ⟨hm, ht⟩ := Handoff.mem_of_send? hf
      refine hc.extend (.of_follows hc hs hfol rfl ⟨[e], rfl, rfl, fun e' he hover => ?_⟩
        (by simp) (by simp) (by simp))
      rw [List.mem_singleton.mp he] at hover
      exact hover.2 s hm ht
    · rw [hr] at hs hfol ⊢
      unfold Handoff.emptyAnswer
      cases c.handoff.hasSender
      · exact hc.drained hs hfol rfl
      · exact hc.quiet hs hfol rfl
  · exact hc

theorem Sound.step {c : HandoffTrace} (hc : c.Sound) (a : HandoffAct) : (c.step a).Sound := by
  cases a with
  | send sample => exact hc.send sample
  | look t => exact hc.look t
  | giveUp t => exact hc.giveUp t
  | receive => exact hc.receive
  | stopReceiving => exact hc
  | dropSender =>
    simp only [HandoffTrace.step]
    split
    · exact hc.quiet hc.handoff.dropSender c.handoff.follows_dropSender rfl
    · exact hc
  | dropReceiver => exact hc.quiet hc.handoff.dropReceiver c.handoff.follows_dropReceiver rfl

theorem Sound.perform {c : HandoffTrace} (hc : c.Sound) (acts : List HandoffAct) :
    (c.perform acts).Sound := by
  induction acts generalizing c with
  | nil => exact hc
  | cons a acts ih => exact ih (hc.step a)

/-! ## The oldest sample that waits -/

theorem facts_step (c : HandoffTrace) (a : HandoffAct) : c.facts <+: (c.step a).facts := by
  cases a <;> simp only [HandoffTrace.step]
  case stopReceiving => exact List.prefix_rfl
  case dropReceiver => exact List.prefix_rfl
  all_goals
    split
    · first
        | exact List.prefix_append _ _
        | exact List.prefix_rfl
        | (split <;> first | exact List.prefix_append _ _ | exact List.prefix_rfl)
    · exact List.prefix_rfl

theorem facts_perform (c : HandoffTrace) (acts : List HandoffAct) :
    c.facts <+: (c.perform acts).facts := by
  induction acts generalizing c with
  | nil => exact List.prefix_rfl
  | cons a acts ih => exact (c.facts_step a).trans (ih (c.step a))

/-- Nothing that has come out is taken back. -/
theorem receipts_perform (c : HandoffTrace) (acts : List HandoffAct) :
    receipts c.facts <+: receipts (c.perform acts).facts :=
  (c.facts_perform acts).filterMap _

section
variable {c : HandoffTrace} {s : Sending}

theorem receive_posted (hc : c.Sound) (hm : s ∈ c.handoff.sends) (hst : s.stage = .posted) :
    (c.step .receive).facts = c.facts ++ [.received s.sample] := by
  have hp := hc.handoff.placed s hm
  simp only [Handoff.Placed, hst] at hp
  obtain ⟨e, rest, hq⟩ := List.exists_cons_of_ne_nil (List.ne_nil_of_mem hp)
  have ho := Mailbox.isOpen_iff.mpr (hc.handoff.opened_of_queue hq)
  simp only [HandoffTrace.step, ho, ↓reduceIte]
  rcases hc.handoff.receive_cases with ⟨hq, -⟩ | ⟨e, s', hq, -, -, -, hr⟩ | ⟨e, hq, hd, -⟩
  · rw [hq] at hp; cases hp
  · rw [hq, List.mem_singleton] at hp
    rw [hr, ← hp]
  · rw [hq, List.mem_singleton] at hp
    have hf := hc.handoff.send?_eq hm
    rw [← hp, hf] at hd
    cases hd

theorem look_granted (hc : c.Sound) (ho : c.handoff.slot.gate = .opened)
    (hm : s ∈ c.handoff.sends) (hg : s.ticket ∈ c.handoff.slot.granted) :
    c.step (.look s.ticket) = ⟨c.handoff.filled s, c.facts⟩ ∧
      { s with stage := .posted } ∈ (c.handoff.filled s).sends := by
  have hst := hc.handoff.waiting_of_line hm (List.mem_append_left _ hg)
  constructor
  · simp only [HandoffTrace.step]
    rw [Handoff.look_owner (hc.handoff.send?_eq hm) hst (Mailbox.isOpen_iff.mpr ho) hg]
  · exact Handoff.mem_setStage.mpr ⟨s, hm, by rw [if_pos rfl]⟩

theorem receipts_granted (hc : c.Sound) (ho : c.handoff.slot.gate = .opened)
    (hm : s ∈ c.handoff.sends) (hg : s.ticket ∈ c.handoff.slot.granted) :
    receipts (c.perform [.look s.ticket, .receive]).facts = receipts c.facts ++ [s.sample] := by
  obtain ⟨hstep, hm'⟩ := look_granted hc ho hm hg
  have hc' : Sound ⟨c.handoff.filled s, c.facts⟩ := hstep ▸ hc.step (.look s.ticket)
  simp only [perform, List.foldl_cons, List.foldl_nil, hstep]
  rw [receive_posted hc' hm' rfl, receipts_append]
  rfl

/-- When the oldest sample that waits is behind a dead envelope, one look of the receiver gives it
the place. -/
theorem granted_popped (hs : c.handoff.Sound) {e : Envelope} (hq : c.handoff.slot.queue = [e])
    (hl : s.ticket ∈ c.handoff.slot.line)
    (hold : ∀ s' ∈ c.handoff.sends, s'.stage ≠ .taken → s.ticket ≤ s'.ticket) :
    s.ticket ∈ (c.handoff.popped []).slot.granted := by
  have hu := hs.fair.used_le
  have hcap := hs.capacity
  simp only [Mailbox.used, hq, List.length_singleton] at hu
  have hg : c.handoff.slot.granted = [] := List.length_eq_zero_iff.mp (by omega)
  have hline : c.handoff.slot.line = c.handoff.slot.waiting := by rw [Mailbox.line, hg]; rfl
  rw [hline] at hl
  obtain ⟨w, ws, hw⟩ := List.exists_cons_of_ne_nil (List.ne_nil_of_mem hl)
  have hw' : w ∈ c.handoff.slot.line := by rw [hline, hw]; exact List.mem_cons_self
  obtain ⟨s', hm', rfl⟩ := hs.line_alive w hw'
  have hle := hold s' hm' (by rw [hs.waiting_of_line hm' hw']; simp)
  have hord := (List.pairwise_append.mp hs.order).2.1
  rw [hline, hw, List.pairwise_cons] at hord
  rw [hw] at hl
  have heq : s.ticket = s'.ticket := by
    rcases List.mem_cons.mp hl with h | h
    · exact h
    · have := hord.1 _ h; omega
  simp [Handoff.popped, Mailbox.grant, Mailbox.hasRoom, hw, hg, hcap, heq]

/-- Only a dead envelope keeps the oldest sample that waits from the place. -/
theorem dead_before (hs : c.handoff.Sound) (ho : c.handoff.slot.gate = .opened)
    (hw : s.ticket ∈ c.handoff.slot.waiting)
    (hold : ∀ s' ∈ c.handoff.sends, s'.stage ≠ .taken → s.ticket ≤ s'.ticket) :
    ∃ e, c.handoff.slot.queue = [e] ∧
      c.handoff.receive = (c.handoff.emptyAnswer, c.handoff.popped []) := by
  have hord := List.pairwise_append.mp hs.order
  rcases hs.receive_cases with ⟨hq, -⟩ | ⟨e, s', hq, hf', hst', -, -⟩ | ⟨e, hq, -, hr⟩
  · -- the place is free, so somebody before this send owns it
    have hu := hs.fair.full_of_waiting (Mailbox.isOpen_iff.mpr ho) (List.ne_nil_of_mem hw)
    rw [hs.capacity, Mailbox.used, hq, List.length_nil, Nat.zero_add] at hu
    obtain ⟨g, hgr⟩ := List.length_eq_one_iff.mp hu
    have hgl : g ∈ c.handoff.slot.line := by rw [Mailbox.line, hgr]; exact List.mem_cons_self
    obtain ⟨s', hm', rfl⟩ := hs.line_alive g hgl
    have hle := hold s' hm' (by rw [hs.waiting_of_line hm' hgl]; simp)
    have hlt := (List.pairwise_append.mp hord.2.1).2.2 s'.ticket (by rw [hgr]; simp) _ hw
    omega
  · -- the envelope in the slot is alive, so its send is older
    obtain ⟨hm', ht⟩ := Handoff.mem_of_send? hf'
    have hle := hold s' hm' (by rw [hst']; simp)
    have hlt := hord.2.2 e.ticket (List.mem_map_of_mem (by rw [hq]; simp)) _
      (List.mem_append_right _ hw)
    omega
  · exact ⟨e, hq, hr⟩

theorem receive_dead (ho : c.handoff.slot.gate = .opened)
    (hr : c.handoff.receive = (c.handoff.emptyAnswer, c.handoff.popped [])) :
    ∃ facts, c.step .receive = ⟨c.handoff.popped [], facts⟩ ∧
      receipts facts = receipts c.facts := by
  simp only [HandoffTrace.step, Mailbox.isOpen_iff.mpr ho, ↓reduceIte, hr]
  unfold Handoff.emptyAnswer
  cases c.handoff.hasSender
  · exact ⟨_, rfl, by simp [receipts]⟩
  · exact ⟨_, rfl, rfl⟩

/-- **No sample is lost.** Two rounds of polls, of the oldest send whose sample has not been taken
and of the receiver, bring that sample out before any other. -/
theorem next_receipt (hc : c.Sound) (ho : c.handoff.slot.gate = .opened) (hm : s ∈ c.handoff.sends)
    (hst : s.stage ≠ .taken)
    (hold : ∀ s' ∈ c.handoff.sends, s'.stage ≠ .taken → s.ticket ≤ s'.ticket) :
    receipts c.facts ++ [s.sample] <+:
      receipts (c.perform [.look s.ticket, .receive, .look s.ticket, .receive]).facts := by
  have hf := hc.handoff.send?_eq hm
  have hp := hc.handoff.placed s hm
  have hopen := Mailbox.isOpen_iff.mpr ho
  have hround : ∀ acts, receipts (c.perform acts).facts = receipts c.facts ++ [s.sample] →
      receipts c.facts ++ [s.sample] <+: receipts (c.perform (acts ++ acts)).facts := by
    intro acts h
    rw [perform, List.foldl_append]
    exact h ▸ receipts_perform (c.perform acts) acts
  cases hs : s.stage with
  | taken => exact absurd hs hst
  | lost =>
    simp only [Handoff.Placed, hs] at hp
    rw [ho] at hp
    cases hp.1
  | posted =>
    have hlook : c.step (.look s.ticket) = c := by
      simp only [HandoffTrace.step, Handoff.look_posted hf hs]
    refine hround [.look s.ticket, .receive] ?_
    simp only [perform, List.foldl_cons, List.foldl_nil, hlook]
    rw [receive_posted hc hm hs, receipts_append]
    rfl
  | waiting =>
    simp only [Handoff.Placed, hs] at hp
    by_cases hg : s.ticket ∈ c.handoff.slot.granted
    · exact hround [.look s.ticket, .receive] (receipts_granted hc ho hm hg)
    · have hlook : c.step (.look s.ticket) = c := by
        simp only [HandoffTrace.step, Handoff.look_in_line hf hs hopen hg]
      have hw : s.ticket ∈ c.handoff.slot.waiting := (List.mem_append.mp hp).resolve_left hg
      obtain ⟨e, hq, hr⟩ := dead_before hc.handoff ho hw hold
      obtain ⟨facts, hstep, hfacts⟩ := receive_dead ho hr
      have hc' : Sound ⟨c.handoff.popped [], facts⟩ := hstep ▸ hc.step .receive
      have hgr := granted_popped hc.handoff hq hp hold
      have hround' := receipts_granted (s := s) hc' ((c.handoff.popped_gate []).trans ho) hm hgr
      have htwice : receipts (c.perform [.look s.ticket, .receive, .look s.ticket, .receive]).facts
          = receipts c.facts ++ [s.sample] := by
        simp only [perform, List.foldl_cons, List.foldl_nil, hlook] at hround' ⊢
        rw [hstep, hround', hfacts]
      exact htwice ▸ List.prefix_rfl

end

/-- A receive that is dropped leaves no trace. -/
theorem perform_stopReceiving (c : HandoffTrace) (acts : List HandoffAct) :
    c.perform (.stopReceiving :: acts) = c.perform acts := rfl

/-- What the two ends of a handoff can rely on. `tickets` are those of the samples that came out,
and a send's ticket is its number among all sends that began. -/
structure Agreement (c : HandoffTrace) : Prop where
  /-- What comes out are the samples of sends, each unchanged. -/
  faithful : (receipts c.facts).map some = c.tickets.map fun t => (begun c.facts)[t]?
  /-- They come out in the order in which the sends began, so none comes out twice. -/
  in_order : c.tickets.Pairwise (· < ·)
  /-- A send that ended well had its sample taken before. -/
  taken_before : ∀ i t, c.facts[i]? = some (.ended t .taken) →
    t ∈ c.tickets.take (receipts (c.facts.take i)).length
  /-- The sample of a send that ended badly never comes out. -/
  closed_never : ∀ t, .ended t .closed ∈ c.facts → t ∉ c.tickets
  /-- The sample of a send that was given up comes out before that or never. -/
  givenUp_never : ∀ i t, c.facts[i]? = some (.givenUp t) →
    t ∈ c.tickets.take (receipts (c.facts.take i)).length ∨ t ∉ c.tickets
  /-- A receive that is pending has removed dead envelopes only. -/
  pending_takes_nothing : ∀ h, c.handoff.receive = (.pending, h) → h.taken = c.handoff.taken ∧
    h.sends = c.handoff.sends ∧ ∀ e ∈ c.handoff.slot.queue, c.handoff.send? e.ticket = none
  /-- When a pending receive is dropped, the oldest sample still comes out next. -/
  nothing_lost : c.handoff.slot.gate = .opened → ∀ s ∈ c.handoff.sends, s.stage ≠ .taken →
    (∀ s' ∈ c.handoff.sends, s'.stage ≠ .taken → s.ticket ≤ s'.ticket) →
    receipts c.facts ++ [s.sample] <+: receipts (c.perform
      [.stopReceiving, .look s.ticket, .receive, .look s.ticket, .receive]).facts

/-- **Sender and receiver agree**, whatever is done with a handoff and in whatever order. -/
theorem handoff_agreement (acts : List HandoffAct) : (run acts).Agreement := by
  have hc : (run acts).Sound := sound_start.perform acts
  refine {
    faithful := ?_
    in_order := ?_
    taken_before := hc.taken
    closed_never := fun t ht => (hc.closed t ht).2
    givenUp_never := fun i t hi => (hc.givenUp i t hi).2
    pending_takes_nothing := fun h hr => ?_
    nothing_lost := fun ho s hm hst hold => ?_ }
  · rw [hc.received, tickets, List.map_map, List.map_map]
    apply List.map_congr_left
    intro e he
    exact (hc.letters e (List.mem_append_left _ (List.mem_append_left _ he))).symm
  · have hord := hc.handoff.order
    rw [Handoff.order, List.map_append, List.append_assoc] at hord
    exact (List.pairwise_append.mp hord).1
  · rcases hc.handoff.receive_cases with ⟨hq, hr'⟩ | ⟨e, s, -, -, -, -, hr'⟩ | ⟨e, hq, hd, hr'⟩
    · rw [hr, Prod.mk.injEq] at hr'
      rw [hr'.2, hq]
      exact ⟨rfl, rfl, by simp⟩
    · rw [hr, Prod.mk.injEq] at hr'
      cases hr'.1
    · rw [hr, Prod.mk.injEq] at hr'
      rw [hr'.2, hq]
      exact ⟨rfl, rfl, by simpa using hd⟩
  · rw [perform_stopReceiving]
    exact next_receipt hc ho hm hst hold

end HandoffTrace

end HealthRelay
