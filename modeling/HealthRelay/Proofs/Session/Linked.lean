import HealthRelay.Proofs.Handoff.Basic
import HealthRelay.Proofs.Session.Scene

/-!
# How the poller and the reporter are linked

The one sender of a session has at most one sample on its way. `Linked` lists where that sample can
be, by what the poller is doing: nowhere, in the slot, taken but not acknowledged, or given up with
the poller gone. In every case it says how the samples of the probe calls and the samples that the
reporter has taken compare. Every move of either side leads from one case to another.
-/

namespace HealthRelay

/-- The send of an envelope at a stage. -/
def Envelope.sending (e : Envelope) (stage : SendStage) : Sending := ⟨e.ticket, e.sample, stage⟩

/-- The samples that lie in the handoff with their sends on. -/
def Handoff.parked (h : Handoff) : List Sample :=
  (h.sends.filter (·.stage == .posted)).map (·.sample)

namespace Handoff

/-- A handoff with nobody in line for its slot, and just these envelopes and sends. -/
structure Carries (h : Handoff) (queue : List Envelope) (sends : List Sending) : Prop where
  capacity : h.slot.capacity = 1
  waiting : h.slot.waiting = []
  granted : h.slot.granted = []
  queue : h.slot.queue = queue
  sends : h.sends = sends

variable {h : Handoff} {queue : List Envelope} {sends : List Sending} {e : Envelope}
variable {stage : SendStage}

theorem carries_empty : Handoff.empty.Carries [] [] := ⟨rfl, rfl, rfl, rfl, rfl⟩

theorem Carries.parked_nil (hc : h.Carries queue []) : h.parked = [] := by
  simp [parked, hc.sends]

theorem Carries.parked_posted (hc : h.Carries queue [e.sending .posted]) :
    h.parked = [e.sample] := by
  simp [parked, hc.sends, Envelope.sending]

theorem Carries.parked_taken (hc : h.Carries queue [e.sending .taken]) : h.parked = [] := by
  simp [parked, hc.sends, Envelope.sending]

theorem Carries.dropSender (hc : h.Carries queue sends) : h.dropSender.Carries queue sends :=
  ⟨hc.capacity, hc.waiting, hc.granted, hc.queue, hc.sends⟩

theorem Carries.dropReceiver (hc : h.Carries queue []) : h.dropReceiver.Carries [] [] :=
  ⟨hc.capacity, hc.waiting, hc.granted, rfl, by simp [Handoff.dropReceiver, hc.sends]⟩

theorem Carries.send? (hc : h.Carries queue [e.sending stage]) :
    h.send? e.ticket = some (e.sending stage) := by
  simp [Handoff.send?, hc.sends, Envelope.sending]

theorem Carries.forget (hc : h.Carries queue [e.sending stage]) :
    (h.forget e.ticket).Carries queue [] :=
  ⟨hc.capacity, hc.waiting, hc.granted, hc.queue, by
    simp [Handoff.forget, hc.sends, Envelope.sending]⟩

/-- A new sample goes straight into the slot. -/
theorem Carries.begin (hc : h.Carries [] []) (ho : h.slot.gate = .opened) (sample : Sample) :
    ∃ e h', h.begin sample = (some e.ticket, h') ∧ e.sample = sample ∧
      h'.Carries [e] [e.sending .posted] ∧ h'.slot.gate = .opened ∧ h'.hasSender = h.hasSender := by
  have hr : h.slot.hasRoom = true := by
    simp [Mailbox.hasRoom, hc.queue, hc.granted, hc.capacity]
  refine ⟨⟨h.nextTicket, sample⟩, _, begin_sent (Mailbox.isOpen_iff.mpr ho) hr sample, rfl,
    ⟨hc.capacity, hc.waiting, hc.granted, ?_, ?_⟩, ho, rfl⟩
  · simp [Mailbox.push, hc.queue]
  · simp [hc.sends, Envelope.sending]

theorem Carries.abandon (hc : h.Carries [e] [e.sending .posted]) :
    (h.abandon e.ticket).Carries [e] [] := by
  rw [abandon_placed hc.send? (by simp [Envelope.sending])]
  exact hc.forget

theorem Carries.receive_sample (hc : h.Carries [e] [e.sending .posted]) :
    ∃ h', h.receive = (.sample e.sample, h') ∧ h'.Carries [] [e.sending .taken] ∧
      h'.slot.gate = h.slot.gate ∧ h'.hasSender = h.hasSender := by
  refine ⟨_, receive_alive hc.queue hc.send?, ⟨?_, ?_, ?_, ?_, ?_⟩, ?_, rfl⟩
  · simpa using hc.capacity
  · simp [popped, Mailbox.grant, hc.waiting]
  · simp [popped, Mailbox.grant, hc.waiting, hc.granted]
  · simp
  · simp [served, setStage, popped, hc.sends, Envelope.sending]
  · simp

theorem Carries.receive_empty (hc : h.Carries [] sends) : h.receive = (h.emptyAnswer, h) :=
  receive_nil hc.queue

theorem Carries.receive_dead (hc : h.Carries [e] []) :
    ∃ h', h.receive = (h.emptyAnswer, h') ∧ h'.Carries [] [] ∧ h'.slot.gate = h.slot.gate ∧
      h'.hasSender = h.hasSender := by
  have hs : h.send? e.ticket = none := by simp [send?_eq_none, hc.sends]
  refine ⟨_, Handoff.receive_dead hc.queue hs, ⟨?_, ?_, ?_, ?_, ?_⟩, ?_, rfl⟩
  · simpa using hc.capacity
  · simp [popped, Mailbox.grant, hc.waiting]
  · simp [popped, Mailbox.grant, hc.waiting, hc.granted]
  · simp
  · exact hc.sends
  · simp

end Handoff

/-- Where the sample on its way is, given whether the caller's token has fired and which samples
the reporter has taken. -/
inductive Linked (fired : Prop) (p : Poller) (h : Handoff) (done : List Sample) : Prop where
  /-- There is none. -/
  | producing (hp : p.isOver = false) (hst : ∀ ticker ticket, p.stage ≠ .handing ticker ticket)
      (hsender : h.hasSender = true) (ho : h.slot.gate = .opened) (hc : h.Carries [] [])
      (hd : p.samples = done)
  /-- It lies in the slot. -/
  | parked {ticker : Ticker} {e : Envelope} (hst : p.stage = .handing ticker e.ticket)
      (hsender : h.hasSender = true) (ho : h.slot.gate = .opened)
      (hc : h.Carries [e] [e.sending .posted]) (hd : p.samples = done ++ [e.sample])
  /-- It has been taken, and the poller does not know of that yet. -/
  | taken {ticker : Ticker} {e : Envelope} (hst : p.stage = .handing ticker e.ticket)
      (hsender : h.hasSender = true) (ho : h.slot.gate = .opened)
      (hc : h.Carries [] [e.sending .taken]) (hd : p.samples = done)
  /-- It lies in the slot, given up. -/
  | forsaken {e : Envelope} (hst : p.stage = .finished) (hsender : h.hasSender = false)
      (hc : h.Carries [e] []) (hd : p.samples = done ++ [e.sample]) (hf : fired)
  /-- It was given up and is gone. -/
  | lost {s : Sample} (hst : p.stage = .finished) (hsender : h.hasSender = false)
      (hc : h.Carries [] []) (hd : p.samples = done ++ [s]) (hf : fired)
  /-- There is none, and no poller. -/
  | ended (hp : p.isOver = true) (hsender : h.hasSender = false) (hc : h.Carries [] [])
      (hd : p.samples = done)

namespace Linked

variable {fired : Prop} {p : Poller} {h : Handoff} {done : List Sample}

/-- The sender goes away with the poller. -/
theorem hasSender_eq (hl : Linked fired p h done) : h.hasSender = !p.isOver := by
  cases hl with
  | producing hp _ hsender _ _ _ => simp [hp, hsender]
  | parked hst hsender _ _ _ => simp [Poller.isOver, hst, hsender]
  | taken hst hsender _ _ _ => simp [Poller.isOver, hst, hsender]
  | forsaken hst hsender _ _ _ => simp [Poller.isOver, hst, hsender]
  | lost hst hsender _ _ _ => simp [Poller.isOver, hst, hsender]
  | ended hp hsender _ _ => simp [hp, hsender]

theorem done_isPrefix (hl : Linked fired p h done) : done <+: p.samples := by
  cases hl with
  | producing _ _ _ _ _ hd => exact hd ▸ List.prefix_rfl
  | parked _ _ _ _ hd => exact hd ▸ List.prefix_append ..
  | taken _ _ _ _ hd => exact hd ▸ List.prefix_rfl
  | forsaken _ _ _ hd => exact hd ▸ List.prefix_append ..
  | lost _ _ _ hd => exact hd ▸ List.prefix_append ..
  | ended _ _ _ hd => exact hd ▸ List.prefix_rfl

/-- Only a poller that the token has stopped may have lost its last sample. -/
theorem of_over (hl : Linked fired p h done) (hp : p.isOver = true) :
    done = p.samples ∨ fired ∧ p.stage = .finished ∧ ∃ s, p.samples = done ++ [s] := by
  cases hl with
  | producing hp' => simp [hp'] at hp
  | parked hst => simp [Poller.isOver, hst] at hp
  | taken hst => simp [Poller.isOver, hst] at hp
  | forsaken hst _ _ hd hf => exact .inr ⟨hf, hst, _, hd⟩
  | lost hst _ _ hd hf => exact .inr ⟨hf, hst, _, hd⟩
  | ended _ _ _ hd => exact .inl hd.symm

theorem mono {fired' : Prop} (hl : Linked fired p h done) (hf : fired → fired') :
    Linked fired' p h done := by
  cases hl with
  | producing hp hst hsender ho hc hd => exact .producing hp hst hsender ho hc hd
  | parked hst hsender ho hc hd => exact .parked hst hsender ho hc hd
  | taken hst hsender ho hc hd => exact .taken hst hsender ho hc hd
  | forsaken hst hsender hc hd h' => exact .forsaken hst hsender hc hd (hf h')
  | lost hst hsender hc hd h' => exact .lost hst hsender hc hd (hf h')
  | ended hp hsender hc hd => exact .ended hp hsender hc hd

/-- A poller that is neither handing over nor over has nothing on its way. -/
theorem of_producing (hl : Linked fired p h done) (hp : p.isOver = false)
    (hst : ∀ ticker ticket, p.stage ≠ .handing ticker ticket) :
    h.hasSender = true ∧ h.slot.gate = .opened ∧ h.Carries [] [] ∧ p.samples = done := by
  cases hl with
  | producing _ _ hsender ho hc hd => exact ⟨hsender, ho, hc, hd⟩
  | parked hst' => exact absurd hst' (hst _ _)
  | taken hst' => exact absurd hst' (hst _ _)
  | forsaken hst' => simp [Poller.isOver, hst'] at hp
  | lost hst' => simp [Poller.isOver, hst'] at hp
  | ended hp' => simp [hp'] at hp

/-! ## Moves of the poller -/

/-- A sample is given to the handoff, and given up at once if the token has fired. -/
theorem give (hl : Linked fired p h done) {ticker : Ticker} {call call' : Call}
    (hst : p.stage = .probing ticker call) {t : Poller.Turn} (hf : t.isCancelled = true → fired)
    (sample : Sample) :
    Linked fired (p.give ticker call' sample t h).1 (p.give ticker call' sample t h).2 done := by
  obtain ⟨hsender, ho, hc, hd⟩ := hl.of_producing (by simp [Poller.isOver, hst]) (by simp [hst])
  obtain ⟨e, h', hb, he, hc', ho', hsender'⟩ := hc.begin ho sample
  have hd' : p.samples ++ [sample] = done ++ [e.sample] := by rw [hd, he]
  unfold Poller.give
  simp only [hb]
  cases hcan : t.isCancelled with
  | true => exact .forsaken rfl rfl hc'.abandon.dropSender hd' (hf hcan)
  | false => exact .parked rfl (hsender'.trans hsender) ho' hc' hd'

/-- What a poller that is handing over finds. -/
theorem handing (hl : Linked fired p h done) {ticker : Ticker} {ticket : Nat}
    (hst : p.stage = .handing ticker ticket) : h.hasSender = true ∧ h.slot.gate = .opened ∧
      ((∃ e : Envelope, e.ticket = ticket ∧ h.look ticket = (.pending, h) ∧
          h.Carries [e] [e.sending .posted] ∧ p.samples = done ++ [e.sample]) ∨
        (∃ e : Envelope, e.ticket = ticket ∧ h.look ticket = (.ready .taken, h.forget ticket) ∧
          h.Carries [] [e.sending .taken] ∧ p.samples = done)) := by
  cases hl with
  | producing _ hst' => exact absurd hst (hst' _ _)
  | parked hst' hsender ho hc hd =>
    cases hst'.symm.trans hst
    exact ⟨hsender, ho, .inl ⟨_, rfl, Handoff.look_posted hc.send? rfl, hc, hd⟩⟩
  | taken hst' hsender ho hc hd =>
    cases hst'.symm.trans hst
    exact ⟨hsender, ho, .inr ⟨_, rfl, Handoff.look_taken hc.send? rfl, hc, hd⟩⟩
  | forsaken hst' => cases hst'.symm.trans hst
  | lost hst' => cases hst'.symm.trans hst
  | ended hp => simp [Poller.isOver, hst] at hp

theorem pollerMove (hl : Linked fired p h done) {t : Poller.Turn}
    (hf : t.isCancelled = true → fired) {x : Poller × Handoff} (hm : Poller.Move t (p, h) x) :
    Linked fired x.1 x.2 done := by
  cases hm with
  | wake hst =>
    obtain ⟨hsender, ho, hc, hd⟩ := hl.of_producing (by simp [Poller.isOver, hst]) (by simp [hst])
    exact .producing rfl (by simp) hsender ho hc hd
  | stop hst hcan =>
    obtain ⟨hsender, ho, hc, hd⟩ := hl.of_producing (by simp [Poller.isOver, hst]) (by simp [hst])
    exact .ended rfl rfl hc.dropSender hd
  | ask hst hcan hl' =>
    obtain ⟨hsender, ho, hc, hd⟩ := hl.of_producing (by simp [Poller.isOver, hst]) (by simp [hst])
    exact .producing rfl (by simp) hsender ho hc hd
  | linger hst hl' =>
    obtain ⟨hsender, ho, hc, hd⟩ := hl.of_producing (by simp [Poller.isOver, hst]) (by simp [hst])
    exact .producing rfl (by simp) hsender ho hc hd
  | panic hst hl' hs =>
    obtain ⟨hsender, ho, hc, hd⟩ := hl.of_producing (by simp [Poller.isOver, hst]) (by simp [hst])
    exact .ended rfl rfl hc.dropSender hd
  | give hst hl' hs => exact hl.give hst hf _
  | acknowledge hst hl' =>
    obtain ⟨hsender, ho, ⟨e, -, hlook, -⟩ | ⟨e, rfl, hlook, hc, hd⟩⟩ := hl.handing hst
    · cases hlook.symm.trans hl'
    · cases hlook.symm.trans hl'
      exact .producing rfl (by simp) hsender ho hc.forget hd
  | refuse hst hl' =>
    obtain ⟨-, -, ⟨e, -, hlook, -⟩ | ⟨e, -, hlook, -⟩⟩ := hl.handing hst
    · cases hlook.symm.trans hl'
    · cases hlook.symm.trans hl'
  | wait hst hl' hcan =>
    obtain ⟨-, -, ⟨e, -, hlook, -⟩ | ⟨e, -, hlook, -⟩⟩ := hl.handing hst
    · cases hlook.symm.trans hl'
      exact hl
    · cases hlook.symm.trans hl'
  | giveUp hst hl' hcan =>
    obtain ⟨-, -, ⟨e, rfl, hlook, hc, hd⟩ | ⟨e, -, hlook, -⟩⟩ := hl.handing hst
    · cases hlook.symm.trans hl'
      exact .forsaken rfl rfl hc.abandon.dropSender hd (hf hcan)
    · cases hlook.symm.trans hl'

/-! ## The sample in the handoff -/

/-- Only the last sample can lie in the handoff, and only while the poller is on. -/
theorem parked_cases (hl : Linked fired p h done) :
    h.parked = [] ∨ ∃ s, h.parked = [s] ∧ p.isOver = false ∧ p.samples = done ++ [s] := by
  cases hl with
  | producing _ _ _ _ hc => exact .inl hc.parked_nil
  | parked hst _ _ hc hd =>
    exact .inr ⟨_, hc.parked_posted, by simp [Poller.isOver, hst], hd⟩
  | taken _ _ _ hc => exact .inl hc.parked_taken
  | forsaken _ _ hc => exact .inl hc.parked_nil
  | lost _ _ hc => exact .inl hc.parked_nil
  | ended _ _ hc => exact .inl hc.parked_nil

theorem parked_of_over (hl : Linked fired p h done) (hp : p.isOver = true) : h.parked = [] := by
  rcases hl.parked_cases with hs | ⟨s, -, hp', -⟩
  · exact hs
  · simp [hp'] at hp

theorem parked_length_le (hl : Linked fired p h done) : h.parked.length ≤ 1 := by
  rcases hl.parked_cases with hs | ⟨s, hs, -⟩ <;> simp [hs]

theorem samples_of_parked (hl : Linked fired p h done) {s : Sample} (hs : s ∈ h.parked) :
    p.samples = done ++ [s] := by
  rcases hl.parked_cases with hs' | ⟨s', hs', -, hd⟩
  · simp [hs'] at hs
  · rw [hs', List.mem_singleton] at hs
    rw [hd, hs]

theorem samples_of_parked_nil (hl : Linked False p h done) (hs : h.parked = []) :
    p.samples = done := by
  cases hl with
  | producing _ _ _ _ _ hd => exact hd
  | parked _ _ _ hc => simp [hc.parked_posted] at hs
  | taken _ _ _ _ hd => exact hd
  | forsaken _ _ _ _ hf => exact hf.elim
  | lost _ _ _ _ hf => exact hf.elim
  | ended _ _ _ hd => exact hd

/-! ## The receiver's look -/

/-- The receiver takes the sample in the slot if its send is on, waits for a poller that is not
over, and finds the channel closed behind one that is. -/
theorem receive_cases (hl : Linked fired p h done) :
    (∃ s h', h.receive = (.sample s, h') ∧ Linked fired p h' (done ++ [s]) ∧ h.parked = [s] ∧
        h'.parked = []) ∨
      (h.receive = (.pending, h) ∧ p.isOver = false) ∨
      (∃ h', h.receive = (.closed, h') ∧ Linked fired p h'.dropReceiver done ∧ p.isOver = true ∧
        h'.dropReceiver.parked = []) := by
  have hopen : h.hasSender = true → h.emptyAnswer = .pending := fun hs => if_pos hs
  have hshut : h.hasSender = false → h.emptyAnswer = .closed := fun hs =>
    if_neg (by simp [hs])
  cases hl with
  | producing hp _ hsender _ hc =>
    exact .inr (.inl ⟨by rw [hc.receive_empty, hopen hsender], hp⟩)
  | parked hst hsender ho hc hd =>
    obtain ⟨h', hr, hc', ho', hsender'⟩ := hc.receive_sample
    exact .inl ⟨_, h', hr, .taken hst (hsender'.trans hsender) (ho'.trans ho) hc' hd,
      hc.parked_posted, hc'.parked_taken⟩
  | taken hst hsender _ hc =>
    exact .inr (.inl ⟨by rw [hc.receive_empty, hopen hsender], by simp [Poller.isOver, hst]⟩)
  | forsaken hst hsender hc hd hf =>
    obtain ⟨h', hr, hc', -, hsender'⟩ := hc.receive_dead
    exact .inr (.inr ⟨h', by rw [hr, hshut hsender],
      .lost hst (hsender'.trans hsender) hc'.dropReceiver hd hf, by simp [Poller.isOver, hst],
      hc'.dropReceiver.parked_nil⟩)
  | lost hst hsender hc hd hf =>
    exact .inr (.inr ⟨h, by rw [hc.receive_empty, hshut hsender],
      .lost hst hsender hc.dropReceiver hd hf, by simp [Poller.isOver, hst],
      hc.dropReceiver.parked_nil⟩)
  | ended hp hsender hc hd =>
    exact .inr (.inr ⟨h, by rw [hc.receive_empty, hshut hsender],
      .ended hp hsender hc.dropReceiver hd, hp, hc.dropReceiver.parked_nil⟩)

theorem receive_sample (hl : Linked fired p h done) {s : Sample} {h' : Handoff}
    (hr : h.receive = (.sample s, h')) :
    Linked fired p h' (done ++ [s]) ∧ h.parked = [s] ∧ h'.parked = [] := by
  obtain ⟨s', h'', hr', hl'⟩ | ⟨hr', -⟩ | ⟨h'', hr', -⟩ := hl.receive_cases
  · cases hr'.symm.trans hr
    exact hl'
  · cases hr'.symm.trans hr
  · cases hr'.symm.trans hr

theorem receive_pending (hl : Linked fired p h done) {h' : Handoff}
    (hr : h.receive = (.pending, h')) : h' = h ∧ p.isOver = false := by
  obtain ⟨s', h'', hr', -⟩ | ⟨hr', hp⟩ | ⟨h'', hr', -⟩ := hl.receive_cases
  · cases hr'.symm.trans hr
  · cases hr'.symm.trans hr
    exact ⟨rfl, hp⟩
  · cases hr'.symm.trans hr

theorem receive_closed (hl : Linked fired p h done) {h' : Handoff}
    (hr : h.receive = (.closed, h')) :
    Linked fired p h'.dropReceiver done ∧ p.isOver = true ∧ h'.dropReceiver.parked = [] := by
  obtain ⟨s', h'', hr', -⟩ | ⟨hr', -⟩ | ⟨h'', hr', hl'⟩ := hl.receive_cases
  · cases hr'.symm.trans hr
  · cases hr'.symm.trans hr
  · cases hr'.symm.trans hr
    exact hl'

end Linked

end HealthRelay
