import HealthRelay.Proofs.Session.Linked

/-!
# A poller in front of any receiver

A poller gets its turns, and whoever holds the other end of its handoff takes samples, pauses or
goes away, in any order. The poller has at most one send under way: `Paired` lists where that send
can be, by what the poller is doing, and says how the number of samples that the poller knows to be
taken compares with the number that the receiver has got. Every turn of either side keeps it.
-/

namespace HealthRelay

/-- What is done with a poller and with the other end of its handoff. Times are nanoseconds on the
clock. -/
inductive PollerAct where
  | poll (t : Poller.Turn)
  /-- The receiver's future is polled. -/
  | receive (now : Nat)
  | dropReceiver

/-- A poller with its handoff. -/
structure PollerTrace where
  poller : Poller
  handoff : Handoff
  /-- The samples that the receiver was given, each with the time of that, in order. -/
  receipts : List (Nat × Sample)
deriving DecidableEq, Repr

namespace PollerTrace

def start (interval : Duration) : PollerTrace := ⟨.start interval, .empty, []⟩

/-- One act. Nothing is received without a receiver. -/
def step (c : PollerTrace) : PollerAct → PollerTrace
  | .poll t =>
    let (poller, handoff) := c.poller.poll t c.handoff
    { c with poller, handoff }
  | .receive now =>
    if c.handoff.slot.isOpen then
      match c.handoff.receive with
      | (.sample s, handoff) => { c with handoff, receipts := c.receipts ++ [(now, s)] }
      | (_, handoff) => { c with handoff }
    else c
  | .dropReceiver => { c with handoff := c.handoff.dropReceiver }

def perform (c : PollerTrace) (acts : List PollerAct) : PollerTrace := acts.foldl step c

def run (interval : Duration) (acts : List PollerAct) : PollerTrace := (start interval).perform acts

/-- A turn of a poller whose probes answer at once. -/
def sampleTurn (now : Nat) (isCancelled : Bool) : Poller.Turn :=
  { now, wallMs := 0, isCancelled, isGated := true, answer := .ready (.done (.observed "ok" 0)) }

end PollerTrace

/-! ## The receiver's end -/

namespace Poller

variable {t : Turn} {p : Poller} {h : Handoff} {x : Poller × Handoff}

theorem give_gate (p : Poller) (ticker : Ticker) (call : Call) (sample : Sample) (t : Turn)
    (h : Handoff) : (p.give ticker call sample t h).2.slot.gate = h.slot.gate := by
  have hbegin : (h.begin sample).2.slot.gate = h.slot.gate :=
    congrArg Prod.fst (h.begin_ends sample)
  unfold Poller.give
  split
  · rename_i h' hb
    rw [hb] at hbegin
    exact hbegin
  · rename_i ticket h' hb
    rw [hb] at hbegin
    split
    · exact (congrArg Prod.fst (h'.abandon_ends ticket)).trans hbegin
    · exact hbegin

/-- A poller's moves leave the receiver's end alone. -/
theorem Move.gate (hm : Move t (p, h) x) : x.2.slot.gate = h.slot.gate := by
  have hlook : ∀ {ticket : Nat} {answer : Progress Handed} {h' : Handoff},
      h.look ticket = (answer, h') → h'.slot.gate = h.slot.gate := by
    intro ticket answer h' hl
    have hends := h.look_ends ticket
    rw [hl] at hends
    exact congrArg Prod.fst hends
  cases hm with
  | wake => rfl
  | stop => rfl
  | ask => rfl
  | linger => rfl
  | panic => rfl
  | give => exact give_gate ..
  | acknowledge _ hl => exact hlook hl
  | refuse _ hl =>
    have hgate := hlook hl
    exact hgate
  | wait _ hl => exact hlook hl
  | giveUp _ hl =>
    have hgate := hlook hl
    exact (congrArg Prod.fst (Handoff.abandon_ends ..)).trans hgate

end Poller

namespace Handoff

variable {h : Handoff} {queue : List Envelope} {e : Envelope}

theorem Carries.dropReceiver_posted (hc : h.Carries queue [e.sending .posted]) :
    h.dropReceiver.Carries [] [e.sending .lost] :=
  ⟨hc.capacity, hc.waiting, hc.granted, rfl, by
    simp [Handoff.dropReceiver, hc.sends, Envelope.sending]⟩

/-- The receiver's end is no matter to a send that has been taken, or is lost already. -/
theorem Carries.dropReceiver_settled {stage : SendStage}
    (hc : h.Carries queue [e.sending stage]) (hst : stage ≠ .posted) :
    h.dropReceiver.Carries [] [e.sending stage] := by
  refine ⟨hc.capacity, hc.waiting, hc.granted, rfl, ?_⟩
  simp [Handoff.dropReceiver, hc.sends, Envelope.sending]

end Handoff

/-- Where the send of a poller is, given how many samples the receiver has got. -/
inductive Paired (p : Poller) (h : Handoff) (got : Nat) : Prop where
  /-- There is none. -/
  | free (hst : ∀ ticker ticket, p.stage ≠ .handing ticker ticket) (hc : h.Carries [] [])
      (hn : p.produced = got)
  /-- Its envelope lies in the slot. -/
  | posted {ticker : Ticker} {e : Envelope} (hst : p.stage = .handing ticker e.ticket)
      (hc : h.Carries [e] [e.sending .posted]) (hn : p.produced = got)
  /-- Its sample has been taken, and the poller does not know of that yet. -/
  | taken {ticker : Ticker} {e : Envelope} (hst : p.stage = .handing ticker e.ticket)
      (hc : h.Carries [] [e.sending .taken]) (hn : p.produced + 1 = got)
  /-- Its envelope went away with the receiver. -/
  | lost {ticker : Ticker} {e : Envelope} (hst : p.stage = .handing ticker e.ticket)
      (hg : h.slot.gate = .dropped) (hc : h.Carries [] [e.sending .lost]) (hn : p.produced = got)
  /-- It has been given up, and its envelope is still there. -/
  | forsaken {e : Envelope} (hp : p.isOver = true) (hc : h.Carries [e] [])
      (hn : p.produced = got)

namespace Paired

variable {p : Poller} {h : Handoff} {got : Nat}

theorem start (interval : Duration) : Paired (.start interval) .empty 0 :=
  .free (by simp [Poller.start]) Handoff.carries_empty rfl

theorem of_over (hp : p.isOver = true) (hc : h.Carries [] []) (hn : p.produced = got) :
    Paired p h got :=
  .free (fun ticker ticket hst => by simp [Poller.isOver, hst] at hp) hc hn

/-- A poller that is neither handing over nor over has no send under way. -/
theorem of_free (hl : Paired p h got) (hp : p.isOver = false)
    (hst : ∀ ticker ticket, p.stage ≠ .handing ticker ticket) :
    h.Carries [] [] ∧ p.produced = got := by
  cases hl with
  | free _ hc hn => exact ⟨hc, hn⟩
  | posted hst' => exact absurd hst' (hst _ _)
  | taken hst' => exact absurd hst' (hst _ _)
  | lost hst' => exact absurd hst' (hst _ _)
  | forsaken hp' => simp [hp] at hp'

/-- The number that a poller which is over has counted is the number that was got. -/
theorem produced_eq (hl : Paired p h got) (hp : p.isOver = true) : p.produced = got := by
  cases hl with
  | free _ _ hn => exact hn
  | posted hst => simp [Poller.isOver, hst] at hp
  | taken hst => simp [Poller.isOver, hst] at hp
  | lost hst => simp [Poller.isOver, hst] at hp
  | forsaken _ _ hn => exact hn

/-- What a poller that is handing over finds. -/
theorem handing (hl : Paired p h got) {ticker : Ticker} {ticket : Nat}
    (hst : p.stage = .handing ticker ticket) :
    (∃ e : Envelope, e.ticket = ticket ∧ h.look ticket = (.pending, h) ∧
        h.Carries [e] [e.sending .posted] ∧ p.produced = got) ∨
      (h.look ticket = (.ready .taken, h.forget ticket) ∧ (h.forget ticket).Carries [] [] ∧
        p.produced + 1 = got) ∨
      (h.look ticket = (.ready .closed, h.forget ticket) ∧ h.slot.gate = .dropped ∧
        (h.forget ticket).Carries [] [] ∧ p.produced = got) := by
  cases hl with
  | free hst' => exact absurd hst (hst' _ _)
  | posted hst' hc hn =>
    cases hst'.symm.trans hst
    exact .inl ⟨_, rfl, Handoff.look_posted hc.send? rfl, hc, hn⟩
  | taken hst' hc hn =>
    cases hst'.symm.trans hst
    exact .inr (.inl ⟨Handoff.look_taken hc.send? rfl, hc.forget, hn⟩)
  | lost hst' hg hc hn =>
    cases hst'.symm.trans hst
    exact .inr (.inr ⟨Handoff.look_lost hc.send? rfl, hg, hc.forget, hn⟩)
  | forsaken hp => simp [Poller.isOver, hst] at hp

/-! ## Moves of the poller -/

theorem give (hl : Paired p h got) {ticker : Ticker} {call call' : Call}
    (hst : p.stage = .probing ticker call) (sample : Sample) (t : Poller.Turn) :
    Paired (p.give ticker call' sample t h).1 (p.give ticker call' sample t h).2 got := by
  obtain ⟨hc, hn⟩ := hl.of_free (by simp [Poller.isOver, hst]) (by simp [hst])
  unfold Poller.give
  by_cases ho : h.slot.gate = .opened
  · obtain ⟨e, h', hb, -, hc', -⟩ := hc.begin ho sample
    simp only [hb]
    cases t.isCancelled with
    | true => exact .forsaken rfl hc'.abandon.dropSender hn
    | false => exact .posted rfl hc' hn
  · have hshut : h.slot.isOpen = false := by
      rw [← Bool.not_eq_true, Mailbox.isOpen_iff]
      exact ho
    simp only [Handoff.begin_shut hshut]
    exact of_over rfl ⟨hc.capacity, hc.waiting, hc.granted, hc.queue, hc.sends⟩ hn

theorem pollerMove (hl : Paired p h got) {t : Poller.Turn} {x : Poller × Handoff}
    (hm : Poller.Move t (p, h) x) : Paired x.1 x.2 got := by
  cases hm with
  | wake hst =>
    obtain ⟨hc, hn⟩ := hl.of_free (by simp [Poller.isOver, hst]) (by simp [hst])
    exact .free (by simp) hc hn
  | stop hst =>
    obtain ⟨hc, hn⟩ := hl.of_free (by simp [Poller.isOver, hst]) (by simp [hst])
    exact of_over rfl hc.dropSender hn
  | ask hst =>
    obtain ⟨hc, hn⟩ := hl.of_free (by simp [Poller.isOver, hst]) (by simp [hst])
    exact .free (by simp) hc hn
  | linger hst =>
    obtain ⟨hc, hn⟩ := hl.of_free (by simp [Poller.isOver, hst]) (by simp [hst])
    exact .free (by simp) hc hn
  | panic hst =>
    obtain ⟨hc, hn⟩ := hl.of_free (by simp [Poller.isOver, hst]) (by simp [hst])
    exact of_over rfl hc.dropSender hn
  | give hst => exact hl.give hst _ _
  | acknowledge hst hlook =>
    obtain ⟨e, -, h', -⟩ | ⟨h', hc, hn⟩ | ⟨h', -⟩ := hl.handing hst
    · cases h'.symm.trans hlook
    · cases h'.symm.trans hlook
      exact .free (by simp) hc hn
    · cases h'.symm.trans hlook
  | refuse hst hlook =>
    obtain ⟨e, -, h', -⟩ | ⟨h', -⟩ | ⟨h', -, hc, hn⟩ := hl.handing hst
    · cases h'.symm.trans hlook
    · cases h'.symm.trans hlook
    · cases h'.symm.trans hlook
      exact of_over rfl hc.dropSender hn
  | wait hst hlook =>
    obtain ⟨e, -, h', -⟩ | ⟨h', -⟩ | ⟨h', -⟩ := hl.handing hst
    · cases h'.symm.trans hlook
      exact hl
    · cases h'.symm.trans hlook
    · cases h'.symm.trans hlook
  | giveUp hst hlook =>
    obtain ⟨e, rfl, h', hc, hn⟩ | ⟨h', -⟩ | ⟨h', -⟩ := hl.handing hst
    · cases h'.symm.trans hlook
      exact .forsaken rfl hc.abandon.dropSender hn
    · cases h'.symm.trans hlook
    · cases h'.symm.trans hlook

theorem pollerMoves (hl : Paired p h got) {t : Poller.Turn} {x : Poller × Handoff}
    (hm : Poller.Moves t (p, h) x) : Paired x.1 x.2 got := by
  induction hm with
  | refl => exact hl
  | tail _ hs ih => exact ih.pollerMove hs

/-! ## The receiver -/

/-- The receiver gets the sample in the slot if its send is under way, and nothing else. -/
theorem receive_cases (hl : Paired p h got) :
    (∃ s h', h.receive = (.sample s, h') ∧ h'.slot.gate = h.slot.gate ∧ Paired p h' (got + 1)) ∨
      ∃ answer h', h.receive = (answer, h') ∧ (∀ s, answer ≠ .sample s) ∧
        h'.slot.gate = h.slot.gate ∧ Paired p h' got := by
  have hempty : ∀ s, h.emptyAnswer ≠ .sample s := by
    intro s
    unfold Handoff.emptyAnswer
    split <;> simp
  cases hl with
  | free hst hc hn => exact .inr ⟨_, _, hc.receive_empty, hempty, rfl, .free hst hc hn⟩
  | posted hst hc hn =>
    obtain ⟨h', hr, hc', hg, -⟩ := hc.receive_sample
    exact .inl ⟨_, h', hr, hg, .taken hst hc' (congrArg (· + 1) hn)⟩
  | taken hst hc hn => exact .inr ⟨_, _, hc.receive_empty, hempty, rfl, .taken hst hc hn⟩
  | lost hst hg hc hn => exact .inr ⟨_, _, hc.receive_empty, hempty, rfl, .lost hst hg hc hn⟩
  | forsaken hp hc hn =>
    obtain ⟨h', hr, hc', hg, -⟩ := hc.receive_dead
    exact .inr ⟨_, h', hr, hempty, hg, of_over hp hc' hn⟩

theorem receive_gate (hl : Paired p h got) : h.receive.2.slot.gate = h.slot.gate := by
  obtain ⟨s, h', hr, hg, -⟩ | ⟨answer, h', hr, -, hg, -⟩ := hl.receive_cases
  · rw [hr, hg]
  · rw [hr, hg]

theorem receive_sample (hl : Paired p h got) {s : Sample} {h' : Handoff}
    (hr : h.receive = (.sample s, h')) : Paired p h' (got + 1) := by
  obtain ⟨s', h'', hr', -, hl'⟩ | ⟨answer, h'', hr', hne, -⟩ := hl.receive_cases
  · cases hr'.symm.trans hr
    exact hl'
  · cases hr'.symm.trans hr
    exact absurd rfl (hne s)

theorem receive_nothing (hl : Paired p h got) {answer : Handoff.Received} {h' : Handoff}
    (hr : h.receive = (answer, h')) (hne : ∀ s, answer ≠ .sample s) : Paired p h' got := by
  obtain ⟨s', h'', hr', -⟩ | ⟨answer', h'', hr', -, -, hl'⟩ := hl.receive_cases
  · cases hr'.symm.trans hr
    exact absurd rfl (hne s')
  · cases hr'.symm.trans hr
    exact hl'

theorem dropReceiver (hl : Paired p h got) : Paired p h.dropReceiver got := by
  cases hl with
  | free hst hc hn => exact .free hst hc.dropReceiver hn
  | posted hst hc hn => exact .lost hst rfl hc.dropReceiver_posted hn
  | taken hst hc hn => exact .taken hst (hc.dropReceiver_settled (by simp)) hn
  | lost hst hg hc hn => exact .lost hst rfl (hc.dropReceiver_settled (by simp)) hn
  | forsaken hp hc hn => exact of_over hp hc.dropReceiver hn

end Paired

namespace PollerTrace

variable {c : PollerTrace}

/-- A poller and its receiver are paired in every state that acts can lead to. -/
def IsPaired (c : PollerTrace) : Prop := Paired c.poller c.handoff c.receipts.length

theorem IsPaired.step (hc : c.IsPaired) (act : PollerAct) : (c.step act).IsPaired := by
  cases act with
  | poll t => exact hc.pollerMoves (Poller.poll_moves t c.poller c.handoff)
  | receive now =>
    unfold PollerTrace.step
    simp only
    split
    · split
      · rename_i s h hr
        have hl := hc.receive_sample hr
        rw [← List.length_singleton (a := (now, s)), ← List.length_append] at hl
        exact hl
      · rename_i answer h hne hr
        exact hc.receive_nothing hr fun s hs => hne s hs
    · exact hc
  | dropReceiver => exact hc.dropReceiver

theorem IsPaired.perform (hc : c.IsPaired) (acts : List PollerAct) : (c.perform acts).IsPaired := by
  induction acts generalizing c with
  | nil => exact hc
  | cons act acts ih => exact ih (hc.step act)

theorem isPaired_run (interval : Duration) (acts : List PollerAct) :
    (run interval acts).IsPaired := by
  have hstart : (PollerTrace.start interval).IsPaired := .start interval
  exact hstart.perform acts

end PollerTrace

end HealthRelay
