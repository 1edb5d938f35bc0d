import HealthRelay.Proofs.Session.Shutdown

/-!
# What is left to do after shutdown

With a cancelled token a turn of the poller ends it, and every move of the reporter that changes
anything takes it nearer to its end, which `backlog` measures. The exceptions are calls that do not
keep to their scopes: such a call is looked at, and the turn waits for it as long as it pleases.
-/

namespace HealthRelay

/-- A cancelled token leaves a call pending only if the call does not keep to its scope. -/
theorem Call.pending_of_cancelled {α : Type} {c c' : Call} {isGated : Bool} {now : Nat}
    {answer : Progress α} (hl : c.look isGated now true answer = (c', .pending)) :
    isGated = false ∧ answer = .pending := by
  cases isGated with
  | true =>
    rw [Call.look_cancelled] at hl
    cases hl
  | false =>
    cases answer with
    | pending => exact ⟨rfl, rfl⟩
    | ready a => cases hl

namespace Poller

/-- The look of this turn finds a probe that does not keep to its scope, and finds it pending. -/
def Awaits (p : Poller) (t : Turn) : Prop :=
  (∃ ticker call, p.stage = .probing ticker call) ∧ t.isGated = false ∧ t.answer = .pending

variable {t : Turn} {p : Poller} {h : Handoff}

theorem poll_over (hp : p.isOver = true) (t : Turn) (h : Handoff) : p.poll t h = (p, h) := by
  unfold poll
  cases hst : p.stage <;> simp [isOver, hst] at hp ⊢

theorem tick_isOver (hc : t.isCancelled = true) (p : Poller) (ticker : Ticker) (h : Handoff) :
    (p.tick ticker t h).1.isOver = true := by
  simp [tick, hc, finish, isOver]

theorem observe_isOver (hc : t.isCancelled = true) {ticker : Ticker} {call : Call}
    (hst : p.stage = .probing ticker call) (h : Handoff) :
    (p.observe ticker call t h).1.isOver = true ∨ p.Awaits t := by
  unfold observe
  split
  · rename_i call' hl
    rw [hc] at hl
    obtain ⟨hg, ha⟩ := Call.pending_of_cancelled hl
    exact .inr ⟨⟨ticker, call, hst⟩, hg, ha⟩
  · left
    split
    · exact give_isOver _ _ _ _ hc _
    · rfl

/-- A cancelled token ends the poller in one turn, unless its probe does not keep to its scope. -/
theorem poll_isOver (hc : t.isCancelled = true) (p : Poller) (h : Handoff) :
    (p.poll t h).1.isOver = true ∨ p.Awaits t := by
  unfold poll
  cases hst : p.stage with
  | fresh => exact .inl (tick_isOver hc _ _ _)
  | waiting ticker => exact .inl (tick_isOver hc _ _ _)
  | probing ticker call => exact observe_isOver hc hst h
  | handing ticker ticket =>
    left
    simp only
    split
    · exact tick_isOver hc _ _ _
    · rfl
    · simp [hc, finish, isOver]
  | finished => exact .inl (by simp [isOver, hst])
  | panicked message => exact .inl (by simp [isOver, hst])

theorem Moves.parked (hc : t.isCancelled = true) {done : List Sample} (hl : Linked True p h done)
    {x : Poller × Handoff} (hm : Moves t (p, h) x) :
    Linked True x.1 x.2 done ∧ (x.2.parked = h.parked ∨ x.2.parked = []) := by
  induction hm with
  | refl => exact ⟨hl, .inl rfl⟩
  | tail _ hstep ih =>
    obtain ⟨hl', hp⟩ := ih
    refine ⟨hl'.pollerMove (fun _ => trivial) hstep, ?_⟩
    rcases hstep.parked hc hl' with hs | hs
    · exact hp.imp hs.trans hs.trans
    · exact .inr hs

end Poller

namespace Reporter

/-- The look of this turn finds a delivery that does not keep to its scope, and finds it pending. -/
def Awaits (r : Reporter) (t : Turn) : Prop :=
  (∃ d, r.stage = .delivering d) ∧ t.isGated r.past.length = false ∧
    t.answer r.past.length = .pending

/-- How many moves a reporter has before it at most, the samples in the handoff aside. -/
def weight (r : Reporter) : Nat :=
  match r.stage with
  | .receiving => 1
  | .delivering _ => 2
  | .announcing _ _ _ => 2
  | .finished => 0

/-- How many moves a reporter has before it at most. -/
def backlog (r : Reporter) (h : Handoff) : Nat := r.weight + 2 * h.parked.length

variable {t : Turn} {r : Reporter} {desk : Desk} {fired : Prop} {p : Poller} {x : Reporter × Desk}

/-- The end of a delivery leaves only the samples in the handoff. -/
theorem backlog_announce {looked : Progress Emitted × Sink} (hl : looked.1.isReady = true)
    (r : Reporter) (d : Delivery) (cause : Failure) (e : Emission) (now : Nat) (desk : Desk) :
    (r.announce d cause e looked now desk).1.backlog
        (r.announce d cause e looked now desk).2.handoff =
      1 + 2 * desk.handoff.parked.length := by
  obtain ⟨_ | emitted, sink⟩ := looked
  · cases hl
  · rfl

/-- With a cancelled token a move changes nothing, or waits for a delivery, or goes on. -/
theorem Move.backlog (hm : Move t (r, desk) x) (hc : t.isCancelled = true)
    (hl : Linked fired p desk.handoff r.samples) :
    (r.stage = .receiving ∧ p.isOver = false ∧ x = (r, desk)) ∨
      x.1.backlog x.2.handoff < r.backlog desk.handoff ∨
      (r.Awaits t ∧ x.1.backlog x.2.handoff = r.backlog desk.handoff) := by
  cases hm with
  | take hst hr =>
    obtain ⟨-, hp, hp'⟩ := hl.receive_sample hr
    refine .inr (.inl ?_)
    simp [Reporter.backlog, weight, holding, hst, hp, hp']
  | wait hst hr =>
    obtain ⟨rfl, hp⟩ := hl.receive_pending hr
    exact .inl ⟨hst, hp, rfl⟩
  | leave hst hr =>
    obtain ⟨-, -, hp⟩ := hl.receive_closed hr
    refine .inr (.inl ?_)
    simp only [Reporter.backlog, weight, Reporter.done, hst, hp, List.length_nil]
    omega
  | linger hst hl' =>
    rw [lookAt, hc] at hl'
    obtain ⟨hg, ha⟩ := Call.pending_of_cancelled hl'
    refine .inr (.inr ⟨⟨⟨_, hst⟩, hg, ha⟩, ?_⟩)
    simp [Reporter.backlog, weight, hst]
  | succeed hst => exact .inr (.inl (by simp [Reporter.backlog, weight, close, hst]))
  | interrupt hst => exact .inr (.inl (by simp [Reporter.backlog, weight, close, hst]))
  | fail hst hl' ha hne =>
    refine .inr (.inl ?_)
    rw [hc, backlog_announce (Emission.start_isReady _ _)]
    simp [Reporter.backlog, weight, hst]
  | announce hst =>
    refine .inr (.inl ?_)
    rw [hc, backlog_announce rfl]
    simp [Reporter.backlog, weight, hst]

end Reporter

namespace Run

variable {fired : Prop} {run : Run} {t : Reporter.Turn} {sink : Sink} {journal : List Entry}
  {x : Reporter × Desk}

theorem Sound.backlog (hs : run.Sound fired) (ha : run.activity = .reporting)
    (hc : t.isCancelled = true)
    (hm : Reporter.Moves t (run.reporter, ⟨run.handoff, sink, journal⟩) x) :
    (run.afterReporter x).Sound fired ∧ (x = (run.reporter, ⟨run.handoff, sink, journal⟩) ∨
      x.1.backlog x.2.handoff < run.reporter.backlog run.handoff ∨
      (run.reporter.Awaits t ∧ x.1.backlog x.2.handoff ≤ run.reporter.backlog run.handoff)) := by
  induction hm with
  | refl => exact ⟨hs, .inl rfl⟩
  | @tail b x _ hstep ih =>
    obtain ⟨hb, hcase⟩ := ih
    have hstep' := hstep.backlog hc hb.linked
    refine ⟨hb.reporterMove ha hstep, ?_⟩
    rcases hcase with rfl | hlt | ⟨hw, hle⟩
    · exact hstep'.imp (·.2.2) (Or.imp_right fun h => ⟨h.1, Nat.le_of_eq h.2⟩)
    · refine .inr (.inl ?_)
      rcases hstep' with ⟨-, -, rfl⟩ | h | ⟨-, h⟩
      · exact hlt
      · exact Nat.lt_trans h hlt
      · exact h ▸ hlt
    · refine .inr (.inr ⟨hw, ?_⟩)
      rcases hstep' with ⟨-, -, rfl⟩ | h | ⟨-, h⟩
      · exact hle
      · exact Nat.le_trans (Nat.le_of_lt h) hle
      · exact h ▸ hle

/-- Without a poller the reporter never waits for anything but a delivery. -/
theorem Sound.backlog_alone (hs : run.Sound fired) (ha : run.activity = .reporting)
    (hc : t.isCancelled = true) (hp : run.poller.isOver = true)
    (hr : run.reporter.isOver = false) :
    let x := run.reporter.poll t ⟨run.handoff, sink, journal⟩
    x.1.backlog x.2.handoff < run.reporter.backlog run.handoff ∨ run.reporter.Awaits t := by
  obtain ⟨y, hy, hm⟩ := Reporter.poll_head t hr ⟨run.handoff, sink, journal⟩
  have hs' := hs.reporterMove ha hy
  rcases hy.backlog hc hs.linked with ⟨-, h, -⟩ | hlt | ⟨hw, -⟩
  · simp [hp] at h
  · left
    rcases (hs'.backlog ha hc hm).2 with h | h | ⟨-, h⟩
    · rw [h]
      exact hlt
    · exact Nat.lt_trans h hlt
    · exact Nat.lt_of_le_of_lt h hlt
  · exact .inr hw

end Run

end HealthRelay
