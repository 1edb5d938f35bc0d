import HealthRelay.Proofs.Call
import HealthRelay.Proofs.Session.Lasting

/-!
# Who has nothing to do

A side of a session rests if a turn leaves it as it is. Every move but a wait takes its side on,
which `rank` counts; so a side that rests is waiting for something, and `poll_rest` says for what: a
tick that is not due, a call whose budget is not used up, or the other side.
-/

namespace HealthRelay

namespace Poller

variable {t : Turn} {p : Poller} {h : Handoff} {x : Poller × Handoff}

/-- How far a poller has come. -/
def rank (p : Poller) : Nat :=
  3 * p.past.length +
    match p.stage with
    | .fresh => 0
    | .waiting _ => 1
    | .probing _ _ => 2
    | .handing _ _ => 0
    | .finished => 4
    | .panicked _ => 4

theorem rank_give (p : Poller) (ticker : Ticker) (call : Call) (sample : Sample) (t : Turn)
    (h : Handoff) : 3 * p.past.length + 3 ≤ (p.give ticker call sample t h).1.rank := by
  unfold Poller.give
  split
  · simp only [rank, finish, List.length_append, List.length_singleton]
    omega
  · split
    · simp only [rank, finish, List.length_append, List.length_singleton]
      omega
    · simp only [rank, List.length_append, List.length_singleton]
      omega

/-- A move that waits: for the end of a call, or for a sample to be taken. -/
theorem Move.rank (hm : Move t (p, h) x) : p.rank < x.1.rank ∨ p.rank = x.1.rank ∧
    ((∃ ticker call call', p.stage = .probing ticker call ∧
        call.look t.isGated t.now t.isCancelled t.answer = (call', .pending)) ∨
      ∃ ticker ticket, p.stage = .handing ticker ticket ∧ h.look ticket = (.pending, x.2)) := by
  cases hm with
  | wake hst => exact .inl (by simp [Poller.rank, hst])
  | stop hst => exact .inl (by simp [Poller.rank, finish, hst])
  | ask hst => exact .inl (by simp [Poller.rank, hst])
  | linger hst hl => exact .inr ⟨by simp [Poller.rank, hst], .inl ⟨_, _, _, hst, hl⟩⟩
  | panic hst =>
    left
    simp only [Poller.rank, hst, List.length_append, List.length_singleton]
    omega
  | give hst =>
    refine .inl (Nat.lt_of_lt_of_le ?_ (rank_give ..))
    simp only [Poller.rank, hst]
    omega
  | acknowledge hst => exact .inl (by simp [Poller.rank, hst])
  | refuse hst => exact .inl (by simp [Poller.rank, finish, hst])
  | wait hst hl => exact .inr ⟨rfl, .inr ⟨_, _, hst, hl⟩⟩
  | giveUp hst => exact .inl (by simp [Poller.rank, finish, hst])

theorem Moves.rank (hm : Moves t (p, h) x) : p.rank ≤ x.1.rank := by
  induction hm with
  | refl => exact Nat.le_refl _
  | tail _ hs ih =>
    rcases hs.rank with hlt | ⟨heq, -⟩
    · exact Nat.le_trans ih (Nat.le_of_lt hlt)
    · exact heq ▸ ih

/-- A turn that finds something to do begins with a move. -/
theorem poll_head (hc : t.isCancelled = false) (hp : p.isOver = false) (h : Handoff) :
    (∃ ticker, p.stage = .waiting ticker ∧ ticker.look t.now = none) ∨
      ∃ y, Move t (p, h) y ∧ Moves t y (p.poll t h) := by
  unfold poll
  cases hst : p.stage with
  | fresh =>
    refine .inr ⟨_, .wake hst, ?_⟩
    simp only [← tick_stage p (.waiting (.start p.interval t.now))]
    exact tick_moves rfl
  | waiting ticker =>
    cases hl : ticker.look t.now with
    | none => exact .inl ⟨ticker, rfl, hl⟩
    | some next =>
      refine .inr ⟨_, .ask hst hc hl, ?_⟩
      simp only [tick, hc, hl, Bool.false_eq_true, ↓reduceIte]
      rw [← observe_stage p (.probing next (.start t.now p.interval))]
      exact observe_moves rfl
  | probing ticker call => exact .inr ⟨_, observe_move hst, .refl⟩
  | handing ticker ticket =>
    right
    simp only
    split
    · rename_i h' hl
      refine ⟨_, .acknowledge hst hl, ?_⟩
      rw [← tick_stage _ (.waiting ticker)]
      exact tick_moves rfl
    · rename_i h' hl
      exact ⟨_, .refuse hst hl, .refl⟩
    · rename_i h' hl
      simp only [hc, Bool.false_eq_true, ↓reduceIte]
      exact ⟨_, .wait hst hl hc, .refl⟩
  | finished => simp [isOver, hst] at hp
  | panicked message => simp [isOver, hst] at hp

/-- What a poller that rests is waiting for. -/
theorem poll_rest (hc : t.isCancelled = false) (hp : p.isOver = false)
    (hrest : (p.poll t h).1 = p) :
    (∃ ticker, p.stage = .waiting ticker ∧ t.now < ticker.due) ∨
      (∃ ticker call call', p.stage = .probing ticker call ∧
        call.look t.isGated t.now t.isCancelled t.answer = (call', .pending)) ∨
      ∃ ticker ticket h', p.stage = .handing ticker ticket ∧ h.look ticket = (.pending, h') := by
  rcases poll_head hc hp h with ⟨ticker, hst, hl⟩ | ⟨y, hy, hm⟩
  · refine .inl ⟨ticker, hst, ?_⟩
    unfold Ticker.look at hl
    split at hl
    · cases hl
    · omega
  · have hle := hm.rank
    rw [hrest] at hle
    rcases hy.rank with hlt | ⟨-, hwait⟩
    · omega
    · rcases hwait with ⟨ticker, call, call', hst, hl⟩ | ⟨ticker, ticket, hst, hl⟩
      · exact .inr (.inl ⟨ticker, call, call', hst, hl⟩)
      · exact .inr (.inr ⟨ticker, ticket, _, hst, hl⟩)

end Poller

namespace Reporter

variable {t : Turn} {r : Reporter} {desk : Desk} {x : Reporter × Desk}

/-- How far a reporter has come. -/
def rank (r : Reporter) : Nat :=
  3 * r.past.length +
    match r.stage with
    | .receiving => 0
    | .delivering _ => 1
    | .announcing _ _ _ => 2
    | .finished => 3

theorem rank_close (r : Reporter) (d : Delivery) (outcome : DeliveryEnd) (now : Nat) :
    (r.close d outcome now).rank = 3 * r.past.length + 3 := by
  simp only [rank, close, List.length_append, List.length_singleton]
  omega

theorem rank_announce (r : Reporter) (d : Delivery) (cause : Failure) (e : Emission)
    (looked : Progress Emitted × Sink) (now : Nat) (desk : Desk) :
    3 * r.past.length + 2 ≤ (r.announce d cause e looked now desk).1.rank := by
  obtain ⟨_ | emitted, sink⟩ := looked
  · exact Nat.le_refl _
  · exact Nat.le_trans (by omega) (Nat.le_of_eq (rank_close r d _ now).symm)

/-- A move that waits: for a sample, for the end of a call, or for room. -/
theorem Move.rank (hm : Move t (r, desk) x) : r.rank < x.1.rank ∨ r.rank ≤ x.1.rank ∧
    ((r.stage = .receiving ∧ ∃ h, desk.handoff.receive = (.pending, h)) ∨
      (∃ d call, r.stage = .delivering d ∧ r.lookAt d t = (call, .pending)) ∨
      ∃ d cause e, r.stage = .announcing d cause e) := by
  cases hm with
  | take hst => exact .inl (by simp [Reporter.rank, holding, hst])
  | wait hst hr => exact .inr ⟨Nat.le_refl _, .inl ⟨hst, _, hr⟩⟩
  | leave hst => exact .inl (by simp [Reporter.rank, Reporter.done, hst])
  | linger hst hl =>
    exact .inr ⟨by simp [Reporter.rank, hst], .inr (.inl ⟨_, _, hst, hl⟩)⟩
  | succeed hst => exact .inl (by rw [rank_close]; simp [Reporter.rank, hst])
  | interrupt hst => exact .inl (by rw [rank_close]; simp [Reporter.rank, hst])
  | fail hst =>
    refine .inl (Nat.lt_of_lt_of_le ?_ (rank_announce ..))
    simp [Reporter.rank, hst]
  | announce hst =>
    refine .inr ⟨Nat.le_trans ?_ (rank_announce ..), .inr (.inr ⟨_, _, _, hst⟩)⟩
    simp [Reporter.rank, hst]

theorem Moves.rank (hm : Moves t (r, desk) x) : r.rank ≤ x.1.rank := by
  induction hm with
  | refl => exact Nat.le_refl _
  | tail _ hs ih =>
    rcases hs.rank with hlt | ⟨hle, -⟩
    · exact Nat.le_trans ih (Nat.le_of_lt hlt)
    · exact Nat.le_trans ih hle

/-- What a reporter that rests is waiting for. -/
theorem poll_rest (hr : r.isOver = false) (hrest : (r.poll t desk).1 = r) :
    (r.stage = .receiving ∧ ∃ h, desk.handoff.receive = (.pending, h)) ∨
      (∃ d call, r.stage = .delivering d ∧ r.lookAt d t = (call, .pending)) ∨
      ∃ d cause e, r.stage = .announcing d cause e := by
  obtain ⟨y, hy, hm⟩ := poll_head t hr desk
  have hle := hm.rank
  rw [hrest] at hle
  rcases hy.rank with hlt | ⟨-, hwait⟩
  · omega
  · exact hwait

end Reporter

/-! ## A session at rest -/

/-- A moment in which nobody has an answer and the token has not fired. -/
def Moment.quiet (now : Nat) : Moment :=
  { now, wallMs := 0, isShutdown := false, identity := fun _ => .error .cancelled
    probe := fun _ => .pending, deliver := fun _ => .pending }

namespace SessionDesk

variable {crew : Crew} {m : Moment} {d : SessionDesk} {a : Attempt} {run : Run} {fired : Prop}

/-- Until a call gets its answer, nobody has anything to do at this time. -/
def IsAtRest (crew : Crew) (d : SessionDesk) (now : Nat) : Prop :=
  d.poll crew (.quiet now) = d ∧ d.pollPoller crew (.quiet now) = d

instance (crew : Crew) (d : SessionDesk) (now : Nat) : Decidable (d.IsAtRest crew now) :=
  inferInstanceAs (Decidable (_ ∧ _))

theorem poller_rest (hst : d.session.stage = .running a run) (h : d.pollPoller crew m = d) :
    (run.poller.poll (d.session.pollerTurn crew m run) run.handoff).1 = run.poller := by
  rw [pollPoller_running hst] at h
  have hstage := congrArg (fun d : SessionDesk => d.session.stage) h
  rw [hst] at hstage
  injection hstage with _ hrun
  exact congrArg Run.poller hrun

theorem reporter_rest (hst : d.session.stage = .running a run) (ha : run.activity = .reporting)
    (h : d.poll crew m = d) :
    (run.reporter.poll (d.session.reporterTurn crew m run)
      ⟨run.handoff, d.sink, d.journal⟩).1 = run.reporter := by
  have hpoll : d.poll crew m = d.report a run crew m := by
    unfold poll
    simp only [hst, ha]
  rw [hpoll] at h
  rcases d.report_eq a run crew m with ⟨-, hs⟩ | ⟨-, hs⟩
  · have hstage := congrArg (fun d : SessionDesk => d.session.stage) (hs.symm.trans h)
    rw [hst] at hstage
    injection hstage with _ hrun
    exact congrArg Run.reporter hrun
  · -- once its reporter is done, a run goes on to something else
    obtain ⟨activity, hsession, hne, -⟩ := (SessionDesk.mk d.session _ _).join_session a
      (run.afterReporter _).closing m
    rw [← hs, h] at hsession
    by_cases hover : activity = .over
    · rw [Session.put_over hover] at hsession
      have hstage := congrArg Session.stage hsession
      rw [hst] at hstage
      cases hstage
    · rw [Session.put_on hover] at hsession
      have hstage := congrArg Session.stage hsession
      rw [hst] at hstage
      injection hstage with _ hrun
      exact absurd (ha.symm.trans (congrArg Run.activity hrun)).symm hne

end SessionDesk

end HealthRelay
