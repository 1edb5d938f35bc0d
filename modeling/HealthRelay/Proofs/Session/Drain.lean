import HealthRelay.Proofs.Session.Attempts
import HealthRelay.Proofs.Session.Backlog
import Mathlib.Algebra.Order.BigOperators.Group.Finset

/-!
# Shutdown drains a session

`remaining` counts what a call still has to do once its token has fired: the run's end, the
poller's end, and the backlog of the reporter. A turn changes nothing, or takes the call nearer to
its end, or waits for a call of a collaborator that does not keep to its scope; and until the call
is over, a turn of the session or a turn of the poller is not of the first kind. So a call whose
token has fired is never stuck, and it ends after a bounded number of steps besides its waits.
-/

namespace HealthRelay

/-- A call of a collaborator, by its number over all runs. -/
inductive Callee where
  | probe (n : Nat)
  | deliver (n : Nat)
deriving DecidableEq, Repr

/-- How many steps a run still has before it at most. -/
def Run.remaining (run : Run) : Nat :=
  match run.activity with
  | .reporting => 1 + (if run.poller.isOver then 0 else 1) + run.reporter.backlog run.handoff
  | .over => 0
  | _ => 1

namespace Run

variable {run : Run}

theorem remaining_reporting (ha : run.activity = .reporting) : run.remaining =
    1 + (if run.poller.isOver then 0 else 1) + run.reporter.backlog run.handoff := by
  simp only [remaining, ha]

theorem remaining_afterReporter (ha : run.activity = .reporting) (x : Reporter × Desk) :
    (run.afterReporter x).remaining =
      1 + (if run.poller.isOver then 0 else 1) + x.1.backlog x.2.handoff := by
  simp only [remaining, afterReporter, ha]

theorem remaining_afterPoller (ha : run.activity = .reporting) (x : Poller × Handoff) :
    (run.afterPoller x).remaining =
      1 + (if x.1.isOver then 0 else 1) + run.reporter.backlog x.2 := by
  simp only [remaining, afterPoller, ha]

variable {fired : Prop}

/-- Everything after the reporter's end finds the poller over. -/
theorem Sound.alone (hs : run.Sound fired) (ha : run.activity ≠ .reporting) :
    run.poller.isOver = true := hs.left (hs.turned ha)

/-- With a cancelled token a turn of the poller ends it, or waits for its probe. -/
theorem Sound.poll_remaining (hs : run.Sound fired) (hp : run.poller.isOver = false)
    {t : Poller.Turn} (hc : t.isCancelled = true) :
    let run' := run.afterPoller (run.poller.poll t run.handoff)
    run'.remaining < run.remaining ∨
      (run.poller.Awaits t ∧ run'.remaining ≤ run.remaining) := by
  intro run'
  -- a poller that is on keeps the session with its reporter
  have ha : run.activity = .reporting := by
    by_cases ha : run.activity = .reporting
    · exact ha
    · simp [hs.alone ha] at hp
  have hbacklog : run.reporter.backlog run'.handoff ≤ run.reporter.backlog run.handoff := by
    unfold Reporter.backlog
    rcases (Poller.Moves.parked hc (hs.linked.mono fun _ => trivial)
      (Poller.poll_moves t run.poller run.handoff)).2 with hparked | hparked
    · exact Nat.le_of_eq (by rw [← hparked]; rfl)
    · have hnil : run'.handoff.parked = [] := hparked
      simp [hnil]
  have hrem : run'.remaining =
      1 + (if run'.poller.isOver then 0 else 1) + run.reporter.backlog run'.handoff :=
    remaining_afterPoller ha _
  rw [hrem, remaining_reporting ha, hp]
  simp only [Bool.false_eq_true, ↓reduceIte]
  rcases Poller.poll_isOver hc run.poller run.handoff with hx | hw
  · have hover : run'.poller.isOver = true := hx
    rw [if_pos hover]
    exact .inl (by omega)
  · refine .inr ⟨hw, ?_⟩
    split <;> omega

end Run

namespace Scene

/-- The call that a turn finds pending although the token has fired. -/
def waitsFor? (crew : Crew) (c : Scene) (t : SceneTurn) : Option Callee :=
  match t, c.desk.session.run? with
  | .poller m, some run =>
    let n := c.desk.session.probesBefore + run.poller.past.length
    if run.poller.inFlight?.isSome && !crew.probeIsGated n && !(m.probe n).isReady then
      some (.probe n)
    else none
  | .session m, some run =>
    let n := c.desk.session.deliveriesBefore + run.reporter.past.length
    if run.reporter.working?.isSome && !crew.deliverIsGated n && !(m.deliver n).isReady then
      some (.deliver n)
    else none
  | _, _ => none

/-- Whether a turn does anything: it changes the session, or it waits for a collaborator. -/
def isStep (crew : Crew) (c : Scene) (t : SceneTurn) : Bool :=
  decide ((c.apply crew t).desk.session ≠ c.desk.session) || (c.waitsFor? crew t).isSome

/-- How many turns of a tape do anything. -/
def steps (crew : Crew) : Scene → List SceneTurn → Nat
  | _, [] => 0
  | c, t :: tape => (if c.isStep crew t then 1 else 0) + steps crew (c.apply crew t) tape

/-- The calls that the turns of a tape wait for. -/
def waits (crew : Crew) : Scene → List SceneTurn → List Callee
  | _, [] => []
  | c, t :: tape => (c.waitsFor? crew t).toList ++ waits crew (c.apply crew t) tape

/-- How many steps a call whose token has fired still has before it at most. -/
def remaining (c : Scene) : Nat :=
  match c.opening with
  | none => 4
  | some _ =>
    match c.desk.session.stage with
    | .idle => 0
    | .refusing _ _ => 1
    | .running _ run => run.remaining

end Scene

namespace SessionDesk

variable {crew : Crew} {m : Moment} {d : SessionDesk} {a : Attempt} {run : Run} {fired : Prop}

theorem join_over (hm : m.isShutdown = true) (hp : run.poller.isOver = true) (d : SessionDesk)
    (a : Attempt) :
    (d.join a run m).session = d.session.put a { run with activity := .over } m.now := by
  unfold join
  cases hst : run.poller.stage with
  | finished => exact d.finish_session a run m.now
  | panicked message =>
    simp only
    rw [mourn_session, hm, Emission.start_isReady]
    rfl
  | fresh => simp [Poller.isOver, hst] at hp
  | waiting ticker => simp [Poller.isOver, hst] at hp
  | probing ticker call => simp [Poller.isOver, hst] at hp
  | handing ticker ticket => simp [Poller.isOver, hst] at hp

theorem refuse_idle {looked : Progress Emitted × Sink} (hl : looked.1.isReady = true)
    (d : SessionDesk) (a : Attempt) (e : Emission) (now : Nat) :
    (d.refuse a e looked now).session.stage = .idle := by
  obtain ⟨_ | emitted, sink⟩ := looked
  · cases hl
  · rfl

theorem poll_reporting (hst : d.session.stage = .running a run) (ha : run.activity = .reporting) :
    d.poll crew m = d.report a run crew m := by
  unfold poll
  simp only [hst, ha]

theorem poll_ends (crew : Crew) (hm : m.isShutdown = true) (hs : run.Sound fired)
    (hst : d.session.stage = .running a run) (ha : run.activity ≠ .reporting)
    (hon : run.activity ≠ .over) :
    (d.poll crew m).session = d.session.put a { run with activity := .over } m.now := by
  unfold poll
  simp only [hst]
  cases hact : run.activity with
  | reporting => exact absurd hact ha
  | joining => exact join_over hm (hs.alone ha) d a
  | mourning e =>
    simp only
    rw [mourn_session, hm, Emission.look_cancelled]
    rfl
  | «over» => exact absurd hact hon

/-- With a fired token the reporter's turn ends the run if it ends the reporter. -/
theorem report_put (hm : m.isShutdown = true) (hs : run.Sound fired)
    (ha : run.activity = .reporting) (d : SessionDesk) (a : Attempt) :
    let x := run.reporter.poll (d.session.reporterTurn crew m run) ⟨run.handoff, d.sink, d.journal⟩
    ∃ run', (d.report a run crew m).session = d.session.put a run' m.now ∧
      (x.1.isOver = false ∧ run' = run.afterReporter x ∨ run'.remaining = 0) := by
  intro x
  have hc := d.session.reporterTurn_isCancelled hm crew run
  have hs' := (hs.backlog ha hc (Reporter.poll_moves (d.session.reporterTurn crew m run)
    run.reporter ⟨run.handoff, d.sink, d.journal⟩)).1
  rcases d.report_eq a run crew m with ⟨hx, heq⟩ | ⟨hover, heq⟩
  · have hon : (run.afterReporter x).activity ≠ .over := by simp [Run.afterReporter, ha]
    exact ⟨_, by rw [heq, Session.put_on hon], .inl ⟨hx, rfl⟩⟩
  · refine ⟨{ (run.afterReporter x).closing with activity := .over }, ?_, .inr rfl⟩
    have hp : (run.afterReporter x).closing.poller.isOver = true := hs'.left hover
    rw [heq, join_over hm hp]

/-- It changes nothing, or goes on, or waits for a delivery. -/
theorem report_remaining (crew : Crew) (hm : m.isShutdown = true) (hs : run.Sound fired)
    (ha : run.activity = .reporting) (d : SessionDesk) (a : Attempt) :
    ∃ run', (d.report a run crew m).session = d.session.put a run' m.now ∧
      (run' = run ∨ run'.remaining < run.remaining ∨
        (run.reporter.Awaits (d.session.reporterTurn crew m run) ∧
          run'.remaining ≤ run.remaining)) := by
  have hc := d.session.reporterTurn_isCancelled hm crew run
  obtain ⟨-, hcase⟩ := hs.backlog ha hc (Reporter.poll_moves (d.session.reporterTurn crew m run)
    run.reporter ⟨run.handoff, d.sink, d.journal⟩)
  obtain ⟨run', hput, ⟨-, hrun⟩ | hrun⟩ := report_put hm hs ha d a
  · refine ⟨run', hput, ?_⟩
    rw [hrun, Run.remaining_afterReporter ha, Run.remaining_reporting ha]
    rcases hcase with h | h | ⟨hw, h⟩
    · rw [h]
      exact .inl rfl
    · exact .inr (.inl (by omega))
    · exact .inr (.inr ⟨hw, by omega⟩)
  · refine ⟨run', hput, .inr (.inl ?_)⟩
    rw [hrun, Run.remaining_reporting ha]
    omega

/-- Without a poller it goes on or waits for a delivery. -/
theorem report_alone (crew : Crew) (hm : m.isShutdown = true) (hs : run.Sound fired)
    (ha : run.activity = .reporting) (hp : run.poller.isOver = true)
    (d : SessionDesk) (a : Attempt) :
    (∃ run', (d.report a run crew m).session = d.session.put a run' m.now ∧
      run'.remaining < run.remaining) ∨
      run.reporter.Awaits (d.session.reporterTurn crew m run) := by
  have hc := d.session.reporterTurn_isCancelled hm crew run
  obtain ⟨run', hput, ⟨hx, hrun⟩ | hrun⟩ := report_put hm hs ha d a
  · cases hr : run.reporter.isOver with
    | true => simp [Reporter.poll_over _ hr, hr] at hx
    | false =>
      rcases hs.backlog_alone ha hc hp hr with h | hw
      · refine .inl ⟨run', hput, ?_⟩
        rw [hrun, Run.remaining_afterReporter ha, Run.remaining_reporting ha]
        exact Nat.add_lt_add_left h _
      · exact .inr hw
  · refine .inl ⟨run', hput, ?_⟩
    rw [hrun, Run.remaining_reporting ha]
    omega

end SessionDesk

namespace Scene

variable {crew : Crew} {c : Scene} {m : Moment} {s : Session} {a : Attempt} {run : Run} {n : Nat}
  {fired : Prop}

/-! ## What a turn does to what remains -/

/-- What a turn can do once the token has fired. -/
inductive Goes (crew : Crew) (c : Scene) (t : SceneTurn) : Prop where
  | nowhere (hs : (c.apply crew t).desk.session = c.desk.session)
      (hr : (c.apply crew t).remaining = c.remaining)
  | on (hr : (c.apply crew t).remaining < c.remaining)
  | slowly (hw : (c.waitsFor? crew t).isSome = true)
      (hr : (c.apply crew t).remaining ≤ c.remaining)

theorem remaining_put {m₀ : Moment} (hopen : c.opening = some m₀)
    (hs : c.desk.session = s.put a run n) : c.remaining = run.remaining := by
  unfold remaining
  rw [hopen, hs]
  by_cases hover : run.activity = .over
  · rw [Session.put_over hover]
    simp only [Run.remaining, hover]
  · rw [Session.put_on hover]

theorem run?_on (hs : c.desk.session = s.put a run n) (hon : run.activity ≠ .over) :
    c.desk.session.run? = some run := by
  rw [hs, Session.put_on hon]
  rfl

theorem waitsFor?_session (hr : c.desk.session.run? = some run)
    (hw : run.reporter.Awaits (c.desk.session.reporterTurn crew m run)) :
    (c.waitsFor? crew (.session m)).isSome = true := by
  obtain ⟨⟨d, hst⟩, hg, ha⟩ := hw
  simp only [Session.reporterTurn] at hg ha
  simp [waitsFor?, hr, Reporter.working?, hst, hg, ha, Progress.isReady]

theorem waitsFor?_poller (hr : c.desk.session.run? = some run)
    (hw : run.poller.Awaits (c.desk.session.pollerTurn crew m run)) :
    (c.waitsFor? crew (.poller m)).isSome = true := by
  obtain ⟨⟨ticker, call, hst⟩, hg, ha⟩ := hw
  simp only [Session.pollerTurn] at hg ha
  simp [waitsFor?, hr, Poller.inFlight?, hst, hg, ha, Progress.isReady]

theorem goes_nowhere {t : SceneTurn} (ho : (c.apply crew t).opening = c.opening)
    (hs : (c.apply crew t).desk.session = c.desk.session) : c.Goes crew t :=
  .nowhere hs (by unfold remaining; rw [ho, hs])

theorem goes_poller {m₀ : Moment} (hopen : c.opening = some m₀) (hm : m.isShutdown = true)
    (hs : c.desk.session = s.put a run n) (hsound : run.Sound fired) :
    c.Goes crew (.poller m) ∧ (run.poller.isOver = false →
      (c.apply crew (.poller m)).remaining < c.remaining ∨
        (c.waitsFor? crew (.poller m)).isSome = true) := by
  by_cases hover : run.activity = .over
  · have hidle : c.desk.session.stage = .idle := by rw [hs, Session.put_over hover]
    have hpoll : c.desk.pollPoller crew m = c.desk := SessionDesk.pollPoller_idle hidle
    refine ⟨goes_nowhere rfl (congrArg _ hpoll), fun hp => ?_⟩
    simp [hsound.alone (show run.activity ≠ .reporting by simp [hover])] at hp
  have hst : c.desk.session.stage = .running a run := by rw [hs, Session.put_on hover]
  have hput : (c.desk.pollPoller crew m).session = c.desk.session.put a _ n :=
    SessionDesk.pollPoller_put hst hover n
  cases hp : run.poller.isOver with
  | true =>
    rw [Poller.poll_over hp] at hput
    exact ⟨goes_nowhere rfl (hput.trans (Session.put_self hst hover n)), fun h => by cases h⟩
  | false =>
    have hrem := remaining_put hopen hs
    have hrem' : (c.apply crew (.poller m)).remaining = _ := remaining_put hopen hput
    rcases hsound.poll_remaining hp (c.desk.session.pollerTurn_isCancelled hm crew run) with
      hlt | ⟨hw, hle⟩
    · rw [← hrem, ← hrem'] at hlt
      exact ⟨.on hlt, fun _ => .inl hlt⟩
    · rw [← hrem, ← hrem'] at hle
      have hw' := waitsFor?_poller (run?_on hs hover) hw
      exact ⟨.slowly hw' hle, fun _ => .inr hw'⟩

theorem apply_session_put {m₀ : Moment} (hopen : c.opening = some m₀) {run' : Run} {now : Nat}
    (hp : (c.desk.poll crew m).session = c.desk.session.put a run' now) :
    (c.apply crew (.session m)).remaining = run'.remaining := by
  have hopen' : (c.apply crew (.session m)).opening = some m₀ := by rw [apply_session hopen, hopen]
  refine remaining_put (n := now) hopen' (a := a) (s := c.desk.session) ?_
  rw [apply_session hopen]
  exact hp

theorem apply_session_ends {m₀ : Moment} (hopen : c.opening = some m₀) (hm : m.isShutdown = true)
    (hs : c.desk.session = s.put a run n) (hsound : run.Sound fired)
    (ha : run.activity ≠ .reporting) (hover : run.activity ≠ .over) :
    (c.apply crew (.session m)).remaining < c.remaining := by
  have hst : c.desk.session.stage = .running a run := by rw [hs, Session.put_on hover]
  rw [apply_session_put hopen (SessionDesk.poll_ends crew hm hsound hst ha hover),
    remaining_put hopen hs]
  cases hact : run.activity <;> simp [Run.remaining, hact] at ha hover ⊢

/-- A turn of the session ends the run, or goes on with the reporter, or waits for its delivery. -/
theorem goes_session {m₀ : Moment} (hopen : c.opening = some m₀) (hm : m.isShutdown = true)
    (hs : c.desk.session = s.put a run n) (hsound : run.Sound fired) :
    c.Goes crew (.session m) := by
  by_cases hover : run.activity = .over
  · have hidle : c.desk.session.stage = .idle := by rw [hs, Session.put_over hover]
    refine goes_nowhere ?_ ?_ <;> rw [apply_session hopen]
    rw [SessionDesk.poll_idle hidle]
  have hst : c.desk.session.stage = .running a run := by rw [hs, Session.put_on hover]
  by_cases ha : run.activity = .reporting
  · obtain ⟨run', hput, hcase⟩ := SessionDesk.report_remaining crew hm hsound ha c.desk a
    rw [← SessionDesk.poll_reporting hst ha] at hput
    have hrem := remaining_put hopen hs
    have hrem' := apply_session_put hopen hput
    rcases hcase with hrun | hlt | ⟨hw, hle⟩
    · rw [hrun, Session.put_self hst hover] at hput
      refine goes_nowhere ?_ ?_ <;> rw [apply_session hopen]
      exact hput
    · exact .on (by rw [hrem, hrem']; exact hlt)
    · exact .slowly (waitsFor?_session (run?_on hs hover) hw) (by rw [hrem, hrem']; exact hle)
  · exact .on (apply_session_ends hopen hm hs hsound ha hover)

theorem goes_session_alone {m₀ : Moment} (hopen : c.opening = some m₀) (hm : m.isShutdown = true)
    (hs : c.desk.session = s.put a run n) (hsound : run.Sound fired)
    (hp : run.poller.isOver = true) (hover : run.activity ≠ .over) :
    (c.apply crew (.session m)).remaining < c.remaining ∨
      (c.waitsFor? crew (.session m)).isSome = true := by
  by_cases ha : run.activity = .reporting
  · have hst : c.desk.session.stage = .running a run := by rw [hs, Session.put_on hover]
    rcases SessionDesk.report_alone crew hm hsound ha hp c.desk a with ⟨run', hput, hlt⟩ | hw
    · rw [← SessionDesk.poll_reporting hst ha] at hput
      exact .inl (by rw [remaining_put hopen hs, apply_session_put hopen hput]; exact hlt)
    · exact .inr (waitsFor?_session (run?_on hs hover) hw)
  · exact .inl (apply_session_ends hopen hm hs hsound ha hover)

/-! ## Before and without a run -/

theorem remaining_ahead (hopen : c.opening = none) : c.remaining = 4 := by
  unfold remaining
  rw [hopen]

theorem remaining_refusing {m₀ : Moment} (hopen : c.opening = some m₀) {e : Emission}
    (hst : c.desk.session.stage = .refusing a e) : c.remaining = 1 := by
  unfold remaining
  rw [hopen, hst]

theorem remaining_idle {m₀ : Moment} (hopen : c.opening = some m₀)
    (hst : c.desk.session.stage = .idle) : c.remaining = 0 := by
  unfold remaining
  rw [hopen, hst]

theorem apply_first (hopen : c.opening = none) (hm : m.isShutdown = true) :
    (c.apply crew (.session m)).remaining < c.remaining := by
  rw [apply_session_first hopen, remaining_ahead hopen]
  cases hid : m.identity c.desk.session.past.length with
  | error cause =>
    rw [SessionDesk.begin_error hid, hm]
    have hidle := SessionDesk.refuse_idle (Emission.start_isReady (SessionDesk.refusal cause)
      c.desk.sink)
    rw [remaining_idle rfl (hidle ..)]
    omega
  | ok id =>
    rw [SessionDesk.begin_ok hid]
    have hsound : (Run.start c.desk.session.config crew id).Sound True := Run.sound_start _ crew id
    have hstart : (Run.start c.desk.session.config crew id).remaining = 3 := rfl
    obtain ⟨run', hput, hcase⟩ := SessionDesk.report_remaining crew hm hsound rfl
      (({ c.desk with session := (c.desk.session.write .init).write .running } : SessionDesk).tell
        [.sessionStarted id c.desk.session.config.interval]) ⟨m.now, .init, some id, none, none⟩
    rw [remaining_put rfl hput]
    rcases hcase with h | h | ⟨-, h⟩
    · rw [h, hstart]
      omega
    · omega
    · omega

theorem apply_refusing {m₀ : Moment} (hopen : c.opening = some m₀) (hm : m.isShutdown = true)
    {e : Emission} (hst : c.desk.session.stage = .refusing a e) :
    (c.apply crew (.session m)).remaining < c.remaining := by
  have hrem' : (Scene.mk c.before c.opening (c.desk.refuse a e
      (.ready .cancelled, c.desk.sink.withdraw e.ticket) m.now)).remaining = 0 :=
    remaining_idle hopen rfl
  rw [apply_session hopen, SessionDesk.poll_refusing hst, hm, Emission.look_cancelled, hrem',
    remaining_refusing hopen hst]
  omega

/-- **Every turn after the token has fired goes on, or waits for a collaborator, or does
nothing.** -/
theorem Stands.goes (crew : Crew) (hst : c.Stands (Run.Sound fired)) {t : SceneTurn}
    (ht : t.IsLate) : c.Goes crew t := by
  cases t with
  | sink sink => exact goes_nowhere rfl rfl
  | poller m =>
    have hm := ht m rfl
    have hquiet : c.desk.pollPoller crew m = c.desk → c.Goes crew (.poller m) := fun h =>
      goes_nowhere rfl (congrArg _ h)
    cases hst with
    | ahead _ hidle hs => exact hquiet (SessionDesk.pollPoller_idle (hs ▸ hidle))
    | refusing _ _ hs => exact hquiet (SessionDesk.pollPoller_refusing (by rw [hs]))
    | refused _ _ hs => exact hquiet (SessionDesk.pollPoller_idle (by rw [hs]))
    | launched hopen _ hs hi => exact (goes_poller hopen hm hs hi).1
  | session m =>
    have hm := ht m rfl
    cases hst with
    | ahead hopen _ _ => exact .on (apply_first hopen hm)
    | refusing hopen _ hs => exact .on (apply_refusing hopen hm (by rw [hs]))
    | refused hopen _ hs =>
      have hpoll : c.desk.poll crew m = c.desk := SessionDesk.poll_idle (by rw [hs])
      refine goes_nowhere ?_ ?_ <;> rw [apply_session hopen]
      rw [hpoll]
    | launched hopen _ hs hi => exact goes_session hopen hm hs hi

/-! ## What remains is enough for all steps -/

theorem Stands.remaining_le (hst : c.Stands (Run.Sound fired)) : c.remaining ≤ 6 := by
  cases hst with
  | ahead hopen hidle hs =>
    rw [remaining_ahead hopen]
    omega
  | refusing hopen hid hs =>
    rw [remaining_refusing hopen (by rw [hs])]
    omega
  | refused hopen hid hs =>
    rw [remaining_idle hopen (by rw [hs])]
    omega
  | launched hopen hid hs hi =>
    rename_i m₀ run n
    rw [remaining_put hopen hs]
    have hparked := hi.linked.parked_length_le
    have hweight : run.reporter.weight ≤ 2 := by
      unfold Reporter.weight
      split <;> omega
    unfold Run.remaining Reporter.backlog
    split
    · split <;> omega
    · omega
    · omega

/-- What remains pays for every step that is no wait. -/
theorem Stands.steps_le (crew : Crew) {late : List SceneTurn} (hst : c.Stands (Run.Sound True))
    (hlate : ∀ t ∈ late, t.IsLate) : c.steps crew late + (c.play crew late).remaining ≤
      c.remaining + (c.waits crew late).length := by
  induction late generalizing c with
  | nil =>
    show 0 + c.remaining ≤ c.remaining + 0
    omega
  | cons t late ih =>
    -- the first turn is paid for, and it leads to a call for which the rest is paid
    have hgoes := hst.goes crew (hlate t (by simp))
    have hst' : (c.apply crew t).Stands (Run.Sound True) :=
      hst.apply t (fun m _ => Run.keeps_sound crew fun _ => trivial) fun _ id =>
        Run.sound_start _ crew id
    have hrest := ih hst' fun t' ht' => hlate t' (by simp [ht'])
    have hplay : c.play crew (t :: late) = (c.apply crew t).play crew late := rfl
    simp only [steps, waits, hplay, List.length_append]
    cases hgoes with
    | nowhere hs hr =>
      have hstep : c.isStep crew t = (c.waitsFor? crew t).isSome := by simp [isStep, hs]
      cases hw : c.waitsFor? crew t <;> simp [hstep, hw] <;> omega
    | on hr => split <;> omega
    | slowly hw hr =>
      obtain ⟨k, hk⟩ := Option.isSome_iff_exists.mp hw
      simp only [hk, Option.toList_some, List.length_singleton]
      split <;> omega

/-! ## A call is never stuck -/

theorem isStep_of_lt {m₀ : Moment} (hopen : c.opening = some m₀) {t : SceneTurn}
    (hlt : (c.apply crew t).remaining < c.remaining ∨ (c.waitsFor? crew t).isSome = true) :
    c.isStep crew t = true := by
  rcases hlt with hlt | hw
  · have hne : (c.apply crew t).desk.session ≠ c.desk.session := by
      intro hs
      have hopen' : (c.apply crew t).opening = some m₀ := play_opening hopen [t]
      unfold remaining at hlt
      rw [hopen, hopen', hs] at hlt
      exact Nat.lt_irrefl _ hlt
    simp [isStep, hne]
  · simp [isStep, hw]

theorem Stands.written_lt {I : Run → Prop} (hst : c.Stands I) {m₀ : Moment}
    (hopen : c.opening = some m₀) : c.before.written.length < c.desk.session.written.length := by
  rw [hst.written hopen, List.length_append]
  cases (m₀.identity c.before.past.length).toOption <;> simp only <;> split <;>
    simp [Phase.course]

/-- Until a call is over, a turn of its session or a turn of its poller does something. -/
theorem Stands.unstuck (crew : Crew) (hst : c.Stands (Run.Sound fired)) (hover : c.isOver = false)
    (hm : m.isShutdown = true) :
    c.isStep crew (.session m) = true ∨ c.isStep crew (.poller m) = true := by
  cases hst with
  | ahead hopen hidle hs =>
    -- the first turn may end the call at once, but it writes a phase
    have hst' : (c.apply crew (.session m)).Stands fun _ => True :=
      (Stands.ahead hopen hidle hs).apply _ (fun _ _ => ⟨by simp, by simp, by simp, by simp⟩)
        fun _ _ => trivial
    have hopen' : (c.apply crew (.session m)).opening = some m := by rw [apply_session_first hopen]
    have hlt := hst'.written_lt hopen'
    have hne : (c.apply crew (.session m)).desk.session ≠ c.desk.session := by
      intro h
      rw [h, hs, apply_before] at hlt
      exact Nat.lt_irrefl _ hlt
    exact .inl (by simp [isStep, hne])
  | refusing hopen hid hs =>
    exact .inl (isStep_of_lt hopen (.inl (apply_refusing hopen hm (by rw [hs]))))
  | refused hopen hid hs => simp [isOver, hopen, hs, Session.phase, Session.write] at hover
  | launched hopen hid hs hi =>
    rename_i m₀ run n
    have hon : run.activity ≠ .over := fun h => by
      simp [(isOver_put hopen hs).mpr h] at hover
    cases hp : run.poller.isOver with
    | true => exact .inl (isStep_of_lt hopen (goes_session_alone hopen hm hs hi hp hon))
    | false => exact .inr (isStep_of_lt hopen ((goes_poller hopen hm hs hi).2 hp))

/-! ## What a call can wait for -/

theorem waitsFor?_poller_eq {k : Callee} (hw : c.waitsFor? crew (.poller m) = some k) :
    ∃ run, c.desk.session.run? = some run ∧ run.poller.inFlight?.isSome = true ∧
      k = .probe (c.desk.session.probesBefore + run.poller.past.length) := by
  unfold waitsFor? at hw
  cases hr : c.desk.session.run? with
  | none => simp [hr] at hw
  | some run =>
    simp only [hr, Option.ite_none_right_eq_some, Option.some.injEq, Bool.and_eq_true] at hw
    exact ⟨run, rfl, hw.1.1.1, hw.2.symm⟩

theorem waitsFor?_session_eq {k : Callee} (hw : c.waitsFor? crew (.session m) = some k) :
    ∃ run, c.desk.session.run? = some run ∧ run.reporter.working?.isSome = true ∧
      k = .deliver (c.desk.session.deliveriesBefore + run.reporter.past.length) := by
  unfold waitsFor? at hw
  cases hr : c.desk.session.run? with
  | none => simp [hr] at hw
  | some run =>
    simp only [hr, Option.ite_none_right_eq_some, Option.some.injEq, Bool.and_eq_true] at hw
    exact ⟨run, rfl, hw.1.1.1, hw.2.symm⟩

/-- A run that is on, in a session with the past of the time before the call. -/
theorem Stands.on {I : Run → Prop} (hst : c.Stands I) (hr : c.desk.session.run? = some run) :
    I run ∧ c.desk.session.past = c.before.past := by
  cases hst with
  | ahead _ hidle hs => simp [hs, Session.run?, hidle] at hr
  | refusing _ _ hs => simp [hs, Session.run?] at hr
  | refused _ _ hs => simp [hs, Session.run?] at hr
  | launched hopen hid hs hi =>
    rename_i m run' n
    by_cases hover : run'.activity = .over
    · simp [hs, Session.put_over hover, Session.run?] at hr
    · cases hr.symm.trans (run?_on hs hover)
      refine ⟨hi, ?_⟩
      rw [hs, Session.put_on hover]
      rfl

/-- The calls that can be in flight from now on: the last probe, the last delivery, and the delivery
of the sample in the handoff. -/
def openCalls (c : Scene) : List Callee :=
  [.probe (c.before.probesBefore + (c.calls.length - 1)),
    .deliver (c.before.deliveriesBefore + (c.delivered.length - 1)),
    .deliver (c.before.deliveriesBefore + c.delivered.length)]

theorem exists_of_mem_waits {late : List SceneTurn} {k : Callee} (hk : k ∈ c.waits crew late) :
    ∃ early t rest, late = early ++ t :: rest ∧ (c.play crew early).waitsFor? crew t = some k := by
  induction late generalizing c with
  | nil => cases hk
  | cons t late ih =>
    rcases List.mem_append.mp hk with h | h
    · exact ⟨[], t, late, rfl, Option.mem_toList.mp h⟩
    · obtain ⟨early, t', rest, hlate, hw⟩ := ih h
      exact ⟨t :: early, t', rest, by rw [hlate]; rfl, hw⟩

/-- Only calls that were open when the token fired are waited for. -/
theorem Stands.waits_open {c₀ : Scene} {late : List SceneTurn} (hst : c₀.Stands (Run.Sound fired))
    (hlate : ∀ t ∈ late, t.IsLate) {k : Callee} (hk : k ∈ c₀.waits crew late) :
    k ∈ c₀.openCalls := by
  obtain ⟨early, t, rest, rfl, hw⟩ := exists_of_mem_waits hk
  have hst' : (c₀.play crew early).Stands _ := hst.frozen fun t' ht' => hlate t' (by simp [ht'])
  have hbefore : (c₀.play crew early).before = c₀.before := play_before early
  cases t with
  | sink sink => simp [waitsFor?] at hw
  | poller m =>
    obtain ⟨run, hr, hp, rfl⟩ := waitsFor?_poller_eq hw
    obtain ⟨hf, hpast⟩ := hst'.on hr
    obtain ⟨call, hcall⟩ := Option.isSome_iff_exists.mp hp
    have hstarts := hf.starts
    simp only [Poller.calls, hcall, Option.toList_some, List.length_append,
      List.length_singleton] at hstarts
    simp only [Session.probesBefore, hpast, hbefore, openCalls, ← hstarts]
    simp
  | session m =>
    obtain ⟨run, hr, hp, rfl⟩ := waitsFor?_session_eq hw
    obtain ⟨hf, hpast⟩ := hst'.on hr
    have hlen : run.reporter.samples.length = run.reporter.past.length + 1 := by
      unfold Reporter.working? at hp
      split at hp
      · rename_i d hst
        simp [Reporter.samples, Reporter.reports, Reporter.deliveries, Reporter.inFlight?, hst]
      · cases hp
    simp only [Session.deliveriesBefore, hpast, hbefore, openCalls]
    obtain ⟨hd, -⟩ | ⟨-, s, -, hd⟩ := hf.samples
    · rw [hd] at hlen
      simp [hlen]
    · rw [hd, List.length_append, List.length_singleton, Nat.add_right_cancel_iff] at hlen
      simp [hlen]

theorem waits_gated (hg : crew.IsGated) (c : Scene) (late : List SceneTurn) :
    c.waits crew late = [] := by
  induction late generalizing c with
  | nil => rfl
  | cons t late ih =>
    have hw : c.waitsFor? crew t = none := by
      unfold waitsFor?
      split <;> simp [hg.probe, hg.deliver]
    simp [waits, hw, ih]

/-- If every call is waited for only so often, the waits are bounded. -/
theorem Stands.waits_length_le {c₀ : Scene} {late : List SceneTurn}
    (hst : c₀.Stands (Run.Sound fired)) (hlate : ∀ t ∈ late, t.IsLate) {patience : Callee → Nat}
    (hp : ∀ k, (c₀.waits crew late).count k ≤ patience k) :
    (c₀.waits crew late).length ≤ ∑ k ∈ c₀.openCalls.toFinset, patience k := by
  rw [← List.sum_toFinset_count_eq_length]
  have hsub : (c₀.waits crew late).toFinset ⊆ c₀.openCalls.toFinset := by
    intro k hk
    exact List.mem_toFinset.mpr (hst.waits_open hlate (List.mem_toFinset.mp hk))
  exact (Finset.sum_le_sum fun k _ => hp k).trans (Finset.sum_le_sum_of_subset hsub)

/-! ## Shutdown drains -/

/-- The session shows its end, and of its run nothing is left: the poller has been joined, and the
sender of the handoff is gone. -/
structure IsDrained (c : Scene) : Prop where
  isOver : c.isOver = true
  joined : ∀ run, c.run? = some run → run.activity = .over ∧ run.poller.isOver = true
  dropped : ∀ run, c.run? = some run → run.handoff.hasSender = false

/-- How a call comes to its end from when its token fires. A step is a turn that changes the session
or finds a call of a collaborator pending. -/
structure Drains (crew : Crew) (c : Scene) : Prop where
  /-- There are six steps at most besides the waits. -/
  bounded : ∀ late, (∀ t ∈ late, t.IsLate) → c.steps crew late ≤ 6 + (c.waits crew late).length
  /-- Three calls at most are waited for, and none that keeps to its scope. -/
  few : ∃ calls : List Callee, calls.length ≤ 3 ∧
    ∀ late, (∀ t ∈ late, t.IsLate) → ∀ k ∈ c.waits crew late, k ∈ calls
  prompt : crew.IsGated → ∀ late, c.waits crew late = []
  /-- Where every call ends after finitely many looks, all tapes have finitely many steps. -/
  finite : ∀ patience : Callee → Nat, ∃ bound, ∀ late, (∀ t ∈ late, t.IsLate) →
    (∀ k, (c.waits crew late).count k ≤ patience k) → c.steps crew late ≤ bound
  /-- Wherever no step is left, the call has come to its end. -/
  ends : ∀ late, (∀ t ∈ late, t.IsLate) → ∀ m : Moment, m.isShutdown = true →
    (c.play crew late).isStep crew (.session m) = true ∨
      (c.play crew late).isStep crew (.poller m) = true ∨ (c.play crew late).IsDrained

theorem Stands.isDrained (hst : c.Stands (Run.Sound fired)) (hover : c.isOver = true) :
    c.IsDrained := by
  have hrun : ∀ run, c.run? = some run → run.activity = .over ∧ run.Sound fired := by
    intro run hr
    obtain ⟨m, n, hopen, -, hs, hsound⟩ := hst.launched_of_run? hr
    exact ⟨(isOver_put hopen hs).mp hover, hsound⟩
  refine ⟨hover, fun run hr => ?_, fun run hr => ?_⟩
  · obtain ⟨ha, hsound⟩ := hrun run hr
    exact ⟨ha, hsound.alone (by simp [ha])⟩
  · obtain ⟨ha, hsound⟩ := hrun run hr
    simp [hsound.linked.hasSender_eq, hsound.alone (show run.activity ≠ .reporting by simp [ha])]

theorem Stands.drains (crew : Crew) (hst : c.Stands (Run.Sound True)) : c.Drains crew := by
  have hbounded : ∀ late, (∀ t ∈ late, t.IsLate) →
      c.steps crew late ≤ 6 + (c.waits crew late).length := by
    intro late hlate
    have hle := hst.remaining_le
    have hsteps := hst.steps_le crew hlate
    omega
  refine ⟨hbounded, ⟨c.openCalls, by simp [openCalls],
      fun late hlate k hk => hst.waits_open hlate hk⟩,
    fun hg => waits_gated hg c, fun patience => ?_, fun late hlate m hm => ?_⟩
  · refine ⟨6 + ∑ k ∈ c.openCalls.toFinset, patience k, fun late hlate hp => ?_⟩
    exact (hbounded late hlate).trans (Nat.add_le_add_left (hst.waits_length_le hlate hp) 6)
  · have hst' : (c.play crew late).Stands (Run.Sound True) :=
      hst.play late (fun _ _ _ _ => Run.keeps_sound crew fun _ => trivial) fun _ id =>
        Run.sound_start _ crew id
    cases hover : (c.play crew late).isOver with
    | true => exact .inr (.inr (hst'.isDrained hover))
    | false => exact (hst'.unstuck crew hover hm).imp_right .inl

/-- **Shutdown always drains a session**, from every state that a call can reach, with any sink
beside it. -/
theorem play_drains (crew : Crew) {d : SessionDesk} (hd : d.session.stage = .idle)
    (tape : List SceneTurn) : ((start d).play crew tape).Drains crew :=
  ((play_stands crew hd tape).imp fun _ h => h.1.mono fun _ => trivial).drains crew

/-- The token fires while the event about a failed delivery waits for room in a sink that is full and
that nobody drains. -/
theorem play_drains_full :
    let d : SessionDesk := { sampleDesk with sink := sampleDesk.sink.push (.note "full") }
    let m : Bool → Moment := fun isShutdown =>
      { sampleMoment 0 isShutdown with deliver := fun _ => .ready (.error (.delivery "refused")) }
    let tape : List SceneTurn := [.session (m false), .poller (m false), .session (m false)]
    let late : List SceneTurn := [.session (m true), .poller (m true), .session (m true)]
    let c := (start d).play .relay tape
    d.session.stage = .idle ∧ d.sink.capacity = 1 ∧ d.sink.hasRoom = false ∧
      c.desk.sink.waiting = [0] ∧ c.isOver = false ∧ c.steps .relay late = 3 ∧
      (c.play .relay late).isOver = true ∧ c.Drains .relay := by
  intro d m tape late c
  have hidle : d.session.stage = .idle := by decide +kernel
  exact ⟨hidle, rfl, by decide +kernel, by decide +kernel, by decide +kernel, by decide +kernel,
    by decide +kernel, play_drains .relay hidle tape⟩

end Scene

end HealthRelay
