import HealthRelay.Session
import HealthRelay.Proofs.Session.PollerMoves
import HealthRelay.Proofs.Session.ReporterMoves

/-!
# One call of a session

A scene is one call of a session, from before its first turn. Its tape says who gets the turns, and
in which moments: the session, the poller, or the owner of the other end of the sink, who may put
any sink in its place. Nothing orders the moments of a tape, so a tape may fire the caller's token
wherever it likes.

`Stands I` lists the states in which a scene can be, with `I` of its run; `Keeps I` says that every
move of the poller, of the reporter and of the session itself keeps `I`, and then every turn does.
-/

namespace HealthRelay

open Relation (ReflTransGen)

inductive SceneTurn where
  | session (m : Moment)
  | poller (m : Moment)
  | sink (sink : Sink)

/-- The moment of a turn of the session or of its poller. -/
def SceneTurn.moment? : SceneTurn → Option Moment
  | .session m => some m
  | .poller m => some m
  | .sink _ => none

/-- A turn in which the caller's token has fired, if the turn looks at it at all. -/
def SceneTurn.IsLate (t : SceneTurn) : Prop := ∀ m ∈ t.moment?, m.isShutdown = true

/-- Whether the caller's token has fired in some moment of a tape. -/
def HasFired (tape : List SceneTurn) : Prop :=
  ∃ t ∈ tape, ∃ m ∈ t.moment?, m.isShutdown = true

/-- One call of a session. -/
structure Scene where
  /-- The session before the call. -/
  before : Session
  /-- The moment of the first turn of the call. -/
  opening : Option Moment
  desk : SessionDesk

namespace Scene

/-- A call that has not had its first turn. -/
def start (d : SessionDesk) : Scene := ⟨d.session, none, d⟩

def apply (crew : Crew) (c : Scene) : SceneTurn → Scene
  | .session m =>
    match c.opening with
    | none => { c with opening := some m, desk := c.desk.begin crew m }
    | some _ => { c with desk := c.desk.poll crew m }
  | .poller m => { c with desk := c.desk.pollPoller crew m }
  | .sink sink => { c with desk := { c.desk with sink } }

def play (crew : Crew) (c : Scene) (tape : List SceneTurn) : Scene := tape.foldl (apply crew) c

def attempt? (c : Scene) : Option Attempt := c.desk.session.attempts[c.before.past.length]?

/-- The run of the call, if it has an identity. -/
def run? (c : Scene) : Option Run := c.attempt?.bind (·.run)

def isOver (c : Scene) : Bool := c.opening.isSome && c.desk.session.phase == .terminated

/-- Every sample that a probe call of the run gave, in order. -/
def probed (c : Scene) : List Sample := c.run?.elim [] (·.poller.samples)

/-- The sample of every deliver call of the run, in order. -/
def delivered (c : Scene) : List Sample := c.run?.elim [] fun run =>
  run.reporter.deliveries.map (·.sample)

variable {crew : Crew} {c : Scene}

theorem apply_before (t : SceneTurn) : (c.apply crew t).before = c.before := by
  cases t with
  | session m => cases hopen : c.opening <;> simp [apply, hopen]
  | poller m => rfl
  | sink sink => rfl

@[simp] theorem play_before (tape : List SceneTurn) : (c.play crew tape).before = c.before := by
  induction tape generalizing c with
  | nil => rfl
  | cons t tape ih => exact ih.trans (apply_before t)

/-- What has begun has not begun anew. -/
theorem apply_opening {t : SceneTurn} (h : (c.apply crew t).opening = none) : c.opening = none := by
  cases t with
  | session m => cases hopen : c.opening <;> simp [apply, hopen] at h ⊢
  | poller m => exact h
  | sink sink => exact h

theorem play_opening {m : Moment} (h : c.opening = some m) (tape : List SceneTurn) :
    (c.play crew tape).opening = some m := by
  induction tape generalizing c with
  | nil => exact h
  | cons t tape ih =>
    refine ih ?_
    cases t with
    | session m' => simp [apply, h]
    | poller m' => exact h
    | sink sink => exact h

theorem apply_session_first (hopen : c.opening = none) (m : Moment) :
    c.apply crew (.session m) = { c with opening := some m, desk := c.desk.begin crew m } := by
  simp only [apply, hopen]

theorem apply_session {m₀ : Moment} (hopen : c.opening = some m₀) (m : Moment) :
    c.apply crew (.session m) = { c with desk := c.desk.poll crew m } := by
  unfold apply
  simp only [hopen]

end Scene

/-! ## A run in a session -/

/-- The session with its run as it is now: on, or over. -/
def Session.put (s : Session) (a : Attempt) (run : Run) (now : Nat) : Session :=
  if run.activity = .over then
    { s.write .terminated with
      stage := .idle
      past := s.past ++ [{ a with run := some run, endedAt := some now }] }
  else { s with stage := .running a run }

theorem Session.put_on {run : Run} (h : run.activity ≠ .over) (s : Session) (a : Attempt)
    (now : Nat) : s.put a run now = { s with stage := .running a run } := if_neg h

theorem Session.put_self {s : Session} {a : Attempt} {run : Run} (hst : s.stage = .running a run)
    (h : run.activity ≠ .over) (now : Nat) : s.put a run now = s := by
  rw [Session.put_on h, ← hst]

theorem Session.put_over {run : Run} (h : run.activity = .over) (s : Session) (a : Attempt)
    (now : Nat) : s.put a run now =
      { s.write .terminated with
        stage := .idle
        past := s.past ++ [{ a with run := some run, endedAt := some now }] } := if_pos h

/-- The caller's token is every poller's token. -/
theorem Session.pollerTurn_isCancelled {m : Moment} (hm : m.isShutdown = true) (s : Session)
    (crew : Crew) (run : Run) : (s.pollerTurn crew m run).isCancelled = true := by
  simp [Session.pollerTurn, Run.isCancelled, hm]

theorem Session.reporterTurn_isCancelled {m : Moment} (hm : m.isShutdown = true) (s : Session)
    (crew : Crew) (run : Run) : (s.reporterTurn crew m run).isCancelled = true := by
  simp [Session.reporterTurn, Run.isCancelled, hm]

namespace Run

def afterPoller (run : Run) (x : Poller × Handoff) : Run :=
  { run with poller := x.1, handoff := x.2 }

def afterReporter (run : Run) (x : Reporter × Desk) : Run :=
  { run with reporter := x.1, handoff := x.2.handoff }

def closing (run : Run) : Run := { run with isClosing := true, activity := .joining }

/-- A run that begins now. -/
def start (config : SessionConfig) (crew : Crew) (id : SessionId) : Run :=
  { sessionId := id, handoff := .empty, poller := .start config.interval
    reporter := .start config.interval id config.agentName config.externalAddr crew.notice
    isClosing := false, activity := .reporting }

/-- What every move in a moment keeps. -/
structure Keeps (crew : Crew) (m : Moment) (I : Run → Prop) : Prop where
  poller : ∀ (s : Session) (run₀ run : Run) (x : Poller × Handoff), I run →
    run.isClosing = run₀.isClosing →
    Poller.Move (s.pollerTurn crew m run₀) (run.poller, run.handoff) x → I (run.afterPoller x)
  reporter : ∀ (s : Session) (run₀ run : Run) (sink : Sink) (journal : List Entry)
    (x : Reporter × Desk), I run → run.activity = .reporting → run.isClosing = run₀.isClosing →
    Reporter.Move (s.reporterTurn crew m run₀) (run.reporter, ⟨run.handoff, sink, journal⟩) x →
    I (run.afterReporter x)
  closing : ∀ run : Run, I run → run.activity = .reporting → run.reporter.isOver = true →
    I run.closing
  turn : ∀ (run : Run) (activity : Activity), I run → run.activity ≠ .reporting →
    activity ≠ .reporting →
    (run.activity = .joining → activity ≠ .joining → run.poller.isOver = true) →
    I { run with activity }

variable {crew : Crew} {m : Moment} {I : Run → Prop} {s : Session} {run : Run}

theorem Keeps.pollerMoves (hk : Keeps crew m I) (hi : I run) {x : Poller × Handoff}
    (hm : Poller.Moves (s.pollerTurn crew m run) (run.poller, run.handoff) x) :
    I (run.afterPoller x) := by
  induction hm with
  | refl => exact hi
  | tail _ hstep ih => exact hk.poller s run (run.afterPoller _) _ ih rfl hstep

theorem Keeps.reporterMoves (hk : Keeps crew m I) (hi : I run) (ha : run.activity = .reporting)
    {sink : Sink} {journal : List Entry} {x : Reporter × Desk}
    (hm : Reporter.Moves (s.reporterTurn crew m run)
      (run.reporter, ⟨run.handoff, sink, journal⟩) x) : I (run.afterReporter x) := by
  induction hm with
  | refl => exact hi
  | tail _ hstep ih => exact hk.reporter s run (run.afterReporter _) _ _ _ ih ha rfl hstep

theorem Keeps.and {J : Run → Prop} (hi : Keeps crew m I) (hj : Keeps crew m J) :
    Keeps crew m fun run => I run ∧ J run where
  poller s run₀ run x h hc hm :=
    ⟨hi.poller s run₀ run x h.1 hc hm, hj.poller s run₀ run x h.2 hc hm⟩
  reporter s run₀ run sink journal x h ha hc hm :=
    ⟨hi.reporter s run₀ run sink journal x h.1 ha hc hm,
      hj.reporter s run₀ run sink journal x h.2 ha hc hm⟩
  closing run h ha hr := ⟨hi.closing run h.1 ha hr, hj.closing run h.2 ha hr⟩
  turn run activity h ha hb hp :=
    ⟨hi.turn run activity h.1 ha hb hp, hj.turn run activity h.2 ha hb hp⟩

theorem keeps_sessionId (crew : Crew) (m : Moment) (id : SessionId) :
    Keeps crew m fun run => run.sessionId = id where
  poller _ _ _ _ h _ _ := h
  reporter _ _ _ _ _ _ h _ _ _ := h
  closing _ h _ _ := h
  turn _ _ h _ _ _ := h

end Run

namespace SessionDesk

variable {crew : Crew} {m : Moment} {d : SessionDesk} {a : Attempt} {run : Run}

/-! ## What a turn makes of a run -/

/-- The event about a missing identity. -/
def refusal (cause : Failure) : Emission := ⟨.about Session.identityFailed cause, 0⟩

theorem begin_error {cause : Failure} (hid : m.identity d.session.past.length = .error cause) :
    d.begin crew m =
      ({ d with session := d.session.write .init }.tell [.sessionAborted cause]).refuse
        ⟨m.now, .init, none, none, none⟩ (refusal cause)
        ((refusal cause).start m.isShutdown d.sink) m.now := by
  have hid' : m.identity (d.session.write .init).past.length = .error cause := hid
  have hphase : (d.session.write .init).phase = .init := by simp [Session.phase, Session.write]
  simp only [begin, hid', hphase]
  rfl

theorem begin_ok {id : SessionId} (hid : m.identity d.session.past.length = .ok id) :
    d.begin crew m =
      ({ d with session := (d.session.write .init).write .running }.tell
        [.sessionStarted id d.session.config.interval]).report
        ⟨m.now, .init, some id, none, none⟩ (.start d.session.config crew id) crew m := by
  have hid' : m.identity (d.session.write .init).past.length = .ok id := hid
  have hphase : (d.session.write .init).phase = .init := by simp [Session.phase, Session.write]
  simp only [begin, hid', hphase]
  rfl

theorem poll_idle (hst : d.session.stage = .idle) : d.poll crew m = d := by
  simp only [poll, hst]

theorem pollPoller_idle (hst : d.session.stage = .idle) : d.pollPoller crew m = d := by
  simp only [pollPoller, hst]

theorem poll_refusing {e : Emission} (hst : d.session.stage = .refusing a e) :
    d.poll crew m = d.refuse a e (e.look m.isShutdown d.sink) m.now := by
  simp only [poll, hst]

theorem pollPoller_refusing {e : Emission} (hst : d.session.stage = .refusing a e) :
    d.pollPoller crew m = d := by
  simp only [pollPoller, hst]

theorem pollPoller_running (hst : d.session.stage = .running a run) :
    let x := run.poller.poll (d.session.pollerTurn crew m run) run.handoff
    d.pollPoller crew m =
      { d with session := { d.session with stage := .running a (run.afterPoller x) } } := by
  simp only [pollPoller, hst]
  rfl

theorem pollPoller_put (hst : d.session.stage = .running a run) (hon : run.activity ≠ .over)
    (now : Nat) :
    let x := run.poller.poll (d.session.pollerTurn crew m run) run.handoff
    (d.pollPoller crew m).session = d.session.put a (run.afterPoller x) now := by
  intro x
  have hon' : (run.afterPoller x).activity ≠ .over := hon
  rw [pollPoller_running hst, Session.put_on hon']

theorem finish_session (d : SessionDesk) (a : Attempt) (run : Run) (now : Nat) :
    (d.finish a run now).session = d.session.put a { run with activity := .over } now := rfl

theorem mourn_session (d : SessionDesk) (a : Attempt) (run : Run) (e : Emission)
    (looked : Progress Emitted × Sink) (now : Nat) :
    (d.mourn a run e looked now).session = d.session.put a
      { run with activity := if looked.1.isReady then .over else .mourning e } now := by
  obtain ⟨progress, sink⟩ := looked
  cases progress <;> rfl

/-- Joining goes on, or tells of a panic, or ends the run; the latter two only when the poller is
over. -/
theorem join_session (d : SessionDesk) (a : Attempt) (run : Run) (m : Moment) :
    ∃ activity, (d.join a run m).session = d.session.put a { run with activity } m.now ∧
      activity ≠ .reporting ∧ (activity ≠ .joining ↔ run.poller.isOver = true) := by
  unfold join
  split
  · rename_i hst
    have hover : run.poller.isOver = true := by simp [Poller.isOver, hst]
    exact ⟨.over, d.finish_session a run m.now, by simp, by simp [hover]⟩
  · rename_i message hst
    have hover : run.poller.isOver = true := by simp [Poller.isOver, hst]
    refine ⟨_, mourn_session .., ?_, ?_⟩ <;> split <;> simp [hover]
  · rename_i h1 h2
    refine ⟨.joining, rfl, by simp, ?_⟩
    unfold Poller.isOver
    cases hstage : run.poller.stage <;> simp_all

/-- The reporter's turn, and what the session makes of it. -/
theorem report_eq (d : SessionDesk) (a : Attempt) (run : Run) (crew : Crew) (m : Moment) :
    let x := run.reporter.poll (d.session.reporterTurn crew m run) ⟨run.handoff, d.sink, d.journal⟩
    (x.1.isOver = false ∧ d.report a run crew m =
        ⟨{ d.session with stage := .running a (run.afterReporter x) }, x.2.sink, x.2.journal⟩) ∨
      (x.1.isOver = true ∧ d.report a run crew m =
        (SessionDesk.mk d.session x.2.sink x.2.journal).join a
          (run.afterReporter x).closing m) := by
  intro x
  unfold report
  cases hover : x.1.isOver with
  | false =>
    refine .inl ⟨rfl, ?_⟩
    simp only [x] at hover
    simp only [hover, Bool.false_eq_true, ↓reduceIte]
    rfl
  | true =>
    refine .inr ⟨rfl, ?_⟩
    simp only [x] at hover
    simp only [hover, ↓reduceIte]
    rfl

/-! ## What a turn of the session keeps -/

variable {I : Run → Prop}

theorem join_keeps (hk : Run.Keeps crew m I) (hi : I run) (ha : run.activity = .joining) :
    ∃ run', (d.join a run m).session = d.session.put a run' m.now ∧ I run' := by
  obtain ⟨activity, hs, hne, hover⟩ := d.join_session a run m
  exact ⟨_, hs, hk.turn run activity hi (by simp [ha]) hne fun _ => hover.mp⟩

theorem report_keeps (hk : Run.Keeps crew m I) (hi : I run) (ha : run.activity = .reporting) :
    ∃ run', (d.report a run crew m).session = d.session.put a run' m.now ∧ I run' := by
  have hi' := hk.reporterMoves hi ha (Reporter.poll_moves (d.session.reporterTurn crew m run)
    run.reporter ⟨run.handoff, d.sink, d.journal⟩)
  rcases d.report_eq a run crew m with ⟨-, hs⟩ | ⟨hover, hs⟩
  · have hon : ∀ x, (run.afterReporter x).activity ≠ .over := by simp [Run.afterReporter, ha]
    exact ⟨_, by rw [hs, Session.put_on (hon _)], hi'⟩
  · rw [hs]
    exact join_keeps hk (hk.closing _ hi' ha hover) rfl

theorem poll_keeps {s : Session} {now : Nat} (hk : Run.Keeps crew m I) (hi : I run)
    (hs : d.session = s.put a run now) :
    ∃ run' now', (d.poll crew m).session = s.put a run' now' ∧ I run' := by
  by_cases hover : run.activity = .over
  · have hst : d.session.stage = .idle := by rw [hs, Session.put_over hover]
    exact ⟨run, now, by rw [poll_idle hst, hs], hi⟩
  · rw [Session.put_on hover] at hs
    have hput : ∀ run' now', d.session.put a run' now' = s.put a run' now' := by
      intro run' now'
      rw [hs]
      rfl
    have hst : d.session.stage = .running a run := by rw [hs]
    unfold poll
    simp only [hst, ← hput]
    cases ha : run.activity with
    | reporting => exact (report_keeps hk hi ha).imp fun run' h => ⟨_, h⟩
    | joining => exact (join_keeps hk hi ha).imp fun run' h => ⟨_, h⟩
    | mourning e =>
      refine ⟨_, m.now, mourn_session .., hk.turn run _ hi (by simp [ha]) ?_ (by simp [ha])⟩
      split <;> simp
    | «over» => exact absurd ha hover

theorem pollPoller_keeps {s : Session} {now : Nat} (hk : Run.Keeps crew m I) (hi : I run)
    (hs : d.session = s.put a run now) :
    ∃ run', (d.pollPoller crew m).session = s.put a run' now ∧ I run' := by
  by_cases hover : run.activity = .over
  · have hst : d.session.stage = .idle := by rw [hs, Session.put_over hover]
    exact ⟨run, by rw [pollPoller_idle hst, hs], hi⟩
  · rw [Session.put_on hover] at hs
    have hst : d.session.stage = .running a run := by rw [hs]
    refine ⟨_, ?_, hk.pollerMoves hi (Poller.poll_moves (d.session.pollerTurn crew m run) run.poller
      run.handoff)⟩
    rw [pollPoller_put hst hover now, hs]
    rfl

end SessionDesk

namespace Scene

variable {crew : Crew} {c : Scene} {I : Run → Prop}

/-! ## The states of a call -/

/-- The attempt of a call that was opened in a moment, as it began. -/
def attempt (c : Scene) (m : Moment) : Attempt :=
  ⟨m.now, .init, (m.identity c.before.past.length).toOption, none, none⟩

/-- The states of a call, with `I` of its run. -/
inductive Stands (I : Run → Prop) (c : Scene) : Prop where
  | ahead (hopen : c.opening = none) (hidle : c.before.stage = .idle)
      (hs : c.desk.session = c.before)
  | refusing {m : Moment} {cause : Failure} {e : Emission} (hopen : c.opening = some m)
      (hid : m.identity c.before.past.length = .error cause)
      (hs : c.desk.session = { c.before.write .init with stage := .refusing (c.attempt m) e })
  | refused {m : Moment} {cause : Failure} {n : Nat} (hopen : c.opening = some m)
      (hid : m.identity c.before.past.length = .error cause)
      (hs : c.desk.session = { (c.before.write .init).write .terminated with
        stage := .idle
        past := c.before.past ++ [{ c.attempt m with endedAt := some n }] })
  | launched {m : Moment} {run : Run} {n : Nat} (hopen : c.opening = some m)
      (hid : m.identity c.before.past.length = .ok run.sessionId)
      (hs : c.desk.session =
        ((c.before.write .init).write .running).put (c.attempt m) run n) (hi : I run)

theorem stands_start {d : SessionDesk} (hd : d.session.stage = .idle) : (start d).Stands I :=
  .ahead rfl hd rfl

theorem Stands.desk (hst : c.Stands I) {d : SessionDesk} (hd : d.session = c.desk.session) :
    { c with desk := d }.Stands I := by
  cases hst with
  | ahead hopen hidle hs => exact .ahead hopen hidle (hd.trans hs)
  | refusing hopen hid hs => exact .refusing hopen hid (hd.trans hs)
  | refused hopen hid hs => exact .refused hopen hid (hd.trans hs)
  | launched hopen hid hs hi => exact .launched hopen hid (hd.trans hs) hi

theorem Stands.imp {J : Run → Prop} (hst : c.Stands I) (hij : ∀ run, I run → J run) :
    c.Stands J := by
  cases hst with
  | ahead hopen hidle hs => exact .ahead hopen hidle hs
  | refusing hopen hid hs => exact .refusing hopen hid hs
  | refused hopen hid hs => exact .refused hopen hid hs
  | launched hopen hid hs hi => exact .launched hopen hid hs (hij _ hi)

theorem stands_refuse {m : Moment} {cause : Failure} (hopen : c.opening = some m)
    (hid : m.identity c.before.past.length = .error cause) {d : SessionDesk} {stage : SessionStage}
    (hs : d.session = { c.before.write .init with stage }) (e : Emission)
    (looked : Progress Emitted × Sink) (now : Nat) :
    { c with desk := d.refuse (c.attempt m) e looked now }.Stands I := by
  obtain ⟨_ | emitted, sink⟩ := looked
  · refine .refusing (e := e) hopen hid ?_
    simp only [SessionDesk.refuse, hs]
    rfl
  · refine .refused (n := now) hopen hid ?_
    simp only [SessionDesk.refuse, SessionDesk.abort, SessionDesk.tell, hs]
    rfl

theorem stands_begin {m : Moment} (hk : Run.Keeps crew m I)
    (hs : c.desk.session = c.before) (hi : ∀ id, I (.start c.before.config crew id)) :
    { c with opening := some m, desk := c.desk.begin crew m }.Stands I := by
  cases hid : m.identity c.before.past.length with
  | error cause =>
    rw [SessionDesk.begin_error (hs ▸ hid)]
    have ha : ⟨m.now, .init, none, none, none⟩ = c.attempt m := by
      simp [attempt, hid, Except.toOption]
    rw [ha]
    exact stands_refuse (c := { c with opening := some m }) rfl hid
      (show c.desk.session.write .init = _ by rw [hs]) ..
  | ok id =>
    rw [SessionDesk.begin_ok (hs ▸ hid)]
    have ha : ⟨m.now, .init, some id, none, none⟩ = c.attempt m := by
      simp [attempt, hid, Except.toOption]
    rw [ha]
    obtain ⟨run', hs', hi', hid'⟩ := SessionDesk.report_keeps
      (hk.and (Run.keeps_sessionId crew m id)) ⟨hs ▸ hi id, rfl⟩ rfl
    refine .launched (n := m.now) rfl (hid.trans (congrArg _ hid'.symm)) (hs'.trans ?_) hi'
    simp only [SessionDesk.tell, hs]
    rfl

/-- **Every turn keeps what every move keeps.** -/
theorem Stands.apply (hst : c.Stands I) (t : SceneTurn) (hk : ∀ m ∈ t.moment?, Run.Keeps crew m I)
    (hi : c.opening = none → ∀ id, I (.start c.before.config crew id)) :
    (c.apply crew t).Stands I := by
  cases t with
  | sink sink => exact hst.desk rfl
  | poller m =>
    cases hst with
    | ahead hopen hidle hs =>
      refine (Stands.ahead hopen hidle hs).desk ?_
      rw [SessionDesk.pollPoller_idle (hs ▸ hidle)]
    | refusing hopen hid hs =>
      refine (Stands.refusing hopen hid hs).desk ?_
      rw [SessionDesk.pollPoller_refusing (by rw [hs])]
    | refused hopen hid hs =>
      refine (Stands.refused hopen hid hs).desk ?_
      rw [SessionDesk.pollPoller_idle (by rw [hs])]
    | launched hopen hid hs hi' =>
      rename_i m₀ run now
      obtain ⟨run', hs', hi', hid'⟩ := SessionDesk.pollPoller_keeps
        ((hk m rfl).and (Run.keeps_sessionId crew m run.sessionId)) ⟨hi', rfl⟩ hs
      exact .launched hopen (hid.trans (congrArg _ hid'.symm)) hs' hi'
  | session m =>
    have hk := hk m rfl
    cases hst with
    | ahead hopen hidle hs =>
      rw [apply_session_first hopen]
      exact stands_begin hk hs (hi hopen)
    | refusing hopen hid hs =>
      rw [apply_session hopen, SessionDesk.poll_refusing (by rw [hs])]
      exact stands_refuse hopen hid hs ..
    | refused hopen hid hs =>
      rw [apply_session hopen]
      refine (Stands.refused hopen hid hs).desk ?_
      rw [SessionDesk.poll_idle (by rw [hs])]
    | launched hopen hid hs hi' =>
      rename_i m₀ run now
      obtain ⟨run', now', hs', hi', hid'⟩ := SessionDesk.poll_keeps
        (hk.and (Run.keeps_sessionId crew m run.sessionId)) ⟨hi', rfl⟩ hs
      rw [apply_session hopen]
      exact .launched hopen (hid.trans (congrArg _ hid'.symm)) hs' hi'

/-- So does every tape. -/
theorem Stands.play (hst : c.Stands I) (tape : List SceneTurn)
    (hk : ∀ t ∈ tape, ∀ m ∈ t.moment?, Run.Keeps crew m I)
    (hi : c.opening = none → ∀ id, I (.start c.before.config crew id)) :
    (c.play crew tape).Stands I := by
  induction tape generalizing c with
  | nil => exact hst
  | cons t tape ih =>
    refine ih (hst.apply t (hk t (by simp)) hi) (fun t' ht' => hk t' (by simp [ht'])) fun h id => ?_
    rw [apply_before]
    exact hi (apply_opening h) id

/-! ## The run of a call -/

theorem run?_put {s : Session} {a : Attempt} {run : Run} {n : Nat}
    (hs : c.desk.session = s.put a run n) (hl : s.past.length = c.before.past.length) :
    c.run? = some run := by
  unfold run? attempt?
  rw [hs, ← hl]
  by_cases hover : run.activity = .over
  · rw [Session.put_over hover]
    simp [Session.attempts]
  · rw [Session.put_on hover]
    simp [Session.attempts]

theorem Stands.launched_of_run? (hst : c.Stands I) {run : Run} (hr : c.run? = some run) :
    ∃ m n, c.opening = some m ∧ m.identity c.before.past.length = .ok run.sessionId ∧
      c.desk.session = ((c.before.write .init).write .running).put (c.attempt m) run n ∧ I run := by
  cases hst with
  | ahead hopen hidle hs => simp [run?, attempt?, hs, Session.attempts, hidle] at hr
  | refusing hopen hid hs =>
    simp [run?, attempt?, hs, Session.attempts, Session.write, attempt] at hr
  | refused hopen hid hs =>
    simp [run?, attempt?, hs, Session.attempts, Session.write, attempt] at hr
  | launched hopen hid hs hi =>
    cases hr.symm.trans (run?_put hs rfl)
    exact ⟨_, _, hopen, hid, hs, hi⟩

theorem Stands.run?_eq_none (hst : c.Stands I) (hopen : c.opening = none) : c.run? = none := by
  cases hr : c.run? with
  | none => rfl
  | some run =>
    obtain ⟨m, n, hopen', -⟩ := hst.launched_of_run? hr
    cases hopen.symm.trans hopen'

/-- What holds of the run holds of the call. -/
theorem Stands.of_run? {J : Run → Prop} (hst : c.Stands I)
    (h : ∀ run, c.run? = some run → I run → J run) : c.Stands J := by
  cases hst with
  | ahead hopen hidle hs => exact .ahead hopen hidle hs
  | refusing hopen hid hs => exact .refusing hopen hid hs
  | refused hopen hid hs => exact .refused hopen hid hs
  | launched hopen hid hs hi => exact .launched hopen hid hs (h _ (run?_put hs rfl) hi)

/-- What holds of the run, or of one that is yet to start, holds after a tape that keeps it. -/
theorem Stands.onward {J : Run → Prop} (hst : c.Stands I) {tape : List SceneTurn}
    (hk : ∀ t ∈ tape, ∀ m ∈ t.moment?, Run.Keeps crew m J)
    (hnow : ∀ run, c.run? = some run → I run → J run)
    (hstart : c.run? = none → ∀ id, J (.start c.before.config crew id)) :
    (c.play crew tape).Stands J :=
  (hst.of_run? hnow).play tape hk fun hopen => hstart (hst.run?_eq_none hopen)

/-- A call that has a run has one later, too. -/
theorem Stands.run?_later {J : Run → Prop} {c' : Scene} (hst : c.Stands I) (hst' : c'.Stands J)
    (hbefore : c'.before = c.before) (hopening : ∀ m, c.opening = some m → c'.opening = some m)
    {run : Run} (hr : c.run? = some run) : ∃ run', c'.run? = some run' ∧ J run' := by
  obtain ⟨m, n, hopen, hid, -⟩ := hst.launched_of_run? hr
  have hopen' : c'.opening = some m := hopening m hopen
  have hid' : m.identity c'.before.past.length = .ok run.sessionId := by rw [hbefore, hid]
  cases hst' with
  | ahead h => cases hopen'.symm.trans h
  | refusing h hid'' =>
    cases hopen'.symm.trans h
    cases hid'.symm.trans hid''
  | refused h hid'' =>
    cases hopen'.symm.trans h
    cases hid'.symm.trans hid''
  | launched _ _ hs hi => exact ⟨_, run?_put hs rfl, hi⟩

theorem Stands.run?_play {J : Run → Prop} {tape : List SceneTurn} (hst : c.Stands I)
    (hst' : (c.play crew tape).Stands J) {run : Run} (hr : c.run? = some run) :
    ∃ run', (c.play crew tape).run? = some run' ∧ J run' :=
  hst.run?_later hst' (play_before tape) (fun _ hopen => play_opening hopen tape) hr

theorem isOver_put {s : Session} {a : Attempt} {run : Run} {n : Nat} {m : Moment}
    (hopen : c.opening = some m) (hs : c.desk.session = (s.write .running).put a run n) :
    c.isOver = true ↔ run.activity = .over := by
  unfold isOver
  rw [hopen, hs]
  by_cases hover : run.activity = .over
  · rw [Session.put_over hover]
    simp [Session.phase, Session.write, hover]
  · rw [Session.put_on hover]
    simp [Session.phase, Session.write, hover]

end Scene

end HealthRelay
