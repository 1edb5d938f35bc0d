import HealthRelay.Proofs.Session.Attempts
import HealthRelay.Watcher

/-!
# The life of a session

A session is called again and again, a watcher follows its phases, and in the end its owner lets go
of it. `Life.play` goes through the turns of all of them in any order. Each call is a scene
(`Lived`), so whatever is known of scenes is known of every call; between calls the session has
come to rest (`Settled`). `Orderly` says what can be seen of that from outside, and `CalledAt` how
it goes back to the moments in which the owner called.
-/

namespace HealthRelay

/-! ## Calls that are over -/

/-- A call that is over: it had no identity and no run, or its run is over on both sides. -/
inductive Attempt.IsOver (a : Attempt) : Prop where
  | nameless (hid : a.identity = none) (hrun : a.run = none)
  | ran {run : Run} (hid : a.identity = some run.sessionId) (hrun : a.run = some run)
      (hp : run.poller.isOver = true) (hr : run.reporter.isOver = true)

/-- What a call writes from its beginning to its end. -/
def Attempt.phases (a : Attempt) : List Phase := Phase.course a.identity

/-- What a call has written so far. -/
def SessionStage.phases : SessionStage → List Phase
  | .idle => []
  | .refusing _ _ => [.init]
  | .running _ _ => [.init, .running]

/-- Nothing works for a run any more. -/
structure Run.IsQuiet (run : Run) : Prop where
  poller : run.poller.isOver = true
  no_probe : run.poller.inFlight? = none
  no_delivery : run.reporter.inFlight? = none

theorem Poller.inFlight?_of_over {p : Poller} (hp : p.isOver = true) : p.inFlight? = none := by
  unfold isOver at hp
  unfold inFlight?
  split at hp <;> simp [*] at hp ⊢

theorem Reporter.inFlight?_of_over {r : Reporter} (hr : r.isOver = true) : r.inFlight? = none := by
  have hst : r.stage = .finished := by simpa [isOver] using hr
  simp [inFlight?, hst]

theorem Attempt.IsOver.quiet {a : Attempt} (ha : a.IsOver) {run : Run} (hr : a.run = some run) :
    run.IsQuiet := by
  cases ha with
  | nameless _ hrun => cases hrun.symm.trans hr
  | ran _ hrun hp hrep =>
    cases hrun.symm.trans hr
    exact ⟨hp, Poller.inFlight?_of_over hp, Reporter.inFlight?_of_over hrep⟩

namespace Session

/-- A session between two calls. -/
structure Settled (s : Session) : Prop where
  idle : s.stage = .idle
  written : s.written = s.past.flatMap Attempt.phases
  past : ∀ a ∈ s.past, a.IsOver

theorem settled_start (config : SessionConfig) : (start config).Settled :=
  ⟨rfl, rfl, by simp [start]⟩

/-- The reason why a call came to its end. -/
def IsReason (fired : Prop) (a : Attempt) : Prop :=
  a.identity = none ∨ fired ∨
    ∃ run message, a.run = some run ∧ run.poller.stage = .panicked message

/-- What can be seen of a session from outside, given whether the token of its last call has
fired. -/
structure Orderly (fired : Prop) (s : Session) : Prop where
  /-- The calls write one after the other, each of them all of its phases. -/
  written : s.written = s.past.flatMap Attempt.phases ++ s.stage.phases
  /-- Of the calls before the current one nothing is left. -/
  past : ∀ a ∈ s.past, a.IsOver
  ended : s.phase = .terminated → ∃ a, s.past.getLast? = some a ∧ IsReason fired a
  /-- Before a call is running and after it nobody works for it. -/
  quiet : s.phase ≠ .running → ∀ run ∈ s.runs, run.IsQuiet

theorem Orderly.mono {fired fired' : Prop} {s : Session} (ho : s.Orderly fired)
    (hf : fired → fired') : s.Orderly fired' where
  written := ho.written
  past := ho.past
  ended h := by
    obtain ⟨a, ha, hr⟩ := ho.ended h
    exact ⟨a, ha, hr.imp_right (Or.imp_left hf)⟩
  quiet := ho.quiet

/-- A session without a run is quiet if its past is. -/
theorem quiet_of_run?_eq_none {s : Session} (hp : ∀ a ∈ s.past, a.IsOver) (hr : s.run? = none) :
    ∀ run ∈ s.runs, run.IsQuiet := by
  intro run hrun
  simp only [runs, hr, Option.toList_none, List.append_nil, List.mem_filterMap] at hrun
  obtain ⟨a, ha, hrun⟩ := hrun
  exact (hp a ha).quiet hrun

/-- What the calls that began in these moments write, each from its beginning to its end. -/
def courseOf (openings : List Moment) : List Phase :=
  (openings.mapIdx fun i m => Phase.course (m.identity i).toOption).flatten

/-- A session that was called in these moments, and in no others. -/
structure CalledAt (openings : List Moment) (s : Session) : Prop where
  /-- Each call has its attempt, with the answer that it got about an identity. -/
  attempts : s.attempts.map (fun a => (a.startedAt, a.identity)) =
    openings.mapIdx fun i m => (m.now, (m.identity i).toOption)
  /-- A call with an identity has a run of its own under it, and one without has none. -/
  runs : ∀ a ∈ s.attempts, a.run.map (·.sessionId) = a.identity
  /-- A call that is over has written all its phases, and one that is on all but the last. -/
  written : s.written = if s.isIdle then courseOf openings else (courseOf openings).dropLast

theorem calledAt_start (config : SessionConfig) : (start config).CalledAt [] :=
  ⟨rfl, by simp [start, attempts], rfl⟩

theorem courseOf_concat (openings : List Moment) (m : Moment) :
    courseOf (openings ++ [m]) =
      courseOf openings ++ Phase.course (m.identity openings.length).toOption := by
  simp [courseOf, List.mapIdx_concat]

theorem CalledAt.length_eq {openings : List Moment} {s : Session} (hs : s.CalledAt openings) :
    s.attempts.length = openings.length := by
  simpa using congrArg List.length hs.attempts

theorem count_phases {past : List Attempt} {phase : Phase}
    (h : ∀ identity, (Phase.course identity).count phase = 1) :
    (past.flatMap Attempt.phases).count phase = past.length := by
  induction past with
  | nil => rfl
  | cons a past ih =>
    rw [List.flatMap_cons, List.count_append, Attempt.phases, h, ih, List.length_cons, Nat.add_comm]

/-- Every call shows that it begins. -/
theorem Orderly.count_init {fired : Prop} {s : Session} (ho : s.Orderly fired) :
    s.written.count .init = s.attempts.length := by
  rw [ho.written, List.count_append, count_phases Phase.count_init]
  cases hst : s.stage <;> simp [attempts, hst, SessionStage.phases]

/-- Every call shows its end. -/
theorem Orderly.count_terminated {fired : Prop} {s : Session} (ho : s.Orderly fired) :
    s.written.count .terminated = s.past.length := by
  rw [ho.written, List.count_append, count_phases Phase.count_terminated]
  cases s.stage <;> simp [SessionStage.phases]

theorem Settled.orderly {fired : Prop} {s : Session} (hs : s.Settled)
    (hended : s.phase = .terminated → ∃ a, s.past.getLast? = some a ∧ IsReason fired a) :
    s.Orderly fired where
  written := by rw [hs.written, hs.idle, SessionStage.phases, List.append_nil]
  past := hs.past
  ended := hended
  quiet _ := quiet_of_run?_eq_none hs.past (by simp [run?, hs.idle])

end Session

/-! ## A scene as seen from outside -/

namespace Scene

variable {crew : Crew} {c : Scene} {fired : Prop}

/-- The session of a call that is over has settled. -/
theorem Stands.settled (hst : c.Stands (Run.Lasting fired)) (hb : c.before.Settled)
    (hidle : c.desk.session.stage = .idle) : c.desk.session.Settled := by
  cases hst with
  | ahead _ _ hs => exact hs ▸ hb
  | refusing _ _ hs =>
    rw [hs] at hidle
    cases hidle
  | refused hopen hid hs =>
    rename_i m cause n
    have hnone : (c.attempt m).identity = none := by simp [attempt, hid, Except.toOption]
    refine ⟨hidle, ?_, ?_⟩
    · simp [hs, Session.write, hb.written, Attempt.phases, Phase.course, hnone]
    · intro a ha
      simp only [hs, List.mem_append, List.mem_singleton] at ha
      rcases ha with ha | rfl
      · exact hb.past a ha
      · exact .nameless hnone rfl
  | launched hopen hid hs hi =>
    rename_i m run n
    have hsome : (c.attempt m).identity = some run.sessionId := by
      simp [attempt, hid, Except.toOption]
    by_cases hover : run.activity = .over
    · rw [Session.put_over hover] at hs
      have hr := hi.sound.turned (by simp [hover])
      refine ⟨hidle, ?_, ?_⟩
      · simp [hs, Session.write, hb.written, Attempt.phases, Phase.course, hsome]
      · intro a ha
        simp only [hs, List.mem_append, List.mem_singleton] at ha
        rcases ha with ha | rfl
        · exact hb.past a ha
        · exact .ran hsome rfl (hi.sound.left hr) hr
    · rw [hs, Session.put_on hover] at hidle
      cases hidle

theorem Stands.orderly (hst : c.Stands (Run.Lasting fired)) (hb : c.before.Settled)
    (hnew : c.opening = none → c.before.written = []) : c.desk.session.Orderly fired := by
  have hsettled := hst.settled hb
  cases hst with
  | ahead hopen hidle hs =>
    refine hs ▸ hb.orderly fun h => ?_
    simp [Session.phase, hnew hopen] at h
  | refusing hopen hid hs =>
    rw [hs]
    refine ⟨by simp [Session.write, hb.written, SessionStage.phases], hb.past, fun h => ?_,
      fun _ => Session.quiet_of_run?_eq_none hb.past rfl⟩
    simp [Session.phase, Session.write] at h
  | refused hopen hid hs =>
    refine (hsettled (by rw [hs])).orderly fun _ => ?_
    rw [hs]
    exact ⟨_, List.getLast?_concat, .inl (by simp [attempt, hid, Except.toOption])⟩
  | launched hopen hid hs hi =>
    rename_i m run n
    by_cases hover : run.activity = .over
    · rw [Session.put_over hover] at hs
      refine (hsettled (by rw [hs])).orderly fun _ => ?_
      rw [hs]
      refine ⟨_, List.getLast?_concat, .inr ?_⟩
      rcases hi.over hover with h | ⟨message, h⟩
      · exact .inl h
      · exact .inr ⟨run, message, rfl, h⟩
    · rw [Session.put_on hover] at hs
      have hphase : c.desk.session.phase = .running := by simp [hs, Session.phase, Session.write]
      refine ⟨by simp [hs, Session.write, hb.written, SessionStage.phases], ?_, fun h => ?_,
        fun h => absurd hphase h⟩
      · rw [hs]
        exact hb.past
      · rw [hphase] at h
        cases h

/-- A call adds the moment of its first turn to those in which its session was called. -/
theorem Stands.calledAt {I : Run → Prop} (hst : c.Stands I) (hidle : c.before.stage = .idle)
    {openings : List Moment} (hb : c.before.CalledAt openings) :
    c.desk.session.CalledAt (openings ++ c.opening.toList) := by
  cases hopen : c.opening with
  | none =>
    cases hst with
    | ahead _ _ hs => simpa [hs] using hb
    | refusing hopen' => cases hopen'.symm.trans hopen
    | refused hopen' => cases hopen'.symm.trans hopen
    | launched hopen' => cases hopen'.symm.trans hopen
  | some m =>
    have hpast := Session.attempts_idle hidle
    have hlength := hb.length_eq
    rw [hpast] at hlength
    obtain ⟨a, hattempts, hstarted, hidentity, hrun, -⟩ := hst.attempts hopen
    refine ⟨?_, fun a' ha' => ?_, ?_⟩
    · rw [hattempts, List.map_append, List.map_singleton, hstarted, hidentity, ← hpast, hb.attempts,
        Option.toList_some, List.mapIdx_concat, hpast, hlength]
    · rw [hattempts, ← hpast] at ha'
      rcases List.mem_append.mp ha' with ha' | ha'
      · exact hb.runs a' ha'
      · rw [List.mem_singleton.mp ha']
        exact hrun
    · have hwritten := hb.written
      rw [if_pos (by simp [Session.isIdle, hidle])] at hwritten
      have hne : Phase.course (m.identity openings.length).toOption ≠ [] := by
        unfold Phase.course
        split <;> simp
      rw [hst.written hopen, hwritten, Option.toList_some, Session.courseOf_concat, hlength,
        List.dropLast_append_of_ne_nil hne]
      split <;> rfl

end Scene

/-! ## What is written stays written -/

namespace SessionDesk

variable {crew : Crew} {m : Moment}

theorem put_written (s : Session) (a : Attempt) (run : Run) (now : Nat) :
    s.written <+: (s.put a run now).written := by
  by_cases hover : run.activity = .over
  · rw [Session.put_over hover]
    exact List.prefix_append ..
  · exact ⟨[], by rw [Session.put_on hover, List.append_nil]⟩

theorem refuse_written (d : SessionDesk) (a : Attempt) (e : Emission)
    (looked : Progress Emitted × Sink) (now : Nat) :
    d.session.written <+: (d.refuse a e looked now).session.written := by
  obtain ⟨_ | emitted, sink⟩ := looked
  · exact List.prefix_rfl
  · exact List.prefix_append ..

theorem join_written (d : SessionDesk) (a : Attempt) (run : Run) (m : Moment) :
    d.session.written <+: (d.join a run m).session.written := by
  obtain ⟨activity, hs, -⟩ := d.join_session a run m
  rw [hs]
  exact put_written ..

theorem report_written (d : SessionDesk) (a : Attempt) (run : Run) (crew : Crew) (m : Moment) :
    d.session.written <+: (d.report a run crew m).session.written := by
  let x := run.reporter.poll (d.session.reporterTurn crew m run) ⟨run.handoff, d.sink, d.journal⟩
  rcases d.report_eq a run crew m with ⟨-, hs⟩ | ⟨-, hs⟩
  · exact ⟨[], by rw [hs, List.append_nil]⟩
  · rw [hs]
    exact join_written ⟨d.session, x.2.sink, x.2.journal⟩ a (run.afterReporter x).closing m

theorem begin_written (d : SessionDesk) (crew : Crew) (m : Moment) :
    d.session.written <+: (d.begin crew m).session.written := by
  have hinit : d.session.written <+: (d.session.write .init).written := List.prefix_append ..
  cases hid : m.identity d.session.past.length with
  | error cause =>
    rw [begin_error hid]
    exact hinit.trans (refuse_written ⟨d.session.write .init, _, _⟩ ..)
  | ok id =>
    rw [begin_ok hid]
    have hrunning : (d.session.write .init).written <+:
        ((d.session.write .init).write .running).written := List.prefix_append ..
    exact (hinit.trans hrunning).trans
      (report_written ⟨(d.session.write .init).write .running, _, _⟩ ..)

theorem poll_written (d : SessionDesk) (crew : Crew) (m : Moment) :
    d.session.written <+: (d.poll crew m).session.written := by
  unfold poll
  split
  · exact List.prefix_rfl
  · exact refuse_written ..
  · split
    · exact report_written ..
    · exact join_written ..
    · rw [mourn_session]
      exact put_written ..
    · exact List.prefix_rfl

theorem pollPoller_written (d : SessionDesk) (crew : Crew) (m : Moment) :
    (d.pollPoller crew m).session.written = d.session.written := by
  unfold pollPoller
  split <;> rfl

end SessionDesk

/-! ## The watcher -/

namespace Watcher

/-- What a watcher has seen of a session, given whether the session is gone. -/
structure Follows (w : Watcher) (isGone : Bool) (s : Session) : Prop where
  version_le : w.version ≤ s.written.length
  seen : w.seen.Sublist (.init :: s.written.take w.version)
  last : w.seen ≠ [] → w.last = (s.written.take w.version).getLast?.getD .init
  done : w.isDone = true → isGone = true ∧ w.seen ≠ [] ∧ w.version = s.written.length

variable {w : Watcher} {isGone : Bool} {s s' : Session}

theorem follows_start (s : Session) : start.Follows isGone s :=
  ⟨Nat.zero_le _, List.nil_sublist _, fun h => absurd rfl h, fun h => by cases h⟩

/-- A watcher that has looked since the last phase was written knows it. -/
theorem Follows.last_eq (hw : w.Follows isGone s) (hseen : w.seen ≠ [])
    (hv : w.version = s.written.length) : w.last = s.phase := by
  rw [hw.last hseen, hv, List.take_length, Session.phase]

/-- The newest phase comes after all that the watcher has seen. -/
theorem Follows.append (hw : w.Follows isGone s)
    (hfresh : w.seen = [] ∨ w.version ≠ s.written.length) :
    (w.seen ++ [s.phase]).Sublist (.init :: s.written) := by
  rcases hfresh with hnil | hv
  · rw [hnil, List.nil_append, List.singleton_sublist]
    refine List.mem_of_getLast? ?_
    rw [List.getLast?_cons, Session.phase]
  · have hlt : w.version < s.written.length := Nat.lt_of_le_of_ne hw.version_le hv
    have hmem : s.phase ∈ s.written.drop w.version := by
      refine List.mem_of_getLast? ?_
      have hne : s.written ≠ [] := by
        rintro h
        simp [h] at hlt
      rw [List.getLast?_drop, if_neg (by omega), Session.phase, List.getLast?_eq_some_getLast hne,
        Option.getD_some]
    have happ := hw.seen.append (List.singleton_sublist.mpr hmem)
    rwa [List.cons_append, List.take_append_drop] at happ

theorem poll_of_done (hdone : w.isDone = true) : w.poll isGone s = w := by
  simp [poll, hdone]

theorem Follows.poll (hw : w.Follows isGone s) : (w.poll isGone s).Follows isGone s := by
  cases hdone : w.isDone with
  | true => rwa [poll_of_done hdone]
  | false =>
    unfold Watcher.poll
    simp only [hdone, Bool.false_eq_true, ↓reduceIte]
    cases hfresh : w.seen.isEmpty || w.version != s.written.length with
    | true =>
      have happ := hw.append (by simpa using hfresh)
      exact ⟨Nat.le_refl _, by simpa using happ, fun _ => by simp [Watcher.last, Session.phase],
        fun h => ⟨h, by simp, rfl⟩⟩
    | false =>
      simp only [Bool.or_eq_false_iff, List.isEmpty_eq_false_iff, bne_eq_false_iff_eq] at hfresh
      obtain ⟨hseen, hv⟩ := hfresh
      refine ⟨Nat.le_refl _, by simpa [hv] using hw.seen, fun h => ?_, fun h => ⟨h, hseen, rfl⟩⟩
      rw [List.take_length]
      exact hw.last_eq h hv

/-- Once the session is gone the next turn is the last, and ends with the last phase. -/
theorem Follows.poll_gone (hw : w.Follows true s) :
    (w.poll true s).isDone = true ∧ (w.poll true s).last = s.phase := by
  have hdone : (w.poll true s).isDone = true := by
    cases h : w.isDone with
    | true => rw [poll_of_done h, h]
    | false => simp [Watcher.poll, h]
  obtain ⟨-, hseen, hv⟩ := hw.poll.done hdone
  exact ⟨hdone, hw.poll.last_eq hseen hv⟩

/-- What a watcher tells of a session, given whether the session is gone. -/
structure Tells (w : Watcher) (isGone : Bool) (s : Session) : Prop where
  /-- It may miss phases, but it sees them in order, from the one before the first call on. -/
  seen : w.seen.Sublist (.init :: s.written)
  done : w.isDone = true → isGone = true ∧ w.last = s.phase
  /-- Once the session is gone its next turn is its last. -/
  ends : isGone = true → (w.poll true s).isDone = true ∧ (w.poll true s).last = s.phase

theorem Follows.tells (hw : w.Follows isGone s) : w.Tells isGone s where
  seen := hw.seen.trans ((List.take_sublist _ _).cons_cons _)
  done h := by
    obtain ⟨hgone, hseen, hv⟩ := hw.done h
    exact ⟨hgone, hw.last_eq hseen hv⟩
  ends h := by
    subst h
    exact hw.poll_gone

/-- A session goes on writing as long as it is there. -/
theorem Follows.grow (hw : w.Follows isGone s) (hs : s.written <+: s'.written)
    (hgone : isGone = true → s'.written = s.written) : w.Follows isGone s' := by
  have htake : s'.written.take w.version = s.written.take w.version := by
    obtain ⟨more, hmore⟩ := hs
    rw [← hmore, List.take_append_of_le_length hw.version_le]
  refine ⟨Nat.le_trans hw.version_le hs.length_le, htake ▸ hw.seen, fun h => htake ▸ hw.last h,
    fun h => ?_⟩
  obtain ⟨hg, hseen, hv⟩ := hw.done h
  exact ⟨hg, hseen, by rw [hgone hg, hv]⟩

end Watcher

/-! ## All turns in the life of a session -/

/-- A session with its watcher. -/
structure Life where
  desk : SessionDesk
  watcher : Watcher
  /-- Whether the token of the last call fired before that call was over. -/
  hasFired : Bool
  /-- Whether the owner has let go of the session. -/
  isGone : Bool

inductive LifeTurn where
  /-- The owner calls the session, which it does only between calls. -/
  | call (m : Moment)
  | session (m : Moment)
  | poller (m : Moment)
  | watcher
  /-- Others work with the sink, and write in the journal. -/
  | others (sink : Sink) (journal : List Entry)
  /-- The owner lets go of the session, which it does only between calls. -/
  | drop

namespace Life

/-- A session that has not been called, with a watcher that has not looked. -/
def start (config : SessionConfig) (sink : Sink) : Life :=
  ⟨⟨.start config, sink, []⟩, .start, false, false⟩

/-- Whether the token of the last call has fired, once a moment of that call has come. -/
def sees (l : Life) (m : Moment) : Bool :=
  l.hasFired || (!l.desk.session.isIdle && m.isShutdown)

def apply (crew : Crew) (l : Life) : LifeTurn → Life
  | .call m =>
    if l.desk.session.isIdle && !l.isGone then
      { l with desk := l.desk.begin crew m, hasFired := m.isShutdown }
    else l
  | .session m => { l with desk := l.desk.poll crew m, hasFired := l.sees m }
  | .poller m => { l with desk := l.desk.pollPoller crew m, hasFired := l.sees m }
  | .watcher => { l with watcher := l.watcher.poll l.isGone l.desk.session }
  | .others sink journal => { l with desk := { l.desk with sink, journal } }
  | .drop => if l.desk.session.isIdle then { l with isGone := true } else l

def play (crew : Crew) (l : Life) (tape : List LifeTurn) : Life := tape.foldl (apply crew) l

/-- The moment in which a turn calls the session, if it does. -/
def opening? (l : Life) : LifeTurn → Option Moment
  | .call m => if l.desk.session.isIdle && !l.isGone then some m else none
  | _ => none

/-- The moments in which the turns of a tape call the session. -/
def openings (crew : Crew) : Life → List LifeTurn → List Moment
  | _, [] => []
  | l, t :: tape => (l.opening? t).toList ++ openings crew (l.apply crew t) tape

theorem openings_append (crew : Crew) (l : Life) (tape more : List LifeTurn) :
    l.openings crew (tape ++ more) =
      l.openings crew tape ++ (l.play crew tape).openings crew more := by
  induction tape generalizing l with
  | nil => rfl
  | cons t tape ih =>
    simp only [List.cons_append, openings, ih, List.append_assoc, play, List.foldl_cons]

end Life

/-- One of the calls of a session, given the moments in which the session was called so far: the
session had settled before the call, and if this is no call yet, it had not been called at all. -/
structure Scene.IsCall (fired : Prop) (openings : List Moment) (c : Scene) : Prop where
  stands : c.Stands (Run.Lasting fired)
  settled : c.before.Settled
  called : ∃ before, openings = before ++ c.opening.toList ∧ c.before.CalledAt before
  ahead : c.opening = none → c.before.written = []

namespace SessionDesk

variable {crew : Crew} {m : Moment} {d : SessionDesk} {fired fired' : Prop}
  {openings : List Moment}

/-- The session is in a call, or it has just come out of one, or it has never been called. -/
def OnStage (fired : Prop) (openings : List Moment) (d : SessionDesk) : Prop :=
  ∃ c : Scene, c.desk = d ∧ c.IsCall fired openings

theorem onStage_start (config : SessionConfig) (sink : Sink) :
    (SessionDesk.mk (.start config) sink []).OnStage fired [] :=
  ⟨.start ⟨.start config, sink, []⟩, rfl, Scene.stands_start rfl, Session.settled_start config,
    ⟨[], rfl, Session.calledAt_start config⟩, fun _ => rfl⟩

theorem OnStage.settled (hd : d.OnStage fired openings) (hidle : d.session.stage = .idle) :
    d.session.Settled := by
  obtain ⟨c, rfl, hc⟩ := hd
  exact hc.stands.settled hc.settled hidle

theorem OnStage.orderly (hd : d.OnStage fired openings) : d.session.Orderly fired := by
  obtain ⟨c, rfl, hc⟩ := hd
  exact hc.stands.orderly hc.settled hc.ahead

theorem OnStage.calledAt (hd : d.OnStage fired openings) : d.session.CalledAt openings := by
  obtain ⟨c, rfl, hc⟩ := hd
  obtain ⟨before, rfl, hb⟩ := hc.called
  exact hc.stands.calledAt hc.settled.idle hb

theorem OnStage.mono (hd : d.OnStage fired openings) (hf : fired → fired') :
    d.OnStage fired' openings := by
  obtain ⟨c, hdesk, hc⟩ := hd
  exact ⟨c, hdesk, { hc with
    stands := hc.stands.imp fun _ h => ⟨h.sound.mono hf, fun hp => hf (h.finished hp)⟩ }⟩

theorem OnStage.others (hd : d.OnStage fired openings) (sink : Sink) (journal : List Entry) :
    { d with sink, journal }.OnStage fired openings := by
  obtain ⟨c, rfl, hc⟩ := hd
  exact ⟨{ c with desk := { c.desk with sink, journal } }, rfl, hc.stands.desk rfl, hc.settled,
    hc.called, hc.ahead⟩

theorem lasting_start (config : SessionConfig) (crew : Crew) (id : SessionId) :
    (Run.start config crew id).Lasting fired :=
  ⟨Run.sound_start config crew id, fun h => by cases h⟩

/-- A call of a session that has settled opens a scene. -/
theorem onStage_begin (hs : d.session.Settled) (hcalled : d.session.CalledAt openings)
    (hf : m.isShutdown = true → fired) : (d.begin crew m).OnStage fired (openings ++ [m]) := by
  refine ⟨(Scene.start d).apply crew (.session m), rfl, ?_, hs, ⟨openings, rfl, hcalled⟩,
    fun h => by cases h⟩
  refine (Scene.stands_start hs.idle).apply _ ?_ fun _ id => lasting_start _ crew id
  rintro _ ⟨⟩
  exact Run.keeps_lasting crew hf

/-- A turn of the session or of its poller goes on with the scene. -/
theorem OnStage.turn (hd : d.OnStage fired openings) (hbusy : d.session.stage ≠ .idle)
    (hf : m.isShutdown = true → fired) :
    (d.poll crew m).OnStage fired openings ∧ (d.pollPoller crew m).OnStage fired openings := by
  obtain ⟨c, rfl, hst, hb, hcalled, -⟩ := hd
  have hkeeps : Run.Keeps crew m (Run.Lasting fired) := Run.keeps_lasting crew hf
  have hopen : c.opening ≠ none := by
    intro hopen
    cases hst with
    | ahead _ hidle hs => exact hbusy (hs ▸ hidle)
    | refusing h => cases hopen.symm.trans h
    | refused h => cases hopen.symm.trans h
    | launched h => cases hopen.symm.trans h
  obtain ⟨m₀, hm₀⟩ := Option.ne_none_iff_exists'.mp hopen
  have happly : ∀ t : SceneTurn, t.moment? = some m → (c.apply crew t).Stands (Run.Lasting fired) :=
    fun t ht => hst.apply t (by rw [ht]; rintro _ ⟨⟩; exact hkeeps)
      fun _ id => lasting_start _ crew id
  have hsession := happly (.session m) rfl
  rw [Scene.apply_session hm₀] at hsession
  exact ⟨⟨_, rfl, hsession, hb, hcalled, fun h => absurd h hopen⟩,
    ⟨_, rfl, happly (.poller m) rfl, hb, hcalled, fun h => absurd h hopen⟩⟩

theorem poll_of_idle (hidle : d.session.stage = .idle) :
    d.poll crew m = d ∧ d.pollPoller crew m = d := ⟨poll_idle hidle, pollPoller_idle hidle⟩

end SessionDesk

namespace Life

variable {crew : Crew} {l : Life} {openings : List Moment}

/-- What every turn keeps, given the moments in which the session was called so far. -/
structure Lived (openings : List Moment) (l : Life) : Prop where
  onStage : l.desk.OnStage (l.hasFired = true) openings
  gone : l.isGone = true → l.desk.session.stage = .idle
  follows : l.watcher.Follows l.isGone l.desk.session

theorem lived_start (config : SessionConfig) (sink : Sink) : (start config sink).Lived [] :=
  ⟨SessionDesk.onStage_start config sink, fun h => (by cases h), Watcher.follows_start _⟩

theorem Lived.turn (hl : l.Lived openings) {m : Moment} {d : SessionDesk}
    (hd : d = l.desk.poll crew m ∨ d = l.desk.pollPoller crew m) :
    { l with desk := d, hasFired := l.sees m }.Lived openings := by
  by_cases hidle : l.desk.session.stage = .idle
  · have hsame : d = l.desk := by
      rcases hd with rfl | rfl
      · exact (SessionDesk.poll_of_idle hidle).1
      · exact (SessionDesk.poll_of_idle hidle).2
    have hfired : l.sees m = l.hasFired := by simp [sees, Session.isIdle, hidle]
    rw [hsame, hfired]
    exact hl
  · have hbusy : l.isGone = false := Bool.eq_false_iff.mpr fun h => hidle (hl.gone h)
    have hfired : m.isShutdown = true → l.sees m = true := fun h => by
      simp [sees, Session.isIdle, hidle, h]
    obtain ⟨hsession, hpoller⟩ : (l.desk.poll crew m).OnStage (l.sees m = true) openings ∧
        (l.desk.pollPoller crew m).OnStage (l.sees m = true) openings :=
      (hl.onStage.mono fun h => by simp [sees, h]).turn hidle hfired
    have hgone : l.isGone = true → d.session.stage = .idle := fun h => by simp [hbusy] at h
    have hdead : l.isGone = true → d.session.written = l.desk.session.written :=
      fun h => by simp [hbusy] at h
    rcases hd with rfl | rfl
    · exact ⟨hsession, hgone, hl.follows.grow (l.desk.poll_written crew m) hdead⟩
    · exact ⟨hpoller, hgone,
        hl.follows.grow ⟨[], by rw [List.append_nil, SessionDesk.pollPoller_written]⟩ hdead⟩

/-- A turn that is no call adds no moment. -/
theorem Lived.uncalled (hl : l.Lived openings) :
    l.Lived (openings ++ (none : Option Moment).toList) := by
  rwa [Option.toList_none, List.append_nil]

/-- **Every turn keeps it**, and only a call adds to the moments. -/
theorem Lived.apply (hl : l.Lived openings) (t : LifeTurn) :
    (l.apply crew t).Lived (openings ++ (l.opening? t).toList) := by
  cases t with
  | call m =>
    simp only [Life.apply, opening?]
    split
    · rename_i hcall
      simp only [Session.isIdle, beq_iff_eq, Bool.and_eq_true, Bool.not_eq_true'] at hcall
      obtain ⟨hidle, hthere⟩ := hcall
      exact ⟨SessionDesk.onStage_begin (hl.onStage.settled hidle) hl.onStage.calledAt id,
        fun h => by simp [hthere] at h,
        hl.follows.grow (l.desk.begin_written crew m) fun h => by simp [hthere] at h⟩
    · exact hl.uncalled
  | session m => exact (hl.turn (.inl rfl)).uncalled
  | poller m => exact (hl.turn (.inr rfl)).uncalled
  | watcher => exact Lived.uncalled ⟨hl.onStage, hl.gone, hl.follows.poll⟩
  | others sink journal =>
    exact Lived.uncalled ⟨hl.onStage.others sink journal, hl.gone, hl.follows⟩
  | drop =>
    refine Lived.uncalled ?_
    simp only [Life.apply]
    split
    · rename_i hidle
      refine ⟨hl.onStage, fun _ => by simpa [Session.isIdle] using hidle, ?_⟩
      exact ⟨hl.follows.version_le, hl.follows.seen, hl.follows.last,
        fun h => ⟨rfl, (hl.follows.done h).2⟩⟩
    · exact hl

theorem Lived.play (hl : l.Lived openings) (tape : List LifeTurn) :
    (l.play crew tape).Lived (openings ++ l.openings crew tape) := by
  induction tape generalizing l openings with
  | nil => exact (List.append_nil openings).symm ▸ hl
  | cons t tape ih =>
    rw [Life.openings, ← List.append_assoc]
    exact ih (hl.apply t)

end Life

end HealthRelay
