import HealthRelay.Proofs.Call
import HealthRelay.Proofs.Session.Lasting

/-!
# The attempts of a session

Each call adds one attempt to those of its session, and changes no other. `Stands.attempts` says
what the attempt of a call looks like, `Stands.written` what the call has written, `poll_endsAt`
when it comes to its end, and `begin_identity` which answer about an identity it depends on.
-/

namespace HealthRelay

/-- What a call writes from its beginning to its end, given the identity that it got. -/
def Phase.course : Option SessionId → List Phase
  | some _ => [.init, .running, .terminated]
  | none => [.init, .terminated]

theorem Phase.count_init (identity : Option SessionId) : (course identity).count .init = 1 := by
  cases identity <;> rfl

theorem Phase.count_terminated (identity : Option SessionId) :
    (course identity).count .terminated = 1 := by
  cases identity <;> rfl

/-! ## When a call ends -/

namespace Session

/-- If the session has come to rest, its last call ended now. -/
def EndsAt (s : Session) (now : Nat) : Prop :=
  s.stage = .idle → ∀ a, s.past.getLast? = some a → a.endedAt = some now

theorem put_endsAt (s : Session) (a : Attempt) (run : Run) (now : Nat) :
    (s.put a run now).EndsAt now := by
  by_cases hover : run.activity = .over
  · rw [Session.put_over hover]
    intro _ a' ha'
    rw [List.getLast?_concat] at ha'
    cases ha'
    rfl
  · rw [Session.put_on hover]
    intro h
    cases h

theorem attempts_idle {s : Session} (hidle : s.stage = .idle) : s.attempts = s.past := by
  simp [attempts, hidle]

end Session

namespace SessionDesk

variable {crew : Crew} {d : SessionDesk}

theorem refuse_endsAt (d : SessionDesk) (a : Attempt) (e : Emission)
    (looked : Progress Emitted × Sink) (now : Nat) :
    (d.refuse a e looked now).session.EndsAt now := by
  obtain ⟨_ | emitted, sink⟩ := looked
  · intro h
    cases h
  · intro _ a' ha'
    simp only [refuse, abort, List.getLast?_concat] at ha'
    cases ha'
    rfl

theorem join_endsAt (d : SessionDesk) (a : Attempt) (run : Run) (m : Moment) :
    (d.join a run m).session.EndsAt m.now := by
  obtain ⟨activity, hs, -⟩ := d.join_session a run m
  rw [hs]
  exact Session.put_endsAt _ _ _ _

theorem report_endsAt (d : SessionDesk) (a : Attempt) (run : Run) (crew : Crew) (m : Moment) :
    (d.report a run crew m).session.EndsAt m.now := by
  rcases d.report_eq a run crew m with ⟨-, hs⟩ | ⟨-, hs⟩
  · rw [hs]
    intro h
    cases h
  · rw [hs]
    exact join_endsAt _ _ _ _

theorem begin_endsAt (d : SessionDesk) (crew : Crew) (m : Moment) :
    (d.begin crew m).session.EndsAt m.now := by
  cases hid : m.identity d.session.past.length with
  | error cause =>
    rw [begin_error hid]
    exact refuse_endsAt _ _ _ _ _
  | ok id =>
    rw [begin_ok hid]
    exact report_endsAt _ _ _ _ _

/-- A turn that ends a call ends it now. -/
theorem poll_endsAt (hbusy : d.session.stage ≠ .idle) (crew : Crew) (m : Moment) :
    (d.poll crew m).session.EndsAt m.now := by
  unfold poll
  split
  · rename_i hst
    exact absurd hst hbusy
  · exact refuse_endsAt _ _ _ _ _
  · split
    · exact report_endsAt _ _ _ _ _
    · exact join_endsAt _ _ _ _
    · rw [mourn_session]
      exact Session.put_endsAt _ _ _ _
    · exact fun h => absurd h hbusy

theorem pollPoller_past (d : SessionDesk) (crew : Crew) (m : Moment) :
    (d.pollPoller crew m).session.past = d.session.past := by
  unfold pollPoller
  split <;> rfl

theorem pollPoller_attempts (d : SessionDesk) (crew : Crew) (m : Moment) :
    (d.pollPoller crew m).session.attempts.length = d.session.attempts.length := by
  unfold pollPoller
  split
  · rename_i hst
    simp [Session.attempts, hst]
  · rfl

theorem pollPoller_busy (hbusy : d.session.stage ≠ .idle) (crew : Crew) (m : Moment) :
    (d.pollPoller crew m).session.stage ≠ .idle := by
  unfold pollPoller
  split
  · simp
  · exact hbusy

/-- Only the answer about the identity of the call that begins is looked at. -/
theorem begin_identity {m : Moment} {identity : Nat → Except Failure SessionId}
    (h : identity d.session.past.length = m.identity d.session.past.length) :
    d.begin crew { m with identity } = d.begin crew m := by
  cases hid : m.identity d.session.past.length with
  | error cause =>
    rw [begin_error hid]
    exact begin_error (m := { m with identity }) (h.trans hid)
  | ok id =>
    rw [begin_ok hid]
    exact begin_ok (m := { m with identity }) (h.trans hid)

end SessionDesk

/-! ## The attempts of a scene -/

namespace Run

variable {crew : Crew} {config : SessionConfig} {run : Run}

/-- What is kept of the run of a call. -/
def IsSigned (crew : Crew) (config : SessionConfig) (run : Run) : Prop :=
  run.Sound True ∧ run.Equipped config crew

theorem IsSigned.sessionId (h : run.IsSigned crew config) {d : Delivery}
    (hd : d ∈ run.reporter.deliveries) : d.sessionId = run.sessionId := by
  have hreport : d.report ∈ run.reporter.reports := List.mem_map_of_mem hd
  rw [h.2.reports h.1.signed, List.mem_map] at hreport
  obtain ⟨s, -, hs⟩ := hreport
  exact (congrArg Report.sessionId hs).symm

theorem isSigned_start (config : SessionConfig) (crew : Crew) (id : SessionId) :
    (start config crew id).IsSigned crew config := ⟨sound_start config crew id, rfl⟩

theorem keeps_signed (crew : Crew) (m : Moment) (config : SessionConfig) :
    Keeps crew m (IsSigned crew config) :=
  (keeps_sound crew fun _ => trivial).and (keeps_equipped config crew m)

end Run

namespace Scene

variable {crew : Crew} {c : Scene} {m : Moment} {I : Run → Prop}

/-- The attempts of a call that has begun: those before it, and its own. -/
theorem Stands.attempts (hst : c.Stands I) (hopen : c.opening = some m) :
    ∃ a, c.desk.session.attempts = c.before.past ++ [a] ∧ a.startedAt = m.now ∧
      a.identity = (m.identity c.before.past.length).toOption ∧
      a.run.map (·.sessionId) = a.identity ∧ ∀ run, a.run = some run → I run := by
  cases hst with
  | ahead hopen' => cases hopen'.symm.trans hopen
  | refusing hopen' hid hs =>
    cases hopen'.symm.trans hopen
    have hidentity : (c.attempt m).identity = none := by simp [attempt, hid, Except.toOption]
    exact ⟨c.attempt m, by rw [hs]; rfl, rfl, rfl, hidentity.symm, fun run h => by cases h⟩
  | refused hopen' hid hs =>
    cases hopen'.symm.trans hopen
    have hidentity : (c.attempt m).identity = none := by simp [attempt, hid, Except.toOption]
    refine ⟨_, by rw [hs]; exact List.append_nil _, rfl, rfl, ?_, fun run h => by cases h⟩
    exact hidentity.symm
  | launched hopen' hid hs hi =>
    rename_i m₀ run n
    cases hopen'.symm.trans hopen
    have hidentity : (c.attempt m).identity = some run.sessionId := by
      simp [attempt, hid, Except.toOption]
    by_cases hover : run.activity = .over
    · rw [Session.put_over hover] at hs
      refine ⟨_, by rw [hs]; exact List.append_nil _, rfl, rfl, ?_, ?_⟩
      · exact hidentity.symm
      · rintro _ ⟨⟩
        exact hi
    · rw [Session.put_on hover] at hs
      refine ⟨_, by rw [hs]; rfl, rfl, rfl, ?_, ?_⟩
      · exact hidentity.symm
      · rintro _ ⟨⟩
        exact hi

/-- What a call that has begun has written: all its phases, or all but the last if it is on. -/
theorem Stands.written (hst : c.Stands I) (hopen : c.opening = some m) :
    c.desk.session.written = c.before.written ++
      let course := Phase.course (m.identity c.before.past.length).toOption
      if c.desk.session.isIdle then course else course.dropLast := by
  cases hst with
  | ahead hopen' => cases hopen'.symm.trans hopen
  | refusing hopen' hid hs =>
    cases hopen'.symm.trans hopen
    simp [hs, hid, Session.write, Session.isIdle, Phase.course, Except.toOption]
  | refused hopen' hid hs =>
    cases hopen'.symm.trans hopen
    simp [hs, hid, Session.write, Session.isIdle, Phase.course, Except.toOption]
  | launched hopen' hid hs hi =>
    rename_i m₀ run n
    cases hopen'.symm.trans hopen
    by_cases hover : run.activity = .over
    · rw [Session.put_over hover] at hs
      simp [hs, hid, Session.write, Session.isIdle, Phase.course, Except.toOption]
    · rw [Session.put_on hover] at hs
      simp [hs, hid, Session.write, Session.isIdle, Phase.course, Except.toOption]

theorem Stands.past_length (hst : c.Stands I) (hopen : c.opening = some m)
    (hidle : c.desk.session.stage = .idle) :
    c.desk.session.past.length = c.before.past.length + 1 := by
  obtain ⟨a, hattempts, -⟩ := hst.attempts hopen
  have hpast : c.desk.session.past = c.before.past ++ [a] := by
    simpa [Session.attempts, hidle] using hattempts
  rw [hpast, List.length_append, List.length_singleton]

theorem Stands.past_isPrefix (hst : c.Stands I) :
    c.before.past <+: c.desk.session.past := by
  cases hst with
  | ahead _ _ hs => exact hs ▸ List.prefix_rfl
  | refusing _ _ hs =>
    rw [hs]
    exact ⟨[], List.append_nil _⟩
  | refused _ _ hs =>
    rw [hs]
    exact List.prefix_append ..
  | launched hopen hid hs hi =>
    rename_i m₀ run n
    rw [hs]
    by_cases hover : run.activity = .over
    · rw [Session.put_over hover]
      exact List.prefix_append ..
    · rw [Session.put_on hover]
      exact ⟨[], List.append_nil _⟩

theorem Stands.past (hst : c.Stands I) (hbusy : c.desk.session.stage ≠ .idle) :
    c.desk.session.past = c.before.past := by
  cases hst with
  | ahead _ hidle hs => exact absurd (hs ▸ hidle) hbusy
  | refusing _ _ hs => rw [hs]; rfl
  | refused _ _ hs => exact absurd (by rw [hs]) hbusy
  | launched hopen hid hs hi =>
    rename_i m₀ run n
    by_cases hover : run.activity = .over
    · rw [Session.put_over hover] at hs
      exact absurd (by rw [hs]) hbusy
    · rw [Session.put_on hover] at hs
      rw [hs]
      rfl

/-- A turn of the session goes on with a call that has begun. -/
theorem Stands.session (hst : c.Stands I) {m₀ : Moment}
    (hopen : c.opening = some m₀) (hk : Run.Keeps crew m I) :
    { c with desk := c.desk.poll crew m }.Stands I := by
  have hst' := hst.apply (.session m) (fun _ hm => by cases hm; exact hk)
    fun h => by cases h.symm.trans hopen
  rwa [apply_session hopen] at hst'

theorem Stands.poller (hst : c.Stands I) {m₀ : Moment}
    (hopen : c.opening = some m₀) (hk : Run.Keeps crew m I) :
    { c with desk := c.desk.pollPoller crew m }.Stands I :=
  hst.apply (.poller m) (fun _ hm => by cases hm; exact hk) fun h => by cases h.symm.trans hopen

theorem stands_called (d : SessionDesk) (crew : Crew) (m : Moment) :
    (Scene.mk d.session (some m) (d.begin crew m)).Stands
      (Run.IsSigned crew d.session.config) :=
  stands_begin (c := start d) (Run.keeps_signed crew m d.session.config) rfl
    (Run.isSigned_start _ crew)

theorem begun_length (d : SessionDesk) (crew : Crew) (m : Moment) :
    (d.begin crew m).session.attempts.length = d.session.past.length + 1 := by
  have hst := stands_called d crew m
  obtain ⟨a, hattempts, -⟩ := Stands.attempts hst rfl
  have hlength := congrArg List.length hattempts
  rwa [List.length_append, List.length_singleton] at hlength

end Scene

end HealthRelay
