import HealthRelay.Proofs.Agent.Lives
import HealthRelay.Proofs.Session.Attempts
import Mathlib.Data.List.Induction

/-!
# The calls of an agent

An agent calls its session again and again. `Turned` lists all that a turn can do to the sessions of
an agent. `Entered` is what every turn keeps of the call that is on, or that was the last, and of
the calls before it: in which turn each began and in which it ended, and that a pause lies between
two of them. `Kept` adds what the agent itself knows of its calls.
-/

namespace HealthRelay

/-! ## Attempts -/

/-- An attempt that was opened in a moment, with this number. -/
structure Attempt.IsOpened (i : Nat) (m : Moment) (a : Attempt) : Prop where
  startedAt : a.startedAt = m.now
  identity : a.identity = (m.identity i).toOption
  signed : ∀ run, a.run = some run → ∀ d ∈ run.reporter.deliveries, a.identity = some d.sessionId

/-- An attempt that was opened and came to its end in turns of these. -/
structure Attempt.IsClosed (opens ends : Nat → AgentMoment → Prop) (i : Nat) (a : Attempt) :
    Prop where
  opened : ∃ m, opens i m ∧ a.IsOpened i m.toMoment
  ended : ∃ m, ends i m ∧ a.endedAt = some m.now

/-- So were they all. -/
def AreClosed (opens ends : Nat → AgentMoment → Prop) (past : List Attempt) : Prop :=
  ∀ (i : Nat) (a : Attempt), past[i]? = some a → a.IsClosed opens ends i

/-- Attempts that began a pause after the one before each, given when they began. -/
def AreSpaced (pause : Duration) (past : List Attempt) (starts : List Nat) : Prop :=
  ∀ (i : Nat) (a : Attempt) (s : Nat), past[i]? = some a → starts[i + 1]? = some s →
    ∃ e, a.endedAt = some e ∧ e + pause.nanos ≤ s

namespace Scene

variable {crew : Crew} {c : Scene} {m : Moment} {config : SessionConfig}

theorem Stands.isOpened (hst : c.Stands (Run.IsSigned crew config)) (hopen : c.opening = some m) :
    ∃ a, c.desk.session.attempts = c.before.past ++ [a] ∧ a.IsOpened c.before.past.length m := by
  obtain ⟨a, hattempts, hstarted, hidentity, hid, hsigned⟩ := hst.attempts hopen
  refine ⟨a, hattempts, hstarted, hidentity, fun run h d hd => ?_⟩
  rw [← hid, h, Option.map_some, (hsigned run h).sessionId hd]

/-- A call with the calls before it, given the turns in which calls began and those in which calls
ended, each with the number of its call, and the pause between two calls. -/
structure Entered (crew : Crew) (opens ends : Nat → AgentMoment → Prop) (pause : Duration)
    (m : AgentMoment) (c : Scene) : Prop where
  opening : c.opening = some m.toMoment
  opened : opens c.before.past.length m
  stands : c.Stands (Run.IsSigned crew c.before.config)
  past : AreClosed opens ends c.before.past
  spaced : AreSpaced pause c.before.past (c.before.past.map (·.startedAt) ++ [m.now])
  /-- A call that is over came to its end in such a turn. -/
  ended : c.desk.session.stage = .idle →
    ∃ m', ends c.before.past.length m' ∧ c.desk.session.EndsAt m'.now

variable {opens ends opens' ends' : Nat → AgentMoment → Prop} {pause : Duration}
  {m₀ : AgentMoment}

theorem Entered.mono (hc : c.Entered crew opens ends pause m₀)
    (ho : ∀ i m, opens i m → opens' i m) (he : ∀ i m, ends i m → ends' i m) :
    c.Entered crew opens' ends' pause m₀ where
  opening := hc.opening
  opened := ho _ _ hc.opened
  stands := hc.stands
  past i a h := by
    obtain ⟨⟨m, hm, ha⟩, m', hm', ha'⟩ := hc.past i a h
    exact ⟨⟨m, ho _ _ hm, ha⟩, m', he _ _ hm', ha'⟩
  spaced := hc.spaced
  ended h := by
    obtain ⟨m', hm', hlast⟩ := hc.ended h
    exact ⟨m', he _ _ hm', hlast⟩

/-- Of a session only what it shares may change without a turn of it. -/
theorem Entered.desk (hc : c.Entered crew opens ends pause m₀) {d : SessionDesk}
    (hd : d.session = c.desk.session) : { c with desk := d }.Entered crew opens ends pause m₀ where
  opening := hc.opening
  opened := hc.opened
  stands := hc.stands.desk hd
  past := hc.past
  spaced := hc.spaced
  ended h := by
    have hidle : c.desk.session.stage = .idle := hd ▸ h
    show ∃ m', ends c.before.past.length m' ∧ d.session.EndsAt m'.now
    rw [hd]
    exact hc.ended hidle

/-- A turn of the session goes on with its call. -/
theorem Entered.session (hc : c.Entered crew opens ends pause m₀) (m : AgentMoment)
    (hbusy : c.desk.session.stage ≠ .idle)
    (hend : (c.desk.poll crew m.toMoment).session.past.length = c.before.past.length + 1 →
      ends c.before.past.length m) :
    { c with desk := c.desk.poll crew m.toMoment }.Entered crew opens ends pause m₀ := by
  have hst := hc.stands.session hc.opening (Run.keeps_signed crew m.toMoment _)
  have hopen : ({ c with desk := c.desk.poll crew m.toMoment } : Scene).opening =
      some m₀.toMoment := hc.opening
  refine ⟨hopen, hc.opened, hst, hc.past, hc.spaced, fun h => ⟨m, hend ?_, ?_⟩⟩
  · exact hst.past_length hopen h
  · exact SessionDesk.poll_endsAt hbusy crew m.toMoment

/-- So does a turn of its poller. -/
theorem Entered.poller (hc : c.Entered crew opens ends pause m₀) (m : Moment) :
    { c with desk := c.desk.pollPoller crew m }.Entered crew opens ends pause m₀ where
  opening := hc.opening
  opened := hc.opened
  stands := hc.stands.poller hc.opening (Run.keeps_signed crew m _)
  past := hc.past
  spaced := hc.spaced
  ended h := by
    by_cases hidle : c.desk.session.stage = .idle
    · rw [SessionDesk.pollPoller_idle hidle]
      exact hc.ended hidle
    · exact absurd h (SessionDesk.pollPoller_busy hidle crew m)

/-- A session is called. -/
theorem entered_begin {d : SessionDesk} (hopened : opens d.session.past.length m₀)
    (hpast : AreClosed opens ends d.session.past)
    (hspaced : AreSpaced pause d.session.past (d.session.past.map (·.startedAt) ++ [m₀.now]))
    (hend : (d.begin crew m₀.toMoment).session.past.length = d.session.past.length + 1 →
      ends d.session.past.length m₀) :
    (Scene.mk d.session (some m₀.toMoment) (d.begin crew m₀.toMoment)).Entered crew opens ends
      pause m₀ := by
  have hst := stands_called d crew m₀.toMoment
  refine ⟨rfl, hopened, hst, hpast, hspaced, fun h => ⟨m₀, hend ?_, ?_⟩⟩
  · exact hst.past_length rfl h
  · exact SessionDesk.begin_endsAt d crew m₀.toMoment

/-- Once a call is over it is one of those before the next. -/
theorem Entered.next (hc : c.Entered crew opens ends pause m₀)
    (hidle : c.desk.session.stage = .idle) :
    ∃ a, c.desk.session.past = c.before.past ++ [a] ∧ a.startedAt = m₀.now ∧
      a.IsClosed opens ends c.before.past.length := by
  obtain ⟨a, hattempts, ha⟩ := hc.stands.isOpened hc.opening
  have hpast : c.desk.session.past = c.before.past ++ [a] := by
    simpa [Session.attempts, hidle] using hattempts
  obtain ⟨m', hm', hlast⟩ := hc.ended hidle
  have hended := hlast hidle a (by rw [hpast, List.getLast?_concat])
  exact ⟨a, hpast, ha.startedAt, ⟨m₀, hc.opened, ha⟩, m', hm', hended⟩

theorem Entered.next_past (hc : c.Entered crew opens ends pause m₀)
    (hidle : c.desk.session.stage = .idle) : AreClosed opens ends c.desk.session.past := by
  obtain ⟨a, hpast, -, ha⟩ := hc.next hidle
  rw [hpast]
  intro i a' h
  rcases getElem?_concat_cases h with h | ⟨rfl, rfl⟩
  · exact hc.past i a' h
  · exact ha

theorem Entered.next_spaced (hc : c.Entered crew opens ends pause m₀)
    (hidle : c.desk.session.stage = .idle) {now : Nat}
    (hnow : ∀ a, c.desk.session.past.getLast? = some a →
      ∃ e, a.endedAt = some e ∧ e + pause.nanos ≤ now) :
    AreSpaced pause c.desk.session.past (c.desk.session.past.map (·.startedAt) ++ [now]) := by
  obtain ⟨a, hpast, hstarted, -⟩ := hc.next hidle
  rw [hpast] at hnow ⊢
  rw [List.map_append, List.map_singleton, hstarted]
  intro i a' s h hs
  rcases getElem?_concat_cases h with h | ⟨rfl, rfl⟩
  · have hlt := (List.getElem?_eq_some_iff.mp h).1
    rw [List.getElem?_append_left (by simp; omega)] at hs
    exact hc.spaced i a' s h hs
  · rcases getElem?_concat_cases hs with hs | ⟨-, rfl⟩
    · have hlt := (List.getElem?_eq_some_iff.mp hs).1
      simp at hlt
    · exact hnow a' List.getLast?_concat

end Scene

/-! ## Turns of an agent -/

namespace Agent

/-- All that a turn can do to the sessions of an agent. -/
inductive Turned (crew : Crew) (a : Agent) : HostTurn → Agent → Prop where
  /-- The agent calls its session. -/
  | launch {m : AgentMoment}
      (hst : a.stage = .fresh ∨ ∃ wakeAt, a.stage = .pausing wakeAt ∧ wakeAt ≤ m.now) :
      Turned crew a (.agent (.agent m))
        ((a.withDesk (a.desk.begin crew m.toMoment)).afterSession m.toMoment)
  /-- The call goes on. -/
  | session {m : AgentMoment} (hst : a.stage = .inSession) :
      Turned crew a (.agent (.agent m))
        ((a.withDesk (a.desk.poll crew m.toMoment)).afterSession m.toMoment)
  | poller (m : Moment) : Turned crew a (.agent (.poller m)) (a.pollPoller crew m)
  /-- The token has fired during the pause. -/
  | stop {m : AgentMoment} {wakeAt : Nat} (hst : a.stage = .pausing wakeAt)
      (hm : m.isShutdown = true) : Turned crew a (.agent (.agent m)) { a with stage := .stopped }
  /-- Nothing, as far as the sessions go. -/
  | rest {t : HostTurn} {a' : Agent} (hs : a'.session = a.session) (hst : a'.stage = a.stage)
      (hn : a'.sessions = a.sessions) (hd : a'.restartDelay = a.restartDelay) : Turned crew a t a'

theorem host_turned (crew : Crew) (a : Agent) (t : HostTurn) : Turned crew a t (a.host crew t) := by
  cases t with
  | sink sink => exact .rest rfl rfl rfl rfl
  | agent t =>
    cases t with
    | poller m => exact .poller m
    | supervisor => exact .rest rfl rfl rfl rfl
    | watcher => exact .rest rfl rfl rfl rfl
    | agent m =>
      show Turned crew a _ (a.poll crew m)
      unfold poll
      cases hst : a.stage with
      | fresh => exact .launch (.inl hst)
      | inSession => exact .session hst
      | stopped => exact .rest rfl rfl rfl rfl
      | pausing wakeAt =>
        simp only
        split
        · rename_i hstop
          rw [Bool.and_eq_true] at hstop
          exact .stop hst hstop.1
        · split
          · rename_i hdue
            exact .launch (.inr ⟨wakeAt, hst, of_decide_eq_true hdue⟩)
          · exact .rest rfl rfl rfl rfl

variable {crew : Crew} {a : Agent}

theorem afterSession_busy (hbusy : a.session.stage ≠ .idle) (m : Moment) :
    a.afterSession m = { a with stage := .inSession } := by
  unfold afterSession
  rw [if_neg (by simpa [Session.isIdle] using hbusy)]

theorem afterSession_idle (hidle : a.session.stage = .idle) (m : Moment) :
    ∃ stage journal, a.afterSession m = { a with sessions := a.sessions + 1, stage, journal } ∧
      (m.isShutdown = true ∧ stage = .stopped ∨
        m.isShutdown = false ∧ stage = .pausing (m.now + a.restartDelay.nanos)) := by
  unfold afterSession
  rw [if_pos (by simp [Session.isIdle, hidle])]
  cases m.isShutdown with
  | true => exact ⟨_, _, rfl, .inl ⟨rfl, rfl⟩⟩
  | false => exact ⟨_, _, rfl, .inr ⟨rfl, rfl⟩⟩

theorem afterSession_session (a : Agent) (m : Moment) :
    (a.afterSession m).session = a.session := by
  by_cases hidle : a.session.stage = .idle
  · obtain ⟨stage, journal, heq, -⟩ := afterSession_idle hidle m
    rw [heq]
  · rw [afterSession_busy hidle]

/-- What every turn keeps. -/
structure Kept (crew : Crew) (opens ends : Nat → AgentMoment → Prop) (pause : Duration)
    (a : Agent) : Prop where
  restartDelay : a.restartDelay = pause
  count : a.sessions = a.session.past.length
  idle : a.stage ≠ .inSession ↔ a.session.stage = .idle
  fresh : a.stage = .fresh → a.session.past = []
  call : a.stage ≠ .fresh → ∃ (c : Scene) (m : AgentMoment), c.desk = a.desk ∧
    c.Entered crew opens ends pause m
  /-- The pause began when the last call ended. -/
  pausing : ∀ wakeAt, a.stage = .pausing wakeAt → ∀ at', a.session.past.getLast? = some at' →
    ∃ e, at'.endedAt = some e ∧ wakeAt = e + pause.nanos

variable {opens ends opens' ends' : Nat → AgentMoment → Prop} {pause : Duration} {a' : Agent}

theorem kept_start (config : SessionConfig) (pause : Duration) (sink : Sink) :
    (start config pause sink).Kept crew opens ends pause :=
  ⟨rfl, rfl, by simp [start, Session.start], fun _ => rfl, fun h => absurd rfl h,
    fun wakeAt h => by cases h⟩

theorem Kept.mono (ha : a.Kept crew opens ends pause) (ho : ∀ i m, opens i m → opens' i m)
    (he : ∀ i m, ends i m → ends' i m) : a.Kept crew opens' ends' pause :=
  { ha with
    call := fun h => by
      obtain ⟨c, m, hc, hentered⟩ := ha.call h
      exact ⟨c, m, hc, hentered.mono ho he⟩ }

/-- When a session's turn is over the agent goes on with it, pauses, or stops. -/
theorem kept_afterSession {c : Scene} {m₀ : AgentMoment} {m : Moment}
    (hc : c.Entered crew opens ends pause m₀) (hdesk : c.desk = a.desk)
    (hpause : a.restartDelay = pause) (hcount : a.sessions = c.before.past.length)
    (hend : c.desk.session.EndsAt m.now) :
    (a.afterSession m).Kept crew opens ends pause := by
  have hsession : c.desk.session = a.session := congrArg SessionDesk.session hdesk
  by_cases hidle : a.session.stage = .idle
  · have hlength := hc.stands.past_length hc.opening (hsession ▸ hidle)
    rw [hsession] at hlength
    obtain ⟨stage, journal, heq, hstage⟩ := afterSession_idle hidle m
    rw [heq]
    have hne : stage ≠ .inSession ∧ stage ≠ .fresh := by
      rcases hstage with ⟨-, rfl⟩ | ⟨-, rfl⟩ <;> simp
    refine ⟨hpause, by rw [hlength, hcount], ⟨fun _ => hidle, fun _ => hne.1⟩,
      fun h => absurd h hne.2, fun _ => ⟨_, m₀, rfl, hc.desk (d := ⟨a.session, a.sink, journal⟩)
        hsession.symm⟩, fun wakeAt h at' hlast => ?_⟩
    rcases hstage with ⟨-, rfl⟩ | ⟨-, rfl⟩
    · cases h
    · cases h
      rw [hsession] at hend
      exact ⟨m.now, hend hidle at' hlast, by rw [hpause]⟩
  · have hpast := hc.stands.past (hsession ▸ hidle)
    rw [hsession] at hpast
    rw [afterSession_busy hidle]
    exact ⟨hpause, by rw [hpast]; exact hcount, by simpa using hidle, fun h => (by cases h),
      fun _ => ⟨c, m₀, hdesk, hc⟩, fun wakeAt h => (by cases h)⟩

/-- A session is called anew no earlier than a pause after its last call. -/
theorem Kept.launch (ha : a.Kept crew opens ends pause) {m : AgentMoment}
    (hst : a.stage = .fresh ∨ ∃ wakeAt, a.stage = .pausing wakeAt ∧ wakeAt ≤ m.now) :
    AreClosed opens ends a.session.past ∧
      AreSpaced pause a.session.past (a.session.past.map (·.startedAt) ++ [m.now]) := by
  rcases hst with hst | ⟨wakeAt, hst, hdue⟩
  · rw [ha.fresh hst]
    exact ⟨fun i a h => by simp at h, fun i a s h => by simp at h⟩
  · obtain ⟨c, m₀, hdesk, hc⟩ := ha.call (by simp [hst])
    have hsession : c.desk.session = a.session := congrArg SessionDesk.session hdesk
    have hidle : c.desk.session.stage = .idle := hsession ▸ ha.idle.mp (by simp [hst])
    have hlate : ∀ a', c.desk.session.past.getLast? = some a' →
        ∃ e, a'.endedAt = some e ∧ e + pause.nanos ≤ m.now := fun a' hlast => by
      obtain ⟨e, he, hwake⟩ := ha.pausing wakeAt hst a' (hsession ▸ hlast)
      exact ⟨e, he, by omega⟩
    have hspaced := hc.next_spaced hidle hlate
    have hpast := hc.next_past hidle
    rw [hsession] at hspaced hpast
    exact ⟨hpast, hspaced⟩

theorem Kept.launched (ha : a.Kept crew opens ends pause) {m : AgentMoment}
    (hst : a.stage = .fresh ∨ ∃ wakeAt, a.stage = .pausing wakeAt ∧ wakeAt ≤ m.now)
    (hopen : (a.desk.begin crew m.toMoment).session.attempts.length =
      a.session.attempts.length + 1 → opens a.session.attempts.length m)
    (hend : (a.desk.begin crew m.toMoment).session.past.length = a.session.past.length + 1 →
      ends a.session.past.length m) :
    ((a.withDesk (a.desk.begin crew m.toMoment)).afterSession m.toMoment).Kept crew opens ends
      pause := by
  have hidle : a.session.stage = .idle := ha.idle.mp (by
    rcases hst with hst | ⟨wakeAt, hst, -⟩ <;> simp [hst])
  have hattempts := Session.attempts_idle hidle
  have hopened := hopen (by
    rw [hattempts]
    exact Scene.begun_length a.desk crew m.toMoment)
  rw [hattempts] at hopened
  obtain ⟨hpast, hspaced⟩ := ha.launch hst
  exact kept_afterSession (Scene.entered_begin (d := a.desk) hopened hpast hspaced hend) rfl
    ha.restartDelay ha.count (SessionDesk.begin_endsAt a.desk crew m.toMoment)

theorem Kept.resumed (ha : a.Kept crew opens ends pause) {m : AgentMoment}
    (hst : a.stage = .inSession)
    (hend : (a.desk.poll crew m.toMoment).session.past.length = a.session.past.length + 1 →
      ends a.session.past.length m) :
    ((a.withDesk (a.desk.poll crew m.toMoment)).afterSession m.toMoment).Kept crew opens ends
      pause := by
  obtain ⟨c, m₀, hdesk, hc⟩ := ha.call (by simp [hst])
  have hbusy : a.session.stage ≠ .idle := fun h => ha.idle.mpr h hst
  have hsession : c.desk.session = a.session := congrArg SessionDesk.session hdesk
  have hpast := hc.stands.past (hsession ▸ hbusy)
  rw [hsession] at hpast
  have hentered := hc.session m (hsession ▸ hbusy) fun h => by
    rw [hdesk, ← hpast] at h
    exact hpast ▸ hend h
  refine kept_afterSession hentered (congrArg (·.poll crew m.toMoment) hdesk) ha.restartDelay ?_ ?_
  · exact ha.count.trans (congrArg List.length hpast)
  · exact SessionDesk.poll_endsAt (hsession ▸ hbusy) crew m.toMoment

theorem Kept.polled (ha : a.Kept crew opens ends pause) (m : Moment) :
    (a.pollPoller crew m).Kept crew opens ends pause := by
  have hpast : (a.desk.pollPoller crew m).session.past = a.session.past :=
    SessionDesk.pollPoller_past a.desk crew m
  have hcount := ha.count.trans (congrArg List.length hpast.symm)
  refine ⟨ha.restartDelay, hcount, ⟨fun h => ?_, fun h => ?_⟩,
    fun h => hpast.trans (ha.fresh h), fun h => ?_, fun wakeAt h at' hlast => ?_⟩
  · have hidle : a.desk.session.stage = .idle := ha.idle.mp h
    show (a.desk.pollPoller crew m).session.stage = .idle
    rw [SessionDesk.pollPoller_idle hidle, hidle]
  · by_cases hidle : a.session.stage = .idle
    · exact ha.idle.mpr hidle
    · exact absurd h (SessionDesk.pollPoller_busy hidle crew m)
  · obtain ⟨c, m₀, hdesk, hc⟩ := ha.call h
    exact ⟨_, m₀, congrArg (·.pollPoller crew m) hdesk, hc.poller m⟩
  · exact ha.pausing wakeAt h at' (hpast ▸ hlast)

/-- **Every turn keeps it**, given that the predicates know of the turn. -/
theorem Kept.turned (ha : a.Kept crew opens ends pause) {t : HostTurn} (ht : Turned crew a t a')
    (hopens : ∀ i m, opens i m → opens' i m) (hends : ∀ i m, ends i m → ends' i m)
    (hopen : ∀ m, t = .agent (.agent m) →
      a'.session.attempts.length = a.session.attempts.length + 1 →
      opens' a.session.attempts.length m)
    (hend : ∀ m, t = .agent (.agent m) → a'.session.past.length = a.session.past.length + 1 →
      ends' a.session.past.length m) :
    a'.Kept crew opens' ends' pause := by
  have hkept := ha.mono hopens hends
  cases ht with
  | launch hst =>
    rename_i m
    rw [afterSession_session] at hopen hend
    exact hkept.launched hst (hopen m rfl) (hend m rfl)
  | session hst =>
    rename_i m
    rw [afterSession_session] at hend
    exact hkept.resumed hst (hend m rfl)
  | poller m => exact hkept.polled m
  | stop hst =>
    exact ⟨ha.restartDelay, ha.count, ⟨fun _ => ha.idle.mp (by simp [hst]), fun _ => by simp⟩,
      fun h => (by cases h), fun _ => hkept.call (by simp [hst]), fun wakeAt h => (by cases h)⟩
  | rest hs hst hn hd =>
    refine ⟨hd.trans ha.restartDelay, by rw [hn, hs, ha.count], by rw [hst, hs]; exact ha.idle,
      fun h => hs ▸ ha.fresh (hst ▸ h), fun h => ?_,
      fun wakeAt h at' hlast => ha.pausing wakeAt (hst ▸ h) at' (hs ▸ hlast)⟩
    obtain ⟨c, m₀, hdesk, hc⟩ := hkept.call (hst ▸ h)
    have hsession : a'.desk.session = c.desk.session := by
      rw [hdesk]
      exact hs
    exact ⟨_, m₀, rfl, hc.desk hsession⟩

/-! ## Tapes -/

/-- The turn of the agent in which its session shows a phase for the time with this number. -/
def Shows (crew : Crew) (a : Agent) (tape : List HostTurn) (phase : Phase) (i : Nat)
    (m : AgentMoment) : Prop :=
  ∃ early late, tape = early ++ .agent (.agent m) :: late ∧
    (a.hosts crew early).session.written.count phase = i ∧
    (a.hosts crew (early ++ [.agent (.agent m)])).session.written.count phase = i + 1

theorem Shows.append {tape : List HostTurn} {phase : Phase} {i : Nat} {m : AgentMoment}
    (h : a.Shows crew tape phase i m) (more : List HostTurn) :
    a.Shows crew (tape ++ more) phase i m := by
  obtain ⟨early, late, rfl, hi, hnext⟩ := h
  exact ⟨early, late ++ more, by simp, hi, hnext⟩

theorem hosts_append (crew : Crew) (a : Agent) (tape more : List HostTurn) :
    a.hosts crew (tape ++ more) = (a.hosts crew tape).hosts crew more := List.foldl_append ..

variable {config : SessionConfig} {sink : Sink} {tape : List HostTurn}

theorem hosts_orderly (crew : Crew) (config : SessionConfig) (pause : Duration) (sink : Sink)
    (tape : List HostTurn) :
    ((start config pause sink).hosts crew tape).session.Orderly (HostTurn.HasFired tape) := by
  obtain ⟨l, h, hlived⟩ := hosts_lived crew config pause sink tape
  have horderly := hlived.onStage.orderly.mono h.fired
  rw [h.desk] at horderly
  exact horderly

end Agent

namespace Agent

variable {crew : Crew} {config : SessionConfig} {pause : Duration} {sink : Sink}
  {tape : List HostTurn}

theorem hosts_kept (crew : Crew) (config : SessionConfig) (pause : Duration) (sink : Sink)
    (tape : List HostTurn) : ((start config pause sink).hosts crew tape).Kept crew
      ((start config pause sink).Shows crew tape .init)
      ((start config pause sink).Shows crew tape .terminated) pause := by
  induction tape using List.reverseRec with
  | nil => exact kept_start config pause sink
  | append_singleton tape t ih =>
    have ho := hosts_orderly crew config pause sink tape
    have ho' := hosts_orderly crew config pause sink (tape ++ [t])
    have hturned := host_turned crew ((start config pause sink).hosts crew tape) t
    have hnext : (start config pause sink).hosts crew (tape ++ [t]) =
        ((start config pause sink).hosts crew tape).host crew t := hosts_append ..
    rw [← hnext] at hturned
    refine ih.turned hturned (fun _ _ h => h.append _) (fun _ _ h => h.append _)
      (fun m hm h => ?_) fun m hm h => ?_
    · subst hm
      exact ⟨tape, [], rfl, ho.count_init, by rw [ho'.count_init, h]⟩
    · subst hm
      exact ⟨tape, [], rfl, ho.count_terminated, by rw [ho'.count_terminated, h]⟩

section Facts

variable {a : Agent} {opens ends : Nat → AgentMoment → Prop}

/-- The attempts of an agent: those that are over, and one that has begun, if one has. -/
theorem Kept.attempts (ha : a.Kept crew opens ends pause) (hst : a.stage ≠ .fresh) :
    ∃ (c : Scene) (m : AgentMoment) (a₁ : Attempt), c.desk = a.desk ∧
      c.Entered crew opens ends pause m ∧
      a.session.attempts = c.before.past ++ [a₁] ∧
      a₁.IsOpened c.before.past.length m.toMoment := by
  obtain ⟨c, m, hdesk, hc⟩ := ha.call hst
  obtain ⟨a₁, hattempts, ha₁⟩ := hc.stands.isOpened hc.opening
  rw [hdesk] at hattempts
  exact ⟨c, m, a₁, hdesk, hc, hattempts, ha₁⟩

theorem Kept.attempts_fresh (ha : a.Kept crew opens ends pause) (hst : a.stage = .fresh) :
    a.session.attempts = [] := by
  have hidle := ha.idle.mp (by simp [hst])
  simp [Session.attempts, hidle, ha.fresh hst]

theorem Kept.opened (ha : a.Kept crew opens ends pause) {i : Nat} {a₁ : Attempt}
    (h : a.session.attempts[i]? = some a₁) : ∃ m, opens i m ∧ a₁.IsOpened i m.toMoment := by
  by_cases hst : a.stage = .fresh
  · simp [ha.attempts_fresh hst] at h
  · obtain ⟨c, m, a₂, -, hc, hattempts, ha₂⟩ := ha.attempts hst
    rw [hattempts] at h
    rcases getElem?_concat_cases h with h | ⟨rfl, rfl⟩
    · exact (hc.past i a₁ h).opened
    · exact ⟨m, hc.opened, ha₂⟩

theorem Kept.closed (ha : a.Kept crew opens ends pause) : AreClosed opens ends a.session.past := by
  by_cases hst : a.stage = .fresh
  · rw [ha.fresh hst]
    exact fun i a h => by simp at h
  · obtain ⟨c, m, hdesk, hc⟩ := ha.call hst
    have hsession : c.desk.session = a.session := congrArg SessionDesk.session hdesk
    rw [← hsession]
    by_cases hidle : c.desk.session.stage = .idle
    · exact hc.next_past hidle
    · rw [hc.stands.past hidle]
      exact hc.past

/-- Of two sessions in a row the first is over. -/
theorem Kept.spaced (ha : a.Kept crew opens ends pause) {i : Nat} {a₁ a₂ : Attempt}
    (h₁ : a.session.attempts[i]? = some a₁) (h₂ : a.session.attempts[i + 1]? = some a₂) :
    a.session.past[i]? = some a₁ ∧
      ∃ e, a₁.endedAt = some e ∧ e + pause.nanos ≤ a₂.startedAt := by
  by_cases hst : a.stage = .fresh
  · simp [ha.attempts_fresh hst] at h₁
  · obtain ⟨c, m, a₃, hdesk, hc, hattempts, ha₃⟩ := ha.attempts hst
    have hlt : i < c.before.past.length := by
      have hlt := (List.getElem?_eq_some_iff.mp h₂).1
      rw [hattempts, List.length_append, List.length_singleton] at hlt
      omega
    obtain ⟨rest, hrest⟩ : c.before.past <+: a.desk.session.past := hdesk ▸ hc.stands.past_isPrefix
    have hpast : a.session.past = c.before.past ++ rest := hrest.symm
    rw [hattempts] at h₁ h₂
    rw [List.getElem?_append_left hlt] at h₁
    have hstart : (c.before.past.map (·.startedAt) ++ [m.now])[i + 1]? = some a₂.startedAt := by
      have hmap := congrArg (Option.map (·.startedAt)) h₂
      rw [← List.getElem?_map, List.map_append, List.map_singleton, ha₃.startedAt] at hmap
      exact hmap
    refine ⟨?_, hc.spaced i a₁ _ h₁ hstart⟩
    rw [hpast, List.getElem?_append_left hlt, h₁]

theorem Kept.settled {a' : Agent} (ha : a.Kept crew opens ends pause) {t : HostTurn}
    (ht : Turned crew a t a') : a.session.past <+: a'.session.past := by
  cases ht with
  | launch hst =>
    rename_i m
    rw [afterSession_session]
    exact (Scene.stands_called a.desk crew m.toMoment).past_isPrefix
  | session hst =>
    rename_i m
    rw [afterSession_session]
    obtain ⟨c, m₀, hdesk, hc⟩ := ha.call (by simp [hst])
    have hbusy : a.desk.session.stage ≠ .idle := fun h => ha.idle.mpr h hst
    have hpast := hc.stands.past (by rwa [hdesk])
    have hpolled := (hc.stands.session hc.opening
      (Run.keeps_signed crew m.toMoment c.before.config)).past_isPrefix
    rw [hdesk] at hpast hpolled
    exact hpast ▸ hpolled
  | poller m => exact (SessionDesk.pollPoller_past a.desk crew m) ▸ List.prefix_rfl
  | stop => exact List.prefix_rfl
  | rest hs => exact hs ▸ List.prefix_rfl

theorem Kept.stopped {a' : Agent} (ha : a.Kept crew opens ends pause) (hst : a.stage = .stopped)
    {t : HostTurn} (ht : Turned crew a t a') :
    a'.stage = .stopped ∧ a'.sessions = a.sessions ∧ a'.session = a.session := by
  cases ht with
  | launch hst' =>
    rcases hst' with hst' | ⟨wakeAt, hst', -⟩ <;> cases hst.symm.trans hst'
  | session hst' => cases hst.symm.trans hst'
  | poller m =>
    have hidle : a.desk.session.stage = .idle := ha.idle.mp (by simp [hst])
    refine ⟨hst, rfl, ?_⟩
    show (a.desk.pollPoller crew m).session = a.session
    rw [SessionDesk.pollPoller_idle hidle]
    rfl
  | stop hst' => cases hst.symm.trans hst'
  | rest hs hst' hn => exact ⟨hst'.trans hst, hn, hs⟩

/-- Only a turn that begins a session looks at an answer about an identity. -/
theorem Kept.asked (ha : a.Kept crew opens ends pause) (m : AgentMoment)
    (identity : Nat → Except Failure SessionId)
    (h : (a.host crew (.agent (.agent m))).session.attempts.length =
      a.session.attempts.length + 1 →
      identity a.session.attempts.length = m.identity a.session.attempts.length) :
    a.host crew (.agent (.agent { m with identity })) = a.host crew (.agent (.agent m)) := by
  have hlaunch : a.stage ≠ .inSession → a.poll crew m = a.launch crew m.toMoment →
      a.launch crew { m.toMoment with identity } = a.launch crew m.toMoment := by
    intro hst hpoll
    have hidle := ha.idle.mp hst
    have hlength : (a.poll crew m).session.attempts.length = a.session.attempts.length + 1 := by
      rw [hpoll, Agent.launch, afterSession_session, Session.attempts_idle hidle]
      exact Scene.begun_length ..
    have hasked := h hlength
    rw [Session.attempts_idle hidle] at hasked
    have hbegin : a.desk.begin crew { m.toMoment with identity } = a.desk.begin crew m.toMoment :=
      SessionDesk.begin_identity hasked
    unfold Agent.launch
    rw [hbegin]
    rfl
  show a.poll crew { m with identity } = a.poll crew m
  unfold poll at hlaunch ⊢
  cases hst : a.stage with
  | fresh =>
    simp only [hst] at hlaunch
    exact hlaunch (by simp) trivial
  | inSession => rfl
  | stopped => rfl
  | pausing wakeAt =>
    simp only [hst] at hlaunch ⊢
    split
    · rfl
    · rename_i hstop
      split
      · rename_i hdue
        exact hlaunch (by simp) (by rw [if_neg hstop, if_pos hdue])
      · rfl

end Facts

end Agent

end HealthRelay
