import HealthRelay.Proofs.Agent.Supervision
import HealthRelay.Proofs.Session.Life

/-!
# An agent lets its session live

An agent is one of the owners that a session can have: it calls the session again and again, never
while a call is on, and lets go of it when it stops. Every turn of an agent is a few turns in the
life of its session (`Mirrors.host`), and it calls the session when the agent launches one, so
`Orderly` and `CalledAt` hold of what an agent does as of any life.
-/

namespace HealthRelay

/-- A turn of one of an agent's tasks, or of the owner of the other end of its sink, who may be
another than its supervisor. -/
inductive HostTurn where
  | agent (t : AgentTurn)
  | sink (sink : Sink)

/-- The moment of a turn, if the turn looks at one. -/
def HostTurn.moment? : HostTurn → Option Moment
  | .agent (.agent m) => some m.toMoment
  | .agent (.poller m) => some m
  | _ => none

/-- Whether the token has fired in some moment of a tape. -/
def HostTurn.HasFired (tape : List HostTurn) : Prop :=
  ∃ t ∈ tape, ∃ m ∈ t.moment?, m.isShutdown = true

namespace Agent

def host (crew : Crew) (a : Agent) : HostTurn → Agent
  | .agent t => a.apply crew t
  | .sink sink => { a with sink }

def hosts (crew : Crew) (a : Agent) (tape : List HostTurn) : Agent := tape.foldl (host crew) a

/-- The moment in which a turn launches a session, if it does: the agent is new, or its pause is
over and it does not stop instead. -/
def opening? (a : Agent) : HostTurn → Option Moment
  | .agent (.agent m) =>
    match a.stage with
    | .fresh => some m.toMoment
    | .pausing wakeAt =>
      if wakeAt ≤ m.now ∧ ¬ (m.isShutdown ∧ m.prefersStop) then some m.toMoment else none
    | _ => none
  | _ => none

/-- The moments in which the turns of a tape launch sessions. -/
def openings (crew : Crew) : Agent → List HostTurn → List Moment
  | _, [] => []
  | a, t :: tape => (a.opening? t).toList ++ openings crew (a.host crew t) tape

/-- What an agent and a life have in common. -/
structure Mirrors (fired : Prop) (a : Agent) (l : Life) : Prop where
  desk : l.desk = a.desk
  watcher : l.watcher = a.watcher
  gone : l.isGone = a.isStopped
  /-- Between sessions there is none. -/
  between : a.stage ≠ .inSession → a.session.stage = .idle
  fired : l.hasFired = true → fired

variable {crew : Crew} {a : Agent} {l : Life} {fired : Prop}

theorem mirrors_start (config : SessionConfig) (restartDelay : Duration) (sink : Sink) :
    (start config restartDelay sink).Mirrors fired (.start config sink) :=
  ⟨rfl, rfl, rfl, fun _ => rfl, fun h => by cases h⟩

/-- When a session's turn is over the agent goes on with it, pauses, or lets go of it. -/
theorem mirrors_afterSession (hdesk : l.desk = a.desk) (hwatcher : l.watcher = a.watcher)
    (hgone : l.isGone = false) (hfired : l.hasFired = true → fired) (crew : Crew) (m : Moment) :
    ∃ tape, l.openings crew tape = [] ∧ (a.afterSession m).Mirrors fired (l.play crew tape) := by
  have hidle : l.desk.session.isIdle = a.session.isIdle := by
    rw [hdesk]
    rfl
  unfold afterSession
  cases h : a.session.isIdle with
  | false =>
    exact ⟨[], rfl, hdesk, hwatcher, hgone, fun hst => absurd rfl hst, hfired⟩
  | true =>
    have hstage : a.session.stage = .idle := by simpa [Session.isIdle] using h
    cases m.isShutdown with
    | true =>
      have hdrop : l.apply crew .drop = { l with isGone := true } := if_pos (hidle.trans h)
      refine ⟨[.drop], rfl, ?_⟩
      rw [Life.play, List.foldl_cons, hdrop]
      exact ⟨hdesk, hwatcher, rfl, fun _ => hstage, hfired⟩
    | false =>
      refine ⟨[.others a.sink (a.journal ++ [.sessionRestarting a.restartDelay])], rfl, ?_,
        hwatcher, hgone, fun _ => hstage, hfired⟩
      show SessionDesk.mk l.desk.session a.sink _ = _
      rw [hdesk]
      rfl

/-- Between two sessions the owner of a life may do as it likes. -/
theorem Mirrors.isIdle (h : a.Mirrors fired l) (hst : a.stage ≠ .inSession) :
    l.desk.session.isIdle = true := by
  have hidle : l.desk.session.stage = .idle := by
    rw [h.desk]
    exact h.between hst
  simp [Session.isIdle, hidle]

theorem Mirrors.launch (h : a.Mirrors fired l) (hst : a.stage ≠ .inSession)
    (halive : a.isStopped = false) {m : Moment} (hf : m.isShutdown = true → fired) :
    ∃ tape, l.openings crew tape = [m] ∧ (a.launch crew m).Mirrors fired (l.play crew tape) := by
  have hidle := h.isIdle hst
  have hgone : l.isGone = false := h.gone.trans halive
  have hcall : l.apply crew (.call m) =
      { l with desk := l.desk.begin crew m, hasFired := m.isShutdown } :=
    if_pos (by rw [hidle, hgone]; rfl)
  obtain ⟨tape, hopenings, htape⟩ := mirrors_afterSession (l := l.apply crew (.call m))
    (a := a.withDesk (a.desk.begin crew m)) (by rw [hcall, h.desk]; rfl)
    (by rw [hcall]; exact h.watcher) (by rw [hcall]; exact hgone) (by rw [hcall]; exact hf) crew m
  refine ⟨.call m :: tape, ?_, htape⟩
  rw [Life.openings, hopenings, Life.opening?, if_pos (by rw [hidle, hgone]; rfl)]
  rfl

theorem Mirrors.sees (h : a.Mirrors fired l) {m : Moment} (hf : m.isShutdown = true → fired) :
    l.sees m = true → fired := by
  intro hs
  simp only [Life.sees, Bool.or_eq_true, Bool.and_eq_true] at hs
  exact hs.elim h.fired fun hm => hf hm.2

theorem Mirrors.poll (h : a.Mirrors fired l) {m : AgentMoment} (hf : m.isShutdown = true → fired) :
    ∃ tape, l.openings crew tape = (a.opening? (.agent (.agent m))).toList ∧
      (a.poll crew m).Mirrors fired (l.play crew tape) := by
  unfold Agent.poll Agent.opening?
  cases hst : a.stage with
  | fresh => exact h.launch (by simp [hst]) (by simp [isStopped, hst]) hf
  | inSession =>
    have hgone : l.isGone = false := by simp [h.gone, isStopped, hst]
    obtain ⟨tape, hopenings, htape⟩ := mirrors_afterSession
      (l := l.apply crew (.session m.toMoment)) (a := a.withDesk (a.desk.poll crew m.toMoment))
      (congrArg (·.poll crew m.toMoment) h.desk) h.watcher hgone (h.sees hf) crew m.toMoment
    exact ⟨.session m.toMoment :: tape, hopenings, htape⟩
  | pausing wakeAt =>
    simp only
    by_cases hstop : (m.isShutdown && (!decide (wakeAt ≤ m.now) || m.prefersStop)) = true
    · have hbetween : a.stage ≠ .inSession := by simp [hst]
      have hdrop : l.apply crew .drop = { l with isGone := true } := if_pos (h.isIdle hbetween)
      have hrest : ¬ (wakeAt ≤ m.now ∧ ¬ (m.isShutdown = true ∧ m.prefersStop = true)) := by
        rintro ⟨hdue, hopen⟩
        simp only [hdue, decide_true, Bool.not_true, Bool.false_or, Bool.and_eq_true] at hstop
        exact hopen hstop
      rw [if_neg hrest, if_pos hstop]
      refine ⟨[.drop], rfl, ?_⟩
      rw [Life.play, List.foldl_cons, hdrop]
      exact ⟨h.desk, h.watcher, rfl, fun _ => h.between hbetween, h.fired⟩
    · rw [if_neg hstop]
      by_cases hdue : wakeAt ≤ m.now
      · simp only [hdue, decide_true, Bool.not_true, Bool.false_or, Bool.and_eq_true] at hstop
        rw [if_pos ⟨hdue, hstop⟩, if_pos (decide_eq_true hdue)]
        exact h.launch (by simp [hst]) (by simp [isStopped, hst]) hf
      · rw [if_neg fun hopen => hdue hopen.1, if_neg (by simpa using hdue)]
        exact ⟨[], rfl, h⟩
  | stopped => exact ⟨[], rfl, h⟩

theorem Mirrors.pollPoller (h : a.Mirrors fired l) {m : Moment}
    (hf : m.isShutdown = true → fired) :
    ∃ tape, l.openings crew tape = [] ∧
      (a.pollPoller crew m).Mirrors fired (l.play crew tape) := by
  refine ⟨[.poller m], rfl, congrArg (·.pollPoller crew m) h.desk, h.watcher, h.gone,
    fun hst => ?_, h.sees hf⟩
  have hidle : a.desk.session.stage = .idle := h.between hst
  show (a.desk.pollPoller crew m).session.stage = .idle
  rw [SessionDesk.pollPoller_idle hidle, hidle]

/-- **A turn of an agent is a few turns in the life of its session**, among them a call if the
agent launches a session, and no other. -/
theorem Mirrors.host (h : a.Mirrors fired l) {t : HostTurn}
    (hf : ∀ m ∈ t.moment?, m.isShutdown = true → fired) :
    ∃ tape, l.openings crew tape = (a.opening? t).toList ∧
      (a.host crew t).Mirrors fired (l.play crew tape) := by
  cases t with
  | sink sink =>
    refine ⟨[.others sink a.journal], rfl, ?_, h.watcher, h.gone, h.between, h.fired⟩
    show SessionDesk.mk l.desk.session sink a.journal = _
    rw [h.desk]
    rfl
  | agent t =>
    cases t with
    | agent m => exact h.poll (hf _ rfl)
    | poller m => exact h.pollPoller (hf m rfl)
    | supervisor =>
      let x := a.supervisor.poll (a.senders == 0) a.sink
      refine ⟨[.others x.2.1 (a.journal ++ x.2.2)], rfl, ?_, h.watcher, h.gone, h.between,
        h.fired⟩
      show SessionDesk.mk l.desk.session x.2.1 (a.journal ++ x.2.2) = _
      rw [h.desk]
      rfl
    | watcher =>
      refine ⟨[.watcher], rfl, h.desk, ?_, h.gone, h.between, h.fired⟩
      show l.watcher.poll l.isGone l.desk.session = _
      rw [h.watcher, h.gone, h.desk]
      rfl

theorem Mirrors.hosts (h : a.Mirrors fired l) (tape : List HostTurn)
    (hf : ∀ t ∈ tape, ∀ m ∈ t.moment?, m.isShutdown = true → fired) :
    ∃ lives, l.openings crew lives = a.openings crew tape ∧
      (a.hosts crew tape).Mirrors fired (l.play crew lives) := by
  induction tape generalizing a l with
  | nil => exact ⟨[], rfl, h⟩
  | cons t tape ih =>
    obtain ⟨first, hopening, hfirst⟩ : ∃ first, l.openings crew first = (a.opening? t).toList ∧
        (a.host crew t).Mirrors fired (l.play crew first) := h.host (hf t (by simp))
    obtain ⟨rest, hopenings, hrest⟩ := ih hfirst fun t' ht' => hf t' (by simp [ht'])
    refine ⟨first ++ rest, ?_, ?_⟩
    · rw [Life.openings_append, hopening, hopenings, Agent.openings]
    · rw [Life.play, List.foldl_append]
      exact hrest

/-- Whatever an agent goes through, its session lives. -/
theorem hosts_lived (crew : Crew) (config : SessionConfig) (pause : Duration) (sink : Sink)
    (tape : List HostTurn) :
    ∃ l : Life, ((start config pause sink).hosts crew tape).Mirrors (HostTurn.HasFired tape) l ∧
      l.Lived ((start config pause sink).openings crew tape) := by
  have hstart : (start config pause sink).Mirrors (HostTurn.HasFired tape) (.start config sink) :=
    mirrors_start config pause sink
  obtain ⟨lives, hopenings, h⟩ : ∃ lives, (Life.start config sink).openings crew lives =
      (start config pause sink).openings crew tape ∧
      ((start config pause sink).hosts crew tape).Mirrors (HostTurn.HasFired tape)
        ((Life.start config sink).play crew lives) :=
    hstart.hosts tape fun t ht m hm hs => ⟨t, ht, m, hm, hs⟩
  have hlived : ((Life.start config sink).play crew lives).Lived
      ((Life.start config sink).openings crew lives) := (Life.lived_start config sink).play lives
  exact ⟨_, h, hopenings ▸ hlived⟩

end Agent

namespace Session

/-- **A session goes from call to call in good order**: whoever owns it, whoever gets the turns, and
whenever a token fires; also in the hands of an agent, which calls it again and again. -/
theorem lives_orderly (crew : Crew) (config : SessionConfig) (sink : Sink) :
    (∀ tape : List LifeTurn,
      let l := (Life.start config sink).play crew tape
      l.desk.session.Orderly (l.hasFired = true) ∧
        l.desk.session.CalledAt ((Life.start config sink).openings crew tape) ∧
        l.watcher.Tells l.isGone l.desk.session) ∧
    (∀ (restartDelay : Duration) (tape : List HostTurn),
      let a := (Agent.start config restartDelay sink).hosts crew tape
      a.session.Orderly (HostTurn.HasFired tape) ∧
        a.session.CalledAt ((Agent.start config restartDelay sink).openings crew tape) ∧
        a.watcher.Tells a.isStopped a.session) := by
  refine ⟨fun tape => ?_, fun restartDelay tape => ?_⟩
  · have hlived : ((Life.start config sink).play crew tape).Lived
        ((Life.start config sink).openings crew tape) := (Life.lived_start config sink).play tape
    exact ⟨hlived.onStage.orderly, hlived.onStage.calledAt, hlived.follows.tells⟩
  · obtain ⟨l, h, hlived⟩ := Agent.hosts_lived crew config restartDelay sink tape
    have horderly := hlived.onStage.orderly.mono h.fired
    have hcalled := hlived.onStage.calledAt
    have htells := hlived.follows.tells
    rw [h.desk] at horderly hcalled htells
    rw [h.watcher, h.gone] at htells
    exact ⟨horderly, hcalled, htells⟩

end Session

end HealthRelay
