import HealthRelay.Relay
import HealthRelay.Proofs.Session.Looks

/-!
# No event is lost between the sessions and their supervisor

`Agent.Step` lists the steps of an agent, the smallest between which another of its tasks may get a
turn: a step of the session that is on, a step from one session to the next, the supervisor taking
one event or coming to its end. Turns consist of steps (`play_looked`), and steps may come in any
order. `Tracked` is what every step keeps: the sink stays open, what got in is what the supervisor
has seen and what is still queued, and the supervisor does not end before the last sender is gone.
-/

namespace HealthRelay

inductive AgentTurn where
  | agent (m : AgentMoment)
  | poller (m : Moment)
  | supervisor
  | watcher

namespace Agent

def apply (crew : Crew) (a : Agent) : AgentTurn → Agent
  | .agent m => a.poll crew m
  | .poller m => a.pollPoller crew m
  | .supervisor => a.pollSupervisor
  | .watcher => a.pollWatcher

def play (crew : Crew) (a : Agent) (tape : List AgentTurn) : Agent := tape.foldl (apply crew) a

/-- An agent whose supervisor has taken an event. -/
def see (a : Agent) (e : Event) (sink : Sink) : Agent :=
  { a with
    supervisor := { a.supervisor with seen := a.supervisor.seen ++ [e] }
    sink
    journal := a.journal ++ [Supervisor.entry e] }

/-- One step of one of an agent's tasks, with the look at an emission that it makes. -/
inductive Step (crew : Crew) : Agent → Option Look → Agent → Prop where
  | launch {a : Agent} {m : Moment} {l : Option Look} {d : SessionDesk} :
      (a.stage = .fresh ∨ ∃ wakeAt, a.stage = .pausing wakeAt ∧ wakeAt ≤ m.now) →
      SessionDesk.Opens crew m a.desk l d →
      Step crew a l { a.withDesk d with stage := .inSession }
  | session {a : Agent} {m : Moment} {l : Option Look} {d : SessionDesk} :
      SessionDesk.Move crew m a.desk l d → Step crew a l (a.withDesk d)
  | conclude {a : Agent} (m : Moment) : a.stage = .inSession → a.session.isIdle = true →
      Step crew a none (a.afterSession m)
  | stop {a : Agent} {wakeAt : Nat} : a.stage = .pausing wakeAt →
      Step crew a none { a with stage := .stopped }
  | see {a : Agent} {e : Event} {sink : Sink} : a.supervisor.isDone = false →
      a.sink.take? = some (e, sink) → Step crew a none (a.see e sink)
  | retire {a : Agent} : a.supervisor.isDone = false → a.sink.queue = [] → a.senders = 0 →
      Step crew a none { a with supervisor := { a.supervisor with isDone := true } }
  | watch (a : Agent) : Step crew a none a.pollWatcher

variable {crew : Crew} {a a' : Agent} {m : Moment} {ls : List Look}

/-! ## Turns consist of steps -/

theorem moves_looked {d : SessionDesk} (h : Looked (SessionDesk.Move crew m) a.desk ls d) :
    Looked (Step crew) a ls (a.withDesk d) :=
  h.lift a.withDesk fun d _ _ hm => .session (a := a.withDesk d) hm

theorem afterSession_looked (hst : a.stage = .inSession) (crew : Crew) (m : Moment) :
    Looked (Step crew) a [] (a.afterSession m) := by
  cases hidle : a.session.isIdle with
  | true => exact (Looked.refl a).silent (.conclude m hst hidle)
  | false =>
    have h : a.afterSession m = a := by
      unfold afterSession
      rw [hidle, ← hst]
      rfl
    exact h.symm ▸ .refl a

theorem afterSession_stage (a : Agent) (stage : AgentStage) (m : Moment) :
    { a with stage }.afterSession m = a.afterSession m := by
  unfold afterSession
  rfl

theorem launch_looked
    (hst : a.stage = .fresh ∨ ∃ wakeAt, a.stage = .pausing wakeAt ∧ wakeAt ≤ m.now) :
    ∃ ls, Looked (Step crew) a ls (a.launch crew m) := by
  obtain ⟨l, d, ls, hopen, hmoves⟩ := a.desk.begin_looked crew m
  let b : Agent := { a.withDesk d with stage := .inSession }
  have hlaunch : Looked (Step crew) a l.toList b := .single (.launch hst hopen)
  have hsession : Looked (Step crew) b ls (b.withDesk (a.desk.begin crew m)) := moves_looked hmoves
  have hend := afterSession_looked (a := b.withDesk (a.desk.begin crew m)) rfl crew m
  have heq : (b.withDesk (a.desk.begin crew m)).afterSession m = a.launch crew m :=
    afterSession_stage (a.withDesk (a.desk.begin crew m)) .inSession m
  rw [heq] at hend
  exact ⟨_, (hlaunch.trans hsession).trans hend⟩

theorem poll_looked (a : Agent) (crew : Crew) (m : AgentMoment) :
    ∃ ls, Looked (Step crew) a ls (a.poll crew m) := by
  unfold poll
  split
  · rename_i hst
    exact launch_looked (.inl hst)
  · rename_i hst
    obtain ⟨ls, hls⟩ := a.desk.poll_looked crew m.toMoment
    have hst' : (a.withDesk (a.desk.poll crew m.toMoment)).stage = .inSession := hst
    exact ⟨_, (moves_looked hls).trans (afterSession_looked hst' crew m.toMoment)⟩
  · rename_i wakeAt hst
    simp only
    split
    · exact ⟨[], (Looked.refl a).silent (.stop hst)⟩
    · split
      · rename_i hdue
        exact launch_looked (.inr ⟨wakeAt, hst, by simpa using hdue⟩)
      · exact ⟨[], .refl a⟩
  · exact ⟨[], .refl a⟩

theorem pollPoller_looked (a : Agent) (crew : Crew) (m : Moment) :
    Looked (Step crew) a [] (a.pollPoller crew m) :=
  moves_looked (a.desk.pollPoller_looked crew m)

/-- The supervisor takes all that is queued. -/
theorem take_looked (crew : Crew) (fuel : Nat) (ha : a.supervisor.isDone = false) :
    let x := a.supervisor.take fuel a.sink
    x.1.isDone = false ∧ Looked (Step crew) a []
      { a with supervisor := x.1, sink := x.2.1, journal := a.journal ++ x.2.2 } := by
  induction fuel generalizing a with
  | zero =>
    refine ⟨ha, ?_⟩
    simp only [Supervisor.take, List.append_nil]
    exact .refl a
  | succ fuel ih =>
    unfold Supervisor.take
    cases ht : a.sink.take? with
    | none =>
      refine ⟨ha, ?_⟩
      simp only [List.append_nil]
      exact .refl a
    | some x =>
      obtain ⟨e, sink⟩ := x
      obtain ⟨hdone, hrest⟩ := ih (a := a.see e sink) ha
      have hsee : Looked (Step crew) a [] (a.see e sink) := (Looked.refl a).silent (.see ha ht)
      refine ⟨hdone, ?_⟩
      have hall := hsee.trans hrest
      simp only [see, List.append_assoc, List.singleton_append, List.nil_append] at hall
      exact hall

theorem pollSupervisor_looked (a : Agent) (crew : Crew) :
    Looked (Step crew) a [] a.pollSupervisor := by
  unfold pollSupervisor Supervisor.poll
  cases hdone : a.supervisor.isDone with
  | true =>
    simp only [↓reduceIte, List.append_nil]
    exact .refl a
  | false =>
    obtain ⟨halive, htake⟩ := take_looked crew a.sink.queue.length hdone
    simp only [Bool.false_eq_true, ↓reduceIte]
    generalize a.supervisor.take a.sink.queue.length a.sink = x at halive htake
    obtain ⟨supervisor, sink, entries⟩ := x
    cases hend : a.senders == 0 && sink.queue.isEmpty with
    | true =>
      simp only [Bool.and_eq_true, beq_iff_eq, List.isEmpty_iff] at hend
      exact htake.silent (.retire halive hend.2 hend.1)
    | false =>
      have hsame : { supervisor with isDone := false } = supervisor := by
        rw [← halive]
      rw [hsame]
      exact htake

theorem apply_looked (a : Agent) (crew : Crew) (t : AgentTurn) :
    ∃ ls, Looked (Step crew) a ls (a.apply crew t) := by
  cases t with
  | agent m => exact a.poll_looked crew m
  | poller m => exact ⟨_, a.pollPoller_looked crew m⟩
  | supervisor => exact ⟨_, a.pollSupervisor_looked crew⟩
  | watcher => exact ⟨_, .single (.watch a)⟩

/-- **Turns consist of steps.** -/
theorem play_looked (a : Agent) (crew : Crew) (tape : List AgentTurn) :
    ∃ ls, Looked (Step crew) a ls (a.play crew tape) := by
  induction tape generalizing a with
  | nil => exact ⟨[], .refl a⟩
  | cons t tape ih =>
    obtain ⟨ls, hls⟩ := a.apply_looked crew t
    obtain ⟨ls', hls'⟩ := ih (a.apply crew t)
    exact ⟨_, hls.trans hls'⟩

/-! ## What every step keeps -/

/-- What the looks so far have made of an agent. -/
structure Tracked (ls : List Look) (a : Agent) : Prop where
  gate : a.sink.gate = .opened
  flow : a.supervisor.seen ++ a.sink.queue = Look.sent ls
  ends : ∀ x ∈ Look.ends ls, x.2 ≠ .closed
  /-- Between sessions there is none. -/
  idle : a.stage ≠ .inSession → a.session.stage = .idle
  retired : a.supervisor.isDone = true → a.stage = .stopped ∧ a.sink.queue = []

theorem senders_eq_zero :
    a.senders = 0 ↔ a.isStopped = true ∧ a.session.isIdle = true := by
  unfold senders
  cases a.isStopped <;> cases a.session.isIdle <;> simp

theorem tracked_start (config : SessionConfig) (restartDelay : Duration) (capacity : Nat) :
    (start config restartDelay (.empty capacity)).Tracked [] :=
  ⟨rfl, rfl, by simp, fun _ => rfl, fun h => by cases h⟩

/-- A session's step, at the desk of an agent whose supervisor is not done. -/
theorem Tracked.sees (ht : a.Tracked ls) {l : Option Look} {d : SessionDesk}
    (hs : a.sink.Sees l d.sink) {stage : AgentStage}
    (hidle : stage ≠ .inSession → d.session.stage = .idle) (hdone : a.supervisor.isDone = false) :
    { a.withDesk d with stage }.Tracked (ls ++ l.toList) where
  gate := hs.gate.trans ht.gate
  flow := by
    show a.supervisor.seen ++ d.sink.queue = _
    rw [hs.queue, ← List.append_assoc, ht.flow, Look.sent_append]
  ends := by
    intro x hx
    rw [Look.ends_append, List.mem_append] at hx
    have hopen : a.sink.isOpen = true := Mailbox.isOpen_iff.mpr ht.gate
    exact hx.elim (ht.ends x) (hs.ne_closed hopen x)
  idle := hidle
  retired h := by cases hdone.symm.trans h

theorem Tracked.alive (ht : a.Tracked ls) (hst : a.stage ≠ .stopped) :
    a.supervisor.isDone = false :=
  Bool.eq_false_iff.mpr fun h => hst (ht.retired h).1

theorem afterSession_cases (hidle : a.session.isIdle = true) (m : Moment) :
    ∃ stage sessions journal, stage ≠ .inSession ∧
      a.afterSession m = { a with stage, sessions, journal } := by
  unfold afterSession
  rw [if_pos hidle]
  cases m.isShutdown with
  | true => exact ⟨.stopped, _, a.journal, by simp, rfl⟩
  | false => exact ⟨.pausing _, _, _, by simp, rfl⟩

theorem Tracked.step (ht : a.Tracked ls) {l : Option Look} (hs : Step crew a l a') :
    a'.Tracked (ls ++ l.toList) := by
  cases hs with
  | launch hst hopen =>
    have halive : a.supervisor.isDone = false := by
      refine ht.alive fun h => ?_
      rcases hst with hst | ⟨wakeAt, hst, -⟩ <;> cases h.symm.trans hst
    exact ht.sees hopen.sees (fun h => absurd rfl h) halive
  | session hm =>
    have hst : a.stage = .inSession := by
      by_cases hst : a.stage = .inSession
      · exact hst
      · exact absurd (ht.idle hst) hm.busy
    exact ht.sees hm.sees (fun h => absurd hst h) (ht.alive (by simp [hst]))
  | conclude m hst hidle =>
    have halive := ht.alive (by simp [hst])
    obtain ⟨stage, sessions, journal, -, heq⟩ := afterSession_cases hidle m
    rw [heq, Option.toList_none, List.append_nil]
    refine ⟨ht.gate, ht.flow, ht.ends, fun _ => by simpa [Session.isIdle] using hidle, fun h => ?_⟩
    cases halive.symm.trans h
  | stop hst =>
    have halive := ht.alive (by simp [hst])
    rw [Option.toList_none, List.append_nil]
    refine ⟨ht.gate, ht.flow, ht.ends, fun _ => ht.idle (by simp [hst]), fun h => ?_⟩
    cases halive.symm.trans h
  | see hdone htake =>
    obtain ⟨rest, hq, rfl⟩ := Mailbox.take?_eq_some.mp htake
    have hflow := ht.flow
    rw [hq] at hflow
    rw [Option.toList_none, List.append_nil]
    refine ⟨?_, ?_, ht.ends, ht.idle, fun h => by cases hdone.symm.trans h⟩
    · simpa [Agent.see] using ht.gate
    · simpa [Agent.see] using hflow
  | retire hdone hq hsenders =>
    rw [Option.toList_none, List.append_nil]
    refine ⟨ht.gate, ht.flow, ht.ends, ht.idle, fun _ => ⟨?_, hq⟩⟩
    simpa [isStopped] using (senders_eq_zero.mp hsenders).1
  | watch =>
    rw [Option.toList_none, List.append_nil]
    exact ⟨ht.gate, ht.flow, ht.ends, ht.idle, ht.retired⟩

theorem Tracked.steps {ls' : List Look} (ht : a.Tracked ls) (hs : Looked (Step crew) a ls' a') :
    a'.Tracked (ls ++ ls') := by
  induction hs with
  | refl => rwa [List.append_nil]
  | tail _ hstep ih =>
    rw [← List.append_assoc]
    exact ih.step hstep

/-! ## What the supervisor has seen -/

/-- What an agent owes to its supervisor, given the looks so far at emissions of its sessions. -/
structure Accounted (ls : List Look) (a : Agent) : Prop where
  /-- What got in has been seen or is queued, each event once and in order. -/
  kept : a.supervisor.seen ++ a.sink.queue = Look.sent ls
  never_closed : ∀ x ∈ Look.ends ls, x.2 ≠ .closed
  /-- The supervisor outlives the agent's sender and those of the sessions. -/
  outlives : a.supervisor.isDone = true → a.isStopped = true ∧ a.senders = 0
  complete : a.supervisor.isDone = true → a.supervisor.seen = Look.sent ls ∧
    a.farewell = .agentStopped a.sessions (Look.sent ls).length
  /-- Once the agent has stopped, the next turn of the supervisor is its last. -/
  retires : a.isStopped = true → a.pollSupervisor.supervisor = ⟨Look.sent ls, true⟩

theorem take_all (s : Supervisor) (sink : Sink) :
    (s.take sink.queue.length sink).1 = { s with seen := s.seen ++ sink.queue } ∧
      (s.take sink.queue.length sink).2.1.queue = [] := by
  generalize hq : sink.queue = queue
  induction queue generalizing s sink with
  | nil =>
    rw [List.append_nil]
    exact ⟨rfl, hq⟩
  | cons e rest ih =>
    have htake := Mailbox.take?_eq_some.mpr ⟨rest, hq, rfl⟩
    obtain ⟨hseen, hnil⟩ := ih { s with seen := s.seen ++ [e] } { sink with queue := rest }.grant
      (Mailbox.grant_queue _)
    simp only [List.length_cons, Supervisor.take, htake, hseen, hnil, List.append_assoc,
      List.singleton_append, and_self]

theorem Tracked.senders (ht : a.Tracked ls) (hst : a.isStopped = true) : a.senders = 0 := by
  have hstage : a.stage = .stopped := by simpa [isStopped] using hst
  have hidle := ht.idle (by simp [hstage])
  exact senders_eq_zero.mpr ⟨hst, by simp [Session.isIdle, hidle]⟩

theorem Tracked.retires (ht : a.Tracked ls) (hst : a.isStopped = true) :
    a.pollSupervisor.supervisor = ⟨Look.sent ls, true⟩ := by
  have hsenders := ht.senders hst
  have hflow := ht.flow
  unfold pollSupervisor Supervisor.poll
  cases hdone : a.supervisor.isDone with
  | true =>
    have hsame : a.supervisor = ⟨Look.sent ls, true⟩ := by
      rw [(ht.retired hdone).2, List.append_nil] at hflow
      rw [← hflow, ← hdone]
    exact hsame
  | false =>
    obtain ⟨hseen, hnil⟩ := take_all a.supervisor a.sink
    simp [hseen, hnil, hsenders, hflow]

/-- **No event is lost between the sessions and their supervisor**, over any number of sessions,
whatever becomes of them, and in whichever order the steps come. -/
theorem steps_accounted {config : SessionConfig} {restartDelay : Duration} {capacity : Nat}
    (hs : Looked (Step crew) (start config restartDelay (.empty capacity)) ls a) :
    a.Accounted ls := by
  have ht : a.Tracked ls := by simpa using (tracked_start config restartDelay capacity).steps hs
  refine ⟨ht.flow, ht.ends, fun hdone => ?_, fun hdone => ?_, ht.retires⟩
  · have hst : a.isStopped = true := by simp [isStopped, (ht.retired hdone).1]
    exact ⟨hst, ht.senders hst⟩
  · have hseen : a.supervisor.seen = Look.sent ls := by
      have hflow := ht.flow
      rwa [(ht.retired hdone).2, List.append_nil] at hflow
    exact ⟨hseen, by rw [farewell, hseen]⟩

def namelessMoment (now : Nat) (isShutdown : Bool) : AgentMoment :=
  { Scene.sampleMoment now isShutdown with
    identity := fun _ => .error (.identity "no clock"), prefersStop := true }

/-- Two sessions without an identity. The second event waits for the first to be taken, and it is
still queued when the agent stops. -/
def namelessTape : List AgentTurn :=
  [.agent (namelessMoment 0 false), .agent (namelessMoment 1 false), .supervisor,
    .agent (namelessMoment 1 false), .agent (namelessMoment 1 true), .supervisor]

theorem steps_accounted_nameless :
    let a₀ := start Scene.sampleDesk.session.config ⟨1⟩ (.empty 1)
    let a := a₀.play .relay namelessTape
    let e : Event := .about Session.identityFailed (.identity "no clock")
    ∃ ls, Looked (Step .relay) a₀ ls a ∧ a.supervisor = ⟨[e, e], true⟩ ∧ a.sessions = 2 ∧
      Look.sent ls = [e, e] ∧ a.Accounted ls := by
  intro a₀ a e
  obtain ⟨ls, hls⟩ := play_looked a₀ .relay namelessTape
  have hsupervisor : a.supervisor = ⟨[e, e], true⟩ := by decide +kernel
  have hacc : a.Accounted ls := steps_accounted hls
  have hsent := (hacc.complete (by rw [hsupervisor])).1
  rw [hsupervisor] at hsent
  exact ⟨ls, hls, hsupervisor, by decide +kernel, hsent.symm, hacc⟩

end Agent

end HealthRelay
