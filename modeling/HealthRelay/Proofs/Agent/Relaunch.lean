import HealthRelay.Proofs.Agent.Calls

/-!
# One session after the other

Each session of an agent asks for one identity and all of its deliveries carry it; a session begins
no earlier than a pause after the one before; a fired token leaves room for one more session at
most, in which nobody is called (`IsLate`). `Relaunched` puts together what can be seen of the
sessions of an agent after any tape.
-/

namespace HealthRelay

namespace Agent

variable {crew : Crew} {a a' : Agent} {opens ends : Nat → AgentMoment → Prop} {pause : Duration}

/-! ## After the token has fired -/

/-- Between two calls nothing is added to the attempts. -/
theorem Kept.session_length (ha : a.Kept crew opens ends pause) (hst : a.stage = .inSession)
    (m : Moment) :
    (a.desk.poll crew m).session.attempts.length = a.session.attempts.length := by
  obtain ⟨c, m₀, hdesk, hc⟩ := ha.call (by simp [hst])
  obtain ⟨a₁, h₁, -⟩ := hc.stands.attempts hc.opening
  have hpolled := hc.stands.session hc.opening (Run.keeps_signed crew m c.before.config)
  obtain ⟨a₂, h₂, -⟩ := hpolled.attempts hc.opening
  rw [hdesk] at h₁ h₂
  have hsession : a.desk.session = a.session := rfl
  rw [h₂, ← hsession, h₁, List.length_append, List.length_append]
  rfl

/-- The calls that there are once the token has fired, given how many there were then: no more, or
one more in which nobody is called, and after that the agent stops. -/
inductive IsLate (n : Nat) (a : Agent) : Prop where
  | none (hn : a.session.attempts.length = n)
  | last {c : Scene} {m : Moment} (hdesk : c.desk = a.desk) (hopen : c.opening = some m)
      (hn : c.before.past.length = n) (hs : c.Stands (Run.Frozen 0 [] []))
      (hst : a.stage = .inSession ∨ a.stage = .stopped)

theorem isLate_afterSession {n : Nat} {c : Scene} {m₀ m : Moment} (hm : m.isShutdown = true)
    (hdesk : c.desk = a.desk) (hopen : c.opening = some m₀) (hn : c.before.past.length = n)
    (hs : c.Stands (Run.Frozen 0 [] [])) : (a.afterSession m).IsLate n := by
  have hsession : (a.afterSession m).desk.session = c.desk.session := by
    rw [hdesk]
    exact afterSession_session a m
  refine .last (c := { c with desk := (a.afterSession m).desk }) rfl hopen hn (hs.desk hsession) ?_
  by_cases hidle : a.session.stage = .idle
  · obtain ⟨stage, journal, heq, ⟨-, rfl⟩ | ⟨hm', -⟩⟩ := afterSession_idle hidle m
    · rw [heq]
      exact .inr rfl
    · cases hm.symm.trans hm'
  · rw [afterSession_busy hidle]
    exact .inl rfl

theorem frozen_start (config : SessionConfig) (crew : Crew) (id : SessionId) :
    (Run.start config crew id).Frozen 0 [] [] :=
  ⟨Run.sound_start config crew id, rfl, .inl ⟨rfl, by
    simp [Run.start, Handoff.carries_empty.parked_nil]⟩⟩

theorem Kept.late (ha : a.Kept crew opens ends pause) {n : Nat} (hl : a.IsLate n) {t : HostTurn}
    (ht : Turned crew a t a') (hf : ∀ m ∈ t.moment?, m.isShutdown = true) : a'.IsLate n := by
  cases hl with
  | none hn =>
    cases ht with
    | launch hst =>
      rename_i m
      have hm : m.isShutdown = true := hf _ rfl
      have hidle : a.session.stage = .idle := ha.idle.mp (by
        rcases hst with hst | ⟨wakeAt, hst, -⟩ <;> simp [hst])
      have hs := Scene.stands_begin (c := .start a.desk) (Run.keeps_frozen crew hm 0 [] []) rfl
        fun id => frozen_start _ crew id
      refine isLate_afterSession hm rfl rfl ?_ hs
      rw [← hn, Session.attempts_idle hidle]
      rfl
    | session hst =>
      refine .none ?_
      rw [afterSession_session, ← hn]
      exact ha.session_length hst _
    | poller m =>
      refine .none ?_
      rw [← hn]
      exact SessionDesk.pollPoller_attempts a.desk crew m
    | stop => exact .none hn
    | rest hs => exact .none (by rw [hs, hn])
  | last hdesk hopen hn hs hst =>
    rename_i c m₀
    cases ht with
    | launch hst' =>
      rcases hst with hst | hst <;> rcases hst' with hst' | ⟨wakeAt, hst', -⟩ <;>
        cases hst.symm.trans hst'
    | session hst' =>
      rename_i m
      have hm : m.isShutdown = true := hf _ rfl
      exact isLate_afterSession (c := { c with desk := c.desk.poll crew m.toMoment }) hm
        (congrArg (·.poll crew m.toMoment) hdesk) hopen hn
        (hs.session hopen (Run.keeps_frozen crew hm 0 [] []))
    | poller m =>
      exact .last (c := { c with desk := c.desk.pollPoller crew m })
        (congrArg (·.pollPoller crew m) hdesk) hopen hn
        (hs.poller hopen (Run.keeps_frozen crew (hf m rfl) 0 [] [])) hst
    | stop hst' =>
      rcases hst with hst | hst <;> cases hst.symm.trans hst'
    | rest hs' hst' =>
      refine .last (c := { c with desk := a'.desk }) rfl hopen hn (hs.desk ?_) (hst' ▸ hst)
      rw [hdesk]
      exact hs'

/-- In a call that begins late no collaborator is called. -/
theorem IsLate.unused {n : Nat} (hl : a.IsLate n) :
    a.session.attempts.length ≤ n + 1 ∧
      ∀ i (at' : Attempt) run, n ≤ i → a.session.attempts[i]? = some at' → at'.run = some run →
        run.poller.calls = [] ∧ run.reporter.deliveries = [] := by
  cases hl with
  | none hn =>
    refine ⟨by omega, fun i at' run hi h => ?_⟩
    have hlt := (List.getElem?_eq_some_iff.mp h).1
    omega
  | last hdesk hopen hn hs =>
    obtain ⟨a₁, hattempts, -, -, -, hrun⟩ := hs.attempts hopen
    rw [hdesk] at hattempts
    have hsession : a.desk.session = a.session := rfl
    rw [hsession] at hattempts
    rw [hattempts]
    refine ⟨by simp [hn], fun i at' run hi h hr => ?_⟩
    rcases getElem?_concat_cases h with h | ⟨-, rfl⟩
    · have hlt := (List.getElem?_eq_some_iff.mp h).1
      omega
    · have hfrozen := hrun run hr
      refine ⟨List.eq_nil_of_length_eq_zero hfrozen.starts, ?_⟩
      rcases hfrozen.samples with ⟨hsamples, -⟩ | ⟨-, s, hs', -⟩
      · simpa [Reporter.samples, Reporter.reports] using hsamples
      · simp at hs'

/-- What the sessions of an agent look like after a tape. -/
structure Relaunched (crew : Crew) (start : Agent) (tape : List HostTurn) (a : Agent) : Prop where
  /-- Session number `i` asks for identity number `i` in its first turn. -/
  began : ∀ (i : Nat) (a₁ : Attempt), a.session.attempts[i]? = some a₁ →
    ∃ m, start.Shows crew tape .init i m ∧ a₁.startedAt = m.now ∧
      a₁.identity = (m.identity i).toOption
  /-- In no other turn, and of no other number, does an answer about an identity count. -/
  asked : ∀ (m : AgentMoment) (identity : Nat → Except Failure SessionId),
    ((a.host crew (.agent (.agent m))).session.attempts.length = a.session.attempts.length + 1 →
      identity a.session.attempts.length = m.identity a.session.attempts.length) →
    a.host crew (.agent (.agent { m with identity })) = a.host crew (.agent (.agent m))
  unasked : ∀ (m : Moment) (identity : Nat → Except Failure SessionId),
    a.host crew (.agent (.poller { m with identity })) = a.host crew (.agent (.poller m))
  /-- Every delivery of a session carries its identity. -/
  signed : ∀ (i : Nat) (a₁ : Attempt) (run : Run), a.session.attempts[i]? = some a₁ →
    a₁.run = some run → ∀ d ∈ run.reporter.deliveries, a₁.identity = some d.sessionId
  /-- A session that is over stays as it is. -/
  settled : ∀ more : List HostTurn,
    a.session.past <+: (start.hosts crew (tape ++ more)).session.past
  ended : ∀ (i : Nat) (a₁ : Attempt), a.session.past[i]? = some a₁ →
    ∃ m, start.Shows crew tape .terminated i m ∧ a₁.endedAt = some m.now
  spaced : ∀ (i : Nat) (a₁ a₂ : Attempt), a.session.attempts[i]? = some a₁ →
    a.session.attempts[i + 1]? = some a₂ → a.session.past[i]? = some a₁ ∧
      ∃ e, a₁.endedAt = some e ∧ e + start.restartDelay.nanos ≤ a₂.startedAt
  /-- At least one session runs. -/
  first : ∀ m, HostTurn.agent (.agent m) ∈ tape → a.session.attempts ≠ []
  /-- Once the token has fired one more session begins at most, and nobody is called in it. -/
  last : ∀ late : List HostTurn, (∀ t ∈ late, ∀ m ∈ t.moment?, m.isShutdown = true) →
    let attempts := (start.hosts crew (tape ++ late)).session.attempts
    attempts.length ≤ a.session.attempts.length + 1 ∧
      ∀ (i : Nat) (a₁ : Attempt) (run : Run), a.session.attempts.length ≤ i →
        attempts[i]? = some a₁ → a₁.run = some run →
        run.poller.calls = [] ∧ run.reporter.deliveries = []
  /-- A turn in which the token has fired leaves the agent in a call or stopped. It stops in a
  pause that is not over, and also at the end of one if it looks at the token first. -/
  seen : ∀ m : AgentMoment, m.isShutdown = true →
    let b := a.host crew (.agent (.agent m))
    (b.isStopped = true ∨ b.session.isIdle = false) ∧
      ∀ wakeAt, a.stage = .pausing wakeAt → m.now < wakeAt ∨ m.prefersStop = true →
        b = { a with stage := .stopped }
  /-- An agent that has stopped has counted its sessions, and begins none any more. -/
  stopped : a.isStopped = true → a.sessions = a.session.attempts.length ∧
    ∀ more : List HostTurn, (start.hosts crew (tape ++ more)).isStopped = true ∧
      (start.hosts crew (tape ++ more)).sessions = a.sessions ∧
      (start.hosts crew (tape ++ more)).session = a.session

/-- An agent that had a turn is not new any more. -/
theorem poll_stage (a : Agent) (crew : Crew) (m : AgentMoment) :
    (a.poll crew m).stage ≠ .fresh := by
  have hafter : ∀ b : Agent, (b.afterSession m.toMoment).stage ≠ .fresh := by
    intro b
    unfold afterSession
    split
    · simp only
      split <;> simp
    · simp
  unfold poll
  split
  · exact hafter _
  · exact hafter _
  · rename_i wakeAt hst
    simp only
    split
    · simp
    · split
      · exact hafter _
      · simp [hst]
  · rename_i hst
    simp [hst]

theorem afterSession_fired (a : Agent) {m : Moment} (hm : m.isShutdown = true) :
    (a.afterSession m).isStopped = true ∨ (a.afterSession m).session.isIdle = false := by
  rw [afterSession_session]
  unfold afterSession
  cases hidle : a.session.isIdle with
  | false => exact .inr rfl
  | true =>
    refine .inl ?_
    rw [if_pos rfl, if_pos hm]
    rfl

/-- An agent that has a turn sees that the token has fired, or it is in a call which will. -/
theorem poll_fired (a : Agent) (crew : Crew) {m : AgentMoment} (hm : m.isShutdown = true) :
    ((a.poll crew m).isStopped = true ∨ (a.poll crew m).session.isIdle = false) ∧
      ∀ wakeAt, a.stage = .pausing wakeAt → m.now < wakeAt ∨ m.prefersStop = true →
        a.poll crew m = { a with stage := .stopped } := by
  have hstop : ∀ wakeAt, a.stage = .pausing wakeAt → m.now < wakeAt ∨ m.prefersStop = true →
      a.poll crew m = { a with stage := .stopped } := by
    intro wakeAt hst hnow
    unfold poll
    rw [hst]
    refine if_pos ?_
    rcases hnow with hnow | hnow
    · simp [hm, hnow]
    · simp [hm, hnow]
  refine ⟨?_, hstop⟩
  cases hst : a.stage with
  | fresh =>
    unfold poll
    rw [hst]
    exact afterSession_fired _ hm
  | inSession =>
    unfold poll
    rw [hst]
    exact afterSession_fired _ hm
  | stopped =>
    refine .inl ?_
    unfold poll
    rw [hst]
    simp [isStopped, hst]
  | pausing wakeAt =>
    by_cases hnow : m.now < wakeAt ∨ m.prefersStop = true
    · rw [hstop wakeAt hst hnow]
      exact .inl rfl
    · rw [not_or] at hnow
      have hpoll : a.poll crew m = a.launch crew m.toMoment := by
        unfold poll
        simp only [hst]
        rw [if_neg (by simp [hnow.2, Nat.not_lt.mp hnow.1]),
          if_pos (by simpa using Nat.not_lt.mp hnow.1)]
      rw [hpoll]
      exact afterSession_fired _ hm

/-! ## All that a tape does -/

section Hosts

variable (crew : Crew) (config : SessionConfig) (pause : Duration) (sink : Sink)
  (tape : List HostTurn)

theorem hosts_turned (a : Agent) (t : HostTurn) :
    Turned crew (a.hosts crew tape) t (a.hosts crew (tape ++ [t])) := by
  rw [hosts_append]
  exact host_turned ..

theorem hosts_settled (more : List HostTurn) :
    ((start config pause sink).hosts crew tape).session.past <+:
      ((start config pause sink).hosts crew (tape ++ more)).session.past := by
  induction more using List.reverseRec with
  | nil => exact (List.append_nil tape).symm ▸ List.prefix_rfl
  | append_singleton more t ih =>
    rw [← List.append_assoc]
    exact ih.trans ((hosts_kept crew config pause sink (tape ++ more)).settled
      (hosts_turned crew (tape ++ more) _ t))

theorem hosts_stopped (more : List HostTurn)
    (hst : ((start config pause sink).hosts crew tape).stage = .stopped) :
    let a := (start config pause sink).hosts crew tape
    let b := (start config pause sink).hosts crew (tape ++ more)
    b.stage = .stopped ∧ b.sessions = a.sessions ∧ b.session = a.session := by
  intro a b
  induction more using List.reverseRec with
  | nil =>
    have hb : b = a := congrArg ((start config pause sink).hosts crew) (List.append_nil tape)
    rw [hb]
    exact ⟨hst, rfl, rfl⟩
  | append_singleton more t ih =>
    obtain ⟨hst', hn, hs⟩ := ih
    have hturned := hosts_turned crew (tape ++ more) (start config pause sink) t
    obtain ⟨hst'', hn', hs'⟩ := (hosts_kept crew config pause sink (tape ++ more)).stopped hst'
      hturned
    rw [List.append_assoc] at hst'' hn' hs'
    exact ⟨hst'', hn'.trans hn, hs'.trans hs⟩

theorem hosts_late (late : List HostTurn)
    (hlate : ∀ t ∈ late, ∀ m ∈ t.moment?, m.isShutdown = true) :
    ((start config pause sink).hosts crew (tape ++ late)).IsLate
      ((start config pause sink).hosts crew tape).session.attempts.length := by
  induction late using List.reverseRec with
  | nil =>
    rw [List.append_nil]
    exact .none rfl
  | append_singleton late t ih =>
    rw [← List.append_assoc]
    exact (hosts_kept crew config pause sink (tape ++ late)).late
      (ih fun t ht => hlate t (List.mem_append_left _ ht)) (hosts_turned crew (tape ++ late) _ t)
      (hlate t (by simp))

theorem hosts_fresh {m : AgentMoment} (hm : HostTurn.agent (.agent m) ∈ tape) :
    ((start config pause sink).hosts crew tape).stage ≠ .fresh := by
  induction tape using List.reverseRec with
  | nil => simp at hm
  | append_singleton tape t ih =>
    rw [hosts_append]
    cases t with
    | sink sink' => exact ih (by simpa using hm)
    | agent t =>
      cases t with
      | agent m' => exact poll_stage _ _ _
      | poller m' => exact ih (by simpa using hm)
      | supervisor => exact ih (by simpa using hm)
      | watcher => exact ih (by simpa using hm)

/-- **Sessions come one after the other**, each with an identity of its own and a pause after the
one before, until the agent has seen that the token has fired. -/
theorem hosts_relaunched :
    Relaunched crew (start config pause sink) tape ((start config pause sink).hosts crew tape) := by
  have ha := hosts_kept crew config pause sink tape
  refine ⟨fun i a₁ h => ?_, ha.asked, fun m identity => rfl, fun i a₁ run h hr d hd => ?_,
    hosts_settled crew config pause sink tape, fun i a₁ h => (ha.closed i a₁ h).ended,
    fun i a₁ a₂ h₁ h₂ => ha.spaced h₁ h₂, fun m hm => ?_,
    fun late hlate => (hosts_late crew config pause sink tape late hlate).unused,
    fun m hm => poll_fired _ crew hm, fun hstop => ⟨?_, fun more => ?_⟩⟩
  · obtain ⟨m, hm, ha₁⟩ := ha.opened h
    exact ⟨m, hm, ha₁.startedAt, ha₁.identity⟩
  · obtain ⟨m, -, ha₁⟩ := ha.opened h
    exact ha₁.signed run hr d hd
  · have hfresh := hosts_fresh crew config pause sink tape hm
    obtain ⟨c, m', a₁, -, -, hattempts, -⟩ := ha.attempts hfresh
    simp [hattempts]
  · have hst : ((start config pause sink).hosts crew tape).stage = .stopped := by
      simpa [isStopped] using hstop
    rw [ha.count, Session.attempts_idle (ha.idle.mp (by simp [hst]))]
  · have hst : ((start config pause sink).hosts crew tape).stage = .stopped := by
      simpa [isStopped] using hstop
    obtain ⟨hst', hn, hs⟩ := hosts_stopped crew config pause sink tape more hst
    exact ⟨by simp [isStopped, hst'], hn, hs⟩

end Hosts

/-- A moment in which only the first session finds no identity. -/
def sampleMoment (now : Nat) (isShutdown prefersStop : Bool) : AgentMoment :=
  { Scene.sampleMoment now isShutdown with
    identity := fun n => if n = 0 then .error (.identity "no clock") else .ok ⟨"s-1"⟩
    prefersStop }

/-- The token fires just as the pause ends, and the agent looks at the pause first: one more session
begins, in which nobody is called. -/
example :
    let fired := sampleMoment 1 true false
    let a := (start Scene.sampleDesk.session.config ⟨1⟩ (.empty 4)).hosts .relay
      [.agent (.agent (sampleMoment 0 false false)), .agent (.agent fired),
        .agent (.poller fired.toMoment), .agent (.agent fired)]
    a.session.past.map (·.identity) = [none, some ⟨"s-1"⟩] ∧ a.isStopped = true ∧ a.sessions = 2 ∧
      a.session.past.all (fun at' => at'.run.all fun run => run.poller.calls.isEmpty) = true := by
  decide +kernel

end Agent

end HealthRelay
