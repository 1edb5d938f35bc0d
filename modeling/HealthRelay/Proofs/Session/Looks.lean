import HealthRelay.Proofs.Emission
import HealthRelay.Proofs.Session.Shutdown

/-!
# Looks at emissions

Everything that a session does to the sink it does by looking at an emission. `Look` is one such
look, with the sink as it finds it. `SessionDesk.Move` lists the moves of a session, the smallest
steps between which others may get a turn, each with the look that it makes if it makes one;
`poll_looked` and `pollPoller_looked` say that turns consist of moves. `Move.sees` says that a move
leaves the sink as its look leaves it, or as it was.
-/

namespace HealthRelay

/-- One look at an emission, with all that it depends on. -/
structure Look where
  emission : Emission
  /-- Whether nobody has looked at the emission before. -/
  isFirst : Bool
  isCancelled : Bool
  /-- The sink as the look finds it. -/
  sink : Sink

namespace Look

/-- What a look finds, and the sink as it leaves it. -/
def result (l : Look) : Progress Emitted × Sink :=
  if l.isFirst then l.emission.start l.isCancelled l.sink
  else l.emission.look l.isCancelled l.sink

/-- The event with what became of it, if the look settles that. -/
def end? (l : Look) : Option (Event × Emitted) :=
  match l.result.1 with
  | .pending => none
  | .ready emitted => some (l.emission.event, emitted)

/-- The emissions that have ended, in order. -/
def ends (ls : List Look) : List (Event × Emitted) := ls.filterMap end?

/-- The events whose emissions have begun, in order. -/
def begun (ls : List Look) : List Event := (ls.filter (·.isFirst)).map (·.emission.event)

/-- The events whose emissions have ended with the event in the sink, in order. -/
def sent (ls : List Look) : List Event := ((ends ls).filter (·.2 == .sent)).map (·.1)

@[simp] theorem ends_nil : ends [] = [] := rfl

@[simp] theorem begun_nil : begun [] = [] := rfl

@[simp] theorem sent_nil : sent [] = [] := rfl

@[simp] theorem ends_append (ls ls' : List Look) : ends (ls ++ ls') = ends ls ++ ends ls' := by
  simp [ends]

@[simp] theorem begun_append (ls ls' : List Look) : begun (ls ++ ls') = begun ls ++ begun ls' := by
  simp [begun]

@[simp] theorem sent_append (ls ls' : List Look) : sent (ls ++ ls') = sent ls ++ sent ls' := by
  simp [sent]

theorem ends_pending {l : Look} (h : l.result.1 = .pending) : ends [l] = [] := by
  simp [ends, end?, h]

theorem ends_ready {l : Look} {emitted : Emitted} (h : l.result.1 = .ready emitted) :
    ends [l] = [(l.emission.event, emitted)] := by
  simp [ends, end?, h]

theorem sent_pending {l : Look} (h : l.result.1 = .pending) : sent [l] = [] := by
  rw [sent, ends_pending h]
  rfl

theorem sent_ready {l : Look} {emitted : Emitted} (h : l.result.1 = .ready emitted) :
    sent [l] = if emitted = .sent then [l.emission.event] else [] := by
  rw [sent, ends_ready h]
  cases emitted <;> rfl

/-- All that a look can do: nothing that shows, or the event gets in, or it is turned away. -/
theorem result_cases (l : Look) :
    (l.result.1 = .pending ∧ l.isCancelled = false ∧
        (l.isFirst = true → l.sink.found = .full) ∧
        l.result.2.queue = l.sink.queue ∧ l.result.2.accepted = l.sink.accepted) ∨
      (l.result.1 = .ready .sent ∧ l.sink.isOpen = true ∧
        l.result.2.queue = l.sink.queue ++ [l.emission.event] ∧
        l.result.2.accepted = l.sink.accepted ++ [l.emission.event]) ∨
      (l.result.1 = .ready .closed ∧ l.sink.isOpen = false ∧
        l.result.2.queue = l.sink.queue ∧ l.result.2.accepted = l.sink.accepted) ∨
      (l.result.1 = .ready .cancelled ∧ l.isCancelled = true ∧
        (l.isFirst = true → l.sink.found = .full) ∧
        l.result.2.queue = l.sink.queue ∧ l.result.2.accepted = l.sink.accepted) := by
  unfold result
  cases l.isFirst with
  | true =>
    rcases l.emission.start_cases l.isCancelled l.sink with
      ⟨hf, h⟩ | ⟨hf, h⟩ | ⟨hf, hc, h⟩ | ⟨hf, hc, h⟩
    · exact .inr (.inl (by simp [h, (Sink.found_eq_free.mp hf).1, Mailbox.push]))
    · exact .inr (.inr (.inl (by simp [h, Sink.found_eq_gone.mp hf])))
    · rw [hc] at h
      exact .inr (.inr (.inr (by simp [h, hc, hf])))
    · rw [hc] at h
      exact .inl (by simp [h, hc, hf, Mailbox.joinLine])
  | false =>
    rcases l.emission.look_cases l.isCancelled l.sink with
      ⟨hc, h⟩ | ⟨hc, ho, h⟩ | ⟨hc, ho, -, h⟩ | ⟨hc, ho, -, h⟩
    · rw [hc] at h
      exact .inr (.inr (.inr (by simp [h, hc])))
    · exact .inr (.inr (.inl (by simp [h, ho])))
    · exact .inr (.inl (by simp [h, ho, Mailbox.fill, Mailbox.push]))
    · rw [hc] at h
      exact .inl (by simp [h, hc])

theorem result_gate (l : Look) : l.result.2.gate = l.sink.gate := by
  unfold result
  cases l.isFirst with
  | true =>
    rcases l.emission.start_cases l.isCancelled l.sink with
      ⟨-, h⟩ | ⟨-, h⟩ | ⟨-, -, h⟩ | ⟨-, -, h⟩ <;> simp [h, Mailbox.push, Mailbox.joinLine]
  | false =>
    rcases l.emission.look_cases l.isCancelled l.sink with
      ⟨-, h⟩ | ⟨-, -, h⟩ | ⟨-, -, -, h⟩ | ⟨-, -, -, h⟩ <;> simp [h, Mailbox.fill, Mailbox.push]

theorem result_queue (l : Look) : l.result.2.queue = l.sink.queue ++ sent [l] := by
  rcases l.result_cases with ⟨h, -, -, hq, -⟩ | ⟨h, -, hq, -⟩ | ⟨h, -, hq, -⟩ | ⟨h, -, -, hq, -⟩
  · simp [hq, sent_pending h]
  · simp [hq, sent_ready h]
  · simp [hq, sent_ready h]
  · simp [hq, sent_ready h]

theorem result_accepted (l : Look) : l.result.2.accepted = l.sink.accepted ++ sent [l] := by
  rcases l.result_cases with ⟨h, -, -, -, ha⟩ | ⟨h, -, -, ha⟩ | ⟨h, -, -, ha⟩ | ⟨h, -, -, -, ha⟩
  · simp [ha, sent_pending h]
  · simp [ha, sent_ready h]
  · simp [ha, sent_ready h]
  · simp [ha, sent_ready h]

theorem isOpen_of_closed {l : Look} (h : l.result.1 = .ready .closed) : l.sink.isOpen = false := by
  rcases l.result_cases with ⟨h', -⟩ | ⟨h', -⟩ | ⟨-, ho, -⟩ | ⟨h', -⟩
  · cases h.symm.trans h'
  · cases h.symm.trans h'
  · exact ho
  · cases h.symm.trans h'

/-- Only a full sink makes an emission wait. -/
theorem found_of_pending {l : Look} (h : l.result.1 = .pending) (hf : l.isFirst = true) :
    l.sink.found = .full := by
  rcases l.result_cases with ⟨-, -, hfull, -⟩ | ⟨h', -⟩ | ⟨h', -⟩ | ⟨h', -⟩
  · exact hfull hf
  · cases h.symm.trans h'
  · cases h.symm.trans h'
  · cases h.symm.trans h'

theorem isCancelled_of_cancelled {l : Look} (h : l.result.1 = .ready .cancelled) :
    l.isCancelled = true ∧ (l.isFirst = true → l.sink.found = .full) := by
  rcases l.result_cases with ⟨h', -⟩ | ⟨h', -⟩ | ⟨h', -⟩ | ⟨-, hc, hf, -⟩
  · cases h.symm.trans h'
  · cases h.symm.trans h'
  · cases h.symm.trans h'
  · exact ⟨hc, hf⟩

end Look

/-! ## Steps that look -/

/-- Steps one after the other, with the looks that they make. -/
inductive Looked {σ : Type} (step : σ → Option Look → σ → Prop) : σ → List Look → σ → Prop where
  | refl (s : σ) : Looked step s [] s
  | tail {s s' s'' : σ} {ls : List Look} {l : Option Look} : Looked step s ls s' → step s' l s'' →
      Looked step s (ls ++ l.toList) s''

namespace Looked

variable {σ τ : Type} {step : σ → Option Look → σ → Prop} {s s' s'' : σ} {ls ls' : List Look}

theorem silent (h : Looked step s ls s') (hs : step s' none s'') : Looked step s ls s'' := by
  have ht := h.tail hs
  rwa [Option.toList_none, List.append_nil] at ht

theorem single {l : Option Look} (h : step s l s') : Looked step s l.toList s' := .tail (.refl s) h

theorem trans (h : Looked step s ls s') (h' : Looked step s' ls' s'') :
    Looked step s (ls ++ ls') s'' := by
  induction h' with
  | refl => rwa [List.append_nil]
  | tail _ hs ih =>
    rw [← List.append_assoc]
    exact .tail ih hs

/-- A function that carries steps over carries over what consists of them. -/
theorem lift {step' : τ → Option Look → τ → Prop} (f : σ → τ)
    (hf : ∀ s l s', step s l s' → step' (f s) l (f s')) (h : Looked step s ls s') :
    Looked step' (f s) ls (f s') := by
  induction h with
  | refl => exact .refl _
  | tail _ hs ih => exact .tail ih (hf _ _ _ hs)

/-- Steps that keep an invariant may be seen as steps that rely on it. -/
theorem refine {step' : σ → Option Look → σ → Prop} {P : σ → Prop} (h : Looked step s ls s')
    (hp : P s) (hstep : ∀ s l s', P s → step s l s' → P s' ∧ step' s l s') :
    P s' ∧ Looked step' s ls s' := by
  induction h with
  | refl => exact ⟨hp, .refl _⟩
  | tail _ hs ih =>
    obtain ⟨hp', hlooked⟩ := ih
    obtain ⟨hp'', hs'⟩ := hstep _ _ _ hp' hs
    exact ⟨hp'', hlooked.tail hs'⟩

end Looked

/-- A step leaves the sink as its look leaves it, or as it was. -/
inductive Sink.Sees : Sink → Option Look → Sink → Prop where
  | rest (s : Sink) : Sees s none s
  | look (l : Look) : Sees l.sink (some l) l.result.2

namespace Sink.Sees

variable {s s' : Sink} {l : Option Look}

theorem queue (h : Sees s l s') : s'.queue = s.queue ++ Look.sent l.toList := by
  cases h with
  | rest => simp
  | look l => exact l.result_queue

theorem accepted (h : Sees s l s') : s'.accepted = s.accepted ++ Look.sent l.toList := by
  cases h with
  | rest => simp
  | look l => exact l.result_accepted

theorem gate (h : Sees s l s') : s'.gate = s.gate := by
  cases h with
  | rest => rfl
  | look l => exact l.result_gate

/-- An open sink turns nobody away for good. -/
theorem ne_closed (h : Sees s l s') (ho : s.isOpen = true) :
    ∀ x ∈ Look.ends l.toList, x.2 ≠ .closed := by
  cases h with
  | rest => simp
  | look l =>
    cases hl : l.result.1 with
    | pending =>
      rw [Option.toList_some, Look.ends_pending hl]
      simp
    | ready emitted =>
      rw [Option.toList_some, Look.ends_ready hl]
      intro x hx
      obtain rfl := List.mem_singleton.mp hx
      rintro (rfl : emitted = .closed)
      simp [Look.isOpen_of_closed hl] at ho

end Sink.Sees

/-! ## The moves of a reporter -/

namespace Reporter

variable {t : Turn} {r : Reporter} {desk : Desk} {x : Reporter × Desk}

/-- The look at an emission that the next move of a turn makes. -/
def look? (r : Reporter) (t : Turn) (sink : Sink) : Option Look :=
  match r.stage with
  | .delivering d =>
    match (r.lookAt d t).2 with
    | .ready answer =>
      match answer.bind id with
      | .ok () => none
      | .error .cancelled => none
      | .error cause => some ⟨r.emission cause, true, t.isCancelled, sink⟩
    | .pending => none
  | .announcing _ _ e => some ⟨e, false, t.isCancelled, sink⟩
  | _ => none

theorem look?_failed {d : Delivery} {call : Call} {answer : Except Failure (Except Failure Unit)}
    {cause : Failure} (hst : r.stage = .delivering d) (hl : r.lookAt d t = (call, .ready answer))
    (ha : answer.bind id = .error cause) (hne : cause ≠ .cancelled) (sink : Sink) :
    r.look? t sink = some ⟨r.emission cause, true, t.isCancelled, sink⟩ := by
  unfold look?
  simp only [hst, hl, ha]

theorem look?_settled {d : Delivery} {call : Call} {answer : Except Failure (Except Failure Unit)}
    (hst : r.stage = .delivering d) (hl : r.lookAt d t = (call, .ready answer))
    (ha : answer.bind id = .ok () ∨ answer.bind id = .error .cancelled) (sink : Sink) :
    r.look? t sink = none := by
  unfold look?
  rcases ha with ha | ha <;> simp only [hst, hl, ha]

theorem look?_announcing {d : Delivery} {cause : Failure} {e : Emission}
    (hst : r.stage = .announcing d cause e) (sink : Sink) :
    r.look? t sink = some ⟨e, false, t.isCancelled, sink⟩ := by
  unfold look?
  simp only [hst]

theorem look?_receiving (hst : r.stage = .receiving) (sink : Sink) : r.look? t sink = none := by
  unfold look?
  simp only [hst]

theorem look?_pending {d : Delivery} {call : Call} (hst : r.stage = .delivering d)
    (hl : r.lookAt d t = (call, .pending)) (sink : Sink) : r.look? t sink = none := by
  unfold look?
  simp only [hst, hl]

theorem announce_sink (r : Reporter) (d : Delivery) (cause : Failure) (e : Emission)
    (looked : Progress Emitted × Sink) (now : Nat) (desk : Desk) :
    (r.announce d cause e looked now desk).2.sink = looked.2 := by
  obtain ⟨_ | emitted, sink⟩ := looked <;> rfl

theorem Move.sees (hm : Move t (r, desk) x) : desk.sink.Sees (r.look? t desk.sink) x.2.sink := by
  cases hm with
  | take hst => rw [look?_receiving hst]; exact .rest _
  | wait hst => rw [look?_receiving hst]; exact .rest _
  | leave hst => rw [look?_receiving hst]; exact .rest _
  | linger hst hl => rw [look?_pending hst hl]; exact .rest _
  | succeed hst hl ha => rw [look?_settled hst hl (.inl ha)]; exact .rest _
  | interrupt hst hl ha => rw [look?_settled hst hl (.inr ha)]; exact .rest _
  | fail hst hl ha hne =>
    rw [look?_failed hst hl ha hne, announce_sink]
    exact .look ⟨_, true, t.isCancelled, desk.sink⟩
  | announce hst =>
    rw [look?_announcing hst, announce_sink]
    exact .look ⟨_, false, t.isCancelled, desk.sink⟩

end Reporter

/-! ## The moves of a session -/

namespace SessionDesk

variable {crew : Crew} {m : Moment} {d d' : SessionDesk} {a : Attempt} {run : Run}

/-- The event about a poller that panicked. -/
def alarm (task : Nat) (message : String) : Emission :=
  ⟨.about Session.pollerFailed (.task (Run.panicReason task message)), 0⟩

/-- The desk with its run at another point. -/
def withRun (d : SessionDesk) (a : Attempt) (run : Run) : SessionDesk :=
  { d with session := { d.session with stage := .running a run } }

/-- The desk after a move of the reporter of its run. -/
def afterReporter (d : SessionDesk) (a : Attempt) (run : Run) (x : Reporter × Desk) : SessionDesk :=
  ⟨{ d.session with stage := .running a (run.afterReporter x) }, x.2.sink, x.2.journal⟩

/-- The desk of a run that begins now. -/
def launch (d : SessionDesk) (crew : Crew) (m : Moment) (id : SessionId) : SessionDesk :=
  ({ d with session := (d.session.write .init).write .running }.tell
    [.sessionStarted id d.session.config.interval]).withRun
      ⟨m.now, .init, some id, none, none⟩ (.start d.session.config crew id)

theorem join_finished (hp : run.poller.stage = .finished) :
    d.join a run m = d.finish a run m.now := by
  unfold join
  simp only [hp]

theorem join_panicked {message : String} (hp : run.poller.stage = .panicked message) :
    d.join a run m =
      (d.tell [.pollerFailed run.sessionId (Run.panicReason d.session.past.length message)]).mourn a
        run (alarm d.session.past.length message)
        ((alarm d.session.past.length message).start m.isShutdown d.sink) m.now := by
  unfold join
  simp only [hp]
  rfl

theorem join_alive (hp : run.poller.isOver = false) :
    d.join a run m = d.withRun a { run with activity := .joining } := by
  unfold join
  split
  · rename_i hst
    simp [Poller.isOver, hst] at hp
  · rename_i hst
    simp [Poller.isOver, hst] at hp
  · rfl

/-- The first step of a call, with the look that it makes. -/
inductive Opens (crew : Crew) (m : Moment) : SessionDesk → Option Look → SessionDesk → Prop where
  | refuse {d : SessionDesk} {cause : Failure} :
      m.identity d.session.past.length = .error cause →
      Opens crew m d (some ⟨refusal cause, true, m.isShutdown, d.sink⟩) (d.begin crew m)
  | launch {d : SessionDesk} {id : SessionId} : m.identity d.session.past.length = .ok id →
      Opens crew m d none (d.launch crew m id)

/-- One move of a call that has begun, with the look that it makes. -/
inductive Move (crew : Crew) (m : Moment) : SessionDesk → Option Look → SessionDesk → Prop where
  | refuse {d : SessionDesk} {a : Attempt} {e : Emission} : d.session.stage = .refusing a e →
      Move crew m d (some ⟨e, false, m.isShutdown, d.sink⟩)
        (d.refuse a e (e.look m.isShutdown d.sink) m.now)
  | report {d : SessionDesk} {a : Attempt} {run : Run} {x : Reporter × Desk} :
      d.session.stage = .running a run → run.activity = .reporting →
      Reporter.Move (d.session.reporterTurn crew m run)
        (run.reporter, ⟨run.handoff, d.sink, d.journal⟩) x →
      Move crew m d (run.reporter.look? (d.session.reporterTurn crew m run) d.sink)
        (d.afterReporter a run x)
  | close {d : SessionDesk} {a : Attempt} {run : Run} : d.session.stage = .running a run →
      run.activity = .reporting → run.reporter.isOver = true →
      Move crew m d none (d.withRun a run.closing)
  | finish {d : SessionDesk} {a : Attempt} {run : Run} : d.session.stage = .running a run →
      run.activity = .joining → run.poller.stage = .finished →
      Move crew m d none (d.finish a run m.now)
  | alarm {d : SessionDesk} {a : Attempt} {run : Run} {message : String} :
      d.session.stage = .running a run → run.activity = .joining →
      run.poller.stage = .panicked message →
      Move crew m d (some ⟨SessionDesk.alarm d.session.past.length message, true, m.isShutdown, d.sink⟩)
        (d.join a run m)
  | mourn {d : SessionDesk} {a : Attempt} {run : Run} {e : Emission} :
      d.session.stage = .running a run → run.activity = .mourning e →
      Move crew m d (some ⟨e, false, m.isShutdown, d.sink⟩)
        (d.mourn a run e (e.look m.isShutdown d.sink) m.now)
  /-- A turn of the poller goes on with what it found at its start. -/
  | poll {d : SessionDesk} {a : Attempt} {run run₀ : Run} {x : Poller × Handoff} :
      d.session.stage = .running a run → run.isClosing = run₀.isClosing →
      Poller.Move (d.session.pollerTurn crew m run₀) (run.poller, run.handoff) x →
      Move crew m d none (d.withRun a (run.afterPoller x))

theorem Opens.sees {l : Option Look} (h : Opens crew m d l d') : d.sink.Sees l d'.sink := by
  cases h with
  | refuse hid =>
    rw [begin_error hid, refuse_sink]
    exact .look ⟨_, true, m.isShutdown, d.sink⟩
  | launch => exact .rest _

theorem Move.sees {l : Option Look} (h : Move crew m d l d') : d.sink.Sees l d'.sink := by
  cases h with
  | refuse hst =>
    rw [refuse_sink]
    exact .look ⟨_, false, m.isShutdown, d.sink⟩
  | report hst ha hm => exact hm.sees
  | close => exact .rest _
  | finish => exact .rest _
  | alarm hst ha hp =>
    rw [join_panicked hp, mourn_sink]
    exact .look ⟨_, true, m.isShutdown, d.sink⟩
  | mourn hst ha =>
    rw [mourn_sink]
    exact .look ⟨_, false, m.isShutdown, d.sink⟩
  | poll => exact .rest _

theorem Move.busy {l : Option Look} (h : Move crew m d l d') : d.session.stage ≠ .idle := by
  cases h <;> simp [*]

/-! ## Turns consist of moves -/

theorem withRun_stage (d : SessionDesk) (a : Attempt) (run : Run) :
    (d.withRun a run).session.stage = .running a run := rfl

theorem withRun_self (hst : d.session.stage = .running a run) : d.withRun a run = d := by
  unfold withRun
  rw [← hst]

theorem pollerMoves_looked (hst : d.session.stage = .running a run) {x : Poller × Handoff}
    (hm : Poller.Moves (d.session.pollerTurn crew m run) (run.poller, run.handoff) x) :
    Looked (Move crew m) d [] (d.withRun a (run.afterPoller x)) := by
  induction hm with
  | refl =>
    have h : d.withRun a run = d := withRun_self hst
    exact h.symm ▸ .refl d
  | @tail b c _ hs ih =>
    have hclosing : (run.afterPoller b).isClosing = run.isClosing := rfl
    have hmove := Move.poll (withRun_stage d a (run.afterPoller b)) hclosing hs
    exact ih.silent hmove

theorem pollPoller_looked (d : SessionDesk) (crew : Crew) (m : Moment) :
    Looked (Move crew m) d [] (d.pollPoller crew m) := by
  cases hst : d.session.stage with
  | idle => rw [pollPoller_idle hst]; exact .refl d
  | refusing a e => rw [pollPoller_refusing hst]; exact .refl d
  | running a run =>
    rw [pollPoller_running hst]
    exact pollerMoves_looked hst (Poller.poll_moves ..)

theorem afterReporter_stage (d : SessionDesk) (a : Attempt) (run : Run) (x : Reporter × Desk) :
    (d.afterReporter a run x).session.stage = .running a (run.afterReporter x) := rfl

theorem reporterMoves_looked (hst : d.session.stage = .running a run)
    (ha : run.activity = .reporting) {x : Reporter × Desk}
    (hm : Reporter.Moves (d.session.reporterTurn crew m run)
      (run.reporter, ⟨run.handoff, d.sink, d.journal⟩) x) :
    ∃ ls, Looked (Move crew m) d ls (d.afterReporter a run x) := by
  induction hm with
  | refl =>
    have h : d.afterReporter a run (run.reporter, ⟨run.handoff, d.sink, d.journal⟩) = d :=
      withRun_self hst
    exact ⟨[], h.symm ▸ .refl d⟩
  | @tail b c _ hs ih =>
    obtain ⟨ls, hls⟩ := ih
    have hmove := Move.report (afterReporter_stage d a run b) ha hs
    exact ⟨_, hls.tail hmove⟩

theorem join_looked (hst : d.session.stage = .running a run) (ha : run.activity = .joining) :
    ∃ ls, Looked (Move crew m) d ls (d.join a run m) := by
  cases hp : run.poller.stage with
  | finished =>
    rw [join_finished hp]
    exact ⟨_, .single (.finish hst ha hp)⟩
  | panicked message => exact ⟨_, .single (.alarm hst ha hp)⟩
  | _ =>
    rw [join_alive (by simp [Poller.isOver, hp]), ← ha, withRun_self hst]
    exact ⟨_, .refl d⟩

theorem report_looked (hst : d.session.stage = .running a run) (ha : run.activity = .reporting) :
    ∃ ls, Looked (Move crew m) d ls (d.report a run crew m) := by
  let x := run.reporter.poll (d.session.reporterTurn crew m run) ⟨run.handoff, d.sink, d.journal⟩
  obtain ⟨ls, hls⟩ := reporterMoves_looked hst ha (Reporter.poll_moves
    (d.session.reporterTurn crew m run) run.reporter ⟨run.handoff, d.sink, d.journal⟩)
  rcases d.report_eq a run crew m with ⟨-, hs⟩ | ⟨hover, hs⟩
  · rw [hs]
    exact ⟨ls, hls⟩
  · have hclose : Move crew m _ none _ := .close (afterReporter_stage d a run x) ha hover
    obtain ⟨ls', hls' : Looked (Move crew m) _ ls' _⟩ := join_looked
      (withRun_stage (d.afterReporter a run x) a (run.afterReporter x).closing) rfl
    rw [hs]
    exact ⟨_, (hls.silent hclose).trans hls'⟩

/-- **A turn of the session consists of moves.** -/
theorem poll_looked (d : SessionDesk) (crew : Crew) (m : Moment) :
    ∃ ls, Looked (Move crew m) d ls (d.poll crew m) := by
  cases hst : d.session.stage with
  | idle => exact ⟨[], by rw [poll_idle hst]; exact .refl d⟩
  | refusing a e => exact ⟨_, by rw [poll_refusing hst]; exact .single (.refuse hst)⟩
  | running a run =>
    unfold poll
    simp only [hst]
    cases ha : run.activity with
    | reporting => exact report_looked hst ha
    | joining => exact join_looked hst ha
    | mourning e => exact ⟨_, .single (.mourn hst ha)⟩
    | «over» => exact ⟨[], .refl d⟩

/-- The turn in which a call begins is the turn after its first step. -/
theorem begin_eq_launch {id : SessionId} (hid : m.identity d.session.past.length = .ok id) :
    d.begin crew m = (d.launch crew m id).poll crew m := by
  rw [begin_ok hid]
  unfold poll launch report join
  rfl

/-- **So does the turn in which a call begins.** -/
theorem begin_looked (d : SessionDesk) (crew : Crew) (m : Moment) :
    ∃ l d' ls, Opens crew m d l d' ∧ Looked (Move crew m) d' ls (d.begin crew m) := by
  cases hid : m.identity d.session.past.length with
  | error cause => exact ⟨_, _, [], .refuse hid, .refl _⟩
  | ok id =>
    obtain ⟨ls, hls⟩ := (d.launch crew m id).poll_looked crew m
    exact ⟨_, _, ls, .launch hid, begin_eq_launch hid ▸ hls⟩

end SessionDesk

end HealthRelay
