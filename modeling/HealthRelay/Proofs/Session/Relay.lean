import HealthRelay.Proofs.Session.Linked

/-!
# Samples are relayed as they are

`Sound fired` is what every move of a run keeps: the poller and the reporter are linked, every
delivery carries what its reporter was given at the start, and the two sides end one after the
other. It follows that the deliveries are the samples of the probe calls, one for one and in order,
up to the sample on its way; and that only a call whose token has fired may end without it.
-/

namespace HealthRelay

namespace Poller

theorem Move.alive {t : Turn} {p : Poller} {h : Handoff} {x : Poller × Handoff}
    (hm : Move t (p, h) x) : p.isOver = false := by
  cases hm <;> simp [isOver, *]

end Poller

namespace Reporter

theorem Move.alive {t : Turn} {r : Reporter} {desk : Desk} {x : Reporter × Desk}
    (hm : Move t (r, desk) x) : r.isOver = false := by
  cases hm <;> simp [isOver, *]

end Reporter

namespace Run

/-- What every move keeps, given whether the caller's token has fired. -/
structure Sound (fired : Prop) (run : Run) : Prop where
  linked : Linked fired run.poller run.handoff run.reporter.samples
  signed : run.reporter.Signed
  left : run.reporter.isOver = true → run.poller.isOver = true
  closing : run.isClosing = true → run.reporter.isOver = true
  turned : run.activity ≠ .reporting → run.reporter.isOver = true

variable {fired : Prop} {run : Run} {crew : Crew} {m : Moment}

theorem sound_start (config : SessionConfig) (crew : Crew) (id : SessionId) :
    (start config crew id).Sound fired where
  linked := .producing rfl (by simp [start, Poller.start]) rfl rfl Handoff.carries_empty rfl
  signed := rfl
  left h := by cases h
  closing h := by cases h
  turned h := absurd rfl h

theorem Sound.mono {fired' : Prop} (hs : run.Sound fired) (hf : fired → fired') :
    run.Sound fired' := ⟨hs.linked.mono hf, hs.signed, hs.left, hs.closing, hs.turned⟩

theorem Sound.pollerMove (hs : run.Sound fired) {t : Poller.Turn}
    (hf : t.isCancelled = true → fired) {x : Poller × Handoff}
    (hm : Poller.Move t (run.poller, run.handoff) x) : (run.afterPoller x).Sound fired where
  linked := hs.linked.pollerMove hf hm
  signed := hs.signed
  left h := absurd (hs.left h) (by simp [hm.alive])
  closing := hs.closing
  turned := hs.turned

theorem Sound.reporterMove (hs : run.Sound fired) (ha : run.activity = .reporting)
    {t : Reporter.Turn} {sink : Sink} {journal : List Entry} {x : Reporter × Desk}
    (hm : Reporter.Move t (run.reporter, ⟨run.handoff, sink, journal⟩) x) :
    (run.afterReporter x).Sound fired := by
  -- a reporter that still moves is not over, so its run is not closing yet
  have halive := hm.alive
  have hclosing : ¬ run.isClosing = true := fun h => by simp [hs.closing h] at halive
  have hlinked := hs.linked
  rcases hm.effect with ⟨s, h', hst, hr, rfl⟩ | ⟨h', hst, hr, rfl⟩ | ⟨h', hst, hr, rfl⟩ | hw
  · obtain ⟨hl', -⟩ := hlinked.receive_sample hr
    exact ⟨(Reporter.samples_holding hst s t.now).symm ▸ hl', hs.signed.holding hst _ _,
      fun h => (by cases h), fun h => absurd h hclosing, fun h => absurd ha h⟩
  · obtain ⟨rfl, -⟩ := hlinked.receive_pending hr
    exact hs
  · obtain ⟨hl', hp, -⟩ := hlinked.receive_closed hr
    have hreports := Reporter.reports_done hst
    exact ⟨(Reporter.samples_eq hreports).symm ▸ hl', hs.signed.of_reports rfl hreports,
      fun _ => hp, fun _ => rfl, fun _ => rfl⟩
  · have hsamples := Reporter.samples_eq hw.reports
    have hhandoff : x.2.handoff = run.handoff := hw.handoff
    refine ⟨?_, hs.signed.of_reports hw.header hw.reports, fun h => ?_, fun h => absurd h hclosing,
      fun h => absurd ha h⟩
    · simp only [afterReporter, hsamples, hhandoff]
      exact hlinked
    · exact absurd h (by simp [afterReporter, hw.after])

theorem Sound.close (hs : run.Sound fired) (hover : run.reporter.isOver = true) :
    run.closing.Sound fired :=
  ⟨hs.linked, hs.signed, hs.left, fun _ => hover, fun _ => hover⟩

theorem Sound.turn (hs : run.Sound fired) (ha : run.activity ≠ .reporting) (activity : Activity) :
    { run with activity }.Sound fired :=
  ⟨hs.linked, hs.signed, hs.left, hs.closing, fun _ => hs.turned ha⟩

theorem keeps_sound (crew : Crew) (hf : m.isShutdown = true → fired) :
    Keeps crew m (Sound fired) where
  poller s run₀ run x hs hc hm := by
    have hclosing : run₀.isClosing = false := by
      rw [← hc]
      refine Bool.eq_false_iff.mpr fun h => ?_
      have := hs.left (hs.closing h)
      simp [hm.alive] at this
    refine hs.pollerMove (fun hcan => hf ?_) hm
    simpa [Session.pollerTurn, isCancelled, hclosing] using hcan
  reporter s run₀ run sink journal x hs ha hc hm := hs.reporterMove ha hm
  closing _ hs _ hover := hs.close hover
  turn _ activity hs ha _ _ := hs.turn ha activity

/-- The reporter has what the session gave it at the start. -/
def Equipped (config : SessionConfig) (crew : Crew) (run : Run) : Prop :=
  run.reporter.header = .start config.interval run.sessionId config.agentName config.externalAddr
    crew.notice

theorem keeps_equipped (config : SessionConfig) (crew : Crew) (m : Moment) :
    Keeps crew m (Equipped config crew) where
  poller _ _ _ _ h _ _ := h
  reporter _ _ run _ _ x h _ _ hm := by
    rcases hm.effect with ⟨_, _, -, -, rfl⟩ | ⟨_, -, -, rfl⟩ | ⟨_, -, -, rfl⟩ | hw
    · exact h
    · exact h
    · exact h
    · exact hw.header.trans h
  closing _ h _ _ := h
  turn _ _ h _ _ _ := h

/-- The reports of a run, by their samples. -/
theorem Equipped.reports {config : SessionConfig} (he : run.Equipped config crew)
    (hs : run.reporter.Signed) : run.reporter.reports = run.reporter.samples.map fun sample =>
      { agentName := config.agentName, sessionId := run.sessionId
        externalAddr := config.externalAddr, sample } := by
  simp only [Equipped, Reporter.header, Reporter.start, Reporter.mk.injEq] at he
  rw [hs]
  simp [Reporter.reportOf, he]

end Run

namespace Scene

variable {crew : Crew} {d : SessionDesk} {c : Scene}

theorem play_stands (crew : Crew) (hd : d.session.stage = .idle) (tape : List SceneTurn) :
    ((start d).play crew tape).Stands fun run =>
      run.Sound (HasFired tape) ∧ run.Equipped d.session.config crew := by
  refine (stands_start hd).play tape (fun t ht m hm => ?_) fun _ id => ?_
  · exact (Run.keeps_sound crew fun h => ⟨t, ht, m, hm, h⟩).and
      (Run.keeps_equipped d.session.config crew m)
  · exact ⟨Run.sound_start _ crew id, rfl⟩

/-- What a call has done with its samples, given whether its token has fired. -/
structure Faithful (fired : Prop) (c : Scene) : Prop where
  in_order : c.delivered <+: c.probed
  /-- Only the token makes a call end without its last sample. -/
  complete : c.isOver = true →
    c.delivered = c.probed ∨ fired ∧ ∃ s, c.probed = c.delivered ++ [s]
  complete_of_panic : ∀ run message, c.run? = some run → run.poller.stage = .panicked message →
    c.isOver = true → c.delivered = c.probed
  /-- The identity is the one that was made in the first turn, and every report carries it. -/
  signed : ∀ run, c.run? = some run → ∃ m, c.opening = some m ∧
    m.identity c.before.past.length = .ok run.sessionId ∧
    run.reporter.deliveries.map (·.report) = c.delivered.map fun sample =>
      { agentName := c.before.config.agentName, sessionId := run.sessionId
        externalAddr := c.before.config.externalAddr, sample }

theorem delivered_eq {run : Run} (hr : c.run? = some run) :
    c.delivered = run.reporter.samples := by
  simp [delivered, hr, Reporter.samples, Reporter.reports, Delivery.report]

theorem Stands.delivered_isPrefix {fired : Prop} (hst : c.Stands (Run.Sound fired)) :
    c.delivered <+: c.probed := by
  cases hr : c.run? with
  | none => simp [delivered, hr]
  | some run =>
    obtain ⟨m, n, -, -, -, hsound⟩ := hst.launched_of_run? hr
    rw [delivered_eq hr]
    simp only [probed, hr, Option.elim_some]
    exact hsound.linked.done_isPrefix

theorem Stands.faithful {fired : Prop}
    (hst : c.Stands fun run => run.Sound fired ∧ run.Equipped c.before.config crew) :
    c.Faithful fired := by
  cases hr : c.run? with
  | none =>
    have hp : c.probed = [] := by simp [probed, hr]
    have hd : c.delivered = [] := by simp [delivered, hr]
    refine ⟨by simp [hp, hd], fun _ => .inl (by rw [hp, hd]), ?_, ?_⟩
    · rintro run message h
      cases hr.symm.trans h
    · rintro run h
      cases hr.symm.trans h
  | some run =>
    obtain ⟨m, n, hopen, hid, hs, hsound, heq⟩ := hst.launched_of_run? hr
    have hp : c.probed = run.poller.samples := by simp [probed, hr]
    have hd := delivered_eq hr
    have hover : c.isOver = true → run.poller.isOver = true := by
      intro h
      have ha := (isOver_put hopen hs).mp h
      exact hsound.left (hsound.turned (by simp [ha]))
    refine ⟨(hst.imp fun _ h => h.1).delivered_isPrefix, fun h => ?_,
      fun run' message hr' hst' h => ?_, fun run' hr' => ?_⟩
    · rw [hp, hd]
      exact (hsound.linked.of_over (hover h)).imp_right fun ⟨hf, _, hs⟩ => ⟨hf, hs⟩
    · cases hr.symm.trans hr'
      rw [hp, hd]
      rcases hsound.linked.of_over (hover h) with hdone | ⟨-, hst'', -⟩
      · exact hdone
      · cases hst''.symm.trans hst'
    · cases hr.symm.trans hr'
      exact ⟨m, hopen, hid, hd ▸ heq.reports hsound.signed⟩

/-- **Samples are relayed without loss, repetition, reordering or change**, in every call of a
session, whoever gets the turns and whenever the token fires. -/
theorem play_faithful (crew : Crew) (hd : d.session.stage = .idle) (tape : List SceneTurn) :
    ((start d).play crew tape).Faithful (HasFired tape) := by
  have hst := play_stands crew hd tape
  have hb : ((start d).play crew tape).before = d.session := play_before tape
  rw [← hb] at hst
  exact hst.faithful

/-- A session without a past, beside an empty sink. -/
def sampleDesk : SessionDesk := ⟨.start ⟨some "gpu-1", .ofMillis 1, ⟨"h", 1⟩⟩, .empty 1, []⟩

/-- A moment in which every call answers at once; a sample bears the number of its probe. -/
def sampleMoment (now : Nat) (isShutdown : Bool) : Moment :=
  { now, wallMs := 0, isShutdown, identity := fun _ => .ok ⟨"s-1"⟩
    probe := fun n => .ready (.done (.observed "ok" n.toUInt64))
    deliver := fun _ => .ready (.ok ()) }

/-- Two probes; the token fires before the second sample is taken. -/
def sampleTape : List SceneTurn :=
  [.session (sampleMoment 0 false), .poller (sampleMoment 0 false), .session (sampleMoment 0 false),
    .poller (sampleMoment 1000000 false), .poller (sampleMoment 1000000 true),
    .session (sampleMoment 1000000 true)]

theorem play_faithful_interrupted :
    let c := (start sampleDesk).play Crew.relay sampleTape
    sampleDesk.session.stage = .idle ∧ c.isOver = true ∧
      c.probed = [.observed "ok" 0, .observed "ok" 1] ∧ c.delivered = [.observed "ok" 0] ∧
      c.Faithful (HasFired sampleTape) :=
  ⟨by decide +kernel, by decide +kernel, by decide +kernel, by decide +kernel,
    play_faithful Crew.relay (by decide +kernel) sampleTape⟩

end Scene

end HealthRelay
