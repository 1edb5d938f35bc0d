import HealthRelay.Proofs.Session.Notices
import HealthRelay.Proofs.Session.Pace
import Mathlib.Tactic.MkIffOfInductiveProp

/-!
# Samples are fresh and come regularly

A paced tape lets the clock go on as a clock does that only moves when there is nothing to do: every
turn that finds something to do comes before. `IsFresh` says how old the samples are then. Calls may
take as long as they have; one that does not keep to its scope has to end in time by itself.
-/

namespace HealthRelay

/-- What the clock shows after a turn. -/
def SceneTurn.clock (clock : Nat) (t : SceneTurn) : Nat := (t.moment?.map (·.now)).getD clock

namespace Scene

def HasPanicked (c : Scene) : Prop :=
  ∃ run message, c.run? = some run ∧ run.poller.stage = .panicked message

/-- The clock may go on to this moment. -/
@[mk_iff]
structure IsTimely (crew : Crew) (clock : Nat) (c : Scene) (m : Moment) : Prop where
  forward : clock ≤ m.now
  /-- Whoever has something to do gets a turn before the clock goes on. -/
  rest : ∀ s < m.now, clock ≤ s → c.desk.IsAtRest crew s
  /-- No event about a delivery waits for room in the sink while the clock goes on. -/
  room : clock < m.now → ∀ run ∈ c.desk.session.run?, run.reporter.waiting? = none
  /-- A probe call that does not keep to its scope ends in time by itself. -/
  probe : ∀ run ∈ c.desk.session.run?, ∀ call ∈ run.poller.inFlight?,
    crew.probeIsGated (c.desk.session.probesBefore + run.poller.past.length) = false →
    m.now ≤ call.scope.expiresAt
  /-- So does a deliver call. -/
  deliver : ∀ run ∈ c.desk.session.run?, ∀ d ∈ run.reporter.working?,
    crew.deliverIsGated (c.desk.session.deliveriesBefore + run.reporter.past.length) = false →
    m.now ≤ d.call.scope.expiresAt
  /-- The token has not fired. -/
  awake : m.isShutdown = false
  /-- The time that stands in for budgets that are too long is still on the clock. -/
  inRange : m.now + Scope.farFuture.nanos < Scope.clockEnd.nanos

instance (crew : Crew) (clock : Nat) (c : Scene) (m : Moment) :
    Decidable (c.IsTimely crew clock m) :=
  decidable_of_iff' _ (isTimely_iff crew clock c m)

/-- A tape that lets the clock go on only when it may. -/
def IsPaced (crew : Crew) : Nat → Scene → List SceneTurn → Prop
  | _, _, [] => True
  | clock, c, t :: tape =>
    (∀ m ∈ t.moment?, c.IsTimely crew clock m) ∧
      IsPaced crew (t.clock clock) (c.apply crew t) tape

instance decidableIsPaced (crew : Crew) :
    ∀ (clock : Nat) (c : Scene) (tape : List SceneTurn), Decidable (IsPaced crew clock c tape)
  | _, _, [] => .isTrue trivial
  | clock, c, t :: tape =>
    have := decidableIsPaced crew (t.clock clock) (c.apply crew t) tape
    inferInstanceAs (Decidable (_ ∧ _))

/-- Samples are fresh and come regularly, as of now. -/
structure IsFresh (interval : Duration) (now : Nat) (c : Scene) : Prop where
  /-- Every probe gives its sample, up to one that is on or has panicked. -/
  sampled : c.probed.length ≤ c.calls.length ∧ c.calls.length ≤ c.probed.length + 1
  in_order : c.delivered <+: c.probed
  delivery : ∀ (n : Nat) (call : Call) (d : Delivery), c.calls[n]? = some call →
    c.deliveries[n]? = some d →
    call.scope.openedAt ≤ d.call.scope.openedAt ∧
      d.call.scope.openedAt ≤ call.scope.openedAt + interval.nanos ∧
      d.doneAt.getD now ≤ call.scope.openedAt + 2 * interval.nanos
  /-- A sample that nobody delivers yet is not late yet; only a panic gives no sample. -/
  next_delivery : ∀ (n : Nat) (call : Call), c.calls[n]? = some call → c.deliveries[n]? = none →
    now ≤ call.scope.openedAt + interval.nanos ∨ c.HasPanicked ∧ c.calls.length = n + 1
  cadence : ∀ (n : Nat) (call call' : Call), c.calls[n]? = some call →
    c.calls[n + 1]? = some call' →
    call.scope.openedAt ≤ call'.scope.openedAt ∧
      call'.scope.openedAt ≤ call.scope.openedAt + interval.nanos
  /-- A probe that has not started yet is not late yet, unless there will be none. -/
  next_probe : ∀ call, c.calls.getLast? = some call →
    now ≤ call.scope.openedAt + interval.nanos ∨ c.HasPanicked

variable {crew : Crew} {c : Scene} {m : Moment} {clock : Nat} {interval : Duration}

/-! ## What everybody waits for while the clock goes on -/

section Waiting

variable {a : Attempt} {run : Run}

/-- While the clock goes on, the reporter waits for a sample or for the end of a delivery. -/
theorem IsTimely.reporter_waits (ht : c.IsTimely crew clock m) (hlt : clock < m.now)
    (hst : c.desk.session.stage = .running a run) (hs : run.Sound False)
    (h : run.OnTime interval clock) (hr : run.reporter.isOver = false) :
    (run.reporter.stage = .receiving ∧ ∃ h', run.handoff.receive = (.pending, h')) ∨
      ∃ d, run.reporter.stage = .delivering d ∧ m.now ≤ d.call.scope.expiresAt := by
  have hrun : c.desk.session.run? = some run := by simp [Session.run?, hst]
  have ha : run.activity = .reporting :=
    Decidable.byContradiction fun hne => by simp [hs.turned hne] at hr
  have hrest := (ht.rest (m.now - 1) (by omega) (by omega)).1
  rcases Reporter.poll_rest hr (SessionDesk.reporter_rest hst ha hrest) with
    hreceiving | ⟨d, call, hd, hl⟩ | ⟨d, cause, e, hd⟩
  · exact .inl hreceiving
  · refine .inr ⟨d, hd, ?_⟩
    cases hg : crew.deliverIsGated
        (c.desk.session.deliveriesBefore + run.reporter.past.length) with
    | false => exact ht.deliver run hrun d (by simp [Reporter.working?, hd]) hg
    | true =>
      rw [Reporter.lookAt] at hl
      simp only [Session.reporterTurn, hg, Moment.quiet] at hl
      have hleft := Call.lt_of_look_pending (h.reporter.delivering d hd).1 hl
      omega
  · exact absurd (ht.room hlt run hrun) (by simp [Reporter.waiting?, hd])

/-- Meanwhile the poller waits for a tick, for the end of a probe, or for a delivery. -/
theorem IsTimely.poller_waits (ht : c.IsTimely crew clock m) (hlt : clock < m.now)
    (hst : c.desk.session.stage = .running a run) (hs : run.Sound False)
    (h : run.OnTime interval clock) (hr : run.reporter.isOver = false)
    (hp : run.poller.isOver = false) :
    (∃ ticker, run.poller.stage = .waiting ticker ∧ m.now ≤ ticker.due) ∨
      (∃ ticker call, run.poller.stage = .probing ticker call ∧ m.now ≤ call.scope.expiresAt) ∨
      ∃ ticker ticket, run.poller.stage = .handing ticker ticket ∧
        (∃ s, run.handoff.parked = [s]) ∧ ∃ d, run.reporter.stage = .delivering d := by
  have hrun : c.desk.session.run? = some run := by simp [Session.run?, hst]
  have hcancelled : run.isCancelled false = false := hs.isCancelled rfl hr false
  have hrest := (ht.rest (m.now - 1) (by omega) (by omega)).2
  rcases Poller.poll_rest (t := c.desk.session.pollerTurn crew (.quiet (m.now - 1)) run)
      hcancelled hp (SessionDesk.poller_rest hst hrest) with
    ⟨ticker, hst', hdue⟩ | ⟨ticker, call, call', hst', hl⟩ | ⟨ticker, ticket, h', hst', hl⟩
  · refine .inl ⟨ticker, hst', ?_⟩
    simp only [Session.pollerTurn, Moment.quiet] at hdue
    omega
  · refine .inr (.inl ⟨ticker, call, hst', ?_⟩)
    cases hg : crew.probeIsGated (c.desk.session.probesBefore + run.poller.past.length) with
    | false => exact ht.probe run hrun call (by simp [Poller.inFlight?, hst']) hg
    | true =>
      simp only [Session.pollerTurn, hg, Moment.quiet] at hl
      have hleft := Call.lt_of_look_pending (h.poller.probing ticker call hst').1 hl
      omega
  · refine .inr (.inr ⟨ticker, ticket, hst', ?_⟩)
    obtain ⟨-, -, ⟨e, -, -, hc, -⟩ | ⟨e, -, htaken, -⟩⟩ := hs.linked.handing hst'
    · -- a reporter that waited for a sample would take this one
      refine ⟨⟨e.sample, hc.parked_posted⟩, ?_⟩
      rcases ht.reporter_waits hlt hst hs h hr with ⟨-, h₀, hpending⟩ | ⟨d, hd, -⟩
      · obtain ⟨h₁, hsample, -⟩ := hc.receive_sample
        cases hpending.symm.trans hsample
      · exact ⟨d, hd⟩
    · cases htaken.symm.trans hl

/-- The clock goes on only while the run waits. -/
theorem IsTimely.waits (ht : c.IsTimely crew clock m) (hlt : clock < m.now)
    (hst : c.desk.session.stage = .running a run) (hs : run.Sound False)
    (h : run.OnTime interval clock) : run.Waits m.now := by
  cases hr : run.reporter.isOver with
  | true => exact .of_over hr (hs.left hr) _
  | false =>
    have hrun : c.desk.session.run? = some run := by simp [Session.run?, hst]
    have hreporter := ht.reporter_waits hlt hst hs h hr
    have hpoller := ht.poller_waits hlt hst hs h hr
    constructor
    · intro ticker hp
      simpa [hp] using hpoller (by simp [Poller.isOver, hp])
    · intro ticker call hp
      rcases hpoller (by simp [Poller.isOver, hp]) with
        ⟨_, hp', -⟩ | ⟨_, _, hp', hleft⟩ | ⟨_, _, hp', -⟩
      · cases hp.symm.trans hp'
      · cases hp.symm.trans hp'
        exact hleft
      · cases hp.symm.trans hp'
    · intro ticker ticket hp
      simpa [hp] using hpoller (by simp [Poller.isOver, hp])
    · intro d hd
      simpa [hd] using hreporter
    · intro d cause e hd
      have hroom := ht.room hlt run hrun
      simp [Reporter.waiting?, hd] at hroom

end Waiting

/-! ## Every turn of a paced tape -/

/-- A run that the clock is now read for. -/
theorem IsTimely.stands (ht : c.IsTimely crew clock m)
    (hst : c.Stands fun run => run.Lasting False ∧ run.OnTime interval clock) :
    c.Stands fun run => run.Lasting False ∧ run.OnTime interval m.now := by
  rcases Nat.eq_or_lt_of_le ht.forward with heq | hlt
  · rwa [← heq]
  · refine hst.of_run? fun run hr ⟨hl, h⟩ => ⟨hl, ?_⟩
    obtain ⟨m₀, n, -, -, hs, -⟩ := hst.launched_of_run? hr
    refine h.advance hl.sound ht.forward ?_
    by_cases hover : run.activity = .over
    · have hr := hl.sound.turned (by simp [hover])
      exact .of_over hr (hl.sound.left hr) _
    · rw [Session.put_on hover] at hs
      exact ht.waits hlt (by rw [hs]) hl.sound h

theorem stands_paced {tape : List SceneTurn}
    (hst : c.Stands fun run =>
      run.Lasting False ∧ run.OnTime c.before.config.interval clock)
    (htape : IsPaced crew clock c tape) :
    (c.play crew tape).Stands fun run => run.Lasting False ∧
      run.OnTime c.before.config.interval (tape.foldl SceneTurn.clock clock) := by
  induction tape generalizing clock c with
  | nil => exact hst
  | cons t tape ih =>
    obtain ⟨ht, htape⟩ := htape
    have hstep : (c.apply crew t).Stands fun run =>
        run.Lasting False ∧ run.OnTime c.before.config.interval (t.clock clock) := by
      have hnow : c.Stands fun run =>
          run.Lasting False ∧ run.OnTime c.before.config.interval (t.clock clock) := by
        cases hm : t.moment? with
        | none => simpa [SceneTurn.clock, hm] using hst
        | some m => simpa [SceneTurn.clock, hm] using (ht m hm).stands hst
      refine hnow.apply t (fun m hm => ?_) fun _ id => ?_
      · have hclock : t.clock clock = m.now := by
          rw [Option.mem_def] at hm
          simp [SceneTurn.clock, hm]
        rw [hclock]
        exact Run.keeps_onTime crew (ht m hm).awake (ht m hm).inRange
      · exact ⟨⟨Run.sound_start _ crew id, fun h => by cases h⟩, Run.onTime_start ..⟩
    rw [← apply_before t] at hstep
    have hrest := ih hstep htape
    rw [apply_before] at hrest
    exact hrest

/-! ## What a run that keeps pace shows -/

theorem Stands.isFresh {now : Nat}
    (hst : c.Stands fun run => run.Lasting False ∧ run.OnTime interval now) :
    c.IsFresh interval now := by
  cases hr : c.run? with
  | none => constructor <;> simp [calls, deliveries, delivered, probed, hr]
  | some run =>
    obtain ⟨m, n, -, -, -, hl, h⟩ := hst.launched_of_run? hr
    have hcalls : c.calls = run.poller.calls := by simp [calls, hr]
    have hdeliveries : c.deliveries = run.reporter.deliveries := by simp [deliveries, hr]
    have hprobe : ∀ (n : Nat) (call : Call), c.calls[n]? = some call →
        run.poller.starts[n]? = some call.scope.openedAt := by
      intro n call hn
      rw [Poller.starts, List.getElem?_map, ← hcalls, hn]
      rfl
    have hnext : ∀ call, c.calls.getLast? = some call →
        now ≤ call.scope.openedAt + interval.nanos ∨ c.HasPanicked := by
      intro call hlast
      rw [List.getLast?_eq_getElem?] at hlast
      have hstart : run.poller.starts.getLast? = some call.scope.openedAt := by
        have hlength : run.poller.starts.length = c.calls.length := by
          rw [Poller.starts, List.length_map, hcalls]
        rw [List.getLast?_eq_getElem?, hlength, hprobe _ _ hlast]
      rcases h.next_or_panicked hl hstart with hleft | ⟨message, hp⟩
      · exact .inl hleft
      · exact .inr ⟨run, message, hr, hp⟩
    have hprobed : c.probed = run.poller.samples := by simp [probed, hr]
    refine ⟨?_, (hst.imp fun _ h => h.1.sound).delivered_isPrefix, fun n call d hc hd => ?_,
      fun n call hc hd => ?_, fun n call call' hc hc' => ?_, hnext⟩
    · rw [hprobed, hcalls]
      exact h.poller.sampled
    · rw [hdeliveries] at hd
      have hdelivery : run.reporter.starts[n]? = some d.call.scope.openedAt := by
        rw [Reporter.starts, List.getElem?_map, hd]
        rfl
      have hbounds := h.delivered n _ _ (hprobe n call hc) hdelivery
      have hend := h.reporter.done (List.mem_of_getElem? hd)
      omega
    · have hahead := h.ahead hl.sound
      rw [Poller.starts, Reporter.starts, List.length_map, List.length_map, ← hcalls,
        ← hdeliveries] at hahead
      have hlt := (List.getElem?_eq_some_iff.mp hc).1
      have hle := List.getElem?_eq_none_iff.mp hd
      have hlength : c.calls.length = n + 1 := by omega
      have hlast : c.calls.getLast? = some call := by
        rw [List.getLast?_eq_getElem?, hlength, Nat.add_sub_cancel, hc]
      exact (hnext call hlast).imp_right fun hp => ⟨hp, hlength⟩
    · exact h.poller.cadence n _ _ (hprobe n call hc) (hprobe (n + 1) call' hc')

/-- **Samples are fresh and come regularly**, however long the probes and the deliveries take: a
sample is delivered at most one interval after its probe began, the delivery is over after at most
two, and the next probe begins after at most one. -/
theorem play_fresh (crew : Crew) {d : SessionDesk} (hd : d.session.stage = .idle) {clock : Nat}
    {tape : List SceneTurn} (htape : IsPaced crew clock (start d) tape) :
    ((start d).play crew tape).IsFresh d.session.config.interval
      (tape.foldl SceneTurn.clock clock) :=
  (stands_paced (stands_start hd) htape).isFresh

def idleMoment (now : Nat) : Moment := { Moment.quiet now with identity := fun _ => .ok ⟨"s-1"⟩ }

/-- Every probe and every delivery takes all the time that it has. -/
def slowTape : List SceneTurn :=
  [.session (idleMoment 0), .poller (idleMoment 0), .poller (idleMoment 2),
    .session (idleMoment 2), .poller (idleMoment 2), .poller (idleMoment 4),
    .session (idleMoment 4), .poller (idleMoment 4)]

theorem play_fresh_slow :
    let d : SessionDesk := ⟨.start ⟨some "gpu-1", ⟨2⟩, ⟨"h", 1⟩⟩, .empty 1, []⟩
    let c := (start d).play .relay slowTape
    d.session.stage = .idle ∧ IsPaced .relay 0 (start d) slowTape ∧
      c.calls.map (·.scope.openedAt) = [0, 2, 4] ∧
      c.deliveries.map (·.call.scope.openedAt) = [2, 4] ∧
      c.deliveries.map (·.doneAt) = [some 4, none] ∧ c.IsFresh ⟨2⟩ 4 := by
  intro d c
  have hidle : d.session.stage = .idle := by decide +kernel
  have hpaced : IsPaced .relay 0 (start d) slowTape := by decide +kernel
  exact ⟨hidle, hpaced, by decide +kernel, by decide +kernel, by decide +kernel,
    play_fresh .relay hidle hpaced⟩

end Scene

end HealthRelay
