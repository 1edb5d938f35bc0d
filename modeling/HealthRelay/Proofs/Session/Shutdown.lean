import HealthRelay.Proofs.Emission
import HealthRelay.Proofs.Session.Relay

/-!
# Nothing new goes out after shutdown

From the moment at which the caller's token fires, a run is frozen: no probe call starts, and of the
samples only the one that lies in the handoff may still be delivered. Where every call keeps to its
scope, no work that has not been looked at is looked at any more, so no request is sent, and no
event about a delivery gets into the sink.
-/

namespace HealthRelay

/-- A call that keeps to its scope is let down by a cancelled token, and its work is left alone. -/
theorem Call.look_cancelled {α : Type} (c : Call) (now : Nat) (answer : Progress α) :
    c.look true now true answer = (c, .ready (.error .cancelled)) := by
  simp [Call.look, Scope.run, Scope.isCancelled]

namespace Poller

variable {t : Turn} {p : Poller} {h : Handoff} {x : Poller × Handoff}

theorem give_calls (p : Poller) (ticker : Ticker) (call : Call) (sample : Sample) (t : Turn)
    (h : Handoff) : (p.give ticker call sample t h).1.calls = p.past ++ [call.release] := by
  unfold Poller.give
  split
  · simp [calls, inFlight?, finish]
  · split <;> simp [calls, inFlight?, finish]

/-- With a cancelled token nobody waits for the sample to be taken. -/
theorem give_isOver (p : Poller) (ticker : Ticker) (call : Call) (sample : Sample)
    (hc : t.isCancelled = true) (h : Handoff) :
    (p.give ticker call sample t h).1.isOver = true := by
  unfold Poller.give
  split
  · rfl
  · simp [hc, finish, isOver]

theorem Move.calls_length (hm : Move t (p, h) x) (hc : t.isCancelled = true) :
    x.1.calls.length = p.calls.length := by
  cases hm with
  | wake hst => simp [calls, inFlight?, hst]
  | stop hst => simp [calls, inFlight?, finish, hst]
  | ask hst hcan => simp [hcan] at hc
  | linger hst => simp [calls, inFlight?, hst]
  | panic hst => simp [calls, inFlight?, hst]
  | give hst =>
    rw [give_calls]
    simp [calls, inFlight?, hst]
  | acknowledge hst => simp [calls, inFlight?, hst]
  | refuse hst => simp [calls, inFlight?, finish, hst]
  | wait hst _ hcan => simp [hcan] at hc
  | giveUp hst => simp [calls, inFlight?, finish, hst]

theorem Move.parked (hm : Move t (p, h) x) (hc : t.isCancelled = true) {done : List Sample}
    (hl : Linked True p h done) : x.2.parked = h.parked ∨ x.2.parked = [] := by
  have hl' := hl.pollerMove (fun _ => trivial) hm
  cases hover : x.1.isOver with
  | true => exact .inr (hl'.parked_of_over hover)
  | false =>
    cases hm with
    | wake => exact .inl rfl
    | stop => cases hover
    | ask hst hcan => simp [hcan] at hc
    | linger => exact .inl rfl
    | panic => cases hover
    | give => simp [give_isOver _ _ _ _ hc] at hover
    | acknowledge =>
      obtain ⟨-, -, hc', -⟩ := hl'.of_producing rfl (by simp)
      exact .inr hc'.parked_nil
    | refuse => cases hover
    | wait hst _ hcan => simp [hcan] at hc
    | giveUp => cases hover

end Poller

namespace Run

variable {crew : Crew} {m : Moment} {run : Run}

/-- What a fired token leaves of a run that had started so many probe calls, had begun to deliver
these samples, and had these samples in its handoff. -/
structure Frozen (starts : Nat) (done parked : List Sample) (run : Run) : Prop where
  sound : run.Sound True
  starts : run.poller.calls.length = starts
  samples : (run.reporter.samples = done ∧ ∀ s ∈ run.handoff.parked, s ∈ parked) ∨
    (run.handoff.parked = [] ∧ ∃ s ∈ parked, run.reporter.samples = done ++ [s])

variable {starts : Nat} {done parked : List Sample}

theorem Frozen.pollerMove (hf : run.Frozen starts done parked) {t : Poller.Turn}
    (hc : t.isCancelled = true) {x : Poller × Handoff}
    (hm : Poller.Move t (run.poller, run.handoff) x) :
    (run.afterPoller x).Frozen starts done parked where
  sound := hf.sound.pollerMove (fun _ => trivial) hm
  starts := (hm.calls_length hc).trans hf.starts
  samples := by
    show (run.reporter.samples = done ∧ ∀ s ∈ x.2.parked, s ∈ parked) ∨
      (x.2.parked = [] ∧ ∃ s ∈ parked, run.reporter.samples = done ++ [s])
    rcases hm.parked hc hf.sound.linked with hs | hs
    · rw [hs]
      exact hf.samples
    · rw [hs]
      exact hf.samples.imp (fun h => ⟨h.1, by simp⟩) fun h => ⟨rfl, h.2⟩

theorem Frozen.reporterMove (hf : run.Frozen starts done parked) (ha : run.activity = .reporting)
    {t : Reporter.Turn} {sink : Sink} {journal : List Entry} {x : Reporter × Desk}
    (hm : Reporter.Move t (run.reporter, ⟨run.handoff, sink, journal⟩) x) :
    (run.afterReporter x).Frozen starts done parked where
  sound := hf.sound.reporterMove ha hm
  starts := hf.starts
  samples := by
    have hold := hf.samples
    show (x.1.samples = done ∧ ∀ s ∈ x.2.handoff.parked, s ∈ parked) ∨
      (x.2.handoff.parked = [] ∧ ∃ s ∈ parked, x.1.samples = done ++ [s])
    rcases hm.effect with ⟨s, h', hst, hr, rfl⟩ | ⟨h', hst, hr, rfl⟩ | ⟨h', hst, hr, rfl⟩ | hw
    · obtain ⟨-, hp, hp'⟩ := hf.sound.linked.receive_sample hr
      rw [hp] at hold
      rw [Reporter.samples_holding hst, hp']
      obtain ⟨hd, hin⟩ | ⟨hnil, -⟩ := hold
      · exact .inr ⟨rfl, s, hin s (by simp), by rw [hd]⟩
      · cases hnil
    · obtain ⟨rfl, -⟩ := hf.sound.linked.receive_pending hr
      exact hold
    · obtain ⟨-, -, hp⟩ := hf.sound.linked.receive_closed hr
      rw [Reporter.samples_eq (Reporter.reports_done hst), hp]
      exact hold.imp (fun h => ⟨h.1, by simp⟩) fun h => ⟨rfl, h.2⟩
    · have hhandoff : x.2.handoff = run.handoff := hw.handoff
      rw [Reporter.samples_eq hw.reports, hhandoff]
      exact hold

theorem keeps_frozen (crew : Crew) (hm : m.isShutdown = true) (starts : Nat)
    (done parked : List Sample) : Keeps crew m (Frozen starts done parked) where
  poller s run₀ _ _ hf _ hmove :=
    hf.pollerMove (s.pollerTurn_isCancelled hm crew run₀) hmove
  reporter _ _ _ _ _ _ hf ha _ hmove := hf.reporterMove ha hmove
  closing _ hf _ hover := ⟨hf.sound.close hover, hf.starts, hf.samples⟩
  turn _ activity hf ha _ _ := ⟨hf.sound.turn ha activity, hf.starts, hf.samples⟩

end Run

/-! ## Calls that keep to their scopes -/

namespace Poller

/-- Which of the probe calls have looked at their work. -/
def worked (p : Poller) : List Bool := p.calls.map (·.hasWorked)

theorem Move.worked {t : Turn} {p : Poller} {h : Handoff} {x : Poller × Handoff}
    (hm : Move t (p, h) x) (hc : t.isCancelled = true) (hg : t.isGated = true) :
    x.1.worked = p.worked := by
  unfold Poller.worked
  cases hm with
  | wake hst => simp [calls, inFlight?, hst]
  | stop hst => simp [calls, inFlight?, finish, hst]
  | ask hst hcan => simp [hcan] at hc
  | linger hst hl =>
    rw [hc, hg, Call.look_cancelled] at hl
    cases hl
  | panic hst hl =>
    rw [hc, hg, Call.look_cancelled] at hl
    cases hl
    simp [calls, inFlight?, hst, Call.release]
  | give hst hl =>
    rw [hc, hg, Call.look_cancelled] at hl
    cases hl
    rw [give_calls]
    simp [calls, inFlight?, hst, Call.release]
  | acknowledge hst => simp [calls, inFlight?, hst]
  | refuse hst => simp [calls, inFlight?, finish, hst]
  | wait hst _ hcan => simp [hcan] at hc
  | giveUp hst => simp [calls, inFlight?, finish, hst]

end Poller

namespace Reporter

/-- Which of the deliver calls have looked at their work. -/
def worked (r : Reporter) : List Bool := r.deliveries.map (·.call.hasWorked)

theorem worked_close {r : Reporter} {d : Delivery} (hd : r.inFlight? = some d)
    (outcome : DeliveryEnd) (now : Nat) : (r.close d outcome now).worked = r.worked :=
  (map_deliveries_close _ (fun _ _ _ => rfl) ..).trans (map_deliveries _ hd).symm

/-- With a cancelled token a move looks at no work and brings no event into the sink. -/
theorem Move.worked {t : Turn} {r : Reporter} {desk : Desk} {x : Reporter × Desk}
    (hm : Move t (r, desk) x) (hc : t.isCancelled = true) (hg : ∀ n, t.isGated n = true) :
    (x.1.worked = r.worked ∨ x.1.worked = r.worked ++ [false]) ∧
      x.2.sink.accepted = desk.sink.accepted := by
  cases hm with
  | take hst hr =>
    refine ⟨.inr ?_, rfl⟩
    rw [Reporter.worked, deliveries_holding hst, List.map_append]
    rfl
  | wait hst hr => exact ⟨.inl rfl, rfl⟩
  | leave hst hr => exact ⟨.inl (by rw [Reporter.worked, deliveries_done hst]; rfl), rfl⟩
  | linger hst hl =>
    rw [lookAt, hc, hg, Call.look_cancelled] at hl
    cases hl
  | succeed hst hl ha =>
    rw [lookAt, hc, hg, Call.look_cancelled] at hl
    cases hl
    cases ha
  | interrupt hst hl ha =>
    rw [lookAt, hc, hg, Call.look_cancelled] at hl
    cases hl
    exact ⟨.inl (worked_close (by simp [inFlight?, hst]) ..), rfl⟩
  | fail hst hl ha hne =>
    rw [lookAt, hc, hg, Call.look_cancelled] at hl
    cases hl
    cases ha
    exact absurd rfl hne
  | announce hst =>
    rw [hc, Emission.look_cancelled]
    exact ⟨.inl (worked_close (by simp [inFlight?, hst]) ..), Mailbox.withdraw_accepted ..⟩

theorem Moves.accepted {t : Turn} {r : Reporter} {desk : Desk} {x : Reporter × Desk}
    (hm : Moves t (r, desk) x) (hc : t.isCancelled = true) (hg : ∀ n, t.isGated n = true) :
    x.2.sink.accepted = desk.sink.accepted := by
  induction hm with
  | refl => rfl
  | tail _ hstep ih => exact (hstep.worked hc hg).2.trans ih

end Reporter

/-- Every call of these collaborators keeps to its scope. -/
structure Crew.IsGated (crew : Crew) : Prop where
  probe : ∀ n, crew.probeIsGated n = true
  deliver : ∀ n, crew.deliverIsGated n = true

theorem Crew.relay_isGated : Crew.relay.IsGated := ⟨fun _ => rfl, fun _ => rfl⟩

namespace Run

variable {crew : Crew} {m : Moment} {run : Run}

/-- What a fired token leaves of a run whose calls had looked at this work. -/
structure Muted (fetched posted : List Bool) (run : Run) : Prop where
  fetched : run.poller.worked = fetched
  posted : ∃ n, run.reporter.worked = posted ++ List.replicate n false

theorem keeps_muted (hg : crew.IsGated) (hm : m.isShutdown = true) (fetched posted : List Bool) :
    Keeps crew m (Muted fetched posted) where
  poller s run₀ run x h _ hmove :=
    ⟨(hmove.worked (s.pollerTurn_isCancelled hm crew run₀) (hg.probe _)).trans h.fetched,
      h.posted⟩
  reporter s run₀ run sink journal x h _ _ hmove := by
    obtain ⟨n, hn⟩ := h.posted
    refine ⟨h.fetched, ?_⟩
    show ∃ n, x.1.worked = posted ++ List.replicate n false
    rcases (hmove.worked (s.reporterTurn_isCancelled hm crew run₀) fun n => hg.deliver _).1
      with hw | hw
    · exact ⟨n, hw.trans hn⟩
    · exact ⟨n + 1, by rw [hw, hn, List.append_assoc, List.replicate_succ']⟩
  closing _ h _ _ := ⟨h.fetched, h.posted⟩
  turn _ _ h _ _ _ := ⟨h.fetched, h.posted⟩

end Run

/-! ## Events that still get into the sink -/

/-- The events of the session itself. -/
def Event.IsOfSession (e : Event) : Prop :=
  e.comment = Session.identityFailed ∨ e.comment = Session.pollerFailed

namespace SessionDesk

variable {crew : Crew} {m : Moment} {d : SessionDesk} {a : Attempt} {run : Run}

theorem refuse_sink (d : SessionDesk) (a : Attempt) (e : Emission)
    (looked : Progress Emitted × Sink) (now : Nat) : (d.refuse a e looked now).sink = looked.2 := by
  obtain ⟨_ | emitted, sink⟩ := looked <;> rfl

theorem mourn_sink (d : SessionDesk) (a : Attempt) (run : Run) (e : Emission)
    (looked : Progress Emitted × Sink) (now : Nat) :
    (d.mourn a run e looked now).sink = looked.2 := by
  obtain ⟨_ | emitted, sink⟩ := looked <;> rfl

theorem join_adds (d : SessionDesk) (a : Attempt) (run : Run) (m : Moment) :
    d.sink.Adds Event.IsOfSession (d.join a run m).sink := by
  unfold join
  split
  · exact Sink.adds_refl _ _
  · rw [mourn_sink]
    refine (Emission.start_adds _ _ _).imp fun e he => ?_
    subst he
    exact .inr rfl
  · exact Sink.adds_refl _ _

theorem report_adds (hg : crew.IsGated) (hm : m.isShutdown = true) (d : SessionDesk) (a : Attempt)
    (run : Run) : d.sink.Adds Event.IsOfSession (d.report a run crew m).sink := by
  have hsink := (Reporter.poll_moves (d.session.reporterTurn crew m run) run.reporter
    ⟨run.handoff, d.sink, d.journal⟩).accepted
    (d.session.reporterTurn_isCancelled hm crew run) fun n => hg.deliver _
  rcases d.report_eq a run crew m with ⟨-, hs⟩ | ⟨-, hs⟩
  · rw [hs]
    exact Sink.adds_of_eq hsink
  · rw [hs]
    exact (Sink.adds_of_eq hsink).trans (join_adds ..)

theorem begin_adds (hg : crew.IsGated) (hm : m.isShutdown = true) (d : SessionDesk) :
    d.sink.Adds Event.IsOfSession (d.begin crew m).sink := by
  cases hid : m.identity d.session.past.length with
  | error cause =>
    rw [begin_error hid, refuse_sink]
    refine (Emission.start_adds _ _ _).imp fun e he => ?_
    subst he
    exact .inl rfl
  | ok id =>
    rw [begin_ok hid]
    exact report_adds hg hm _ _ _

theorem poll_adds (hg : crew.IsGated) (hm : m.isShutdown = true) (d : SessionDesk) :
    d.sink.Adds Event.IsOfSession (d.poll crew m).sink := by
  unfold poll
  split
  · exact Sink.adds_refl _ _
  · rw [refuse_sink, hm]
    exact Emission.look_cancelled_adds _ _ _
  · split
    · exact report_adds hg hm _ _ _
    · exact join_adds ..
    · rw [mourn_sink, hm]
      exact Emission.look_cancelled_adds _ _ _
    · exact Sink.adds_refl _ _

theorem pollPoller_sink (d : SessionDesk) (crew : Crew) (m : Moment) :
    (d.pollPoller crew m).sink = d.sink := by
  unfold pollPoller
  split <;> rfl

end SessionDesk

/-! ## Calls of a session -/

namespace Scene

variable {crew : Crew} {d : SessionDesk} {c c₀ : Scene}

def calls (c : Scene) : List Call := c.run?.elim [] (·.poller.calls)

def deliveries (c : Scene) : List Delivery := c.run?.elim [] (·.reporter.deliveries)

/-- The samples that lie in the handoff of the run. -/
def parked (c : Scene) : List Sample := c.run?.elim [] (·.handoff.parked)

/-- Which of the probe calls have looked at their work. -/
def fetched (c : Scene) : List Bool := c.calls.map (·.hasWorked)

/-- Which of the deliver calls have looked at their work. -/
def posted (c : Scene) : List Bool := c.deliveries.map (·.call.hasWorked)

/-- What may have happened in a call since its token fired. -/
structure Silent (c₀ c : Scene) : Prop where
  no_probe : c.calls.length = c₀.calls.length
  /-- One more deliver call at most, and only for a sample that lay in the handoff. -/
  delivered : c.delivered = c₀.delivered ∨ ∃ s ∈ c₀.parked, c.delivered = c₀.delivered ++ [s]
  /-- No sample of a probe that ended later. -/
  known : c.delivered <+: c₀.probed

/-- No work that had not been looked at when the token fired has been looked at since. -/
structure Mute (c₀ c : Scene) : Prop where
  no_fetch : ∀ i : Nat, c.fetched[i]? = some true → c₀.fetched[i]? = some true
  no_post : ∀ i : Nat, c.posted[i]? = some true → c₀.posted[i]? = some true

theorem silent_of_none (hr₀ : c₀.run? = none) (hr : c.run? = none) : c₀.Silent c := by
  constructor <;> simp [calls, delivered, hr₀, hr]

/-- The sample in the handoff is the one that has not been delivered. -/
theorem Stands.probed_of_parked {fired : Prop} (hst : c.Stands (Run.Sound fired)) {s : Sample}
    (hs : s ∈ c.parked) : c.probed = c.delivered ++ [s] := by
  cases hr : c.run? with
  | none => simp [parked, hr] at hs
  | some run =>
    obtain ⟨m, n, -, -, -, hsound⟩ := hst.launched_of_run? hr
    rw [delivered_eq hr]
    simp only [probed, parked, hr, Option.elim_some] at hs ⊢
    exact hsound.linked.samples_of_parked hs

theorem Stands.frozen {late : List SceneTurn} {fired : Prop} (hst : c₀.Stands (Run.Sound fired))
    (hlate : ∀ t ∈ late, t.IsLate) : (c₀.play crew late).Stands
      (Run.Frozen c₀.calls.length c₀.delivered c₀.parked) := by
  refine hst.onward (fun t ht m hm => Run.keeps_frozen crew (hlate t ht m hm) _ _ _)
    (fun run hr hs => ?_) fun hr id => ?_
  · exact ⟨hs.mono fun _ => trivial, by simp [calls, hr],
      .inl ⟨(delivered_eq hr).symm, by simp [parked, hr]⟩⟩
  · simp only [calls, delivered, parked, hr, Option.elim_none, List.length_nil]
    exact ⟨Run.sound_start _ crew id, rfl, .inl ⟨rfl, fun s hs => hs⟩⟩

theorem Stands.silent {late : List SceneTurn} {fired : Prop}
    (hst : c₀.Stands (Run.Sound fired)) (hlate : ∀ t ∈ late, t.IsLate) :
    c₀.Silent (c₀.play crew late) := by
  have hst' : (c₀.play crew late).Stands _ := hst.frozen hlate
  cases hr : (c₀.play crew late).run? with
  | none =>
    refine silent_of_none ?_ hr
    cases hr₀ : c₀.run? with
    | none => rfl
    | some run₀ =>
      obtain ⟨run, hr', -⟩ := hst.run?_play hst' hr₀
      cases hr.symm.trans hr'
  | some run =>
    obtain ⟨m, n, -, -, -, hf⟩ := hst'.launched_of_run? hr
    have hdelivered : (c₀.play crew late).delivered = c₀.delivered ∨
        ∃ s ∈ c₀.parked, (c₀.play crew late).delivered = c₀.delivered ++ [s] := by
      rw [delivered_eq hr]
      exact hf.samples.imp (·.1) (·.2)
    refine ⟨by simp only [calls, hr]; exact hf.starts, hdelivered, ?_⟩
    rcases hdelivered with hd | ⟨s, hs, hd⟩
    · rw [hd]
      exact hst.delivered_isPrefix
    · have hall : (c₀.play crew late).delivered = c₀.probed := by
        rw [hd, hst.probed_of_parked hs]
      exact hall ▸ List.prefix_rfl

theorem Stands.mute {late : List SceneTurn} {fired : Prop} (hg : crew.IsGated)
    (hst : c₀.Stands (Run.Sound fired)) (hlate : ∀ t ∈ late, t.IsLate) :
    c₀.Mute (c₀.play crew late) := by
  have hst' : (c₀.play crew late).Stands (Run.Muted c₀.fetched c₀.posted) := by
    refine hst.onward (fun t ht m hm => Run.keeps_muted hg (hlate t ht m hm) _ _)
      (fun run hr _ => ?_) fun hr id => ?_
    · exact ⟨by simp [fetched, calls, hr, Poller.worked],
        0, by simp [posted, deliveries, hr, Reporter.worked]⟩
    · simp only [fetched, posted, calls, deliveries, hr, Option.elim_none, List.map_nil]
      exact ⟨rfl, 0, rfl⟩
  cases hr : (c₀.play crew late).run? with
  | none => constructor <;> simp [fetched, posted, calls, deliveries, hr]
  | some run =>
    obtain ⟨m, n, -, -, -, hm⟩ := hst'.launched_of_run? hr
    obtain ⟨k, hk⟩ := hm.posted
    have hf : (c₀.play crew late).fetched = c₀.fetched := by
      simp only [fetched, calls, hr]
      exact hm.fetched
    have hp : (c₀.play crew late).posted = c₀.posted ++ List.replicate k false := by
      simp only [posted, deliveries, hr]
      exact hk
    refine ⟨fun i hi => hf ▸ hi, fun i hi => ?_⟩
    rw [hp, List.getElem?_append] at hi
    split at hi
    · exact hi
    · rw [List.getElem?_replicate] at hi
      split at hi <;> cases hi

theorem apply_adds (hg : crew.IsGated) {m : Moment} (hm : m.isShutdown = true) (c : Scene) :
    c.desk.sink.Adds Event.IsOfSession (c.apply crew (.session m)).desk.sink := by
  cases hopen : c.opening with
  | none =>
    rw [apply_session_first hopen]
    exact SessionDesk.begin_adds hg hm c.desk
  | some m₀ =>
    rw [apply_session hopen]
    exact SessionDesk.poll_adds hg hm c.desk

theorem apply_poller_adds (P : Event → Prop) (crew : Crew) (m : Moment) (c : Scene) :
    c.desk.sink.Adds P (c.apply crew (.poller m)).desk.sink :=
  Sink.adds_of_eq (congrArg _ (SessionDesk.pollPoller_sink c.desk crew m))

theorem ne_deliveryFailed {e : Event} (he : e.IsOfSession) :
    e.comment ≠ ManagementClient.deliveryFailed := by
  rcases he with h | h <;> rw [h] <;> decide

/-- **Nothing new goes out after shutdown**, whatever the call was doing when the token fired and
whoever gets the turns from then on. The events are those of the turn that comes next. -/
theorem play_silent (crew : Crew) (hd : d.session.stage = .idle) (tape late : List SceneTurn)
    (hlate : ∀ t ∈ late, t.IsLate) :
    let c₀ := (start d).play crew tape
    let c := c₀.play crew late
    c₀.Silent c ∧ (crew = .relay → c₀.Mute c ∧ ∀ m : Moment, m.isShutdown = true →
      c.desk.sink.Adds (·.comment ≠ ManagementClient.deliveryFailed)
        (c.apply crew (.session m)).desk.sink ∧
      c.desk.sink.Adds (·.comment ≠ ManagementClient.deliveryFailed)
        (c.apply crew (.poller m)).desk.sink) := by
  intro c₀ c
  have hst : c₀.Stands (Run.Sound (HasFired tape)) := (play_stands crew hd tape).imp fun _ h => h.1
  refine ⟨hst.silent hlate, fun hcrew => ?_⟩
  subst hcrew
  refine ⟨hst.mute Crew.relay_isGated hlate, fun m hm => ⟨?_, apply_poller_adds _ _ m c⟩⟩
  exact (apply_adds Crew.relay_isGated hm c).imp fun e => ne_deliveryFailed

/-- The token fires while the first sample lies in the handoff; it is delivered without a
request. -/
theorem play_silent_parked :
    let tape := sampleTape.take 2
    let late : List SceneTurn := [.session (sampleMoment 0 true), .poller (sampleMoment 0 true),
      .session (sampleMoment 0 true)]
    let c₀ := (start sampleDesk).play .relay tape
    let c := c₀.play .relay late
    sampleDesk.session.stage = .idle ∧ (∀ t ∈ late, t.IsLate) ∧ c₀.parked = [.observed "ok" 0] ∧
      c.delivered = [.observed "ok" 0] ∧ c.posted = [false] ∧ c.isOver = true ∧
      c₀.Silent c ∧ c₀.Mute c := by
  intro tape late c₀ c
  have hidle : sampleDesk.session.stage = .idle := by decide +kernel
  have hlate : ∀ t ∈ late, t.IsLate := by
    intro t ht m hm
    simp only [late, List.mem_cons, List.not_mem_nil, or_false] at ht
    rcases ht with rfl | rfl | rfl <;> cases hm <;> rfl
  obtain ⟨hsilent, hrelay⟩ := play_silent .relay hidle tape late hlate
  exact ⟨hidle, hlate, by decide +kernel, by decide +kernel, by decide +kernel, by decide +kernel,
    hsilent, (hrelay rfl).1⟩

end Scene

end HealthRelay
