import HealthRelay.Proofs.Poller.Trace
import HealthRelay.Proofs.Session.Shutdown

/-!
# A poller's count is exact

The number that a poller comes back with is the number of samples that the receiver got, in
whichever order the token, the receiver and the acknowledgement came. Once the receiver is gone the
poller probes once more at most. In a session the receiver is the reporter, so its count is the same
number (`Run.Reckoned`).
-/

namespace HealthRelay

/-! ## Probes without a receiver -/

namespace Poller

variable {t : Turn} {p : Poller} {h : Handoff} {x : Poller × Handoff}

/-- A poller without a receiver that had started so many probe calls when it lost it: it may start
one more, and that is its last. -/
structure Orphaned (started : Nat) (p : Poller) (h : Handoff) : Prop where
  gate : h.slot.gate = .dropped
  last : p.calls.length ≤ started ∨
    p.calls.length = started + 1 ∧ (p.isOver = true ∨ p.inFlight?.isSome = true)

/-- A sample that nobody can take ends the poller. -/
theorem give_orphaned (hg : h.slot.gate = .dropped) (p : Poller) (ticker : Ticker) (call : Call)
    (sample : Sample) (t : Turn) : (p.give ticker call sample t h).1.isOver = true := by
  have hshut : h.slot.isOpen = false := by simp [Mailbox.isOpen, hg]
  unfold Poller.give
  simp only [Handoff.begin_shut hshut]
  rfl

theorem Move.orphaned {started : Nat} (hm : Move t (p, h) x) (ho : Orphaned started p h) :
    Orphaned started x.1 x.2 := by
  refine ⟨hm.gate.trans ho.gate, ?_⟩
  have halive := hm.alive
  -- with no probe on, the poller has not used up its last one
  have hidle : p.inFlight? = none → p.past.length ≤ started := by
    intro hnone
    rcases ho.last with hle | ⟨-, hover | hsome⟩
    · simpa [calls, hnone] using hle
    · simp [halive] at hover
    · simp [hnone] at hsome
  have hbusy : ∀ {ticker : Ticker} {call : Call}, p.stage = .probing ticker call →
      p.past.length ≤ started := by
    intro ticker call hst
    have hlast := ho.last
    simp only [calls, inFlight?, hst, Option.toList_some, List.length_append,
      List.length_singleton] at hlast
    omega
  cases hm with
  | wake hst => exact .inl (by simpa [calls, inFlight?] using hidle (by simp [inFlight?, hst]))
  | stop hst =>
    exact .inl (by simpa [calls, inFlight?, finish] using hidle (by simp [inFlight?, hst]))
  | ask hst =>
    have hle := hidle (by simp [inFlight?, hst])
    simp only [calls, inFlight?, Option.toList_some, List.length_append, List.length_singleton,
      Option.isSome_some, or_true, and_true]
    omega
  | linger hst =>
    have hle := hbusy hst
    simp only [calls, inFlight?, Option.toList_some, List.length_append, List.length_singleton,
      Option.isSome_some, or_true, and_true]
    omega
  | panic hst =>
    have hle := hbusy hst
    simp only [calls, inFlight?, isOver, Option.toList_none, List.append_nil, List.length_append,
      List.length_singleton, true_or, and_true]
    omega
  | give hst =>
    have hle := hbusy hst
    rw [give_calls, give_orphaned ho.gate]
    simp only [List.length_append, List.length_singleton, true_or, and_true]
    omega
  | acknowledge hst =>
    exact .inl (by simpa [calls, inFlight?] using hidle (by simp [inFlight?, hst]))
  | refuse hst =>
    exact .inl (by simpa [calls, inFlight?, finish] using hidle (by simp [inFlight?, hst]))
  | wait hst => exact ho.last
  | giveUp hst =>
    exact .inl (by simpa [calls, inFlight?, finish] using hidle (by simp [inFlight?, hst]))

theorem Moves.orphaned {started : Nat} (hm : Moves t (p, h) x) (ho : Orphaned started p h) :
    Orphaned started x.1 x.2 := by
  induction hm with
  | refl => exact ho
  | tail _ hs ih => exact hs.orphaned ih

end Poller

namespace PollerTrace

variable {c : PollerTrace}

/-- A trace without a receiver. -/
def IsOrphaned (started : Nat) (c : PollerTrace) : Prop :=
  Poller.Orphaned started c.poller c.handoff

theorem isOrphaned_drop (c : PollerTrace) :
    (c.step .dropReceiver).IsOrphaned c.poller.calls.length :=
  ⟨rfl, .inl (Nat.le_refl _)⟩

theorem IsOrphaned.step {started : Nat} (hc : c.IsOrphaned started) (act : PollerAct) :
    (c.step act).IsOrphaned started := by
  cases act with
  | poll t =>
    have hmoves := Poller.poll_moves t c.poller c.handoff
    exact hmoves.orphaned hc
  | receive now =>
    have hshut : c.handoff.slot.isOpen = false := by simp [Mailbox.isOpen, hc.gate]
    have hsame : c.step (.receive now) = c := if_neg (by simp [hshut])
    rw [hsame]
    exact hc
  | dropReceiver => exact ⟨rfl, hc.last⟩

theorem IsOrphaned.perform {started : Nat} (hc : c.IsOrphaned started) (acts : List PollerAct) :
    (c.perform acts).IsOrphaned started := by
  induction acts generalizing c with
  | nil => exact hc
  | cons act acts ih => exact ih (hc.step act)

theorem IsOrphaned.calls_le {started : Nat} (hc : c.IsOrphaned started) :
    c.poller.calls.length ≤ started + 1 := by
  rcases hc.last with h | ⟨h, -⟩ <;> omega

/-- What a poller's count says, in front of any receiver. -/
structure Exact (c : PollerTrace) : Prop where
  /-- A poller that comes back knows how many samples the receiver got. -/
  counted : c.poller.stage = .finished → c.poller.produced = c.receipts.length
  /-- Whatever happens after the receiver has gone, the poller starts one more probe at most. -/
  last_probe : ∀ late : List PollerAct,
    ((c.step .dropReceiver).perform late).poller.calls.length ≤ c.poller.calls.length + 1

theorem exact_run (interval : Duration) (acts : List PollerAct) : (run interval acts).Exact where
  counted hst := (isPaired_run interval acts).produced_eq (by simp [Poller.isOver, hst])
  last_probe late := ((isOrphaned_drop _).perform late).calls_le

end PollerTrace

/-! ## In a session -/

namespace Reporter

/-- A reporter counts the deliveries that are over. -/
theorem Move.reported {t : Turn} {r : Reporter} {desk : Desk} {x : Reporter × Desk}
    (hm : Move t (r, desk) x) (hr : r.reported = r.past.length) :
    x.1.reported = x.1.past.length := by
  have hclose : ∀ (d : Delivery) (outcome : DeliveryEnd) (now : Nat),
      (r.close d outcome now).reported = (r.close d outcome now).past.length := by
    intro d outcome now
    simp [close, hr]
  have hannounce : ∀ (d : Delivery) (cause : Failure) (e : Emission)
      (looked : Progress Emitted × Sink),
      (r.announce d cause e looked t.now desk).1.reported =
        (r.announce d cause e looked t.now desk).1.past.length := by
    rintro d cause e ⟨_ | emitted, sink⟩
    · exact hr
    · exact hclose ..
  cases hm with
  | take => exact hr
  | wait => exact hr
  | leave => exact hr
  | linger => exact hr
  | succeed => exact hclose ..
  | interrupt => exact hclose ..
  | fail => exact hannounce ..
  | announce => exact hannounce ..

end Reporter

namespace Run

variable {crew : Crew} {m : Moment} {run : Run}

/-- The poller is paired with the reporter, and the reporter keeps count of its deliveries. -/
structure Reckoned (run : Run) : Prop where
  paired : Paired run.poller run.handoff run.reporter.samples.length
  reported : run.reporter.reported = run.reporter.past.length

theorem reckoned_start (config : SessionConfig) (crew : Crew) (id : SessionId) :
    (start config crew id).Reckoned :=
  ⟨.start config.interval, rfl⟩

theorem Reckoned.reporterMove (hr : run.Reckoned) {t : Reporter.Turn} {sink : Sink}
    {journal : List Entry} {x : Reporter × Desk}
    (hm : Reporter.Move t (run.reporter, ⟨run.handoff, sink, journal⟩) x) :
    (run.afterReporter x).Reckoned := by
  have hpaired := hr.paired
  refine ⟨?_, hm.reported hr.reported⟩
  show Paired run.poller x.2.handoff x.1.samples.length
  rcases hm.effect with ⟨s, h, hst, hreceive, rfl⟩ | ⟨h, hst, hreceive, rfl⟩ |
    ⟨h, hst, hreceive, rfl⟩ | hw
  · rw [Reporter.samples_holding hst, List.length_append]
    exact hpaired.receive_sample hreceive
  · exact hpaired.receive_nothing hreceive (by simp)
  · rw [Reporter.samples_eq (Reporter.reports_done hst)]
    exact (hpaired.receive_nothing hreceive (by simp)).dropReceiver
  · have hhandoff : x.2.handoff = run.handoff := hw.handoff
    rw [Reporter.samples_eq hw.reports, hhandoff]
    exact hpaired

theorem keeps_reckoned (crew : Crew) (m : Moment) : Keeps crew m Reckoned where
  poller _ _ _ _ h _ hm := ⟨h.paired.pollerMove hm, h.reported⟩
  reporter _ _ _ _ _ _ h _ _ hm := h.reporterMove hm
  closing _ h _ _ := ⟨h.paired, h.reported⟩
  turn _ _ h _ _ _ := ⟨h.paired, h.reported⟩

end Run

namespace Scene

variable {c : Scene}

/-- What the count of a poller that came back says about its session. -/
structure Reckoned (c : Scene) : Prop where
  produced : ∀ run, c.run? = some run → run.poller.stage = .finished →
    run.poller.produced = c.deliveries.length
  reported : ∀ run, c.run? = some run → run.poller.stage = .finished →
    run.reporter.isOver = true → run.reporter.reported = run.poller.produced

theorem Stands.reckoned (hst : c.Stands Run.Reckoned) : c.Reckoned := by
  have hproduced : ∀ run, c.run? = some run → run.poller.stage = .finished →
      run.poller.produced = run.reporter.deliveries.length := by
    intro run hr hp
    obtain ⟨m, n, -, -, -, h⟩ := hst.launched_of_run? hr
    rw [h.paired.produced_eq (by simp [Poller.isOver, hp])]
    simp [Reporter.samples, Reporter.reports]
  refine ⟨fun run hr hp => ?_, fun run hr hp hover => ?_⟩
  · simpa [deliveries, hr] using hproduced run hr hp
  · obtain ⟨m, n, -, -, -, h⟩ := hst.launched_of_run? hr
    have hflight : run.reporter.inFlight? = none := by
      have hstage : run.reporter.stage = .finished := by simpa [Reporter.isOver] using hover
      simp [Reporter.inFlight?, hstage]
    rw [hproduced run hr hp, h.reported, Reporter.deliveries, hflight, Option.toList_none,
      List.append_nil]

end Scene

namespace PollerTrace

/-- **A poller's count is exact**, in front of any receiver and in every call of a session, in
whichever order the turns come. -/
theorem counts_agree (interval : Duration) (acts : List PollerAct) (crew : Crew) {d : SessionDesk}
    (hd : d.session.stage = .idle) (tape : List SceneTurn) :
    (run interval acts).Exact ∧ ((Scene.start d).play crew tape).Reckoned := by
  have hst : ((Scene.start d).play crew tape).Stands Run.Reckoned :=
    (Scene.stands_start hd).play tape (fun _ _ m _ => Run.keeps_reckoned crew m)
      fun _ id => Run.reckoned_start _ crew id
  exact ⟨exact_run interval acts, hst.reckoned⟩

/-- The token fires after the first sample has been taken and before the poller knows of that. -/
theorem counts_agree_interrupted :
    let acts : List PollerAct :=
      [.poll (sampleTurn 0 false), .receive 1, .dropReceiver, .poll (sampleTurn 2 true)]
    let c := run (.ofMillis 10) acts
    let scene := (Scene.start Scene.sampleDesk).play .relay Scene.sampleTape
    c.poller.stage = .finished ∧ c.poller.produced = 1 ∧ c.receipts.length = 1 ∧ c.Exact ∧
      Scene.sampleDesk.session.stage = .idle ∧ scene.isOver = true ∧
      scene.deliveries.length = 1 ∧ scene.Reckoned := by
  intro acts c scene
  have hidle : Scene.sampleDesk.session.stage = .idle := by decide +kernel
  obtain ⟨hexact, hreckoned⟩ := counts_agree (.ofMillis 10) acts .relay hidle Scene.sampleTape
  exact ⟨by decide +kernel, by decide +kernel, by decide +kernel, hexact, hidle,
    by decide +kernel, by decide +kernel, hreckoned⟩

end PollerTrace

end HealthRelay
