import HealthRelay.Proofs.Session.Shutdown

/-!
# A slow delivery holds the probes back

The handoff has a slot, so that nothing is stored in it is a matter of how both of its ends behave.
`Tallied` counts what a poller has done; with the places at which the sample on its way can be
(`Linked`) it follows that a run never is more than one probe ahead of its deliveries. `Throttled`
says so of a call, in every state that its turns can lead to.
-/

namespace HealthRelay

namespace Poller

/-- Every probe call that is over gave a sample, the one that panicked aside. -/
structure Tallied (p : Poller) : Prop where
  alive : p.isOver = false → p.past.length = p.samples.length
  finished : p.stage = .finished → p.past.length = p.samples.length
  bounded : p.past.length ≤ p.samples.length + 1
  sampled : p.samples.length ≤ p.past.length

variable {t : Turn} {p : Poller} {h : Handoff} {x : Poller × Handoff}

theorem tallied_of_eq (he : p.past.length = p.samples.length) : p.Tallied :=
  ⟨fun _ => he, fun _ => he, by omega, by omega⟩

theorem Move.tallied (hm : Move t (p, h) x) (hp : p.Tallied) : x.1.Tallied := by
  have heq := hp.alive hm.alive
  cases hm with
  | panic => exact ⟨fun h => (by cases h), fun h => (by cases h), by simp [heq], by simp; omega⟩
  | give hst _ _ =>
    rename_i ticker call call' result sample hl hs
    refine tallied_of_eq ?_
    unfold Poller.give
    simp only
    split
    · simp [finish, heq]
    · split <;> simp [finish, heq]
  | wake => exact tallied_of_eq heq
  | stop => exact tallied_of_eq heq
  | ask => exact tallied_of_eq heq
  | linger => exact tallied_of_eq heq
  | acknowledge => exact tallied_of_eq heq
  | refuse => exact tallied_of_eq heq
  | wait => exact tallied_of_eq heq
  | giveUp => exact tallied_of_eq heq

/-- A poller with a probe call on has nothing on its way. -/
theorem calls_length_le {fired : Prop} {done : List Sample} (hp : p.Tallied)
    (hl : Linked fired p h done) : p.calls.length ≤ done.length + 1 := by
  have hflight := Option.length_toList_le (o := p.inFlight?)
  have hidle : p.past.length ≤ done.length + 1 → p.inFlight? = none →
      p.calls.length ≤ done.length + 1 := fun hle hnone => by simpa [calls, hnone] using hle
  have halive := hp.alive
  cases hl with
  | producing hover _ _ _ _ hd =>
    rw [calls, List.length_append, halive hover, hd]
    omega
  | parked hst _ _ _ hd =>
    exact hidle (by simp [halive (by simp [isOver, hst]), hd]) (by simp [inFlight?, hst])
  | taken hst _ _ _ hd =>
    exact hidle (by simp [halive (by simp [isOver, hst]), hd]) (by simp [inFlight?, hst])
  | forsaken hst _ _ hd =>
    exact hidle (by simp [hp.finished hst, hd]) (by simp [inFlight?, hst])
  | lost hst _ _ hd =>
    exact hidle (by simp [hp.finished hst, hd]) (by simp [inFlight?, hst])
  | ended hover _ _ hd =>
    refine hidle (hd ▸ hp.bounded) ?_
    unfold isOver at hover
    unfold inFlight?
    split at hover <;> simp [*] at hover ⊢

end Poller

namespace Run

variable {fired : Prop} {run : Run} {crew : Crew} {m : Moment}

/-- What every move keeps of a run, given that its poller has kept count. -/
structure Counted (fired : Prop) (run : Run) : Prop where
  sound : run.Sound fired
  tallied : run.poller.Tallied

theorem counted_start (config : SessionConfig) (crew : Crew) (id : SessionId) :
    (start config crew id).Counted fired :=
  ⟨sound_start config crew id, Poller.tallied_of_eq rfl⟩

theorem keeps_counted (crew : Crew) (hf : m.isShutdown = true → fired) :
    Keeps crew m (Counted fired) where
  poller s run₀ run x h hc hm :=
    ⟨(keeps_sound crew hf).poller s run₀ run x h.sound hc hm, hm.tallied h.tallied⟩
  reporter s run₀ run sink journal x h ha hc hm :=
    ⟨(keeps_sound crew hf).reporter s run₀ run sink journal x h.sound ha hc hm, h.tallied⟩
  closing run h ha hover := ⟨(keeps_sound crew hf).closing run h.sound ha hover, h.tallied⟩
  turn run activity h ha hb hp :=
    ⟨(keeps_sound crew hf).turn run activity h.sound ha hb hp, h.tallied⟩

end Run

namespace Scene

variable {crew : Crew} {d : SessionDesk} {c : Scene}

/-- Every probe call of the run that is over, in order. -/
def probesOver (c : Scene) : List Call := c.run?.elim [] (·.poller.past)

/-- Every deliver call of the run that is over, in order. -/
def deliveriesOver (c : Scene) : List Delivery := c.run?.elim [] (·.reporter.past)

/-- How far the probes of a call are ahead of its deliveries. -/
structure Throttled (c : Scene) : Prop where
  returned_le : c.deliveriesOver.length ≤ c.deliveries.length
  started_le : c.deliveries.length ≤ c.probesOver.length
  finished_le : c.probesOver.length ≤ c.calls.length
  probes_le : c.calls.length ≤ c.deliveries.length + 1
  deliveries_le : c.deliveries.length ≤ c.deliveriesOver.length + 1
  /-- One probe call is on at most. -/
  one_probe : c.calls.length ≤ c.probesOver.length + 1
  /-- One sample at most has been probed and not been taken. -/
  untaken_le : (c.probed.drop c.delivered.length).length ≤ 1
  /-- A probe does not begin before the delivery of the sample two before it is over. -/
  behind : ∀ (k : Nat) (call : Call), c.calls[k + 2]? = some call →
    ∃ d, c.deliveries[k]? = some d ∧ c.deliveriesOver[k]? = some d

theorem delivered_length (c : Scene) : c.delivered.length = c.deliveries.length := by
  cases hr : c.run? <;> simp [delivered, deliveries, hr]

theorem probesOver_isPrefix (c : Scene) : c.probesOver <+: c.calls := by
  cases hr : c.run? <;> simp [probesOver, calls, hr, Poller.calls]

theorem deliveriesOver_isPrefix (c : Scene) : c.deliveriesOver <+: c.deliveries := by
  cases hr : c.run? <;> simp [deliveriesOver, deliveries, hr, Reporter.deliveries]

/-- One deliver call is on at most. -/
theorem deliveries_length_le (c : Scene) :
    c.deliveries.length ≤ c.deliveriesOver.length + 1 := by
  cases hr : c.run? with
  | none => simp [deliveries, hr]
  | some run =>
    have hflight := Option.length_toList_le (o := run.reporter.inFlight?)
    simp only [deliveries, deliveriesOver, hr, Option.elim_some, Reporter.deliveries,
      List.length_append]
    omega

/-- The probes stay where the deliveries let them. -/
theorem Stands.ahead_le {fired : Prop} (hst : c.Stands (Run.Counted fired)) :
    c.deliveries.length ≤ c.probed.length ∧ c.probed.length ≤ c.probesOver.length ∧
      c.calls.length ≤ c.deliveries.length + 1 := by
  cases hr : c.run? with
  | none => simp [deliveries, probed, probesOver, calls, hr]
  | some run =>
    obtain ⟨m, n, -, -, -, hsound, htally⟩ := hst.launched_of_run? hr
    have hprefix := hsound.linked.done_isPrefix.length_le
    have hcalls := Poller.calls_length_le htally hsound.linked
    have hsampled := htally.sampled
    rw [← delivered_length, delivered_eq hr]
    simp only [probed, probesOver, calls, hr, Option.elim_some]
    omega

theorem Stands.throttled {fired : Prop} (hst : c.Stands (Run.Counted fired)) : c.Throttled := by
  obtain ⟨hstarted, hsampled, hcalls⟩ := hst.ahead_le
  have hreturned := c.deliveriesOver_isPrefix.length_le
  have hfinished := c.probesOver_isPrefix.length_le
  have hon := c.deliveries_length_le
  have hlen := c.delivered_length
  refine ⟨hreturned, by omega, hfinished, hcalls, hon, by omega, ?_, ?_⟩
  · rw [List.length_drop]
    omega
  · intro k call hk
    obtain ⟨hlt, -⟩ := List.getElem?_eq_some_iff.mp hk
    have hk' : k < c.deliveriesOver.length := by omega
    refine ⟨c.deliveriesOver[k], ?_, List.getElem?_eq_getElem hk'⟩
    exact List.prefix_iff_getElem?.mp c.deliveriesOver_isPrefix k hk'

/-- **The probes of a session wait for its deliveries**, in every call, whoever gets the turns,
whatever stands at the other end of the sink, and whenever the token fires. -/
theorem play_throttled (crew : Crew) (hd : d.session.stage = .idle) (tape : List SceneTurn) :
    ((start d).play crew tape).Throttled := by
  have hstands : ((start d).play crew tape).Stands (Run.Counted (HasFired tape)) := by
    refine (stands_start hd).play tape ?_ ?_
    · exact fun t ht m hm => Run.keeps_counted crew fun h => ⟨t, ht, m, hm, h⟩
    · exact fun _ id => Run.counted_start _ crew id
  exact hstands.throttled

/-- A moment in which deliveries take their time. -/
def stalledMoment (now : Nat) : Moment :=
  { sampleMoment now false with deliver := fun _ => .pending }

/-- One delivery goes on and on; the poller gets a turn at every tick. -/
def stalledTape : List SceneTurn :=
  [.session (stalledMoment 0), .poller (stalledMoment 0), .session (stalledMoment 0),
    .poller (stalledMoment 1000000), .poller (stalledMoment 2000000),
    .poller (stalledMoment 3000000)]

theorem play_throttled_stalled :
    let c := (start sampleDesk).play Crew.relay stalledTape
    sampleDesk.session.stage = .idle ∧ c.calls.length = 2 ∧ c.probesOver.length = 2 ∧
      c.deliveries.length = 1 ∧ c.deliveriesOver.length = 0 ∧ c.Throttled :=
  ⟨by decide +kernel, by decide +kernel, by decide +kernel, by decide +kernel, by decide +kernel,
    play_throttled Crew.relay (by decide +kernel) stalledTape⟩

end Scene

end HealthRelay
