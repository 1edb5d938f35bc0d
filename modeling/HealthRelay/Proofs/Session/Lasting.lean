import HealthRelay.Proofs.Session.Relay

/-!
# What ends a run

As long as its reporter is there, a run has no token but the caller's, and its poller ends only on
that token or in a panic. So nothing else ends a run.
-/

namespace HealthRelay

namespace Poller

/-- Only the token ends a poller whose reporter is there. -/
theorem Move.isCancelled {t : Turn} {p : Poller} {h : Handoff} {x : Poller × Handoff}
    (hm : Move t (p, h) x) {fired : Prop} {done : List Sample} (hl : Linked fired p h done)
    (hx : x.1.stage = .finished) : t.isCancelled = true := by
  cases hm with
  | wake => cases hx
  | stop _ hc => exact hc
  | ask => cases hx
  | linger => cases hx
  | panic => cases hx
  | give hst _ _ =>
    rename_i ticker call call' result sample hlook hsample
    obtain ⟨-, ho, hc, -⟩ := hl.of_producing (by simp [isOver, hst]) (by simp [hst])
    obtain ⟨e, h', hb, -⟩ := hc.begin ho sample
    unfold Poller.give at hx
    simp only [hb] at hx
    cases hcan : t.isCancelled with
    | true => rfl
    | false => simp [hcan] at hx
  | acknowledge => cases hx
  | refuse hst hlook =>
    obtain ⟨-, -, ⟨e, -, h', -⟩ | ⟨e, -, h', -⟩⟩ := hl.handing hst
    · cases h'.symm.trans hlook
    · cases h'.symm.trans hlook
  | wait hst => cases hst.symm.trans hx
  | giveUp _ _ hc => exact hc

end Poller

namespace Run

variable {crew : Crew} {m : Moment} {run run₀ : Run} {fired : Prop}

/-- Before the reporter is done, a run has no token but the caller's. -/
theorem Sound.isCancelled (hs : run.Sound fired) (hc : run.isClosing = run₀.isClosing)
    (hr : run.reporter.isOver = false) (shutdown : Bool) :
    run₀.isCancelled shutdown = shutdown := by
  have hclosing : run₀.isClosing = false := by
    rw [← hc]
    exact Bool.eq_false_iff.mpr fun h => by simp [hs.closing h] at hr
  rw [Run.isCancelled, hclosing, Bool.or_false]

/-- What every move keeps of a run, given that it ends its poller only on the token. -/
structure Lasting (fired : Prop) (run : Run) : Prop where
  sound : run.Sound fired
  finished : run.poller.stage = .finished → fired

theorem keeps_lasting (crew : Crew) (hf : m.isShutdown = true → fired) :
    Keeps crew m (Lasting fired) where
  poller s run₀ run x h hc hm := by
    refine ⟨(keeps_sound crew hf).poller s run₀ run x h.sound hc hm, fun hx => hf ?_⟩
    have hr : run.reporter.isOver = false := by
      refine Bool.eq_false_iff.mpr fun hover => ?_
      have halive := hm.alive
      simp [h.sound.left hover] at halive
    have hcan := hm.isCancelled h.sound.linked hx
    rwa [show (s.pollerTurn crew m run₀).isCancelled = m.isShutdown from
      h.sound.isCancelled hc hr m.isShutdown] at hcan
  reporter s run₀ run sink journal x h ha hc hm :=
    ⟨(keeps_sound crew hf).reporter s run₀ run sink journal x h.sound ha hc hm, h.finished⟩
  closing run h ha hover := ⟨(keeps_sound crew hf).closing run h.sound ha hover, h.finished⟩
  turn run activity h ha hb hp :=
    ⟨(keeps_sound crew hf).turn run activity h.sound ha hb hp, h.finished⟩

theorem Lasting.over (h : run.Lasting fired) (ha : run.activity = .over) :
    fired ∨ ∃ message, run.poller.stage = .panicked message := by
  have hover := h.sound.left (h.sound.turned (by simp [ha]))
  cases hp : run.poller.stage with
  | finished => exact .inl (h.finished hp)
  | panicked message => exact .inr ⟨message, rfl⟩
  | _ => simp [Poller.isOver, hp] at hover

end Run

end HealthRelay
