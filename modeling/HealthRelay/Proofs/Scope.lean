import HealthRelay.Proofs.Token
import HealthRelay.Scope
import Mathlib.Data.List.Basic

/-!
# What a scope decides

A scope in the hands of its users: work begins to run in it, each run is polled again and again,
what is left of the budget is read, time passes, tokens fire and the scope is released, in any
order. At every poll the work answers what it likes. `runs_decided` says how each run ends: at its
first poll that finds the scope cancelled, the work ready or the budget used up, and with the first
of these three that holds.
-/

namespace HealthRelay

/-! ## The expiry -/

namespace Scope

/-- The budget is never overdrawn, not even one that the clock has no room for. -/
theorem expiry_le {now : Nat} (h : now + farFuture.nanos < clockEnd.nanos) (budget : Duration) :
    expiry now budget ≤ now + budget.nanos := by
  unfold expiry
  split <;> omega

theorem expiry_lt_clockEnd {now : Nat} (h : now + farFuture.nanos < clockEnd.nanos)
    (budget : Duration) : expiry now budget < clockEnd.nanos := by
  unfold expiry
  split <;> omega

/-- A scope lasts as long as its budget, or thirty years if the budget is longer than that. -/
theorem le_expiry (now : Nat) (budget : Duration) :
    now + min budget.nanos farFuture.nanos ≤ expiry now budget := by
  unfold expiry
  split <;> omega

end Scope

/-! ## One poll -/

structure ScopePoll (α : Type) where
  now : Nat
  /-- Whether the scope was cancelled. -/
  isCancelled : Bool
  /-- What the work had to answer. -/
  answer : Progress α
  /-- How often the poll looked at the work. -/
  looks : Nat
deriving DecidableEq, Repr

namespace ScopePoll

variable {α : Type}

/-- Whether anything has happened that ends a run. -/
def isDue (expiresAt : Nat) (p : ScopePoll α) : Bool :=
  p.isCancelled || p.answer.isReady || decide (expiresAt ≤ p.now)

/-- How a run ends that something has happened to. -/
def verdict (budget : Duration) (p : ScopePoll α) : Except Failure α :=
  if p.isCancelled then .error .cancelled
  else
    match p.answer with
    | .ready a => .ok a
    | .pending => .error (.deadlineElapsed budget)

/-- Only a poll at the expiry or after it finds that the budget is used up. -/
theorem expired_of_verdict {expiresAt : Nat} {budget b : Duration} {p : ScopePoll α}
    (hdue : p.isDue expiresAt = true) (hv : p.verdict budget = .error (.deadlineElapsed b)) :
    b = budget ∧ expiresAt ≤ p.now := by
  unfold verdict at hv
  split at hv
  · cases hv
  · rename_i hcancelled
    split at hv
    · cases hv
    · rename_i hpending
      cases hv
      simpa [isDue, hcancelled, hpending, Progress.isReady] using hdue

end ScopePoll

namespace Scope

variable {σ α : Type} {s : Scope} {now : Nat} {cancelled : Bool} {look : σ → σ × Progress α}
  {work : σ}

/-- A poll of a cancelled scope leaves the work as it is. -/
theorem run_cancelled (h : s.isCancelled cancelled = true) :
    s.run now cancelled look work = (work, .ready (.error .cancelled)) := by
  rw [run, if_pos h]

/-- Every other poll looks at the work once, and only then at the expiry. -/
theorem run_live (h : s.isCancelled cancelled = false) :
    s.run now cancelled look work = ((look work).1,
      match (look work).2 with
      | .ready a => .ready (.ok a)
      | .pending =>
        if s.hasExpired now then .ready (.error (.deadlineElapsed s.budget)) else .pending) := by
  rw [run, if_neg (by simp [h])]
  obtain ⟨work', answer⟩ := look work
  cases answer with
  | ready a => rfl
  | pending => simp only; split <;> rfl

end Scope

/-! ## Runs in a scope -/

/-- Work that runs in a scope, with every poll of it. -/
structure ScopeRun (σ α : Type) where
  work : σ
  polls : List (ScopePoll α)
  outcome : Option (Except Failure α)

/-- What is done with a scope. Tokens have names of type `ν`, and work has states of type `σ`. -/
inductive ScopeAct (ν σ α : Type) where
  /-- Work is made ready to run in the scope. -/
  | begin (work : σ)
  /-- The run of this number is polled; this is what its work does if it is looked at. -/
  | poll (run : Nat) (look : σ → σ × Progress α)
  /-- What is left of the budget is read. -/
  | read
  | pass (nanos : Nat)
  | fire (token : ν)
  | release

/-- A scope with its token, the time, and all that has been seen of it. -/
structure ScopeTrace (ν σ α : Type) where
  scope : Scope
  token : ν
  tokens : TokenTree ν
  now : Nat
  runs : List (ScopeRun σ α)
  /-- What was read of the budget's rest, in order. -/
  readings : List Duration

namespace ScopeTrace

def counted {σ α : Type} (look : σ → σ × Progress α) (x : σ × Nat) : (σ × Nat) × Progress α :=
  (((look x.1).1, x.2 + 1), (look x.1).2)

variable {ν σ α : Type} [DecidableEq ν]

/-- A new scope, whose token is a child of the parent's. -/
def start (σ α : Type) (now : Nat) (budget : Duration) (tokens : TokenTree ν) (parent token : ν) :
    ScopeTrace ν σ α :=
  { scope := .start now budget, token, tokens := tokens.add token (some parent), now, runs := [],
    readings := [] }

def isCancelled (c : ScopeTrace ν σ α) : Bool :=
  c.scope.isCancelled (c.tokens.isCancelled c.token)

/-- A poll of a run; one that is over is not polled any more. -/
def poll (c : ScopeTrace ν σ α) (look : σ → σ × Progress α) (r : ScopeRun σ α) : ScopeRun σ α :=
  match r.outcome with
  | some _ => r
  | none =>
    let ((work, looks), found) :=
      c.scope.run c.now (c.tokens.isCancelled c.token) (counted look) (r.work, 0)
    { work
      polls := r.polls ++ [⟨c.now, c.isCancelled, (look r.work).2, looks⟩]
      outcome :=
        match found with
        | .ready outcome => some outcome
        | .pending => none }

def step (c : ScopeTrace ν σ α) : ScopeAct ν σ α → ScopeTrace ν σ α
  | .begin work => { c with runs := c.runs ++ [⟨work, [], none⟩] }
  | .poll n look => { c with runs := c.runs.modify n (c.poll look) }
  | .read => { c with readings := c.readings ++ [c.scope.remaining c.now] }
  | .pass nanos => { c with now := c.now + nanos }
  | .fire token => { c with tokens := c.tokens.fire token }
  | .release => { c with scope := c.scope.release, tokens := c.tokens.fire c.token }

def perform (c : ScopeTrace ν σ α) (acts : List (ScopeAct ν σ α)) : ScopeTrace ν σ α :=
  acts.foldl step c

end ScopeTrace

/-- Whether an act fires this token of a scope. -/
def ScopeAct.fires {ν σ α : Type} [DecidableEq ν] (token : ν) : ScopeAct ν σ α → Bool
  | .fire other => decide (other = token)
  | .release => true
  | _ => false

/-- The first poll that is due ends the run, and no other poll follows it. A poll looks at the work
unless it finds the scope cancelled. -/
structure ScopeRun.Decided {σ α : Type} (r : ScopeRun σ α) (expiresAt : Nat) (budget : Duration) :
    Prop where
  outcome_eq : r.outcome = (r.polls.find? (·.isDue expiresAt)).map (·.verdict budget)
  unfinished : ∀ p ∈ r.polls.dropLast, p.isDue expiresAt = false
  looks : ∀ p ∈ r.polls, p.looks = if p.isCancelled then 0 else 1

namespace ScopeRun

variable {σ α : Type} {r : ScopeRun σ α} {expiresAt : Nat} {budget : Duration}

theorem decided_new (work : σ) (expiresAt : Nat) (budget : Duration) :
    Decided (⟨work, [], none⟩ : ScopeRun σ α) expiresAt budget :=
  ⟨rfl, by simp, by simp⟩

/-- No poll of a run that is not over was due. -/
theorem Decided.not_due (h : r.Decided expiresAt budget) (ho : r.outcome = none) :
    ∀ p ∈ r.polls, p.isDue expiresAt = false := by
  have hfind := h.outcome_eq
  rw [ho, eq_comm, Option.map_eq_none_iff, List.find?_eq_none] at hfind
  simpa using hfind

/-- One more poll of a run that is not over. -/
theorem Decided.polled (h : r.Decided expiresAt budget) (ho : r.outcome = none)
    {p : ScopePoll α} (hlooks : p.looks = if p.isCancelled then 0 else 1) (work : σ) :
    Decided ⟨work, r.polls ++ [p], if p.isDue expiresAt then some (p.verdict budget) else none⟩
      expiresAt budget := by
  have hold := h.not_due ho
  refine ⟨?_, ?_, ?_⟩
  · have hnone : r.polls.find? (·.isDue expiresAt) = none :=
      List.find?_eq_none.mpr (by simpa using hold)
    rw [List.find?_append, hnone, Option.none_or, List.find?_singleton]
    split <;> rfl
  · rw [List.dropLast_concat]
    exact hold
  · intro q hq
    rcases List.mem_append.mp hq with hq | hq
    · exact h.looks q hq
    · rw [List.mem_singleton.mp hq]
      exact hlooks

/-- Nothing follows a poll that is due. -/
theorem Decided.getLast?_of_due (h : r.Decided expiresAt budget) {p : ScopePoll α}
    (hp : p ∈ r.polls) (hdue : p.isDue expiresAt = true) : r.polls.getLast? = some p := by
  have hne := List.ne_nil_of_mem hp
  rw [← List.dropLast_append_getLast hne] at hp
  rcases List.mem_append.mp hp with hp | hp
  · have hnot := h.unfinished p hp
    rw [hdue] at hnot
    cases hnot
  · rw [List.mem_singleton.mp hp, List.getLast?_eq_some_getLast]

/-- **A run that ran out of budget was polled last at the expiry or after it.** -/
theorem Decided.lasted (h : r.Decided expiresAt budget) {b : Duration}
    (ho : r.outcome = some (.error (.deadlineElapsed b))) :
    b = budget ∧ ∃ p, r.polls.getLast? = some p ∧ expiresAt ≤ p.now := by
  rw [h.outcome_eq, Option.map_eq_some_iff] at ho
  obtain ⟨p, hp, hv⟩ := ho
  have hdue := List.find?_some hp
  obtain ⟨rfl, hexpired⟩ := ScopePoll.expired_of_verdict hdue hv
  exact ⟨rfl, p, h.getLast?_of_due (List.mem_of_find?_eq_some hp) hdue, hexpired⟩

end ScopeRun

namespace ScopeTrace

/-! ## What every act keeps -/

variable {ν σ α : Type} {c : ScopeTrace ν σ α}

theorem mem_modify {β : Type} {f : β → β} {n : Nat} {l : List β} {b : β} (h : b ∈ l.modify n f) :
    ∃ a ∈ l, b = a ∨ b = f a := by
  obtain ⟨i, hi⟩ := List.mem_iff_getElem?.mp h
  rw [List.getElem?_modify, Option.map_eq_map, Option.map_eq_some_iff] at hi
  obtain ⟨a, ha, rfl⟩ := hi
  refine ⟨a, List.mem_of_getElem? ha, ?_⟩
  split
  · exact .inr rfl
  · exact .inl rfl

/-- What every act keeps of a scope that was opened at a time with a budget. -/
structure Sound (c : ScopeTrace ν σ α) (opened : Nat) (budget : Duration) : Prop where
  budget_eq : c.scope.budget = budget
  expiresAt_eq : c.scope.expiresAt = Scope.expiry opened budget
  opened_le : opened ≤ c.now
  runs : ∀ r ∈ c.runs, r.Decided c.scope.expiresAt c.scope.budget
  readings_le : ∀ d ∈ c.readings, d ≤ budget
  le_readings : ∀ d ∈ c.readings, c.scope.remaining c.now ≤ d
  readings_fall : c.readings.Pairwise fun earlier later => later ≤ earlier

theorem sound_start (opened : Nat) (budget : Duration) (tokens : TokenTree ν) (parent token : ν) :
    (start σ α opened budget tokens parent token).Sound opened budget where
  budget_eq := rfl
  expiresAt_eq := rfl
  opened_le := Nat.le_refl _
  runs := by simp [start]
  readings_le := by simp [start]
  le_readings := by simp [start]
  readings_fall := .nil

/-- What the users of a scope can rely on that was opened at a time with a budget. -/
structure Decisive (c : ScopeTrace ν σ α) (opened : Nat) (budget : Duration) : Prop where
  budget_eq : c.scope.budget = budget
  /-- A budget that the clock has no room for is cut to thirty years. -/
  expiresAt_eq : c.scope.expiresAt =
    if opened + budget.nanos < Scope.clockEnd.nanos then opened + budget.nanos
    else opened + Scope.farFuture.nanos
  /-- The expiry is a time of the clock. -/
  expiresAt_lt : c.scope.expiresAt < Scope.clockEnd.nanos
  /-- All runs share the expiry, and precedence decides each of them. -/
  runs : ∀ r ∈ c.runs, r.Decided c.scope.expiresAt budget
  /-- No run runs out of budget before the budget has passed, or thirty years of a longer one. -/
  never_early : ∀ r ∈ c.runs, ∀ b, r.outcome = some (.error (.deadlineElapsed b)) → b = budget ∧
    ∃ p, r.polls.getLast? = some p ∧ opened + min budget.nanos Scope.farFuture.nanos ≤ p.now
  readings_le : ∀ d ∈ c.readings, d ≤ budget
  readings_fall : c.readings.Pairwise fun earlier later => later ≤ earlier

theorem Sound.decisive {opened : Nat} {budget : Duration} (h : c.Sound opened budget)
    (hclock : opened + Scope.farFuture.nanos < Scope.clockEnd.nanos) :
    c.Decisive opened budget where
  budget_eq := h.budget_eq
  expiresAt_eq := h.expiresAt_eq
  expiresAt_lt := h.expiresAt_eq ▸ Scope.expiry_lt_clockEnd hclock budget
  runs := h.budget_eq ▸ h.runs
  never_early := fun r hr b ho => by
    have hr := h.runs r hr
    rw [h.budget_eq] at hr
    obtain ⟨hb, p, hp, hexpired⟩ := hr.lasted ho
    rw [h.expiresAt_eq] at hexpired
    exact ⟨hb, p, hp, Nat.le_trans (Scope.le_expiry opened budget) hexpired⟩
  readings_le := h.readings_le
  readings_fall := h.readings_fall

variable [DecidableEq ν]

/-- What a poll finds is what is due. -/
theorem poll_decided {r : ScopeRun σ α} (h : r.Decided c.scope.expiresAt c.scope.budget)
    (look : σ → σ × Progress α) : (c.poll look r).Decided c.scope.expiresAt c.scope.budget := by
  unfold poll
  cases ho : r.outcome with
  | some outcome => exact h
  | none =>
    cases hc : c.isCancelled with
    | true =>
      rw [Scope.run_cancelled hc]
      exact h.polled ho (p := ⟨c.now, true, (look r.work).2, 0⟩) rfl r.work
    | false =>
      rw [Scope.run_live hc]
      have hp := h.polled ho (p := ⟨c.now, false, (look r.work).2, 1⟩) rfl (look r.work).1
      cases ha : (look r.work).2 with
      | ready a =>
        simpa [counted, ha, ScopePoll.isDue, ScopePoll.verdict, Progress.isReady] using hp
      | pending =>
        rw [ha] at hp
        by_cases hexpired : c.scope.expiresAt ≤ c.now <;>
          simpa [counted, ha, ScopePoll.isDue, ScopePoll.verdict, Progress.isReady,
            Scope.hasExpired, hexpired] using hp

section
variable {opened : Nat} {budget : Duration}

theorem Sound.step (h : c.Sound opened budget)
    (hclock : opened + Scope.farFuture.nanos < Scope.clockEnd.nanos) (a : ScopeAct ν σ α) :
    (c.step a).Sound opened budget := by
  cases a with
  | begin work =>
    refine { h with runs := fun r hr => ?_ }
    rcases List.mem_append.mp hr with hr | hr
    · exact h.runs r hr
    · rw [List.mem_singleton.mp hr]
      exact ScopeRun.decided_new work _ _
  | poll n look =>
    refine { h with runs := fun r hr => ?_ }
    obtain ⟨r₀, hr₀, rfl | rfl⟩ := mem_modify hr
    · exact h.runs r hr₀
    · exact poll_decided (h.runs r₀ hr₀) look
  | read =>
    have hle : c.scope.remaining c.now ≤ budget := by
      have hexpiry := Scope.expiry_le hclock budget
      have hopened := h.opened_le
      change c.scope.expiresAt - c.now ≤ budget.nanos
      rw [h.expiresAt_eq]
      omega
    refine { h with
      readings_le := fun d hd => ?_, le_readings := fun d hd => ?_, readings_fall := ?_ }
    · rcases List.mem_append.mp hd with hd | hd
      · exact h.readings_le d hd
      · rw [List.mem_singleton.mp hd]
        exact hle
    · rcases List.mem_append.mp hd with hd | hd
      · exact h.le_readings d hd
      · rw [List.mem_singleton.mp hd]
        exact Nat.le_refl _
    · refine List.pairwise_append.mpr ⟨h.readings_fall, List.pairwise_singleton _ _, ?_⟩
      intro d hd d' hd'
      rw [List.mem_singleton.mp hd']
      exact h.le_readings d hd
  | pass nanos =>
    refine { h with opened_le := ?_, le_readings := fun d hd => ?_ }
    · exact Nat.le_trans h.opened_le (Nat.le_add_right _ _)
    · have hle : c.scope.expiresAt - c.now ≤ d.nanos := h.le_readings d hd
      change c.scope.expiresAt - (c.now + nanos) ≤ d.nanos
      omega
  | fire token => exact { h with }
  | release => exact { h with }

theorem Sound.perform (h : c.Sound opened budget)
    (hclock : opened + Scope.farFuture.nanos < Scope.clockEnd.nanos)
    (acts : List (ScopeAct ν σ α)) : (c.perform acts).Sound opened budget := by
  induction acts generalizing c with
  | nil => exact h
  | cons a acts ih => exact ih (h.step hclock a)

end

/-! ## The token -/

/-- The scope's token is a child of its parent's, and this is whether it has fired. -/
structure Owns (c : ScopeTrace ν σ α) (parent : ν) (fired : Bool) : Prop where
  rooted : c.tokens.IsRooted
  token?_eq : c.tokens.token? c.token = some ⟨c.token, some parent, fired⟩
  released : c.scope.isReleased = true → fired = true

section
variable {parent : ν} {fired : Bool}

theorem step_token (c : ScopeTrace ν σ α) (a : ScopeAct ν σ α) : (c.step a).token = c.token := by
  cases a <;> rfl

theorem Owns.step (h : c.Owns parent fired) (a : ScopeAct ν σ α) :
    (c.step a).Owns parent (fired || a.fires c.token) := by
  cases a with
  | fire other =>
    refine ⟨h.rooted.fire other, ?_, fun hr => by simp [h.released hr]⟩
    change (c.tokens.fire other).token? c.token = _
    rw [TokenTree.token?_fire, h.token?_eq, step_token]
    by_cases hother : other = c.token <;> simp [ScopeAct.fires, hother]
  | release =>
    refine ⟨h.rooted.fire c.token, ?_, fun _ => by simp [ScopeAct.fires]⟩
    change (c.tokens.fire c.token).token? c.token = _
    rw [TokenTree.token?_fire, h.token?_eq, step_token]
    simp [ScopeAct.fires]
  | begin => exact (Bool.or_false fired).symm ▸ ⟨h.rooted, h.token?_eq, h.released⟩
  | poll => exact (Bool.or_false fired).symm ▸ ⟨h.rooted, h.token?_eq, h.released⟩
  | read => exact (Bool.or_false fired).symm ▸ ⟨h.rooted, h.token?_eq, h.released⟩
  | pass => exact (Bool.or_false fired).symm ▸ ⟨h.rooted, h.token?_eq, h.released⟩

theorem Owns.perform (h : c.Owns parent fired) (acts : List (ScopeAct ν σ α)) :
    (c.perform acts).Owns parent (fired || acts.any (·.fires c.token)) := by
  induction acts generalizing c fired with
  | nil => rw [List.any_nil, Bool.or_false]; exact h
  | cons a acts ih =>
    have hlater := ih (h.step a)
    rw [step_token, Bool.or_assoc] at hlater
    exact hlater

/-- **A scope is cancelled once its token has fired or its parent is cancelled.** -/
theorem Owns.isCancelled_eq (h : c.Owns parent fired) :
    c.isCancelled = (fired || c.tokens.isCancelled parent) := by
  have htoken := TokenTree.isCancelled_eq h.rooted h.token?_eq
  rw [Option.elim_some] at htoken
  rw [isCancelled, Scope.isCancelled, htoken]
  cases hr : c.scope.isReleased with
  | false => rw [Bool.false_or]
  | true => rw [h.released hr, Bool.true_or, Bool.true_or]

end

/-- **Precedence decides every run in a scope**: cancellation before the work, the work before the
expiry. This holds of every budget and parent, whatever the work does and whenever it is polled. -/
theorem runs_decided {tokens : TokenTree ν} {parent token : ν} (hr : tokens.IsRooted)
    (hp : ∃ t, tokens.token? parent = some t) (hfresh : tokens.token? token = none) {now : Nat}
    (hclock : now + Scope.farFuture.nanos < Scope.clockEnd.nanos) (budget : Duration)
    (acts : List (ScopeAct ν σ α)) :
    let c := (start σ α now budget tokens parent token).perform acts
    c.Decisive now budget ∧
      c.isCancelled = (acts.any (·.fires token) || c.tokens.isCancelled parent) := by
  have howns : (start σ α now budget tokens parent token).Owns parent false :=
    ⟨hr.add hfresh fun p h => Option.some.inj h ▸ hp, if_pos rfl, fun h => h⟩
  have hsound := sound_start (σ := σ) (α := α) now budget tokens parent token
  refine ⟨(hsound.perform hclock acts).decisive hclock, ?_⟩
  rw [(howns.perform acts).isCancelled_eq, Bool.false_or]
  rfl

/-- Three runs in a scope of ten milliseconds. At the expiry, the work of the first is ready and
that of the second is not; the third is polled after the parent's token has fired. -/
theorem runs_decided_tied :
    let tokens : TokenTree Nat := TokenTree.add [] 0 none
    let pending : Unit → Unit × Progress Nat := fun w => (w, .pending)
    let ready : Unit → Unit × Progress Nat := fun w => (w, .ready 7)
    let acts : List (ScopeAct Nat Unit Nat) :=
      [.begin (), .begin (), .begin (), .poll 0 pending, .poll 1 pending, .pass 10000000,
        .poll 0 ready, .poll 1 pending, .fire 0, .poll 2 ready]
    let c := (start Unit Nat 0 (.ofMillis 10) tokens 0 1).perform acts
    (tokens.IsRooted ∧ (∃ t, tokens.token? 0 = some t) ∧ tokens.token? 1 = none ∧
      0 + Scope.farFuture.nanos < Scope.clockEnd.nanos) ∧
    (c.runs.map (·.outcome) = [some (.ok 7),
        some (.error (.deadlineElapsed (.ofMillis 10))), some (.error .cancelled)] ∧
      c.Decisive 0 (.ofMillis 10) ∧
      c.isCancelled = (acts.any (·.fires 1) || c.tokens.isCancelled 0)) := by
  intro tokens pending ready acts c
  have hr : tokens.IsRooted := TokenTree.isRooted_root 0
  have hp : ∃ t, tokens.token? 0 = some t := ⟨_, rfl⟩
  have hclock : 0 + Scope.farFuture.nanos < Scope.clockEnd.nanos := by decide
  have houtcomes : c.runs.map (·.outcome) = [some (.ok 7),
      some (.error (.deadlineElapsed (.ofMillis 10))), some (.error .cancelled)] := by
    decide +kernel
  exact ⟨⟨hr, hp, rfl, hclock⟩, houtcomes, runs_decided hr hp rfl hclock (.ofMillis 10) acts⟩

end ScopeTrace

end HealthRelay
