import HealthRelay.Call

/-!
# What a look at a call finds

`look_cases` lists all that a look can find of a call that keeps to its scope. A look never changes
the scope, so the scope of a call in flight is the one that it was opened with.
-/

namespace HealthRelay

/-- What a list holds once there is one more at its end. -/
theorem getElem?_concat_cases {α : Type} {l : List α} {a b : α} {n : Nat}
    (h : (l ++ [a])[n]? = some b) : l[n]? = some b ∨ n = l.length ∧ b = a := by
  rcases Nat.lt_trichotomy n l.length with hlt | rfl | hgt
  · rw [List.getElem?_append_left hlt] at h
    exact .inl h
  · rw [List.getElem?_concat_length] at h
    exact .inr ⟨rfl, (Option.some.inj h).symm⟩
  · rw [List.getElem?_eq_none (by simp; omega)] at h
    cases h

namespace Call

variable {α : Type} {c c' : Call} {isGated cancelled : Bool} {now : Nat} {answer : Progress α}
  {found : Progress (Except Failure α)}

theorem look_scope (hl : c.look isGated now cancelled answer = (c', found)) :
    c'.scope = c.scope := by
  have hscope : (c.look isGated now cancelled answer).1.scope = c.scope := by
    cases isGated <;> rfl
  rw [← hscope, hl]

/-- All that a look can find of a call that keeps to its scope: the token, the answer, the end of
the budget, or nothing yet. -/
theorem look_cases (hr : c.scope.isReleased = false)
    (hl : c.look true now cancelled answer = (c', found)) :
    (cancelled = true ∧ found = .ready (.error .cancelled)) ∨
      (cancelled = false ∧ ∃ a, answer = .ready a ∧ found = .ready (.ok a)) ∨
      (cancelled = false ∧ answer = .pending ∧ c.scope.expiresAt ≤ now ∧
        found = .ready (.error (.deadlineElapsed c.scope.budget))) ∨
      (cancelled = false ∧ answer = .pending ∧ now < c.scope.expiresAt ∧ found = .pending) := by
  have hfound : found = (c.scope.run now cancelled (fun _ => (true, answer)) c.hasWorked).2 := by
    rw [look, if_pos rfl] at hl
    exact (congrArg Prod.snd hl).symm
  rw [hfound]
  unfold Scope.run Scope.isCancelled Scope.hasExpired
  cases cancelled with
  | true => simp
  | false =>
    cases answer with
    | ready a => simp [hr]
    | pending =>
      by_cases hexpired : c.scope.expiresAt ≤ now
      · simp [hr, hexpired]
      · simp [hr, hexpired]
        omega

/-- A call in its scope is waited for only as long as it has time left. -/
theorem lt_of_look_pending (hr : c.scope.isReleased = false)
    (hl : c.look true now cancelled answer = (c', .pending)) : now < c.scope.expiresAt := by
  rcases look_cases hr hl with ⟨-, hf⟩ | ⟨-, a, -, hf⟩ | ⟨-, -, -, hf⟩ | ⟨-, -, hleft, -⟩
  · cases hf
  · cases hf
  · cases hf
  · exact hleft

end Call

end HealthRelay
