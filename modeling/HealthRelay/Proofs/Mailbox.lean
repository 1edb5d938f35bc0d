import HealthRelay.Mailbox

/-!
# Fair mailboxes

`line m` is everyone who has a ticket: those who own a place, then those who wait for one. `Fair m`
says that no place is promised twice and that nobody waits next to a free place while the mailbox is
open. Granting moves a ticket along the line without changing it, and every other operation takes a
ticket out of it or puts one at its end.
-/

namespace HealthRelay.Mailbox

variable {α : Type}

/-- The places that are filled or promised. -/
def used (m : Mailbox α) : Nat := m.queue.length + m.granted.length

/-- Everyone with a ticket, the owners of a place first. -/
def line (m : Mailbox α) : List Nat := m.granted ++ m.waiting

/-- No place is promised twice, and nobody waits next to a free one. -/
structure Fair (m : Mailbox α) : Prop where
  used_le : m.used ≤ m.capacity
  full_of_waiting : m.isOpen = true → m.waiting ≠ [] → m.used = m.capacity

theorem hasRoom_iff {m : Mailbox α} : m.hasRoom = true ↔ m.used < m.capacity := by
  simp [hasRoom, used]

theorem isOpen_iff {m : Mailbox α} : m.isOpen = true ↔ m.gate = .opened := by
  simp [isOpen]

theorem fair_empty (capacity : Nat) : (empty capacity : Mailbox α).Fair :=
  ⟨by simp [empty, used], by simp [empty]⟩

/-! ## Granting -/

theorem grant_eq (m : Mailbox α) : m.grant = m ∨ ∃ t line, m.waiting = t :: line ∧
    m.used < m.capacity ∧ m.grant = { m with waiting := line, granted := m.granted ++ [t] } := by
  unfold grant
  split
  · exact .inl rfl
  · rename_i t line hw
    split
    · rename_i hr
      exact .inr ⟨t, line, hw, hasRoom_iff.mp hr, rfl⟩
    · exact .inl rfl

@[simp] theorem grant_queue (m : Mailbox α) : m.grant.queue = m.queue := by
  rcases m.grant_eq with h | ⟨t, line, -, -, h⟩ <;> rw [h]

@[simp] theorem grant_capacity (m : Mailbox α) : m.grant.capacity = m.capacity := by
  rcases m.grant_eq with h | ⟨t, line, -, -, h⟩ <;> rw [h]

@[simp] theorem grant_gate (m : Mailbox α) : m.grant.gate = m.gate := by
  rcases m.grant_eq with h | ⟨t, line, -, -, h⟩ <;> rw [h]

@[simp] theorem grant_accepted (m : Mailbox α) : m.grant.accepted = m.accepted := by
  rcases m.grant_eq with h | ⟨t, line, -, -, h⟩ <;> rw [h]

@[simp] theorem grant_line (m : Mailbox α) : m.grant.line = m.line := by
  rcases m.grant_eq with h | ⟨t, line, hw, -, h⟩
  · rw [h]
  · rw [h, Mailbox.line, Mailbox.line, hw]
    simp

/-- One grant is enough after one place has become free. -/
theorem fair_grant {m : Mailbox α} (hu : m.used ≤ m.capacity)
    (hw : m.isOpen = true → m.waiting ≠ [] → m.capacity ≤ m.used + 1) : m.grant.Fair := by
  rcases m.grant_eq with h | ⟨t, line, hline, hlt, h⟩
  · rw [h]
    refine ⟨hu, fun ho hne => ?_⟩
    by_cases hr : m.used < m.capacity
    · obtain ⟨t, line, hline⟩ := List.exists_cons_of_ne_nil hne
      have hg : m.grant = { m with waiting := line, granted := m.granted ++ [t] } := by
        unfold grant
        rw [hline]
        exact if_pos (hasRoom_iff.mpr hr)
      have hl := congrArg Mailbox.waiting (hg.symm.trans h)
      simp [hline] at hl
    · have := hw ho hne
      omega
  · have hused : m.grant.used = m.used + 1 := by
      rw [h]; simp only [used, List.length_append, List.length_singleton]; omega
    have hcap : m.grant.capacity = m.capacity := m.grant_capacity
    refine ⟨by omega, fun ho _ => ?_⟩
    have ho' : m.isOpen = true := by rw [h] at ho; exact ho
    have := hw ho' (by rw [hline]; simp)
    omega

/-! ## Leaving the line -/

@[simp] theorem withdraw_queue (m : Mailbox α) (t : Nat) : (m.withdraw t).queue = m.queue := by
  unfold withdraw; split <;> simp

@[simp] theorem withdraw_capacity (m : Mailbox α) (t : Nat) :
    (m.withdraw t).capacity = m.capacity := by
  unfold withdraw; split <;> simp

@[simp] theorem withdraw_gate (m : Mailbox α) (t : Nat) : (m.withdraw t).gate = m.gate := by
  unfold withdraw; split <;> simp

@[simp] theorem withdraw_accepted (m : Mailbox α) (t : Nat) :
    (m.withdraw t).accepted = m.accepted := by
  unfold withdraw; split <;> simp

/-- Whoever withdraws leaves the line, and nobody else moves. -/
@[simp] theorem withdraw_line (m : Mailbox α) (t : Nat) : (m.withdraw t).line = m.line.erase t := by
  unfold withdraw
  split
  · rename_i h
    rw [grant_line, Mailbox.line, Mailbox.line, List.erase_append_left _ (by simpa using h)]
  · rename_i h
    rw [Mailbox.line, Mailbox.line, List.erase_append_right _ (by simpa using h)]

theorem Fair.withdraw {m : Mailbox α} (hf : m.Fair) (t : Nat) : (m.withdraw t).Fair := by
  have hle := hf.used_le
  unfold Mailbox.withdraw
  split
  · rename_i h
    have hlen : (m.granted.erase t).length + 1 = m.granted.length := by
      rw [List.length_erase_of_mem (by simpa using h)]
      have := List.length_pos_of_mem (a := t) (l := m.granted) (by simpa using h)
      omega
    apply fair_grant
    · simp only [used] at hle ⊢; omega
    · intro ho hne
      have := hf.full_of_waiting ho hne
      simp only [used] at this ⊢; omega
  · refine ⟨hle, fun ho hne => hf.full_of_waiting ho fun he => hne ?_⟩
    simp [he]

/-! ## Getting in and being taken -/

theorem Fair.waiting_eq_nil {m : Mailbox α} (hf : m.Fair) (ho : m.isOpen = true)
    (hr : m.hasRoom = true) : m.waiting = [] := by
  have hlt := hasRoom_iff.mp hr
  rcases hw : m.waiting with _ | ⟨t, line⟩
  · rfl
  · have := hf.full_of_waiting ho (by simp [hw])
    omega

theorem Fair.push {m : Mailbox α} (hf : m.Fair) (hr : m.hasRoom = true) (a : α) :
    (m.push a).Fair := by
  have hlt := hasRoom_iff.mp hr
  refine ⟨?_, fun ho hne => ?_⟩
  · simp only [used, Mailbox.push, List.length_append, List.length_singleton] at hlt ⊢; omega
  · have := hf.full_of_waiting ho hne
    omega

theorem Fair.joinLine {m : Mailbox α} (hf : m.Fair) (hr : m.hasRoom = false) (t : Nat) :
    (m.joinLine t).Fair := by
  have hle := hf.used_le
  have hn : ¬ m.used < m.capacity := fun h => by simp [hasRoom_iff.mpr h] at hr
  exact ⟨hle, fun _ _ => show m.used = m.capacity by omega⟩

/-- A place that is filled by its owner stays one used place. -/
theorem Fair.fill {m : Mailbox α} (hf : m.Fair) {t : Nat} (ht : t ∈ m.granted) (a : α) :
    ({ m with granted := m.granted.erase t }.push a).Fair := by
  have hlen := List.length_erase_of_mem ht
  have hpos := List.length_pos_of_mem ht
  have hused : ({ m with granted := m.granted.erase t }.push a).used = m.used := by
    simp only [used, Mailbox.push, List.length_append, List.length_singleton]; omega
  exact ⟨hused ▸ hf.used_le, fun ho hne => hused ▸ hf.full_of_waiting ho hne⟩

theorem Fair.take {m : Mailbox α} (hf : m.Fair) {a : α} {rest : List α} (hq : m.queue = a :: rest) :
    ({ m with queue := rest }.grant).Fair := by
  have hle := hf.used_le
  have hlen : m.queue.length = rest.length + 1 := by rw [hq]; rfl
  apply fair_grant
  · simp only [used] at hle ⊢; omega
  · intro ho hne
    have := hf.full_of_waiting ho hne
    simp only [used] at this ⊢; omega

/-! ## The end of the receiver -/

@[simp] theorem close_capacity (m : Mailbox α) : m.close.capacity = m.capacity := by
  unfold close; split <;> rfl

@[simp] theorem close_accepted (m : Mailbox α) : m.close.accepted = m.accepted := by
  unfold close; split <;> rfl

@[simp] theorem close_line (m : Mailbox α) : m.close.line = m.line := by
  unfold close; split <;> rfl

theorem close_used (m : Mailbox α) : m.close.used = m.used := by
  unfold close; split <;> rfl

theorem close_isOpen (m : Mailbox α) : m.close.isOpen = false := by
  unfold close isOpen
  split <;> simp_all

theorem Fair.close {m : Mailbox α} (hf : m.Fair) : m.close.Fair := by
  refine ⟨?_, fun ho => by simp [close_isOpen] at ho⟩
  rw [close_used, close_capacity]
  exact hf.used_le

theorem Fair.drop {m : Mailbox α} (hf : m.Fair) : m.drop.Fair := by
  have hle := hf.used_le
  refine ⟨?_, fun ho => by simp [isOpen, Mailbox.drop] at ho⟩
  simp only [used, Mailbox.drop, List.length_nil] at hle ⊢; omega

theorem take?_eq_some {m m' : Mailbox α} {a : α} :
    m.take? = some (a, m') ↔ ∃ rest, m.queue = a :: rest ∧ m' = { m with queue := rest }.grant := by
  unfold take?
  split
  · simp [*]
  · rename_i b rest hq
    rw [hq]
    constructor
    · rintro h
      simp only [Option.some.injEq, Prod.mk.injEq] at h
      exact ⟨rest, by rw [h.1], h.2.symm⟩
    · rintro ⟨rest', h, rfl⟩
      obtain ⟨rfl, rfl⟩ := List.cons.inj h
      rfl

theorem take?_eq_none {m : Mailbox α} : m.take? = none ↔ m.queue = [] := by
  unfold take?
  split <;> simp [*]

end HealthRelay.Mailbox
