import HealthRelay.Text.Blank

/-!
# What trimming leaves

`IsTrimmed cs text` says what a text is without the white space around it, in terms of the text
alone. There is one such text (`trim_eq_iff`), so a reader that trims first is described by what it
does with that one.
-/

namespace HealthRelay.Text

/-- `text` stands in `cs` with nothing but white space around it, and has none at its own ends. -/
structure IsTrimmed (cs text : List Char) : Prop where
  around : ∃ lead trail, (∀ c ∈ lead, isBlank c = true) ∧ (∀ c ∈ trail, isBlank c = true) ∧
    cs = lead ++ text ++ trail
  head : ∀ c ∈ text.head?, isBlank c = false
  last : ∀ c ∈ text.getLast?, isBlank c = false

/-! ## The end of a text -/

theorem trimEnd_blank {cs : List Char} (h : ∀ c ∈ cs, isBlank c = true) : trimEnd cs = [] := by
  induction cs with
  | nil => rfl
  | cons c cs ih =>
    rw [trimEnd, ih fun d hd => h d (List.mem_cons_of_mem c hd)]
    exact if_pos (h c List.mem_cons_self)

/-- What ends in a character that is not blank stays, and the white space after it goes. -/
theorem trimEnd_concat {c : Char} (h : isBlank c = false) (cs : List Char) {trail : List Char}
    (htrail : ∀ d ∈ trail, isBlank d = true) : trimEnd (cs ++ c :: trail) = cs ++ [c] := by
  induction cs with
  | nil => simp [trimEnd, trimEnd_blank htrail, h]
  | cons d ds ih =>
    rw [List.cons_append, trimEnd, ih]
    cases ds <;> rfl

theorem trimEnd_append (cs : List Char) :
    ∃ trail, (∀ c ∈ trail, isBlank c = true) ∧ cs = trimEnd cs ++ trail := by
  induction cs with
  | nil => exact ⟨[], by simp, rfl⟩
  | cons c cs ih =>
    obtain ⟨trail, htrail, hcs⟩ := ih
    rw [trimEnd]
    split
    · rename_i hend
      rw [hend, List.nil_append] at hcs
      split
      · rename_i hc
        refine ⟨c :: trail, ?_, by rw [hcs, List.nil_append]⟩
        simpa [hc] using htrail
      · exact ⟨trail, htrail, by rw [hcs, List.singleton_append]⟩
    · rename_i d ds hend
      rw [hend] at hcs
      exact ⟨trail, htrail, by rw [List.cons_append, ← hcs]⟩

theorem trimEnd_last (cs : List Char) : ∀ c ∈ (trimEnd cs).getLast?, isBlank c = false := by
  induction cs with
  | nil => simp [trimEnd]
  | cons c cs ih =>
    rw [trimEnd]
    split
    · split
      · simp
      · simpa using ‹¬ isBlank c = true›
    · rename_i d ds hend
      rw [hend] at ih
      rwa [List.getLast?_cons_cons]

/-! ## Both ends -/

theorem trimStart_append {lead : List Char} (h : ∀ c ∈ lead, isBlank c = true) (cs : List Char) :
    trimStart (lead ++ cs) = trimStart cs :=
  List.dropWhile_append_of_pos h

theorem isTrimmed_trim (cs : List Char) : IsTrimmed cs (trim cs) := by
  obtain ⟨trail, htrail, hend⟩ := trimEnd_append (trimStart cs)
  have hstart : cs = cs.takeWhile isBlank ++ trimStart cs := List.takeWhile_append_dropWhile.symm
  refine ⟨⟨cs.takeWhile isBlank, trail, List.all_eq_true.mp List.all_takeWhile, htrail, ?_⟩, ?_,
    trimEnd_last _⟩
  · rw [List.append_assoc, trim, ← hend]
    exact hstart
  · intro c hc
    obtain ⟨rest, hrest⟩ := List.head?_eq_some_iff.mp hc
    have hhead := List.head?_dropWhile_not isBlank cs
    rw [trim] at hrest
    rw [show cs.dropWhile isBlank = trimStart cs from rfl, hend, hrest] at hhead
    simpa using hhead

theorem IsTrimmed.trim_eq {cs text : List Char} (h : IsTrimmed cs text) : trim cs = text := by
  obtain ⟨⟨lead, trail, hlead, htrail, rfl⟩, hhead, hlast⟩ := h
  rw [List.append_assoc, trim, trimStart_append hlead]
  cases text with
  | nil =>
    have hall := trimStart_append htrail []
    rw [List.append_nil] at hall
    rw [List.nil_append, hall]
    rfl
  | cons c cs =>
    -- the text begins and ends with characters that are not blank, perhaps the same one
    have hc : isBlank c = false := hhead c rfl
    rw [List.cons_append, trimStart, List.dropWhile_cons_of_neg (by simp [hc]),
      ← List.cons_append]
    obtain ⟨ds, d, hd⟩ : ∃ ds d, c :: cs = ds ++ [d] :=
      ⟨_, _, (List.dropLast_concat_getLast (List.cons_ne_nil c cs)).symm⟩
    rw [hd] at hlast ⊢
    rw [List.append_assoc]
    exact trimEnd_concat (hlast d (by simp)) ds htrail

/-- Nothing more comes off what was trimmed. -/
theorem IsTrimmed.trim_self {cs text : List Char} (h : IsTrimmed cs text) : trim text = text :=
  IsTrimmed.trim_eq ⟨⟨[], [], by simp, by simp, by simp⟩, h.head, h.last⟩

/-- **Trimming leaves the one text that has white space around it and none at its ends.** -/
theorem trim_eq_iff {cs text : List Char} : trim cs = text ↔ IsTrimmed cs text :=
  ⟨fun h => h ▸ isTrimmed_trim cs, IsTrimmed.trim_eq⟩

end HealthRelay.Text
