import HealthRelay.Token

/-!
# Trees of tokens

`token?` is the token that a name stands for. In a tree that `IsRooted`, where names are fresh and
parents are older than their children, whether a token is cancelled depends on what `token?` answers
and on nothing else (`isCancelled_eq`); so it is enough to know what `token?` answers after a token
has been added (`token?_add`) or has fired (`token?_fire`).
-/

namespace HealthRelay.TokenTree

variable {ν : Type} [DecidableEq ν] {ts : TokenTree ν} {name other : ν}

def token? : TokenTree ν → ν → Option (Token ν)
  | [], _ => none
  | t :: older, name => if t.name = name then some t else token? older name

/-- Every name is borne by one token, and every parent is older than its children. -/
def IsRooted : TokenTree ν → Prop
  | [] => True
  | t :: older => token? older t.name = none ∧
      (∀ p, t.parent = some p → ∃ u, token? older p = some u) ∧ IsRooted older

theorem isRooted_root (name : ν) : IsRooted (add [] name none) :=
  ⟨rfl, fun p h => (by cases h), trivial⟩

theorem token?_add (ts : TokenTree ν) (name : ν) (parent : Option ν) (other : ν) :
    (ts.add name parent).token? other =
      if name = other then some ⟨name, parent, false⟩ else ts.token? other := rfl

/-- A token that fires changes nothing else, and no other token. -/
theorem token?_fire (ts : TokenTree ν) (name other : ν) :
    (ts.fire name).token? other =
      if name = other then (ts.token? other).map fun t => { t with hasFired := true }
      else ts.token? other := by
  induction ts with
  | nil => simp [fire, token?]
  | cons t older ih =>
    by_cases ht : t.name = name
    · subst ht
      by_cases ho : t.name = other
      · simp [fire, token?, ho]
      · simp [fire, token?, ho]
    · by_cases ho : t.name = other
      · subst ho
        simp [fire, token?, ht, Ne.symm ht]
      · simp [fire, token?, ht, ho, ih]

theorem IsRooted.add (h : ts.IsRooted) {parent : Option ν} (hfresh : ts.token? name = none)
    (hp : ∀ p, parent = some p → ∃ u, ts.token? p = some u) : (ts.add name parent).IsRooted :=
  ⟨hfresh, hp, h⟩

theorem token?_fire_eq_none : (ts.fire name).token? other = none ↔ ts.token? other = none := by
  rw [token?_fire]
  split <;> simp

theorem IsRooted.fire (h : ts.IsRooted) (name : ν) : (ts.fire name).IsRooted := by
  induction ts with
  | nil => trivial
  | cons t older ih =>
    obtain ⟨hfresh, hp, hr⟩ := h
    by_cases ht : t.name = name
    · simp only [TokenTree.fire, ht, ↓reduceIte]
      exact ⟨ht ▸ hfresh, hp, hr⟩
    · simp only [TokenTree.fire, ht, ↓reduceIte]
      refine ⟨token?_fire_eq_none.mpr hfresh, fun p hpt => ?_, ih hr⟩
      obtain ⟨u, hu⟩ := hp p hpt
      have hne : token? (TokenTree.fire older name) p ≠ none := by
        rw [ne_eq, token?_fire_eq_none, hu]
        simp
      exact Option.ne_none_iff_exists'.mp hne

/-- The parent of a token bears a name of the tree. -/
theorem IsRooted.has_parent (h : ts.IsRooted) {t : Token ν} {p : ν} (ht : ts.token? name = some t)
    (hp : t.parent = some p) : ∃ u, ts.token? p = some u := by
  induction ts with
  | nil => cases ht
  | cons u older ih =>
    obtain ⟨hfresh, hparent, hr⟩ := h
    have hold : ∃ v, token? older p = some v := by
      by_cases hu : u.name = name
      · rw [token?, if_pos hu] at ht
        cases ht
        exact hparent p hp
      · rw [token?, if_neg hu] at ht
        exact ih hr ht
    by_cases hup : u.name = p
    · exact ⟨u, if_pos hup⟩
    · rw [token?, if_neg hup]
      exact hold

/-- **A token is cancelled if it has fired or its parent is cancelled.** -/
theorem isCancelled_eq (h : ts.IsRooted) {t : Token ν} (ht : ts.token? name = some t) :
    ts.isCancelled name = (t.hasFired || t.parent.elim false ts.isCancelled) := by
  induction ts with
  | nil => cases ht
  | cons u older ih =>
    obtain ⟨hfresh, hparent, hr⟩ := h
    -- a name of the older tokens is not that of the newest
    have hold : ∀ p v, token? older p = some v →
        isCancelled (u :: older) p = isCancelled older p := by
      intro p v hv
      have hne : u.name ≠ p := by
        rintro rfl
        cases hfresh.symm.trans hv
      rw [isCancelled, if_neg hne]
    by_cases hu : u.name = name
    · rw [token?, if_pos hu] at ht
      cases ht
      rw [isCancelled, if_pos hu]
      cases hp : t.parent with
      | none => rfl
      | some p =>
        obtain ⟨v, hv⟩ := hparent p hp
        rw [Option.elim_some, hold p v hv]
    · rw [token?, if_neg hu] at ht
      rw [hold name t ht, ih hr ht]
      cases hp : t.parent with
      | none => rfl
      | some p =>
        obtain ⟨v, hv⟩ := hr.has_parent ht hp
        rw [Option.elim_some, Option.elim_some, hold p v hv]

theorem isCancelled_of_hasFired (h : ts.IsRooted) {t : Token ν} (ht : ts.token? name = some t)
    (hf : t.hasFired = true) : ts.isCancelled name = true := by
  rw [isCancelled_eq h ht, hf, Bool.true_or]

/-- No token is a child of the one of this name. -/
def IsLeaf (name : ν) (ts : TokenTree ν) : Prop :=
  ∀ k t, ts.token? k = some t → t.parent ≠ some name

theorem IsLeaf.fire (hl : ts.IsLeaf name) (other : ν) : (ts.fire other).IsLeaf name := by
  intro k t ht
  rw [token?_fire] at ht
  by_cases hk : other = k
  · rw [if_pos hk, Option.map_eq_some_iff] at ht
    obtain ⟨u, hu, rfl⟩ := ht
    exact hl k u hu
  · rw [if_neg hk] at ht
    exact hl k t ht

/-- **A token without children that fires cancels no other.** -/
theorem isCancelled_fire_of_leaf (h : ts.IsRooted) (hl : ts.IsLeaf name) (hne : other ≠ name) :
    (ts.fire name).isCancelled other = ts.isCancelled other := by
  induction ts generalizing other with
  | nil => rfl
  | cons t older ih =>
    obtain ⟨hfresh, -, hr⟩ := h
    have hold : IsLeaf name older := by
      intro k u hu
      refine hl k u ?_
      have hk : t.name ≠ k := by
        rintro rfl
        cases hfresh.symm.trans hu
      rwa [token?, if_neg hk]
    by_cases ht : t.name = name
    · have hother : t.name ≠ other := fun h => hne (h.symm.trans ht)
      rw [TokenTree.fire, if_pos ht, isCancelled, isCancelled, if_neg hother, if_neg hother]
    · rw [TokenTree.fire, if_neg ht, isCancelled, isCancelled, ih hr hold hne]
      have hparent := hl t.name t (if_pos rfl)
      cases hp : t.parent with
      | none => rfl
      | some p =>
        simp only [ih hr hold fun h => hparent (hp.trans (congrArg some h))]

end HealthRelay.TokenTree
