import HealthRelay.Proofs.Json.Syntax

/-!
# Exactly one value is passed over

`skipValue` keeps what is still open on a stack, and the grammar knows of no stack. In one direction
a phrase is passed over wherever it may stand: whatever comes of going on after it comes of starting
before it (`Derives.passes`). In the other, the text after a value has to finish all that is open
around it (`Closes`), and every run that ends well has such tokens behind it (`skipsValues`).
-/

namespace HealthRelay.Json

open Text

/-! ## Steps of passing over -/

/-- What comes before the next value inside a list or an object. -/
def enter : Nesting → Bytes → Except Error Bytes
  | .list, bs => .ok bs
  | .object, bs => skipKey bs

/-- Going on after a value, or an opening, once closed lists and objects are passed over. -/
def resume (fuel : Nat) : Option (Nesting × List Nesting) × Bytes → Except Error Bytes
  | (none, rest) => .ok rest
  | (some (n, below), rest) => do
    let rest ← enter n rest
    skipInside fuel (n :: below) rest

section Steps

variable {stack : List Nesting} {n : Nesting} {bs rest : Bytes}

theorem skipInside_past (h : skipStart bs = .ok (.past rest)) (fuel : Nat) :
    skipInside (fuel + 1) stack bs = closeOpen true rest.length stack rest >>= resume fuel := by
  rw [skipInside, h]
  simp only [ok_bind]
  congr
  funext ⟨next, rest⟩
  rcases next with _ | ⟨_ | _, below⟩ <;> rfl

theorem skipInside_opened (h : skipStart bs = .ok (.opened n rest)) (fuel : Nat) :
    skipInside (fuel + 1) stack bs =
      closeOpen false rest.length (n :: stack) rest >>= resume fuel := by
  rw [skipInside, h]
  simp only [ok_bind]
  congr
  funext ⟨next, rest⟩
  rcases next with _ | ⟨_ | _, below⟩ <;> rfl

theorem close_ne_comma (n : Nesting) : n.close ≠ ascii ',' := by
  cases n <;> decide

theorem closeOpen_nil (afterValue : Bool) (fuel : Nat) (bs : Bytes) :
    closeOpen afterValue fuel [] bs = .ok (none, bs) := by
  cases fuel <;> rfl

theorem closeOpen_close (h : skipBlanks bs = n.close :: rest) (afterValue : Bool) (fuel : Nat) :
    closeOpen afterValue (fuel + 1) (n :: stack) bs = closeOpen true fuel stack rest := by
  simp only [closeOpen, h, close_ne_comma, false_and, ↓reduceIte]

theorem closeOpen_comma (h : skipBlanks bs = ascii ',' :: rest) (fuel : Nat) :
    closeOpen true (fuel + 1) (n :: stack) bs = .ok (some (n, stack), rest) := by
  simp only [closeOpen, h, and_self, ↓reduceIte]

theorem closeOpen_inside {b : UInt8} (h : skipBlanks bs = b :: rest) (hb : b ≠ n.close)
    (fuel : Nat) :
    closeOpen false (fuel + 1) (n :: stack) bs = .ok (some (n, stack), b :: rest) := by
  simp only [closeOpen, h, Bool.false_eq_true, and_false, if_neg hb, ↓reduceIte]

end Steps

/-! ## Passing over a phrase -/

/-- Passing over a value, inside all that is open, and over the rest of that ends at `out`. -/
def Skips (stack : List Nesting) (bs out : Bytes) : Prop :=
  ∀ fuel, bs.length < fuel → skipInside fuel stack bs = .ok out

/-- Going on after a value ends at `out`. -/
def Resumes (stack : List Nesting) (bs out : Bytes) : Prop :=
  ∀ closing fuel, bs.length ≤ closing → bs.length < fuel →
    (closeOpen true closing stack bs >>= resume fuel) = .ok out

/-- Going on where an element or a member begins ends at `out`. -/
def Enters (n : Nesting) (below : List Nesting) (bs out : Bytes) : Prop :=
  ∃ mid, enter n bs = .ok mid ∧ mid.length ≤ bs.length ∧ Skips (n :: below) mid out

section Rules

variable {stack : List Nesting} {n : Nesting} {bs rest out : Bytes}

theorem lt_of_skipBlanks {b : UInt8} (h : skipBlanks bs = b :: rest) : rest.length < bs.length := by
  obtain ⟨gap, -, hbs⟩ := exists_blanks bs
  rw [hbs, h, List.length_append, List.length_cons]
  omega

theorem Enters.resume {below : List Nesting} (h : Enters n below bs out) {fuel : Nat}
    (hfuel : bs.length < fuel) : Json.resume fuel (some (n, below), bs) = .ok out := by
  obtain ⟨mid, henter, hlength, hskips⟩ := h
  rw [Json.resume, henter, ok_bind]
  exact hskips fuel (by omega)

theorem Resumes.done (bs : Bytes) : Resumes [] bs bs := by
  intro closing fuel _ _
  rw [closeOpen_nil]
  rfl

theorem Resumes.close (hbs : skipBlanks bs = n.close :: rest) (h : Resumes stack rest out) :
    Resumes (n :: stack) bs out := by
  intro closing fuel hclosing hfuel
  have hlt := lt_of_skipBlanks hbs
  obtain ⟨closing, rfl⟩ := Nat.exists_eq_succ_of_ne_zero (show closing ≠ 0 by omega)
  rw [Nat.succ_eq_add_one, closeOpen_close hbs]
  exact h closing fuel (by omega) (by omega)

theorem Resumes.comma (hbs : skipBlanks bs = ascii ',' :: rest) (h : Enters n stack rest out) :
    Resumes (n :: stack) bs out := by
  intro closing fuel hclosing hfuel
  have hlt := lt_of_skipBlanks hbs
  obtain ⟨closing, rfl⟩ := Nat.exists_eq_succ_of_ne_zero (show closing ≠ 0 by omega)
  rw [Nat.succ_eq_add_one, closeOpen_comma hbs, ok_bind]
  exact h.resume (by omega)

theorem Skips.past (hbs : skipStart bs = .ok (.past rest)) (hlt : rest.length < bs.length)
    (h : Resumes stack rest out) : Skips stack bs out := by
  intro fuel hfuel
  obtain ⟨fuel, rfl⟩ := Nat.exists_eq_succ_of_ne_zero (Nat.ne_zero_of_lt hfuel)
  rw [Nat.succ_eq_add_one, skipInside_past hbs]
  exact h _ fuel (Nat.le_refl _) (by omega)

theorem Skips.empty (hbs : skipBlanks bs = n.opening :: rest) {after : Bytes}
    (hclose : skipBlanks rest = n.close :: after) (h : Resumes stack after out) :
    Skips stack bs out := by
  intro fuel hfuel
  have hlt := lt_of_skipBlanks hbs
  have hlt' := lt_of_skipBlanks hclose
  obtain ⟨fuel, rfl⟩ := Nat.exists_eq_succ_of_ne_zero (Nat.ne_zero_of_lt hfuel)
  obtain ⟨k, hk⟩ := Nat.exists_eq_succ_of_ne_zero (Nat.ne_zero_of_lt hlt')
  rw [Nat.succ_eq_add_one, skipInside_opened (skipStart_opening hbs), hk, Nat.succ_eq_add_one,
    closeOpen_close hclose]
  exact h k fuel (by omega) (by omega)

theorem Skips.nested (hbs : skipBlanks bs = n.opening :: rest) {b : UInt8} {after : Bytes}
    (hinside : skipBlanks rest = b :: after) (hb : b ≠ n.close)
    (h : Enters n stack (b :: after) out) : Skips stack bs out := by
  intro fuel hfuel
  have hlt := lt_of_skipBlanks hbs
  have hlt' := lt_of_skipBlanks hinside
  obtain ⟨fuel, rfl⟩ := Nat.exists_eq_succ_of_ne_zero (Nat.ne_zero_of_lt hfuel)
  obtain ⟨k, hk⟩ := Nat.exists_eq_succ_of_ne_zero (Nat.ne_zero_of_lt hlt')
  rw [Nat.succ_eq_add_one, skipInside_opened (skipStart_opening hbs), hk, Nat.succ_eq_add_one,
    closeOpen_inside hinside hb, ok_bind]
  exact h.resume (by rw [List.length_cons]; omega)

end Rules

/-- What passing over a phrase means where `stack` is open around it. -/
def Phrase.Passes : Phrase → List Nesting → Bytes → Bytes → Prop
  | .value, stack, bs, out => Skips stack bs out
  | .item n, stack, bs, out => Enters n stack bs out
  | .items n, stack, bs, out => Enters n stack bs out

/-- What is open where a phrase has ended. -/
def Phrase.inside : Phrase → List Nesting → List Nesting
  | .value, stack => stack
  | .item n, stack => n :: stack
  | .items n, stack => n :: stack

theorem skipKey_lexes {raw : Bytes} {hkey : IsQuoted raw} {bs rest : Bytes}
    (h : Lexes [.text raw hkey, .colon] bs rest) : skipKey bs = .ok rest := by
  obtain ⟨mid, hbs, h⟩ := Lexes.text_iff.mp h
  have hcolon : skipBlanks mid = ascii ':' :: rest := Lexes.single_iff.mp h
  simp only [skipKey, hbs, ↓reduceIte, skipQuoted_append hkey, hcolon]

/-- **A phrase is passed over wherever it may stand**: going on after it leads where starting before
it leads. -/
theorem Derives.passes {p : Phrase} {ts : List Lexeme} (h : Derives p ts) {stack : List Nesting}
    {bs mid out : Bytes} (hlex : Lexes ts bs mid) (hends : EndsNumber mid)
    (hresumes : Resumes (p.inside stack) mid out) : p.Passes stack bs out := by
  -- on the derivation: what is inside a list or an object is passed over with one more open
  induction h generalizing stack bs mid out with
  | literal hraw =>
    have hlength := hlex.length_le
    refine Skips.past (skipStart_literal hraw (Lexes.single_iff.mp hlex) fun _ => hends) ?_ hresumes
    rw [List.length_singleton] at hlength
    omega
  | empty n =>
    obtain ⟨rest, hbs, hclose⟩ := Lexes.cons_iff.mp hlex
    exact Skips.empty hbs (Lexes.single_iff.mp hclose) hresumes
  | @nested n ts hitems ih =>
    obtain ⟨rest, hbs, hinside⟩ := Lexes.cons_iff.mp hlex
    obtain ⟨t, us, ht, rfl⟩ := hitems.head
    have hall : Lexes ((t :: us) ++ [.closing n]) (skipBlanks rest) mid :=
      Lexes.skipBlanks_iff.mpr hinside
    obtain ⟨after, hts, hclose⟩ := Lexes.append_iff.mp hall
    obtain ⟨first, hfirst, -⟩ := Lexes.cons_iff.mp hinside
    obtain ⟨b, raw, -, hbytes⟩ := t.head
    rw [hbytes, List.cons_append] at hfirst
    refine Skips.nested hbs hfirst (ht.ne_close n hbytes) ?_
    rw [← hfirst]
    exact ih hts (hclose.endsNumber trivial) (.close (Lexes.single_iff.mp hclose) hresumes)
  | element _ ih => exact ⟨bs, rfl, Nat.le_refl _, ih hlex hends hresumes⟩
  | @member raw ts hkey _ ih =>
    have hall : Lexes ([.text raw hkey, .colon] ++ ts) bs mid := hlex
    obtain ⟨after, hcolon, hvalue⟩ := Lexes.append_iff.mp hall
    have hlength := hcolon.length_le
    exact ⟨after, skipKey_lexes hcolon, by omega, ih hvalue hends hresumes⟩
  | last _ ih => exact ih hlex hends hresumes
  | @more n ts us _ _ ih ihmore =>
    obtain ⟨after, hts, hmore⟩ := Lexes.append_iff.mp hlex
    obtain ⟨rest, hcomma, hus⟩ := Lexes.cons_iff.mp hmore
    exact ih hts (hmore.endsNumber trivial) (.comma hcomma (ihmore hus hends hresumes))

/-- **A well-formed value is passed over up to its end**, whatever its nesting. -/
theorem skipValue_lexes {vs : List Lexeme} (h : Derives .value vs) {bs rest : Bytes}
    (hlex : Lexes vs bs rest) (hends : EndsNumber rest) : skipValue bs = .ok rest :=
  (h.passes hlex hends (.done rest) : Skips [] bs rest) _ (Nat.lt_succ_self _)

/-! ## What is passed over -/

/-- The tokens that finish what is open: the rest of each list or object, from the inside out. -/
inductive Closes : List Nesting → List Lexeme → Prop
  | nil : Closes [] []
  | close {n : Nesting} {stack : List Nesting} {ts : List Lexeme} (h : Closes stack ts) :
      Closes (n :: stack) (.closing n :: ts)
  | more {n : Nesting} {stack : List Nesting} {us ts : List Lexeme} (hitems : Derives (.items n) us)
      (h : Closes stack ts) : Closes (n :: stack) (.comma :: (us ++ .closing n :: ts))

theorem Closes.closings {stack : List Nesting} {ts : List Lexeme} (h : Closes stack ts)
    (above : List Nesting) : Closes (above ++ stack) (above.map .closing ++ ts) := by
  induction above with
  | nil => exact h
  | cons n above ih => exact .close ih

/-- Another element or member comes before what finishes the list or object. -/
theorem Closes.item {n : Nesting} {stack : List Nesting} {us ts : List Lexeme}
    (hitem : Derives (.item n) us) (h : Closes (n :: stack) ts) :
    Closes (n :: stack) (.comma :: (us ++ ts)) := by
  cases h with
  | close h => exact .more (.last hitem) h
  | @more _ _ ws ts hitems h =>
    have hmore : Closes (n :: stack) (.comma :: ((us ++ .comma :: ws) ++ .closing n :: ts)) :=
      .more (.more hitem hitems) h
    simpa using hmore

/-- A first element or member and what finishes the list or object around it make a value. -/
theorem Closes.value {n : Nesting} {stack : List Nesting} {us ts : List Lexeme}
    (hitem : Derives (.item n) us) (h : Closes (n :: stack) ts) :
    ∃ vs ws, Derives .value vs ∧ Closes stack ws ∧ .opening n :: (us ++ ts) = vs ++ ws := by
  cases h with
  | @close _ _ ts h => exact ⟨_, ts, .nested (.last hitem), h, by simp⟩
  | @more _ _ ws ts hitems h => exact ⟨_, ts, .nested (.more hitem hitems), h, by simp⟩

section Sound

variable {stack : List Nesting} {n : Nesting} {bs rest : Bytes}

theorem lexes_of_closeOpen {fuel : Nat} {next : Option (Nesting × List Nesting)}
    (h : closeOpen true fuel stack bs = .ok (next, rest)) :
    (next = none ∧ Lexes (stack.map .closing) bs rest) ∨
      ∃ above n below, next = some (n, below) ∧ stack = above ++ n :: below ∧
        Lexes (above.map .closing ++ [.comma]) bs rest := by
  induction fuel generalizing stack bs with
  | zero =>
    cases stack with
    | nil =>
      cases h
      exact .inl ⟨rfl, .nil rest⟩
    | cons top below => cases h
  | succ fuel ih =>
    cases stack with
    | nil =>
      cases h
      exact .inl ⟨rfl, .nil rest⟩
    | cons top below =>
      rw [closeOpen] at h
      split at h
      · cases h
      · rename_i b after hbs
        split at h
        · rename_i hb
          cases h
          exact .inr ⟨[], top, below, rfl, rfl, Lexes.single_iff.mpr (by rw [hbs, hb.1]; rfl)⟩
        · split at h
          · rename_i hb
            have hclose : Lexes [.closing top] bs after :=
              Lexes.single_iff.mpr (by rw [hbs, hb]; rfl)
            rcases ih h with ⟨rfl, hlex⟩ | ⟨above, n, below', rfl, rfl, hlex⟩
            · exact .inl ⟨rfl, hclose.append hlex⟩
            · exact .inr ⟨top :: above, n, below', rfl, rfl, hclose.append hlex⟩
          · split at h
            · cases h
            · contradiction

theorem of_closeOpen_false {fuel : Nat} {next : Option (Nesting × List Nesting)}
    (h : closeOpen false fuel (n :: stack) bs = .ok (next, rest)) :
    (∃ fuel' after, skipBlanks bs = n.close :: after ∧
        closeOpen true fuel' stack after = .ok (next, rest)) ∨
      (next = some (n, stack) ∧ rest = skipBlanks bs) := by
  cases fuel with
  | zero => cases h
  | succ fuel =>
    rw [closeOpen] at h
    split at h
    · cases h
    · rename_i b after hbs
      split at h
      · rename_i hb
        cases hb.2
      · split at h
        · rename_i hb
          exact .inl ⟨fuel, after, by rw [hbs, hb], h⟩
        · split at h
          · contradiction
          · cases h
            exact .inr ⟨rfl, hbs.symm⟩

theorem lexes_of_skipKey (h : skipKey bs = .ok rest) :
    ∃ raw, ∃ hkey : IsQuoted raw, Lexes [.text raw hkey, .colon] bs rest := by
  unfold skipKey at h
  split at h
  · cases h
  · rename_i b after hbs
    split at h
    · rename_i hb
      split at h
      · cases h
      · rename_i mid hquoted
        obtain ⟨raw, hraw, rfl⟩ := quoted_of_skipQuoted hquoted
        split at h
        · cases h
        · rename_i c after hcolon
          split at h
          · rename_i hc
            cases h
            have hmid : Lexes [.colon] mid rest := Lexes.single_iff.mpr (by rw [hcolon, hc]; rfl)
            exact ⟨raw, hraw, Lexes.text_iff.mpr ⟨mid, by rw [hbs, hb], hmid⟩⟩
          · cases h
    · cases h

/-- What comes before a value that is entered makes it an element or a member. -/
theorem item_of_enter {mid : Bytes} (h : enter n bs = .ok mid) {vs ts : List Lexeme}
    (hvalue : Derives .value vs) (hlex : Lexes (vs ++ ts) mid rest) :
    ∃ us, Derives (.item n) us ∧ Lexes (us ++ ts) bs rest := by
  cases n with
  | list =>
    cases h
    exact ⟨vs, .element hvalue, hlex⟩
  | object =>
    obtain ⟨raw, hkey, hcolon⟩ := lexes_of_skipKey h
    exact ⟨_, .member hkey hvalue, hcolon.append hlex⟩

/-- A run with this fuel that ends well has passed over a value and over what finishes all that was
open around it. -/
def SkipsValues (fuel : Nat) : Prop :=
  ∀ stack bs rest, skipInside fuel stack bs = .ok rest →
    ∃ vs ts, Derives .value vs ∧ Closes stack ts ∧ Lexes (vs ++ ts) bs rest

theorem SkipsValues.enter {fuel : Nat} (h : SkipsValues fuel) {mid : Bytes}
    (henter : Json.enter n bs = .ok mid) (hrun : skipInside fuel (n :: stack) mid = .ok rest) :
    ∃ us ts, Derives (.item n) us ∧ Closes (n :: stack) ts ∧ Lexes (us ++ ts) bs rest := by
  obtain ⟨vs, ts, hvalue, hcloses, hlex⟩ := h _ _ _ hrun
  obtain ⟨us, hitem, hus⟩ := item_of_enter henter hvalue hlex
  exact ⟨us, ts, hitem, hcloses, hus⟩

/-- After a value, what is open is closed one by one, or goes on after a comma. -/
theorem SkipsValues.resume {fuel closing : Nat} (h : SkipsValues fuel)
    (hrun : (closeOpen true closing stack bs >>= Json.resume fuel) = .ok rest) :
    ∃ ts, Closes stack ts ∧ Lexes ts bs rest := by
  obtain ⟨⟨next, mid⟩, hclose, hnext⟩ := bind_eq_ok hrun
  rcases lexes_of_closeOpen hclose with ⟨rfl, hlex⟩ | ⟨above, n, below, rfl, rfl, hlex⟩
  · cases hnext
    exact ⟨_, by simpa using Closes.nil.closings stack, hlex⟩
  · obtain ⟨entered, henter, hnext⟩ := bind_eq_ok hnext
    obtain ⟨us, ts, hitem, hcloses, hus⟩ := h.enter henter hnext
    exact ⟨_, (hcloses.item hitem).closings above, by simpa using hlex.append hus⟩

theorem SkipsValues.succ {fuel : Nat} (h : SkipsValues fuel) : SkipsValues (fuel + 1) := by
  intro stack bs rest hrun
  obtain ⟨start, hstart, -⟩ := bind_eq_ok hrun
  rcases of_skipStart hstart with ⟨raw, mid, rfl, hraw, hbs⟩ | ⟨n, mid, rfl, hbs⟩
  · rw [skipInside_past hstart] at hrun
    obtain ⟨ts, hcloses, hlex⟩ := h.resume hrun
    exact ⟨[.literal raw hraw], ts, .literal hraw, hcloses, Lexes.cons_iff.mpr ⟨mid, hbs, hlex⟩⟩
  · rw [skipInside_opened hstart] at hrun
    obtain ⟨⟨next, entered⟩, hclose, hnext⟩ := bind_eq_ok hrun
    rcases of_closeOpen_false hclose with ⟨closing, after, hafter, hclose⟩ | ⟨rfl, rfl⟩
    · obtain ⟨ts, hcloses, hlex⟩ := h.resume (by rw [hclose, ok_bind, hnext])
      exact ⟨_, ts, .empty n, hcloses,
        Lexes.cons_iff.mpr ⟨mid, hbs, Lexes.cons_iff.mpr ⟨after, hafter, hlex⟩⟩⟩
    · obtain ⟨inside, henter, hnext⟩ := bind_eq_ok hnext
      obtain ⟨us, ts, hitem, hcloses, hus⟩ := h.enter henter hnext
      obtain ⟨vs, ts', hvalue, hcloses', heq⟩ := hcloses.value hitem
      obtain ⟨t, us, -, rfl⟩ := hitem.head
      exact ⟨vs, ts', hvalue, hcloses',
        heq ▸ Lexes.cons_iff.mpr ⟨mid, hbs, Lexes.skipBlanks_iff.mp hus⟩⟩

theorem skipsValues (fuel : Nat) : SkipsValues fuel := by
  induction fuel with
  | zero =>
    intro stack bs rest h
    cases h
  | succ fuel ih => exact ih.succ

end Sound

/-- **Nothing but a well-formed value is passed over.** -/
theorem lexes_of_skipValue {bs rest : Bytes} (h : skipValue bs = .ok rest) :
    ∃ vs, Derives .value vs ∧ Lexes vs bs rest := by
  obtain ⟨vs, ts, hvalue, hcloses, hlex⟩ := skipsValues _ _ _ _ h
  cases hcloses
  exact ⟨vs, hvalue, by simpa using hlex⟩

end HealthRelay.Json
