import HealthRelay.Proofs.Json.Reader
import HealthRelay.Proofs.Json.Record

/-!
# Objects are read by their members

An object is the list of its members (`Binding`): the spelling of each key, and the tokens of each
value. What a record is read as depends on that list alone, and not on the blanks in the text
(`Shape.readDocument_iff`): each member takes the draft one step on (`Adds`). Where the fields do not
touch each other (`Independent`) it does not depend on the order either (`Folds.perm`), so a member
may be looked at as if it came last.
-/

namespace HealthRelay.Json

open Text

/-! ## Members and their tokens -/

/-- A member as it stands in an object. -/
structure Binding where
  /-- The key as it is spelled between its quotes. -/
  raw : Bytes
  /-- The key that the spelling stands for. -/
  key : String
  value : List Lexeme
  spells : readQuoted (raw ++ [ascii '"']) = .ok (key, [])
  isValue : Derives .value value

theorem Binding.reads (e : Binding) :
    IsQuoted e.raw ∧ ∀ rest, readQuoted (e.raw ++ ascii '"' :: rest) = .ok (e.key, rest) := by
  obtain ⟨raw, hraw, heq, hall⟩ := of_readQuoted e.spells
  obtain rfl := List.append_cancel_right heq
  exact ⟨hraw, hall⟩

def Binding.tokens (e : Binding) : List Lexeme := .text e.raw e.reads.1 :: .colon :: e.value

def separator (first : Bool) : List Lexeme := if first then [] else [.comma]

/-- The members from one on, with the end of the object. -/
def membersTokens (first : Bool) : List Binding → List Lexeme
  | [] => [.closing .object]
  | e :: es => separator first ++ (e.tokens ++ membersTokens false es)

def objectTokens (es : List Binding) : List Lexeme := .opening .object :: membersTokens true es

/-- The text is an object with these members, with nothing but blanks around it. -/
def IsObject (es : List Binding) (bs : Bytes) : Prop :=
  ∃ gap, Blanks gap ∧ Lexes (objectTokens es) bs gap

/-- Any members have a text. -/
theorem isObject_bytes (es : List Binding) :
    IsObject es ((objectTokens es).flatMap Lexeme.bytes) :=
  ⟨[], by simp [Blanks], lexes_bytes (objectTokens es)⟩

theorem length_lt_membersTokens (first : Bool) (es : List Binding) :
    es.length < (membersTokens first es).length := by
  induction es generalizing first with
  | nil => exact Nat.zero_lt_one
  | cons e es ih =>
    have hrest := ih false
    simp only [membersTokens, Binding.tokens, List.length_append, List.length_cons]
    omega

theorem endsNumber_members {es : List Binding} {bs rest : Bytes}
    (h : Lexes (membersTokens false es) bs rest) : EndsNumber bs := by
  cases es with
  | nil => exact h.endsNumber trivial
  | cons e es => exact h.endsNumber trivial

/-! ## Keys and colons -/

section Steps

variable {first : Bool} {raw bs mid rest : Bytes} {ts : List Lexeme}

theorem nextKey_closing (first : Bool) (h : Lexes [.closing .object] bs rest) :
    nextKey first bs = .ok (false, rest) := by
  have hclose : skipBlanks bs = ascii '\x7d' :: rest := Lexes.single_iff.mp h
  simp only [nextKey, hclose, ↓reduceIte]

theorem nextKey_text {hraw : IsQuoted raw}
    (h : Lexes (separator first ++ .text raw hraw :: ts) bs rest) :
    ∃ mid, nextKey first bs = .ok (true, raw ++ ascii '"' :: mid) ∧ Lexes ts mid rest := by
  cases first with
  | true =>
    obtain ⟨mid, hbs, hts⟩ := Lexes.text_iff.mp h
    refine ⟨mid, ?_, hts⟩
    simp only [nextKey, hbs, show ascii '"' ≠ ascii '\x7d' by decide, ↓reduceIte]
  | false =>
    obtain ⟨after, hcomma, htext⟩ := Lexes.cons_iff.mp h
    obtain ⟨mid, hafter, hts⟩ := Lexes.text_iff.mp htext
    have hbs : skipBlanks bs = ascii ',' :: after := hcomma
    refine ⟨mid, ?_, hts⟩
    simp only [nextKey, hbs, hafter, show ascii ',' ≠ ascii '\x7d' by decide, Bool.false_eq_true,
      ↓reduceIte]

theorem lexes_of_nextKey {more : Bool} (h : nextKey first bs = .ok (more, rest)) :
    (more = false ∧ Lexes [.closing .object] bs rest) ∨
      (more = true ∧ ∀ raw (hraw : IsQuoted raw) mid, rest = raw ++ ascii '"' :: mid →
        Lexes (separator first ++ [.text raw hraw]) bs mid) := by
  unfold nextKey at h
  split at h
  · cases h
  rename_i b after hbs
  split at h
  · rename_i hb
    cases h
    exact .inl ⟨rfl, Lexes.single_iff.mpr (by rw [hbs, hb]; rfl)⟩
  split at h
  · rename_i hfirst
    subst hfirst
    split at h
    · rename_i hb
      cases h
      refine .inr ⟨rfl, fun raw hraw mid hrest => Lexes.text_iff.mpr ⟨mid, ?_, .nil mid⟩⟩
      rw [hbs, hb, hrest]
    · cases h
  rename_i hfirst
  split at h
  · rename_i hb
    split at h
    · cases h
    rename_i c after' hafter
    split at h
    · rename_i hc
      cases h
      refine .inr ⟨rfl, fun raw hraw mid hrest => ?_⟩
      have hcomma : Lexes [.comma] bs after := Lexes.single_iff.mpr (by rw [hbs, hb]; rfl)
      have htext : Lexes [.text raw hraw] after mid :=
        Lexes.text_iff.mpr ⟨mid, by rw [hafter, hc, hrest], .nil mid⟩
      rw [separator, if_neg hfirst]
      exact hcomma.append htext
    · split at h <;> cases h
  · cases h

theorem readColon_eq_ok_iff : readColon bs = .ok rest ↔ Lexes [.colon] bs rest := by
  rw [Lexes.single_iff]
  simp only [Lexeme.bytes, List.singleton_append, readColon]
  constructor
  · intro h
    split at h
    · cases h
    rename_i b after hbs
    split at h
    · rename_i hb
      cases h
      rw [hbs, hb]
    · cases h
  · intro h
    simp only [h, ↓reduceIte]

end Steps

/-! ## What a member does to a draft -/

variable {σ α : Type}

/-- A member takes the draft to another one: through the field that bears its key, which has not been
given before, or not at all if there is none. -/
inductive Adds (fields : List (FieldReader σ)) (draft : σ) (e : Binding) : σ → Prop
  | known {field : FieldReader σ} {set : σ → σ}
      (bears : fields.find? (fun field => field.key == e.key) = some field)
      (isNew : field.isGiven draft = false) (takes : Takes field.read e.value set) :
      Adds fields draft e (set draft)
  | unknown (bears : fields.find? (fun field => field.key == e.key) = none) :
      Adds fields draft e draft

/-- The members take `draft` to `last`, one after the other. -/
inductive Folds (fields : List (FieldReader σ)) : σ → List Binding → σ → Prop
  | nil (draft : σ) : Folds fields draft [] draft
  | cons {draft next last : σ} {e : Binding} {es : List Binding} (adds : Adds fields draft e next)
      (rest : Folds fields next es last) : Folds fields draft (e :: es) last

section Reading

variable {fields : List (FieldReader σ)} (hfields : ∀ field ∈ fields, ReadsValues field.read)
include hfields

/-- What is read after a key is what the member does, and its value is read up to its end. -/
theorem readMember_iff {e : Binding} {draft next : σ} {bs mid out : Bytes}
    (hlex : Lexes (.colon :: e.value) bs mid) (hmid : EndsNumber mid) :
    readMember fields e.key draft bs = .ok (next, out) ↔ Adds fields draft e next ∧ out = mid := by
  have hall : Lexes ([.colon] ++ e.value) bs mid := hlex
  obtain ⟨after, hcolon, hvalue⟩ := Lexes.append_iff.mp hall
  rw [← readColon_eq_ok_iff] at hcolon
  constructor
  · intro h
    unfold readMember at h
    split at h
    · rename_i field bears
      split at h
      · cases h
      rename_i isNew
      rw [hcolon, ok_bind] at h
      obtain ⟨⟨set, rest⟩, hread, h⟩ := bind_eq_ok h
      cases h
      have htakes := (hfields field (List.mem_of_find?_eq_some bears)).takes _ _ _ _ _ e.isValue
        hvalue hmid hread
      cases hread.symm.trans (htakes after mid hvalue hmid)
      exact ⟨.known bears (by simpa using isNew) htakes, rfl⟩
    · rename_i bears
      rw [hcolon, ok_bind, skipValue_lexes e.isValue hvalue hmid, ok_bind] at h
      cases h
      exact ⟨.unknown bears, rfl⟩
  · rintro ⟨hadds, rfl⟩
    cases hadds with
    | known bears isNew takes =>
      simp only [readMember, bears, isNew, Bool.false_eq_true, ↓reduceIte, hcolon, ok_bind,
        takes after out hvalue hmid]
    | unknown bears =>
      simp only [readMember, bears, hcolon, ok_bind, skipValue_lexes e.isValue hvalue hmid]

/-- **Members are read one by one**, up to the end of their object. -/
theorem readMembers_iff {first : Bool} {fuel : Nat} {es : List Binding} {draft last : σ}
    {bs rest out : Bytes} (hlex : Lexes (membersTokens first es) bs rest)
    (hfuel : es.length < fuel) :
    readMembers fields first fuel draft bs = .ok (last, out) ↔
      Folds fields draft es last ∧ out = rest := by
  -- on the members, each of which costs one unit of fuel
  induction es generalizing first fuel draft bs with
  | nil =>
    obtain ⟨fuel, rfl⟩ := Nat.exists_eq_succ_of_ne_zero (Nat.ne_zero_of_lt hfuel)
    rw [Nat.succ_eq_add_one, readMembers, nextKey_closing first hlex]
    constructor
    · intro h
      cases h
      exact ⟨.nil _, rfl⟩
    · rintro ⟨hfolds, rfl⟩
      cases hfolds
      rfl
  | cons e es ih =>
    obtain ⟨fuel, rfl⟩ := Nat.exists_eq_succ_of_ne_zero (Nat.ne_zero_of_lt hfuel)
    obtain ⟨mid, hkey, hvalue⟩ := nextKey_text hlex
    have hall : Lexes ((.colon :: e.value) ++ membersTokens false es) mid rest := hvalue
    obtain ⟨after, hmember, hmore⟩ := Lexes.append_iff.mp hall
    have hfuel' : es.length < fuel := Nat.lt_of_succ_lt_succ hfuel
    rw [Nat.succ_eq_add_one, readMembers, hkey, ok_bind]
    simp only [↓reduceIte, e.reads.2 mid, ok_bind]
    constructor
    · intro h
      obtain ⟨⟨next, after'⟩, hnext, h⟩ := bind_eq_ok h
      obtain ⟨hadds, rfl⟩ := (readMember_iff hfields hmember (endsNumber_members hmore)).mp hnext
      obtain ⟨hfolds, hout⟩ := (ih hmore hfuel').mp h
      exact ⟨.cons hadds hfolds, hout⟩
    · rintro ⟨hfolds, hout⟩
      cases hfolds with
      | cons hadds hfolds =>
        have hnext := (readMember_iff hfields hmember (endsNumber_members hmore)).mpr ⟨hadds, rfl⟩
        rw [hnext, ok_bind]
        exact (ih hmore hfuel').mpr ⟨hfolds, hout⟩

theorem lexes_of_readMember {key : String} {draft next : σ} {bs rest : Bytes}
    (h : readMember fields key draft bs = .ok (next, rest)) :
    ∃ vs, Derives .value vs ∧ Lexes (.colon :: vs) bs rest := by
  unfold readMember at h
  split at h
  · rename_i field bears
    split at h
    · cases h
    obtain ⟨after, hcolon, h⟩ := bind_eq_ok h
    obtain ⟨⟨set, rest'⟩, hread, h⟩ := bind_eq_ok h
    cases h
    obtain ⟨vs, hvalue, hlex⟩ :=
      (hfields field (List.mem_of_find?_eq_some bears)).lexes _ _ _ hread
    exact ⟨vs, hvalue, (readColon_eq_ok_iff.mp hcolon).append hlex⟩
  · obtain ⟨after, hcolon, h⟩ := bind_eq_ok h
    obtain ⟨rest', hskip, h⟩ := bind_eq_ok h
    cases h
    obtain ⟨vs, hvalue, hlex⟩ := lexes_of_skipValue hskip
    exact ⟨vs, hvalue, (readColon_eq_ok_iff.mp hcolon).append hlex⟩

/-- What is read as members is members. -/
theorem lexes_of_readMembers {first : Bool} {fuel : Nat} {draft last : σ} {bs rest : Bytes}
    (h : readMembers fields first fuel draft bs = .ok (last, rest)) :
    ∃ es, Lexes (membersTokens first es) bs rest := by
  induction fuel generalizing first draft bs with
  | zero => cases h
  | succ fuel ih =>
    obtain ⟨⟨more, mid⟩, hkey, h⟩ := bind_eq_ok h
    rcases lexes_of_nextKey hkey with ⟨rfl, hclose⟩ | ⟨rfl, htext⟩
    · cases h
      exact ⟨[], hclose⟩
    · obtain ⟨⟨key, after⟩, hquoted, h⟩ := bind_eq_ok h
      obtain ⟨⟨next, after'⟩, hmember, h⟩ := bind_eq_ok h
      obtain ⟨raw, hraw, hmid, hall⟩ := of_readQuoted hquoted
      obtain ⟨vs, hvalue, hlex⟩ := lexes_of_readMember hfields hmember
      obtain ⟨es, hes⟩ := ih h
      let e : Binding := ⟨raw, key, vs, hall [], hvalue⟩
      have hfirst : Lexes ((separator first ++ [.text raw hraw]) ++ ((.colon :: vs) ++
          membersTokens false es)) bs rest := (htext raw hraw after hmid).append (hlex.append hes)
      exact ⟨e :: es, by simpa [membersTokens, Binding.tokens] using hfirst⟩

end Reading

/-! ## Records -/

section Records

variable {shape : Shape σ α} {bs rest out : Bytes} {a : α}

theorem Shape.read_object_iff (h : skipBlanks bs = ascii '\x7b' :: rest) :
    shape.read bs = .ok (a, out) ↔
      ∃ last, readMembers shape.fields true (rest.length + 1) shape.blank rest = .ok (last, out) ∧
        shape.finish last = .ok a := by
  simp only [Shape.read, h, show ascii '\x7b' ≠ ascii '[' by decide, ↓reduceIte]
  constructor
  · intro h
    obtain ⟨⟨last, after⟩, hmembers, h⟩ := bind_eq_ok h
    obtain ⟨record, hfinish, h⟩ := bind_eq_ok h
    cases h
    exact ⟨last, hmembers, hfinish⟩
  · rintro ⟨last, hmembers, hfinish⟩
    simp only [hmembers, ok_bind, hfinish]

theorem readDocument_eq_ok_iff {read : Reader α} :
    readDocument read bs = .ok a ↔ ∃ rest, read bs = .ok (a, rest) ∧ Blanks rest := by
  have hblanks (rest : Bytes) : skipBlanks rest = [] ↔ Blanks rest := List.dropWhile_eq_nil_iff
  unfold readDocument
  constructor
  · intro h
    split at h
    · cases h
    rename_i a' rest hread
    split at h
    · rename_i hrest
      cases h
      exact ⟨rest, hread, (hblanks rest).mp hrest⟩
    · cases h
  · rintro ⟨rest, hread, hrest⟩
    simp only [hread, (hblanks rest).mpr hrest]

variable (hshape : ∀ field ∈ shape.fields, ReadsValues field.read)
include hshape

/-- **A record is read from an object if its members take the draft to one that is whole.** -/
theorem Shape.readDocument_iff {es : List Binding} (h : IsObject es bs) :
    readDocument shape.read bs = .ok a ↔
      ∃ last, Folds shape.fields shape.blank es last ∧ shape.finish last = .ok a := by
  obtain ⟨gap, hgap, hlex⟩ := h
  obtain ⟨rest, hopening, hmembers⟩ := Lexes.cons_iff.mp hlex
  have hbs : skipBlanks bs = ascii '\x7b' :: rest := hopening
  have hfuel : es.length < rest.length + 1 := by
    have hlength := hmembers.length_le
    have hes := length_lt_membersTokens true es
    omega
  rw [readDocument_eq_ok_iff]
  simp only [Shape.read_object_iff hbs, readMembers_iff hshape hmembers hfuel]
  constructor
  · rintro ⟨out, ⟨last, ⟨hfolds, -⟩, hfinish⟩, -⟩
    exact ⟨last, hfolds, hfinish⟩
  · rintro ⟨last, hfolds, hfinish⟩
    exact ⟨gap, ⟨last, ⟨hfolds, rfl⟩, hfinish⟩, hgap⟩

/-- A text that a record is read from, and that begins like an object, is one. -/
theorem Shape.exists_isObject (hopening : (skipBlanks bs).head? = some (ascii '\x7b'))
    (h : readDocument shape.read bs = .ok a) : ∃ es, IsObject es bs := by
  obtain ⟨rest, hbs⟩ := List.head?_eq_some_iff.mp hopening
  obtain ⟨out, hread, hout⟩ := readDocument_eq_ok_iff.mp h
  obtain ⟨last, hmembers, -⟩ := (Shape.read_object_iff hbs).mp hread
  obtain ⟨es, hes⟩ := lexes_of_readMembers hshape hmembers
  exact ⟨es, out, hout, Lexes.cons_iff.mpr ⟨rest, hbs, hes⟩⟩

end Records

/-! ## Fields that do not touch each other -/

/-- The field may take a draft on by `set`. -/
def FieldReader.Sets (field : FieldReader σ) (set : σ → σ) : Prop :=
  ∃ bs rest, field.read bs = .ok (set, rest)

/-- Reading a field marks it as read and leaves the others as they are, in either order. -/
structure Independent (fields : List (FieldReader σ)) : Prop where
  marks : ∀ f ∈ fields, ∀ set, f.Sets set → ∀ draft, f.isGiven (set draft) = true
  keeps : ∀ f ∈ fields, ∀ g ∈ fields, f.key ≠ g.key → ∀ set, f.Sets set →
    ∀ draft, g.isGiven (set draft) = g.isGiven draft
  commutes : ∀ f ∈ fields, ∀ g ∈ fields, f.key ≠ g.key → ∀ set set', f.Sets set → g.Sets set' →
    ∀ draft, set (set' draft) = set' (set draft)

theorem Takes.sets {field : FieldReader σ} {vs : List Lexeme} {set : σ → σ}
    (h : Takes field.read vs set) : field.Sets set :=
  ⟨_, _, h _ _ (lexes_bytes vs) (by simp [EndsNumber])⟩

theorem key_of_bears {fields : List (FieldReader σ)} {key : String} {field : FieldReader σ}
    (h : fields.find? (fun field => field.key == key) = some field) : field.key = key := by
  simpa using List.find?_some h

section Order

variable {fields : List (FieldReader σ)} {draft next last : σ} {e e' : Binding} {es es' : List Binding}

theorem Folds.append_iff :
    Folds fields draft (es ++ es') last ↔
      ∃ mid, Folds fields draft es mid ∧ Folds fields mid es' last := by
  induction es generalizing draft with
  | nil =>
    constructor
    · exact fun h => ⟨draft, .nil draft, h⟩
    · rintro ⟨mid, hnil, h⟩
      cases hnil
      exact h
  | cons e es ih =>
    constructor
    · intro h
      cases h with
      | cons adds h =>
        obtain ⟨mid, hes, hes'⟩ := ih.mp h
        exact ⟨mid, .cons adds hes, hes'⟩
    · rintro ⟨mid, hes, hes'⟩
      cases hes with
      | cons adds hes => exact .cons adds (ih.mpr ⟨mid, hes, hes'⟩)

theorem Folds.concat_iff :
    Folds fields draft (es ++ [e]) last ↔
      ∃ mid, Folds fields draft es mid ∧ Adds fields mid e last := by
  rw [Folds.append_iff]
  refine exists_congr fun mid => and_congr_right fun _ => ⟨fun h => ?_, fun h => .cons h (.nil _)⟩
  cases h with
  | cons adds h =>
    cases h
    exact adds

variable (hfields : Independent fields)
include hfields

/-- Once a member has been read, its own field has been given, and no other. -/
theorem Adds.isGiven {field : FieldReader σ} {key : String}
    (hfield : fields.find? (fun field => field.key == key) = some field)
    (h : Adds fields draft e next) : field.isGiven next = (field.isGiven draft || e.key == key) := by
  have hmem := List.mem_of_find?_eq_some hfield
  by_cases hkey : e.key = key
  · subst hkey
    rw [beq_self_eq_true, Bool.or_true]
    cases h with
    | known bears isNew takes =>
      cases hfield.symm.trans bears
      exact hfields.marks field hmem _ takes.sets draft
    | unknown bears => cases hfield.symm.trans bears
  · rw [beq_false_of_ne hkey, Bool.or_false]
    cases h with
    | known bears isNew takes =>
      refine hfields.keeps _ (List.mem_of_find?_eq_some bears) field hmem ?_ _ takes.sets draft
      rwa [key_of_bears bears, key_of_bears hfield]
    | unknown bears => rfl

theorem Folds.isGiven {field : FieldReader σ} {key : String}
    (hfield : fields.find? (fun field => field.key == key) = some field)
    (h : Folds fields draft es last) :
    field.isGiven last = (field.isGiven draft || es.any (·.key == key)) := by
  induction h with
  | nil draft => simp
  | cons adds _ ih => rw [ih, adds.isGiven hfields hfield, List.any_cons, Bool.or_assoc]

/-- **Two members may change places.** -/
theorem Adds.swap {mid : σ} (h : Adds fields draft e mid) (h' : Adds fields mid e' last) :
    ∃ mid', Adds fields draft e' mid' ∧ Adds fields mid' e last := by
  cases h with
  | unknown bears => exact ⟨last, h', .unknown bears⟩
  | @known f set bears isNew takes =>
    cases h' with
    | unknown bears' => exact ⟨draft, .unknown bears', .known bears isNew takes⟩
    | @known g set' bears' isNew' takes' =>
      have hf := List.mem_of_find?_eq_some bears
      have hg := List.mem_of_find?_eq_some bears'
      -- the first member marks its field, so the second is read through another one
      have hne : f.key ≠ g.key := by
        intro heq
        rw [key_of_bears bears, key_of_bears bears'] at heq
        rw [heq] at bears
        cases bears.symm.trans bears'
        rw [hfields.marks f hf set takes.sets draft] at isNew'
        cases isNew'
      rw [hfields.keeps f hf g hg hne set takes.sets] at isNew'
      refine ⟨set' draft, .known bears' isNew' takes', ?_⟩
      rw [← hfields.commutes f hf g hg hne set set' takes.sets takes'.sets draft]
      exact .known bears (by rwa [hfields.keeps g hg f hf hne.symm set' takes'.sets]) takes

/-- **What the members come to does not depend on their order.** -/
theorem Folds.perm (hperm : es.Perm es') (h : Folds fields draft es last) :
    Folds fields draft es' last := by
  induction hperm generalizing draft with
  | nil => exact h
  | cons e _ ih =>
    cases h with
    | cons adds h => exact .cons adds (ih h)
  | swap e e' es =>
    cases h with
    | cons adds h =>
      cases h with
      | cons adds' h =>
        obtain ⟨mid, hfirst, hsecond⟩ := adds.swap hfields adds'
        exact .cons hfirst (.cons hsecond h)
  | trans _ _ ih ih' => exact ih' (ih h)

/-- A member stands anywhere as it would stand last. -/
theorem Folds.insert_iff {pre post : List Binding} :
    Folds fields draft (pre ++ e :: post) last ↔
      ∃ mid, Folds fields draft (pre ++ post) mid ∧ Adds fields mid e last := by
  have hperm : (pre ++ e :: post).Perm (pre ++ post ++ [e]) :=
    List.perm_middle.trans (List.perm_append_singleton e (pre ++ post)).symm
  rw [← Folds.concat_iff]
  exact ⟨Folds.perm hfields hperm, Folds.perm hfields hperm.symm⟩

/-- A key that a field bears is given once at most. -/
theorem Folds.not_twice {field : FieldReader σ}
    (hfield : fields.find? (fun field => field.key == e.key) = some field) {pre post : List Binding}
    (hgiven : ∃ e' ∈ pre ++ post, e'.key = e.key) :
    ¬ Folds fields draft (pre ++ e :: post) last := by
  intro h
  obtain ⟨mid, hfolds, hadds⟩ := (Folds.insert_iff hfields).mp h
  have hmid : field.isGiven mid = true := by
    rw [hfolds.isGiven hfields hfield, Bool.or_eq_true, List.any_eq_true]
    obtain ⟨e', he', hkey⟩ := hgiven
    exact .inr ⟨e', he', beq_iff_eq.mpr hkey⟩
  cases hadds with
  | known bears isNew takes =>
    cases hfield.symm.trans bears
    cases hmid.symm.trans isNew
  | unknown bears => cases hfield.symm.trans bears

end Order

end HealthRelay.Json
