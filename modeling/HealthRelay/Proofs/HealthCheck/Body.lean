import HealthRelay.HealthCheck
import HealthRelay.Proofs.Json.Object
import Mathlib.Logic.Relation

/-!
# Status documents may be extended

What a server says of itself (`Says`) is in the members that its document has for three keys. Servers
add members between their versions, so a document that was understood is understood alike with other
members in it, in another order and with other blanks (`Says.extends`). A key that is read is given
once at most, however it is spelled.
-/

namespace HealthRelay.HealthCheck.Body

open Json Text

def keys : List String := ["status", "slots_idle", "slots_processing"]

theorem bearer_of_mem_keys {key : String} (h : key ∈ keys) :
    ∃ field, fields.find? (fun field => field.key == key) = some field := by
  simp only [keys, List.mem_cons, List.not_mem_nil, or_false] at h
  rcases h with rfl | rfl | rfl <;> exact ⟨_, rfl⟩

theorem bearer_of_notMem_keys {key : String} (h : key ∉ keys) :
    fields.find? (fun field => field.key == key) = none := by
  rw [List.find?_eq_none]
  simp only [keys, List.mem_cons, List.not_mem_nil, or_false, not_or] at h
  obtain ⟨hstatus, hidle, hprocessing⟩ := h
  simp [fields, Ne.symm hstatus, Ne.symm hidle, Ne.symm hprocessing]

theorem fields_read : ∀ field ∈ fields, ReadsValues field.read := by
  intro field hfield
  simp only [fields, List.mem_cons, List.not_mem_nil, or_false] at hfield
  rcases hfield with rfl | rfl | rfl
  · exact (readsLiterals_text.map fun v (d : Draft) => { d with status := some v }).readsValues
  · exact (readsLiterals_count.optional.map fun v (d : Draft) =>
      { d with slotsIdle := some v }).readsValues
  · exact (readsLiterals_count.optional.map fun v (d : Draft) =>
      { d with slotsProcessing := some v }).readsValues

/-- A field takes its own part of the draft and nothing else. -/
theorem sets_cases {field : FieldReader Draft} (hfield : field ∈ fields) {set : Draft → Draft}
    (h : field.Sets set) :
    (field = fields[0] ∧ ∃ s, set = fun d => { d with status := some s }) ∨
      (field = fields[1] ∧ ∃ n, set = fun d => { d with slotsIdle := some n }) ∨
      (field = fields[2] ∧ ∃ n, set = fun d => { d with slotsProcessing := some n }) := by
  obtain ⟨bs, rest, h⟩ := h
  simp only [fields, List.mem_cons, List.not_mem_nil, or_false] at hfield
  rcases hfield with rfl | rfl | rfl
  all_goals
    obtain ⟨⟨v, after⟩, -, heq⟩ := map_eq_ok h
    obtain ⟨rfl, -⟩ := Prod.mk.inj heq
  · exact .inl ⟨rfl, v, rfl⟩
  · exact .inr (.inl ⟨rfl, v, rfl⟩)
  · exact .inr (.inr ⟨rfl, v, rfl⟩)

theorem fields_independent : Independent fields where
  marks f hf set hset draft := by
    rcases sets_cases hf hset with ⟨rfl, v, rfl⟩ | ⟨rfl, v, rfl⟩ | ⟨rfl, v, rfl⟩ <;> rfl
  keeps f hf g hg hne set hset draft := by
    simp only [fields, List.mem_cons, List.not_mem_nil, or_false] at hg
    rcases sets_cases hf hset with ⟨rfl, v, rfl⟩ | ⟨rfl, v, rfl⟩ | ⟨rfl, v, rfl⟩ <;>
      rcases hg with rfl | rfl | rfl <;> first | rfl | exact absurd rfl hne
  commutes f hf g hg hne set set' hset hset' draft := by
    rcases sets_cases hf hset with ⟨rfl, v, rfl⟩ | ⟨rfl, v, rfl⟩ | ⟨rfl, v, rfl⟩ <;>
      rcases sets_cases hg hset' with ⟨rfl, w, rfl⟩ | ⟨rfl, w, rfl⟩ | ⟨rfl, w, rfl⟩ <;>
        first | rfl | exact absurd rfl hne

/-! ## What a document says -/

/-- The members of a document that is read as `b`. -/
def Says (es : List Binding) (b : Body) : Prop :=
  ∃ last, Folds fields {} es last ∧ last.finish = .ok b

/-- A document is read as what its members say, whatever the blanks between them. -/
theorem ofJson?_eq_ok_iff {es : List Binding} {bs : List UInt8} (h : IsObject es bs) {b : Body} :
    ofJson? bs = .ok b ↔ Says es b :=
  Shape.readDocument_iff fields_read h

/-- An absent slot may be written out: the draft is finished to the same document. -/
theorem adds_null {e : Binding} {draft : Draft}
    (hkey : e.key = "slots_idle" ∨ e.key = "slots_processing") (hvalue : e.value = [.null])
    (habsent : ∀ field, fields.find? (fun field => field.key == e.key) = some field →
      field.isGiven draft = false) :
    ∃ next, Adds fields draft e next ∧ next.finish = draft.finish := by
  rcases hkey with hkey | hkey
  · have bears : fields.find? (fun field => field.key == e.key) = some fields[1] := by
      rw [hkey]
      rfl
    have hnew := habsent _ bears
    have hnone : draft.slotsIdle = none := Option.isNone_iff_eq_none.mp (Option.isSome_eq_false_iff.mp hnew)
    have htakes : Takes fields[1].read e.value fun d => { d with slotsIdle := some none } := by
      rw [hvalue]
      exact takes_null.map fun v (d : Draft) => { d with slotsIdle := some v }
    exact ⟨_, .known bears hnew htakes, by simp [Draft.finish, hnone]⟩
  · have bears : fields.find? (fun field => field.key == e.key) = some fields[2] := by
      rw [hkey]
      rfl
    have hnew := habsent _ bears
    have hnone : draft.slotsProcessing = none := Option.isNone_iff_eq_none.mp (Option.isSome_eq_false_iff.mp hnew)
    have htakes : Takes fields[2].read e.value fun d => { d with slotsProcessing := some none } := by
      rw [hvalue]
      exact takes_null.map fun v (d : Draft) => { d with slotsProcessing := some v }
    exact ⟨_, .known bears hnew htakes, by simp [Draft.finish, hnone]⟩

/-- The same document with more in it: a member that is not read, an absent slot written out, or the
members in another order. -/
inductive Extends : List Binding → List Binding → Prop
  | unread {pre post : List Binding} {e : Binding} (hkey : e.key ∉ keys) :
      Extends (pre ++ post) (pre ++ e :: post)
  | null {pre post : List Binding} {e : Binding}
      (hkey : e.key = "slots_idle" ∨ e.key = "slots_processing")
      (habsent : ∀ e' ∈ pre ++ post, e'.key ≠ e.key) (hvalue : e.value = [.null]) :
      Extends (pre ++ post) (pre ++ e :: post)
  | reordered {es es' : List Binding} (h : es.Perm es') : Extends es es'

/-- **More in a document does not change what it says.** -/
theorem Says.extends {es es' : List Binding} {b : Body} (h : Says es b) (hextends : Extends es es') :
    Says es' b := by
  obtain ⟨last, hfolds, hfinish⟩ := h
  cases hextends with
  | unread hkey =>
    have hadds : Adds fields last _ last := .unknown (bearer_of_notMem_keys hkey)
    exact ⟨last, (Folds.insert_iff fields_independent).mpr ⟨last, hfolds, hadds⟩, hfinish⟩
  | @null pre post e hkey habsent hvalue =>
    -- no member bears the key, so its field has not been given in the end
    have hnew : ∀ field, fields.find? (fun field => field.key == e.key) = some field →
        field.isGiven last = false := by
      intro field bears
      have hnone : (pre ++ post).any (·.key == e.key) = false :=
        List.any_eq_false.mpr fun e' he' => by simpa using habsent e' he'
      rw [hfolds.isGiven fields_independent bears, hnone, Bool.or_false]
      have hmem := List.mem_of_find?_eq_some bears
      simp only [fields, List.mem_cons, List.not_mem_nil, or_false] at hmem
      rcases hmem with rfl | rfl | rfl <;> rfl
    obtain ⟨next, hadds, hsame⟩ := adds_null hkey hvalue hnew
    exact ⟨next, (Folds.insert_iff fields_independent).mpr ⟨last, hfolds, hadds⟩,
      hsame.trans hfinish⟩
  | reordered hperm => exact ⟨last, hfolds.perm fields_independent hperm, hfinish⟩

theorem Says.extends_steps {es es' : List Binding} {b : Body} (h : Says es b)
    (hextends : Relation.ReflTransGen Extends es es') : Says es' b := by
  induction hextends with
  | refl => exact h
  | tail _ hstep ih => exact ih.extends hstep

/-- A key that is read is not given twice. -/
theorem not_says_twice {pre post : List Binding} {e : Binding} (hkey : e.key ∈ keys)
    (hgiven : ∃ e' ∈ pre ++ post, e'.key = e.key) (b : Body) : ¬ Says (pre ++ e :: post) b := by
  rintro ⟨last, hfolds, -⟩
  obtain ⟨field, hfield⟩ := bearer_of_mem_keys hkey
  exact Folds.not_twice fields_independent hfield hgiven hfolds

/-- **Status documents tolerate extension.** An object that is read as a document has members, and
with more in it, in every text of those members, it is read as the same document. With another
member for a key that it has already, wherever that stands, it is refused. -/
theorem extension_tolerated {bs : List UInt8} {b : Body}
    (hopening : (skipBlanks bs).head? = some (ascii '\x7b')) (h : ofJson? bs = .ok b) :
    (∃ es, IsObject es bs) ∧ ∀ es, IsObject es bs →
      (∀ es' bs', Relation.ReflTransGen Extends es es' → IsObject es' bs' →
        ofJson? bs' = .ok b) ∧
      ∀ pre post e, es = pre ++ post → e.key ∈ keys → (∃ e' ∈ es, e'.key = e.key) →
        ∀ bs', IsObject (pre ++ e :: post) bs' → ∀ b', ofJson? bs' ≠ .ok b' := by
  refine ⟨Shape.exists_isObject fields_read hopening h, fun es hes => ⟨?_, ?_⟩⟩
  · intro es' bs' hextends hes'
    have hsaid := (ofJson?_eq_ok_iff hes).mp h
    exact (ofJson?_eq_ok_iff hes').mpr (hsaid.extends_steps hextends)
  · rintro pre post e rfl hkey hgiven bs' hes' b' hread
    exact not_says_twice hkey hgiven b' ((ofJson?_eq_ok_iff hes').mp hread)

/-- A short document with an unread member before all others. -/
theorem extension_tolerated_first :
    ∃ es, IsObject es (asciiBytes "\x7b\"status\":\"ok\"\x7d") ∧ ∀ e : Binding, e.key ∉ keys →
      ofJson? ((objectTokens (e :: es)).flatMap Lexeme.bytes) = .ok ⟨"ok", none, none⟩ := by
  have hread : ofJson? (asciiBytes "\x7b\"status\":\"ok\"\x7d") = .ok ⟨"ok", none, none⟩ := by
    decide +kernel
  obtain ⟨⟨es, hes⟩, hall⟩ := extension_tolerated (by decide +kernel) hread
  refine ⟨es, hes, fun e hkey => ?_⟩
  have hextends : Extends ([] ++ es) ([] ++ e :: es) := .unread hkey
  exact (hall es hes).1 (e :: es) _ (.single hextends) (isObject_bytes (e :: es))

example : ofJson? (asciiBytes
    "\x7b \"x\":[\x7b\"y\":-1e999\x7d , \"\\ud800\"], \"slots_idle\":3,\t\"\\u0073tatus\" : \"ok\"\x7d\n") =
      .ok ⟨"ok", some 3, none⟩ := by
  decide +kernel

end HealthRelay.HealthCheck.Body
