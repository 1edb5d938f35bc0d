import HealthRelay.Json.Record
import HealthRelay.Proofs.Except
import HealthRelay.Proofs.Json.Value

/-!
# Records come back in JSON

`Fills fields draft ms last` says that the written members take a draft to another one, each through
the field that bears its key. Reading an object follows the members one by one (`Fills.read_more`),
so a record is read back as soon as its members fill its draft (`Shape.reads_object`).

The other direction is about every text: what each field keeps true of a draft is true of the draft
that a record is made from, whether the text is an object or a list (`Shape.read_keeps`).
-/

namespace HealthRelay.Json

open Text

theorem reads_document {α : Type} {read : Reader α} {written : List Char} {a : α}
    (h : Reads read written a) : readDocument read (Utf8.encode written) = .ok a := by
  have hread := h [] (by simp [Stops])
  rw [List.append_nil] at hread
  simp only [readDocument, hread]
  rfl

theorem ok_of_readDocument {α : Type} {read : Reader α} {bs : Bytes} {a : α}
    (h : readDocument read bs = .ok a) : ∃ rest, read bs = .ok (a, rest) := by
  unfold readDocument at h
  split at h
  · cases h
  · rename_i hread
    split at h
    · cases h
      exact ⟨_, hread⟩
    · cases h

variable {σ α : Type} {fields : List (FieldReader σ)}

/-! ## Writing and reading back -/

/-- The members as they stand after a first one, each with its comma. -/
def writeMore (ms : List Member) : List Char :=
  ms.flatMap fun m => ',' :: m.write

theorem writeMembers_cons (m : Member) (ms : List Member) :
    writeMembers (m :: ms) = m.write ++ writeMore ms := by
  induction ms generalizing m with
  | nil => exact (List.append_nil _).symm
  | cons m' ms ih =>
    have hms : writeMembers (m :: m' :: ms) = m.write ++ ',' :: writeMembers (m' :: ms) := rfl
    rw [hms, ih, writeMore, writeMore, List.flatMap_cons, List.cons_append]

/-- The bytes of a member after the opening quote of its key. -/
def afterQuote (m : Member) (rest : Bytes) : Bytes :=
  Utf8.encode (m.key.toList.flatMap writeChar) ++
    ascii '"' :: ascii ':' :: (Utf8.encode m.value ++ rest)

theorem encode_write (m : Member) (rest : Bytes) :
    Utf8.encode m.write ++ rest = ascii '"' :: afterQuote m rest := by
  rw [Member.write, Utf8.encode_append, List.append_assoc, encode_writeQuoted, Utf8.encode_cons,
    Utf8.encodeChar_ascii (by decide)]
  rfl

theorem length_encode_write (m : Member) : 0 < (Utf8.encode m.write).length := by
  rw [← List.append_nil (Utf8.encode m.write), encode_write]
  exact Nat.succ_pos _

theorem encode_writeMore (m : Member) (ms : List Member) (rest : Bytes) :
    Utf8.encode (writeMore (m :: ms)) ++ rest =
      ascii ',' :: ascii '"' :: afterQuote m (Utf8.encode (writeMore ms) ++ rest) := by
  rw [writeMore, List.flatMap_cons, List.cons_append, Utf8.encode_cons, Utf8.encode_append,
    Utf8.encodeChar_ascii (by decide), List.singleton_append, List.cons_append, List.append_assoc,
    encode_write]
  rfl

theorem length_le_writeMore (ms : List Member) :
    ms.length ≤ (Utf8.encode (writeMore ms)).length := by
  induction ms with
  | nil => exact Nat.le_refl _
  | cons m ms ih =>
    have hsome := length_encode_write m
    rw [writeMore] at ih
    rw [writeMore, List.flatMap_cons, List.cons_append, Utf8.encode_cons, Utf8.encode_append]
    simp only [List.length_cons, List.length_append]
    omega

/-- The members take `draft` to `last`, each through the field that bears its key and that has not
been given before. -/
inductive Fills (fields : List (FieldReader σ)) : σ → List Member → σ → Prop
  | nil (draft : σ) : Fills fields draft [] draft
  | cons {draft last : σ} {m : Member} {ms : List Member} {field : FieldReader σ} {set : σ → σ}
      (bears : fields.find? (fun field => field.key == m.key) = some field)
      (isNew : field.isGiven draft = false)
      (reads : Reads field.read m.value set)
      (rest : Fills fields (set draft) ms last) : Fills fields draft (m :: ms) last

/-- A field reads what its value's reader reads. -/
theorem Reads.field {β : Type} {read : Reader β} {written : List Char} {b : β}
    (h : Reads read written b) (take : β → σ → σ) :
    Reads (fun bs => (read bs).map fun (v, rest) => (take v, rest)) written (take b) := by
  intro rest hrest
  simp only [h rest hrest, Except.map]

namespace Fills

variable {draft last : σ} {ms : List Member}

theorem append {middle : σ} {ns : List Member} (h : Fills fields draft ms middle)
    (h' : Fills fields middle ns last) : Fills fields draft (ms ++ ns) last := by
  induction h with
  | nil => exact h'
  | cons bears isNew reads _ ih => exact .cons bears isNew reads (ih h')

theorem single {m : Member} {field : FieldReader σ} {set : σ → σ}
    (bears : fields.find? (fun field => field.key == m.key) = some field)
    (isNew : field.isGiven draft = false) (reads : Reads field.read m.value set)
    (sets : set draft = last) : Fills fields draft [m] last :=
  .cons bears isNew reads (sets ▸ .nil _)

/-- One member is read through its field. -/
theorem readMembers_write {m : Member} {field : FieldReader σ} {set : σ → σ} {first : Bool}
    (bears : fields.find? (fun field => field.key == m.key) = some field)
    (isNew : field.isGiven draft = false) (reads : Reads field.read m.value set)
    {bs rest : Bytes} (hrest : Stops rest)
    (hkey : nextKey first bs = .ok (true, afterQuote m rest)) (fuel : Nat) :
    readMembers fields first (fuel + 1) draft bs =
      readMembers fields false fuel (set draft) rest := by
  rw [readMembers, hkey]
  simp only [afterQuote, ok_bind, ↓reduceIte, readQuoted_write, String.ofList_toList, readMember,
    bears, isNew, Bool.false_eq_true, readColon,
    skipBlanks_cons (show isBlankByte (ascii ':') = false by decide), reads rest hrest]

theorem stops_more (ms : List Member) (rest : Bytes) :
    Stops (Utf8.encode (writeMore ms) ++ ascii '\x7d' :: rest) := by
  intro b hb
  cases ms with
  | nil => exact .inr (Option.some.inj hb).symm
  | cons m ms => exact .inl (Option.some.inj hb).symm

/-- The members after a first one are read up to the end of the object. -/
theorem read_more (h : Fills fields draft ms last) {fuel : Nat} (hfuel : ms.length < fuel)
    (rest : Bytes) :
    readMembers fields false fuel draft (Utf8.encode (writeMore ms) ++ ascii '\x7d' :: rest) =
      .ok (last, rest) := by
  induction h generalizing fuel with
  | nil draft =>
    obtain ⟨fuel, rfl⟩ := Nat.exists_eq_add_of_lt hfuel
    rfl
  | @cons draft last m ms field set bears isNew reads _ ih =>
    obtain ⟨fuel, rfl⟩ := Nat.exists_eq_add_of_lt hfuel
    have hkey (bs : Bytes) : nextKey false (ascii ',' :: ascii '"' :: bs) = .ok (true, bs) := rfl
    rw [encode_writeMore, readMembers_write bears isNew reads (stops_more ms rest) (hkey _)]
    exact ih (by rw [List.length_cons]; omega)

/-- All members are read, with any fuel that covers their bytes: each of them has one. -/
theorem read_all (h : Fills fields draft ms last) {fuel : Nat}
    (hfuel : (Utf8.encode (writeMembers ms)).length < fuel) (rest : Bytes) :
    readMembers fields true fuel draft (Utf8.encode (writeMembers ms) ++ ascii '\x7d' :: rest) =
      .ok (last, rest) := by
  obtain ⟨fuel, rfl⟩ := Nat.exists_eq_succ_of_ne_zero (Nat.ne_zero_of_lt hfuel)
  cases h with
  | nil draft => rfl
  | @cons draft last m ms field set bears isNew reads more =>
    have hcover := length_le_writeMore ms
    have hsome := length_encode_write m
    have hkey (bs : Bytes) : nextKey true (ascii '"' :: bs) = .ok (true, bs) := rfl
    rw [writeMembers_cons, Utf8.encode_append, List.length_append] at hfuel
    rw [writeMembers_cons, Utf8.encode_append, List.append_assoc, encode_write,
      readMembers_write bears isNew reads (stops_more ms rest) (hkey _)]
    exact more.read_more (by omega) rest

end Fills

/-- **A record is read back from the members that fill its draft.** -/
theorem Shape.reads_object {shape : Shape σ α} {ms : List Member} {last : σ} {a : α}
    (h : Fills shape.fields shape.blank ms last) (hfinish : shape.finish last = .ok a) :
    Reads shape.read (writeObject ms) a := by
  intro rest _
  have hbytes : Utf8.encode (writeObject ms) ++ rest =
      ascii '\x7b' :: (Utf8.encode (writeMembers ms) ++ ascii '\x7d' :: rest) := by
    rw [writeObject, List.cons_append, Utf8.encode_cons, Utf8.encode_append,
      Utf8.encodeChar_ascii (by decide), List.singleton_append, List.cons_append, List.append_assoc]
    rfl
  rw [hbytes, Shape.read, skipBlanks_cons (by decide)]
  simp only [if_neg (show ascii '\x7b' ≠ ascii '[' by decide), ↓reduceIte]
  rw [h.read_all (by rw [List.length_append]; omega)]
  simp only [ok_bind, hfinish]

/-! ## What every reading keeps -/

/-- Whatever a field reads, taking it keeps `P` true of the draft. -/
def FieldReader.Keeps (P : σ → Prop) (field : FieldReader σ) : Prop :=
  ∀ bs set rest, field.read bs = .ok (set, rest) → ∀ draft, P draft → P (set draft)

section Keeps

variable {P : σ → Prop} (hfields : ∀ field ∈ fields, field.Keeps P)
include hfields

theorem readMember_keeps {key : String} {draft last : σ} {bs rest : Bytes}
    (h : readMember fields key draft bs = .ok (last, rest)) (hP : P draft) : P last := by
  unfold readMember at h
  split at h
  · rename_i field hfind
    split at h
    · cases h
    · obtain ⟨bs', -, h⟩ := bind_eq_ok h
      obtain ⟨⟨set, rest'⟩, hread, h⟩ := bind_eq_ok h
      cases h
      exact hfields field (List.mem_of_find?_eq_some hfind) _ _ _ hread draft hP
  · obtain ⟨bs', -, h⟩ := bind_eq_ok h
    obtain ⟨rest', -, h⟩ := bind_eq_ok h
    cases h
    exact hP

theorem readMembers_keeps {first : Bool} {fuel : Nat} {draft last : σ} {bs rest : Bytes}
    (h : readMembers fields first fuel draft bs = .ok (last, rest)) (hP : P draft) : P last := by
  induction fuel generalizing first draft bs with
  | zero => cases h
  | succ fuel ih =>
    obtain ⟨⟨more, bs'⟩, -, h⟩ := bind_eq_ok h
    cases more with
    | false =>
      cases h
      exact hP
    | true =>
      obtain ⟨⟨key, bs'⟩, -, h⟩ := bind_eq_ok h
      obtain ⟨⟨draft', bs'⟩, hmember, h⟩ := bind_eq_ok h
      exact ih h (readMember_keeps hfields hmember hP)

theorem readElements_keeps {name : String} {total index : Nat} {draft last : σ} {bs rest : Bytes}
    (h : readElements name total index fields draft bs = .ok (last, rest)) (hP : P draft) :
    P last := by
  induction fields generalizing index draft bs with
  | nil =>
    cases h
    exact hP
  | cons field fields ih =>
    have hrest : ∀ field ∈ fields, field.Keeps P :=
      fun field hfield => hfields field (List.mem_cons_of_mem _ hfield)
    obtain ⟨next, -, h⟩ := bind_eq_ok h
    cases next with
    | some bs' =>
      obtain ⟨⟨set, bs'⟩, hread, h⟩ := bind_eq_ok h
      exact ih hrest h (hfields field List.mem_cons_self _ _ _ hread draft hP)
    | none =>
      simp only at h
      split at h
      · exact ih hrest h hP
      · cases h

end Keeps

/-- **What all fields keep is true of the draft of a record that was read**, from an object or from
a list. -/
theorem Shape.read_keeps {shape : Shape σ α} {P : σ → Prop}
    (hfields : ∀ field ∈ shape.fields, field.Keeps P) (hblank : P shape.blank) {bs rest : Bytes}
    {a : α} (h : shape.read bs = .ok (a, rest)) :
    ∃ draft, P draft ∧ shape.finish draft = .ok a := by
  unfold Shape.read at h
  split at h
  · cases h
  · split at h
    · obtain ⟨⟨draft, bs'⟩, hread, h⟩ := bind_eq_ok h
      obtain ⟨record, hfinish, h⟩ := bind_eq_ok h
      obtain ⟨bs', -, h⟩ := bind_eq_ok h
      cases h
      exact ⟨draft, readElements_keeps hfields hread hblank, hfinish⟩
    · split at h
      · obtain ⟨⟨draft, bs'⟩, hread, h⟩ := bind_eq_ok h
        obtain ⟨record, hfinish, h⟩ := bind_eq_ok h
        cases h
        exact ⟨draft, readMembers_keeps hfields hread hblank, hfinish⟩
      · cases h

theorem required_eq_ok {β : Type} {key : String} {o : Option β} {b : β}
    (h : required key o = .ok b) : o = some b := by
  cases o with
  | none => cases h
  | some b' => rw [Except.ok.inj h]

end HealthRelay.Json
