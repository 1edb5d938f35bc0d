import HealthRelay.Proofs.Toml.Text
import HealthRelay.Toml.Document

/-!
# Tables of texts come back in TOML

`Leads d written d'` says that the lines `written` take a document from `d` to `d'`, whatever lines
follow. There is one such lemma for each kind of line that the writer makes, and from them one for a
whole section: a header and a line for each text that is there (`leads_section`).
-/

namespace HealthRelay.Toml

open Text

/-! ## Keys without quotes -/

/-- A key that may be written without quotes. -/
def IsBare (key : String) : Prop :=
  (!key.toList.isEmpty && key.toList.all isBareKeyChar) = true

instance : DecidablePred IsBare := fun _ => inferInstanceAs (Decidable (_ = true))

theorem isBare_iff {key : String} :
    IsBare key ↔ key.toList ≠ [] ∧ ∀ c ∈ key.toList, isBareKeyChar c = true := by
  simp [IsBare]

theorem skipBlanks_cons {c : Char} (h : isBlankChar c = false) (cs : List Char) :
    skipBlanks (c :: cs) = c :: cs :=
  List.dropWhile_cons_of_neg (by simp [h])

namespace IsBare

variable {key : String} (h : IsBare key)
include h

/-- A key without quotes does not begin like anything else. -/
theorem ne_cons {d : Char} (hd : isBareKeyChar d = false) (rest more : List Char) :
    key.toList ++ rest ≠ d :: more := by
  obtain ⟨hne, hchars⟩ := isBare_iff.mp h
  obtain ⟨c, cs, hkey⟩ := List.exists_cons_of_ne_nil hne
  have hc : isBareKeyChar c = true := hchars c (by simp [hkey])
  intro heq
  rw [hkey, List.cons_append] at heq
  rw [(List.cons.inj heq).1, hd] at hc
  exact Bool.false_ne_true hc

theorem skipBlanks (rest : List Char) : skipBlanks (key.toList ++ rest) = key.toList ++ rest := by
  obtain ⟨c, cs, hkey⟩ := List.exists_cons_of_ne_nil (isBare_iff.mp h).1
  have hspace : c ≠ ' ' := fun hc => h.ne_cons (d := ' ') rfl [] cs (by simp [hkey, hc])
  have htab : c ≠ '\t' := fun hc => h.ne_cons (d := '\t') rfl [] cs (by simp [hkey, hc])
  rw [hkey, List.cons_append, skipBlanks_cons (by simp [isBlankChar, hspace, htab])]

end IsBare

theorem readKeyPart_bare {key : String} (h : IsBare key) {c : Char}
    (hc : isBareKeyChar c = false) (rest : List Char) :
    readKeyPart (key.toList ++ c :: rest) = some (key.toList, c :: rest) := by
  obtain ⟨hne, hchars⟩ := isBare_iff.mp h
  obtain ⟨k, ks, hkey⟩ := List.exists_cons_of_ne_nil hne
  have htake : (key.toList ++ c :: rest).takeWhile isBareKeyChar = k :: ks := by
    rw [List.takeWhile_append_of_pos hchars, List.takeWhile_cons_of_neg (by simp [hc]),
      List.append_nil, hkey]
  have hdrop : (key.toList ++ c :: rest).dropWhile isBareKeyChar = c :: rest := by
    rw [List.dropWhile_append_of_pos hchars, List.dropWhile_cons_of_neg (by simp [hc])]
  rw [readKeyPart, htake, hdrop, hkey]
  · exact fun _ => h.ne_cons rfl _ _
  · exact fun _ => h.ne_cons rfl _ _

theorem readKey_bare {key : String} (h : IsBare key) {c : Char} (hc : isBareKeyChar c = false)
    {rest : List Char} (hdot : ∀ more, skipBlanks (c :: rest) ≠ '.' :: more) :
    readKey (key.toList ++ c :: rest) = some ([key], skipBlanks (c :: rest)) := by
  -- of the parts that `nestingLimit` leaves to a key, one is read
  show readKeyParts (78 + 1) _ = _
  rw [readKeyParts, h.skipBlanks, readKeyPart_bare h hc]
  simp only [String.ofList_toList]

/-! ## Rows -/

namespace Rows

variable {rows more : Rows} {key : String} {item : Item}

theorem get?_append_or : get? (rows ++ more) key = (rows.get? key).or (more.get? key) :=
  List.lookup_append

theorem get?_append (h : rows.get? key = none) : get? (rows ++ more) key = more.get? key := by
  rw [get?_append_or, h, Option.none_or]

theorem get?_single (key : String) (item : Item) : get? [(key, item)] key = some item := by
  simp [get?]

theorem replace_append (h : rows.get? key = none) :
    replace (rows ++ more) key item = rows ++ more.replace key item := by
  have hkeys : ∀ row ∈ rows, row.1 ≠ key := by
    intro row hrow heq
    have hother := List.lookup_eq_none_iff.mp h row hrow
    simp [heq] at hother
  have hrows : rows.map (fun row => if row.1 = key then (key, item) else row) = rows :=
    (List.map_congr_left fun row hrow => if_neg (hkeys row hrow)).trans (List.map_id _)
  rw [replace, List.map_append, hrows, replace]

theorem replace_single (key : String) (item item' : Item) :
    replace [(key, item)] key item' = [(key, item')] := by
  simp [replace]

end Rows

/-! ## Rows of texts -/

/-- Keys with the texts that are there. -/
abbrev Texts := List (String × Option String)

/-- The row of a key whose text is there. -/
def textRow (key : String) : Option String → Rows
  | some text => [(key, .text text)]
  | none => []

def textRows (texts : Texts) : Rows :=
  texts.flatMap fun t => textRow t.1 t.2

/-- The lines of the texts that are there. -/
def writeLines (texts : Texts) : List Char :=
  texts.flatMap fun t => writeOptionalLine t.1 t.2

/-- Keys that may be written without quotes, each once. -/
structure AreKeys (keys : List String) : Prop where
  bare : ∀ key ∈ keys, IsBare key
  nodup : keys.Nodup

theorem get?_textRow (key : String) (text : Option String) :
    (textRow key text).get? key = text.map .text := by
  cases text with
  | none => rfl
  | some text => exact Rows.get?_single key _

theorem get?_textRow_of_ne {key other : String} (h : other ≠ key) (text : Option String) :
    (textRow key text).get? other = none := by
  cases text with
  | none => rfl
  | some text =>
    have hother : (other == key) = false := beq_false_of_ne h
    simp [textRow, Rows.get?, List.lookup_cons, hother]

theorem get?_textRows_of_notMem {texts : Texts} {key : String} (h : key ∉ texts.map (·.1)) :
    (textRows texts).get? key = none := by
  induction texts with
  | nil => rfl
  | cons t texts ih =>
    obtain ⟨hkey, hkeys⟩ := not_or.mp (mt List.mem_cons.mpr h)
    rw [textRows, List.flatMap_cons, Rows.get?_append (get?_textRow_of_ne hkey _)]
    exact ih hkeys

/-- Every text is found under its key. -/
theorem get?_textRows {texts : Texts} (hkeys : (texts.map (·.1)).Nodup) {t : String × Option String}
    (h : t ∈ texts) : (textRows texts).get? t.1 = t.2.map .text := by
  induction texts with
  | nil => cases h
  | cons u texts ih =>
    obtain ⟨hu, hkeys⟩ := List.nodup_cons.mp hkeys
    rw [textRows, List.flatMap_cons]
    rcases List.mem_cons.mp h with rfl | h
    · have hrest := get?_textRows_of_notMem hu
      rw [textRows] at hrest
      rw [Rows.get?_append_or, get?_textRow, hrest, Option.or_none]
    · have hne : t.1 ≠ u.1 := fun heq => hu (List.mem_map.mpr ⟨t, h, heq⟩)
      rw [Rows.get?_append (get?_textRow_of_ne hne _)]
      exact ih hkeys h

/-! ## Lines -/

namespace Document

/-- Reading ends with `last`, with any fuel that covers the text. -/
def Reaches (d : Document) (cs : List Char) (last : Document) : Prop :=
  ∀ fuel, cs.length < fuel → d.readLines fuel cs = some last

/-- The lines `written` take `d` to `d'`, whatever follows them. -/
def Leads (d : Document) (written : List Char) (d' : Document) : Prop :=
  ∀ rest last, d'.Reaches rest last → d.Reaches (written ++ rest) last

theorem Leads.refl (d : Document) : d.Leads [] d := fun _ _ h => h

theorem Leads.append {d d' d'' : Document} {a b : List Char} (h : d.Leads a d')
    (h' : d'.Leads b d'') : d.Leads (a ++ b) d'' := by
  intro rest last hlast
  rw [List.append_assoc]
  exact h _ _ (h' rest last hlast)

theorem leads_of_readLine {d d' : Document} {written : List Char} (hne : written ≠ [])
    (hskip : ∀ rest, skipBlanks (written ++ rest) = written ++ rest)
    (hline : ∀ rest, d.readLine (written ++ rest) = some (d', rest)) : d.Leads written d' := by
  intro rest last hlast fuel hfuel
  have hshort : rest.length < (written ++ rest).length := by
    rw [List.length_append]
    exact Nat.lt_add_of_pos_left (List.length_pos_iff.mpr hne)
  obtain ⟨fuel, rfl⟩ := Nat.exists_eq_succ_of_ne_zero (Nat.ne_zero_of_lt hfuel)
  rw [readLines, hskip]
  split
  · rename_i heq
    exact absurd (List.append_eq_nil_iff.mp heq).1 hne
  · rw [hline]
    exact hlast fuel (by omega)

theorem leads_blank (d : Document) : d.Leads ['\n'] d :=
  leads_of_readLine (by simp) (fun _ => rfl) fun _ => rfl

theorem finishLine_newline (rest : List Char) : finishLine ('\n' :: rest) = some rest := rfl

theorem leads_header {d d' : Document} {name : String} (hname : IsBare name)
    (hstart : d.startWith Rows.openTable [name] = some d') : d.Leads (writeHeader name) d' := by
  refine leads_of_readLine (by simp [writeHeader]) (fun _ => rfl) fun rest => ?_
  have hbracket : skipBlanks (']' :: '\n' :: rest) = ']' :: '\n' :: rest := skipBlanks_cons rfl _
  have hkey : readKey (name.toList ++ ']' :: '\n' :: rest) =
      some ([name], ']' :: '\n' :: rest) := by
    rw [readKey_bare hname (by decide) (by simp [hbracket]), hbracket]
  rw [writeHeader, List.cons_append, List.cons_append, List.append_assoc]
  simp only [List.cons_append, List.nil_append]
  rw [readLine, readHeader, hkey]
  · simp only [finishLine_newline, Bool.false_eq_true, ↓reduceIte, hstart, Option.map_some]
  · exact fun _ => hname.ne_cons rfl _ _

/-- A text where a value stands. -/
theorem readItem_writeText (text : String) (rest : List Char) :
    readItem (nestingLimit - 1) (writeText text.toList ++ '\n' :: rest) =
      some (.text text, '\n' :: rest) := by
  obtain ⟨quote, more, hquote, hwritten⟩ := writeText_head text.toList
  have hread := readText_writeText text.toList rest
  rw [hwritten, List.cons_append] at hread ⊢
  have hleaf : readItem (nestingLimit - 1) (quote :: (more ++ '\n' :: rest)) =
      readLeaf (quote :: (more ++ '\n' :: rest)) := by
    rcases hquote with rfl | rfl <;> rfl
  rw [hleaf]
  rcases hquote with rfl | rfl <;>
    simp only [readLeaf, hread, Option.map_some, String.ofList_toList]

theorem writeLine_append (key text : String) (rest : List Char) :
    writeLine key text ++ rest =
      key.toList ++ ' ' :: '=' :: ' ' :: (writeText text.toList ++ '\n' :: rest) := by
  simp only [writeLine, List.append_assoc, List.cons_append, List.nil_append]

theorem readPair_writeLine {key : String} (hkey : IsBare key) (text : String) (rest : List Char) :
    readPair (readItem (nestingLimit - 1)) (writeLine key text ++ rest) =
      some (([key], .text text), '\n' :: rest) := by
  obtain ⟨quote, more, hquote, hwritten⟩ := writeText_head text.toList
  have hequals : skipBlanks (' ' :: '=' :: ' ' :: (writeText text.toList ++ '\n' :: rest)) =
      '=' :: ' ' :: (writeText text.toList ++ '\n' :: rest) := rfl
  have hvalue : skipBlanks (' ' :: (writeText text.toList ++ '\n' :: rest)) =
      writeText text.toList ++ '\n' :: rest := by
    rw [hwritten]
    rcases hquote with rfl | rfl <;> rfl
  rw [writeLine_append, readPair, readKey_bare hkey (by decide) (by simp [hequals]), hequals]
  simp only [hvalue, readItem_writeText, Option.map_some]

theorem leads_line {d d' : Document} {key text : String} (hkey : IsBare key)
    (hput : d.put [key] (.text text) = some d') : d.Leads (writeLine key text) d' := by
  refine leads_of_readLine (by simp [writeLine]) (fun rest => ?_) fun rest => ?_
  · rw [writeLine_append, hkey.skipBlanks]
  · have hother {c : Char} (hc : isBareKeyChar c = false) (more : List Char) :
        writeLine key text ++ rest ≠ c :: more := by
      rw [writeLine_append]
      exact hkey.ne_cons hc _ _
    rw [readLine, readPair_writeLine hkey]
    · simp only [finishLine_newline, hput, Option.map_some]
    all_goals exact fun _ => hother rfl _

/-! ## Sections -/

/-- The document while the rows of the section `name` are read, after the rows `done`. -/
def inSection (done : Rows) (name : String) (rows : Rows) : Document :=
  ⟨done ++ [(name, .table .explicit rows)], [name]⟩

theorem startWith_openTable {d : Document} {name : String} (h : d.rows.get? name = none) :
    d.startWith Rows.openTable [name] = some (inSection d.rows name []) := by
  simp [startWith, Rows.within, Rows.openTable, h, inSection, Rows.add]

theorem put_inSection {done rows : Rows} {name key : String} (hname : done.get? name = none)
    (hkey : rows.get? key = none) (item : Item) :
    (inSection done name rows).put [key] item = some (inSection done name (rows.add key item)) := by
  have hsection : Rows.get? (done ++ [(name, .table .explicit rows)]) name =
      some (.table .explicit rows) := by
    rw [Rows.get?_append hname, Rows.get?_single]
  simp only [inSection, put, Rows.within, hsection, Rows.put, hkey, ↓reduceIte, Option.map_some,
    Rows.replace_append hname, Rows.replace_single]

theorem leads_lines {done rows : Rows} {name : String} (hname : done.get? name = none)
    {texts : Texts} (hkeys : AreKeys (texts.map (·.1)))
    (hnew : ∀ t ∈ texts, rows.get? t.1 = none) :
    (inSection done name rows).Leads (writeLines texts)
      (inSection done name (rows ++ textRows texts)) := by
  induction texts generalizing rows with
  | nil =>
    rw [textRows, List.flatMap_nil, List.append_nil]
    exact Leads.refl _
  | cons t texts ih =>
    obtain ⟨key, text⟩ := t
    obtain ⟨hkey, hnodup⟩ := List.nodup_cons.mp hkeys.nodup
    have hrest : AreKeys (texts.map (·.1)) :=
      ⟨fun key hkey => hkeys.bare key (List.mem_cons_of_mem _ hkey), hnodup⟩
    have hrow := hnew _ List.mem_cons_self
    have hnew' : ∀ t ∈ texts, Rows.get? (rows ++ textRow key text) t.1 = none := by
      intro t ht
      have hne : t.1 ≠ key := fun heq => hkey (List.mem_map.mpr ⟨t, ht, heq⟩)
      rw [Rows.get?_append (hnew t (List.mem_cons_of_mem _ ht)), get?_textRow_of_ne hne]
    have hmore := ih hrest hnew'
    rw [writeLines, textRows, List.flatMap_cons, List.flatMap_cons, ← List.append_assoc]
    refine Leads.append ?_ hmore
    cases text with
    | none =>
      rw [textRow, List.append_nil]
      exact Leads.refl _
    | some text => exact leads_line (hkeys.bare _ List.mem_cons_self) (put_inSection hname hrow _)

/-- **A section is read as one table of its texts.** -/
theorem leads_section {d : Document} {name : String} {texts : Texts} (hbare : IsBare name)
    (hname : d.rows.get? name = none) (hkeys : AreKeys (texts.map (·.1))) :
    d.Leads (writeHeader name ++ writeLines texts) (inSection d.rows name (textRows texts)) :=
  (leads_header hbare (startWith_openTable hname)).append
    (leads_lines hname hkeys fun _ _ => rfl)

end Document

/-- **A text of sections is read line by line.** -/
theorem readDocument_of_leads {cs : List Char} {d : Document} (h : Document.empty.Leads cs d)
    (hmark : ∀ more, cs ≠ '\ufeff' :: more) : readDocument cs = some d.rows := by
  have hend : d.Reaches [] d := by
    intro fuel hfuel
    obtain ⟨fuel, rfl⟩ := Nat.exists_eq_succ_of_ne_zero (Nat.ne_zero_of_lt hfuel)
    rfl
  have hread := h [] d hend
  rw [List.append_nil] at hread
  have hlines : Document.readLines (cs.length + 1) .empty cs = some d :=
    hread _ (Nat.lt_succ_self _)
  unfold readDocument
  split
  · rename_i more
    exact absurd rfl (hmark more)
  · simp only [hlines, Option.map_some]

end HealthRelay.Toml
