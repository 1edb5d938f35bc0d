import HealthRelay.Toml.Writer

/-!
# Texts come back in TOML

Whatever style a text is written in, `readText` gives it back (`readText_writeText`).

Both readers of double quotes are `scan multi`, and `Scans multi body text rest` is what scanning
comes to with any fuel that covers the body. A written character is one piece of a body, escaped or
as it is (`piece_writeChar`). In three quotes the only doubt is where the text ends: a quote that is
not followed by two more belongs to the text (`Scans.quote`), and at most two may touch the closing
ones.
-/

namespace HealthRelay.Toml

open Text

/-! ## The two readers of double quotes -/

/-- The reader of a text in double quotes, on one line or on several. -/
def scan : (multi : Bool) → Nat → List Char → Option (List Char × List Char)
  | false => readBasic
  | true => readMultiBasic

/-- Scanning ends with `text` and leaves `rest`, with any fuel that covers the body. -/
def Scans (multi : Bool) (body text rest : List Char) : Prop :=
  ∀ fuel, body.length ≤ fuel → scan multi fuel body = some (text, rest)

namespace Scans

variable {multi : Bool} {c : Char} {cs body text text' rest : List Char}

/-- One step of a scan, whatever fuel is left after it. -/
theorem step (h : Scans multi body text rest) (hshort : body.length < cs.length)
    (hstep : ∀ fuel, scan multi fuel body = some (text, rest) →
      scan multi (fuel + 1) cs = some (text', rest)) : Scans multi cs text' rest := by
  intro fuel hfuel
  obtain ⟨fuel, rfl⟩ := Nat.exists_eq_succ_of_ne_zero (show fuel ≠ 0 by omega)
  exact hstep fuel (h fuel (by omega))

theorem plain (h : Scans multi body text rest) (hc : isPlainChar c = true) :
    Scans multi (c :: body) (c :: text) rest := by
  have hne : ∀ d, isPlainChar d = false → c ≠ d := by
    rintro d hd rfl
    exact Bool.false_ne_true (hd.symm.trans hc)
  have hquote := hne '"' (by decide)
  have hslash := hne '\\' (by decide)
  have hreturn := hne '\r' (by decide)
  refine h.step (by simp) fun fuel hback => ?_
  cases multi with
  | false =>
    rw [scan] at hback
    rw [scan, readBasic, if_pos hc, hback]
    · rfl
    · exact hquote
    · exact hslash
  | true =>
    rw [scan] at hback
    rw [scan, readMultiBasic, if_pos (by simp [hc]), hback]
    · rfl
    · exact fun _ h => absurd h hquote
    · exact hquote
    · exact hslash
    · exact fun _ h => absurd h hreturn

theorem newline (h : Scans true body text rest) :
    Scans true ('\n' :: body) ('\n' :: text) rest := by
  refine h.step (by simp) fun fuel hback => ?_
  rw [scan] at hback
  simp [scan, readMultiBasic, hback]

/-- An escape whose letter cannot be taken for the end of a line. -/
theorem escape {letter : Char} {code : List Char} (h : Scans multi body text rest)
    (hletter : isBlankChar letter = false ∧ letter ≠ '\n' ∧ letter ≠ '\r')
    (hcode : readEscape (letter :: (code ++ body)) = some (c, body)) :
    Scans multi ('\\' :: letter :: (code ++ body)) (c :: text) rest := by
  have hline : readContinuation (letter :: (code ++ body)) = none := by
    simp [readContinuation, skipBlanks, readNewline, hletter]
  refine h.step (by simp; omega) fun fuel hback => ?_
  cases multi with
  | false =>
    rw [scan] at hback
    simp [scan, readBasic, hcode, hback]
  | true =>
    rw [scan] at hback
    simp [scan, readMultiBasic, hline, hcode, hback]

/-- A quote belongs to a text in three quotes unless two more follow it. -/
theorem quote (h : Scans true body text rest) (hbody : ∀ more, body ≠ '"' :: '"' :: more) :
    Scans true ('"' :: body) ('"' :: text) rest := by
  refine h.step (by simp) fun fuel hback => ?_
  rw [scan] at hback
  rw [scan, readMultiBasic, hback]
  · rfl
  · intro more heq
    exact hbody more heq

end Scans

/-! ## Written characters -/

theorem hexValue?_hexDigitUpper : ∀ d < 16, hexValue? (hexDigitUpper d).toNat = some d := by decide

theorem readEscape_codeEscape {c : Char} (h : c.toNat < 0x80) (body : List Char) :
    readEscape ('u' :: '0' :: '0' :: hexDigitUpper (c.toNat / 16) ::
      hexDigitUpper (c.toNat % 16) :: body) = some (c, body) := by
  have hzero : hexValue? '0'.toNat = some 0 := by decide
  have hvalue : (((0 * 16 + 0) * 16 + 0) * 16 + c.toNat / 16) * 16 + c.toNat % 16 = c.toNat := by
    omega
  have hvalid : c.toNat.isValidChar := c.valid
  simp only [readEscape, readCodePoint, readHex, hzero,
    hexValue?_hexDigitUpper _ (show c.toNat / 16 < 16 by omega),
    hexValue?_hexDigitUpper _ (show c.toNat % 16 < 16 by omega), hvalue, if_pos hvalid,
    Char.ofNat_toNat]

theorem toNat_of_needsCode {c : Char} (h : needsCode c = true) : c.toNat < 0x80 := by
  simp only [needsCode, Bool.or_eq_true, Bool.and_eq_true, decide_eq_true_eq, beq_iff_eq] at h
  rcases h with ⟨⟨h, -⟩, -⟩ | rfl
  · omega
  · decide

theorem range_of_uncoded {c : Char} (hcoded : needsCode c = false) (hline : c ≠ '\n') :
    c = '\t' ∨ (0x20 ≤ c.toNat ∧ c.toNat ≤ 0x7E) ∨ 0x80 ≤ c.toNat := by
  have hdelete : c ≠ '\x7f' := by
    rintro rfl
    exact absurd hcoded (by decide)
  have hnat : c.toNat ≠ 0x7F := fun h => hdelete (Char.toNat_inj.mp h)
  by_cases htab : c = '\t'
  · exact .inl htab
  · simp [needsCode, htab, hline, hdelete] at hcoded
    omega

theorem isPlainChar_of_uncoded {c : Char} (hcoded : needsCode c = false) (hquote : c ≠ '"')
    (hslash : c ≠ '\\') (hline : c ≠ '\n') : isPlainChar c = true := by
  rcases range_of_uncoded hcoded hline with rfl | h | h
  · decide
  · simp [isPlainChar, h, hquote, hslash]
  · simp [isPlainChar, h]

/-- How a character other than a quote is written: by an escape, or as it is. -/
inductive Piece (multi : Bool) (c : Char) : List Char → Prop
  | escape {letter : Char} {code : List Char}
      (hletter : isBlankChar letter = false ∧ letter ≠ '\n' ∧ letter ≠ '\r')
      (hcode : ∀ body, readEscape (letter :: (code ++ body)) = some (c, body)) :
      Piece multi c ('\\' :: letter :: code)
  | plain (hc : isPlainChar c = true) : Piece multi c [c]
  | newline (hmulti : multi = true) (hc : c = '\n') : Piece multi c ['\n']

theorem piece_writeChar (multi : Bool) {c : Char} (hquote : c ≠ '"') :
    Piece multi c (writeChar multi c) := by
  unfold writeChar
  split
  -- a line end stands as it is where there may be several lines
  case h_3 =>
    cases multi with
    | false => exact .escape (by decide) fun _ => rfl
    | true => exact .newline rfl rfl
  -- no letter of its own
  case h_7 hback htab hline hfeed hreturn hslash =>
    split
    · rename_i hcoded
      exact .escape (by decide) (readEscape_codeEscape (toNat_of_needsCode hcoded))
    · rename_i hcoded
      exact .plain (isPlainChar_of_uncoded (by simpa using hcoded) hquote hslash hline)
  all_goals exact .escape (by decide) fun _ => rfl

namespace Scans

variable {multi : Bool} {c : Char} {cs body text rest : List Char}

/-- **A written character is scanned as itself.** -/
theorem piece {written : List Char} (h : Scans multi body text rest)
    (hpiece : Piece multi c written) : Scans multi (written ++ body) (c :: text) rest := by
  cases hpiece with
  | escape hletter hcode => exact h.escape hletter (hcode body)
  | plain hc => exact h.plain hc
  | newline hmulti hc =>
    subst hmulti hc
    exact h.newline

theorem escapedQuote (h : Scans multi body text rest) :
    Scans multi ('\\' :: '"' :: body) ('"' :: text) rest := by
  show Scans multi ('\\' :: '"' :: ([] ++ body)) ('"' :: text) rest
  exact h.escape (by decide) rfl

/-! ## Double quotes on one line -/

theorem basic_close (rest : List Char) : Scans false ('"' :: rest) [] rest := by
  intro fuel hfuel
  obtain ⟨fuel, rfl⟩ := Nat.exists_eq_add_of_le' hfuel
  rfl

theorem basic (cs rest : List Char) :
    Scans false (writeBasic false 0 0 cs ++ '"' :: rest) cs rest := by
  induction cs with
  | nil => exact basic_close rest
  | cons c cs ih =>
    rw [writeBasic]
    split
    · rename_i hc
      subst hc
      exact ih.escapedQuote
    · rename_i hc
      rw [List.append_assoc]
      exact ih.piece (piece_writeChar false hc)

end Scans

/-- The first character of a piece is never a quote or the start of another line end. -/
theorem Piece.head {multi : Bool} {c : Char} {written : List Char} (h : Piece multi c written)
    (hquote : c ≠ '"') :
    ∃ d ds, written = d :: ds ∧ d ≠ '"' ∧ d ≠ '\r' ∧ (d = '\n' → c = '\n') := by
  cases h with
  | escape => exact ⟨'\\', _, rfl, by decide, by decide, fun h => absurd h (by decide)⟩
  | plain hc =>
    refine ⟨c, [], rfl, hquote, ?_, id⟩
    rintro rfl
    exact absurd hc (by decide)
  | newline _ hc => exact ⟨'\n', [], rfl, by decide, by decide, fun _ => hc⟩

/-- No quote stands first where none may stand as it is, or where another character does. -/
theorem writeBasic_head (multi : Bool) (allowed run : Nat) {c : Char} (cs : List Char)
    (h : c ≠ '"' ∨ allowed ≤ run) :
    ∃ d ds, writeBasic multi allowed run (c :: cs) = d :: ds ∧ d ≠ '"' ∧ d ≠ '\r' ∧
      (d = '\n' → c = '\n') := by
  rw [writeBasic]
  split
  · rename_i hc
    rw [if_neg (Nat.not_lt.mpr (h.resolve_left (not_not_intro hc)))]
    exact ⟨'\\', _, rfl, by decide, by decide, fun h => absurd h (by decide)⟩
  · rename_i hc
    obtain ⟨d, ds, hwritten, hd⟩ := (piece_writeChar multi hc).head hc
    exact ⟨d, _, by rw [hwritten, List.cons_append], hd⟩

/-! ## Three double quotes -/

def closing (quote : Char) (rest : List Char) : List Char :=
  quote :: quote :: quote :: rest

/-- What follows a text is not a quote. -/
def Apart (quote : Char) (rest : List Char) : Prop :=
  ∀ more, rest ≠ quote :: more

theorem closingQuotes_replicate {quote : Char} {rest : List Char} (hrest : Apart quote rest) :
    ∀ n ≤ 2, closingQuotes quote (List.replicate n quote ++ rest) =
      (List.replicate n quote, rest) := by
  have hnone : closingQuotes quote rest = ([], rest) := by
    match rest, hrest with
    | [], _ => rfl
    | [a], h => simp [closingQuotes, show a ≠ quote from fun heq => h [] (heq ▸ rfl)]
    | a :: b :: more, h =>
      simp [closingQuotes, show a ≠ quote from fun heq => h (b :: more) (heq ▸ rfl)]
  intro n hn
  match n, hn with
  | 0, _ => exact hnone
  | 1, _ =>
    match rest, hrest with
    | [], _ => simp [closingQuotes]
    | a :: more, h =>
      simp [closingQuotes, show a ≠ quote from fun heq => h more (heq ▸ rfl)]
  | 2, _ => simp [closingQuotes, List.replicate]

theorem replicate_closing (quote : Char) (n : Nat) (rest : List Char) :
    List.replicate n quote ++ closing quote rest =
      closing quote (List.replicate n quote ++ rest) := by
  induction n with
  | zero => rfl
  | succ n ih => rw [List.replicate_succ, List.cons_append, ih, closing, closing, List.cons_append]

/-- Where the quotes that a text ends with touch the closing ones, at most two are the text's. -/
theorem Scans.multi_close {rest : List Char} (hrest : Apart '"' rest) {n : Nat} (hn : n ≤ 2) :
    Scans true (List.replicate n '"' ++ closing '"' rest) (List.replicate n '"') rest := by
  rw [replicate_closing]
  intro fuel hfuel
  obtain ⟨fuel, rfl⟩ := Nat.exists_eq_succ_of_ne_zero (Nat.ne_zero_of_lt hfuel)
  rw [scan, closing, readMultiBasic, closingQuotes_replicate hrest n hn]

/-- Two quotes in a row are followed by another character or an escape, unless the text ends. -/
theorem not_two_quotes {run : Nat} {cs : List Char} (hcs : cs ≠ [])
    (hlast : ¬ (cs = ['"'] ∧ run = 0)) (rest more : List Char) :
    writeBasic true 2 (run + 1) cs ++ rest ≠ '"' :: '"' :: more := by
  obtain ⟨d, ds, rfl⟩ := List.exists_cons_of_ne_nil hcs
  intro heq
  by_cases hd : d ≠ '"' ∨ 2 ≤ run + 1
  · obtain ⟨e, es, hwritten, he, -⟩ := writeBasic_head true 2 (run + 1) ds hd
    rw [hwritten] at heq
    exact he (List.cons.inj heq).1
  · obtain ⟨hd, hrun⟩ := not_or.mp hd
    obtain rfl : d = '"' := Decidable.not_not.mp hd
    obtain rfl : run = 0 := by omega
    have hds : ds ≠ [] := fun hnil => hlast ⟨by rw [hnil], rfl⟩
    obtain ⟨e, es, rfl⟩ := List.exists_cons_of_ne_nil hds
    obtain ⟨f, fs, hwritten, hf, -⟩ := writeBasic_head true 2 2 es (.inr (Nat.le_refl 2))
    rw [writeBasic, if_pos rfl, if_pos (by omega), hwritten] at heq
    exact hf (List.cons.inj (List.cons.inj heq).2).1

theorem Scans.multi {rest : List Char} (hrest : Apart '"' rest) (cs : List Char) (run : Nat) :
    Scans true (writeBasic true 2 run cs ++ closing '"' rest) cs rest := by
  induction cs generalizing run with
  | nil => exact multi_close (n := 0) hrest (by omega)
  | cons c cs ih =>
    rw [writeBasic]
    split
    · rename_i hc
      subst hc
      split
      -- the quote stands as it is: it is the last of one or two, or something else follows
      · by_cases hnil : cs = []
        · rw [hnil]
          exact multi_close (n := 1) hrest (by omega)
        · by_cases hlast : cs = ['"'] ∧ run = 0
          · rw [hlast.1, hlast.2]
            exact multi_close (n := 2) hrest (by omega)
          · exact (ih (run + 1)).quote (not_two_quotes hnil hlast _)
      · exact (ih 0).escapedQuote
    · rename_i hc
      rw [List.append_assoc]
      exact (ih 0).piece (piece_writeChar true hc)

/-! ## Single quotes -/

theorem isLiteralChar_of_uncoded {c : Char} (hcoded : needsCode c = false) (hquote : c ≠ '\'')
    (hline : c ≠ '\n') : isLiteralChar c = true := by
  rcases range_of_uncoded hcoded hline with rfl | h | h
  · decide
  · simp [isLiteralChar, h, hquote]
  · simp [isLiteralChar, h]

theorem readLiteral_text {cs : List Char} (hcoded : ∀ c ∈ cs, needsCode c = false)
    (hquote : '\'' ∉ cs) (hline : '\n' ∉ cs) (rest : List Char) :
    readLiteral (cs ++ '\'' :: rest) = some (cs, rest) := by
  induction cs with
  | nil => rfl
  | cons c cs ih =>
    simp only [List.mem_cons, not_or, forall_eq_or_imp] at hcoded hquote hline
    have hplain := isLiteralChar_of_uncoded hcoded.1 (Ne.symm hquote.1) (Ne.symm hline.1)
    rw [List.cons_append, readLiteral, if_pos hplain, ih hcoded.2 hquote.2 hline.2]
    · rfl
    · exact Ne.symm hquote.1

theorem hasRun_of_le {c : Char} {n run : Nat} (h : n ≤ run) (cs : List Char) :
    hasRun c n run cs = true := by
  cases cs <;> simp [hasRun, h]

theorem hasRun_mono {c : Char} {n run run' : Nat} (hle : run ≤ run') {cs : List Char}
    (h : hasRun c n run cs = true) : hasRun c n run' cs = true := by
  induction cs generalizing run run' with
  | nil =>
    simp only [hasRun, decide_eq_true_eq] at h ⊢
    omega
  | cons d ds ih =>
    simp only [hasRun, Bool.or_eq_true, decide_eq_true_eq] at h ⊢
    refine h.imp (fun h => by omega) (ih ?_)
    split <;> omega

theorem hasRun_tail {c d : Char} {n : Nat} {cs : List Char} (h : hasRun c n 0 (d :: cs) = false) :
    hasRun c n 0 cs = false := by
  rw [hasRun, Bool.or_eq_false_iff] at h
  refine Bool.eq_false_iff.mpr fun hcs => Bool.eq_false_iff.mp h.2 ?_
  exact hasRun_mono (Nat.zero_le _) hcs

theorem readMultiLiteral_close {rest : List Char} (hrest : Apart '\'' rest) {n : Nat} (hn : n ≤ 2) :
    readMultiLiteral (List.replicate n '\'' ++ closing '\'' rest) =
      some (List.replicate n '\'', rest) := by
  rw [replicate_closing, closing, readMultiLiteral, closingQuotes_replicate hrest n hn]

theorem not_two_of_noRun {cs : List Char} (hcs : cs ≠ []) (hlast : cs ≠ ['\''])
    (hrun : hasRun '\'' 3 0 ('\'' :: cs) = false) (rest more : List Char) :
    cs ++ rest ≠ '\'' :: '\'' :: more := by
  intro heq
  match cs with
  | [] => exact hcs rfl
  | [d] => exact hlast (by rw [(List.cons.inj heq).1])
  | d :: e :: es =>
    simp only [List.cons_append, List.cons.injEq] at heq
    obtain ⟨rfl, rfl, -⟩ := heq
    simp [hasRun, hasRun_of_le] at hrun

theorem readMultiLiteral_text {cs rest : List Char} (hcoded : ∀ c ∈ cs, needsCode c = false)
    (hrun : hasRun '\'' 3 0 cs = false) (hrest : Apart '\'' rest) :
    readMultiLiteral (cs ++ closing '\'' rest) = some (cs, rest) := by
  induction cs with
  | nil => exact readMultiLiteral_close (n := 0) hrest (by omega)
  | cons c cs ih =>
    simp only [List.mem_cons, forall_eq_or_imp] at hcoded
    have hback := ih hcoded.2 (hasRun_tail hrun)
    by_cases hc : c = '\''
    · subst hc
      by_cases hnil : cs = []
      · rw [hnil]
        exact readMultiLiteral_close (n := 1) hrest (by omega)
      · by_cases hlast : cs = ['\'']
        · rw [hlast]
          exact readMultiLiteral_close (n := 2) hrest (by omega)
        · rw [List.cons_append, readMultiLiteral, hback]
          · rfl
          · exact not_two_of_noRun hnil hlast hrun _
    · have hreturn : c ≠ '\r' := by
        rintro rfl
        exact absurd hcoded.1 (by decide)
      have hplain : (c == '\n' || isLiteralChar c) = true := by
        by_cases hline : c = '\n'
        · simp [hline]
        · simp [isLiteralChar_of_uncoded hcoded.1 hc hline]
      rw [List.cons_append, readMultiLiteral, if_pos hplain, hback]
      · rfl
      · exact fun _ h => absurd h hc
      · exact hc
      · exact fun _ h => absurd h hreturn

/-! ## Styles -/

theorem Style.of_literal {cs : List Char} (h : Style.of cs = .literal) :
    (∀ c ∈ cs, needsCode c = false) ∧ '\'' ∉ cs ∧ '\n' ∉ cs ∧ cs ≠ [] := by
  have hnil : cs ≠ [] := by
    rintro rfl
    exact absurd h (by decide)
  unfold Style.of at h
  simp only at h
  repeat' split at h
  all_goals simp_all

theorem Style.of_multiLiteral {cs : List Char} (h : Style.of cs = .multiLiteral) :
    (∀ c ∈ cs, needsCode c = false) ∧ hasRun '\'' 3 0 cs = false := by
  unfold Style.of at h
  simp only at h
  repeat' split at h
  all_goals simp_all

/-- The line end that is skipped behind the opening quotes is never the text's own. -/
theorem skipNewline_opening {cs body : List Char}
    (h : '\n' ∉ cs → ∀ more, body ≠ '\n' :: more ∧ body ≠ '\r' :: more) :
    skipNewline (opening cs ++ body) = body := by
  rw [opening]
  split
  · rfl
  · rename_i hline
    have hbody := h (by simpa using hline)
    rw [List.nil_append, skipNewline, readNewline]
    · rfl
    · exact fun more => (hbody more).1
    · exact fun more => (hbody ('\n' :: more)).2

theorem apart_newline (quote : Char) (hquote : quote ≠ '\n') (rest : List Char) :
    Apart quote ('\n' :: rest) :=
  fun _ heq => hquote (List.cons.inj heq).1.symm

theorem readText_basic (cs rest : List Char) :
    readText ('"' :: (writeBasic false 0 0 cs ++ '"' :: '\n' :: rest)) =
      some (cs, '\n' :: rest) := by
  have hscan := Scans.basic cs ('\n' :: rest) _ (Nat.le_refl _)
  rw [scan] at hscan
  rw [readText, hscan]
  intro more heq
  cases cs with
  | nil => cases heq
  | cons c cs =>
    obtain ⟨d, ds, hwritten, hd, -⟩ := writeBasic_head false 0 0 cs (.inr (Nat.le_refl 0))
    rw [hwritten] at heq
    exact hd (List.cons.inj heq).1

theorem readText_literal {cs : List Char} (h : Style.of cs = .literal) (rest : List Char) :
    readText ('\'' :: (cs ++ '\'' :: '\n' :: rest)) = some (cs, '\n' :: rest) := by
  obtain ⟨hcoded, hquote, hline, hnil⟩ := Style.of_literal h
  rw [readText, readLiteral_text hcoded hquote hline]
  intro more heq
  obtain ⟨c, cs, rfl⟩ := List.exists_cons_of_ne_nil hnil
  rw [List.cons_append] at heq
  exact hquote (List.mem_cons.mpr (.inl (List.cons.inj heq).1.symm))

theorem readText_multiBasic (cs rest : List Char) :
    readText ('"' :: '"' :: '"' :: (opening cs ++
      (writeBasic true 2 0 cs ++ closing '"' ('\n' :: rest)))) = some (cs, '\n' :: rest) := by
  have hbody : skipNewline (opening cs ++ (writeBasic true 2 0 cs ++ closing '"' ('\n' :: rest))) =
      writeBasic true 2 0 cs ++ closing '"' ('\n' :: rest) := by
    refine skipNewline_opening fun hline more => ?_
    cases cs with
    | nil => simp [writeBasic, closing]
    | cons c cs =>
      by_cases hc : c = '"'
      · simp [hc, writeBasic]
      · obtain ⟨d, ds, hwritten, -, hreturn, hd⟩ := writeBasic_head true 2 0 cs (.inl hc)
        have hnewline : d ≠ '\n' := fun h => hline (List.mem_cons.mpr (.inl (hd h).symm))
        simp [hwritten, hreturn, hnewline]
  have hscan := Scans.multi (apart_newline '"' (by decide) rest) cs 0 _ (Nat.le_refl _)
  rw [scan] at hscan
  rw [readText, hbody, hscan]

theorem readText_multiLiteral {cs : List Char} (h : Style.of cs = .multiLiteral)
    (rest : List Char) :
    readText ('\'' :: '\'' :: '\'' :: (opening cs ++ (cs ++ closing '\'' ('\n' :: rest)))) =
      some (cs, '\n' :: rest) := by
  obtain ⟨hcoded, hrun⟩ := Style.of_multiLiteral h
  have hbody : skipNewline (opening cs ++ (cs ++ closing '\'' ('\n' :: rest))) =
      cs ++ closing '\'' ('\n' :: rest) := by
    refine skipNewline_opening fun hline more => ?_
    cases cs with
    | nil => simp [closing]
    | cons c cs =>
      have hreturn : c ≠ '\r' := by
        rintro rfl
        exact absurd (hcoded _ List.mem_cons_self) (by decide)
      have hc : c ≠ '\n' := by
        rintro rfl
        exact hline List.mem_cons_self
      simp [hreturn, hc]
  rw [readText, hbody, readMultiLiteral_text hcoded hrun (apart_newline '\'' (by decide) rest)]

/-- **A text is read back in whatever style it is written.** -/
theorem readText_writeText (cs rest : List Char) :
    readText (writeText cs ++ '\n' :: rest) = some (cs, '\n' :: rest) := by
  unfold writeText
  cases hstyle : Style.of cs with
  | basic =>
    simp only [List.cons_append, List.append_assoc, List.nil_append]
    exact readText_basic cs rest
  | literal =>
    simp only [List.cons_append, List.append_assoc, List.nil_append]
    exact readText_literal hstyle rest
  | multiBasic =>
    simp only [List.cons_append, List.append_assoc, List.nil_append]
    exact readText_multiBasic cs rest
  | multiLiteral =>
    simp only [List.cons_append, List.append_assoc, List.nil_append]
    exact readText_multiLiteral hstyle rest

/-- A written text begins with a quote of one kind or the other. -/
theorem writeText_head (cs : List Char) :
    ∃ quote more, (quote = '"' ∨ quote = '\'') ∧ writeText cs = quote :: more := by
  unfold writeText
  split
  · exact ⟨'"', _, .inl rfl, rfl⟩
  · exact ⟨'\'', _, .inr rfl, rfl⟩
  · exact ⟨'"', _, .inl rfl, rfl⟩
  · exact ⟨'\'', _, .inr rfl, rfl⟩

end HealthRelay.Toml
