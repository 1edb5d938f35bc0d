import HealthRelay.Proofs.Json.Skip
import HealthRelay.Proofs.Json.Value

/-!
# Values are read alike wherever they stand

`Takes read vs a` says that a reader gets `a` from the value `vs` in every text of it, whatever the
blanks in it and whatever follows. A reader that has read a value once takes that value
(`ReadsValues`). For the readers of texts and counts this comes from the bytes of one literal
(`ReadsLiterals`), which they read up to the end that passing over it finds.
-/

namespace HealthRelay.Json

open Text

/-! ## Quoted texts -/

theorem readHex4_rest {a b c d : UInt8} {rest : Bytes} {n : Nat}
    (h : readHex4 (a :: b :: c :: d :: rest) = .ok (n, rest)) (rest' : Bytes) :
    readHex4 (a :: b :: c :: d :: rest') = .ok (n, rest') := by
  obtain ⟨_, _, _, _, ha, hb, hc, hd, heq⟩ := digits_of_readHex4 h
  cases heq
  obtain ⟨m, hall⟩ := readHex4_append ha hb hc hd
  cases h.symm.trans (hall rest)
  exact hall rest'

theorem of_readSecondHalf {first : Nat} {bs rest : Bytes} {c : Char}
    (h : readSecondHalf first bs = .ok (c, rest)) :
    ∃ code, IsEscape code ∧ bs = ascii '\\' :: (code ++ rest) ∧
      ∀ rest', readSecondHalf first (ascii '\\' :: (code ++ rest')) = .ok (c, rest') := by
  unfold readSecondHalf at h
  split at h
  · cases h
  split at h
  · cases h
  rename_i hslash
  split at h
  · cases h
  split at h
  · cases h
  rename_i hu
  split at h
  · cases h
  rename_i second after hhex
  split at h
  · rename_i hrange
    obtain ⟨rfl, rfl⟩ := Prod.mk.inj (Except.ok.inj h)
    obtain ⟨a, b, d, e, ha, hb, hd, he, rfl⟩ := digits_of_readHex4 hhex
    refine ⟨_, .code ha hb hd he, ?_, fun rest' => ?_⟩
    · rw [not_not.mp hslash, not_not.mp hu]
      rfl
    · simp only [readSecondHalf, ne_eq, not_true_eq_false, ↓reduceIte, List.cons_append,
        List.nil_append, readHex4_rest hhex rest']
      exact if_pos hrange
  · cases h

/-- An escape by code is one escape, or two that make a pair. -/
theorem of_readCodeEscape {bs rest : Bytes} {c : Char} (h : readCodeEscape bs = .ok (c, rest)) :
    ∃ code, (∀ raw, IsQuoted raw → IsQuoted (ascii '\\' :: ascii 'u' :: (code ++ raw))) ∧
      bs = code ++ rest ∧ ∀ rest', readCodeEscape (code ++ rest') = .ok (c, rest') := by
  unfold readCodeEscape at h
  split at h
  · cases h
  rename_i n after hhex
  obtain ⟨a, b, d, e, ha, hb, hd, he, rfl⟩ := digits_of_readHex4 hhex
  split at h
  · cases h
  rename_i hlow
  split at h
  · rename_i hhigh
    obtain ⟨code, hcode, rfl, hall⟩ := of_readSecondHalf h
    refine ⟨a :: b :: d :: e :: ascii '\\' :: code, fun raw hraw => ?_, rfl, fun rest' => ?_⟩
    · exact .escape (.code ha hb hd he) (.escape hcode hraw)
    · simp only [readCodeEscape, List.cons_append, readHex4_rest hhex, hlow, hhigh, and_self,
        ↓reduceIte, hall rest']
  · rename_i hhigh
    cases h
    refine ⟨[a, b, d, e], fun raw hraw => .escape (.code ha hb hd he) hraw, rfl, fun rest' => ?_⟩
    simp only [readCodeEscape, List.cons_append, List.nil_append, readHex4_rest hhex rest', hlow,
      hhigh, ↓reduceIte]

theorem of_readEscape {bs rest : Bytes} {c : Char} (h : readEscape bs = .ok (c, rest)) :
    ∃ code, (∀ raw, IsQuoted raw → IsQuoted (ascii '\\' :: (code ++ raw))) ∧ bs = code ++ rest ∧
      ∀ rest', readEscape (code ++ rest') = .ok (c, rest') := by
  cases bs with
  | nil => cases h
  | cons b bs =>
    rw [readEscape] at h
    split at h
    · rename_i hshort
      cases h
      have hb : b ∈ escapeLetters := shortEscape?_isSome_iff.mp (Option.isSome_of_eq_some hshort)
      exact ⟨[b], fun raw hraw => .escape (.short hb) hraw, rfl, readEscape_short hshort⟩
    · split at h
      · rename_i hu
        subst hu
        obtain ⟨code, hcode, rfl, hall⟩ := of_readCodeEscape h
        exact ⟨ascii 'u' :: code, hcode, rfl, hall⟩
      · cases h

theorem of_gatherQuoted {fuel : Nat} {bs text rest : Bytes}
    (h : gatherQuoted fuel bs = .ok (text, rest)) :
    ∃ raw, IsQuoted raw ∧ bs = raw ++ ascii '"' :: rest ∧
      ∀ rest', Gathers (raw ++ ascii '"' :: rest') text rest' := by
  induction fuel generalizing bs text with
  | zero => cases h
  | succ fuel ih =>
    cases bs with
    | nil => cases h
    | cons b bs =>
      rw [gatherQuoted] at h
      split at h
      · rename_i hquote
        cases h
        exact ⟨[], .nil, by rw [hquote, List.nil_append], Gathers.close⟩
      rename_i hquote
      split at h
      · rename_i hslash
        split at h
        · cases h
        rename_i c after hescape
        split at h
        · cases h
        rename_i text' rest' hgather
        cases h
        obtain ⟨code, hcode, rfl, hall⟩ := of_readEscape hescape
        obtain ⟨raw, hraw, rfl, hgathers⟩ := ih hgather
        refine ⟨_, hcode raw hraw, by simp [hslash], fun rest' => ?_⟩
        simpa using (hgathers rest').escape (hall _)
      rename_i hslash
      split at h
      · cases h
      rename_i hcontrol
      split at h
      · cases h
      rename_i text' rest' hgather
      cases h
      obtain ⟨raw, hraw, rfl, hgathers⟩ := ih hgather
      have hplain : IsPlain b := ⟨hquote, hslash, hcontrol⟩
      exact ⟨b :: raw, .plain hplain hraw, rfl, fun rest' => (hgathers rest').plain hplain⟩

/-- **A quoted text is read alike whatever follows it.** -/
theorem of_readQuoted {bs rest : Bytes} {s : String} (h : readQuoted bs = .ok (s, rest)) :
    ∃ raw, IsQuoted raw ∧ bs = raw ++ ascii '"' :: rest ∧
      ∀ rest', readQuoted (raw ++ ascii '"' :: rest') = .ok (s, rest') := by
  unfold readQuoted at h
  split at h
  · cases h
  rename_i text after hgather
  split at h
  · rename_i cs hdecode
    cases h
    obtain ⟨raw, hraw, rfl, hgathers⟩ := of_gatherQuoted hgather
    refine ⟨raw, hraw, rfl, fun rest' => ?_⟩
    simp only [readQuoted, hgathers rest' _ (Nat.le_refl _), hdecode]
  · cases h

/-! ## Whole numbers -/

theorem realNumber_ne_natural (negated : Bool) (significand : Nat) (exponent : Int)
    (bs : Bytes) (n : Nat) (rest : Bytes) :
    realNumber negated significand exponent bs ≠ .ok (.natural n, rest) := by
  intro h
  unfold realNumber at h
  split at h <;> cases h

theorem readExponent_ne_natural (negated : Bool) (significand : Nat) (start : Int) (bs : Bytes)
    (n : Nat) (rest : Bytes) :
    readExponent negated significand start bs ≠ .ok (.natural n, rest) := by
  intro h
  simp only [readExponent] at h
  repeat' split at h
  all_goals first
    | exact realNumber_ne_natural _ _ _ _ _ _ h
    | cases h

theorem readFraction_ne_natural (negated : Bool) (significand : Nat) (start : Int) (bs : Bytes)
    (n : Nat) (rest : Bytes) :
    readFraction negated significand start bs ≠ .ok (.natural n, rest) := by
  intro h
  simp only [readFraction] at h
  split at h
  · split at h <;> cases h
  split at h
  · exact realNumber_ne_natural _ _ _ _ _ _ h
  split at h
  · exact readExponent_ne_natural _ _ _ _ _ _ h
  · exact realNumber_ne_natural _ _ _ _ _ _ h

theorem wholeNumber_eq_natural {negated : Bool} {m n : Nat}
    (h : wholeNumber negated m = .natural n) : negated = false ∧ m = n := by
  cases negated with
  | false => exact ⟨rfl, Number.natural.inj h⟩
  | true =>
    simp only [wholeNumber, ↓reduceIte] at h
    split at h <;> cases h

theorem of_readAfterWhole {negated : Bool} {ds : Digits} {n : Nat} {rest : Bytes}
    (h : readAfterWhole negated ds = .ok (.natural n, rest)) :
    negated = false ∧ ds = ⟨n, ds.taken, 0, rest⟩ ∧
      ∀ b ∈ rest.head?, b ≠ ascii '.' ∧ b ≠ ascii 'e' ∧ b ≠ ascii 'E' := by
  obtain ⟨value, taken, dropped, after⟩ := ds
  unfold readAfterWhole at h
  split at h
  · rename_i hafter
    split at h
    · rename_i hdropped
      obtain ⟨hwhole, rfl⟩ := Prod.mk.inj (Except.ok.inj h)
      obtain ⟨rfl, rfl⟩ := wholeNumber_eq_natural hwhole
      simp only at hafter hdropped
      exact ⟨rfl, by rw [hafter, hdropped], by simp⟩
    · exact (realNumber_ne_natural _ _ _ _ _ _ h).elim
  · rename_i b bs hafter
    split at h
    · exact (readFraction_ne_natural _ _ _ _ _ _ h).elim
    rename_i hpoint
    split at h
    · exact (readExponent_ne_natural _ _ _ _ _ _ h).elim
    rename_i hletter
    split at h
    · rename_i hdropped
      obtain ⟨hwhole, rfl⟩ := Prod.mk.inj (Except.ok.inj h)
      obtain ⟨rfl, rfl⟩ := wholeNumber_eq_natural hwhole
      simp only at hafter hdropped
      refine ⟨rfl, by rw [hafter, hdropped], ?_⟩
      rintro c ⟨⟩
      exact ⟨hpoint, not_or.mp hletter⟩
    · exact (realNumber_ne_natural _ _ _ _ _ _ h).elim

theorem le_countDigits (n : Nat) (bs : Bytes) : n ≤ (countDigits n bs).1 := by
  induction bs generalizing n with
  | nil => exact Nat.le_refl n
  | cons b bs ih =>
    rw [countDigits]
    split
    · exact Nat.le_of_succ_le (ih (n + 1))
    · exact Nat.le_refl n

theorem isDigitByte_of_byteDigit {b : UInt8} {d : Nat} (h : byteDigit? b = some d) :
    isDigitByte b = true := by
  by_contra hb
  rw [byteDigit?_eq_none_iff.mpr (by simpa using hb)] at h
  cases h

/-- Digits that were all taken are taken from every text that ends them. -/
theorem of_takeDigits {value taken n t : Nat} {bs rest : Bytes}
    (h : takeDigits value taken bs = ⟨n, t, 0, rest⟩) :
    ∃ ds, (∀ b ∈ ds, isDigitByte b = true) ∧ bs = ds ++ rest ∧
      (∀ b ∈ rest.head?, isDigitByte b = false) ∧
      ∀ rest', (∀ b ∈ rest'.head?, isDigitByte b = false) →
        takeDigits value taken (ds ++ rest') = ⟨n, t, 0, rest'⟩ := by
  induction bs generalizing value taken with
  | nil =>
    cases h
    exact ⟨[], by simp, rfl, by simp, fun rest' hrest' => takeDigits_end hrest' _ _⟩
  | cons b bs ih =>
    cases hb : byteDigit? b with
    | none =>
      have hdigit := byteDigit?_eq_none_iff.mp hb
      rw [takeDigits, hb] at h
      cases h
      exact ⟨[], by simp, rfl, by simpa using hdigit, fun rest' hrest' => takeDigits_end hrest' _ _⟩
    | some d =>
      simp only [takeDigits, hb] at h
      split at h
      · rename_i hlimit
        obtain ⟨ds, hds, rfl, hrest, hall⟩ := ih h
        refine ⟨b :: ds, ?_, rfl, hrest, fun rest' hrest' => ?_⟩
        · simpa [isDigitByte_of_byteDigit hb] using hds
        · simp only [List.cons_append, takeDigits, hb, hlimit, ↓reduceIte, hall rest' hrest']
      · -- a digit past the limit would be counted as dropped
        have hle := le_countDigits 1 bs
        have hzero : (countDigits 1 bs).1 = 0 := congrArg Digits.dropped h
        omega

theorem eq_zero_of_byteDigit {b : UInt8} (h : byteDigit? b = some 0) : b = ascii '0' := by
  unfold byteDigit? at h
  split at h
  · rename_i hb
    have hvalue : b.toNat - 48 = 0 := Option.some.inj h
    exact UInt8.toNat_inj.mp (show b.toNat = 48 by omega)
  · cases h

/-- **A whole number is read alike from every text that ends it.** -/
theorem of_readNumber {negated : Bool} {bs rest : Bytes} {n : Nat}
    (h : readNumber negated bs = .ok (.natural n, rest)) :
    negated = false ∧ ∃ ds, IsWhole ds ∧ bs = ds ++ rest ∧ EndsNumber rest ∧
      ∀ rest', EndsNumber rest' → readNumber false (ds ++ rest') = .ok (.natural n, rest') := by
  cases bs with
  | nil => cases h
  | cons b bs =>
    rcases hb : byteDigit? b with _ | _ | d
    · rw [readNumber.eq_def] at h
      simp only [hb] at h
      cases h
    · obtain rfl := eq_zero_of_byteDigit hb
      have hhead : ∀ c ∈ bs.head?, isDigitByte c = false := by
        rintro c hc
        obtain ⟨bs, rfl⟩ := List.head?_eq_some_iff.mp hc
        rw [readNumber.eq_def] at h
        simp only [hb] at h
        split at h
        · cases h
        · simpa using ‹¬ isDigitByte c = true›
      rw [readNumber_zero hhead] at h
      obtain ⟨rfl, hds, hrest⟩ := of_readAfterWhole h
      cases hds
      refine ⟨rfl, [ascii '0'], isWhole_zero, rfl, fun c hc => ⟨hhead c hc, hrest c hc⟩,
        fun rest' hrest' => ?_⟩
      rw [List.singleton_append, readNumber_zero fun c hc => (hrest' c hc).1]
      exact readAfterWhole_ends hrest' 0 1
    · rw [readNumber_digit hb] at h
      obtain ⟨rfl, hds, hrest⟩ := of_readAfterWhole h
      obtain ⟨ds, hdigits, rfl, hend, hall⟩ := of_takeDigits hds
      have hdigit := isDigitByte_of_byteDigit hb
      have hzero : b ≠ ascii '0' := by
        rintro rfl
        cases hb
      have hwhole : IsWhole (b :: ds) :=
        ⟨⟨List.cons_ne_nil _ _, by simpa [hdigit] using hdigits⟩,
          fun h => absurd (Option.some.inj h) hzero⟩
      refine ⟨rfl, b :: ds, hwhole, rfl, fun c hc => ⟨hend c hc, hrest c hc⟩, fun rest' hrest' => ?_⟩
      rw [List.cons_append, readNumber_digit hb, hall rest' fun c hc => (hrest' c hc).1]
      exact readAfterWhole_ends hrest' _ _

/-! ## Readers -/

section Readers

variable {α β : Type} {read : Reader α}

/-- The reader gets `a` from the value `vs` in every text of it. -/
def Takes (read : Reader α) (vs : List Lexeme) (a : α) : Prop :=
  ∀ bs rest, Lexes vs bs rest → EndsNumber rest → read bs = .ok (a, rest)

/-- What is read is a value, and it is read alike from every text of it. -/
structure ReadsValues (read : Reader α) : Prop where
  lexes : ∀ bs a rest, read bs = .ok (a, rest) → ∃ vs, Derives .value vs ∧ Lexes vs bs rest
  takes : ∀ vs bs mid a rest, Derives .value vs → Lexes vs bs mid → EndsNumber mid →
    read bs = .ok (a, rest) → Takes read vs a

/-- What is read is a literal, and it is read alike from every text that begins with it. -/
def ReadsLiterals (read : Reader α) : Prop :=
  ∀ bs a rest, read bs = .ok (a, rest) → ∃ raw, IsLiteral raw ∧ skipBlanks bs = raw ++ rest ∧
    (IsNumber raw → EndsNumber rest) ∧
    ∀ bs' rest', skipBlanks bs' = raw ++ rest' → (IsNumber raw → EndsNumber rest') →
      read bs' = .ok (a, rest')

theorem ReadsLiterals.readsValues (h : ReadsLiterals read) : ReadsValues read where
  lexes bs a rest hread := by
    obtain ⟨raw, hraw, hbs, -, -⟩ := h bs a rest hread
    exact ⟨[.literal raw hraw], .literal hraw, Lexes.single_iff.mpr hbs⟩
  takes vs bs mid a rest hvalue hlex hmid hread := by
    obtain ⟨raw, hraw, hbs, hrest, hall⟩ := h bs a rest hread
    have hstart := skipStart_literal hraw hbs hrest
    -- the literal that was read is the one that stands there: both are passed over alike
    cases hvalue with
    | @literal raw' hraw' =>
      have hbs' := Lexes.single_iff.mp hlex
      cases hstart.symm.trans (skipStart_literal hraw' hbs' fun _ => hmid)
      obtain rfl : raw = raw' := List.append_cancel_right (hbs.symm.trans hbs')
      intro bs' rest' hlex' hrest'
      exact hall bs' rest' (Lexes.single_iff.mp hlex') fun _ => hrest'
    | empty n =>
      obtain ⟨after, hopening, -⟩ := Lexes.cons_iff.mp hlex
      cases hstart.symm.trans (skipStart_opening hopening)
    | nested hitems =>
      obtain ⟨after, hopening, -⟩ := Lexes.cons_iff.mp hlex
      cases hstart.symm.trans (skipStart_opening hopening)

theorem ReadsLiterals.map (h : ReadsLiterals read) (f : α → β) :
    ReadsLiterals fun bs => (read bs).map fun (a, rest) => (f a, rest) := by
  intro bs b rest hread
  obtain ⟨⟨a, after⟩, hgot, heq⟩ := map_eq_ok hread
  obtain ⟨rfl, rfl⟩ := Prod.mk.inj heq
  obtain ⟨raw, hraw, hbs, hrest, hall⟩ := h bs a after hgot
  refine ⟨raw, hraw, hbs, hrest, fun bs' rest' hbs' hrest' => ?_⟩
  simp only [hall bs' rest' hbs' hrest', Except.map]

theorem Takes.map {vs : List Lexeme} {a : α} (h : Takes read vs a) (f : α → β) :
    Takes (fun bs => (read bs).map fun (a, rest) => (f a, rest)) vs (f a) := by
  intro bs rest hlex hrest
  simp only [h bs rest hlex hrest, Except.map]

theorem not_isNumber {b : UInt8} {bs : Bytes} (hminus : b ≠ ascii '-')
    (hdigit : isDigitByte b = false) : ¬ IsNumber (b :: bs) := by
  intro h
  obtain ⟨c, cs, hc, heq⟩ := h.head
  cases heq
  rcases hc with rfl | hc
  · exact hminus rfl
  · cases hdigit.symm.trans hc

theorem readsLiterals_text : ReadsLiterals readText := by
  intro bs s rest h
  unfold readText at h
  split at h
  · cases h
  rename_i b after hbs
  split at h
  · rename_i hb
    obtain ⟨raw, hraw, rfl, hall⟩ := of_readQuoted h
    refine ⟨quotedBytes raw, .text hraw, by simp [hbs, hb, quotedBytes],
      fun hnumber => absurd hnumber (not_isNumber (by decide) (by decide)), fun bs' rest' hbs' _ => ?_⟩
    have hquoted : skipBlanks bs' = ascii '"' :: (raw ++ ascii '"' :: rest') := by
      simp [hbs', quotedBytes]
    simp only [readText, hquoted, ↓reduceIte, hall rest']
  · cases h

theorem bounded_eq_ok {limit n : Nat} {wanted : Wanted} {after rest : Bytes} {x : Number}
    (h : bounded limit wanted after x = .ok (n, rest)) :
    x = .natural n ∧ after = rest ∧ n ≤ limit := by
  cases x with
  | natural m =>
    rw [bounded] at h
    split at h
    · cases h
      exact ⟨rfl, rfl, ‹_›⟩
    · cases h
  | negative m => cases h
  | real negated m => cases h

theorem isNumber_of_whole {ds : Bytes} (h : IsWhole ds) : IsNumber ds :=
  ⟨[], ds, .inl rfl, ⟨ds, [], [], h, .inl rfl, .inl rfl, by simp⟩, rfl⟩

theorem readsLiterals_whole (limit : Nat) (wanted : Wanted) :
    ReadsLiterals (readWhole limit wanted) := by
  intro bs n rest h
  unfold readWhole at h
  split at h
  · cases h
  rename_i b after hbs
  split at h
  · obtain ⟨⟨x, mid⟩, hnumber, h⟩ := bind_eq_ok h
    obtain ⟨rfl, rfl, -⟩ := bounded_eq_ok h
    cases (of_readNumber hnumber).1
  rename_i hminus
  split at h
  · rename_i hdigit
    obtain ⟨⟨x, mid⟩, hnumber, h⟩ := bind_eq_ok h
    obtain ⟨rfl, rfl, hlimit⟩ := bounded_eq_ok h
    obtain ⟨-, ds, hwhole, hds, hmid, hall⟩ := of_readNumber hnumber
    refine ⟨ds, .number (isNumber_of_whole hwhole), hbs.trans hds, fun _ => hmid,
      fun bs' rest' hbs' hrest' => ?_⟩
    have hread := hall rest' (hrest' (isNumber_of_whole hwhole))
    obtain ⟨d, ds, rfl⟩ := List.exists_cons_of_ne_nil hwhole.1.1
    obtain ⟨rfl, -⟩ := List.cons.inj hds
    rw [List.cons_append] at hbs' hread
    simp only [readWhole, hbs', if_neg hminus, hdigit, ↓reduceIte, hread, ok_bind]
    exact if_pos hlimit
  · cases h

theorem readsLiterals_count : ReadsLiterals readCount :=
  (readsLiterals_whole 4294967295 .count).map UInt32.ofNat

/-- A word for nothing. -/
def Lexeme.null : Lexeme := .literal (ascii 'n' :: nullRest) .null

theorem readOptional_null {bs rest : Bytes}
    (hbs : skipBlanks bs = (ascii 'n' :: nullRest) ++ rest) :
    readOptional read bs = .ok (none, rest) := by
  have hword := readWord_append nullRest rest
  simp only [readOptional, hbs, List.cons_append, ↓reduceIte, hword]
  rfl

theorem takes_null : Takes (readOptional read) [.null] none := by
  intro bs rest hlex _
  exact readOptional_null (Lexes.single_iff.mp hlex)

theorem ReadsLiterals.optional (h : ReadsLiterals read) : ReadsLiterals (readOptional read) := by
  intro bs o rest hread
  unfold readOptional at hread
  split at hread
  · obtain ⟨⟨a, after⟩, hread, -⟩ := map_eq_ok hread
    obtain ⟨raw, hraw, hbs, -, -⟩ := h [] a after hread
    obtain ⟨b, bs, -, rfl⟩ := hraw.head
    cases hbs
  rename_i b after hbs
  split at hread
  · rename_i hb
    obtain ⟨mid, hword, heq⟩ := map_eq_ok hread
    obtain ⟨rfl, rfl⟩ := Prod.mk.inj heq
    exact ⟨_, .null, by rw [hbs, hb, word_of_readWord hword, List.cons_append],
      fun hnumber => absurd hnumber (not_isNumber (by decide) (by decide)),
      fun bs' rest' hbs' _ => readOptional_null hbs'⟩
  rename_i hnull
  obtain ⟨⟨a, mid⟩, hgot, heq⟩ := map_eq_ok hread
  obtain ⟨rfl, rfl⟩ := Prod.mk.inj heq
  obtain ⟨raw, hraw, hskip, hmid, hall⟩ := h _ a mid hgot
  rw [← hbs, skipBlanks_idem] at hskip
  refine ⟨raw, hraw, hskip, hmid, fun bs' rest' hbs' hrest' => ?_⟩
  have hread' := hall (skipBlanks bs') rest' (by rw [skipBlanks_idem, hbs']) hrest'
  obtain ⟨c, cs, -, rfl⟩ := hraw.head
  obtain ⟨rfl, -⟩ := List.cons.inj (hbs.symm.trans hskip)
  rw [List.cons_append] at hbs'
  rw [hbs'] at hread'
  simp only [readOptional, hbs', if_neg hnull, hread', Except.map]

end Readers

end HealthRelay.Json
