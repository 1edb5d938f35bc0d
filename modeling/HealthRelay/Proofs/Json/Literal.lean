import HealthRelay.Json.Skip
import HealthRelay.Proofs.Except
import HealthRelay.Proofs.Json.Quoted
import Mathlib.Data.List.TakeWhile

/-!
# Values that hold no other

Words, numbers and texts as the grammar of JSON has them. Passing over one of them ends exactly
where it ends (`skipStart_literal`), and nothing else is passed over (`literal_of_skipStart`). A
number is the one literal that does not show its own end, so what follows it must not go on with it
(`EndsNumber`).
-/

namespace HealthRelay.Json

open Text

/-! ## Numbers -/

def IsDigits (ds : Bytes) : Prop :=
  ds ≠ [] ∧ ∀ b ∈ ds, isDigitByte b = true

/-- The whole part of a number: digits, with no zero before others. -/
def IsWhole (ds : Bytes) : Prop :=
  IsDigits ds ∧ (ds.head? = some (ascii '0') → ds = [ascii '0'])

/-- Nothing, or a point and digits. -/
def IsFraction (bs : Bytes) : Prop :=
  bs = [] ∨ ∃ ds, IsDigits ds ∧ bs = ascii '.' :: ds

/-- Nothing, or a letter, perhaps a sign, and digits. -/
def IsExponent (bs : Bytes) : Prop :=
  bs = [] ∨ ∃ letter sign ds, (letter = ascii 'e' ∨ letter = ascii 'E') ∧
    (sign = [] ∨ sign = [ascii '+'] ∨ sign = [ascii '-']) ∧ IsDigits ds ∧
    bs = letter :: (sign ++ ds)

def IsUnsigned (raw : Bytes) : Prop :=
  ∃ whole fraction exponent, IsWhole whole ∧ IsFraction fraction ∧ IsExponent exponent ∧
    raw = whole ++ (fraction ++ exponent)

/-- A number of any size. -/
def IsNumber (raw : Bytes) : Prop :=
  ∃ sign magnitude, (sign = [] ∨ sign = [ascii '-']) ∧ IsUnsigned magnitude ∧
    raw = sign ++ magnitude

/-- A text that does not go on with the number before it. -/
def EndsNumber (rest : Bytes) : Prop :=
  ∀ b ∈ rest.head?, isDigitByte b = false ∧ b ≠ ascii '.' ∧ b ≠ ascii 'e' ∧ b ≠ ascii 'E'

theorem isWhole_zero : IsWhole [ascii '0'] :=
  ⟨⟨List.cons_ne_nil _ _, List.forall_mem_singleton.mpr (by decide)⟩, fun _ => rfl⟩

def skipDigits : Bytes → Except Error Bytes
  | [] => .error .invalidNumber
  | b :: rest => if isDigitByte b then .ok (rest.dropWhile isDigitByte) else .error .invalidNumber

theorem ne_of_digit {b c : UInt8} (hb : isDigitByte b = true) (hc : isDigitByte c = false) :
    b ≠ c := by
  rintro rfl
  rw [hb] at hc
  cases hc

theorem dropWhile_digits {ds rest : Bytes} (hds : ∀ b ∈ ds, isDigitByte b = true)
    (hrest : ∀ b ∈ rest.head?, isDigitByte b = false) :
    (ds ++ rest).dropWhile isDigitByte = rest := by
  rw [List.dropWhile_append_of_pos hds]
  cases rest with
  | nil => rfl
  | cons b bs => exact List.dropWhile_cons_of_neg (by simp [hrest b rfl])

theorem skipDigits_append {ds rest : Bytes} (hds : IsDigits ds)
    (hrest : ∀ b ∈ rest.head?, isDigitByte b = false) : skipDigits (ds ++ rest) = .ok rest := by
  obtain ⟨hne, hall⟩ := hds
  obtain ⟨d, ds, rfl⟩ := List.exists_cons_of_ne_nil hne
  rw [List.cons_append, skipDigits, if_pos (hall d List.mem_cons_self),
    dropWhile_digits (fun b hb => hall b (List.mem_cons_of_mem d hb)) hrest]

theorem digits_of_skipDigits {bs rest : Bytes} (h : skipDigits bs = .ok rest) :
    ∃ ds, IsDigits ds ∧ bs = ds ++ rest := by
  cases bs with
  | nil => cases h
  | cons b bs =>
    rw [skipDigits] at h
    split at h
    · rename_i hb
      cases h
      refine ⟨b :: bs.takeWhile isDigitByte, ⟨List.cons_ne_nil _ _, ?_⟩, ?_⟩
      · simpa [hb] using fun c hc => List.mem_takeWhile_imp hc
      · rw [List.cons_append, List.takeWhile_append_dropWhile]
    · cases h

theorem skipExponent_sign {sign : Bytes}
    (hsign : sign = [] ∨ sign = [ascii '+'] ∨ sign = [ascii '-']) {ds : Bytes} (hds : IsDigits ds)
    (rest : Bytes) : skipExponent (sign ++ (ds ++ rest)) = skipDigits (ds ++ rest) := by
  obtain ⟨hne, hall⟩ := hds
  obtain ⟨d, ds, rfl⟩ := List.exists_cons_of_ne_nil hne
  have hd := hall d List.mem_cons_self
  have hplain : ¬ (d = ascii '+' ∨ d = ascii '-') :=
    not_or.mpr ⟨ne_of_digit hd (by decide), ne_of_digit hd (by decide)⟩
  rcases hsign with rfl | rfl | rfl
  · simp only [List.nil_append, List.cons_append, skipExponent, if_neg hplain, skipDigits]
  · rfl
  · rfl

theorem digits_of_skipExponent {bs rest : Bytes} (h : skipExponent bs = .ok rest) :
    ∃ sign ds, (sign = [] ∨ sign = [ascii '+'] ∨ sign = [ascii '-']) ∧ IsDigits ds ∧
      bs = sign ++ (ds ++ rest) := by
  cases bs with
  | nil => cases h
  | cons b bs =>
    by_cases hb : b = ascii '+' ∨ b = ascii '-'
    · have hdigits : skipDigits bs = .ok rest := by
        simp only [skipExponent, if_pos hb] at h
        exact h
      obtain ⟨ds, hds, rfl⟩ := digits_of_skipDigits hdigits
      rcases hb with rfl | rfl
      · exact ⟨[ascii '+'], ds, .inr (.inl rfl), hds, rfl⟩
      · exact ⟨[ascii '-'], ds, .inr (.inr rfl), hds, rfl⟩
    · have hdigits : skipDigits (b :: bs) = .ok rest := by
        simp only [skipExponent, if_neg hb] at h
        exact h
      obtain ⟨ds, hds, hbs⟩ := digits_of_skipDigits hdigits
      exact ⟨[], ds, .inl rfl, hds, hbs⟩

theorem skipOptionalExponent_append {exponent rest : Bytes} (hexponent : IsExponent exponent)
    (hrest : EndsNumber rest) : skipOptionalExponent (exponent ++ rest) = .ok rest := by
  rcases hexponent with rfl | ⟨letter, sign, ds, hletter, hsign, hds, rfl⟩
  · cases rest with
    | nil => rfl
    | cons b bs =>
      obtain ⟨-, -, hlower, hupper⟩ := hrest b rfl
      rw [List.nil_append, skipOptionalExponent, if_neg (not_or.mpr ⟨hlower, hupper⟩)]
  · rw [List.cons_append, skipOptionalExponent, if_pos hletter, List.append_assoc,
      skipExponent_sign hsign hds, skipDigits_append hds fun b hb => (hrest b hb).1]

theorem exponent_of_skipOptional {bs rest : Bytes} (h : skipOptionalExponent bs = .ok rest) :
    ∃ exponent, IsExponent exponent ∧ bs = exponent ++ rest := by
  cases bs with
  | nil =>
    cases h
    exact ⟨[], .inl rfl, rfl⟩
  | cons b bs =>
    rw [skipOptionalExponent] at h
    split at h
    · rename_i hletter
      obtain ⟨sign, ds, hsign, hds, rfl⟩ := digits_of_skipExponent h
      exact ⟨b :: (sign ++ ds), .inr ⟨b, sign, ds, hletter, hsign, hds, rfl⟩, by simp⟩
    · cases h
      exact ⟨[], .inl rfl, rfl⟩

theorem skipAfterWhole_point (bs : Bytes) :
    skipAfterWhole (ascii '.' :: bs) = skipDigits bs >>= skipOptionalExponent := by
  cases bs with
  | nil => rfl
  | cons d bs =>
    simp only [skipAfterWhole, ↓reduceIte, skipDigits]
    split <;> rfl

theorem skipAfterWhole_other {bs : Bytes} (h : ∀ b ∈ bs.head?, b ≠ ascii '.') :
    skipAfterWhole bs = skipOptionalExponent bs := by
  cases bs with
  | nil => rfl
  | cons b bs => simp only [skipAfterWhole, if_neg (h b rfl)]

/-- An exponent does not go on with the digits before it, and neither does what follows it. -/
theorem head_exponent {exponent rest : Bytes} (hexponent : IsExponent exponent)
    (hrest : EndsNumber rest) :
    ∀ b ∈ (exponent ++ rest).head?, isDigitByte b = false ∧ b ≠ ascii '.' := by
  intro b hb
  rcases hexponent with rfl | ⟨letter, sign, ds, hletter, -, -, rfl⟩
  · obtain ⟨hdigit, hpoint, -⟩ := hrest b hb
    exact ⟨hdigit, hpoint⟩
  · cases hb
    rcases hletter with rfl | rfl <;> decide

theorem skipAfterWhole_append {fraction exponent rest : Bytes} (hfraction : IsFraction fraction)
    (hexponent : IsExponent exponent) (hrest : EndsNumber rest) :
    skipAfterWhole (fraction ++ (exponent ++ rest)) = .ok rest := by
  have hhead := head_exponent hexponent hrest
  rcases hfraction with rfl | ⟨ds, hds, rfl⟩
  · rw [List.nil_append, skipAfterWhole_other fun b hb => (hhead b hb).2,
      skipOptionalExponent_append hexponent hrest]
  · rw [List.cons_append, skipAfterWhole_point, skipDigits_append hds fun b hb => (hhead b hb).1,
      ok_bind, skipOptionalExponent_append hexponent hrest]

theorem parts_of_skipAfterWhole {bs rest : Bytes} (h : skipAfterWhole bs = .ok rest) :
    ∃ fraction exponent, IsFraction fraction ∧ IsExponent exponent ∧
      bs = fraction ++ (exponent ++ rest) := by
  by_cases hpoint : ∃ bs', bs = ascii '.' :: bs'
  · obtain ⟨bs, rfl⟩ := hpoint
    rw [skipAfterWhole_point] at h
    obtain ⟨after, hdigits, hafter⟩ := bind_eq_ok h
    obtain ⟨ds, hds, rfl⟩ := digits_of_skipDigits hdigits
    obtain ⟨exponent, hexponent, rfl⟩ := exponent_of_skipOptional hafter
    exact ⟨ascii '.' :: ds, exponent, .inr ⟨ds, hds, rfl⟩, hexponent, rfl⟩
  · have hother : ∀ b ∈ bs.head?, b ≠ ascii '.' := by
      rintro b hb rfl
      exact hpoint (List.head?_eq_some_iff.mp hb)
    rw [skipAfterWhole_other hother] at h
    obtain ⟨exponent, hexponent, rfl⟩ := exponent_of_skipOptional h
    exact ⟨[], exponent, .inl rfl, hexponent, rfl⟩

theorem skipNumber_zero {bs : Bytes} (h : ∀ b ∈ bs.head?, isDigitByte b = false) :
    skipNumber (ascii '0' :: bs) = skipAfterWhole bs := by
  cases bs with
  | nil => rfl
  | cons b bs => simp only [skipNumber, ↓reduceIte, h b rfl, Bool.false_eq_true]

theorem skipNumber_digit {b : UInt8} (hzero : b ≠ ascii '0') (bs : Bytes) :
    skipNumber (b :: bs) = skipDigits (b :: bs) >>= skipAfterWhole := by
  simp only [skipNumber, if_neg hzero, skipDigits]
  split <;> rfl

/-- **A number is passed over**, whatever its size. -/
theorem skipNumber_append {raw rest : Bytes} (hraw : IsUnsigned raw) (hrest : EndsNumber rest) :
    skipNumber (raw ++ rest) = .ok rest := by
  obtain ⟨whole, fraction, exponent, ⟨hdigits, hzero⟩, hfraction, hexponent, rfl⟩ := hraw
  have hhead : ∀ b ∈ (fraction ++ (exponent ++ rest)).head?, isDigitByte b = false := by
    rcases hfraction with rfl | ⟨ds, -, rfl⟩
    · exact fun b hb => (head_exponent hexponent hrest b hb).1
    · rintro b ⟨⟩
      decide
  have hafter := skipAfterWhole_append hfraction hexponent hrest
  obtain ⟨d, ds, rfl⟩ := List.exists_cons_of_ne_nil hdigits.1
  rw [List.append_assoc, List.append_assoc]
  by_cases hd : d = ascii '0'
  · rw [hzero (by rw [hd, List.head?_cons]), List.singleton_append, skipNumber_zero hhead, hafter]
  · rw [List.cons_append, skipNumber_digit hd, ← List.cons_append,
      skipDigits_append hdigits hhead, ok_bind, hafter]

/-- Nothing but a number is passed over as one. -/
theorem number_of_skipNumber {bs rest : Bytes} (h : skipNumber bs = .ok rest) :
    ∃ raw, IsUnsigned raw ∧ bs = raw ++ rest := by
  cases bs with
  | nil => cases h
  | cons b bs =>
    -- a leading zero is the whole part, and any other digit begins one
    by_cases hb : b = ascii '0'
    · subst hb
      have hhead : ∀ c ∈ bs.head?, isDigitByte c = false := by
        cases bs with
        | nil => simp
        | cons c bs =>
          simp only [skipNumber, ↓reduceIte] at h
          split at h
          · cases h
          · rintro b ⟨⟩
            simpa using ‹¬ isDigitByte c = true›
      rw [skipNumber_zero hhead] at h
      obtain ⟨fraction, exponent, hfraction, hexponent, rfl⟩ := parts_of_skipAfterWhole h
      exact ⟨_, ⟨_, fraction, exponent, isWhole_zero, hfraction, hexponent, rfl⟩, by simp⟩
    · rw [skipNumber_digit hb] at h
      obtain ⟨after, hdigits, h⟩ := bind_eq_ok h
      obtain ⟨whole, hwhole, hbs⟩ := digits_of_skipDigits hdigits
      obtain ⟨fraction, exponent, hfraction, hexponent, rfl⟩ := parts_of_skipAfterWhole h
      have hhead : whole.head? = some b := by
        obtain ⟨d, ds, rfl⟩ := List.exists_cons_of_ne_nil hwhole.1
        rw [(List.cons.inj hbs).1, List.head?_cons]
      have hnonzero : IsWhole whole :=
        ⟨hwhole, fun h => absurd (Option.some.inj (hhead.symm.trans h)) hb⟩
      exact ⟨_, ⟨whole, fraction, exponent, hnonzero, hfraction, hexponent, rfl⟩, by simp [hbs]⟩

/-! ## Texts -/

def escapeLetters : List UInt8 := asciiBytes "\"\\/bfnrt"

def IsHexByte (b : UInt8) : Prop :=
  ∃ n, hexValue? b.toNat = some n

/-- What follows the backslash of an escape. Any four digits make one, those of half a pair too. -/
inductive IsEscape : Bytes → Prop
  | short {b : UInt8} (h : b ∈ escapeLetters) : IsEscape [b]
  | code {a b c d : UInt8} (ha : IsHexByte a) (hb : IsHexByte b) (hc : IsHexByte c)
      (hd : IsHexByte d) : IsEscape [ascii 'u', a, b, c, d]

/-- What may stand between the quotes of a text. -/
inductive IsQuoted : Bytes → Prop
  | nil : IsQuoted []
  | plain {b : UInt8} {bs : Bytes} (hb : IsPlain b) (h : IsQuoted bs) : IsQuoted (b :: bs)
  | escape {e bs : Bytes} (he : IsEscape e) (h : IsQuoted bs) : IsQuoted (ascii '\\' :: (e ++ bs))

theorem shortEscape?_isSome_iff {b : UInt8} : (shortEscape? b).isSome ↔ b ∈ escapeLetters := by
  constructor
  · intro h
    unfold shortEscape? at h
    repeat' split at h
    all_goals first
      | subst b; decide
      | exact absurd h (by decide)
  · intro h
    have hall : escapeLetters.all fun b => (shortEscape? b).isSome := by decide
    exact List.all_eq_true.mp hall b h

theorem readHex4_append {a b c d : UInt8} (ha : IsHexByte a) (hb : IsHexByte b) (hc : IsHexByte c)
    (hd : IsHexByte d) : ∃ n, ∀ rest, readHex4 (a :: b :: c :: d :: rest) = .ok (n, rest) := by
  obtain ⟨na, ha⟩ := ha
  obtain ⟨nb, hb⟩ := hb
  obtain ⟨nc, hc⟩ := hc
  obtain ⟨nd, hd⟩ := hd
  exact ⟨((na * 16 + nb) * 16 + nc) * 16 + nd, fun rest => by
    simp only [readHex4, ha, hb, hc, hd]⟩

theorem digits_of_readHex4 {bs rest : Bytes} {n : Nat} (h : readHex4 bs = .ok (n, rest)) :
    ∃ a b c d, IsHexByte a ∧ IsHexByte b ∧ IsHexByte c ∧ IsHexByte d ∧
      bs = a :: b :: c :: d :: rest := by
  unfold readHex4 at h
  split at h
  · split at h
    · cases h
      exact ⟨_, _, _, _, ⟨_, ‹_›⟩, ⟨_, ‹_›⟩, ⟨_, ‹_›⟩, ⟨_, ‹_›⟩, rfl⟩
    · cases h
  · cases h

theorem skipEscape_append {e : Bytes} (he : IsEscape e) (rest : Bytes) :
    skipEscape (e ++ rest) = .ok rest := by
  cases he with
  | short h =>
    simp only [List.singleton_append, skipEscape, shortEscape?_isSome_iff.mpr h, ↓reduceIte]
  | code ha hb hc hd =>
    obtain ⟨n, hhex⟩ := readHex4_append ha hb hc hd
    have hshort : (shortEscape? (ascii 'u')).isSome = false := by decide
    simp only [List.cons_append, List.nil_append, skipEscape, hshort, Bool.false_eq_true,
      ↓reduceIte, hhex]

theorem escape_of_skipEscape {bs rest : Bytes} (h : skipEscape bs = .ok rest) :
    ∃ e, IsEscape e ∧ bs = e ++ rest := by
  cases bs with
  | nil => cases h
  | cons b bs =>
    rw [skipEscape] at h
    split at h
    · rename_i hb
      cases h
      exact ⟨[b], .short (shortEscape?_isSome_iff.mp hb), rfl⟩
    · split at h
      · rename_i hb
        subst hb
        split at h
        · cases h
        · rename_i hhex
          cases h
          obtain ⟨a, b, c, d, ha, hb, hc, hd, rfl⟩ := digits_of_readHex4 hhex
          exact ⟨_, .code ha hb hc hd, rfl⟩
      · cases h

theorem skipQuotedWithin_append {raw : Bytes} (hraw : IsQuoted raw) (rest : Bytes) {fuel : Nat}
    (hfuel : raw.length < fuel) :
    skipQuotedWithin fuel (raw ++ ascii '"' :: rest) = .ok rest := by
  induction hraw generalizing fuel with
  | nil =>
    obtain ⟨fuel, rfl⟩ := Nat.exists_eq_succ_of_ne_zero (Nat.ne_zero_of_lt hfuel)
    rfl
  | plain hb _ ih =>
    obtain ⟨fuel, rfl⟩ := Nat.exists_eq_succ_of_ne_zero (Nat.ne_zero_of_lt hfuel)
    obtain ⟨hquote, hslash, hcontrol⟩ := hb
    rw [List.cons_append, skipQuotedWithin, if_neg hquote, if_neg hslash, if_neg hcontrol]
    exact ih (Nat.lt_of_succ_lt_succ hfuel)
  | escape he _ ih =>
    obtain ⟨fuel, rfl⟩ := Nat.exists_eq_succ_of_ne_zero (Nat.ne_zero_of_lt hfuel)
    rw [List.length_cons, List.length_append] at hfuel
    rw [List.cons_append, skipQuotedWithin, if_neg (by decide), if_pos rfl, List.append_assoc,
      skipEscape_append he]
    exact ih (by omega)

/-- **A text is passed over up to its closing quote.** -/
theorem skipQuoted_append {raw : Bytes} (hraw : IsQuoted raw) (rest : Bytes) :
    skipQuoted (raw ++ ascii '"' :: rest) = .ok rest :=
  skipQuotedWithin_append hraw rest (by rw [List.length_append, List.length_cons]; omega)

theorem quoted_of_skipWithin {fuel : Nat} {bs rest : Bytes}
    (h : skipQuotedWithin fuel bs = .ok rest) :
    ∃ raw, IsQuoted raw ∧ bs = raw ++ ascii '"' :: rest := by
  induction fuel generalizing bs with
  | zero => cases h
  | succ fuel ih =>
    cases bs with
    | nil => cases h
    | cons b bs =>
      rw [skipQuotedWithin] at h
      split at h
      · rename_i hquote
        cases h
        exact ⟨[], .nil, by rw [hquote, List.nil_append]⟩
      · rename_i hquote
        split at h
        · rename_i hslash
          split at h
          · cases h
          · rename_i after hescape
            obtain ⟨e, he, rfl⟩ := escape_of_skipEscape hescape
            obtain ⟨raw, hraw, rfl⟩ := ih h
            exact ⟨_, .escape he hraw, by rw [hslash, List.cons_append, List.append_assoc]⟩
        · rename_i hslash
          split at h
          · cases h
          · rename_i hcontrol
            obtain ⟨raw, hraw, rfl⟩ := ih h
            exact ⟨b :: raw, .plain ⟨hquote, hslash, hcontrol⟩ hraw, rfl⟩

/-- Nothing but a text is passed over as one. -/
theorem quoted_of_skipQuoted {bs rest : Bytes} (h : skipQuoted bs = .ok rest) :
    ∃ raw, IsQuoted raw ∧ bs = raw ++ ascii '"' :: rest :=
  quoted_of_skipWithin h

/-! ## Literals -/

def quotedBytes (raw : Bytes) : Bytes := ascii '"' :: (raw ++ [ascii '"'])

/-- A value that holds no other. -/
inductive IsLiteral : Bytes → Prop
  | null : IsLiteral (ascii 'n' :: nullRest)
  | true : IsLiteral (ascii 't' :: trueRest)
  | false : IsLiteral (ascii 'f' :: falseRest)
  | number {raw : Bytes} (h : IsNumber raw) : IsLiteral raw
  | text {raw : Bytes} (h : IsQuoted raw) : IsLiteral (quotedBytes raw)

theorem readWord_append (word rest : Bytes) : readWord word (word ++ rest) = .ok rest := by
  induction word with
  | nil => cases rest <;> rfl
  | cons w word ih => rw [List.cons_append, readWord, if_pos rfl, ih]

theorem word_of_readWord {word bs rest : Bytes} (h : readWord word bs = .ok rest) :
    bs = word ++ rest := by
  induction word generalizing bs with
  | nil =>
    cases bs <;> exact Except.ok.inj h
  | cons w word ih =>
    cases bs with
    | nil => cases h
    | cons b bs =>
      rw [readWord] at h
      split at h
      · rename_i hb
        rw [hb, ih h, List.cons_append]
      · cases h

/-- The byte that opens a list or an object. -/
def Nesting.opening : Nesting → UInt8
  | .list => ascii '['
  | .object => ascii '\x7b'

/-- The first byte of a literal: the first letter of a word, a minus sign, a digit or a quote. -/
def IsLiteralHead (b : UInt8) : Prop :=
  b = ascii 'n' ∨ b = ascii 't' ∨ b = ascii 'f' ∨ b = ascii '-' ∨ isDigitByte b = true ∨
    b = ascii '"'

theorem IsNumber.head {raw : Bytes} (h : IsNumber raw) :
    ∃ b bs, (b = ascii '-' ∨ isDigitByte b = true) ∧ raw = b :: bs := by
  obtain ⟨sign, _, rfl | rfl, ⟨whole, fraction, exponent, ⟨⟨hne, hall⟩, -⟩, -, -, rfl⟩, rfl⟩ := h
  · obtain ⟨d, ds, rfl⟩ := List.exists_cons_of_ne_nil hne
    exact ⟨d, _, .inr (hall d List.mem_cons_self), rfl⟩
  · exact ⟨_, _, .inl rfl, rfl⟩

theorem IsLiteral.head {raw : Bytes} (h : IsLiteral raw) :
    ∃ b bs, IsLiteralHead b ∧ raw = b :: bs := by
  cases h with
  | null => exact ⟨_, _, .inl rfl, rfl⟩
  | true => exact ⟨_, _, .inr (.inl rfl), rfl⟩
  | false => exact ⟨_, _, .inr (.inr (.inl rfl)), rfl⟩
  | number h =>
    obtain ⟨b, bs, hb, rfl⟩ := h.head
    exact ⟨b, bs, .inr (.inr (.inr (hb.imp_right .inl))), rfl⟩
  | text => exact ⟨_, _, .inr (.inr (.inr (.inr (.inr rfl)))), rfl⟩

theorem IsLiteralHead.ne {b c : UInt8} (hb : IsLiteralHead b)
    (hc : isDigitByte c = false ∧
      c ∉ [ascii 'n', ascii 't', ascii 'f', ascii '-', ascii '"']) : b ≠ c := by
  rintro rfl
  obtain ⟨hdigit, hother⟩ := hc
  rcases hb with h | h | h | h | h | h
  case inr.inr.inr.inr.inl => cases hdigit.symm.trans h
  all_goals simp [h] at hother

theorem skipStart_number {raw rest bs : Bytes} (hraw : IsNumber raw)
    (hbs : skipBlanks bs = raw ++ rest) (hrest : EndsNumber rest) :
    skipStart bs = .ok (.past rest) := by
  obtain ⟨sign, magnitude, hsign, hmagnitude, rfl⟩ := hraw
  have hskip := skipNumber_append hmagnitude hrest
  rcases hsign with rfl | rfl
  · obtain ⟨whole, fraction, exponent, ⟨⟨hne, hall⟩, -⟩, -, -, rfl⟩ := hmagnitude
    obtain ⟨d, ds, rfl⟩ := List.exists_cons_of_ne_nil hne
    have hd := hall d List.mem_cons_self
    have hother {c : UInt8} (hc : isDigitByte c = false) : d ≠ c := ne_of_digit hd hc
    simp only [List.nil_append, List.cons_append] at hbs hskip
    simp only [skipStart, hbs, if_neg (hother (show isDigitByte (ascii 'n') = false by decide)),
      if_neg (hother (show isDigitByte (ascii 't') = false by decide)),
      if_neg (hother (show isDigitByte (ascii 'f') = false by decide)),
      if_neg (hother (show isDigitByte (ascii '-') = false by decide)), hd, ↓reduceIte, hskip]
    rfl
  · have hbs' : skipBlanks bs = ascii '-' :: (magnitude ++ rest) := hbs
    simp only [skipStart, hbs']
    simp only [show ascii '-' ≠ ascii 'n' by decide, show ascii '-' ≠ ascii 't' by decide,
      show ascii '-' ≠ ascii 'f' by decide, ↓reduceIte, hskip]
    rfl

/-- **A literal is passed over up to its end.** -/
theorem skipStart_literal {raw rest bs : Bytes} (hraw : IsLiteral raw)
    (hbs : skipBlanks bs = raw ++ rest) (hrest : IsNumber raw → EndsNumber rest) :
    skipStart bs = .ok (.past rest) := by
  cases hraw with
  | null =>
    have hword := readWord_append nullRest rest
    simp only [skipStart, hbs, List.cons_append, ↓reduceIte, hword]
    rfl
  | true =>
    have hword := readWord_append trueRest rest
    simp only [skipStart, hbs, List.cons_append, show ascii 't' ≠ ascii 'n' by decide, ↓reduceIte,
      hword]
    rfl
  | false =>
    have hword := readWord_append falseRest rest
    simp only [skipStart, hbs, List.cons_append, show ascii 'f' ≠ ascii 'n' by decide,
      show ascii 'f' ≠ ascii 't' by decide, ↓reduceIte, hword]
    rfl
  | number h => exact skipStart_number h hbs (hrest h)
  | @text raw h =>
    have hbs' : skipBlanks bs = ascii '"' :: (raw ++ ascii '"' :: rest) := by
      simp [hbs, quotedBytes]
    have hquote : isDigitByte (ascii '"') = false := by decide
    simp only [skipStart, hbs', show ascii '"' ≠ ascii 'n' by decide,
      show ascii '"' ≠ ascii 't' by decide, show ascii '"' ≠ ascii 'f' by decide,
      show ascii '"' ≠ ascii '-' by decide, hquote, Bool.false_eq_true, ↓reduceIte,
      skipQuoted_append h]
    rfl

theorem skipStart_opening {n : Nesting} {rest bs : Bytes}
    (hbs : skipBlanks bs = n.opening :: rest) : skipStart bs = .ok (.opened n rest) := by
  cases n <;> (simp only [skipStart, hbs]; rfl)

/-- What is passed over as a whole value is a literal; else a list or an object opens. -/
theorem of_skipStart {bs : Bytes} {start : Start} (h : skipStart bs = .ok start) :
    (∃ raw rest, start = .past rest ∧ IsLiteral raw ∧ skipBlanks bs = raw ++ rest) ∨
      ∃ n rest, start = .opened n rest ∧ skipBlanks bs = n.opening :: rest := by
  unfold skipStart at h
  split at h
  · cases h
  rename_i b after hbs
  split at h
  · rename_i hb
    obtain ⟨rest, hword, rfl⟩ := map_eq_ok h
    exact .inl ⟨_, rest, rfl, .null, by rw [hbs, hb, word_of_readWord hword, List.cons_append]⟩
  split at h
  · rename_i hb
    obtain ⟨rest, hword, rfl⟩ := map_eq_ok h
    exact .inl ⟨_, rest, rfl, .true, by rw [hbs, hb, word_of_readWord hword, List.cons_append]⟩
  split at h
  · rename_i hb
    obtain ⟨rest, hword, rfl⟩ := map_eq_ok h
    exact .inl ⟨_, rest, rfl, .false, by rw [hbs, hb, word_of_readWord hword, List.cons_append]⟩
  split at h
  · rename_i hb
    obtain ⟨rest, hnumber, rfl⟩ := map_eq_ok h
    obtain ⟨raw, hraw, rfl⟩ := number_of_skipNumber hnumber
    exact .inl ⟨_, rest, rfl, .number ⟨_, raw, .inr rfl, hraw, rfl⟩, by rw [hbs, hb]; rfl⟩
  split at h
  · obtain ⟨rest, hnumber, rfl⟩ := map_eq_ok h
    obtain ⟨raw, hraw, hafter⟩ := number_of_skipNumber hnumber
    exact .inl ⟨_, rest, rfl, .number ⟨_, raw, .inl rfl, hraw, rfl⟩, by rw [hbs, hafter]; rfl⟩
  split at h
  · rename_i hb
    obtain ⟨rest, htext, rfl⟩ := map_eq_ok h
    obtain ⟨raw, hraw, rfl⟩ := quoted_of_skipQuoted htext
    exact .inl ⟨_, rest, rfl, .text hraw, by simp [hbs, hb, quotedBytes]⟩
  split at h
  · rename_i hb
    cases h
    exact .inr ⟨.list, after, rfl, by rw [hbs, hb]; rfl⟩
  split at h
  · rename_i hb
    cases h
    exact .inr ⟨.object, after, rfl, by rw [hbs, hb]; rfl⟩
  · cases h

end HealthRelay.Json
