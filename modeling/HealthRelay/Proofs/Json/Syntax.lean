import HealthRelay.Proofs.Json.Literal
import Mathlib.Data.List.DropRight

/-!
# The grammar of JSON

A text is a row of tokens with blanks of any length before each (`Lexes`), and `Derives` says which
rows of tokens are values. Nesting has no bound, and neither have the lengths of numbers and texts.
-/

namespace HealthRelay.Json

open Text

/-! ## Tokens -/

/-- A token of JSON; the bytes of a literal are well formed by its type. -/
inductive Lexeme where
  | opening (n : Nesting)
  | closing (n : Nesting)
  | comma
  | colon
  | literal (raw : Bytes) (h : IsLiteral raw)

def Lexeme.bytes : Lexeme → Bytes
  | .opening n => [n.opening]
  | .closing n => [n.close]
  | .comma => [ascii ',']
  | .colon => [ascii ':']
  | .literal raw _ => raw

/-- A text as a token. -/
def Lexeme.text (raw : Bytes) (h : IsQuoted raw) : Lexeme := .literal (quotedBytes raw) (.text h)

theorem IsLiteralHead.not_blank {b : UInt8} (h : IsLiteralHead b) : isBlankByte b = false := by
  rcases h with rfl | rfl | rfl | rfl | h | rfl
  case inr.inr.inr.inr.inl =>
    have hne {c : UInt8} (hc : isDigitByte c = false) : (b == c) = false :=
      beq_false_of_ne (ne_of_digit h hc)
    simp only [isBlankByte, hne (show isDigitByte 0x20 = false by decide),
      hne (show isDigitByte 0x0A = false by decide), hne (show isDigitByte 0x09 = false by decide),
      hne (show isDigitByte 0x0D = false by decide), Bool.or_self]
  all_goals decide

theorem Lexeme.head (t : Lexeme) : ∃ b bs, isBlankByte b = false ∧ t.bytes = b :: bs := by
  cases t with
  | opening n => cases n <;> exact ⟨_, [], by decide, rfl⟩
  | closing n => cases n <;> exact ⟨_, [], by decide, rfl⟩
  | comma => exact ⟨_, [], by decide, rfl⟩
  | colon => exact ⟨_, [], by decide, rfl⟩
  | literal raw h =>
    obtain ⟨b, bs, hb, rfl⟩ := h.head
    exact ⟨b, bs, hb.not_blank, rfl⟩

/-! ## Tokens with blanks between them -/

def Blanks (gap : Bytes) : Prop := ∀ b ∈ gap, isBlankByte b = true

theorem skipBlanks_append {gap : Bytes} (h : Blanks gap) (bs : Bytes) :
    skipBlanks (gap ++ bs) = skipBlanks bs :=
  List.dropWhile_append_of_pos h

/-- A text is its blanks and what follows them. -/
theorem exists_blanks (bs : Bytes) : ∃ gap, Blanks gap ∧ bs = gap ++ skipBlanks bs :=
  ⟨bs.takeWhile isBlankByte, fun _ hb => List.mem_takeWhile_imp hb,
    List.takeWhile_append_dropWhile.symm⟩

theorem skipBlanks_token (t : Lexeme) (bs : Bytes) : skipBlanks (t.bytes ++ bs) = t.bytes ++ bs := by
  obtain ⟨b, raw, hb, hraw⟩ := t.head
  rw [hraw, List.cons_append, skipBlanks, List.dropWhile_cons_of_neg (by simp [hb])]

theorem skipBlanks_idem (bs : Bytes) : skipBlanks (skipBlanks bs) = skipBlanks bs :=
  List.dropWhile_idempotent isBlankByte bs

/-- The text `bs` begins with the tokens `ts`, blanks before each as may be, and goes on with
`rest`. -/
inductive Lexes : List Lexeme → Bytes → Bytes → Prop
  | nil (bs : Bytes) : Lexes [] bs bs
  | cons {gap : Bytes} {t : Lexeme} {ts : List Lexeme} {bs rest : Bytes} (hgap : Blanks gap)
      (h : Lexes ts bs rest) : Lexes (t :: ts) (gap ++ (t.bytes ++ bs)) rest

namespace Lexes

variable {t : Lexeme} {ts us : List Lexeme} {bs mid rest : Bytes}

theorem nil_iff : Lexes [] bs rest ↔ bs = rest :=
  ⟨fun h => by cases h; rfl, fun h => h ▸ .nil bs⟩

theorem cons_iff :
    Lexes (t :: ts) bs rest ↔ ∃ mid, skipBlanks bs = t.bytes ++ mid ∧ Lexes ts mid rest := by
  constructor
  · intro h
    cases h with
    | @cons gap _ _ bs _ hgap h =>
      exact ⟨bs, by rw [skipBlanks_append hgap, skipBlanks_token], h⟩
  · rintro ⟨mid, hbs, h⟩
    obtain ⟨gap, hgap, hsplit⟩ := exists_blanks bs
    rw [hsplit, hbs]
    exact .cons hgap h

theorem append_iff :
    Lexes (ts ++ us) bs rest ↔ ∃ mid, Lexes ts bs mid ∧ Lexes us mid rest := by
  induction ts generalizing bs with
  | nil => simp [nil_iff]
  | cons t ts ih =>
    simp only [List.cons_append, cons_iff, ih]
    constructor
    · rintro ⟨after, hbs, mid, hts, hus⟩
      exact ⟨mid, ⟨after, hbs, hts⟩, hus⟩
    · rintro ⟨mid, ⟨after, hbs, hts⟩, hus⟩
      exact ⟨after, hbs, mid, hts, hus⟩

theorem append (hts : Lexes ts bs mid) (hus : Lexes us mid rest) : Lexes (ts ++ us) bs rest :=
  append_iff.mpr ⟨mid, hts, hus⟩

theorem single_iff : Lexes [t] bs rest ↔ skipBlanks bs = t.bytes ++ rest := by
  simp [cons_iff, nil_iff]

theorem text_iff {raw : Bytes} {h : IsQuoted raw} :
    Lexes (.text raw h :: ts) bs rest ↔
      ∃ mid, skipBlanks bs = ascii '"' :: (raw ++ ascii '"' :: mid) ∧ Lexes ts mid rest := by
  simp only [cons_iff, Lexeme.text, Lexeme.bytes, quotedBytes, List.cons_append, List.append_assoc,
    List.nil_append]

/-- Blanks before the first token do not matter. -/
theorem skipBlanks_iff : Lexes (t :: ts) (skipBlanks bs) rest ↔ Lexes (t :: ts) bs rest := by
  rw [cons_iff, cons_iff, skipBlanks_idem]

theorem length_le (h : Lexes ts bs rest) : ts.length + rest.length ≤ bs.length := by
  induction h with
  | nil bs => exact Nat.le_of_eq (Nat.zero_add _)
  | @cons gap t ts bs rest _ _ ih =>
    obtain ⟨b, raw, -, hraw⟩ := t.head
    rw [hraw]
    simp only [List.length_cons, List.length_append]
    omega

end Lexes

/-- The bytes of tokens are a text of them. -/
theorem lexes_bytes (ts : List Lexeme) : Lexes ts (ts.flatMap Lexeme.bytes) [] := by
  induction ts with
  | nil => exact .nil []
  | cons t ts ih =>
    rw [List.flatMap_cons]
    exact Lexes.cons_iff.mpr ⟨_, skipBlanks_token t _, ih⟩

/-! ## Rows of tokens that are values -/

/-- What a row of tokens may be: a value, an element or member, or one or more of these. -/
inductive Phrase where
  | value
  | item (n : Nesting)
  | items (n : Nesting)

inductive Derives : Phrase → List Lexeme → Prop
  | literal {raw : Bytes} (h : IsLiteral raw) : Derives .value [.literal raw h]
  | empty (n : Nesting) : Derives .value [.opening n, .closing n]
  | nested {n : Nesting} {ts : List Lexeme} (h : Derives (.items n) ts) :
      Derives .value (.opening n :: (ts ++ [.closing n]))
  | element {ts : List Lexeme} (h : Derives .value ts) : Derives (.item .list) ts
  | member {raw : Bytes} {ts : List Lexeme} (hkey : IsQuoted raw) (h : Derives .value ts) :
      Derives (.item .object) (.text raw hkey :: .colon :: ts)
  | last {n : Nesting} {ts : List Lexeme} (h : Derives (.item n) ts) : Derives (.items n) ts
  | more {n : Nesting} {ts us : List Lexeme} (h : Derives (.item n) ts)
      (hmore : Derives (.items n) us) : Derives (.items n) (ts ++ .comma :: us)

/-- A token that begins a phrase. -/
def Lexeme.Begins : Lexeme → Prop
  | .opening _ => True
  | .literal _ _ => True
  | _ => False

theorem Derives.head {p : Phrase} {ts : List Lexeme} (h : Derives p ts) :
    ∃ t us, t.Begins ∧ ts = t :: us := by
  induction h with
  | literal h => exact ⟨.literal _ h, [], trivial, rfl⟩
  | empty n => exact ⟨.opening n, _, trivial, rfl⟩
  | @nested n _ _ _ => exact ⟨.opening n, _, trivial, rfl⟩
  | element _ ih => exact ih
  | member hkey _ _ => exact ⟨.text _ hkey, _, trivial, rfl⟩
  | last _ ih => exact ih
  | more _ _ ih _ =>
    obtain ⟨t, us, ht, rfl⟩ := ih
    exact ⟨t, _, ht, rfl⟩

/-- What begins a phrase does not end a list or an object. -/
theorem Lexeme.Begins.ne_close {t : Lexeme} (ht : t.Begins) (n : Nesting) {b : UInt8} {bs : Bytes}
    (hbytes : t.bytes = b :: bs) : b ≠ n.close := by
  cases t with
  | opening m =>
    cases hbytes
    cases m <;> cases n <;> decide
  | literal raw h =>
    obtain ⟨c, cs, hc, hraw⟩ := h.head
    cases hraw.symm.trans hbytes
    exact hc.ne (by cases n <;> decide)
  | closing m => exact ht.elim
  | comma => exact ht.elim
  | colon => exact ht.elim

/-! ## What follows a value -/

/-- A token that may follow a value inside a list or an object. -/
def Lexeme.Ends : Lexeme → Prop
  | .comma => True
  | .closing _ => True
  | _ => False

theorem endsNumber_of_blank {b : UInt8} {bs : Bytes} (h : isBlankByte b = true) :
    EndsNumber (b :: bs) := by
  rintro c ⟨⟩
  simp only [isBlankByte, Bool.or_eq_true, beq_iff_eq] at h
  rcases h with ((rfl | rfl) | rfl) | rfl <;> decide

/-- Blanks end a number, and a text goes on after them as it may. -/
theorem endsNumber_of_skipBlanks {bs : Bytes} (h : EndsNumber (skipBlanks bs)) : EndsNumber bs := by
  obtain ⟨gap, hgap, hbs⟩ := exists_blanks bs
  cases gap with
  | nil => rwa [hbs, List.nil_append]
  | cons b gap =>
    rw [hbs]
    exact endsNumber_of_blank (hgap b List.mem_cons_self)

theorem Lexes.endsNumber {t : Lexeme} {ts : List Lexeme} {bs rest : Bytes}
    (h : Lexes (t :: ts) bs rest) (ht : t.Ends) : EndsNumber bs := by
  obtain ⟨mid, hbs, -⟩ := Lexes.cons_iff.mp h
  refine endsNumber_of_skipBlanks ?_
  rw [hbs]
  cases t with
  | comma =>
    rintro b ⟨⟩
    decide
  | closing n =>
    rintro b ⟨⟩
    cases n <;> decide
  | opening n => exact ht.elim
  | colon => exact ht.elim
  | literal raw _ => exact ht.elim

end HealthRelay.Json
