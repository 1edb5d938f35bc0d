import HealthRelay.Duration.Reader
import HealthRelay.Failure
import HealthRelay.Proofs.Text.Blank
import HealthRelay.Proofs.Text.Decimal

/-!
# Texts of durations

Without the white space around it, a text that is read as a duration is a numeral, white space and
the letters of a unit (`Scale.Spells`). The letters of one unit end those of another, so the reader
has to look for them in the right order: `splitScale_append` says that it finds the right ones,
because what stands before them ends in a digit or in white space. From that follow which texts are
read (`ofTrimmed?_eq_some_iff`), and that each is read in one way only (`Scale.Spells.unique`).
Numbers are exact, and counting them in machine words comes to the same (`inWords_eq`).
-/

namespace HealthRelay

namespace Duration

open Text

/-! ## The grammar -/

def Scale.letters : Scale → List Char
  | .bare => []
  | .milliseconds => ['m', 's']
  | .seconds => ['s']
  | .minutes => ['m']

/-- The length of one unit, in nanoseconds. -/
def Scale.nanos : Scale → Nat
  | .bare | .seconds => 1000000000
  | .milliseconds => 1000000
  | .minutes => 60 * 1000000000

/-- A text without white space at its ends writes `n` of a unit: the numeral of `n` and the letters
of the unit, if it has any, with nothing but white space between them. -/
def Scale.Spells (scale : Scale) (text : List Char) (n : Nat) : Prop :=
  ∃ numeral gap, text = numeral ++ gap ++ scale.letters ∧ IsNumeral numeral n ∧
    (∀ c ∈ gap, isBlank c = true) ∧ (scale = .bare → gap = [])

/-- The numbers that may stand before a unit: those of 64 bits, and of minutes only those that are
numbers of 64 bits in seconds, too. -/
def Scale.Admits (scale : Scale) (n : Nat) : Prop :=
  n < UInt64.size ∧ (scale = .minutes → 60 * n < UInt64.size)

variable {scale : Scale} {text body : List Char} {n : Nat}

/-! ## Finding the unit -/

theorem append_of_splitScale (h : splitScale text = (scale, body)) :
    text = body ++ scale.letters := by
  unfold splitScale at h
  split at h
  case h_4 =>
    cases h
    exact (List.append_nil text).symm
  all_goals
    rename_i hrev
    cases h
    rw [List.reverse_eq_iff.mp hrev]
    simp [Scale.letters]

/-- The letters are found, if what stands before them does not end in a letter of a unit itself. -/
theorem splitScale_append (scale : Scale) (h : ∀ c ∈ body.getLast?, c ≠ 'm' ∧ c ≠ 's') :
    splitScale (body ++ scale.letters) = (scale, body) := by
  obtain ⟨rev, rfl⟩ : ∃ rev, body = rev.reverse := ⟨body.reverse, body.reverse_reverse.symm⟩
  rw [List.getLast?_reverse] at h
  cases scale with
  | milliseconds => simp [splitScale, Scale.letters]
  | minutes => simp [splitScale, Scale.letters]
  | seconds => cases rev <;> simp_all [splitScale, Scale.letters]
  | bare => cases rev <;> simp_all [splitScale, Scale.letters]

theorem ne_letter_of_isBlank {c : Char} (h : isBlank c = true) : c ≠ 'm' ∧ c ≠ 's' := by
  constructor <;> rintro rfl <;> exact absurd h (by decide)

theorem ne_letter_of_digit : ∀ d < 10, digitChar d ≠ 'm' ∧ digitChar d ≠ 's' := by decide

theorem ne_letter_of_mem_numeral {numeral : List Char} (h : IsNumeral numeral n) :
    ∀ c ∈ numeral, c ≠ 'm' ∧ c ≠ 's' := by
  intro c hc
  obtain rfl | ⟨d, hd, rfl⟩ := mem_numeral h c hc
  · decide
  · exact ne_letter_of_digit d hd

theorem isTrimmed_numeral {numeral gap : List Char} (h : IsNumeral numeral n)
    (hgap : ∀ c ∈ gap, isBlank c = true) : IsTrimmed (numeral ++ gap) numeral where
  around := ⟨[], gap, by simp, hgap, rfl⟩
  head c hc := isBlank_numeral h c (List.mem_of_mem_head? hc)
  last c hc := isBlank_numeral h c (List.mem_of_getLast? hc)

/-- What a text spells is what the reader finds in it. -/
theorem Scale.Spells.split (h : scale.Spells text n) :
    ∃ body, splitScale text = (scale, body) ∧ IsNumeral (trim body) n := by
  obtain ⟨numeral, gap, rfl, hnumeral, hgap, -⟩ := h
  refine ⟨numeral ++ gap, splitScale_append scale fun c hc => ?_, ?_⟩
  · rcases List.mem_append.mp (List.mem_of_getLast? hc) with hc | hc
    · exact ne_letter_of_mem_numeral hnumeral c hc
    · exact ne_letter_of_isBlank (hgap c hc)
  · rwa [(isTrimmed_numeral hnumeral hgap).trim_eq]

/-- What the reader finds is what the text spells: nothing can be trimmed from before the number, and
nothing at all where no unit follows. -/
theorem spells_of_split {cs : List Char} (htrimmed : IsTrimmed cs text)
    (hsplit : splitScale text = (scale, body)) (hnumeral : IsNumeral (trim body) n) :
    scale.Spells text n := by
  have htext := append_of_splitScale hsplit
  obtain ⟨lead, gap, hlead, hgap, hbody⟩ := (isTrimmed_trim body).around
  have hnil : lead = [] := by
    cases lead with
    | nil => rfl
    | cons c lead =>
      have hhead : c ∈ text.head? := by
        rw [htext, hbody]
        rfl
      exact absurd (hlead c List.mem_cons_self) (by simp [htrimmed.head c hhead])
  subst hnil
  rw [List.nil_append] at hbody
  refine ⟨trim body, gap, by rw [← hbody]; exact htext, hnumeral, hgap, ?_⟩
  rintro rfl
  rw [Scale.letters, List.append_nil] at htext
  rw [← htext, htrimmed.trim_self] at hbody
  exact List.self_eq_append_right.mp hbody

/-- **No text is read in two ways.** -/
theorem Scale.Spells.unique {scale' : Scale} {n' : Nat} (h : scale.Spells text n)
    (h' : scale'.Spells text n') : scale = scale' ∧ n = n' := by
  obtain ⟨body, hsplit, hnumeral⟩ := h.split
  obtain ⟨body', hsplit', hnumeral'⟩ := h'.split
  obtain ⟨rfl, rfl⟩ := Prod.mk.inj (hsplit.symm.trans hsplit')
  refine ⟨rfl, ?_⟩
  have hread := readUnsigned_eq_some_iff.mpr ⟨hnumeral, Nat.le_max_left n n'⟩
  have hread' := readUnsigned_eq_some_iff.mpr ⟨hnumeral', Nat.le_max_right n n'⟩
  exact Option.some.inj (hread.symm.trans hread')

/-! ## Counting -/

theorem le_maxWritten_iff : n ≤ maxWritten ↔ n < UInt64.size :=
  Nat.lt_succ_iff.symm

theorem apply?_eq_some_iff {d : Duration} :
    scale.apply? n = some d ↔
      (scale = .minutes → 60 * n < UInt64.size) ∧ d = ⟨n * scale.nanos⟩ := by
  unfold Scale.apply?
  cases scale with
  | minutes =>
    have hnanos : ofSecs (n * 60) = ⟨n * Scale.minutes.nanos⟩ := by
      rw [ofSecs, Scale.nanos, Nat.mul_assoc]
    simp only [hnanos]
    simp [le_maxWritten_iff, Nat.mul_comm n 60, eq_comm]
  | bare => simp [ofSecs, Scale.nanos, eq_comm]
  | seconds => simp [ofSecs, Scale.nanos, eq_comm]
  | milliseconds => simp [ofMillis, Scale.nanos, eq_comm]

/-- The seconds of a number of units, and the nanoseconds beyond them, in words of 64 and of 32
bits. -/
def Scale.inWords (n : UInt64) : Scale → UInt64 × UInt32
  | .bare | .seconds => (n, 0)
  | .milliseconds => (n / 1000, (n % 1000).toUInt32 * 1000000)
  | .minutes => (n * 60, 0)

/-- **Nothing wraps around**: in words, the numbers that a unit admits come to the seconds and
nanoseconds of the exact duration. -/
theorem inWords_eq (h : scale.Admits n) :
    (scale.inWords (.ofNat n)).1.toNat = secs ⟨n * scale.nanos⟩ ∧
      (scale.inWords (.ofNat n)).2.toNat = subsecNanos ⟨n * scale.nanos⟩ := by
  obtain ⟨hn, hminutes⟩ := h
  have hword : (UInt64.ofNat n).toNat = n := UInt64.toNat_ofNat_of_lt' hn
  cases scale with
  | bare => simp [Scale.inWords, Scale.nanos, secs, subsecNanos, hword]
  | seconds => simp [Scale.inWords, Scale.nanos, secs, subsecNanos, hword]
  | milliseconds =>
    have hsecs : n * 1000000 / 1000000000 = n / 1000 :=
      Nat.mul_div_mul_right n 1000 (by decide)
    have hrest : n * 1000000 % 1000000000 = n % 1000 * 1000000 :=
      Nat.mul_mod_mul_right 1000000 n 1000
    constructor
    · simp [Scale.inWords, Scale.nanos, secs, hword, hsecs]
    · simp [Scale.inWords, Scale.nanos, subsecNanos, hword, hrest]
      omega
  | minutes =>
    have hfits : 60 * n < 18446744073709551616 := hminutes rfl
    constructor
    · simp [Scale.inWords, Scale.nanos, secs, hword]
      omega
    · simp [Scale.inWords, Scale.nanos, subsecNanos]
      omega

/-! ## All texts that are read -/

theorem ofTrimmed?_eq_some_iff {cs : List Char} (htrimmed : IsTrimmed cs text) {d : Duration} :
    ofTrimmed? text = some d ↔
      ∃ scale n, Scale.Spells scale text n ∧ scale.Admits n ∧ d = ⟨n * scale.nanos⟩ := by
  constructor
  · intro h
    obtain ⟨n, hread, happly⟩ := Option.bind_eq_some_iff.mp h
    obtain ⟨hnumeral, hle⟩ := readUnsigned_eq_some_iff.mp hread
    obtain ⟨hminutes, hd⟩ := apply?_eq_some_iff.mp happly
    exact ⟨_, n, spells_of_split htrimmed rfl hnumeral, ⟨le_maxWritten_iff.mp hle, hminutes⟩, hd⟩
  · rintro ⟨scale, n, hspells, ⟨hlt, hminutes⟩, hd⟩
    obtain ⟨body, hsplit, hnumeral⟩ := hspells.split
    have hread := readUnsigned_eq_some_iff.mpr ⟨hnumeral, le_maxWritten_iff.mpr hlt⟩
    have happly := apply?_eq_some_iff.mpr ⟨hminutes, hd⟩
    simp only [ofTrimmed?, hsplit, hread, Option.bind_some, happly]

theorem ofTrimmed?_eq_none_iff {cs : List Char} (htrimmed : IsTrimmed cs text) :
    ofTrimmed? text = none ↔ ¬ ∃ scale n, Scale.Spells scale text n ∧ scale.Admits n := by
  rw [Option.eq_none_iff_forall_ne_some]
  constructor
  · rintro hnone ⟨scale, n, hspells, hadmits⟩
    exact hnone _ ((ofTrimmed?_eq_some_iff htrimmed).mpr ⟨scale, n, hspells, hadmits, rfl⟩)
  · intro hno d hd
    obtain ⟨scale, n, hspells, hadmits, -⟩ := (ofTrimmed?_eq_some_iff htrimmed).mp hd
    exact hno ⟨scale, n, hspells, hadmits⟩

theorem ofText?_eq {s : String} (h : IsTrimmed s.toList text) :
    ofText? s =
      (ofTrimmed? text).elim (.error (.notDuration (String.ofList text))) Except.ok := by
  rw [ofText?, h.trim_eq]
  cases ofTrimmed? text <;> rfl

/-- What becomes of a text that is `text` without the white space around it. -/
structure Readings (s : String) (text : List Char) : Prop where
  /-- It is read as the number of units that it writes, if the unit admits that number. -/
  ok_iff : ∀ d, ofText? s = .ok d ↔
    ∃ scale n, Scale.Spells scale text n ∧ scale.Admits n ∧ d = ⟨n * scale.nanos⟩
  /-- It does not write two things. -/
  unique : ∀ scale n scale' n', Scale.Spells scale text n → Scale.Spells scale' text n' →
    scale = scale' ∧ n = n'
  /-- Words can count what it writes. -/
  in_words : ∀ scale n, Scale.Spells scale text n → scale.Admits n →
    (scale.inWords (.ofNat n)).1.toNat = secs ⟨n * scale.nanos⟩ ∧
      (scale.inWords (.ofNat n)).2.toNat = subsecNanos ⟨n * scale.nanos⟩
  /-- If it writes nothing that is admitted, it is refused. -/
  error_iff : ∀ e, ofText? s = .error e ↔
    (¬ ∃ scale n, Scale.Spells scale text n ∧ scale.Admits n) ∧
      e = .notDuration (String.ofList text)
  /-- The refusal quotes it. -/
  quoted : (ConfigError.notDuration (String.ofList text)).toFailure =
    .config ("invalid duration: " ++ quote (String.ofList text))

/-- **Durations have a grammar.** A text is read exactly if it writes a number of units, white space
around it aside, and the unit admits the number. It writes that in one way only, and the duration is
exact. Every other text is refused, and quoted without the white space around it. -/
theorem text_readings (s : String) : ∃ text, IsTrimmed s.toList text ∧ Readings s text := by
  have htrimmed := isTrimmed_trim s.toList
  refine ⟨trim s.toList, htrimmed, ?_⟩
  constructor
  case ok_iff =>
    intro d
    rw [ofText?_eq htrimmed, ← ofTrimmed?_eq_some_iff htrimmed]
    cases ofTrimmed? (trim s.toList) <;> simp
  case unique => exact fun _ _ _ _ h h' => h.unique h'
  case in_words => exact fun _ _ _ h => inWords_eq h
  case error_iff =>
    intro e
    rw [ofText?_eq htrimmed, ← ofTrimmed?_eq_none_iff htrimmed]
    cases ofTrimmed? (trim s.toList) <;> simp [eq_comm]
  case quoted => rfl

end Duration

end HealthRelay
