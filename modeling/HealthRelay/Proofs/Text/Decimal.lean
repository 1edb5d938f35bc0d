import HealthRelay.Text.Ascii
import HealthRelay.Text.Blank
import HealthRelay.Text.Decimal

/-!
# Numbers come back from their decimal texts

What `decimal` writes is a row of digits that starts with no zero, and reading it gives the number
back, by characters (`readUnsigned_decimal`) and by bytes (`byteDigit?_ascii`). More texts are read
than are written: `readUnsigned_eq_some_iff` says which, and as what numbers.
-/

namespace HealthRelay.Text

theorem digitValue?_digitChar : ∀ d < 10, digitValue? (digitChar d) = some d := by decide

theorem toNat_digitChar : ∀ d < 10, (digitChar d).toNat = 48 + d := by decide

theorem byteDigit?_ascii : ∀ d < 10, byteDigit? (ascii (digitChar d)) = some d := by decide

theorem isDigitByte_ascii : ∀ d < 10, isDigitByte (ascii (digitChar d)) = true := by decide

theorem decimal_of_lt {n : Nat} (h : n < 10) : decimal n = [digitChar n] := by
  rw [decimal, if_pos h]

theorem decimal_of_le {n : Nat} (h : 10 ≤ n) :
    decimal n = decimal (n / 10) ++ [digitChar (n % 10)] := by
  rw [decimal, if_neg (by omega)]

theorem decimal_ne_nil (n : Nat) : decimal n ≠ [] := by
  unfold decimal
  split <;> simp

/-- The last character is a digit. -/
theorem decimal_concat (n : Nat) : ∃ ds d, d < 10 ∧ decimal n = ds ++ [digitChar d] := by
  unfold decimal
  split
  · rename_i h
    exact ⟨[], n, h, rfl⟩
  · exact ⟨_, n % 10, by omega, rfl⟩

theorem mem_decimal (n : Nat) : ∀ c ∈ decimal n, ∃ d < 10, c = digitChar d := by
  induction n using decimal.induct with
  | case1 n h =>
    rw [decimal_of_lt h]
    intro c hc
    exact ⟨n, h, List.mem_singleton.mp hc⟩
  | case2 n h ih =>
    rw [decimal_of_le (by omega)]
    intro c hc
    rcases List.mem_append.mp hc with hc | hc
    · exact ih c hc
    · exact ⟨n % 10, by omega, List.mem_singleton.mp hc⟩

/-- Only zero starts with a zero. -/
theorem decimal_head {n : Nat} (hn : 0 < n) :
    ∃ d ds, 0 < d ∧ d < 10 ∧ decimal n = digitChar d :: ds := by
  induction n using decimal.induct with
  | case1 n h => exact ⟨n, [], hn, h, decimal_of_lt h⟩
  | case2 n h ih =>
    obtain ⟨d, ds, hpos, hlt, hds⟩ := ih (by omega)
    exact ⟨d, _, hpos, hlt, by rw [decimal_of_le (by omega), hds, List.cons_append]⟩

theorem decimal_ascii (n : Nat) : ∀ c ∈ decimal n, c.toNat < 0x80 := by
  intro c hc
  obtain ⟨d, hd, rfl⟩ := mem_decimal n c hc
  rw [toNat_digitChar d hd]
  omega

theorem digitsValue_concat (acc : Nat) (cs : List Char) (c : Char) :
    digitsValue acc (cs ++ [c]) =
      (digitsValue acc cs).bind fun v => (digitValue? c).map (10 * v + ·) := by
  induction cs generalizing acc with
  | nil =>
    simp only [List.nil_append, digitsValue, Option.bind_some]
    cases digitValue? c <;> rfl
  | cons d cs ih =>
    simp only [List.cons_append, digitsValue]
    cases digitValue? d with
    | none => rfl
    | some v => exact ih _

theorem digitsValue_decimal (n : Nat) : digitsValue 0 (decimal n) = some n := by
  induction n using decimal.induct with
  | case1 n h => simp [decimal_of_lt h, digitsValue, digitValue?_digitChar n h]
  | case2 n h ih =>
    rw [decimal_of_le (by omega), digitsValue_concat, ih,
      digitValue?_digitChar _ (Nat.mod_lt n (by omega)), Option.bind_some, Option.map_some]
    congr 1
    omega

/-- **A number is read back from its decimal text.** -/
theorem readUnsigned_decimal {limit n : Nat} (h : n ≤ limit) :
    readUnsigned limit (decimal n) = some n := by
  have hdigits : readDigits (decimal n) = some n := by
    unfold readDigits
    split
    · rename_i hnil
      exact absurd hnil (decimal_ne_nil n)
    · rename_i c cs heq
      rw [← heq, digitsValue_decimal]
  have hplus : ∀ rest, decimal n ≠ '+' :: rest := by
    intro rest heq
    obtain ⟨d, hd, hc⟩ := mem_decimal n '+' (by simp [heq])
    have hnat := toNat_digitChar d hd
    rw [← hc] at hnat
    have : '+'.toNat = 43 := rfl
    omega
  unfold readUnsigned
  split
  · rename_i rest heq
    exact absurd heq (hplus rest)
  · simp only [hdigits]
    exact if_pos h

/-! ## All texts that are read -/

/-- The number whose decimal digits these are, leading zeros included. -/
def ofDigits (ds : List Nat) : Nat :=
  ds.foldl (fun n d => 10 * n + d) 0

/-- One or more digits, perhaps with a plus sign before them, that write a number. -/
def IsNumeral (cs : List Char) (n : Nat) : Prop :=
  ∃ sign ds, (sign = [] ∨ sign = ['+']) ∧ ds ≠ [] ∧ (∀ d ∈ ds, d < 10) ∧
    cs = sign ++ ds.map digitChar ∧ n = ofDigits ds

theorem mem_numeral {cs : List Char} {n : Nat} (h : IsNumeral cs n) :
    ∀ c ∈ cs, c = '+' ∨ ∃ d < 10, c = digitChar d := by
  obtain ⟨sign, ds, hsign, -, hds, rfl, -⟩ := h
  intro c hc
  rcases List.mem_append.mp hc with hc | hc
  · rcases hsign with rfl | rfl
    · cases hc
    · exact .inl (List.mem_singleton.mp hc)
  · obtain ⟨d, hd, rfl⟩ := List.mem_map.mp hc
    exact .inr ⟨d, hds d hd, rfl⟩

theorem isBlank_digitChar : ∀ d < 10, isBlank (digitChar d) = false := by decide

theorem isBlank_numeral {cs : List Char} {n : Nat} (h : IsNumeral cs n) :
    ∀ c ∈ cs, isBlank c = false := by
  intro c hc
  obtain rfl | ⟨d, hd, rfl⟩ := mem_numeral h c hc
  · rfl
  · exact isBlank_digitChar d hd

theorem digitValue?_eq_some {c : Char} {d : Nat} (h : digitValue? c = some d) :
    d < 10 ∧ c = digitChar d := by
  unfold digitValue? at h
  split at h
  · rename_i hc
    cases h
    refine ⟨by omega, ?_⟩
    rw [digitChar, show 48 + (c.toNat - 48) = c.toNat by omega, Char.ofNat_toNat]
  · cases h

theorem digitsValue_map {ds : List Nat} (h : ∀ d ∈ ds, d < 10) (acc : Nat) :
    digitsValue acc (ds.map digitChar) = some (ds.foldl (fun n d => 10 * n + d) acc) := by
  induction ds generalizing acc with
  | nil => rfl
  | cons d ds ih =>
    rw [List.map_cons, digitsValue, digitValue?_digitChar d (h d List.mem_cons_self)]
    exact ih (fun e he => h e (List.mem_cons_of_mem d he)) _

theorem digitsValue_eq_some {cs : List Char} {acc n : Nat} (h : digitsValue acc cs = some n) :
    ∃ ds : List Nat, (∀ d ∈ ds, d < 10) ∧ cs = ds.map digitChar ∧
      n = ds.foldl (fun n d => 10 * n + d) acc := by
  induction cs generalizing acc with
  | nil => exact ⟨[], by simp, rfl, (Option.some.inj h).symm⟩
  | cons c cs ih =>
    rw [digitsValue] at h
    split at h
    · rename_i d hd
      obtain ⟨hlt, rfl⟩ := digitValue?_eq_some hd
      obtain ⟨ds, hds, rfl, hn⟩ := ih h
      exact ⟨d :: ds, by simpa [hlt] using hds, rfl, hn⟩
    · cases h

theorem readDigits_eq_some_iff {cs : List Char} {n : Nat} :
    readDigits cs = some n ↔
      ∃ ds, ds ≠ [] ∧ (∀ d ∈ ds, d < 10) ∧ cs = ds.map digitChar ∧ n = ofDigits ds := by
  constructor
  · intro h
    cases cs with
    | nil => cases h
    | cons c cs =>
      obtain ⟨ds, hds, hcs, hn⟩ := digitsValue_eq_some h
      refine ⟨ds, ?_, hds, hcs, hn⟩
      rintro rfl
      cases hcs
  · rintro ⟨ds, hne, hds, rfl, rfl⟩
    obtain ⟨d, ds, rfl⟩ := List.exists_cons_of_ne_nil hne
    exact digitsValue_map hds 0

theorem readUnsigned_plus (limit : Nat) (rest : List Char) :
    readUnsigned limit ('+' :: rest) = (readDigits rest).filter (· ≤ limit) := by
  simp only [readUnsigned]
  cases readDigits rest <;> simp [Option.filter]

theorem readUnsigned_of_ne {cs : List Char} (h : ∀ rest, cs ≠ '+' :: rest) (limit : Nat) :
    readUnsigned limit cs = (readDigits cs).filter (· ≤ limit) := by
  unfold readUnsigned
  split
  · exact absurd rfl (h _)
  · simp only
    cases readDigits cs <;> simp [Option.filter]

theorem digitChar_ne_plus : ∀ d < 10, digitChar d ≠ '+' := by decide

/-- **A text is read as a number exactly if it is a numeral of that number** and the number is not
too large. -/
theorem readUnsigned_eq_some_iff {limit n : Nat} {cs : List Char} :
    readUnsigned limit cs = some n ↔ IsNumeral cs n ∧ n ≤ limit := by
  by_cases hplus : ∃ rest, cs = '+' :: rest
  · obtain ⟨rest, rfl⟩ := hplus
    rw [readUnsigned_plus, Option.filter_eq_some_iff, readDigits_eq_some_iff, decide_eq_true_eq]
    refine and_congr_left fun _ => ⟨?_, ?_⟩
    · rintro ⟨ds, hne, hds, rfl, rfl⟩
      exact ⟨['+'], ds, .inr rfl, hne, hds, rfl, rfl⟩
    · rintro ⟨sign, ds, rfl | rfl, hne, hds, hcs, rfl⟩
      · obtain ⟨d, ds, rfl⟩ := List.exists_cons_of_ne_nil hne
        exact absurd (List.cons.inj hcs).1.symm (digitChar_ne_plus d (hds d List.mem_cons_self))
      · exact ⟨ds, hne, hds, (List.cons.inj hcs).2, rfl⟩
  · have hne : ∀ rest, cs ≠ '+' :: rest := not_exists.mp hplus
    rw [readUnsigned_of_ne hne, Option.filter_eq_some_iff, readDigits_eq_some_iff,
      decide_eq_true_eq]
    refine and_congr_left fun _ => ⟨?_, ?_⟩
    · rintro ⟨ds, hsome, hds, rfl, rfl⟩
      exact ⟨[], ds, .inl rfl, hsome, hds, rfl, rfl⟩
    · rintro ⟨sign, ds, rfl | rfl, hsome, hds, rfl, rfl⟩
      · exact ⟨ds, hsome, hds, rfl, rfl⟩
      · exact absurd rfl (hne _)

end HealthRelay.Text
