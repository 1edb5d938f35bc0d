import HealthRelay.Address.Json
import HealthRelay.Json.Writer
import HealthRelay.Proofs.Address
import HealthRelay.Proofs.Json.Literal

/-!
# Single values come back in JSON

`Reads read written a` says that a reader gets `a` from the characters `written` wherever such a
value may stand. A quoted text shows its own end, but a number goes on as long as digits follow, so
the predicate asks for what comes after a value (`Stops`).
-/

namespace HealthRelay.Json

open Text

/-- What may follow a value: the end of the text, or the next member or the end of an object. -/
def Stops (rest : Bytes) : Prop :=
  ∀ b ∈ rest.head?, b = ascii ',' ∨ b = ascii '\x7d'

/-- The reader gets `a` from the characters `written` and leaves what follows them. -/
def Reads {α : Type} (read : Reader α) (written : List Char) (a : α) : Prop :=
  ∀ rest, Stops rest → read (Utf8.encode written ++ rest) = .ok (a, rest)

theorem skipBlanks_cons {b : UInt8} {bs : Bytes} (h : isBlankByte b = false) :
    skipBlanks (b :: bs) = b :: bs :=
  List.dropWhile_cons_of_neg (by simp [h])

/-! ## Numbers -/

theorem Stops.endsNumber {rest : Bytes} (h : Stops rest) : EndsNumber rest := by
  intro b hb
  rcases h b hb with rfl | rfl <;> decide

theorem byteDigit?_eq_none_iff {b : UInt8} : byteDigit? b = none ↔ isDigitByte b = false := by
  simp [byteDigit?, isDigitByte]

theorem takeDigits_end {rest : Bytes} (h : ∀ b ∈ rest.head?, isDigitByte b = false)
    (value taken : Nat) : takeDigits value taken rest = ⟨value, taken, 0, rest⟩ := by
  cases rest with
  | nil => rfl
  | cons b bs => rw [takeDigits, byteDigit?_eq_none_iff.mpr (h b rfl)]

/-- A digit is taken while the number stays below the limit. -/
theorem takeDigits_digitChar {d value : Nat} (hd : d < 10) (h : value * 10 + d ≤ maxWhole)
    (taken : Nat) (bs : Bytes) :
    takeDigits value taken (ascii (digitChar d) :: bs) =
      takeDigits (value * 10 + d) (taken + 1) bs := by
  rw [takeDigits, byteDigit?_ascii d hd]
  exact if_pos h

theorem takeDigits_decimal (n : Nat) (h : n ≤ maxWhole) (taken : Nat) (rest : Bytes) :
    takeDigits 0 taken ((decimal n).map ascii ++ rest) =
      takeDigits n (taken + (decimal n).length) rest := by
  induction n using decimal.induct generalizing rest with
  | case1 n hn =>
    rw [decimal_of_lt hn, List.map_singleton, List.singleton_append,
      takeDigits_digitChar hn (by omega), Nat.zero_mul, Nat.zero_add, List.length_singleton]
  | case2 n hn ih =>
    have hlast : n / 10 * 10 + n % 10 = n := by omega
    rw [decimal_of_le (by omega), List.map_append, List.append_assoc, ih (by omega),
      List.map_singleton, List.singleton_append, takeDigits_digitChar (by omega) (by omega), hlast,
      List.length_append, List.length_singleton, Nat.add_assoc]

theorem readAfterWhole_ends {rest : Bytes} (h : EndsNumber rest) (n taken : Nat) :
    readAfterWhole false ⟨n, taken, 0, rest⟩ = .ok (.natural n, rest) := by
  cases rest with
  | nil => rfl
  | cons b bs =>
    obtain ⟨-, hpoint, hlower, hupper⟩ := h b rfl
    simp only [readAfterWhole, if_neg hpoint, if_neg (not_or.mpr ⟨hlower, hupper⟩), ↓reduceIte]
    rfl

theorem readNumber_zero {bs : Bytes} (h : ∀ b ∈ bs.head?, isDigitByte b = false)
    (negated : Bool) :
    readNumber negated (ascii '0' :: bs) = readAfterWhole negated ⟨0, 1, 0, bs⟩ := by
  have hzero : byteDigit? (ascii '0') = some 0 := rfl
  rw [readNumber.eq_def]
  simp only [hzero]
  cases bs with
  | nil => rfl
  | cons b bs => simp only [h b rfl, Bool.false_eq_true, ↓reduceIte]

theorem readNumber_digit {b : UInt8} {d : Nat} (hb : byteDigit? b = some (d + 1)) (negated : Bool)
    (bs : Bytes) :
    readNumber negated (b :: bs) = readAfterWhole negated (takeDigits (d + 1) 1 bs) := by
  rw [readNumber.eq_def]
  simp only [hb]

theorem readNumber_decimal {n : Nat} (h : n ≤ maxWhole) {rest : Bytes} (hrest : EndsNumber rest) :
    readNumber false ((decimal n).map ascii ++ rest) = .ok (.natural n, rest) := by
  rcases Nat.eq_zero_or_pos n with rfl | hpos
  · rw [decimal_of_lt (by omega), List.map_singleton, List.singleton_append]
    exact (readNumber_zero (fun b hb => (hrest b hb).1) false).trans (readAfterWhole_ends hrest 0 1)
  · -- the first digit is not zero, so all digits are taken as from a leading zero
    obtain ⟨d, ds, hd, hlt, hdecimal⟩ := decimal_head hpos
    have hall := takeDigits_decimal n h 0 rest
    rw [hdecimal, List.map_cons, List.cons_append,
      takeDigits_digitChar hlt (Nat.le_trans (by omega) (show 9 ≤ maxWhole by decide)),
      Nat.zero_mul, Nat.zero_add, takeDigits_end fun b hb => (hrest b hb).1] at hall
    obtain ⟨d, rfl⟩ := Nat.exists_eq_add_of_le' hd
    rw [hdecimal, List.map_cons, List.cons_append, readNumber_digit (byteDigit?_ascii _ hlt), hall]
    exact readAfterWhole_ends hrest _ _

theorem encode_decimal (n : Nat) : Utf8.encode (decimal n) = (decimal n).map ascii :=
  Utf8.encode_ascii (decimal_ascii n)

/-- The first byte of a number is a digit. -/
theorem encode_decimal_head (n : Nat) :
    ∃ d bs, d < 10 ∧ Utf8.encode (decimal n) = ascii (digitChar d) :: bs := by
  obtain ⟨c, cs, hcs⟩ := List.exists_cons_of_ne_nil (decimal_ne_nil n)
  obtain ⟨d, hd, rfl⟩ := mem_decimal n c (by simp [hcs])
  exact ⟨d, cs.map ascii, hd, by rw [encode_decimal, hcs, List.map_cons]⟩

theorem digitByte : ∀ d < 10, isBlankByte (ascii (digitChar d)) = false ∧
    ascii (digitChar d) ≠ ascii '-' ∧ ascii (digitChar d) ≠ ascii 'n' := by decide

theorem reads_whole {limit n : Nat} (wanted : Wanted) (hlimit : limit ≤ maxWhole) (h : n ≤ limit) :
    Reads (readWhole limit wanted) (decimal n) n := by
  intro rest hrest
  have hnumber := readNumber_decimal (Nat.le_trans h hlimit) hrest.endsNumber
  obtain ⟨d, bs, hd, hbytes⟩ := encode_decimal_head n
  obtain ⟨hblank, hminus, -⟩ := digitByte d hd
  rw [← encode_decimal, hbytes, List.cons_append] at hnumber
  rw [hbytes, List.cons_append, readWhole, skipBlanks_cons hblank]
  simp only [if_neg hminus, isDigitByte_ascii d hd, ↓reduceIte, hnumber]
  exact if_pos h

theorem reads_count (n : UInt32) : Reads readCount (decimal n.toNat) n := by
  intro rest hrest
  have hlt := n.toNat_lt
  have hwhole := reads_whole .count (by decide) (show n.toNat ≤ 4294967295 by omega) rest hrest
  simp only [readCount, hwhole, Except.map, UInt32.ofNat_toNat]

theorem reads_time (n : UInt64) : Reads readTime (decimal n.toNat) n := by
  intro rest hrest
  have hlt := n.toNat_lt
  have hwhole :=
    reads_whole .time (by decide) (show n.toNat ≤ 18446744073709551615 by omega) rest hrest
  simp only [readTime, hwhole, Except.map, UInt64.ofNat_toNat]

/-! ## Texts -/

theorem encode_writeQuoted (cs : List Char) (rest : Bytes) :
    Utf8.encode (writeQuoted cs) ++ rest =
      ascii '"' :: (Utf8.encode (cs.flatMap writeChar) ++ ascii '"' :: rest) := by
  rw [writeQuoted, List.cons_append, Utf8.encode_cons, Utf8.encode_append,
    Utf8.encodeChar_ascii (by decide), List.singleton_append, List.cons_append, List.append_assoc]
  rfl

theorem reads_text (cs : List Char) : Reads readText (writeQuoted cs) (String.ofList cs) := by
  intro rest _
  rw [encode_writeQuoted, readText, skipBlanks_cons (by decide)]
  simp only [↓reduceIte, readQuoted_write]

theorem reads_string (s : String) : Reads readText (writeQuoted s.toList) s := by
  simpa only [String.ofList_toList] using reads_text s.toList

/-! ## Values that may be absent -/

section Optional

variable {α : Type} {read : Reader α} {written : List Char} {a : α}

theorem reads_null : Reads (readOptional read) writeNull none := by
  intro rest _
  rfl

/-- A value that does not begin like `null` is read the same where `null` may stand. -/
theorem Reads.optional (h : Reads read written a) {b : UInt8} {bs : Bytes}
    (hbytes : Utf8.encode written = b :: bs) (hblank : isBlankByte b = false)
    (hb : b ≠ ascii 'n') : Reads (readOptional read) written (some a) := by
  intro rest hrest
  have hread := h rest hrest
  rw [hbytes, List.cons_append] at hread
  rw [hbytes, List.cons_append, readOptional, skipBlanks_cons hblank]
  simp only [if_neg hb, hread, Except.map]

theorem reads_optionalString (o : Option String) :
    Reads (readOptional readText) (writeOptional o) o := by
  cases o with
  | none => exact reads_null
  | some s =>
    have hbytes := encode_writeQuoted s.toList []
    rw [List.append_nil] at hbytes
    exact (reads_string s).optional hbytes (by decide) (by decide)

theorem reads_optionalCount (n : UInt32) :
    Reads (readOptional readCount) (decimal n.toNat) (some n) := by
  obtain ⟨d, bs, hd, hbytes⟩ := encode_decimal_head n.toNat
  obtain ⟨hblank, -, hnull⟩ := digitByte d hd
  exact (reads_count n).optional hbytes hblank hnull

end Optional

/-! ## Addresses -/

theorem reads_address {a : Address} (h : a.IsReadable) : Reads Address.readJson a.jsonChars a := by
  intro rest hrest
  have htext := reads_text a.chars rest hrest
  have hback := Address.ofText?_text h
  rw [Address.text] at hback
  rw [Address.jsonChars, Address.readJson, htext]
  simp only [hback]

theorem address_readable {bs rest : Bytes} {a : Address}
    (h : Address.readJson bs = .ok (a, rest)) : a.IsReadable := by
  unfold Address.readJson at h
  split at h
  · cases h
  · split at h
    · rename_i hread
      cases h
      exact Address.ofText?_readable hread
    · cases h

end HealthRelay.Json
