import HealthRelay.Address
import HealthRelay.Proofs.Text.Blank
import HealthRelay.Proofs.Text.Decimal

/-!
# Texts of addresses

`ofText?_eq_ok_iff` says which texts are read as addresses: those that come to a host, a colon and a
numeral once the white space around them is gone. The text of an address ends in a digit, so
trimming it can only take from the start of the host. `ofText?_text` says that this is all that can
go wrong: a readable address is read back from its text. Every address that is read is readable
(`ofText?_readable`), so the loss cannot happen twice.
-/

namespace HealthRelay

namespace Address

open Text

/-! ## The last colon -/

theorem splitLastColon_of_notMem {cs : List Char} (h : ':' ∉ cs) : splitLastColon cs = none := by
  induction cs with
  | nil => rfl
  | cons c cs ih =>
    obtain ⟨hc, hcs⟩ := not_or.mp (mt List.mem_cons.mpr h)
    simp [splitLastColon, ih hcs, Ne.symm hc]

theorem splitLastColon_append {host port : List Char} (h : ':' ∉ port) :
    splitLastColon (host ++ ':' :: port) = some (host, port) := by
  induction host with
  | nil => simp [splitLastColon, splitLastColon_of_notMem h]
  | cons c cs ih => rw [List.cons_append, splitLastColon, ih]

theorem append_of_splitLastColon {cs host port : List Char}
    (h : splitLastColon cs = some (host, port)) : cs = host ++ ':' :: port := by
  induction cs generalizing host with
  | nil => cases h
  | cons c cs ih =>
    rw [splitLastColon] at h
    split at h
    · rename_i heq
      cases h
      rw [ih heq, List.cons_append]
    · split at h
      · rename_i hc
        cases h
        rw [hc, List.nil_append]
      · cases h

theorem colon_ne_digitChar : ∀ d < 10, ':' ≠ digitChar d := by decide

/-! ## Readable addresses -/

/-- The host is not empty and does not begin with white space. -/
def IsReadable (a : Address) : Prop :=
  a.host ≠ "" ∧ ∀ c ∈ a.host.toList.head?, isBlank c = false

variable {a : Address}

theorem isReadable_iff :
    a.IsReadable ↔ ∃ c cs, a.host.toList = c :: cs ∧ isBlank c = false := by
  have hempty : a.host = "" ↔ a.host.toList = [] := by rw [← String.toList_inj, String.toList_empty]
  rw [IsReadable, ne_eq, hempty]
  cases a.host.toList with
  | nil => simp
  | cons c cs => simp

/-! ## All texts that are read -/

/-- A text without white space at its ends writes an address: a host, the last colon, and the port
as a numeral. -/
def IsWritten (text : List Char) (a : Address) : Prop :=
  ∃ host port, text = host ++ ':' :: port ∧ host ≠ [] ∧ host = a.host.toList ∧ ':' ∉ port ∧
    IsNumeral port a.port.toNat

theorem colon_notMem_numeral {cs : List Char} {n : Nat} (h : IsNumeral cs n) : ':' ∉ cs := by
  intro hmem
  obtain hc | ⟨d, hd, hc⟩ := mem_numeral h ':' hmem
  · exact absurd hc (by decide)
  · exact colon_ne_digitChar d hd hc

/-- The parts of a text that was read. -/
theorem ofText?_parts {s : String} (h : ofText? s = .ok a) :
    ∃ host port n, splitLastColon (trim s.toList) = some (host, port) ∧ host ≠ [] ∧
      readUnsigned 65535 port = some n ∧ a = ⟨String.ofList host, UInt16.ofNat n⟩ := by
  unfold ofText? at h
  simp only at h
  split at h
  · cases h
  · cases h
  · rename_i host port hne hsplit
    split at h
    · rename_i n hread
      exact ⟨host, port, n, hsplit, hne, hread, (Except.ok.inj h).symm⟩
    · cases h

theorem ofText?_of_parts {s : String} {host port : List Char} {n : Nat}
    (hsplit : splitLastColon (trim s.toList) = some (host, port)) (hne : host ≠ [])
    (hread : readUnsigned 65535 port = some n) :
    ofText? s = .ok ⟨String.ofList host, UInt16.ofNat n⟩ := by
  obtain ⟨c, cs, rfl⟩ := List.exists_cons_of_ne_nil hne
  simp only [ofText?, hsplit, hread]

/-- **A text is read as an address exactly if it writes that address**, white space around it
aside. -/
theorem ofText?_eq_ok_iff {s : String} :
    ofText? s = .ok a ↔ ∃ text, IsTrimmed s.toList text ∧ IsWritten text a := by
  constructor
  · intro h
    obtain ⟨host, port, n, hsplit, hne, hread, rfl⟩ := ofText?_parts h
    obtain ⟨hnumeral, hle⟩ := readUnsigned_eq_some_iff.mp hread
    have hport : (UInt16.ofNat n).toNat = n := UInt16.toNat_ofNat_of_lt' (Nat.lt_succ_of_le hle)
    refine ⟨trim s.toList, isTrimmed_trim _, host, port, append_of_splitLastColon hsplit, hne,
      String.toList_ofList.symm, colon_notMem_numeral hnumeral, ?_⟩
    rwa [hport]
  · rintro ⟨text, htrimmed, host, port, rfl, hne, hhost, hcolon, hnumeral⟩
    have hsplit : splitLastColon (trim s.toList) = some (host, port) := by
      rw [htrimmed.trim_eq, splitLastColon_append hcolon]
    have hlt := a.port.toNat_lt
    have hread := readUnsigned_eq_some_iff.mpr ⟨hnumeral, show a.port.toNat ≤ 65535 by omega⟩
    rw [ofText?_of_parts hsplit hne hread, hhost, String.ofList_toList, UInt16.ofNat_toNat]

/-! ## Texts that are written -/

theorem isNumeral_decimal (n : Nat) : IsNumeral (decimal n) n :=
  (readUnsigned_eq_some_iff.mp (readUnsigned_decimal (Nat.le_refl n))).1

theorem IsReadable.isTrimmed (h : a.IsReadable) : IsTrimmed a.chars a.chars := by
  obtain ⟨c, cs, hhost, hc⟩ := isReadable_iff.mp h
  obtain ⟨ds, d, hd, hport⟩ := decimal_concat a.port.toNat
  refine ⟨⟨[], [], by simp, by simp, by simp⟩, ?_, ?_⟩
  · simp [chars, hhost, hc]
  · intro e he
    rw [chars, hport, ← List.cons_append, ← List.append_assoc, List.getLast?_concat] at he
    cases he
    exact isBlank_digitChar d hd

theorem isWritten_chars (h : a.host ≠ "") : IsWritten a.chars a :=
  ⟨a.host.toList, decimal a.port.toNat, rfl, by simpa using h, rfl,
    colon_notMem_numeral (isNumeral_decimal _), isNumeral_decimal _⟩

/-- **A readable address is read back from its text.** -/
theorem ofText?_text (h : a.IsReadable) : ofText? a.text = .ok a := by
  rw [ofText?_eq_ok_iff, text, String.toList_ofList]
  exact ⟨a.chars, h.isTrimmed, isWritten_chars h.1⟩

/-- **Every address that is read is readable.** -/
theorem ofText?_readable {s : String} (h : ofText? s = .ok a) : a.IsReadable := by
  obtain ⟨text, htrimmed, host, port, rfl, hne, hhost, -, -⟩ := ofText?_eq_ok_iff.mp h
  obtain ⟨c, cs, rfl⟩ := List.exists_cons_of_ne_nil hne
  exact isReadable_iff.mpr ⟨c, cs, hhost.symm, htrimmed.head c rfl⟩

/-- **Addresses have a grammar, and are stable under printing.** A text is read as an address
exactly if it writes that address with white space around it; an address that was read is read back
from its own text; and any address is, exactly if its host is not empty and does not begin with
white space. -/
theorem text_grammar :
    (∀ (s : String) (a : Address),
      ofText? s = .ok a ↔ ∃ text, IsTrimmed s.toList text ∧ IsWritten text a) ∧
    (∀ (s : String) (a : Address), ofText? s = .ok a → ofText? a.text = .ok a) ∧
    ∀ a : Address, ofText? a.text = .ok a ↔
      a.host ≠ "" ∧ ∀ c ∈ a.host.toList.head?, isBlank c = false :=
  ⟨fun _ _ => ofText?_eq_ok_iff, fun _ _ h => ofText?_text (ofText?_readable h),
    fun _ => ⟨ofText?_readable, ofText?_text⟩⟩

end Address

end HealthRelay
