import HealthRelay.Json.Quoted
import HealthRelay.Proofs.Text.Utf8

/-!
# Quoted texts come back in JSON

`Gathers bs text rest` is what reading comes to on `bs`, with any fuel that covers the bytes. It has
one rule for each kind of piece that the writer makes: the closing quote, bytes that stand for
themselves, and escapes. A written character is one such piece (`Gathers.char`).
-/

namespace HealthRelay.Json

open Text

/-! ## Escapes -/

theorem readEscape_short {b : UInt8} {c : Char} (h : shortEscape? b = some c) (bs : Bytes) :
    readEscape (b :: bs) = .ok (c, bs) := by
  rw [readEscape, h]

theorem hexValue?_hexDigitLower :
    ∀ d < 16, hexValue? (ascii (hexDigitLower d)).toNat = some d := by decide

theorem hexDigitLower_ascii : ∀ d < 16, (hexDigitLower d).toNat < 0x80 := by decide

/-- The escape of a control character by its code, after the backslash. -/
def controlCode (c : Char) : List Char :=
  ['u', '0', '0', hexDigitLower (c.toNat / 16), hexDigitLower (c.toNat % 16)]

theorem readEscape_controlCode {c : Char} (h : c.toNat < 0x20) (bs : Bytes) :
    readEscape ((controlCode c).map ascii ++ bs) = .ok (c, bs) := by
  have hzero : hexValue? (ascii '0').toNat = some 0 := by decide
  have hvalue : ((0 * 16 + 0) * 16 + c.toNat / 16) * 16 + c.toNat % 16 = c.toNat := by omega
  have hhex : readHex4 (ascii '0' :: ascii '0' :: ascii (hexDigitLower (c.toNat / 16)) ::
      ascii (hexDigitLower (c.toNat % 16)) :: bs) = .ok (c.toNat, bs) := by
    simp only [readHex4, hzero, hexValue?_hexDigitLower _ (show c.toNat / 16 < 16 by omega),
      hexValue?_hexDigitLower _ (show c.toNat % 16 < 16 by omega), hvalue]
  have hshort : shortEscape? (ascii 'u') = none := by decide
  simp only [controlCode, List.map_cons, List.map_nil, List.cons_append, List.nil_append,
    readEscape, hshort, ↓reduceIte, readCodeEscape, hhex]
  rw [if_neg (by omega), if_neg (by omega), Char.ofNat_toNat]

/-! ## Gathering -/

/-- A byte that stands for itself in a quoted text. -/
def IsPlain (b : UInt8) : Prop :=
  b ≠ ascii '"' ∧ b ≠ ascii '\\' ∧ ¬ b < 0x20

theorem isPlain_encodeChar {c : Char} (hquote : c ≠ '"') (hslash : c ≠ '\\')
    (hcontrol : ¬ c.toNat < 0x20) : ∀ b ∈ Utf8.encodeChar c, IsPlain b := by
  intro b hb
  by_cases hascii : c.toNat < 0x80
  · rw [Utf8.encodeChar_ascii hascii, List.mem_singleton] at hb
    have hnat : b.toNat = c.toNat := hb ▸ Utf8.toNat_byte (by omega)
    have hne : ∀ d : Char, (ascii d).toNat = d.toNat → c ≠ d → b ≠ ascii d := by
      rintro d hd hcd rfl
      exact hcd (Char.toNat_inj.mp (hnat.symm.trans hd))
    refine ⟨hne '"' rfl hquote, hne '\\' rfl hslash, ?_⟩
    rw [UInt8.lt_iff_toNat_lt, hnat]
    exact hcontrol
  · have hhigh := Utf8.encodeChar_high (Nat.le_of_not_lt hascii) b hb
    have hne : ∀ d : Char, (ascii d).toNat < 0x80 → b ≠ ascii d := by
      rintro d hd rfl
      omega
    refine ⟨hne '"' (by decide), hne '\\' (by decide), ?_⟩
    rw [UInt8.lt_iff_toNat_lt]
    exact Nat.not_lt.mpr (Nat.le_trans (by decide) hhigh)

/-- Gathering ends with `text` and leaves `rest`, with any fuel that covers the bytes. -/
def Gathers (bs text rest : Bytes) : Prop :=
  ∀ fuel, bs.length ≤ fuel → gatherQuoted fuel bs = .ok (text, rest)

namespace Gathers

variable {bs text rest : Bytes}

theorem close (rest : Bytes) : Gathers (ascii '"' :: rest) [] rest := by
  intro fuel hfuel
  cases fuel with
  | zero => simp at hfuel
  | succ fuel => rw [gatherQuoted, if_pos rfl]

theorem plain {b : UInt8} (h : Gathers bs text rest) (hb : IsPlain b) :
    Gathers (b :: bs) (b :: text) rest := by
  obtain ⟨hquote, hslash, hcontrol⟩ := hb
  intro fuel hfuel
  cases fuel with
  | zero => simp at hfuel
  | succ fuel =>
    have hback := h fuel (Nat.le_of_succ_le_succ hfuel)
    rw [gatherQuoted, if_neg hquote, if_neg hslash, if_neg hcontrol, hback]

theorem plains {raw : Bytes} (h : Gathers bs text rest) (hraw : ∀ b ∈ raw, IsPlain b) :
    Gathers (raw ++ bs) (raw ++ text) rest := by
  induction raw with
  | nil => exact h
  | cons b raw ih =>
    exact (ih fun b hb => hraw b (List.mem_cons_of_mem _ hb)).plain (hraw b List.mem_cons_self)

theorem escape {c : Char} {code : Bytes} (h : Gathers bs text rest)
    (hcode : readEscape (code ++ bs) = .ok (c, bs)) :
    Gathers (ascii '\\' :: (code ++ bs)) (Utf8.encodeChar c ++ text) rest := by
  intro fuel hfuel
  cases fuel with
  | zero => simp at hfuel
  | succ fuel =>
    have hcover : bs.length ≤ fuel := by
      rw [List.length_cons, List.length_append] at hfuel
      omega
    rw [gatherQuoted, if_neg (by decide), if_pos rfl, hcode]
    simp only [h fuel hcover]

theorem writtenEscape {c : Char} {code : List Char} (h : Gathers bs text rest)
    (hascii : ∀ d ∈ code, d.toNat < 0x80)
    (hcode : readEscape (code.map ascii ++ bs) = .ok (c, bs)) :
    Gathers (Utf8.encode ('\\' :: code) ++ bs) (Utf8.encodeChar c ++ text) rest := by
  have hbytes : Utf8.encode ('\\' :: code) = ascii '\\' :: code.map ascii := by
    rw [Utf8.encode_cons, Utf8.encode_ascii hascii]
    rfl
  rw [hbytes, List.cons_append]
  exact h.escape hcode

theorem shortEscape {c letter : Char} (h : Gathers bs text rest) (hascii : letter.toNat < 0x80)
    (hletter : shortEscape? (ascii letter) = some c) :
    Gathers (Utf8.encode ['\\', letter] ++ bs) (Utf8.encodeChar c ++ text) rest :=
  h.writtenEscape (by simpa using hascii) (readEscape_short hletter bs)

theorem controlCode {c : Char} (h : Gathers bs text rest) (hcontrol : c.toNat < 0x20) :
    Gathers (Utf8.encode ('\\' :: Json.controlCode c) ++ bs) (Utf8.encodeChar c ++ text) rest := by
  refine h.writtenEscape ?_ (readEscape_controlCode hcontrol bs)
  have hhigh := hexDigitLower_ascii (c.toNat / 16) (by omega)
  have hlow := hexDigitLower_ascii (c.toNat % 16) (by omega)
  simp [Json.controlCode, hhigh, hlow]

/-- **A written character is gathered as its bytes.** -/
theorem char (h : Gathers bs text rest) (c : Char) :
    Gathers (Utf8.encode (writeChar c) ++ bs) (Utf8.encodeChar c ++ text) rest := by
  unfold writeChar
  split
  case h_8 hquote hslash _ _ _ _ _ =>
    split
    · exact h.controlCode ‹_›
    · have hbytes : Utf8.encode [c] = Utf8.encodeChar c := by
        rw [Utf8.encode, List.flatMap_singleton]
      rw [hbytes]
      exact h.plains (isPlain_encodeChar hquote hslash ‹_›)
  all_goals exact h.shortEscape (by decide) (by decide)

theorem chars (h : Gathers bs text rest) (cs : List Char) :
    Gathers (Utf8.encode (cs.flatMap writeChar) ++ bs) (Utf8.encode cs ++ text) rest := by
  induction cs with
  | nil => exact h
  | cons c cs ih =>
    rw [List.flatMap_cons, Utf8.encode_append, Utf8.encode_cons, List.append_assoc,
      List.append_assoc]
    exact ih.char c

end Gathers

/-- **A quoted text is read back**, after its opening quote. -/
theorem readQuoted_write (cs : List Char) (rest : Bytes) :
    readQuoted (Utf8.encode (cs.flatMap writeChar) ++ ascii '"' :: rest) =
      .ok (String.ofList cs, rest) := by
  have hgather := (Gathers.close rest).chars cs _ (Nat.le_refl _)
  rw [List.append_nil] at hgather
  simp only [readQuoted, hgather, Utf8.decode?_encode]

end HealthRelay.Json
