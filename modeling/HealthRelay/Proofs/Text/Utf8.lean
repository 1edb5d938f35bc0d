import HealthRelay.Text.Ascii
import HealthRelay.Text.Utf8

/-!
# Text comes back from its bytes

`decode?_encode` says that decoding is the inverse of encoding. The characters of ASCII are their
own bytes (`encode_ascii`), and no other character has a byte of ASCII (`encodeChar_high`), so a
reader may look for ASCII characters in the bytes of a text.
-/

namespace HealthRelay.Text.Utf8

variable {c : Char} {cs : List Char}

theorem toNat_lt (c : Char) : c.toNat < 0x110000 := by
  rcases c.valid with h | ⟨-, h⟩
  · exact Nat.lt_trans h (by decide)
  · exact h

theorem toNat_byte {n : Nat} (h : n < 256) : (UInt8.ofNat n).toNat = n := by
  rw [UInt8.toNat_ofNat', Nat.mod_eq_of_lt h]

theorem tail?_ofNat {n : Nat} (h : n < 64) : tail? (UInt8.ofNat (0x80 + n)) = some n := by
  rw [tail?, toNat_byte (by omega), if_pos (by omega), Nat.add_sub_cancel_left]

theorem charFrom?_toNat {least : Nat} (h : least ≤ c.toNat) :
    charFrom? least c.toNat = some c := by
  rw [charFrom?, if_pos ⟨h, c.valid⟩, Char.ofNat_toNat]

/-! ## One character -/

theorem decodeChar?_one {n : Nat} (h : n < 0x80) (rest : List UInt8) :
    decodeChar? (UInt8.ofNat n :: rest) = some (Char.ofNat n, rest) := by
  unfold decodeChar?
  simp only [toNat_byte (show n < 256 by omega), if_pos h]

theorem decodeChar?_two {a b : Nat} (ha : a < 32) (hb : b < 64) (rest : List UInt8) :
    decodeChar? (UInt8.ofNat (0xC0 + a) :: UInt8.ofNat (0x80 + b) :: rest) =
      (charFrom? 0x80 (a * 64 + b)).bind fun c => some (c, rest) := by
  rw [decodeChar?]
  simp only [toNat_byte (show 0xC0 + a < 256 by omega), tail?_ofNat hb, Nat.add_sub_cancel_left]
  rw [if_neg (by omega), if_neg (by omega), if_pos (by omega)]
  simp only [Option.bind_eq_bind, Option.bind_some]

theorem decodeChar?_three {a b d : Nat} (ha : a < 16) (hb : b < 64) (hd : d < 64)
    (rest : List UInt8) :
    decodeChar? (UInt8.ofNat (0xE0 + a) :: UInt8.ofNat (0x80 + b) :: UInt8.ofNat (0x80 + d) ::
        rest) =
      (charFrom? 0x800 (a * 4096 + b * 64 + d)).bind fun c => some (c, rest) := by
  rw [decodeChar?]
  simp only [toNat_byte (show 0xE0 + a < 256 by omega), tail?_ofNat hb, tail?_ofNat hd,
    Nat.add_sub_cancel_left]
  rw [if_neg (by omega), if_neg (by omega), if_neg (by omega), if_pos (by omega)]
  rw [Option.bind_eq_bind, Option.bind_some, Option.bind_eq_bind, Option.bind_some]

theorem decodeChar?_four {a b d e : Nat} (ha : a < 8) (hb : b < 64) (hd : d < 64) (he : e < 64)
    (rest : List UInt8) :
    decodeChar? (UInt8.ofNat (0xF0 + a) :: UInt8.ofNat (0x80 + b) :: UInt8.ofNat (0x80 + d) ::
        UInt8.ofNat (0x80 + e) :: rest) =
      (charFrom? 0x10000 (a * 262144 + b * 4096 + d * 64 + e)).bind fun c => some (c, rest) := by
  rw [decodeChar?]
  simp only [toNat_byte (show 0xF0 + a < 256 by omega), tail?_ofNat hb, tail?_ofNat hd,
    tail?_ofNat he, Nat.add_sub_cancel_left]
  rw [if_neg (by omega), if_neg (by omega), if_neg (by omega), if_neg (by omega),
    if_pos (by omega)]
  rw [Option.bind_eq_bind, Option.bind_some, Option.bind_eq_bind, Option.bind_some,
    Option.bind_some]

/-- The first character of a text is read back from the bytes of the text. -/
theorem decodeChar?_encodeChar (c : Char) (rest : List UInt8) :
    decodeChar? (encodeChar c ++ rest) = some (c, rest) := by
  have hlt := toNat_lt c
  unfold encodeChar
  simp only
  split
  · rename_i h
    rw [List.singleton_append, decodeChar?_one h, Char.ofNat_toNat]
  · split
    · have hn : c.toNat / 64 * 64 + c.toNat % 64 = c.toNat := by omega
      rw [List.cons_append, List.singleton_append, decodeChar?_two (by omega) (by omega), hn,
        charFrom?_toNat (by omega), Option.bind_some]
    · split
      · have hn : c.toNat / 4096 * 4096 + c.toNat / 64 % 64 * 64 + c.toNat % 64 = c.toNat := by
          omega
        rw [List.cons_append, List.cons_append, List.singleton_append,
          decodeChar?_three (by omega) (by omega) (by omega), hn, charFrom?_toNat (by omega),
          Option.bind_some]
      · have hn : c.toNat / 262144 * 262144 + c.toNat / 4096 % 64 * 4096 +
            c.toNat / 64 % 64 * 64 + c.toNat % 64 = c.toNat := by omega
        rw [List.cons_append, List.cons_append, List.cons_append, List.singleton_append,
          decodeChar?_four (by omega) (by omega) (by omega) (by omega), hn,
          charFrom?_toNat (by omega), Option.bind_some]

/-! ## Texts -/

theorem decode?_of_char {bs rest : List UInt8} (h : decodeChar? bs = some (c, rest)) :
    decode? bs = (decode? rest).map (c :: ·) := by
  cases bs with
  | nil => cases h
  | cons b bs =>
    rw [decode?]
    split
    · rename_i c' rest' h'
      cases h.symm.trans h'
      cases decode? rest <;> rfl
    · rename_i h'
      cases h.symm.trans h'

/-- **Decoding is the inverse of encoding.** -/
theorem decode?_encode (cs : List Char) : decode? (encode cs) = some cs := by
  induction cs with
  | nil => rw [encode, List.flatMap_nil, decode?]
  | cons c cs ih =>
    rw [encode, List.flatMap_cons, decode?_of_char (decodeChar?_encodeChar c _)]
    show (decode? (encode cs)).map (c :: ·) = _
    rw [ih, Option.map_some]

/-! ## ASCII -/

theorem encode_append (cs ds : List Char) : encode (cs ++ ds) = encode cs ++ encode ds :=
  List.flatMap_append

theorem encode_cons (c : Char) (cs : List Char) : encode (c :: cs) = encodeChar c ++ encode cs :=
  List.flatMap_cons

theorem encodeChar_ascii (h : c.toNat < 0x80) : encodeChar c = [ascii c] := by
  simp only [encodeChar, if_pos h, ascii]

theorem encode_ascii (h : ∀ c ∈ cs, c.toNat < 0x80) : encode cs = cs.map ascii := by
  induction cs with
  | nil => rfl
  | cons c cs ih =>
    rw [encode_cons, encodeChar_ascii (h c (by simp)), ih fun d hd => h d (by simp [hd])]
    rfl

/-- A character outside of ASCII has no byte in it. -/
theorem encodeChar_high (h : 0x80 ≤ c.toNat) : ∀ b ∈ encodeChar c, 0x80 ≤ b.toNat := by
  have hlt := toNat_lt c
  unfold encodeChar
  simp only [if_neg (show ¬ c.toNat < 0x80 by omega)]
  intro b hb
  split at hb
  · simp only [List.mem_cons, List.not_mem_nil, or_false] at hb
    rcases hb with rfl | rfl <;> rw [toNat_byte (by omega)] <;> omega
  · split at hb
    · simp only [List.mem_cons, List.not_mem_nil, or_false] at hb
      rcases hb with rfl | rfl | rfl <;> rw [toNat_byte (by omega)] <;> omega
    · simp only [List.mem_cons, List.not_mem_nil, or_false] at hb
      rcases hb with rfl | rfl | rfl | rfl <;> rw [toNat_byte (by omega)] <;> omega

end HealthRelay.Text.Utf8
