/-!
# UTF-8

Texts as bytes: `encode` writes each character's shortest form, `decode` reads a sequence of bytes
and refuses overlong forms, surrogates and everything above the last code point.
-/

namespace HealthRelay.Text.Utf8

def encodeChar (c : Char) : List UInt8 :=
  let n := c.toNat
  if n < 0x80 then [UInt8.ofNat n]
  else if n < 0x800 then [UInt8.ofNat (0xC0 + n / 64), UInt8.ofNat (0x80 + n % 64)]
  else if n < 0x10000 then
    [UInt8.ofNat (0xE0 + n / 4096), UInt8.ofNat (0x80 + n / 64 % 64), UInt8.ofNat (0x80 + n % 64)]
  else
    [UInt8.ofNat (0xF0 + n / 262144), UInt8.ofNat (0x80 + n / 4096 % 64),
      UInt8.ofNat (0x80 + n / 64 % 64), UInt8.ofNat (0x80 + n % 64)]

def encode (cs : List Char) : List UInt8 :=
  cs.flatMap encodeChar

/-- The six bits of a continuation byte. -/
def tail? (b : UInt8) : Option Nat :=
  if 0x80 ≤ b.toNat ∧ b.toNat ≤ 0xBF then some (b.toNat - 0x80) else none

/-- The character of a code point, if it is one and needs at least `least`. -/
def charFrom? (least n : Nat) : Option Char :=
  if least ≤ n ∧ n.isValidChar then some (Char.ofNat n) else none

def decodeChar? : List UInt8 → Option (Char × List UInt8)
  | [] => none
  | a :: rest =>
    let n := a.toNat
    if n < 0x80 then some (Char.ofNat n, rest)
    else if n < 0xC0 then none
    else if n < 0xE0 then
      match rest with
      | b :: rest => do
        let b ← tail? b
        let c ← charFrom? 0x80 ((n - 0xC0) * 64 + b)
        some (c, rest)
      | _ => none
    else if n < 0xF0 then
      match rest with
      | b :: c :: rest => do
        let b ← tail? b
        let c ← tail? c
        let ch ← charFrom? 0x800 ((n - 0xE0) * 4096 + b * 64 + c)
        some (ch, rest)
      | _ => none
    else if n < 0xF8 then
      match rest with
      | b :: c :: d :: rest => do
        let b ← tail? b
        let c ← tail? c
        let d ← tail? d
        let ch ← charFrom? 0x10000 ((n - 0xF0) * 262144 + b * 4096 + c * 64 + d)
        some (ch, rest)
      | _ => none
    else none

theorem decodeChar?_shorter {bs rest : List UInt8} {c : Char}
    (h : decodeChar? bs = some (c, rest)) : rest.length < bs.length := by
  unfold decodeChar? at h
  split at h
  · simp at h
  · dsimp only at h
    repeat' split at h
    all_goals simp_all [Option.bind_eq_some_iff]
    all_goals grind

/-- The text of a sequence of bytes; `none` if the bytes are no UTF-8. -/
def decode? (bs : List UInt8) : Option (List Char) :=
  match bs with
  | [] => some []
  | b :: rest =>
    match h : decodeChar? (b :: rest) with
    | some (c, rest') =>
      have := decodeChar?_shorter h
      match decode? rest' with
      | some cs => some (c :: cs)
      | none => none
    | none => none
  termination_by bs.length
  decreasing_by assumption

end HealthRelay.Text.Utf8
