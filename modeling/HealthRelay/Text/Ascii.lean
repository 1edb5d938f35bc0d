/-!
# ASCII bytes

Bytes named by their characters, and the classes of bytes that the readers of wire formats share.
-/

namespace HealthRelay.Text

@[inline] def ascii (c : Char) : UInt8 := UInt8.ofNat c.toNat

def byteDigit? (b : UInt8) : Option Nat :=
  if 48 ≤ b.toNat ∧ b.toNat ≤ 57 then some (b.toNat - 48) else none

def isDigitByte (b : UInt8) : Bool :=
  decide (48 ≤ b.toNat ∧ b.toNat ≤ 57)

def isAlnumByte (b : UInt8) : Bool :=
  let n := b.toNat
  decide (48 ≤ n ∧ n ≤ 57) || decide (65 ≤ n ∧ n ≤ 90) || decide (97 ≤ n ∧ n ≤ 122)

def asciiBytes (s : String) : List UInt8 := s.toList.map ascii

end HealthRelay.Text
