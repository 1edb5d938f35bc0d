/-!
# Hexadecimal digits

Writing a number in lower-case or upper-case hexadecimal, and the value of a digit of either case.
-/

namespace HealthRelay.Text

def hexDigitLower (d : Nat) : Char :=
  if d < 10 then Char.ofNat (48 + d) else Char.ofNat (87 + d)

def hexDigitUpper (d : Nat) : Char :=
  if d < 10 then Char.ofNat (48 + d) else Char.ofNat (55 + d)

/-- A number in lower-case hexadecimal, without leading zeros. -/
def hexLower (n : Nat) : List Char :=
  if n < 16 then [hexDigitLower n] else hexLower (n / 16) ++ [hexDigitLower (n % 16)]

/-- The value of a hexadecimal digit of either case, by its code. -/
def hexValue? (n : Nat) : Option Nat :=
  if 48 ≤ n ∧ n ≤ 57 then some (n - 48)
  else if 65 ≤ n ∧ n ≤ 70 then some (n - 55)
  else if 97 ≤ n ∧ n ≤ 102 then some (n - 87)
  else none

end HealthRelay.Text
