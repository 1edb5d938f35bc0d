/-!
# Decimal numbers

`decimal` writes a number without leading zeros; `readUnsigned` reads an optional `+` and one or
more ASCII digits, leading zeros included, up to a limit.
-/

namespace HealthRelay.Text

def digitChar (d : Nat) : Char :=
  Char.ofNat (48 + d)

def digitValue? (c : Char) : Option Nat :=
  if 48 ≤ c.toNat ∧ c.toNat ≤ 57 then some (c.toNat - 48) else none

/-- A number in decimal, without leading zeros. -/
def decimal (n : Nat) : List Char :=
  if n < 10 then [digitChar n] else decimal (n / 10) ++ [digitChar (n % 10)]

/-- A number in decimal, filled with zeros on the left up to `width` digits. -/
def decimalPadded (width n : Nat) : List Char :=
  let ds := decimal n
  List.replicate (width - ds.length) '0' ++ ds

/-- The number that a row of digits continues from `acc`; `none` if a character is no digit. -/
def digitsValue (acc : Nat) : List Char → Option Nat
  | [] => some acc
  | c :: cs =>
    match digitValue? c with
    | some d => digitsValue (10 * acc + d) cs
    | none => none

def readDigits : List Char → Option Nat
  | [] => none
  | c :: cs => digitsValue 0 (c :: cs)

/-- A number of at most `limit`: an optional `+`, then one or more digits. -/
def readUnsigned (limit : Nat) (cs : List Char) : Option Nat :=
  let digits := match cs with
    | '+' :: rest => rest
    | _ => cs
  match readDigits digits with
  | some n => if n ≤ limit then some n else none
  | none => none

def decimalText (n : Nat) : String :=
  String.ofList (decimal n)

end HealthRelay.Text
