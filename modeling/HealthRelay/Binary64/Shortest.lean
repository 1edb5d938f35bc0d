import HealthRelay.Binary64
import HealthRelay.Text.Decimal

/-!
# The shortest decimal of a magnitude

The fewest digits that read back as the same magnitude, and of those the nearest. Exponents from
-5 to 15 are written positionally, all others with a marked exponent of at least two digits.
-/

namespace HealthRelay.Binary64

def fraction (x : Binary64) : Nat × Nat :=
  (x.mantissa * Nat.pow 2 x.power, Nat.pow 2 1074)

def isReadAs (x : Binary64) (num den : Nat) : Bool :=
  round num den == some x

/-- The number of digits before the point of a fraction of at least one. -/
def wholeDigits (num den : Nat) : Nat :=
  (Text.decimal (num / den)).length

/-- How many tenfold steps bring a fraction below one up to one or more. -/
def tenfoldSteps (num den : Nat) : Nat → Nat
  | 0 => 0
  | fuel + 1 => if den ≤ num then 0 else 1 + tenfoldSteps (num * 10) den fuel

/-- The decimal exponent of the first digit of a fraction. -/
def leadExponent (num den : Nat) : Int :=
  if den ≤ num then (wholeDigits num den : Int) - 1
  else -(tenfoldSteps num den 400 : Int)

def tenPower (e : Int) : Nat × Nat :=
  match e with
  | .ofNat k => (Nat.pow 10 k, 1)
  | .negSucc k => (1, Nat.pow 10 (k + 1))

/-- The point with `places` digits nearest to the magnitude that reads back as it, if there is one,
in units of the last of those digits. -/
def candidate? (x : Binary64) (lead : Int) (places : Nat) : Option (Nat × Int) :=
  let (num, den) := x.fraction
  let unit := lead - (places - 1 : Int)
  let (up, down) := tenPower unit
  let below := (num * down) / (den * up)
  let reads (d : Nat) : Bool := x.isReadAs (d * up) down
  let twiceRest := 2 * ((num * down) % (den * up))
  let preferBelow := twiceRest < den * up || (twiceRest == den * up && below % 2 == 0)
  match reads below, reads (below + 1) with
  | true, true => some (if preferBelow then below else below + 1, unit)
  | true, false => some (below, unit)
  | false, true => some (below + 1, unit)
  | false, false => none

/-- The shortest digits, trying one digit more each time. -/
def shortestFrom (x : Binary64) (lead : Int) (places : Nat) : Nat → Nat × Int
  | 0 => (0, 0)
  | fuel + 1 =>
    match candidate? x lead places with
    | some found => found
    | none => shortestFrom x lead (places + 1) fuel

/-- The digits of the shortest decimal and the exponent of the first of them. -/
def shortest (x : Binary64) : List Char × Int :=
  if x.isZero then (['0'], 0)
  else
    let (num, den) := x.fraction
    let (digits, unit) := shortestFrom x (leadExponent num den) 1 17
    let written := Text.decimal digits
    let exponent := unit + (written.length - 1 : Int)
    let kept := (written.reverse.dropWhile (· == '0')).reverse
    (kept, exponent)

/-- Digits with a point after the first, if there are more. -/
def pointed : List Char → List Char
  | [] => []
  | [d] => [d]
  | d :: ds => d :: '.' :: ds

def text (x : Binary64) : String :=
  let (digits, exponent) := x.shortest
  let body : List Char :=
    if 0 ≤ exponent ∧ exponent ≤ 15 then
      let whole := exponent.toNat + 1
      let filled := digits ++ List.replicate (whole - digits.length) '0'
      match filled.drop whole with
      | [] => filled ++ ['.', '0']
      | rest => filled.take whole ++ '.' :: rest
    else if -5 ≤ exponent ∧ exponent < 0 then
      '0' :: '.' :: List.replicate ((-exponent).toNat - 1) '0' ++ digits
    else
      let sign := if exponent < 0 then '-' else '+'
      pointed digits ++ 'e' :: sign :: Text.decimalPadded 2 exponent.natAbs
  String.ofList body

example : (ofNat 5).text = "5.0" := by decide +kernel

example : (ofDecimal 55 (-1)).map text = some "5.5" := by decide +kernel

example : (ofDecimal 18446744073709551615 0).map text = some "1.8446744073709552e+19" := by
  decide +kernel

example : (ofDecimal 1 (-7)).map text = some "1e-07" := by decide +kernel

end HealthRelay.Binary64
