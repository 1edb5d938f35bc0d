/-!
# Binary64 magnitudes

Finite magnitudes of 64-bit binary floating point, as a mantissa below `2 ^ 53` and a power of two.
`round` takes the nearest magnitude of a fraction, a half to the even mantissa; products and
quotients are rounded once.
-/

namespace HealthRelay

/-- The magnitude `mantissa * 2 ^ power / 2 ^ 1074`. -/
structure Binary64 where
  mantissa : Nat
  power : Nat
deriving DecidableEq, Repr

namespace Binary64

def zero : Binary64 := ⟨0, 0⟩

def isZero (x : Binary64) : Bool := x.mantissa == 0

/-- The natural number nearest to a fraction, a half going to the even one. -/
def nearest (num den : Nat) : Nat :=
  let q := num / den
  let r := num % den
  if 2 * r < den then q
  else if 2 * r = den ∧ q % 2 = 0 then q
  else q + 1

/-- The nearest magnitude to a fraction; `none` if it would be infinite. -/
def round (num den : Nat) : Option Binary64 :=
  let scaled := num * Nat.pow 2 1074
  let bits := (scaled / den).log2 + 1
  let power := bits - 53
  let mantissa := nearest scaled (den * Nat.pow 2 power)
  let (mantissa, power) :=
    if mantissa = Nat.pow 2 53 then (Nat.pow 2 52, power + 1) else (mantissa, power)
  if power ≤ 2045 then some ⟨mantissa, power⟩ else none

/-- The nearest magnitude to a number below `2 ^ 64`. -/
def ofNat (n : Nat) : Binary64 := (round n 1).getD zero

def mul (x y : Binary64) : Option Binary64 :=
  round (x.mantissa * y.mantissa * Nat.pow 2 (x.power + y.power)) (Nat.pow 2 2148)

def div (x y : Binary64) : Binary64 :=
  (round (x.mantissa * Nat.pow 2 x.power) (y.mantissa * Nat.pow 2 y.power)).getD zero

/-- The nearest magnitude to a power of ten up to 308. -/
def powerOfTen (k : Nat) : Binary64 := (round (Nat.pow 10 k) 1).getD zero

/-- A number of powers of ten below, dividing at most 308 powers at a time. -/
def scaleDown (x : Binary64) (k : Nat) : Binary64 :=
  if k ≤ 308 then x.div (powerOfTen k)
  else if x.isZero then x
  else scaleDown (x.div (powerOfTen 308)) (k - 308)
  termination_by k

/-- The magnitude of `significand * 10 ^ exponent`; `none` if it would be infinite. -/
def ofDecimal (significand : Nat) (exponent : Int) : Option Binary64 :=
  let x := ofNat significand
  match exponent with
  | .ofNat k => if k ≤ 308 then x.mul (powerOfTen k) else if x.isZero then some x else none
  | .negSucc k => some (x.scaleDown (k + 1))

end Binary64

end HealthRelay
