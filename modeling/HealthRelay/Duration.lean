import HealthRelay.Text.Decimal

/-!
# Durations

A span of time in whole nanoseconds, and the text that messages and logs show for it: the largest
unit that fits, with a decimal fraction and no trailing zeros.
-/

namespace HealthRelay

structure Duration where
  nanos : Nat
deriving DecidableEq, Repr

namespace Duration

def ofSecs (n : Nat) : Duration := ⟨n * 1000000000⟩

def ofMillis (n : Nat) : Duration := ⟨n * 1000000⟩

def secs (d : Duration) : Nat := d.nanos / 1000000000

/-- The nanoseconds beyond the whole seconds. -/
def subsecNanos (d : Duration) : Nat := d.nanos % 1000000000

def zero : Duration := ⟨0⟩

instance : LE Duration := ⟨fun a b => a.nanos ≤ b.nanos⟩

instance (a b : Duration) : Decidable (a ≤ b) := inferInstanceAs (Decidable (a.nanos ≤ b.nanos))

instance : LT Duration := ⟨fun a b => a.nanos < b.nanos⟩

instance (a b : Duration) : Decidable (a < b) := inferInstanceAs (Decidable (a.nanos < b.nanos))

/-- The digits after the point, without the zeros at their end. -/
def fractionDigits (places n : Nat) : List Char :=
  ((Text.decimalPadded places n).reverse.dropWhile (· == '0')).reverse

/-- A number of units of `10 ^ places` nanoseconds, with the fraction it needs. -/
def inUnit (places n : Nat) (unit : String) : String :=
  let whole := Text.decimal (n / Nat.pow 10 places)
  let fraction :=
    match fractionDigits places (n % Nat.pow 10 places) with
    | [] => []
    | ds => '.' :: ds
  String.ofList (whole ++ fraction) ++ unit

/-- The text of a duration, such as `1.5s`, `10ms`, `20.5µs` or `0ns`. -/
def text (d : Duration) : String :=
  if 1000000000 ≤ d.nanos then inUnit 9 d.nanos "s"
  else if 1000000 ≤ d.nanos then inUnit 6 d.nanos "ms"
  else if 1000 ≤ d.nanos then inUnit 3 d.nanos "µs"
  else inUnit 0 d.nanos "ns"

example : (ofMillis 1500).text = "1.5s" := by decide +kernel

example : (ofMillis 10).text = "10ms" := by decide +kernel

example : (⟨20500⟩ : Duration).text = "20.5µs" := by decide +kernel

example : zero.text = "0ns" := by decide +kernel

end Duration

end HealthRelay
