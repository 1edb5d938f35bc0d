import HealthRelay.ConfigError
import HealthRelay.Text.Blank

/-!
# Reading durations

A duration is a number with an optional unit: `ms`, `s`, `m`, or none for seconds. White space may
stand around the whole and between the number and its unit.
-/

namespace HealthRelay

/-- The largest number that a duration may be written with. -/
def maxWritten : Nat := 18446744073709551615

namespace Duration

inductive Scale where
  | bare
  | milliseconds
  | seconds
  | minutes
deriving DecidableEq, Repr

/-- The unit at the end of a text, and the text before it. -/
def splitScale (cs : List Char) : Scale × List Char :=
  match cs.reverse with
  | 's' :: 'm' :: rest => (.milliseconds, rest.reverse)
  | 's' :: rest => (.seconds, rest.reverse)
  | 'm' :: rest => (.minutes, rest.reverse)
  | _ => (.bare, cs)

/-- A number of units; minutes must still fit when counted in seconds. -/
def Scale.apply? (n : Nat) : Scale → Option Duration
  | .bare => some (.ofSecs n)
  | .milliseconds => some (.ofMillis n)
  | .seconds => some (.ofSecs n)
  | .minutes => if n * 60 ≤ maxWritten then some (.ofSecs (n * 60)) else none

/-- The duration that a trimmed text writes. -/
def ofTrimmed? (cs : List Char) : Option Duration :=
  let (scale, body) := splitScale cs
  (Text.readUnsigned maxWritten (Text.trim body)).bind fun n => scale.apply? n

def ofText? (s : String) : Except ConfigError Duration :=
  let trimmed := Text.trim s.toList
  match ofTrimmed? trimmed with
  | some d => .ok d
  | none => .error (.notDuration (String.ofList trimmed))

example : ofTrimmed? ['2', ' ', 'm'] = some (.ofSecs 120) := by decide +kernel

example : ofTrimmed? ['+', '0', '5'] = some (.ofSecs 5) := by decide +kernel

example : ofTrimmed? ['m', 's'] = none := by decide +kernel

end Duration

end HealthRelay
