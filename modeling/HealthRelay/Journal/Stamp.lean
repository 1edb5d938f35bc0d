import HealthRelay.Text.Decimal

/-!
# Time stamps

A time as its date and time of day in UTC, to the microsecond, as `2024-02-29T23:59:59.000001Z`.
-/

namespace HealthRelay

structure CivilDay where
  year : Nat
  month : Nat
  day : Nat
deriving DecidableEq, Repr

namespace CivilDay

/-- The day that lies a number of days after the first of January 1970. Years are counted from March
on, so that a leap day is the last of its year. -/
def ofDays (days : Nat) : CivilDay :=
  let z := days + 719468
  let era := z / 146097
  let ofEra := z % 146097
  let year := (ofEra - ofEra / 1460 + ofEra / 36524 - ofEra / 146096) / 365
  let ofYear := ofEra - (365 * year + year / 4 - year / 100)
  let march := (5 * ofYear + 2) / 153
  let day := ofYear - (153 * march + 2) / 5 + 1
  let month := if march < 10 then march + 3 else march - 9
  { year := 400 * era + year + (if month ≤ 2 then 1 else 0), month, day }

example : ofDays 0 = ⟨1970, 1, 1⟩ := by decide

example : ofDays 11016 = ⟨2000, 2, 29⟩ := by decide

end CivilDay

/-- The stamp of a time, in microseconds since the first of January 1970. -/
def timeStamp (micros : Nat) : String :=
  let seconds := micros / 1000000
  let date := CivilDay.ofDays (seconds / 86400)
  let ofDay := seconds % 86400
  String.ofList (Text.decimalPadded 4 date.year ++ '-' :: Text.decimalPadded 2 date.month ++
    '-' :: Text.decimalPadded 2 date.day ++ 'T' :: Text.decimalPadded 2 (ofDay / 3600) ++
    ':' :: Text.decimalPadded 2 (ofDay / 60 % 60) ++ ':' :: Text.decimalPadded 2 (ofDay % 60) ++
    '.' :: Text.decimalPadded 6 (micros % 1000000) ++ ['Z'])

end HealthRelay
