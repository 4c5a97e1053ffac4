import Mathlib.Data.Int.Notation
import Mathlib.Data.Nat.Notation

/-!
# Instants and the calendar

`Date` as far as the program uses it: an instant is a number of milliseconds since the start of 1970
in UTC, and the calendar is the proleptic Gregorian one. `makeDay` is the specification's: months
and days outside their range carry over.
-/

namespace Calendar

def msPerDay : ℤ := 86400000

/-- The day an instant lies in, counted from the start of 1970. -/
def day (t : ℤ) : ℤ := t / msPerDay

/-- The milliseconds since the start of that day. -/
def timeWithinDay (t : ℤ) : ℤ := t % msPerDay

def isLeapYear (y : ℤ) : Bool := (y % 4 = 0 && y % 100 ≠ 0) || y % 400 = 0

def dayFromYear (y : ℤ) : ℤ :=
  365 * (y - 1970) + (y - 1969) / 4 - (y - 1901) / 100 + (y - 1601) / 400

/-- The days of a year before the first of a month, counted from `0` for January. -/
def daysBeforeMonth (leap : Bool) (m : ℤ) : ℤ :=
  let february := if leap then 1 else 0
  match m with
  | 0 => 0
  | 1 => 31
  | 2 => 59 + february
  | 3 => 90 + february
  | 4 => 120 + february
  | 5 => 151 + february
  | 6 => 181 + february
  | 7 => 212 + february
  | 8 => 243 + february
  | 9 => 273 + february
  | 10 => 304 + february
  | _ => 334 + february

/-- The number of day `d` of month `m` of year `y`, with months from `0` and days from `1`. -/
def makeDay (y m d : ℤ) : ℤ :=
  let year := y + m / 12
  dayFromYear year + daysBeforeMonth (isLeapYear year) (m % 12) + d - 1

/-- A date of the calendar, with months from `0` and days from `1`. -/
structure CivilDate where
  year : ℤ
  month : ℤ
  day : ℤ
  deriving DecidableEq, Repr

/-- The date of a day. Years are counted from March, so that the leap day is the last of its year,
and grouped into eras of 400 years, which all have the same length. -/
def civilFromDays (n : ℤ) : CivilDate :=
  let z := n + 719468
  let era := z / 146097
  let dayOfEra := z % 146097
  let yearOfEra := (dayOfEra - dayOfEra / 1460 + dayOfEra / 36524 - dayOfEra / 146096) / 365
  let dayOfYear := dayOfEra - (365 * yearOfEra + yearOfEra / 4 - yearOfEra / 100)
  let fromMarch := (5 * dayOfYear + 2) / 153
  let month := if fromMarch < 10 then fromMarch + 2 else fromMarch - 10
  { year := yearOfEra + era * 400 + if month ≤ 1 then 1 else 0
    month
    day := dayOfYear - (153 * fromMarch + 2) / 5 + 1 }

/-- The decimal digits of a number, padded with zeros on the left. -/
def padded (width n : ℕ) : String :=
  let digits := toString n
  String.ofList (List.replicate (width - digits.length) '0') ++ digits

/-- The year of an ISO date: four digits, or a sign and six. -/
def isoYear (y : ℤ) : String :=
  if 0 ≤ y ∧ y ≤ 9999 then padded 4 y.toNat
  else (if y < 0 then "-" else "+") ++ padded 6 y.natAbs

/-- `date.toISOString().split('T')[0]`. -/
def isoDate (t : ℤ) : String :=
  let date := civilFromDays (day t)
  isoYear date.year ++ "-" ++ padded 2 (date.month + 1).toNat ++ "-" ++ padded 2 date.day.toNat

example : isoDate 1709164800000 = "2024-02-29" := by decide

end Calendar
