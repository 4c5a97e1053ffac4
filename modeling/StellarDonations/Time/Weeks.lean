import StellarDonations.Time.Months

/-!
# Dates and weeks

`Date` with its bounds: a time of more than `maxTime` milliseconds from the start of 1970 is no
date, and `Date.UTC` takes the years from 0 to 99 for those of the twentieth century. The weeks of
ISO 8601 run from Monday to Sunday; a week belongs to the year of its Thursday and is numbered by
the Thursdays of that year.
-/

namespace Calendar

/-! ## Dates -/

/-- The last day of the range of `Date`. -/
def maxDay : ℤ := 100000000

def maxTime : ℤ := maxDay * msPerDay

def IsTime (t : ℤ) : Prop := -maxTime ≤ t ∧ t ≤ maxTime

instance (t : ℤ) : Decidable (IsTime t) := inferInstanceAs (Decidable (_ ∧ _))

/-- `new Date(t)`; there is none when the date is invalid. -/
def timeClip (t : ℤ) : Option ℤ := if IsTime t then some t else none

/-- The year that `Date.UTC` takes its argument for. -/
def fullYear (y : ℤ) : ℤ := if 0 ≤ y ∧ y ≤ 99 then 1900 + y else y

def dateUTC (year month date : ℤ) : Option ℤ :=
  timeClip (makeDay (fullYear year) month date * msPerDay)

def getUTCDay (t : ℤ) : ℤ := (day t + 4) % 7

def getUTCDate (t : ℤ) : ℤ := (civilFromDays (day t)).day

def getUTCFullYear (t : ℤ) : ℤ := (civilFromDays (day t)).year

def setUTCDate (t date : ℤ) : Option ℤ :=
  let civil := civilFromDays (day t)
  timeClip (makeDay civil.year civil.month date * msPerDay + timeWithinDay t)

@[simp] theorem day_mul_msPerDay (n : ℤ) : day (n * msPerDay) = n :=
  Int.mul_ediv_cancel n (by decide)

theorem timeClip_eq_some {t u : ℤ} : timeClip t = some u ↔ IsTime t ∧ u = t := by
  rw [timeClip]
  split_ifs with h
  · rw [Option.some_inj]
    exact ⟨fun hu ↦ ⟨h, hu.symm⟩, fun hu ↦ hu.2.symm⟩
  · exact iff_of_false (by simp) fun hu ↦ h hu.1

theorem isTime_mul {n : ℤ} : IsTime (n * msPerDay) ↔ -maxDay ≤ n ∧ n ≤ maxDay := by
  rw [IsTime, maxTime, msPerDay, maxDay]
  omega

theorem setUTCDate_add (n k : ℤ) :
    setUTCDate (n * msPerDay) (getUTCDate (n * msPerDay) + k) = timeClip ((n + k) * msPerDay) := by
  have hmidnight : timeWithinDay (n * msPerDay) = 0 := Int.mul_emod_left n msPerDay
  rw [setUTCDate, getUTCDate, hmidnight, add_zero, makeDay_civilFromDays_add, day_mul_msPerDay]

/-! ## Weeks -/

/-- The Monday of the week of a day. Day `0` was a Thursday. -/
def monday (n : ℤ) : ℤ := n - (n + 3) % 7

def thursday (n : ℤ) : ℤ := monday n + 3

def SameWeek (m n : ℤ) : Prop := monday m = monday n

/-- The number of the week of a day, and the year it belongs to. -/
structure IsIsoWeek (n year week : ℤ) : Prop where
  inYear : InYear year (thursday n)
  /-- The weeks of the year before it have their Thursdays in the year. -/
  week_eq : week = (thursday n - dayFromYear year) / 7 + 1

theorem monday_le (n : ℤ) : monday n ≤ n ∧ n ≤ monday n + 6 := by
  rw [monday]
  omega

theorem monday_mod (n : ℤ) : (monday n + 3) % 7 = 0 := by
  rw [monday]
  omega

theorem IsIsoWeek.year_eq {n year week : ℤ} (h : IsIsoWeek n year week) :
    year = (civilFromDays (thursday n)).year :=
  h.inYear.unique (inYear_civilFromDays _)

theorem IsIsoWeek.week_mem {n year week : ℤ} (h : IsIsoWeek n year week) :
    1 ≤ week ∧ week ≤ 53 := by
  have hweek := h.week_eq
  obtain ⟨hle, hlt⟩ := h.inYear
  have hlength := dayFromYear_succ year
  split_ifs at hlength <;> omega

/-- Days are in the same week when the week has the same year and the same number. -/
theorem IsIsoWeek.sameWeek_iff {m n year week year' week' : ℤ} (h : IsIsoWeek m year week)
    (h' : IsIsoWeek n year' week') : SameWeek m n ↔ year = year' ∧ week = week' := by
  constructor
  · intro hsame
    have hthursday : thursday m = thursday n := congrArg (· + 3) hsame
    have hyear : year = year' := h.inYear.unique (hthursday ▸ h'.inYear)
    refine ⟨hyear, ?_⟩
    rw [h.week_eq, h'.week_eq, hthursday, hyear]
  · rintro ⟨rfl, rfl⟩
    have hweek := h.week_eq.symm.trans h'.week_eq
    have hmod := monday_mod m
    have hmod' := monday_mod n
    rw [thursday, thursday] at hweek
    rw [SameWeek]
    omega

end Calendar
