import StellarDonations.Errors
import StellarDonations.Text.FixedWidth
import StellarDonations.Text.JsNumber
import StellarDonations.Time.Weeks

/-!
# The key of a week

`StatsService.getWeekKey`, with the local time zone at UTC. The week it finds for a date is always
the one of its Thursday, and its days are right; the number is one too small in the years whose
fourth of January is a Sunday, since the day of the week is taken as `0` there, and nothing is right
about the years that `Date.UTC` takes for others. At both ends of the range of `Date` a date on the
way is invalid (`right_iff`).
-/

namespace StellarDonations.WeeklyStats

open Calendar

/-! ## The function -/

structure WeekKey where
  key : String
  week : ℤ
  year : ℤ
  weekStart : String
  weekEnd : String
  deriving DecidableEq

def padStart2 (n : ℤ) : String :=
  let digits := toString n
  String.ofList (List.replicate (2 - digits.length) '0') ++ digits

/-- `${year}-W${week}`. -/
def keyText (year week : ℤ) : String := toString year ++ ("-W" ++ padStart2 week)

/-- The week of a date; there is none when a date on the way is invalid, which makes all later ones
invalid. -/
def weekOf (date : ℤ) : Option WeekKey := do
  let civil := civilFromDays (day date)
  let d ← dateUTC civil.year civil.month civil.day
  let dayNum := if getUTCDay d = 0 then 7 else getUTCDay d
  let d ← setUTCDate d (getUTCDate d + (4 - dayNum))
  let yearStart ← dateUTC (getUTCFullYear d) 0 4
  let weekStart ← setUTCDate yearStart (getUTCDate yearStart + (-getUTCDay yearStart + 1))
  let diff := d - weekStart
  let week := diff / (7 * 24 * 60 * 60 * 1000) + 1
  let weekStartDate ← setUTCDate weekStart (getUTCDate weekStart + (week - 1) * 7)
  let weekEndDate ← setUTCDate weekStartDate (getUTCDate weekStartDate + 6)
  return {
    key := keyText (getUTCFullYear d) week
    week := week
    year := getUTCFullYear d
    weekStart := isoDate weekStartDate
    weekEnd := isoDate weekEndDate }

/-- `getWeekKey`: `toISOString` does not take an invalid date. -/
def getWeekKey (date : ℤ) : Except AppError WeekKey :=
  match weekOf date with
  | some key => .ok key
  | none => .error ⟨.rangeError, none, "Invalid time value"⟩

/-! ## By days -/

/-- The day that `Date.UTC` makes of the date of a day. -/
def utcDay (n : ℤ) : ℤ :=
  let civil := civilFromDays n
  makeDay (fullYear civil.year) civil.month civil.day

def weekYear (n : ℤ) : ℤ := (civilFromDays (thursday n)).year

def fourthOfJanuary (year : ℤ) : ℤ := dayFromYear (fullYear year) + 3

/-- `weekStart`. -/
def firstWeekStart (year : ℤ) : ℤ :=
  fourthOfJanuary year + (-((fourthOfJanuary year + 4) % 7) + 1)

/-- `week`. -/
def weekNumber (n : ℤ) : ℤ := (thursday n - firstWeekStart (weekYear n)) / 7 + 1

/-- A day of the range of `Date`. -/
def InRange (n : ℤ) : Prop := -maxDay ≤ n ∧ n ≤ maxDay

instance (n : ℤ) : Decidable (InRange n) := inferInstanceAs (Decidable (_ ∧ _))

def weekOfDay (n : ℤ) : WeekKey where
  key := keyText (weekYear n) (weekNumber n)
  week := weekNumber n
  year := weekYear n
  weekStart := isoDate (monday n * msPerDay)
  weekEnd := isoDate ((monday n + 6) * msPerDay)

theorem timeClip_mul_bind {α : Type} (n : ℤ) (f : ℤ → Option α) :
    (timeClip (n * msPerDay) >>= f) = if InRange n then f (n * msPerDay) else none := by
  have hiff : IsTime (n * msPerDay) ↔ InRange n := isTime_mul
  rw [timeClip]
  simp only [hiff]
  split_ifs <;> rfl

theorem getUTCDay_mul (n : ℤ) : getUTCDay (n * msPerDay) = (n + 4) % 7 := by
  rw [getUTCDay, day_mul_msPerDay]

theorem getUTCFullYear_mul (n : ℤ) : getUTCFullYear (n * msPerDay) = (civilFromDays n).year := by
  rw [getUTCFullYear, day_mul_msPerDay]

theorem makeDay_fourth (year : ℤ) : makeDay (fullYear year) 0 4 = fourthOfJanuary year := by
  simp only [makeDay, daysBeforeMonth, fourthOfJanuary]
  norm_num
  omega

theorem firstWeekStart_add (n : ℤ) :
    firstWeekStart (weekYear n) + (weekNumber n - 1) * 7 = monday n := by
  have hmod := monday_mod n
  have hstart : (firstWeekStart (weekYear n) + 3) % 7 = 0 := by
    rw [firstWeekStart]
    omega
  rw [weekNumber, thursday]
  omega

theorem weekOf_eq_some {date : ℤ} {key : WeekKey} : weekOf date = some key ↔
    InRange (utcDay (day date)) ∧ InRange (thursday (utcDay (day date))) ∧
      InRange (fourthOfJanuary (weekYear (utcDay (day date)))) ∧
      InRange (firstWeekStart (weekYear (utcDay (day date)))) ∧
      InRange (monday (utcDay (day date))) ∧ InRange (monday (utcDay (day date)) + 6) ∧
      weekOfDay (utcDay (day date)) = key := by
  obtain ⟨n, hn⟩ : ∃ n, utcDay (day date) = n := ⟨_, rfl⟩
  have hthursday : n + (4 - if (n + 4) % 7 = 0 then 7 else (n + 4) % 7) = thursday n := by
    rw [thursday, monday]
    split_ifs <;> omega
  have hweek : (thursday n * msPerDay - firstWeekStart (weekYear n) * msPerDay) /
      (7 * 24 * 60 * 60 * 1000) + 1 = weekNumber n := by
    rw [weekNumber, msPerDay]
    omega
  have hyear : (civilFromDays (thursday n)).year = weekYear n := rfl
  have hstart : fourthOfJanuary (weekYear n) + (-((fourthOfJanuary (weekYear n) + 4) % 7) + 1) =
      firstWeekStart (weekYear n) := rfl
  have hsteps : weekOf date = if InRange n then if InRange (thursday n) then
      if InRange (fourthOfJanuary (weekYear n)) then if InRange (firstWeekStart (weekYear n)) then
      if InRange (monday n) then if InRange (monday n + 6) then some (weekOfDay n)
      else none else none else none else none else none else none := by
    rw [utcDay] at hn
    simp only [weekOf, dateUTC, hn, timeClip_mul_bind, setUTCDate_add, getUTCDay_mul, hthursday,
      getUTCFullYear_mul, hyear, makeDay_fourth, hstart, hweek, firstWeekStart_add]
    rfl
  rw [hn, hsteps]
  split_ifs <;> simp_all

/-! ## The right week -/

/-- The key is that of the week of ISO 8601, and the days are its Monday and its Sunday. -/
def Right (date : ℤ) : Prop :=
  ∃ key, getWeekKey date = .ok key ∧ IsIsoWeek (day date) key.year key.week ∧
    ∃ first : ℤ, key.weekStart = isoDate (first * msPerDay) ∧
      key.weekEnd = isoDate ((first + 6) * msPerDay) ∧
      (first + 3) % 7 = 0 ∧ first ≤ day date ∧ day date ≤ first + 6

/-- `Date.UTC` takes the year for another one. -/
def IsShort (year : ℤ) : Prop := 0 ≤ year ∧ year ≤ 99

/-- Neither the year of the date nor that of its Thursday is one that `Date.UTC` takes for another,
the fourth of January is not a Sunday, and both it and the Sunday of the week are in the range. -/
structure Regular (date : ℤ) : Prop where
  year : ¬IsShort (civilFromDays (day date)).year
  weekYear : ¬IsShort (weekYear (day date))
  fourth : (dayFromYear (WeeklyStats.weekYear (day date)) + 3 + 4) % 7 ≠ 0
  first : -maxDay ≤ dayFromYear (WeeklyStats.weekYear (day date)) + 3
  last : monday (day date) + 6 ≤ maxDay

theorem getWeekKey_eq_ok {date : ℤ} {key : WeekKey} :
    getWeekKey date = .ok key ↔ weekOf date = some key := by
  unfold getWeekKey
  generalize weekOf date = week
  cases week <;> simp

theorem fullYear_of_not_isShort {y : ℤ} (h : ¬IsShort y) : fullYear y = y := by
  rw [IsShort] at h
  rw [fullYear, if_neg h]

theorem fullYear_of_isShort {y : ℤ} (h : IsShort y) : fullYear y = 1900 + y := by
  rw [IsShort] at h
  rw [fullYear, if_pos h]

theorem utcDay_of_not_isShort {n : ℤ} (h : ¬IsShort (civilFromDays n).year) : utcDay n = n := by
  rw [utcDay, fullYear_of_not_isShort h, makeDay_civilFromDays]

theorem daysBeforeMonth_nonneg (leap : Bool) (m : ℤ) : 0 ≤ daysBeforeMonth leap m := by
  cases leap <;> simp only [daysBeforeMonth] <;> split <;> decide

theorem dayFromYear_le_utcDay (n : ℤ) :
    dayFromYear (fullYear (civilFromDays n).year) ≤ utcDay n := by
  obtain ⟨y, doy, m, h⟩ := exists_fromMarch n
  obtain ⟨hm0, hm11⟩ := h.month_mem
  have hmonth : 0 ≤ (civilFromDays n).month ∧ (civilFromDays n).month < 12 := by
    rw [h.date]
    change 0 ≤ (if m < 10 then m + 2 else m - 10) ∧ (if m < 10 then m + 2 else m - 10) < 12
    split_ifs <;> omega
  have hday : 1 ≤ (civilFromDays n).day := by
    have hdays := h.month_eq
    rw [h.date]
    change 1 ≤ doy - (153 * m + 2) / 5 + 1
    omega
  have hzero : (civilFromDays n).month / 12 = 0 := by omega
  have hbefore := daysBeforeMonth_nonneg (isLeapYear (fullYear (civilFromDays n).year))
    ((civilFromDays n).month % 12)
  rw [utcDay, makeDay, hzero, add_zero]
  omega

theorem inYear_weekYear (n : ℤ) : InYear (weekYear n) (thursday n) := inYear_civilFromDays _

theorem weekYear_le (n : ℤ) : weekYear n ≤ (civilFromDays n).year + 1 := by
  have hyear := (inYear_civilFromDays n).2
  have hweek := (inYear_weekYear n).1
  have hmonday := monday_le n
  have hlt : dayFromYear (weekYear n) < dayFromYear ((civilFromDays n).year + 2) := by
    have hlength := dayFromYear_succ ((civilFromDays n).year + 1)
    rw [add_assoc, one_add_one_eq_two] at hlength
    rw [thursday] at hweek
    split_ifs at hlength <;> omega
  have h := dayFromYear_strictMono.lt_iff_lt.mp hlt
  omega

theorem dayFromYear_add_le {y k : ℤ} (hk : 0 ≤ k) :
    dayFromYear y + 365 * k ≤ dayFromYear (y + k) := by
  rw [dayFromYear, dayFromYear]
  omega

/-- A year that `Date.UTC` takes for another is not found. -/
theorem weekYear_utcDay_ne {n : ℤ} (h : IsShort (civilFromDays n).year) :
    weekYear (utcDay n) ≠ weekYear n := by
  intro heq
  have hday := dayFromYear_le_utcDay n
  have hweek := (inYear_weekYear (utcDay n)).2
  have hmonday := monday_le (utcDay n)
  have hle := dayFromYear_strictMono.monotone (Int.add_le_add_right (weekYear_le n) 1)
  have hfar := dayFromYear_add_le (y := (civilFromDays n).year + 1 + 1) (k := 1898) (by decide)
  rw [fullYear_of_isShort h] at hday
  rw [heq, thursday] at hweek
  have hcentury : (civilFromDays n).year + 1 + 1 + 1898 = 1900 + (civilFromDays n).year := by omega
  rw [hcentury] at hfar
  omega

theorem fourthOfJanuary_eq {year : ℤ} (h : ¬IsShort year) :
    fourthOfJanuary year = dayFromYear year + 3 := by
  rw [fourthOfJanuary, fullYear_of_not_isShort h]

/-- The number of the week is right when the fourth of January is found and is not a Sunday. -/
theorem weekNumber_eq_iff (n : ℤ) :
    weekNumber n = (thursday n - dayFromYear (weekYear n)) / 7 + 1 ↔
      ¬IsShort (weekYear n) ∧ (dayFromYear (weekYear n) + 3 + 4) % 7 ≠ 0 := by
  have hmod := monday_mod n
  have hyear := inYear_weekYear n
  rw [weekNumber, firstWeekStart]
  by_cases hshort : IsShort (weekYear n)
  · have hfar := dayFromYear_add_le (y := weekYear n + 1) (k := 1899) (by decide)
    have hcentury : weekYear n + 1 + 1899 = 1900 + weekYear n := by omega
    rw [hcentury] at hfar
    rw [fourthOfJanuary, fullYear_of_isShort hshort]
    rw [InYear] at hyear
    simp only [hshort, not_true, false_and, iff_false]
    omega
  · rw [fourthOfJanuary_eq hshort]
    rw [InYear] at hyear
    simp only [hshort, not_false_iff, true_and]
    rw [thursday] at hyear ⊢
    omega

theorem regular_of_right {date : ℤ} (h : Right date) : Regular date := by
  obtain ⟨key, hkey, hiso, -⟩ := h
  obtain ⟨-, -, hfourth, -, -, hlast, rfl⟩ := weekOf_eq_some.mp (getWeekKey_eq_ok.mp hkey)
  have hyear : weekYear (utcDay (day date)) = weekYear (day date) := hiso.year_eq
  have hshort : ¬IsShort (civilFromDays (day date)).year := fun h ↦ weekYear_utcDay_ne h hyear
  rw [utcDay_of_not_isShort hshort] at hfourth hlast hiso
  obtain ⟨hweekYear, hsunday⟩ := (weekNumber_eq_iff (day date)).mp hiso.week_eq
  rw [fourthOfJanuary_eq hweekYear] at hfourth
  exact ⟨hshort, hweekYear, hsunday, hfourth.1, hlast.2⟩

theorem le_of_fourth {year : ℤ} (h : -maxDay ≤ dayFromYear year + 3) :
    -maxDay + 10 ≤ dayFromYear year := by
  have hbefore : dayFromYear (-271821) = -maxDay - 109 := by decide
  have hyear : dayFromYear (-271820) = -maxDay + 256 := by decide
  have hlt : -271821 < year := by
    rw [← dayFromYear_strictMono.lt_iff_lt]
    omega
  have hle : dayFromYear (-271820) ≤ dayFromYear year :=
    dayFromYear_strictMono.monotone (Int.add_one_le_of_lt hlt)
  omega

theorem weekOf_of_regular {date : ℤ} (h : Regular date) :
    weekOf date = some (weekOfDay (day date)) := by
  have hmonday := monday_le (day date)
  have hfirst := le_of_fourth h.first
  have hlast := h.last
  have hsunday := h.fourth
  have hyear := inYear_weekYear (day date)
  rw [InYear, thursday] at hyear
  rw [weekOf_eq_some, utcDay_of_not_isShort h.year, firstWeekStart, fourthOfJanuary_eq h.weekYear,
    thursday]
  simp only [InRange]
  refine ⟨?_, ?_, ?_, ?_, ?_, ?_, trivial⟩ <;> omega

theorem isIsoWeek_of_regular {date : ℤ} (h : Regular date) :
    IsIsoWeek (day date) (weekYear (day date)) (weekNumber (day date)) :=
  ⟨inYear_weekYear _, (weekNumber_eq_iff _).mpr ⟨h.weekYear, h.fourth⟩⟩

theorem right_of_regular {date : ℤ} (h : Regular date) : Right date := by
  have hmonday := monday_le (day date)
  exact ⟨_, getWeekKey_eq_ok.mpr (weekOf_of_regular h), isIsoWeek_of_regular h, monday (day date),
    rfl, rfl, monday_mod _, hmonday.1, hmonday.2⟩

theorem right_iff {date : ℤ} : Right date ↔ Regular date := ⟨regular_of_right, right_of_regular⟩

/-! ## The text of the key -/

theorem padStart2_eq {week : ℤ} (h : 0 ≤ week) : padStart2 week = padded 2 week.toNat := by
  obtain ⟨n, rfl⟩ := Int.eq_ofNat_of_zero_le h
  rfl

theorem toList_padStart2 {week : ℤ} (h : 1 ≤ week ∧ week ≤ 53) :
    (padStart2 week).toList = FixedWidth.digits 2 week.toNat := by
  have hlt : week.toNat < 10 ^ 2 := by
    rw [Int.toNat_lt' (by decide)]
    exact h.2.trans_lt (by decide)
  rw [padStart2_eq (by omega), FixedWidth.toList_padded (by decide) hlt]

theorem padStart2_injective {week week' : ℤ} (h : 1 ≤ week ∧ week ≤ 53)
    (h' : 1 ≤ week' ∧ week' ≤ 53) (heq : padStart2 week = padStart2 week') : week = week' := by
  rw [padStart2_eq (by omega), padStart2_eq (by omega)] at heq
  have hlt : week.toNat < 10 ^ 2 := by
    rw [Int.toNat_lt' (by decide)]
    exact h.2.trans_lt (by decide)
  have hlt' : week'.toNat < 10 ^ 2 := by
    rw [Int.toNat_lt' (by decide)]
    exact h'.2.trans_lt (by decide)
  have hsame := FixedWidth.padded_injective (by decide) hlt hlt' heq
  omega

theorem keyText_eq_iff {year year' week week' : ℤ} (h : 1 ≤ week ∧ week ≤ 53)
    (h' : 1 ≤ week' ∧ week' ≤ 53) :
    keyText year week = keyText year' week' ↔ year = year' ∧ week = week' := by
  refine ⟨fun heq ↦ ?_, fun heq ↦ by rw [heq.1, heq.2]⟩
  have hlist := congrArg String.toList heq
  simp only [keyText, String.toList_append] at hlist
  have hlength : ("-W".toList ++ (padStart2 week).toList).length =
      ("-W".toList ++ (padStart2 week').toList).length := by
    rw [List.length_append, List.length_append, toList_padStart2 h, toList_padStart2 h',
      FixedWidth.length_digits, FixedWidth.length_digits]
  obtain ⟨hyear, hweek⟩ := List.append_inj' hlist hlength
  constructor
  · exact JsNumber.toString_injective (String.toList_injective hyear)
  · exact padStart2_injective h h' (String.toList_injective (List.append_cancel_left hweek))

/-! ## Two dates -/

def SameKey (a b : ℤ) : Prop :=
  (getWeekKey a).map WeekKey.key = (getWeekKey b).map WeekKey.key

/-- Two dates have the right weeks, and the same key exactly when they lie in the same week, just
when both are regular. -/
theorem weekKeys_iff (a b : ℤ) :
    Right a ∧ Right b ∧ (SameKey a b ↔ SameWeek (day a) (day b)) ↔ Regular a ∧ Regular b := by
  constructor
  · rintro ⟨ha, hb, -⟩
    exact ⟨regular_of_right ha, regular_of_right hb⟩
  · rintro ⟨ha, hb⟩
    have hiso := isIsoWeek_of_regular ha
    have hiso' := isIsoWeek_of_regular hb
    refine ⟨right_of_regular ha, right_of_regular hb, ?_⟩
    rw [SameKey, getWeekKey_eq_ok.mpr (weekOf_of_regular ha),
      getWeekKey_eq_ok.mpr (weekOf_of_regular hb), hiso.sameWeek_iff hiso',
      ← keyText_eq_iff hiso.week_mem hiso'.week_mem]
    exact ⟨fun h ↦ Except.ok.inj h, fun h ↦ congrArg Except.ok h⟩

/-- The first of January 2026 is put in a week `0`. -/
theorem week_of_newYear_2026 :
    getWeekKey 1767225600000 = .ok ⟨"2026-W00", 0, 2026, "2025-12-29", "2026-01-04"⟩ ∧
      ¬Right 1767225600000 := by
  have hkey : getWeekKey 1767225600000 =
      .ok ⟨"2026-W00", 0, 2026, "2025-12-29", "2026-01-04"⟩ := by decide
  refine ⟨hkey, ?_⟩
  rintro ⟨key, hkey', hiso, -⟩
  obtain rfl := Except.ok.inj (hkey.symm.trans hkey')
  exact absurd hiso.week_mem.1 (by decide)

end StellarDonations.WeeklyStats
