import StellarDonations.Recurring.Schedule
import StellarDonations.Time.MonthStarts

/-!
# The next execution of a schedule

What `calculateNextExecutionDate` returns is a `Date`, and so invalid when a custom interval leads
past the range of dates. Any other occurrence is followed by one at the same time of day, on the day
its frequency asks for, and the days that follow are in the order of the days they follow
(`nextExecutionDate_correct`). For monthly schedules that order rests on the months being numbered
through: the result of a day lies in the month after its own.
-/

namespace StellarDonations.Recurring

open Calendar JsString Timestamps

/-- `calculateNextExecutionDate` with the date it constructs; `none` is an invalid one. -/
def nextExecutionDate (currentDate : ℤ) (frequency : String) (customIntervalDays : Option ℤ) :
    Except AppError (Option ℤ) :=
  (calculateNextExecutionDate currentDate frequency customIntervalDays).map timeClip

/-! ## What a frequency asks for -/

inductive Interval where
  | daily
  | weekly
  | monthly
  | custom (days : ℤ)
  deriving DecidableEq, Repr

inductive Names : String → Option ℤ → Interval → Prop where
  | daily {frequency days} (h : toLowerCase frequency = "daily") : Names frequency days .daily
  | weekly {frequency days} (h : toLowerCase frequency = "weekly") : Names frequency days .weekly
  | monthly {frequency days} (h : toLowerCase frequency = "monthly") : Names frequency days .monthly
  | custom {frequency days} (h : toLowerCase frequency = "custom") (hdays : 1 ≤ days) :
    Names frequency (some days) (.custom days)

/-- The month after that of a date, with its last day for a day it does not have. -/
def nextMonth (date : CivilDate) : CivilDate :=
  let year := if date.month = 11 then date.year + 1 else date.year
  let month := if date.month = 11 then 0 else date.month + 1
  let last := daysInMonth (isLeapYear year) (month + 1).toNat
  ⟨year, month, min date.day last⟩

/-- The day of the occurrence after one on day `n` is `n'`. -/
def Interval.Follows (n n' : ℤ) : Interval → Prop
  | .daily => n' = n + 1
  | .weekly => n' = n + 7
  | .monthly => civilFromDays n' = nextMonth (civilFromDays n)
  | .custom days => n' = n + days

/-- What follows a time is still a date. Only a custom interval can lead past the last one. -/
def Interval.Reaches (t : ℤ) : Interval → Prop
  | .custom days => IsTime (t + days * msPerDay)
  | _ => True

/-! ## The day the occurrence is on -/

def Interval.nextDay (n : ℤ) : Interval → ℤ
  | .daily => n + 1
  | .weekly => n + 7
  | .monthly => addMonth (civilFromDays n)
  | .custom days => n + days

theorem nextExecutionDate_eq {frequency : String} {customIntervalDays : Option ℤ}
    {interval : Interval} (h : Names frequency customIntervalDays interval) (t : ℤ) :
    nextExecutionDate t frequency customIntervalDays =
      .ok (timeClip (interval.nextDay (day t) * msPerDay + timeWithinDay t)) := by
  cases h with
  | daily h =>
    simp only [nextExecutionDate, calculateNextExecutionDate, h, makeDay_civilFromDays_add]
    rfl
  | weekly h =>
    simp only [nextExecutionDate, calculateNextExecutionDate, h, makeDay_civilFromDays_add]
    rfl
  | monthly h =>
    simp only [nextExecutionDate, calculateNextExecutionDate, h]
    rfl
  | custom h hdays =>
    simp only [nextExecutionDate, calculateNextExecutionDate, h, if_neg (not_lt.mpr hdays),
      makeDay_civilFromDays_add]
    rfl

theorem monthOf_succ (n : ℤ) :
    ((monthOf n + 1) / 12 =
      if (civilFromDays n).month = 11 then (civilFromDays n).year + 1 else (civilFromDays n).year) ∧
    (monthOf n + 1) % 12 =
      if (civilFromDays n).month = 11 then 0 else (civilFromDays n).month + 1 := by
  have hmonth := (civilFromDays_mem n).1
  rw [monthOf]
  split_ifs with h <;> omega

/-- Day `0` of a month is the last day of the month before it. -/
theorem lastDayOfMonth (k : ℤ) : (civilFromDays (monthStart (k + 1) - 1)).day = monthLength k := by
  have hlength := monthLength_mem k
  have hdate := civilFromDays_monthStart_add (k := k) (d := monthLength k) (by omega) le_rfl
  have hday : monthStart (k + 1) - 1 = monthStart k + (monthLength k - 1) := by
    rw [monthStart_succ]
    omega
  rw [hday, hdate]

theorem addMonth_eq (n : ℤ) : addMonth (civilFromDays n) = monthStart (monthOf n + 1) +
    (min (civilFromDays n).day (monthLength (monthOf n + 1)) - 1) := by
  obtain ⟨hyear, hmonth⟩ := monthOf_succ n
  have hmem := (civilFromDays_mem n).1
  have heleven : (civilFromDays n).month + 1 > 11 ↔ (civilFromDays n).month = 11 := by omega
  have hfirst : 12 * ((monthOf n + 1) / 12) + (monthOf n + 1) % 12 = monthOf n + 1 := by omega
  have hnext : 12 * ((monthOf n + 1) / 12) + ((monthOf n + 1) % 12 + 1) = monthOf n + 1 + 1 := by
    omega
  simp only [addMonth, heleven]
  rw [← hyear, ← hmonth, makeDay_eq, makeDay_eq, hfirst, hnext]
  have hlast := lastDayOfMonth (monthOf n + 1)
  rw [sub_eq_add_neg] at hlast
  rw [zero_sub, hlast]

theorem civilFromDays_addMonth (n : ℤ) :
    civilFromDays (addMonth (civilFromDays n)) = nextMonth (civilFromDays n) := by
  obtain ⟨hyear, hmonth⟩ := monthOf_succ n
  have hday := day_mem n
  have hlength := monthLength_mem (monthOf n + 1)
  rw [addMonth_eq, civilFromDays_monthStart_add (by omega) (min_le_right _ _), nextMonth]
  rw [← hyear, ← hmonth, monthLength]

theorem Interval.follows_nextDay (interval : Interval) (n : ℤ) :
    interval.Follows n (interval.nextDay n) := by
  cases interval with
  | daily => rfl
  | weekly => rfl
  | monthly => exact civilFromDays_addMonth n
  | custom days => rfl

theorem addMonth_mem (n : ℤ) : monthStart (monthOf n + 1) ≤ addMonth (civilFromDays n) ∧
    addMonth (civilFromDays n) < monthStart (monthOf n + 1 + 1) := by
  have hday := day_mem n
  have hlength := monthLength_mem (monthOf n + 1)
  rw [addMonth_eq, monthStart_succ (monthOf n + 1)]
  omega

theorem addMonth_mono {n n' : ℤ} (h : n ≤ n') :
    addMonth (civilFromDays n) ≤ addMonth (civilFromDays n') := by
  rcases (monthOf_mono h).lt_or_eq with hlt | heq
  · -- in a later month, the day that follows is in a later one too
    have hmem := addMonth_mem n
    have hmem' := addMonth_mem n'
    have hmonths : monthStart (monthOf n + 1 + 1) ≤ monthStart (monthOf n' + 1) :=
      monthStart_strictMono.monotone (by omega)
    omega
  · -- in one month, the day of the month decides, and clamping keeps its order
    have hn := eq_monthStart_add n
    have hn' := eq_monthStart_add n'
    rw [addMonth_eq, addMonth_eq, heq]
    rw [heq] at hn
    have hclamp : min (civilFromDays n).day (monthLength (monthOf n' + 1)) ≤
        min (civilFromDays n').day (monthLength (monthOf n' + 1)) := min_le_min_right _ (by omega)
    omega

theorem Interval.nextDay_mono (interval : Interval) : Monotone interval.nextDay := by
  intro n n' h
  cases interval with
  | daily => exact Int.add_le_add_right h 1
  | weekly => exact Int.add_le_add_right h 7
  | monthly => exact addMonth_mono h
  | custom days => exact Int.add_le_add_right h days

theorem Names.lt_nextDay {frequency : String} {customIntervalDays : Option ℤ}
    {interval : Interval} (h : Names frequency customIntervalDays interval) (n : ℤ) :
    n < interval.nextDay n := by
  cases h with
  | daily h => exact Int.lt_succ n
  | weekly h =>
    change n < n + 7
    omega
  | monthly h =>
    have hmem := (addMonth_mem n).1
    have hday := day_mem n
    have heq := eq_monthStart_add n
    have hsucc := monthStart_succ (monthOf n)
    change n < addMonth (civilFromDays n)
    omega
  | custom h hdays =>
    change n < n + _
    omega

/-! ## The time it is at -/

theorem timeWithinDay_add (n t : ℤ) :
    timeWithinDay (n * msPerDay + timeWithinDay t) = timeWithinDay t := by
  rw [timeWithinDay, timeWithinDay, msPerDay]
  omega

theorem day_add_timeWithinDay (n t : ℤ) : day (n * msPerDay + timeWithinDay t) = n := by
  rw [day, timeWithinDay, msPerDay]
  omega

theorem lt_of_day_lt {t u : ℤ} (h : day t < day u) : t < u := by
  rw [day, day, msPerDay] at h
  omega

theorem zero_le_day_of_le_year {n : ℤ} (h : 1970 ≤ (civilFromDays n).year) : 0 ≤ n := by
  have hyear := (inYear_civilFromDays n).1
  have hfirst : dayFromYear 1970 ≤ dayFromYear (civilFromDays n).year :=
    dayFromYear_strictMono.monotone h
  have hnum : dayFromYear 1970 = 0 := by decide
  omega

theorem day_lt_of_year_le {n : ℤ} (h : (civilFromDays n).year ≤ 9998) : n < 2932532 := by
  have hyear := (inYear_civilFromDays n).2
  have hlast : dayFromYear ((civilFromDays n).year + 1) ≤ dayFromYear 9999 :=
    dayFromYear_strictMono.monotone (by omega)
  have hnum : dayFromYear 9999 = 2932532 := by decide
  omega

/-- What follows is a date, unless a custom interval is too long. -/
theorem isTime_nextDay {t : ℤ} {frequency : String} {customIntervalDays : Option ℤ}
    {interval : Interval} (hnames : Names frequency customIntervalDays interval)
    (h0 : 1970 ≤ getUTCFullYear t) (h1 : getUTCFullYear t ≤ 9998)
    (hreaches : interval.Reaches t) :
    IsTime (interval.nextDay (day t) * msPerDay + timeWithinDay t) := by
  have hfirst := zero_le_day_of_le_year h0
  have hlast := day_lt_of_year_le h1
  have htime := timeWithinDay_mem t
  cases hnames with
  | daily h =>
    change IsTime ((day t + 1) * msPerDay + timeWithinDay t)
    rw [IsTime, maxTime, maxDay, msPerDay]
    omega
  | weekly h =>
    change IsTime ((day t + 7) * msPerDay + timeWithinDay t)
    rw [IsTime, maxTime, maxDay, msPerDay]
    omega
  | monthly h =>
    change IsTime (addMonth (civilFromDays (day t)) * msPerDay + timeWithinDay t)
    have hmem := addMonth_mem (day t)
    have hday := day_mem (day t)
    have heq := eq_monthStart_add (day t)
    have hsucc := monthStart_succ (monthOf (day t))
    have hsucc' := monthStart_succ (monthOf (day t) + 1)
    have hlength := monthLength_mem (monthOf (day t))
    have hlength' := monthLength_mem (monthOf (day t) + 1)
    rw [IsTime, maxTime, maxDay, msPerDay]
    omega
  | @custom days h hdays =>
    change IsTime ((day t + days) * msPerDay + timeWithinDay t)
    have hsum : (day t + days) * msPerDay + timeWithinDay t = t + days * msPerDay := by
      rw [day, timeWithinDay, msPerDay]
      omega
    rw [hsum]
    exact hreaches

/-! ## The next execution -/

/-- **The next execution date.** From the years 1970 to 9998 there is one for each frequency, unless
a custom interval leads past the last date there is: a later time, at the same time of day, on the
day the frequency asks for. Later days are followed by later days, or by the same one. -/
theorem nextExecutionDate_correct :
    (∀ (t : ℤ) (frequency : String) (customIntervalDays : Option ℤ) (interval : Interval),
      1970 ≤ getUTCFullYear t → getUTCFullYear t ≤ 9998 →
      Names frequency customIntervalDays interval → interval.Reaches t →
      ∃ next, nextExecutionDate t frequency customIntervalDays = .ok (some next) ∧ t < next ∧
        timeWithinDay next = timeWithinDay t ∧ interval.Follows (day t) (day next)) ∧
    ∀ (t t' next next' : ℤ) (frequency frequency' : String)
      (customIntervalDays customIntervalDays' : Option ℤ) (interval : Interval),
      Names frequency customIntervalDays interval → Names frequency' customIntervalDays' interval →
      nextExecutionDate t frequency customIntervalDays = .ok (some next) →
      nextExecutionDate t' frequency' customIntervalDays' = .ok (some next') →
      day t ≤ day t' → day next ≤ day next' := by
  constructor
  · intro t frequency customIntervalDays interval h0 h1 hnames hreaches
    have htime := isTime_nextDay hnames h0 h1 hreaches
    refine ⟨_, ?_, lt_of_day_lt ?_, timeWithinDay_add (interval.nextDay (day t)) t, ?_⟩
    · rw [nextExecutionDate_eq hnames, timeClip, if_pos htime]
    · rw [day_add_timeWithinDay]
      exact hnames.lt_nextDay (day t)
    · rw [day_add_timeWithinDay]
      exact interval.follows_nextDay (day t)
  · intro t t' next next' frequency frequency' customIntervalDays customIntervalDays' interval
      hnames hnames' hnext hnext' hday
    rw [nextExecutionDate_eq hnames, Except.ok.injEq, timeClip_eq_some] at hnext
    rw [nextExecutionDate_eq hnames', Except.ok.injEq, timeClip_eq_some] at hnext'
    rw [hnext.2, hnext'.2, day_add_timeWithinDay, day_add_timeWithinDay]
    exact interval.nextDay_mono hday

/-- A monthly schedule due at the end of January 2024 is due again on the leap day, before one that
was due on the first of February. -/
theorem nextExecutionDate_leapDay :
    (∃ next, nextExecutionDate 1706702400000 "monthly" none = .ok (some next) ∧
      1706702400000 < next ∧ timeWithinDay next = timeWithinDay 1706702400000 ∧
      civilFromDays (day next) = ⟨2024, 1, 29⟩) ∧ day 1709208000000 ≤ day 1709294400000 := by
  have hnames : Names "monthly" none .monthly := .monthly (by decide)
  have hnext : nextExecutionDate 1706702400000 "monthly" none = .ok (some 1709208000000) := by
    decide
  have hnext' : nextExecutionDate 1706788800000 "monthly" none = .ok (some 1709294400000) := by
    decide
  obtain ⟨hcorrect, hmono⟩ := nextExecutionDate_correct
  obtain ⟨next, h, hlt, htime, hfollows⟩ :=
    hcorrect 1706702400000 "monthly" none .monthly (by decide) (by decide) hnames trivial
  exact ⟨⟨next, h, hlt, htime, hfollows⟩,
    hmono _ _ _ _ _ _ _ _ _ hnames hnames hnext hnext' (by decide)⟩

/-- Two hundred million days after the start of 1970 there is no date. -/
theorem nextExecutionDate_invalid : ¬∀ (t : ℤ) (frequency : String)
    (customIntervalDays : Option ℤ) (interval : Interval),
    1970 ≤ getUTCFullYear t → getUTCFullYear t ≤ 9998 →
    Names frequency customIntervalDays interval →
    ∃ next, nextExecutionDate t frequency customIntervalDays = .ok (some next) := by
  intro h
  obtain ⟨next, hnext⟩ := h 0 "custom" (some 200000000) (.custom 200000000) (by decide)
    (by decide) (.custom (by decide) (by decide))
  rw [show nextExecutionDate 0 "custom" (some 200000000) = .ok none from by decide] at hnext
  cases hnext

end StellarDonations.Recurring
