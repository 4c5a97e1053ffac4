import Mathlib.Order.Lattice
import StellarDonations.Time.Months
import StellarDonations.Time.Timestamps

/-!
# Instants in the format of `toISOString`

The instants whose year has four digits, by what their text shows. Two of them compare as texts
exactly as they compare as numbers of milliseconds (`text_le_iff_getTime_le`), so a column of such
texts may be ordered either way. Against what `CURRENT_TIMESTAMP` gives, only their dates count.
-/

namespace Timestamps

open Calendar FixedWidth

/-- The length of a month, counted from 1 for January. -/
def daysInMonth (leap : Bool) (month : ℕ) : ℕ :=
  if month = 2 then (if leap then 29 else 28)
  else if month = 4 ∨ month = 6 ∨ month = 9 ∨ month = 11 then 30
  else 31

@[ext]
structure IsoInstant where
  civil : Civil
  millisecond : Fin 1000
  day_le : civil.day ≤ daysInMonth (isLeapYear civil.year) civil.month
  deriving DecidableEq

namespace Civil

def dayNumber (c : Civil) : ℤ := makeDay c.year (c.month - 1) c.day

def timeOfDay (c : Civil) (millisecond : ℕ) : ℕ :=
  ((c.hour * 60 + c.minute) * 60 + c.second) * 1000 + millisecond

end Civil

namespace IsoInstant

/-- `date.toISOString()`. -/
def text (a : IsoInstant) : String := (Stamp.iso a.civil a.millisecond).text

def getTime (a : IsoInstant) : ℤ :=
  a.civil.dayNumber * msPerDay + a.civil.timeOfDay a.millisecond

end IsoInstant

/-! ## Dates -/

/-- The date comes before the other, by year, month and day. -/
def Civil.Before (c c' : Civil) : Prop :=
  c.year < c'.year ∨ c.year = c'.year ∧ (c.month < c'.month ∨ c.month = c'.month ∧ c.day < c'.day)

def Civil.SameDate (c c' : Civil) : Prop :=
  c.year = c'.year ∧ c.month = c'.month ∧ c.day = c'.day

theorem Civil.eq_of_sameDate {c c' : Civil} (hdate : c.SameDate c') (hhour : c.hour = c'.hour)
    (hminute : c.minute = c'.minute) (hsecond : c.second = c'.second) : c = c' := by
  obtain ⟨hyear, hmonth, hday⟩ := hdate
  cases c
  cases c'
  simp_all

theorem before_or_sameDate (c c' : Civil) : c.Before c' ∨ c.SameDate c' ∨ c'.Before c := by
  unfold Civil.Before Civil.SameDate
  omega

theorem dayFromYear_add_le {y y' : ℤ} (h : y < y') :
    dayFromYear y + (365 + if isLeapYear y then 1 else 0) ≤ dayFromYear y' := by
  rw [← dayFromYear_succ, dayFromYear, dayFromYear]
  omega

theorem daysBeforeMonth_add_le : ∀ (leap : Bool), ∀ m' < 12, ∀ m < m',
    daysBeforeMonth leap (m : ℕ) + daysInMonth leap (m + 1) ≤ daysBeforeMonth leap (m' : ℕ) := by
  decide

theorem daysBeforeMonth_add_le_year : ∀ (leap : Bool), ∀ m < 12,
    daysBeforeMonth leap (m : ℕ) + daysInMonth leap (m + 1) ≤ 365 + if leap then 1 else 0 := by
  decide

theorem daysBeforeMonth_nonneg : ∀ (leap : Bool), ∀ m < 12, 0 ≤ daysBeforeMonth leap (m : ℕ) := by
  decide

theorem Civil.dayNumber_eq (c : Civil) :
    c.dayNumber = dayFromYear c.year + daysBeforeMonth (isLeapYear c.year) (c.month - 1 : ℕ) +
      c.day - 1 := by
  obtain ⟨h1, h12⟩ := c.month_mem
  have hdiv : ((c.month : ℤ) - 1) / 12 = 0 := by omega
  have hmod : ((c.month : ℤ) - 1) % 12 = (c.month - 1 : ℕ) := by omega
  rw [dayNumber, makeDay, hdiv, hmod, add_zero]

theorem dayNumber_lt_of_before {c c' : Civil}
    (hday : c.day ≤ daysInMonth (isLeapYear c.year) c.month) (h : c.Before c') :
    c.dayNumber < c'.dayNumber := by
  obtain ⟨h1, h12⟩ := c.month_mem
  obtain ⟨h1', h12'⟩ := c'.month_mem
  have hfirst := c'.day_mem.1
  rw [c.dayNumber_eq, c'.dayNumber_eq]
  rcases h with hyear | ⟨hyear, hmonth | ⟨hmonth, hdate⟩⟩
  · have hnext := dayFromYear_add_le (Int.ofNat_lt.mpr hyear)
    have hlast := daysBeforeMonth_add_le_year (isLeapYear c.year) (c.month - 1) (by omega)
    have hzero := daysBeforeMonth_nonneg (isLeapYear c'.year) (c'.month - 1) (by omega)
    rw [Nat.sub_add_cancel h1] at hlast
    omega
  · have hlast := daysBeforeMonth_add_le (isLeapYear c.year) (c'.month - 1) (by omega)
      (c.month - 1) (by omega)
    rw [Nat.sub_add_cancel h1] at hlast
    rw [← hyear]
    omega
  · rw [← hyear, ← hmonth]
    omega

theorem dayNumber_eq_of_sameDate {c c' : Civil} (h : c.SameDate c') :
    c.dayNumber = c'.dayNumber := by
  obtain ⟨hyear, hmonth, hday⟩ := h
  rw [c.dayNumber_eq, c'.dayNumber_eq, hyear, hmonth, hday]

theorem Civil.timeOfDay_lt (c : Civil) (millisecond : Fin 1000) :
    c.timeOfDay millisecond < 86400000 := by
  have hhour := c.hour_lt
  have hminute := c.minute_lt
  have hsecond := c.second_lt
  have hlt := millisecond.isLt
  unfold timeOfDay
  omega

/-! ## Texts -/

namespace IsoInstant

variable (a b : IsoInstant)

theorem text_le_iff : a.text ≤ b.text ↔
    a.civil.Before b.civil ∨ a.civil.SameDate b.civil ∧
      a.civil.timeOfDay a.millisecond ≤ b.civil.timeOfDay b.millisecond := by
  have hhour := a.civil.hour_lt
  have hminute := a.civil.minute_lt
  have hsecond := a.civil.second_lt
  have hhour' := b.civil.hour_lt
  have hminute' := b.civil.minute_lt
  have hsecond' := b.civil.second_lt
  have hlt := a.millisecond.isLt
  have hlt' := b.millisecond.isLt
  have hmillisecond : "." ++ (padded 3 a.millisecond ++ "Z") ≤
      "." ++ (padded 3 b.millisecond ++ "Z") ↔ (a.millisecond : ℕ) ≤ b.millisecond := by
    rw [append_le_append_iff, padded_append_le_iff (by decide) hlt hlt', Nat.le_iff_lt_or_eq]
    simp
  rw [text, text, Stamp.text, Stamp.text,
    padded_append_le_iff (by decide) a.civil.year_lt b.civil.year_lt]
  simp only [Stamp.textAfterYear, textAfterYear_le_iff_of_eq, hmillisecond, Stamp.year, Stamp.civil,
    Civil.Before, Civil.SameDate, Civil.timeOfDay]
  omega

/-- **The texts compare like the instants.** -/
theorem text_le_iff_getTime_le : a.text ≤ b.text ↔ a.getTime ≤ b.getTime := by
  have ht := a.civil.timeOfDay_lt a.millisecond
  have ht' := b.civil.timeOfDay_lt b.millisecond
  rw [text_le_iff, getTime, getTime, msPerDay]
  rcases before_or_sameDate a.civil b.civil with h | h | h
  · have hlt := dayNumber_lt_of_before a.day_le h
    exact iff_of_true (.inl h) (by omega)
  · have heq := dayNumber_eq_of_sameDate h
    have hnot : ¬a.civil.Before b.civil := by
      unfold Civil.SameDate at h
      unfold Civil.Before
      omega
    rw [heq]
    simp only [hnot, h, false_or, true_and]
    omega
  · have hlt := dayNumber_lt_of_before b.day_le h
    refine iff_of_false ?_ (by omega)
    rintro (h' | ⟨h', -⟩)
    · unfold Civil.Before at h h'
      omega
    · unfold Civil.SameDate at h'
      unfold Civil.Before at h
      omega

/-- Different instants have different times. -/
theorem getTime_injective : Function.Injective getTime := by
  intro a b h
  have hab := (text_le_iff a b).mp ((text_le_iff_getTime_le a b).mpr h.le)
  have hba := (text_le_iff b a).mp ((text_le_iff_getTime_le b a).mpr h.ge)
  have hlt := a.millisecond.isLt
  have hlt' := b.millisecond.isLt
  have hsecond := a.civil.second_lt
  have hsecond' := b.civil.second_lt
  have hminute := a.civil.minute_lt
  have hminute' := b.civil.minute_lt
  unfold Civil.Before Civil.SameDate Civil.timeOfDay at hab hba
  have hseconds : (a.civil.hour * 60 + a.civil.minute) * 60 + a.civil.second =
      (b.civil.hour * 60 + b.civil.minute) * 60 + b.civil.second := by omega
  have hminutes : a.civil.hour * 60 + a.civil.minute = b.civil.hour * 60 + b.civil.minute := by
    omega
  have hhours : a.civil.hour = b.civil.hour := by omega
  have hcivil : a.civil = b.civil :=
    Civil.eq_of_sameDate (by unfold Civil.SameDate; omega) hhours (by omega) (by omega)
  exact IsoInstant.ext hcivil (Fin.ext (by omega))

instance : LinearOrder IsoInstant := LinearOrder.lift' getTime getTime_injective

theorem text_lt_iff {a b : IsoInstant} : a.text < b.text ↔ a < b := by
  rw [← not_le, text_le_iff_getTime_le, not_le]
  rfl

end IsoInstant

/-! ## Against the texts of `CURRENT_TIMESTAMP` -/

/-- What `CURRENT_TIMESTAMP` gives. -/
structure SqliteTime where
  civil : Civil
  day_le : civil.day ≤ daysInMonth (isLeapYear civil.year) civil.month
  deriving DecidableEq

/-- The date as a number, `YYYYMMDD`. -/
def Civil.date (c : Civil) : ℕ := c.year * 10000 + c.month * 100 + c.day

def SqliteTime.text (t : SqliteTime) : String := (Stamp.sqlite t.civil).text

theorem date_le_date_iff (c c' : Civil) : c.date ≤ c'.date ↔
    c.year < c'.year ∨ c.year = c'.year ∧
      (c.month < c'.month ∨ c.month = c'.month ∧ c.day ≤ c'.day) := by
  obtain ⟨hmonth, hday, -⟩ := c.fields_lt
  obtain ⟨hmonth', hday', -⟩ := c'.fields_lt
  unfold Civil.date
  omega

theorem date_lt_date_iff (c c' : Civil) : c.date < c'.date ↔
    c.year < c'.year ∨ c.year = c'.year ∧
      (c.month < c'.month ∨ c.month = c'.month ∧ c.day < c'.day) := by
  rw [← not_le, date_le_date_iff]
  omega

namespace SqliteTime

variable (t t' : SqliteTime) (a : IsoInstant)

theorem text_le_iso_iff : t.text ≤ a.text ↔ t.civil.date ≤ a.civil.date := by
  have hspace : ∀ x y : String, " " ++ x ≤ "T" ++ y := fun x y ↦ cons_le_of_lt (by decide) x y
  rw [text, IsoInstant.text, Stamp.text, Stamp.text,
    padded_append_le_iff (by decide) t.civil.year_lt a.civil.year_lt, date_le_date_iff]
  simp only [Stamp.textAfterYear, textAfterYear_le_iff, Stamp.year, Stamp.civil, hspace, and_true,
    Nat.le_iff_lt_or_eq]

theorem iso_le_text_iff : a.text ≤ t.text ↔ a.civil.date < t.civil.date := by
  have hspace : ∀ x y : String, ¬"T" ++ x ≤ " " ++ y := fun x y ↦ not_cons_le_of_lt (by decide) x y
  rw [text, IsoInstant.text, Stamp.text, Stamp.text,
    padded_append_le_iff (by decide) a.civil.year_lt t.civil.year_lt, date_lt_date_iff]
  simp only [Stamp.textAfterYear, textAfterYear_le_iff, Stamp.year, Stamp.civil, hspace, and_false,
    or_false]

/-- No text is in both formats. -/
theorem text_ne_iso : t.text ≠ a.text := by
  intro h
  have hle := (t.text_le_iso_iff a).mp h.le
  have hlt := (t.iso_le_text_iff a).mp h.ge
  omega

theorem text_lt_iso_iff : t.text < a.text ↔ t.civil.date ≤ a.civil.date := by
  rw [← t.text_le_iso_iff a]
  exact ⟨le_of_lt, fun h ↦ lt_of_le_of_ne h (t.text_ne_iso a)⟩

theorem iso_lt_text_iff : a.text < t.text ↔ a.civil.date < t.civil.date := by
  rw [← t.iso_le_text_iff a]
  exact ⟨le_of_lt, fun h ↦ lt_of_le_of_ne h (t.text_ne_iso a).symm⟩

theorem date_le_of_text_le (h : t.text ≤ t'.text) : t.civil.date ≤ t'.civil.date := by
  rw [text, text, Stamp.text, Stamp.text,
    padded_append_le_iff (by decide) t.civil.year_lt t'.civil.year_lt] at h
  simp only [Stamp.textAfterYear, textAfterYear_le_iff, Stamp.year, Stamp.civil] at h
  rw [date_le_date_iff]
  omega

end SqliteTime

end Timestamps
