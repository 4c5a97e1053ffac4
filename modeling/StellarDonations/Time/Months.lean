import Mathlib.Data.Int.ConditionallyCompleteOrder
import Mathlib.Order.Monotone.Basic
import Mathlib.Tactic.NormNum
import Mathlib.Tactic.SplitIfs
import StellarDonations.Time.Calendar

/-!
# The months of the calendar

The first day of the month after a day's own comes after the day. The date of a day is computed
inside its era and its year from March, so the proof first places the day in both.
-/

namespace Calendar

/-! ## Years -/

theorem isLeapYear_iff (y : ℤ) :
    isLeapYear y = true ↔ (y % 4 = 0 ∧ y % 100 ≠ 0) ∨ y % 400 = 0 := by
  simp [isLeapYear]

theorem dayFromYear_succ (y : ℤ) :
    dayFromYear (y + 1) = dayFromYear y + (365 + if isLeapYear y then 1 else 0) := by
  have hleap := isLeapYear_iff y
  rw [dayFromYear, dayFromYear]
  by_cases h : isLeapYear y = true
  · rw [if_pos h]
    rw [hleap] at h
    omega
  · rw [if_neg h]
    rw [hleap] at h
    omega

def firstOfMarch (y : ℤ) : ℤ := 365 * y + y / 4 - y / 100 + y / 400 - 719468

theorem dayFromYear_march (y : ℤ) :
    dayFromYear y + (59 + if isLeapYear y then 1 else 0) = firstOfMarch y := by
  have hleap := isLeapYear_iff y
  rw [dayFromYear, firstOfMarch]
  by_cases h : isLeapYear y = true
  · rw [if_pos h]
    rw [hleap] at h
    omega
  · rw [if_neg h]
    rw [hleap] at h
    omega

theorem makeDay_fromMarch (y : ℤ) {m : ℤ} (h0 : 0 ≤ m) (h1 : m < 12) :
    makeDay (y + if m < 10 then 0 else 1) (if m < 10 then m + 2 else m - 10) 1 =
      firstOfMarch y + (153 * m + 2) / 5 := by
  have hmarch := dayFromYear_march y
  have hjanuary := dayFromYear_succ y
  have hmonths : m = 0 ∨ m = 1 ∨ m = 2 ∨ m = 3 ∨ m = 4 ∨ m = 5 ∨ m = 6 ∨ m = 7 ∨ m = 8 ∨ m = 9 ∨
      m = 10 ∨ m = 11 := by omega
  rcases hmonths with h | h | h | h | h | h | h | h | h | h | h | h <;> subst h <;>
    norm_num [makeDay, daysBeforeMonth] <;> omega

/-! ## The years of an era -/

section Era

variable {dayOfEra yearOfEra : ℤ} (h0 : 0 ≤ dayOfEra) (h1 : dayOfEra < 146097)
  (hyear : yearOfEra = (dayOfEra - dayOfEra / 1460 + dayOfEra / 36524 - dayOfEra / 146096) / 365)

include h0 h1 hyear

theorem century_yearOfEra : yearOfEra / 100 = dayOfEra / 36524 - dayOfEra / 146096 ∧
    0 ≤ yearOfEra ∧ yearOfEra ≤ 399 := by
  have hcentury : dayOfEra / 36524 = 0 ∨ dayOfEra / 36524 = 1 ∨ dayOfEra / 36524 = 2 ∨
      dayOfEra / 36524 = 3 ∨ dayOfEra / 36524 = 4 := by omega
  rcases hcentury with h | h | h | h | h <;> rw [h] at hyear ⊢ <;> omega

theorem yearStart_le : 365 * yearOfEra + yearOfEra / 4 - yearOfEra / 100 ≤ dayOfEra := by
  obtain ⟨hcentury, -, -⟩ := century_yearOfEra h0 h1 hyear
  have hfour : yearOfEra / 4 ≤ dayOfEra / 1460 := by omega
  omega

theorem lt_nextYearStart : dayOfEra < 365 * (yearOfEra + 1) + (yearOfEra + 1) / 4 -
    (yearOfEra + 1) / 100 + (yearOfEra + 1) / 400 := by
  obtain ⟨hcentury, hlo, hhi⟩ := century_yearOfEra h0 h1 hyear
  have hfour : dayOfEra / 1460 ≤ (yearOfEra + 1) / 4 := by omega
  by_cases hlast : (yearOfEra + 1) % 100 = 0
  · have hyears : yearOfEra = 99 ∨ yearOfEra = 199 ∨ yearOfEra = 299 ∨ yearOfEra = 399 := by omega
    rcases hyears with rfl | rfl | rfl | rfl <;> omega
  · have hsame : (yearOfEra + 1) / 100 = yearOfEra / 100 := by omega
    have hera : (yearOfEra + 1) / 400 = 0 := by omega
    omega

end Era

/-! ## Months -/

theorem firstOfMarch_add_era (y era : ℤ) :
    firstOfMarch (y + era * 400) = firstOfMarch y + 146097 * era := by
  rw [firstOfMarch, firstOfMarch]
  omega

/-- A day by the March before it: the days that have passed since, and where they put the date. -/
structure FromMarch (n y dayOfYear m : ℤ) : Prop where
  eq : n = firstOfMarch y + dayOfYear
  nonneg : 0 ≤ dayOfYear
  lt : n < firstOfMarch (y + 1)
  month_eq : (5 * dayOfYear + 2) / 153 = m
  date : civilFromDays n = ⟨y + if m < 10 then 0 else 1, if m < 10 then m + 2 else m - 10,
    dayOfYear - (153 * m + 2) / 5 + 1⟩

theorem exists_fromMarch (n : ℤ) : ∃ y dayOfYear m, FromMarch n y dayOfYear m := by
  obtain ⟨z, hz⟩ : ∃ z, n + 719468 = z := ⟨_, rfl⟩
  obtain ⟨era, hera⟩ : ∃ era, z / 146097 = era := ⟨_, rfl⟩
  obtain ⟨doe, hdoe⟩ : ∃ doe, z % 146097 = doe := ⟨_, rfl⟩
  obtain ⟨yoe, hyoe⟩ : ∃ yoe, yoe = (doe - doe / 1460 + doe / 36524 - doe / 146096) / 365 :=
    ⟨_, rfl⟩
  obtain ⟨doy, hdoy⟩ : ∃ doy, doe - (365 * yoe + yoe / 4 - yoe / 100) = doy := ⟨_, rfl⟩
  obtain ⟨m, hm⟩ : ∃ m, (5 * doy + 2) / 153 = m := ⟨_, rfl⟩
  have h0 : 0 ≤ doe := by omega
  have h1 : doe < 146097 := by omega
  have hstart := yearStart_le h0 h1 hyoe
  have hend := lt_nextYearStart h0 h1 hyoe
  obtain ⟨-, hlo, hhi⟩ := century_yearOfEra h0 h1 hyoe
  have hn : n = firstOfMarch (yoe + era * 400) + doy := by
    rw [firstOfMarch_add_era, firstOfMarch]
    omega
  refine ⟨yoe + era * 400, doy, m, hn, by omega, ?_, hm, ?_⟩
  · rw [add_right_comm, firstOfMarch_add_era, firstOfMarch]
    omega
  · -- January and February belong to the year before, counted from March
    have hmonth : (if m < 10 then m + 2 else m - 10) ≤ 1 ↔ ¬m < 10 := by
      have hm0 : 0 ≤ m := by omega
      have hm11 : m ≤ 11 := by omega
      clear hn hend hstart hm hdoy
      by_cases h : m < 10
      · rw [if_pos h]
        omega
      · rw [if_neg h]
        omega
    simp only [civilFromDays, hz, hdoe, hera, ← hyoe, hdoy, hm, hmonth, ite_not]

theorem FromMarch.month_mem {n y dayOfYear m : ℤ} (h : FromMarch n y dayOfYear m) :
    0 ≤ m ∧ m ≤ 11 := by
  have heq := h.eq
  have hlt := h.lt
  have hnonneg := h.nonneg
  have hmonth := h.month_eq
  rw [firstOfMarch] at heq hlt
  omega

theorem makeDay_eq_add (y m d : ℤ) : makeDay y m d = makeDay y m 1 + (d - 1) := by
  rw [makeDay, makeDay]
  omega

/-- The date of a day is a date of that day. -/
theorem makeDay_civilFromDays (n : ℤ) :
    makeDay (civilFromDays n).year (civilFromDays n).month (civilFromDays n).day = n := by
  obtain ⟨y, doy, m, h⟩ := exists_fromMarch n
  obtain ⟨hm0, hm11⟩ := h.month_mem
  have hfirst := makeDay_fromMarch y hm0 (by omega)
  have heq := h.eq
  rw [makeDay_eq_add, h.date, hfirst]
  change _ + (doy - (153 * m + 2) / 5 + 1 - 1) = n
  omega

theorem makeDay_civilFromDays_add (n k : ℤ) :
    makeDay (civilFromDays n).year (civilFromDays n).month ((civilFromDays n).day + k) = n + k := by
  have h := makeDay_civilFromDays n
  rw [makeDay_eq_add] at h ⊢
  omega

def InYear (y n : ℤ) : Prop := dayFromYear y ≤ n ∧ n < dayFromYear (y + 1)

instance (y n : ℤ) : Decidable (InYear y n) := inferInstanceAs (Decidable (_ ∧ _))

theorem inYear_civilFromDays (n : ℤ) : InYear (civilFromDays n).year n := by
  obtain ⟨y, doy, m, h⟩ := exists_fromMarch n
  have hjanuary : dayFromYear (y + 1) = firstOfMarch y + 306 := by
    rw [dayFromYear, firstOfMarch]
    omega
  have heq := h.eq
  have hnonneg := h.nonneg
  have hlt := h.lt
  have hmonth := h.month_eq
  rw [h.date]
  by_cases h10 : m < 10
  · have hmarch := dayFromYear_march y
    simp only [InYear, if_pos h10, add_zero]
    split_ifs at hmarch <;> omega
  · have hmarch := dayFromYear_march (y + 1)
    have hnext := dayFromYear_march (y + 2)
    have hyear : dayFromYear (y + 2) = firstOfMarch (y + 1) + 306 := by
      rw [dayFromYear, firstOfMarch]
      omega
    simp only [InYear, if_neg h10, add_assoc, one_add_one_eq_two]
    omega

theorem dayFromYear_strictMono : StrictMono dayFromYear := by
  intro y y' h
  rw [dayFromYear, dayFromYear]
  omega

theorem InYear.unique {y y' n : ℤ} (h : InYear y n) (h' : InYear y' n) : y = y' := by
  have hlt := dayFromYear_strictMono.lt_iff_lt.mp (h.1.trans_lt h'.2)
  have hlt' := dayFromYear_strictMono.lt_iff_lt.mp (h'.1.trans_lt h.2)
  omega

end Calendar
