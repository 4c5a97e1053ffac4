import StellarDonations.Time.IsoText

/-!
# Months on one line

The months of all years numbered through, so that month `m` of year `y` is number `12 * y + m`. The
first days of the months increase with that number, and a day lies in exactly one month
(`monthOf_eq`). What carries over in `makeDay` is then addition (`makeDay_eq`).
-/

namespace Calendar

open Timestamps

def monthStart (k : ℤ) : ℤ := dayFromYear (k / 12) + daysBeforeMonth (isLeapYear (k / 12)) (k % 12)

def monthLength (k : ℤ) : ℤ := daysInMonth (isLeapYear (k / 12)) (k % 12 + 1).toNat

def monthOf (n : ℤ) : ℤ := 12 * (civilFromDays n).year + (civilFromDays n).month

theorem makeDay_eq (y m d : ℤ) : makeDay y m d = monthStart (12 * y + m) + (d - 1) := by
  have hdiv : (12 * y + m) / 12 = y + m / 12 := by omega
  have hmod : (12 * y + m) % 12 = m % 12 := by omega
  rw [makeDay, monthStart, hdiv, hmod]
  omega

theorem daysBeforeMonth_succ : ∀ (leap : Bool), ∀ m < 11,
    daysBeforeMonth leap ((m : ℕ) + 1) =
      daysBeforeMonth leap (m : ℕ) + daysInMonth leap (m + 1) := by
  decide

theorem daysBeforeMonth_december (leap : Bool) :
    daysBeforeMonth leap 11 + daysInMonth leap 12 = 365 + if leap then 1 else 0 := by
  cases leap <;> decide

/-- A month begins where the one before it ends. -/
theorem monthStart_succ (k : ℤ) : monthStart (k + 1) = monthStart k + monthLength k := by
  obtain ⟨m, hm⟩ : ∃ m : ℕ, k % 12 = m := ⟨(k % 12).toNat, by omega⟩
  have hm' : (k % 12 + 1).toNat = m + 1 := by omega
  rw [monthStart, monthStart, monthLength, hm', hm]
  rcases Nat.lt_or_ge m 11 with hlt | hge
  · have hdiv : (k + 1) / 12 = k / 12 := by omega
    have hmod : (k + 1) % 12 = m + 1 := by omega
    rw [hdiv, hmod, daysBeforeMonth_succ _ m hlt, add_assoc]
  · obtain rfl : m = 11 := by omega
    have hdiv : (k + 1) / 12 = k / 12 + 1 := by omega
    have hmod : (k + 1) % 12 = 0 := by omega
    rw [hdiv, hmod, dayFromYear_succ, ← daysBeforeMonth_december]
    simp only [Nat.cast_ofNat, daysBeforeMonth, Nat.reduceAdd]
    omega

theorem monthLength_mem (k : ℤ) : 28 ≤ monthLength k ∧ monthLength k ≤ 31 := by
  rw [monthLength, daysInMonth]
  split_ifs <;> omega

theorem monthStart_strictMono : StrictMono monthStart := by
  refine strictMono_int_of_lt_succ fun k ↦ ?_
  have hlength := monthLength_mem k
  rw [monthStart_succ]
  omega

/-! ## The month of a day -/

theorem monthOf_div (n : ℤ) : monthOf n / 12 = (civilFromDays n).year := by
  have hmonth := (civilFromDays_mem n).1
  rw [monthOf]
  omega

theorem monthOf_mod (n : ℤ) : monthOf n % 12 = (civilFromDays n).month := by
  have hmonth := (civilFromDays_mem n).1
  rw [monthOf]
  omega

theorem eq_monthStart_add (n : ℤ) : n = monthStart (monthOf n) + ((civilFromDays n).day - 1) := by
  conv_lhs => rw [← makeDay_civilFromDays n, makeDay_eq]
  rfl

theorem day_mem (n : ℤ) :
    1 ≤ (civilFromDays n).day ∧ (civilFromDays n).day ≤ monthLength (monthOf n) := by
  rw [monthLength, monthOf_div, monthOf_mod]
  exact (civilFromDays_mem n).2

theorem monthOf_eq {k n : ℤ} (h : monthStart k ≤ n) (h' : n < monthStart (k + 1)) :
    monthOf n = k := by
  have hday := day_mem n
  have heq := eq_monthStart_add n
  have hsucc := monthStart_succ (monthOf n)
  have hlt : k < monthOf n + 1 := monthStart_strictMono.lt_iff_lt.mp (by omega)
  have hgt : monthOf n < k + 1 := monthStart_strictMono.lt_iff_lt.mp (by omega)
  omega

/-- The date of the `d`-th day of a month. -/
theorem civilFromDays_monthStart_add {k d : ℤ} (h1 : 1 ≤ d) (h2 : d ≤ monthLength k) :
    civilFromDays (monthStart k + (d - 1)) = ⟨k / 12, k % 12, d⟩ := by
  have hsucc := monthStart_succ k
  have hmonth : monthOf (monthStart k + (d - 1)) = k := monthOf_eq (by omega) (by omega)
  have hyear := monthOf_div (monthStart k + (d - 1))
  have hmod := monthOf_mod (monthStart k + (d - 1))
  have hday := eq_monthStart_add (monthStart k + (d - 1))
  rw [hmonth] at hyear hmod hday
  generalize civilFromDays (monthStart k + (d - 1)) = date at hyear hmod hday ⊢
  obtain ⟨y, m, d'⟩ := date
  dsimp only at hyear hmod hday
  rw [hyear, hmod, show d' = d from by omega]

theorem monthOf_mono : Monotone monthOf := by
  intro n n' h
  have heq := eq_monthStart_add n
  have heq' := eq_monthStart_add n'
  have hday := day_mem n
  have hday' := day_mem n'
  have hsucc := monthStart_succ (monthOf n')
  have hlt : monthOf n < monthOf n' + 1 := monthStart_strictMono.lt_iff_lt.mp (by omega)
  omega

end Calendar
