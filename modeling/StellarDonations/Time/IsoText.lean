import StellarDonations.Time.IsoInstants
import StellarDonations.Time.Weeks

/-!
# Writing a time

`toISOString` of any time. With a year of four digits it writes the instant of that time
(`exists_isoInstant`); with any other year the text begins with a sign, and comes before all the
texts that begin with a digit.
-/

namespace Timestamps

open Calendar FixedWidth

def toISOString (t : ℤ) : String :=
  let ms := timeWithinDay t
  isoDate t ++ ("T" ++ (padded 2 (ms / 3600000).toNat ++ (":" ++
    (padded 2 (ms / 60000 % 60).toNat ++
    (":" ++ (padded 2 (ms / 1000 % 60).toNat ++ ("." ++ (padded 3 (ms % 1000).toNat ++ "Z"))))))))

/-! ## The date of a day -/

theorem firstOfMarch_succ (y : ℤ) :
    firstOfMarch (y + 1) = firstOfMarch y + (365 + if isLeapYear (y + 1) then 1 else 0) := by
  have hmarch := dayFromYear_march y
  have hnext := dayFromYear_march (y + 1)
  have hyear := dayFromYear_succ y
  omega

theorem le_daysInMonth : ∀ (leap : Bool), ∀ m < 11,
    (153 * (m + 1) + 2) / 5 - (153 * m + 2) / 5 ≤
      daysInMonth leap ((if m < 10 then m + 2 else m - 10) + 1) := by
  decide

theorem civilFromDays_mem (n : ℤ) :
    (0 ≤ (civilFromDays n).month ∧ (civilFromDays n).month ≤ 11) ∧ 1 ≤ (civilFromDays n).day ∧
      (civilFromDays n).day ≤
        daysInMonth (isLeapYear (civilFromDays n).year) ((civilFromDays n).month + 1).toNat := by
  obtain ⟨y, doy, m, h⟩ := exists_fromMarch n
  obtain ⟨hm0, hm11⟩ := h.month_mem
  have heq := h.eq
  have hlt := h.lt
  have hmonth := h.month_eq
  have hyear := firstOfMarch_succ y
  rw [h.date]
  clear h
  obtain ⟨k, rfl⟩ := Int.eq_ofNat_of_zero_le hm0
  rcases hm11.lt_or_eq with hk | hk
  · have hk' : k < 11 := Int.ofNat_lt.mp hk
    have hlength := le_daysInMonth (isLeapYear (y + if (k : ℤ) < 10 then 0 else 1)) k hk'
    have hnat : ((if (k : ℤ) < 10 then (k : ℤ) + 2 else k - 10) + 1).toNat =
        (if k < 10 then k + 2 else k - 10) + 1 := by
      split_ifs <;> omega
    have hcast : (153 * (k : ℤ) + 2) / 5 = ((153 * k + 2) / 5 : ℕ) := by omega
    refine ⟨?_, ?_, ?_⟩
    · dsimp only
      split_ifs <;> omega
    · dsimp only
      omega
    · dsimp only
      rw [hnat, hcast]
      omega
  · -- February is the last month from March, and its length depends on the year
    obtain rfl : k = 11 := by omega
    refine ⟨by norm_num, ?_, ?_⟩
    · dsimp only
      omega
    · change doy - 337 + 1 ≤ ((if isLeapYear (y + 1) then 29 else 28 : ℕ) : ℤ)
      split_ifs at hyear ⊢ <;> omega

/-! ## Instants -/

theorem timeWithinDay_mem (t : ℤ) : 0 ≤ timeWithinDay t ∧ timeWithinDay t < 86400000 := by
  rw [timeWithinDay, msPerDay]
  omega

theorem exists_isoInstant {t : ℤ} (h0 : 0 ≤ (civilFromDays (day t)).year)
    (h1 : (civilFromDays (day t)).year ≤ 9999) :
    ∃ a : IsoInstant, a.getTime = t ∧ a.text = toISOString t := by
  obtain ⟨⟨hm0, hm11⟩, hd1, hd⟩ := civilFromDays_mem (day t)
  obtain ⟨ht0, ht1⟩ := timeWithinDay_mem t
  have hday := makeDay_civilFromDays (day t)
  have hsplit : day t * msPerDay + timeWithinDay t = t := Int.ediv_mul_add_emod t msPerDay
  obtain ⟨c, hc⟩ : ∃ c, civilFromDays (day t) = c := ⟨_, rfl⟩
  obtain ⟨ms, hms⟩ : ∃ ms, timeWithinDay t = ms := ⟨_, rfl⟩
  rw [hc] at h0 h1 hm0 hm11 hd1 hd hday
  rw [hms] at ht0 ht1 hsplit
  have hlast : daysInMonth (isLeapYear c.year) (c.month + 1).toNat ≤ 31 := by
    rw [daysInMonth]
    split_ifs <;> decide
  let civil : Civil :=
    { year := c.year.toNat
      month := (c.month + 1).toNat
      day := c.day.toNat
      hour := (ms / 3600000).toNat
      minute := (ms / 60000 % 60).toNat
      second := (ms / 1000 % 60).toNat
      year_lt := by omega
      month_mem := by omega
      day_mem := by omega
      hour_lt := by omega
      minute_lt := by omega
      second_lt := by omega }
  have hyear : (civil.year : ℤ) = c.year := Int.toNat_of_nonneg h0
  refine ⟨⟨civil, ⟨(ms % 1000).toNat, by omega⟩, ?_⟩, ?_, ?_⟩
  · rw [hyear]
    change c.day.toNat ≤ daysInMonth (isLeapYear c.year) (c.month + 1).toNat
    omega
  · have hnumber : civil.dayNumber = day t := by
      rw [Civil.dayNumber, hyear, ← hday]
      congr 1
      · change ((c.month + 1).toNat : ℤ) - 1 = c.month
        omega
      · exact Int.toNat_of_nonneg (by omega)
    have htime : (civil.timeOfDay (ms % 1000).toNat : ℤ) = ms := by
      change ((((ms / 3600000).toNat * 60 + (ms / 60000 % 60).toNat) * 60 +
        (ms / 1000 % 60).toNat) * 1000 + (ms % 1000).toNat : ℕ) = ms
      omega
    rw [IsoInstant.getTime, hnumber]
    exact (congrArg (day t * msPerDay + ·) htime).trans hsplit
  · have hiso : isoYear c.year = padded 4 c.year.toNat := if_pos ⟨h0, h1⟩
    rw [toISOString, isoDate, hc, hms, hiso]
    simp only [IsoInstant.text, Stamp.text, Stamp.textAfterYear, Civil.textAfterYear, Stamp.year,
      Stamp.civil, String.append_assoc]
    rfl

theorem Civil.inYear_dayNumber {c : Civil}
    (h : c.day ≤ daysInMonth (isLeapYear c.year) c.month) : InYear c.year c.dayNumber := by
  obtain ⟨h1, h12⟩ := c.month_mem
  have hfirst := c.day_mem.1
  have hlast := daysBeforeMonth_add_le_year (isLeapYear c.year) (c.month - 1) (by omega)
  have hzero := daysBeforeMonth_nonneg (isLeapYear c.year) (c.month - 1) (by omega)
  rw [Nat.sub_add_cancel h1] at hlast
  rw [InYear, dayFromYear_succ, c.dayNumber_eq]
  omega

/-! ## Other years -/

/-- A text that begins with a sign comes before all timestamps. -/
theorem sign_append_lt {c : Char} (hc : c < '0') (x : String) (s : Stamp) :
    String.ofList [c] ++ x < s.text := by
  have hdigit : ∀ n < 10, c < Nat.digitChar n := by
    intro n hn
    have hle : ∀ n < 10, '0' ≤ Nat.digitChar n := by decide
    exact lt_of_lt_of_le hc (hle n hn)
  have htext : s.text.toList = Nat.digitChar (s.year / 10 / 10 / 10 % 10) ::
      (digits 3 s.year ++ s.textAfterYear.toList) := by
    rw [Stamp.text, String.toList_append, toList_padded (by decide) s.civil.year_lt]
    rfl
  rw [String.lt_iff_toList_lt, htext, String.toList_append, String.toList_ofList]
  exact List.cons_lt_cons_iff.mpr (.inl (hdigit _ (Nat.mod_lt _ (by decide))))

theorem toISOString_lt {t : ℤ} (h : (civilFromDays (day t)).year < 0 ∨
    9999 < (civilFromDays (day t)).year) (s : Stamp) : toISOString t < s.text := by
  have hyear : ¬(0 ≤ (civilFromDays (day t)).year ∧ (civilFromDays (day t)).year ≤ 9999) := by
    omega
  rw [toISOString, isoDate, isoYear, if_neg hyear]
  simp only [String.append_assoc]
  split_ifs
  · exact sign_append_lt (by decide) _ s
  · exact sign_append_lt (by decide) _ s

end Timestamps
