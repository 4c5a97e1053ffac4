import Mathlib.Algebra.GroupWithZero.Nat
import StellarDonations.Text.FixedWidth

/-!
# Timestamps as texts

A column of timestamps holds texts of several formats: what `CURRENT_TIMESTAMP` gives, what
`toISOString` gives, and instants of the network, which have no milliseconds. Queries compare them
as texts. For the bounds of a year in the format of `toISOString` this finds the year of every
timestamp, but for two moments of the year (`within_iff`): the first day in the format of
`CURRENT_TIMESTAMP`, since a space comes before the letter `T`, and the last second in the format
without milliseconds, since a `Z` comes after the dot.
-/

namespace Timestamps

open Calendar FixedWidth

structure Civil where
  year : ℕ
  /-- From 1 on, as the texts have it. -/
  month : ℕ
  day : ℕ
  hour : ℕ
  minute : ℕ
  second : ℕ
  year_lt : year < 10000
  month_mem : 1 ≤ month ∧ month ≤ 12
  day_mem : 1 ≤ day ∧ day ≤ 31
  hour_lt : hour < 24
  minute_lt : minute < 60
  second_lt : second < 60
  deriving DecidableEq

instance neZeroThousand : NeZero 1000 := ⟨by decide⟩

namespace Civil

/-- Numbers that are a date and a time of day. -/
abbrev Valid (year month day hour minute second : ℕ) : Prop :=
  year < 10000 ∧ (1 ≤ month ∧ month ≤ 12) ∧ (1 ≤ day ∧ day ≤ 31) ∧ hour < 24 ∧ minute < 60 ∧
    second < 60

/-- The date and the time of day of these numbers. -/
def of (year month day hour minute second : ℕ) (h : Valid year month day hour minute second) :
    Civil :=
  ⟨year, month, day, hour, minute, second, h.1, h.2.1, h.2.2.1, h.2.2.2.1, h.2.2.2.2.1,
    h.2.2.2.2.2⟩

/-- The date and the time of day with what stands between and after them, but for the year. -/
def textAfterYear (c : Civil) (separator tail : String) : String :=
  "-" ++ (padded 2 c.month ++ ("-" ++ (padded 2 c.day ++ (separator ++ (padded 2 c.hour ++
    (":" ++ (padded 2 c.minute ++ (":" ++ (padded 2 c.second ++ tail)))))))))

end Civil

/-- A timestamp, by the format of its text. -/
inductive Stamp where
  /-- `YYYY-MM-DD HH:MM:SS`, from `CURRENT_TIMESTAMP`. -/
  | sqlite (c : Civil)
  /-- `YYYY-MM-DDTHH:MM:SS.mmmZ`, from `toISOString`. -/
  | iso (c : Civil) (millisecond : Fin 1000)
  /-- `YYYY-MM-DDTHH:MM:SSZ`, from the network. -/
  | network (c : Civil)
  deriving DecidableEq

namespace Stamp

def civil : Stamp → Civil
  | sqlite c | iso c _ | network c => c

def year (s : Stamp) : ℕ := s.civil.year

def textAfterYear : Stamp → String
  | sqlite c => c.textAfterYear " " ""
  | iso c millisecond => c.textAfterYear "T" ("." ++ (padded 3 millisecond ++ "Z"))
  | network c => c.textAfterYear "T" "Z"

def text (s : Stamp) : String := padded 4 s.year ++ s.textAfterYear

end Stamp

/-- `${year}-01-01T00:00:00.000Z`. -/
def startOfYear (year : ℕ) : String := toString year ++ "-01-01T00:00:00.000Z"

/-- `${year}-12-31T23:59:59.999Z`. -/
def endOfYear (year : ℕ) : String := toString year ++ "-12-31T23:59:59.999Z"

/-- The text lies between the bounds of the year. -/
def Within (year : ℕ) (text : String) : Prop := startOfYear year ≤ text ∧ text ≤ endOfYear year

instance decidableWithin (year : ℕ) : DecidablePred (Within year) :=
  fun text ↦ inferInstanceAs (Decidable (startOfYear year ≤ text ∧ text ≤ endOfYear year))

/-- The text lies outside the bounds of its own year. -/
def Stamp.Misread : Stamp → Prop
  | sqlite c => c.month = 1 ∧ c.day = 1
  | iso _ _ => False
  | network c => c.month = 12 ∧ c.day = 31 ∧ c.hour = 23 ∧ c.minute = 59 ∧ c.second = 59

instance decidableMisread : DecidablePred Stamp.Misread
  | .sqlite c => inferInstanceAs (Decidable (c.month = 1 ∧ c.day = 1))
  | .iso _ _ => inferInstanceAs (Decidable False)
  | .network c => inferInstanceAs (Decidable
      (c.month = 12 ∧ c.day = 31 ∧ c.hour = 23 ∧ c.minute = 59 ∧ c.second = 59))

/-! ## Comparing with the bounds -/

theorem padded_year {year : ℕ} (h₁ : 1000 ≤ year) (h₂ : year < 10000) :
    padded 4 year = toString year := by
  have hlength : (toString year).length = 4 := by
    have hle := (Nat.length_toDigits_le_iff (b := 10) (n := year) (by decide)
      (k := 4) (by decide)).mpr h₂
    have hlt := fun h ↦ (Nat.length_toDigits_le_iff (b := 10) (n := year) (by decide)
      (k := 3) (by decide)).mp h
    rw [Nat.toString_eq_ofList_toDigits, String.length_ofList]
    omega
  rw [padded, hlength]
  rfl

theorem date_le_iff {m m' d d' : ℕ} (hm : m < 100) (hm' : m' < 100) (hd : d < 100)
    (hd' : d' < 100) {x y : String} :
    "-" ++ (padded 2 m ++ ("-" ++ (padded 2 d ++ x))) ≤
        "-" ++ (padded 2 m' ++ ("-" ++ (padded 2 d' ++ y))) ↔
      m < m' ∨ m = m' ∧ (d < d' ∨ d = d' ∧ x ≤ y) := by
  rw [append_le_append_iff, padded_append_le_iff Nat.two_pos hm hm', append_le_append_iff,
    padded_append_le_iff Nat.two_pos hd hd']

theorem time_le_iff {h h' m m' s s' : ℕ} (hh : h < 100) (hh' : h' < 100) (hm : m < 100)
    (hm' : m' < 100) (hs : s < 100) (hs' : s' < 100) {x y : String} :
    padded 2 h ++ (":" ++ (padded 2 m ++ (":" ++ (padded 2 s ++ x)))) ≤
        padded 2 h' ++ (":" ++ (padded 2 m' ++ (":" ++ (padded 2 s' ++ y)))) ↔
      h < h' ∨ h = h' ∧ (m < m' ∨ m = m' ∧ (s < s' ∨ s = s' ∧ x ≤ y)) := by
  rw [padded_append_le_iff Nat.two_pos hh hh', append_le_append_iff,
    padded_append_le_iff Nat.two_pos hm hm', append_le_append_iff,
    padded_append_le_iff Nat.two_pos hs hs']

def firstMoment : Civil where
  year := 0
  month := 1
  day := 1
  hour := 0
  minute := 0
  second := 0
  year_lt := by decide
  month_mem := by decide
  day_mem := by decide
  hour_lt := by decide
  minute_lt := by decide
  second_lt := by decide

def lastSecond : Civil where
  year := 0
  month := 12
  day := 31
  hour := 23
  minute := 59
  second := 59
  year_lt := by decide
  month_mem := by decide
  day_mem := by decide
  hour_lt := by decide
  minute_lt := by decide
  second_lt := by decide

theorem startOfYear_eq {year : ℕ} (h₁ : 1000 ≤ year) (h₂ : year < 10000) :
    startOfYear year =
      padded 4 year ++ firstMoment.textAfterYear "T" ("." ++ (padded 3 0 ++ "Z")) := by
  rw [padded_year h₁ h₂]
  rfl

theorem endOfYear_eq {year : ℕ} (h₁ : 1000 ≤ year) (h₂ : year < 10000) :
    endOfYear year =
      padded 4 year ++ lastSecond.textAfterYear "T" ("." ++ (padded 3 999 ++ "Z")) := by
  rw [padded_year h₁ h₂]
  rfl

theorem Civil.fields_lt (c : Civil) :
    c.month < 100 ∧ c.day < 100 ∧ c.hour < 100 ∧ c.minute < 100 ∧ c.second < 100 := by
  have hmonth := c.month_mem
  have hday := c.day_mem
  have hhour := c.hour_lt
  have hminute := c.minute_lt
  have hsecond := c.second_lt
  omega

theorem textAfterYear_le_iff (c c' : Civil) {sep sep' x y : String} :
    c.textAfterYear sep x ≤ c'.textAfterYear sep' y ↔
      c.month < c'.month ∨ c.month = c'.month ∧ (c.day < c'.day ∨ c.day = c'.day ∧
        sep ++ (padded 2 c.hour ++ (":" ++ (padded 2 c.minute ++ (":" ++
            (padded 2 c.second ++ x))))) ≤
          sep' ++ (padded 2 c'.hour ++ (":" ++ (padded 2 c'.minute ++ (":" ++
            (padded 2 c'.second ++ y)))))) :=
  date_le_iff c.fields_lt.1 c'.fields_lt.1 c.fields_lt.2.1 c'.fields_lt.2.1

theorem textAfterYear_le_iff_of_eq (c c' : Civil) {sep x y : String} :
    c.textAfterYear sep x ≤ c'.textAfterYear sep y ↔
      c.month < c'.month ∨ c.month = c'.month ∧ (c.day < c'.day ∨ c.day = c'.day ∧
        (c.hour < c'.hour ∨ c.hour = c'.hour ∧ (c.minute < c'.minute ∨ c.minute = c'.minute ∧
          (c.second < c'.second ∨ c.second = c'.second ∧ x ≤ y)))) := by
  obtain ⟨-, -, hh, hm, hs⟩ := c.fields_lt
  obtain ⟨-, -, hh', hm', hs'⟩ := c'.fields_lt
  rw [textAfterYear_le_iff, append_le_append_iff, time_le_iff hh hh' hm hm' hs hs']

/-- The bounds of a year hold a timestamp of the year, unless it is misread. -/
theorem between_iff (s : Stamp) :
    firstMoment.textAfterYear "T" ("." ++ (padded 3 0 ++ "Z")) ≤ s.textAfterYear ∧
      s.textAfterYear ≤ lastSecond.textAfterYear "T" ("." ++ (padded 3 999 ++ "Z")) ↔
    ¬s.Misread := by
  have hmonth := s.civil.month_mem
  have hday := s.civil.day_mem
  have hhour := s.civil.hour_lt
  have hminute := s.civil.minute_lt
  have hsecond := s.civil.second_lt
  cases s with
  | sqlite c =>
    -- a space comes before `T`
    have hspace : ∀ x y : String, " " ++ x ≤ "T" ++ y := cons_le_of_lt (by decide)
    have hletter : ∀ x y : String, ¬"T" ++ x ≤ " " ++ y := not_cons_le_of_lt (by decide)
    simp only [Stamp.textAfterYear, textAfterYear_le_iff, hspace, hletter, Stamp.Misread,
      firstMoment, lastSecond, and_true, and_false, or_false]
    simp only [Stamp.civil] at hmonth hday
    omega
  | iso c millisecond =>
    have hlt := millisecond.isLt
    have hzero : "." ++ (padded 3 0 ++ "Z") ≤ "." ++ (padded 3 millisecond ++ "Z") := by
      rw [append_le_append_iff, padded_append_le_iff (by decide) (by decide) hlt]
      exact (Nat.eq_zero_or_pos millisecond).symm.imp_right fun h ↦ ⟨h.symm, le_rfl⟩
    have hlast : "." ++ (padded 3 millisecond ++ "Z") ≤ "." ++ (padded 3 999 ++ "Z") := by
      rw [append_le_append_iff, padded_append_le_iff (by decide) hlt (by decide)]
      exact (Nat.le_of_lt_succ hlt).lt_or_eq.imp_right fun h ↦ ⟨h, le_rfl⟩
    simp only [Stamp.textAfterYear, textAfterYear_le_iff_of_eq, hzero, hlast, Stamp.Misread,
      firstMoment, lastSecond, and_true, not_false_eq_true, iff_true]
    simp only [Stamp.civil] at hmonth hday hhour hminute hsecond
    omega
  | network c =>
    -- a dot comes before `Z`
    have hdot : ∀ x : String, "." ++ x ≤ "Z" ++ "" := fun x ↦ cons_le_of_lt (by decide) x ""
    have hletter : ∀ x : String, ¬"Z" ++ "" ≤ "." ++ x := fun x ↦ not_cons_le_of_lt (by decide) "" x
    rw [String.append_empty] at hdot hletter
    simp only [Stamp.textAfterYear, textAfterYear_le_iff_of_eq, hdot, hletter, Stamp.Misread,
      firstMoment, lastSecond, and_true, and_false, or_false]
    simp only [Stamp.civil] at hmonth hday hhour hminute hsecond
    omega

/-- **The bounds of a year hold exactly the timestamps of the year that are not misread.** -/
theorem within_iff {year : ℕ} (h₁ : 1000 ≤ year) (h₂ : year < 10000) (s : Stamp) :
    Within year s.text ↔ s.year = year ∧ ¬s.Misread := by
  have hyear : s.year < 10000 := s.civil.year_lt
  rw [Within, startOfYear_eq h₁ h₂, endOfYear_eq h₁ h₂, Stamp.text,
    padded_append_le_iff (by decide) h₂ hyear, padded_append_le_iff (by decide) hyear h₂,
    ← between_iff]
  constructor
  · rintro ⟨hlt | ⟨heq, hfirst⟩, hlast⟩
    · rcases hlast with hgt | ⟨heq, -⟩
      · exact absurd hgt hlt.not_gt
      · exact absurd heq hlt.ne'
    · rcases hlast with hlt | ⟨-, hlast⟩
      · exact absurd heq hlt.ne'
      · exact ⟨heq.symm, hfirst, hlast⟩
  · rintro ⟨heq, hfirst, hlast⟩
    exact ⟨.inr ⟨heq.symm, hfirst⟩, .inr ⟨heq, hlast⟩⟩

end Timestamps
