import StellarDonations.Errors
import StellarDonations.Time.IsoText
import StellarDonations.Webhooks.Subscriptions

/-!
# The retention of donations

`RetentionService.runDonationRetention` puts a digest in the place of the memos of old donations.
It compares timestamps as texts, and takes a memo for its own work by its first letters. So it
leaves a memo alone that a donor began with `anon:`, in any case, and it takes every donation of
the date of the cutoff that has a timestamp of `CURRENT_TIMESTAMP`. Otherwise a run does what it is
for, and a second one at the same time changes nothing (`retains_iff`).
-/

namespace StellarDonations.Retention

open Calendar Storage Timestamps

/-! ## The table -/

/-- A timestamp, as `CURRENT_TIMESTAMP` or `toISOString` gives it. -/
inductive Timestamp where
  | sqlite (t : SqliteTime)
  | iso (a : IsoInstant)

namespace Timestamp

def text : Timestamp → String
  | sqlite t => t.text
  | iso a => a.text

def getTime : Timestamp → ℤ
  | sqlite t => t.civil.dayNumber * msPerDay + t.civil.timeOfDay 0
  | iso a => a.getTime

end Timestamp

variable {ρ : Type} {sha256 : String → String}

/-- `anonymize`; the digest is in hexadecimal. -/
def anonymize (sha256 : String → String) (value : String) : String :=
  if value = "" then value else "anon:" ++ sha256 value

/-- A row of `transactions`, and whether its memo is the work of a run. -/
@[ext]
structure Donation (sha256 : String → String) (ρ : Type) where
  timestamp : Timestamp
  memo : Option String
  anonymized : Bool
  /-- The other columns. -/
  columns : ρ
  sound : anonymized = true → ∃ value ≠ "", memo = some (anonymize sha256 value)

/-- The row after `SET memo = anonymize(memo)`. -/
def Donation.anonymize (memo : String) (row : Donation sha256 ρ) : Donation sha256 ρ where
  timestamp := row.timestamp
  memo := some (Retention.anonymize sha256 memo)
  anonymized := memo ≠ ""
  columns := row.columns
  sound h := ⟨memo, of_decide_eq_true h, rfl⟩

/-! ## The run -/

/-- `memo LIKE 'anon:%'`. -/
def looksAnonymized (memo : String) : Bool := Webhooks.like "anon:%".toList memo.toList

/-- `cutoffDate`; there is none where the date is invalid and `toISOString` throws. -/
def cutoffDate (now : ℤ) (days : ℕ) : Option String :=
  (timeClip (now - days * msPerDay)).map toISOString

/-- The memo of a row that the `SELECT` finds. -/
def expired (cutoff : String) (row : Donation sha256 ρ) : Option String :=
  row.memo.filter fun memo ↦ row.timestamp.text < cutoff ∧ ¬looksAnonymized memo

/-- What a run returns, but for its duration. -/
structure Report where
  purged : ℕ
  remaining : ℕ

def runDonationRetention (dryRun : Bool) (now : ℤ) (days : ℕ) (t : Table (Donation sha256 ρ)) :
    Except AppError Report × Table (Donation sha256 ρ) :=
  if days = 0 then (.ok ⟨0, 0⟩, t)
  else
    match cutoffDate now days with
    | none => (.error ⟨.rangeError, none, "Invalid time value"⟩, t)
    | some cutoff =>
      let rows := t.rows.filterMap fun r ↦ (expired cutoff r.2).map fun memo ↦ (r.1, memo)
      let t' := if dryRun then t else
        rows.foldl (fun t row ↦ t.update (·.1 = row.1) (Donation.anonymize row.2)) t
      (.ok ⟨rows.length, t'.rows.countP fun r ↦ !r.2.memo.any looksAnonymized⟩, t')

def afterRun (now : ℤ) (days : ℕ) (t : Table (Donation sha256 ρ)) : Table (Donation sha256 ρ) :=
  (runDonationRetention false now days t).2

/-! ## What a run is for -/

/-- The memo that a donor has given, if any. -/
def Donation.ownMemo (row : Donation sha256 ρ) : Option String :=
  if row.anonymized then none else row.memo.filter (· ≠ "")

/-- The row with its memo anonymised when the donation is old and the memo is the donor's. -/
def retained (cutoff : ℤ) (row : Donation sha256 ρ) : Donation sha256 ρ :=
  match row.ownMemo with
  | some memo => if row.timestamp.getTime < cutoff then row.anonymize memo else row
  | none => row

/-- A run anonymises the memos of exactly the donations that are older than so many days and have a
memo of their own, and another run at the same time changes nothing. -/
def Retains (now : ℤ) (days : ℕ) (t : Table (Donation sha256 ρ)) : Prop :=
  (afterRun now days t).rows =
      t.rows.map (fun r ↦ (r.1, retained (now - days * msPerDay) r.2)) ∧
    (afterRun now days (afterRun now days t)).rows = (afterRun now days t).rows

/-- A timestamp that compares with the cutoff otherwise than its instant does: one in the format of
`CURRENT_TIMESTAMP` that is not older but has the same date, or any when the year of the cutoff has
more than four digits. -/
def Misread (cutoff : ℤ) : Timestamp → Prop
  | .sqlite t => 9999 < (civilFromDays (day cutoff)).year ∨
      t.civil.dayNumber = day cutoff ∧ cutoff ≤ (Timestamp.sqlite t).getTime
  | .iso _ => 9999 < (civilFromDays (day cutoff)).year

/-! ## Comparing with the cutoff -/

theorem getTime_eq (c : Civil) (millisecond : Fin 1000) :
    day (c.dayNumber * msPerDay + c.timeOfDay millisecond) = c.dayNumber := by
  have htime := c.timeOfDay_lt millisecond
  rw [day, msPerDay]
  omega

namespace Timestamp

def civil : Timestamp → Civil
  | sqlite t => t.civil
  | iso a => a.civil

theorem day_getTime (ts : Timestamp) : day ts.getTime = ts.civil.dayNumber := by
  cases ts with
  | sqlite t => exact getTime_eq t.civil 0
  | iso a => exact getTime_eq a.civil a.millisecond

theorem inYear_day_getTime (ts : Timestamp) : InYear ts.civil.year (day ts.getTime) := by
  rw [day_getTime]
  cases ts with
  | sqlite t => exact t.civil.inYear_dayNumber t.day_le
  | iso a => exact a.civil.inYear_dayNumber a.day_le

theorem exists_stamp (ts : Timestamp) : ∃ s : Stamp, ts.text = s.text := by
  cases ts with
  | sqlite t => exact ⟨.sqlite t.civil, rfl⟩
  | iso a => exact ⟨.iso a.civil a.millisecond, rfl⟩

theorem day_mono {t t' : ℤ} (h : t ≤ t') : day t ≤ day t' :=
  Int.ediv_le_ediv (by decide) h

/-- Texts of the format of `CURRENT_TIMESTAMP` are before a cutoff of their own date. -/
theorem sqlite_text_lt_iff (t : SqliteTime) (a : IsoInstant) :
    t.text < a.text ↔ t.civil.dayNumber ≤ a.civil.dayNumber := by
  rw [t.text_lt_iso_iff, date_le_date_iff]
  rcases before_or_sameDate t.civil a.civil with h | h | h
  · have hlt := dayNumber_lt_of_before t.day_le h
    unfold Civil.Before at h
    omega
  · have heq := dayNumber_eq_of_sameDate h
    unfold Civil.SameDate at h
    omega
  · have hlt := dayNumber_lt_of_before a.day_le h
    unfold Civil.Before at h
    omega

/-- The texts compare as the instants do, but for what is misread. -/
theorem text_lt_iff (ts : Timestamp) (cutoff : ℤ) :
    (ts.text < toISOString cutoff ↔ ts.getTime < cutoff) ↔ ¬Misread cutoff ts := by
  obtain ⟨s, hs⟩ := ts.exists_stamp
  have hyear := inYear_civilFromDays (day cutoff)
  have hinYear := ts.inYear_day_getTime
  have hlimit := ts.civil.year_lt
  by_cases hneg : (civilFromDays (day cutoff)).year < 0
  · have htext : ¬ts.text < toISOString cutoff := by
      rw [hs]
      exact lt_asymm (toISOString_lt (.inl hneg) s)
    have hlt : day cutoff < day ts.getTime := by
      have hmono := dayFromYear_strictMono.monotone
        (show (civilFromDays (day cutoff)).year + 1 ≤ ts.civil.year by omega)
      exact (hyear.2.trans_le hmono).trans_le hinYear.1
    have hold : ¬ts.getTime < cutoff := fun h ↦ absurd (day_mono h.le) (not_le.mpr hlt)
    have hsmall : ¬9999 < (civilFromDays (day cutoff)).year := by omega
    have hread : ¬Misread cutoff ts := by
      cases ts with
      | iso a => exact hsmall
      | sqlite t =>
        rintro (h | ⟨h, -⟩)
        · exact hsmall h
        · rw [day_getTime] at hlt
          exact absurd h hlt.ne'
    exact iff_of_true (iff_of_false htext hold) hread
  · by_cases hlarge : 9999 < (civilFromDays (day cutoff)).year
    · have htext : ¬ts.text < toISOString cutoff := by
        rw [hs]
        exact lt_asymm (toISOString_lt (.inr hlarge) s)
      have hlt : day ts.getTime < day cutoff := by
        have hmono := dayFromYear_strictMono.monotone
          (show (ts.civil.year : ℤ) + 1 ≤ (civilFromDays (day cutoff)).year by omega)
        exact (hinYear.2.trans_le hmono).trans_le hyear.1
      have hold : ts.getTime < cutoff := by
        rw [← not_le]
        exact fun h ↦ absurd (day_mono h) (not_le.mpr hlt)
      have hmisread : Misread cutoff ts := by
        cases ts with
        | iso a => exact hlarge
        | sqlite t => exact .inl hlarge
      exact iff_of_false (fun h ↦ htext (h.mpr hold)) (not_not_intro hmisread)
    · obtain ⟨a, rfl, htext⟩ := exists_isoInstant (not_lt.mp hneg) (not_lt.mp hlarge)
      have hday : day a.getTime = a.civil.dayNumber := getTime_eq a.civil a.millisecond
      rw [← htext]
      cases ts with
      | iso b =>
        refine iff_of_true ?_ hlarge
        exact IsoInstant.text_lt_iff
      | sqlite t =>
        have hsame : day (Timestamp.sqlite t).getTime = t.civil.dayNumber := day_getTime _
        have hmisread : Misread a.getTime (.sqlite t) ↔
            t.civil.dayNumber = a.civil.dayNumber ∧ a.getTime ≤ (Timestamp.sqlite t).getTime := by
          rw [← hday]
          exact or_iff_right hlarge
        rw [hmisread, Timestamp.text, sqlite_text_lt_iff, ← hday, ← hsame]
        rw [day, day, msPerDay]
        omega

end Timestamp

/-! ## The rows -/

theorem looksAnonymized_anonymize {value : String} (h : value ≠ "") :
    looksAnonymized (anonymize sha256 value) = true := by
  have hbegins : Webhooks.Begins "anon:".toList (anonymize sha256 value).toList := by
    rw [anonymize, if_neg h, String.toList_append]
    exact ⟨_, List.prefix_append _ _, Webhooks.matches_self _⟩
  exact (Webhooks.like_append_wildcard (by decide) _).mpr hbegins

def afterLoop (cutoff : String) (row : Donation sha256 ρ) : Donation sha256 ρ :=
  match expired cutoff row with
  | some memo => row.anonymize memo
  | none => row

theorem expired_eq_some {cutoff memo : String} {row : Donation sha256 ρ} :
    expired cutoff row = some memo ↔ row.memo = some memo ∧ row.timestamp.text < cutoff ∧
      looksAnonymized memo = false := by
  rw [expired, Option.filter_eq_some_iff, Bool.decide_and, Bool.and_eq_true]
  simp

theorem anonymized_of_memo {row : Donation sha256 ρ} (h : row.anonymized = true) :
    ∃ memo, row.memo = some memo ∧ looksAnonymized memo = true := by
  obtain ⟨value, hvalue, hmemo⟩ := row.sound h
  exact ⟨_, hmemo, looksAnonymized_anonymize hvalue⟩

theorem anonymize_empty {row : Donation sha256 ρ} (hmemo : row.memo = some "")
    (hanonymized : row.anonymized = false) : row.anonymize "" = row := by
  refine Donation.ext rfl ?_ ?_ rfl
  · rw [hmemo]
    rfl
  · rw [hanonymized]
    rfl

theorem ownMemo_eq_some {memo : String} {row : Donation sha256 ρ} :
    row.ownMemo = some memo ↔ row.anonymized = false ∧ row.memo = some memo ∧ memo ≠ "" := by
  rw [Donation.ownMemo]
  cases row.anonymized with
  | true => simp
  | false => simp [Option.filter_eq_some_iff]

theorem afterLoop_of_ownMemo_eq_none {cutoff : String} {row : Donation sha256 ρ}
    (h : row.ownMemo = none) : afterLoop cutoff row = row := by
  rw [afterLoop]
  cases hexpired : expired cutoff row with
  | none => rfl
  | some memo =>
    obtain ⟨hmemo, -, hlooks⟩ := expired_eq_some.mp hexpired
    have hfalse : row.anonymized = false := by
      refine Bool.eq_false_of_not_eq_true fun hanonymized ↦ ?_
      obtain ⟨memo', hmemo', hlooks'⟩ := anonymized_of_memo hanonymized
      rw [Option.some.inj (hmemo'.symm.trans hmemo), hlooks] at hlooks'
      cases hlooks'
    by_cases hempty : memo = ""
    · subst hempty
      exact anonymize_empty hmemo hfalse
    · have hown := ownMemo_eq_some.mpr ⟨hfalse, hmemo, hempty⟩
      rw [h] at hown
      cases hown

theorem afterLoop_afterLoop (cutoff : String) (row : Donation sha256 ρ) :
    afterLoop cutoff (afterLoop cutoff row) = afterLoop cutoff row := by
  cases hexpired : expired cutoff row with
  | none =>
    have hsame : afterLoop cutoff row = row := by rw [afterLoop, hexpired]
    rw [hsame, hsame]
  | some memo =>
    have hafter : afterLoop cutoff row = row.anonymize memo := by rw [afterLoop, hexpired]
    by_cases hempty : memo = ""
    · have hnone : row.ownMemo = none := by
        rw [Option.eq_none_iff_forall_ne_some]
        intro memo' hown
        obtain ⟨-, hmemo, hne⟩ := ownMemo_eq_some.mp hown
        have hsame := Option.some.inj (hmemo.symm.trans (expired_eq_some.mp hexpired).1)
        exact hne (hsame.trans hempty)
      rw [afterLoop_of_ownMemo_eq_none hnone, afterLoop_of_ownMemo_eq_none hnone]
    · rw [hafter]
      refine afterLoop_of_ownMemo_eq_none ?_
      rw [Donation.ownMemo, Donation.anonymize, if_pos (decide_eq_true hempty)]

/-- A memo of a donor that is like a digest is not on an old donation, and any other one has a
timestamp that is read as it is. -/
def Donation.Plain (cutoff : ℤ) (row : Donation sha256 ρ) : Prop :=
  ∀ memo, row.ownMemo = some memo →
    if looksAnonymized memo then cutoff ≤ row.timestamp.getTime else ¬Misread cutoff row.timestamp

theorem afterLoop_eq_retained_iff (cutoff : ℤ) (row : Donation sha256 ρ) :
    afterLoop (toISOString cutoff) row = retained cutoff row ↔ row.Plain cutoff := by
  cases hown : row.ownMemo with
  | none =>
    refine iff_of_true ?_ fun memo hmemo ↦ ?_
    · rw [afterLoop_of_ownMemo_eq_none hown, retained, hown]
    · rw [hown] at hmemo
      cases hmemo
  | some memo =>
    obtain ⟨hanonymized, hmemo, hne⟩ := ownMemo_eq_some.mp hown
    have hchanged : row.anonymize memo ≠ row := by
      intro h
      have hflag := congrArg Donation.anonymized h
      rw [hanonymized] at hflag
      exact hne (not_not.mp (of_decide_eq_false hflag))
    have hplain : row.Plain cutoff ↔ if looksAnonymized memo then cutoff ≤ row.timestamp.getTime
        else ¬Misread cutoff row.timestamp := by
      refine ⟨fun h ↦ h memo hown, fun h memo' hown' ↦ ?_⟩
      obtain rfl := Option.some.inj (hown.symm.trans hown')
      exact h
    have hretained : retained cutoff row =
        if row.timestamp.getTime < cutoff then row.anonymize memo else row := by
      rw [retained, hown]
    have hafter : afterLoop (toISOString cutoff) row =
        if row.timestamp.text < toISOString cutoff ∧ looksAnonymized memo = false then
          row.anonymize memo else row := by
      split_ifs with h
      · rw [afterLoop, expired_eq_some.mpr ⟨hmemo, h⟩]
      · have hnone : expired (toISOString cutoff) row = none := by
          rw [Option.eq_none_iff_forall_ne_some]
          intro memo' hexpired
          obtain ⟨hmemo', htaken⟩ := expired_eq_some.mp hexpired
          obtain rfl := Option.some.inj (hmemo.symm.trans hmemo')
          exact h htaken
        rw [afterLoop, hnone]
    rw [hafter, hretained, hplain, ← row.timestamp.text_lt_iff cutoff]
    cases hlooks : looksAnonymized memo with
    | true =>
      simp only [Bool.true_eq_false, and_false, if_false, if_true]
      rw [← not_lt]
      by_cases hold : row.timestamp.getTime < cutoff
      · simp [hold, hchanged.symm]
      · simp [hold]
    | false =>
      simp only [and_true, Bool.false_eq_true, if_false]
      by_cases htext : row.timestamp.text < toISOString cutoff <;>
        by_cases hold : row.timestamp.getTime < cutoff <;>
        simp [htext, hold, hchanged, hchanged.symm]

/-! ## The table after a run -/

theorem year_of_not_isTime {cutoff : ℤ} (h : ¬IsTime cutoff) :
    (civilFromDays (day cutoff)).year < 0 ∨ 9999 < (civilFromDays (day cutoff)).year := by
  by_contra hyear
  rw [not_or, not_lt, not_lt] at hyear
  have hinYear := inYear_civilFromDays (day cutoff)
  have hfirst : dayFromYear 0 = -719528 := by decide
  have hlast : dayFromYear 10000 = 2932897 := by decide
  have hlow : dayFromYear 0 ≤ dayFromYear (civilFromDays (day cutoff)).year :=
    dayFromYear_strictMono.monotone hyear.1
  have hhigh : dayFromYear ((civilFromDays (day cutoff)).year + 1) ≤ dayFromYear 10000 :=
    dayFromYear_strictMono.monotone (Int.add_le_add_right hyear.2 1)
  have hday : -719528 ≤ day cutoff ∧ day cutoff < 2932897 := by
    rw [InYear] at hinYear
    omega
  refine h ?_
  rw [IsTime, maxTime, maxDay, msPerDay]
  rw [day, msPerDay] at hday
  omega

theorem afterLoop_of_not_isTime {cutoff : ℤ} (h : ¬IsTime cutoff) (row : Donation sha256 ρ) :
    afterLoop (toISOString cutoff) row = row := by
  obtain ⟨s, hs⟩ := row.timestamp.exists_stamp
  have hlt := toISOString_lt (year_of_not_isTime h) s
  have hnone : expired (toISOString cutoff) row = none := by
    rw [Option.eq_none_iff_forall_ne_some]
    intro memo hexpired
    have htext := (expired_eq_some.mp hexpired).2.1
    rw [hs] at htext
    exact lt_asymm hlt htext
  rw [afterLoop, hnone]

/-- The loop goes through each row once, in whatever state the clock is. -/
theorem rows_afterRun (now : ℤ) {days : ℕ} (hdays : days ≠ 0) (t : Table (Donation sha256 ρ)) :
    (afterRun now days t).rows =
      t.rows.map fun r ↦ (r.1, afterLoop (toISOString (now - days * msPerDay)) r.2) := by
  rw [afterRun, runDonationRetention, if_neg hdays, cutoffDate, timeClip]
  by_cases htime : IsTime (now - days * msPerDay)
  · rw [if_pos htime, Option.map_some]
    refine (Table.rows_foldl_update_picked _ _ t).trans (List.map_congr_left fun r _ ↦ ?_)
    rw [Table.assignPicked, afterLoop]
    cases expired (toISOString (now - days * msPerDay)) r.2 <;> rfl
  · rw [if_neg htime, Option.map_none]
    have hsame : ∀ r ∈ t.rows,
        (r.1, afterLoop (toISOString (now - days * msPerDay)) r.2) = id r :=
      fun r _ ↦ Prod.ext rfl (afterLoop_of_not_isTime htime r.2)
    rw [List.map_congr_left hsame, List.map_id]

/-- **What a run does.** It anonymises the memos of exactly the old donations that have one of their
own, once and for all, just when every row is plain. -/
theorem retains_iff (now : ℤ) {days : ℕ} (hdays : 1 ≤ days) (t : Table (Donation sha256 ρ)) :
    Retains now days t ↔ ∀ r ∈ t.rows, r.2.Plain (now - days * msPerDay) := by
  have hne : days ≠ 0 := Nat.one_le_iff_ne_zero.mp hdays
  have hagain : (afterRun now days (afterRun now days t)).rows = (afterRun now days t).rows := by
    rw [rows_afterRun now hne, rows_afterRun now hne, List.map_map]
    exact List.map_congr_left fun r _ ↦ Prod.ext rfl (afterLoop_afterLoop _ r.2)
  rw [Retains, and_iff_left hagain, rows_afterRun now hne, List.map_inj_left]
  refine forall₂_congr fun r _ ↦ ?_
  rw [Prod.mk.injEq, eq_self, true_and, afterLoop_eq_retained_iff]

/-! ## Donations at noon -/

theorem noon_valid : Civil.Valid 2025 4 10 12 0 0 := by decide

def noon : Civil := Civil.of 2025 4 10 12 0 0 noon_valid

/-- That moment as `toISOString` gives it. -/
def isoNoon : IsoInstant := ⟨noon, 0, by decide⟩

/-- SHA-256, at the memo of the donation. -/
def digestOfMemo (value : String) : String :=
  if value = "for the school" then
    "c6226d136a718a7480baf89d66fb3299d54f7d8c80a465b8adaec34c2236be1c"
  else ""

def donation (timestamp : Timestamp) (memo : String) : Table (Donation digestOfMemo Unit) where
  rows := [(1, ⟨timestamp, some memo, false, (), fun h ↦ nomatch h⟩)]
  nextId := 2
  nodup := List.nodup_singleton 1
  lt_nextId r hr := by
    rw [List.mem_singleton.mp hr]
    exact Nat.one_lt_two

/-- A memo that a donor has given is anonymised a second after a day. -/
theorem retains_donation :
    Retains (isoNoon.getTime + msPerDay + 1000) 1 (donation (.iso isoNoon) "for the school") :=
  (retains_iff _ (by decide) _).mpr fun r hr memo hmemo ↦ by
    obtain rfl := List.mem_singleton.mp hr
    obtain rfl : "for the school" = memo := Option.some.inj hmemo
    have hyear : ¬9999 < (civilFromDays (day (isoNoon.getTime + msPerDay + 1000 -
      (1 : ℕ) * msPerDay))).year := by decide
    exact hyear

/-- One that begins like a digest is not, and one is anonymised too early whose timestamp has the
format of `CURRENT_TIMESTAMP`. -/
theorem other_donations_not_retained :
    ¬Retains (isoNoon.getTime + msPerDay + 1000) 1 (donation (.iso isoNoon) "Anon: a friend") ∧
      ¬Retains (isoNoon.getTime + msPerDay - 1000) 1
        (donation (.sqlite ⟨noon, by decide⟩) "for the school") := by
  constructor
  · rintro ⟨hrun, -⟩
    have hmemos := congrArg (List.map fun r : ℕ × Donation digestOfMemo Unit ↦ r.2.anonymized) hrun
    exact absurd hmemos (by decide)
  · rintro ⟨hrun, -⟩
    have hmemos := congrArg (List.map fun r : ℕ × Donation digestOfMemo Unit ↦ r.2.anonymized) hrun
    exact absurd hmemos (by decide)

end StellarDonations.Retention
