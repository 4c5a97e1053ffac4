import Mathlib.Data.Rat.Floor
import StellarDonations.Errors
import StellarDonations.Text.JsString
import StellarDonations.Time.Calendar

/-!
# Recurring schedules

A row of `recurring_donations`, the key under which one occurrence of it is recorded, and the date
of the next occurrence.
-/

namespace StellarDonations.Recurring

open Calendar JsString

/-- The `status` column of `recurring_donations`. -/
inductive ScheduleStatus where
  | active
  | paused
  | cancelled
  | completed
  | pendingCancellation
  | suspended
  deriving DecidableEq, Repr

/-- A row of `recurring_donations`. Instants are in milliseconds. -/
structure Schedule where
  id : ℕ
  donorId : ℕ
  recipientId : ℕ
  amount : ℚ
  frequency : String
  nextExecutionDate : ℤ
  executionCount : ℕ
  lastExecutionDate : Option ℤ
  maxExecutions : Option ℕ
  customIntervalDays : Option ℤ
  webhookUrl : Option String
  failureCount : ℕ
  lastFailureReason : Option String
  status : ScheduleStatus
  deriving DecidableEq

/-- The text that identifies an occurrence: the schedule and the day. -/
def occurrenceKey (scheduleId : ℕ) (date : ℤ) : String :=
  "recurring-" ++ toString scheduleId ++ "-" ++ isoDate date

/-- `idempotencyKey` of the occurrence a schedule is due for. -/
def idempotencyKey (s : Schedule) : String := occurrenceKey s.id s.nextExecutionDate

theorem takeWhile_digits (n : ℕ) (rest : List Char) :
    ((toString n).toList ++ '-' :: rest).takeWhile (· ≠ '-') = Nat.toDigits 10 n := by
  have hdigits : (toString n).toList = Nat.toDigits 10 n := Nat.toList_repr
  have hdash : ∀ c ∈ Nat.toDigits 10 n, decide (c ≠ '-') = true := by
    intro c hc
    have hdigit := Nat.isDigit_of_mem_toDigits (by omega) (by omega) hc
    refine decide_eq_true fun heq ↦ ?_
    rw [heq] at hdigit
    exact absurd hdigit (by decide)
  rw [hdigits, List.takeWhile_append_of_pos hdash]
  simp

/-- The key tells the schedule: its id ends at the first dash. -/
theorem id_eq_of_idempotencyKey {s t : Schedule} (h : idempotencyKey s = idempotencyKey t) :
    s.id = t.id := by
  have hlist := congrArg String.toList h
  simp only [idempotencyKey, occurrenceKey, String.toList_append, List.append_assoc] at hlist
  have hrest := congrArg (List.takeWhile (· ≠ '-')) (List.append_cancel_left hlist)
  have hdigits : Nat.toDigits 10 s.id = Nat.toDigits 10 t.id :=
    (takeWhile_digits s.id _).symm.trans (hrest.trans (takeWhile_digits t.id _))
  rw [← Nat.ofDigitChars_ten_toDigits (n := s.id), hdigits, Nat.ofDigitChars_ten_toDigits]

/-- `Math.round(parseFloat(amount) * STROOPS_PER_XLM)`. -/
def amountStroops (amount : ℚ) : ℤ := ⌊amount * 10000000 + 1 / 2⌋

/-- The date one month on: the same day, or the last day of a shorter month. -/
def addMonth (date : CivilDate) : ℤ :=
  let nextMonth := if date.month + 1 > 11 then 0 else date.month + 1
  let nextYear := if date.month + 1 > 11 then date.year + 1 else date.year
  -- day `0` of the month after the target month
  let lastDayOfMonth := (civilFromDays (makeDay nextYear (nextMonth + 1) 0)).day
  makeDay nextYear nextMonth (min date.day lastDayOfMonth)

def calculateNextExecutionDate (currentDate : ℤ) (frequency : String)
    (customIntervalDays : Option ℤ) : Except AppError ℤ :=
  let date := civilFromDays (day currentDate)
  let onDay (day : ℤ) : Except AppError ℤ := .ok (day * msPerDay + timeWithinDay currentDate)
  match toLowerCase frequency with
  | "daily" => onDay (makeDay date.year date.month (date.day + 1))
  | "weekly" => onDay (makeDay date.year date.month (date.day + 7))
  | "monthly" => onDay (addMonth date)
  | "custom" =>
    match customIntervalDays with
    | some days =>
      if days < 1 then
        .error (.plain "customIntervalDays must be a positive integer for custom frequency")
      else onDay (makeDay date.year date.month (date.day + days))
    | none => .error (.plain "customIntervalDays must be a positive integer for custom frequency")
  | _ => .error (.plain ("Invalid frequency: " ++ frequency))

end StellarDonations.Recurring
