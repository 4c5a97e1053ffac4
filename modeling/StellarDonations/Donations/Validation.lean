import StellarDonations.Numeric.Decimal
import StellarDonations.Transactions.Store

/-!
# Amounts of a donation

`utils/donationValidator.js`, `utils/feeCalculator.js` and `utils/overpaymentDetector.js`: the
checks an amount must pass, the fee charged on it, and the surplus of what was received over both.
-/

namespace StellarDonations.Donations

open Decimal Transactions

/-- The `donations` section of the configuration. -/
structure Config where
  minAmount : ℚ
  maxAmount : ℚ
  /-- Zero disables the daily limit. -/
  maxDailyPerDonor : ℚ
  /-- Donations above this many XLM need approval; `none` disables the workflow. -/
  multisigThresholdXLM : Option ℚ
  multisigRequiredApprovals : ℕ
  multisigApprovalWindowMs : ℕ
  /-- How the language prints a number, for the texts of the errors. -/
  showNumber : ℚ → String

/-! ## The validator -/

/-- `DonationValidator.validateAmount`: the first check that fails, with its code and text. -/
def Config.validateAmount (cfg : Config) (amount : ℚ) : Except (ErrorCode × String) Unit :=
  if ¬Whole 7 amount then .error (.invalidAmountPrecision,
    "Amount cannot have more than 7 decimal places (Stellar precision limit)")
  else if amount ≤ 0 then .error (.amountTooLow, "Amount must be greater than zero")
  else if amount < cfg.minAmount then .error (.amountBelowMinimum,
    "Amount must be at least " ++ cfg.showNumber cfg.minAmount ++ " XLM")
  else if cfg.maxAmount < amount then .error (.amountExceedsMaximum,
    "Amount cannot exceed " ++ cfg.showNumber cfg.maxAmount ++ " XLM")
  else .ok ()

def Config.validateDailyLimit (cfg : Config) (amount dailyTotal : ℚ) :
    Except (ErrorCode × String) Unit :=
  if cfg.maxDailyPerDonor = 0 then .ok ()
  else if cfg.maxDailyPerDonor < dailyTotal + amount then .error (.dailyLimitExceeded,
    "Daily donation limit exceeded. Maximum " ++ cfg.showNumber cfg.maxDailyPerDonor
      ++ " XLM per day")
  else .ok ()

def throwValidation (r : Except (ErrorCode × String) Unit) : Except AppError Unit :=
  r.mapError fun (code, message) ↦ .validationWith code message

/-- `DonationService.validateDonationAmount`, given the bounds of the donor's day. -/
def Config.validateDonationAmount (cfg : Config) (st : Store) (amount : ℚ) (donor : String)
    (day : ℕ × ℕ) : Except AppError Unit := do
  throwValidation (cfg.validateAmount amount)
  if donor ≠ "" ∧ donor ≠ "Anonymous" then
    throwValidation (cfg.validateDailyLimit amount (st.getDailyTotalByDonor donor day.1 day.2))

theorem Config.total_le_of_validateDonationAmount {cfg : Config} {st : Store} {amount : ℚ}
    {donor : String} {day : ℕ × ℕ} (h : cfg.validateDonationAmount st amount donor day = .ok ())
    (hdonor : donor ≠ "" ∧ donor ≠ "Anonymous") (hlimit : cfg.maxDailyPerDonor ≠ 0) :
    st.getDailyTotalByDonor donor day.1 day.2 + amount ≤ cfg.maxDailyPerDonor := by
  obtain ⟨-, -, h⟩ := Except.bind_eq_ok.mp h
  rw [if_pos hdonor] at h
  by_contra hover
  rw [Config.validateDailyLimit, if_neg hlimit, if_pos (lt_of_not_ge hover)] at h
  cases h

def Config.validatePaymentAmount (cfg : Config) (amount : ℚ) (fieldName : String) :
    Except AppError Unit :=
  (cfg.validateAmount amount).mapError fun (code, message) ↦
    .validationWith code (fieldName ++ ": " ++ message)

/-! ## Fee and overpayment -/

/-- `calculateAnalyticsFee` at its default rate: 2% in whole stroops, rounded down, at least
0.01 XLM. -/
def calculateAnalyticsFee (amount : ℚ) : ℚ :=
  max (⌊⌊amount * 10 ^ 7⌋ * 200 / (10000 : ℚ)⌋ : ℚ) 100000 / 10 ^ 7

/-- `buildOverpaymentRecord`: the surplus over donation and fee, `none` when there is none. -/
def buildOverpaymentRecord (receivedAmount donationAmount expectedFee : ℚ) : Option Overpayment :=
  let expectedTotal := toFixed 7 (donationAmount + expectedFee)
  let excess := toFixed 7 (receivedAmount - expectedTotal)
  if 0 < excess then some ⟨expectedTotal, toFixed 7 receivedAmount, excess,
    toFixed 7 (excess / expectedTotal * 100)⟩ else none

end StellarDonations.Donations
