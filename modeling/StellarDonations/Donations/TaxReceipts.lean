import Mathlib.Algebra.BigOperators.Ring.Finset
import Mathlib.Data.List.Sort
import StellarDonations.Control.Except
import StellarDonations.Numeric.Decimal
import StellarDonations.Storage.Table
import StellarDonations.Time.Timestamps
import StellarDonations.Users

/-!
# Tax receipts and annual summaries

`TaxReceiptService`: the receipt of a donation, which values it in dollars, and the summary of a
donor's donations of a year. Both read the table `transactions`, whose amounts are stroops since
migration 021, and take them for XLM. The summary compares timestamps as texts with the bounds of
the year.

The queries name three columns of `transactions` that no migration adds, and the module of the price
oracle has no `getPriceAtTime`. Whether they are there is data here, so that what the code computes
when they are is part of the model.
-/

namespace StellarDonations.TaxReceipts

open Decimal JsString Storage Timestamps

/-! ## The database -/

structure TransactionRow where
  senderId : ℕ
  receiverId : ℕ
  /-- In stroops. -/
  amount : ℕ
  timestamp : Stamp
  stellarTxId : Option String := none
  status : Option String := none
  xlmUsdRate : Option ℚ := none
  fairMarketValueUsd : Option ℚ := none

structure Db where
  users : List User
  transactions : Table TransactionRow
  /-- `transactions` has the columns `status`, `xlm_usd_rate` and `fair_market_value_usd`. -/
  taxColumns : Bool

/-- A row of the queries, which join the transaction with its two users. -/
structure Donation where
  id : ℕ
  amount : ℕ
  timestamp : String
  xlmUsdRate : Option ℚ
  fairMarketValueUsd : Option ℚ
  stellarTxId : Option String
  status : Option String
  donorPublicKey : Option String
  recipientPublicKey : Option String
  deriving DecidableEq

/-- The error of a query that names a column which is not there. -/
def queryFailed : AppError := ⟨.databaseError, some .databaseError, "Database query failed"⟩

namespace Db

def publicKey (db : Db) (userId : ℕ) : Option String :=
  (db.users.find? (·.id = userId)).map (·.publicKey)

/-- The columns that the queries select. -/
def donation (db : Db) (r : ℕ × TransactionRow) : Donation where
  id := r.1
  amount := r.2.amount
  timestamp := r.2.timestamp.text
  xlmUsdRate := r.2.xlmUsdRate
  fairMarketValueUsd := r.2.fairMarketValueUsd
  stellarTxId := r.2.stellarTxId
  status := r.2.status
  donorPublicKey := db.publicKey r.2.senderId
  recipientPublicKey := db.publicKey r.2.receiverId

end Db

/-! ## Receipts -/

/-- The organization of the configuration, which has a name and a tax number. -/
structure Organization where
  ein : String
  legalName : String
  address : Option String := none
  city : Option String := none
  state : Option String := none
  zipCode : Option String := none
  phone : Option String := none
  email : Option String := none
  website : Option String := none

/-- What the service reads beside the database. -/
structure Env where
  /-- The organization, when it is configured. -/
  organization : Option Organization
  /-- `getPriceAtTime('XLM', 'USD', _)` of the price oracle, when there is such a function. -/
  getPriceAtTime : Option (String → Except String ℚ)
  /-- The `UPDATE` of a snapshot fails. -/
  updateFails : Bool := false
  nowIso : String
  now : ℕ

structure ReceiptDonation where
  id : ℕ
  date : String
  stellarTxId : Option String
  donorPublicKey : Option String
  recipientPublicKey : Option String

/-- The part `financial` of a receipt. -/
structure Financial where
  xlmAmount : ℕ
  xlmUsdRate : ℚ
  fairMarketValueUsd : ℚ
  currency : String := "XLM"

/-- The part `irs` of a receipt. -/
structure Irs where
  formType : String := "8283"
  statement : String :=
    "No goods or services were provided in exchange for this contribution."
  qualifiedOrganization : Bool := true
  noGoodsServicesProvided : Bool := true

/-- What `generateTaxReceiptData` returns. -/
structure Receipt where
  organization : Organization
  donation : ReceiptDonation
  financial : Financial
  irs : Irs := {}
  generatedAt : String
  receiptNumber : String

/-- The statuses of donations without a receipt. -/
def invalidStatuses : List String := ["refunded", "failed", "cancelled"]

def calculateFairMarketValue (xlmAmount exchangeRate : ℚ) : ℚ :=
  toFixed 2 (xlmAmount * exchangeRate)

/-- The error of `getExchangeRateAtTime`. -/
def rateUnavailable : AppError :=
  .validationWith (.other "EXTERNAL_SERVICE_ERROR") "Unable to retrieve exchange rate for donation"

def getExchangeRateAtTime (env : Env) (timestamp : String) : Except AppError ℚ :=
  match env.getPriceAtTime with
  | none => .error rateUnavailable
  | some getPriceAtTime =>
    match getPriceAtTime timestamp with
    | .ok rate => .ok rate
    | .error _ => .error rateUnavailable

namespace Db

variable (db : Db)

def getDonationForReceipt (donationId : ℕ) : Except AppError Donation :=
  if !db.taxColumns then .error queryFailed
  else
    match db.transactions.get donationId with
    | none => .error (.notFound .donationNotFound "Donation not found")
    | some row =>
      if row.status.any fun s ↦ s ≠ "" && invalidStatuses.contains (toLowerCase s) then
        .error (.validationWith .invalidRequest
          ("Cannot generate tax receipt for a donation with status \"" ++ row.status.getD "" ++
            "\""))
      else .ok (db.donation (donationId, row))

def storeExchangeRateSnapshot (env : Env) (donationId : ℕ) (exchangeRate fairMarketValue : ℚ) :
    Db :=
  if env.updateFails then db
  else
    { db with
      transactions := db.transactions.update (·.1 = donationId) fun row ↦
        { row with
          xlmUsdRate := some exchangeRate
          fairMarketValueUsd := some fairMarketValue } }

end Db

/-- The rate and the value stored with a donation, unless one of them is missing or zero. -/
def Donation.snapshot (d : Donation) : Option (ℚ × ℚ) :=
  match d.xlmUsdRate, d.fairMarketValueUsd with
  | some rate, some value => if rate = 0 ∨ value = 0 then none else some (rate, value)
  | _, _ => none

def receipt (env : Env) (organization : Organization) (d : Donation) (rate value : ℚ) :
    Receipt where
  organization := organization
  donation :=
    { id := d.id
      date := d.timestamp
      stellarTxId := d.stellarTxId
      donorPublicKey := d.donorPublicKey
      recipientPublicKey := d.recipientPublicKey }
  financial :=
    { xlmAmount := d.amount
      xlmUsdRate := rate
      fairMarketValueUsd := value }
  generatedAt := env.nowIso
  receiptNumber := "TXN-" ++ toString d.id ++ "-" ++ toString env.now

def Db.generateTaxReceiptData (db : Db) (env : Env) (donationId : ℕ) :
    Except AppError (Receipt × Db) := do
  match env.organization with
  | none => throw (.validation "Organization tax configuration is incomplete")
  | some organization =>
    let donation ← db.getDonationForReceipt donationId
    match donation.snapshot with
    | some (rate, value) => return (receipt env organization donation rate value, db)
    | none =>
      let rate ← getExchangeRateAtTime env donation.timestamp
      let value := calculateFairMarketValue donation.amount rate
      return (receipt env organization donation rate value,
        db.storeExchangeRateSnapshot env donationId rate value)

/-! ## Summaries -/

structure RecipientTotal where
  xlmTotal : ℚ
  usdTotal : ℚ
  count : ℕ

/-- What `getAnnualSummaryData` returns. -/
structure Summary where
  donations : List Donation
  recipientTotals : List (String × RecipientTotal)
  grandTotalXlm : ℚ
  donationCount : ℕ
  year : ℕ
  walletAddress : String

/-- A turn of the loop over the donations. -/
def addToRecipient (totals : List (String × RecipientTotal)) (d : Donation) :
    List (String × RecipientTotal) :=
  let rk := orElse d.recipientPublicKey "unknown"
  let totals := if totals.any (·.1 = rk) then totals else totals ++ [(rk, ⟨0, 0, 0⟩)]
  totals.map fun e ↦ if e.1 = rk then
    (rk, { xlmTotal := e.2.xlmTotal + d.amount
           usdTotal := e.2.usdTotal + d.fairMarketValueUsd.getD 0
           count := e.2.count + 1 })
    else e

namespace Db

variable (db : Db)

/-- The condition of the query for a summary. -/
def Selected (walletAddress : String) (year : ℕ) (r : ℕ × TransactionRow) : Prop :=
  db.publicKey r.2.senderId = some walletAddress ∧ Within year r.2.timestamp.text ∧
    ∀ s ∈ r.2.status, s ∉ invalidStatuses

instance decidableSelected (walletAddress : String) (year : ℕ) :
    DecidablePred (db.Selected walletAddress year) :=
  fun r ↦ inferInstanceAs (Decidable (db.publicKey r.2.senderId = some walletAddress ∧
    Within year r.2.timestamp.text ∧ ∀ s ∈ r.2.status, s ∉ invalidStatuses))

def annualDonations (walletAddress : String) (year : ℕ) : List Donation :=
  ((db.transactions.rows.filter (db.Selected walletAddress year ·)).insertionSort fun r r' ↦
    r.2.timestamp.text ≤ r'.2.timestamp.text).map db.donation

def getAnnualSummaryData (walletAddress : String) (year : ℕ) : Except AppError Summary :=
  if walletAddress = "" then .error (.validation "walletAddress is required")
  else if year < 2000 ∨ 2100 < year then .error (.validation "year must be a valid calendar year")
  else if !db.taxColumns then .error queryFailed
  else
    let donations := db.annualDonations walletAddress year
    .ok
      { donations
        recipientTotals := donations.foldl addToRecipient []
        grandTotalXlm := toFixed 7 (donations.map fun d ↦ (d.amount : ℚ)).sum
        donationCount := donations.length
        year
        walletAddress }

end Db

/-! ## What must hold -/

/-- The donation counts: it is not refunded, failed or cancelled. -/
def Countable (row : TransactionRow) : Prop := ∀ s ∈ row.status, s ∉ invalidStatuses

instance decidableCountable : DecidablePred Countable :=
  fun row ↦ inferInstanceAs (Decidable (∀ s ∈ row.status, s ∉ invalidStatuses))

def xlm (stroops : ℕ) : ℚ := stroops / 10 ^ 7

namespace Db

variable (db : Db)

def rowsOf (donor : String) : List (ℕ × TransactionRow) :=
  db.transactions.rows.filter fun r ↦ db.publicKey r.2.senderId = some donor

def listed (donor : String) (year : ℕ) : List Donation :=
  match db.getAnnualSummaryData donor year with
  | .ok summary => summary.donations
  | .error _ => []

end Db

/-- The figures of a donor are right: receipts value the XLM amount, every donation that counts is
in the summary of its year and of no other, and the totals are XLM. -/
structure FiguresRight (env : Env) (db : Db) (donor : String) : Prop where
  receipts : ∀ {id d r db'}, db.getDonationForReceipt id = .ok d → d.donorPublicKey = some donor →
    db.generateTaxReceiptData env id = .ok (r, db') →
    r.financial.fairMarketValueUsd = toFixed 2 (xlm d.amount * r.financial.xlmUsdRate)
  listed : ∀ {year}, 2000 ≤ year → year ≤ 2100 → (db.listed donor year).Perm
    (((db.rowsOf donor).filter fun r ↦ Countable r.2 ∧ r.2.timestamp.year = year).map db.donation)
  totals : ∀ {year summary}, db.getAnnualSummaryData donor year = .ok summary →
    summary.grandTotalXlm = (summary.donations.map fun d ↦ xlm d.amount).sum

/-- A row as the system writes it: its year is one of those the summaries know, and a stored value
is the one that was computed from the amount and the stored rate. -/
structure Written (row : TransactionRow) : Prop where
  year : 2000 ≤ row.timestamp.year ∧ row.timestamp.year ≤ 2100
  snapshot : ∀ {rate value}, row.xlmUsdRate = some rate → row.fairMarketValueUsd = some value →
    value = calculateFairMarketValue row.amount rate

/-- The condition: the columns are there, no donation that counts is at a moment the summary
misreads, and none of them has an amount. -/
def Unaffected (db : Db) (donor : String) : Prop :=
  ∀ r ∈ db.rowsOf donor, Countable r.2 →
    db.taxColumns = true ∧ ¬r.2.timestamp.Misread ∧ r.2.amount = 0

/-! ## Receipts -/

section Receipts

variable {env : Env} {db db' : Db} {donor : String} {id : ℕ} {d : Donation} {r : Receipt}

/-- A number rounds to the same cents as its ten-millionth part exactly when it rounds to
nothing. -/
theorem roundHalfUp_stroops_iff {x : ℚ} (hx : 0 ≤ x) :
    roundHalfUp 2 x = roundHalfUp 2 (x / 10 ^ 7) ↔ x < 1 / 200 := by
  have hdiv : roundHalfUp 2 x = roundHalfUp 2 (x / 10 ^ 7) ↔
      ⌊x * 10 ^ 2 + 1 / 2⌋ = ⌊x / 10 ^ 7 * 10 ^ 2 + 1 / 2⌋ := by
    rw [roundHalfUp, roundHalfUp, div_left_inj' (by norm_num), Int.cast_inj]
  rw [hdiv]
  constructor
  · intro heq
    by_contra hge
    rw [not_lt] at hge
    have hone : (1 : ℤ) ≤ ⌊x * 10 ^ 2 + 1 / 2⌋ := Int.le_floor.mpr (by push_cast; linarith)
    have hone' : (1 : ℚ) ≤ ⌊x * 10 ^ 2 + 1 / 2⌋ := by exact_mod_cast hone
    have hupper := Int.lt_floor_add_one (x * 10 ^ 2 + 1 / 2)
    have hlower := Int.floor_le (x / 10 ^ 7 * 10 ^ 2 + 1 / 2)
    rw [← heq] at hlower
    linarith
  · intro hlt
    have hzero : ⌊x * 10 ^ 2 + 1 / 2⌋ = 0 := Int.floor_eq_zero_iff.mpr ⟨by linarith, by linarith⟩
    have hzero' : ⌊x / 10 ^ 7 * 10 ^ 2 + 1 / 2⌋ = 0 :=
      Int.floor_eq_zero_iff.mpr ⟨by linarith, by linarith⟩
    rw [hzero, hzero']

/-- The value computed from the stroops is the value in cents of the XLM amount exactly when it is
less than half a cent. -/
theorem calculateFairMarketValue_stroops_iff (stroops : ℕ) (rate : ℚ) :
    calculateFairMarketValue stroops rate = toFixed 2 (xlm stroops * rate) ↔
      |stroops * rate| < 1 / 200 := by
  have hxlm : xlm stroops * rate = stroops * rate / 10 ^ 7 := by
    rw [xlm]
    ring
  rw [calculateFairMarketValue, hxlm]
  rcases lt_or_ge (stroops * rate) 0 with hneg | hnonneg
  · have hdiv : stroops * rate / 10 ^ 7 < 0 := div_neg_of_neg_of_pos hneg (by norm_num)
    rw [toFixed, toFixed, if_pos hneg, if_pos hdiv, neg_inj, ← neg_div,
      roundHalfUp_stroops_iff (neg_nonneg.mpr hneg.le), abs_of_neg hneg]
  · rw [toFixed_of_nonneg hnonneg, toFixed_of_nonneg (div_nonneg hnonneg (by norm_num)),
      roundHalfUp_stroops_iff hnonneg, abs_of_nonneg hnonneg]

theorem lower_invalidStatuses : ∀ s ∈ invalidStatuses, s ≠ "" ∧ toLowerCase s = s := by
  decide

theorem getDonationForReceipt_eq_ok (h : db.getDonationForReceipt id = .ok d) :
    ∃ row, db.transactions.get id = some row ∧ d = db.donation (id, row) ∧
      ∀ s ∈ row.status, s ≠ "" → toLowerCase s ∉ invalidStatuses := by
  rw [Db.getDonationForReceipt] at h
  split_ifs at h
  split at h
  · cases h
  · next row hrow =>
    split_ifs at h with hstatus
    cases h
    refine ⟨row, hrow, rfl, fun s hs hne hmem ↦ hstatus ?_⟩
    rw [Option.mem_def.mp hs, Option.any_some]
    simp [hne, hmem]

theorem generate_eq_ok (h : db.generateTaxReceiptData env id = .ok (r, db')) :
    ∃ d, db.getDonationForReceipt id = .ok d ∧
      (d.snapshot = some (r.financial.xlmUsdRate, r.financial.fairMarketValueUsd) ∧ db' = db ∨
        r.financial.fairMarketValueUsd =
            calculateFairMarketValue d.amount r.financial.xlmUsdRate ∧
          db' = db.storeExchangeRateSnapshot env id r.financial.xlmUsdRate
            r.financial.fairMarketValueUsd) := by
  rw [Db.generateTaxReceiptData] at h
  split at h
  · cases h
  · obtain ⟨d, hd, h⟩ := Except.bind_eq_ok.mp h
    refine ⟨d, hd, ?_⟩
    split at h
    · next rate value hsnapshot =>
      cases h
      exact .inl ⟨hsnapshot, rfl⟩
    · obtain ⟨rate, -, h⟩ := Except.bind_eq_ok.mp h
      cases h
      exact .inr ⟨rfl, rfl⟩

theorem snapshot_eq_some {rate value : ℚ} (h : d.snapshot = some (rate, value)) :
    d.xlmUsdRate = some rate ∧ d.fairMarketValueUsd = some value ∧ rate ≠ 0 ∧ value ≠ 0 := by
  rw [Donation.snapshot] at h
  split at h
  · next rate' value' hrate hvalue =>
    split_ifs at h with hzero
    cases h
    rw [not_or] at hzero
    exact ⟨hrate, hvalue, hzero.1, hzero.2⟩
  · cases h

/-- Every receipt has the value computed from the stroops of its donation, now or when the value was
stored. -/
theorem value_of_receipt (hwritten : ∀ r ∈ db.transactions.rows, Written r.2)
    (hd : db.getDonationForReceipt id = .ok d)
    (h : db.generateTaxReceiptData env id = .ok (r, db')) :
    r.financial.fairMarketValueUsd = calculateFairMarketValue d.amount r.financial.xlmUsdRate := by
  obtain ⟨d', hd', hcases⟩ := generate_eq_ok h
  rw [hd] at hd'
  cases hd'
  rcases hcases with ⟨hsnapshot, -⟩ | ⟨hvalue, -⟩
  · obtain ⟨row, hrow, rfl, -⟩ := getDonationForReceipt_eq_ok hd
    obtain ⟨hrate, hvalue, -, -⟩ := snapshot_eq_some hsnapshot
    exact (hwritten _ (Table.get_eq_some_iff.mp hrow)).snapshot hrate hvalue
  · exact hvalue

/-- **A receipt has the right value exactly when the stroops at its rate are worth less than half a
cent.** -/
theorem receipt_right_iff (hwritten : ∀ r ∈ db.transactions.rows, Written r.2)
    (hd : db.getDonationForReceipt id = .ok d)
    (h : db.generateTaxReceiptData env id = .ok (r, db')) :
    r.financial.fairMarketValueUsd = toFixed 2 (xlm d.amount * r.financial.xlmUsdRate) ↔
      |d.amount * r.financial.xlmUsdRate| < 1 / 200 := by
  rw [value_of_receipt hwritten hd h]
  exact calculateFairMarketValue_stroops_iff _ _

end Receipts

/-! ## Summaries -/

section Summaries

variable {env : Env} {db : Db} {donor : String} {year : ℕ} {summary : Summary}

theorem getAnnualSummaryData_of_columns (hdonor : donor ≠ "") (h₁ : 2000 ≤ year) (h₂ : year ≤ 2100)
    (hcolumns : db.taxColumns = true) :
    ∃ summary, db.getAnnualSummaryData donor year = .ok summary ∧
      summary.donations = db.annualDonations donor year := by
  have hyear : ¬(year < 2000 ∨ 2100 < year) := by omega
  rw [Db.getAnnualSummaryData, if_neg hdonor, if_neg hyear, hcolumns]
  exact ⟨_, rfl, rfl⟩

theorem getAnnualSummaryData_eq_ok (h : db.getAnnualSummaryData donor year = .ok summary) :
    db.taxColumns = true ∧ summary.donations = db.annualDonations donor year ∧
      summary.grandTotalXlm = toFixed 7 (summary.donations.map fun d ↦ (d.amount : ℚ)).sum := by
  rw [Db.getAnnualSummaryData] at h
  split_ifs at h with hdonor hyear hcolumns
  cases h
  exact ⟨by simpa using hcolumns, rfl, rfl⟩

theorem listed_of_columns (hdonor : donor ≠ "") (h₁ : 2000 ≤ year) (h₂ : year ≤ 2100)
    (hcolumns : db.taxColumns = true) : db.listed donor year = db.annualDonations donor year := by
  obtain ⟨summary, hsummary, hdonations⟩ := getAnnualSummaryData_of_columns hdonor h₁ h₂ hcolumns
  rw [Db.listed, hsummary]
  exact hdonations

theorem listed_of_no_columns (hcolumns : db.taxColumns = false) : db.listed donor year = [] := by
  rw [Db.listed]
  cases hsummary : db.getAnnualSummaryData donor year with
  | error e => rfl
  | ok summary =>
    rw [(getAnnualSummaryData_eq_ok hsummary).1] at hcolumns
    cases hcolumns

theorem selected_of_mem {r : ℕ × TransactionRow}
    (h : r ∈ (db.transactions.rows.filter (db.Selected donor year ·)).insertionSort fun r r' ↦
      r.2.timestamp.text ≤ r'.2.timestamp.text) :
    r ∈ db.transactions.rows ∧ db.Selected donor year r := by
  rw [List.mem_insertionSort, List.mem_filter, decide_eq_true_iff] at h
  exact h

theorem annualDonations_perm (h₁ : 2000 ≤ year) (h₂ : year ≤ 2100) :
    (db.annualDonations donor year).Perm
      ((((db.rowsOf donor).filter fun r ↦ Countable r.2 ∧ r.2.timestamp.year = year).filter
        fun r ↦ ¬r.2.timestamp.Misread).map db.donation) := by
  have hrows : db.transactions.rows.filter (db.Selected donor year ·) =
      ((db.rowsOf donor).filter fun r ↦ Countable r.2 ∧ r.2.timestamp.year = year).filter
        fun r ↦ ¬r.2.timestamp.Misread := by
    rw [Db.rowsOf, List.filter_filter, List.filter_filter]
    refine List.filter_congr fun r _ ↦ ?_
    rw [← Bool.decide_and, ← Bool.decide_and, decide_eq_decide, Db.Selected,
      within_iff (by omega) (by omega)]
    constructor
    · rintro ⟨hsender, ⟨hyear, hread⟩, hstatus⟩
      exact ⟨⟨hread, hstatus, hyear⟩, hsender⟩
    · rintro ⟨⟨hread, hstatus, hyear⟩, hsender⟩
      exact ⟨hsender, ⟨hyear, hread⟩, hstatus⟩
  rw [Db.annualDonations, hrows]
  exact (List.perm_insertionSort _ _).map _

/-- **The summaries partition the donations that count exactly when the columns are there and no
donation is at a moment that is misread.** -/
theorem listed_iff (hdonor : donor ≠ "") (hwritten : ∀ r ∈ db.transactions.rows, Written r.2) :
    (∀ {year}, 2000 ≤ year → year ≤ 2100 → (db.listed donor year).Perm
      (((db.rowsOf donor).filter fun r ↦ Countable r.2 ∧ r.2.timestamp.year = year).map
        db.donation)) ↔
      ∀ r ∈ db.rowsOf donor, Countable r.2 → db.taxColumns = true ∧ ¬r.2.timestamp.Misread := by
  constructor
  · intro h r hr hcountable
    obtain ⟨h₁, h₂⟩ := (hwritten r (List.mem_filter.mp hr).1).year
    have hperm := h h₁ h₂
    have hmem : r ∈ (db.rowsOf donor).filter
        fun r' ↦ Countable r'.2 ∧ r'.2.timestamp.year = r.2.timestamp.year :=
      List.mem_filter.mpr ⟨hr, decide_eq_true ⟨hcountable, rfl⟩⟩
    cases hcolumns : db.taxColumns with
    | false =>
      rw [listed_of_no_columns hcolumns, List.nil_perm, List.map_eq_nil_iff] at hperm
      rw [hperm] at hmem
      cases hmem
    | true =>
      -- as many rows are found as there are, so none is misread
      rw [listed_of_columns hdonor h₁ h₂ hcolumns] at hperm
      have hlength := ((annualDonations_perm h₁ h₂).symm.trans hperm).length_eq
      rw [List.length_map, List.length_map] at hlength
      rw [← List.filter_sublist.eq_of_length hlength] at hmem
      exact ⟨rfl, of_decide_eq_true (List.mem_filter.mp hmem).2⟩
  · intro h year h₁ h₂
    cases hcolumns : db.taxColumns with
    | false =>
      have hnone : (db.rowsOf donor).filter
          (fun r ↦ Countable r.2 ∧ r.2.timestamp.year = year) = [] := by
        refine List.filter_eq_nil_iff.mpr fun r hr hcountable ↦ ?_
        rw [(h r hr (of_decide_eq_true hcountable).1).1] at hcolumns
        cases hcolumns
      rw [listed_of_no_columns hcolumns, hnone]
      exact .refl _
    | true =>
      have hall : ((db.rowsOf donor).filter
          fun r ↦ Countable r.2 ∧ r.2.timestamp.year = year).filter
            (fun r ↦ ¬r.2.timestamp.Misread) =
          (db.rowsOf donor).filter fun r ↦ Countable r.2 ∧ r.2.timestamp.year = year := by
        refine List.filter_eq_self.mpr fun r hr ↦ ?_
        obtain ⟨hr, hcountable⟩ := List.mem_filter.mp hr
        exact decide_eq_true (h r hr (of_decide_eq_true hcountable).1).2
      rw [listed_of_columns hdonor h₁ h₂ hcolumns, ← hall]
      exact annualDonations_perm h₁ h₂

theorem whole_natCast (d n : ℕ) : Whole d (n : ℚ) :=
  ⟨n * 10 ^ d, by push_cast; field_simp⟩

/-- A number of stroops is the number of XLM only when it is zero. -/
theorem natCast_eq_div_iff (n : ℕ) : (n : ℚ) = n / 10 ^ 7 ↔ n = 0 := by
  constructor
  · intro heq
    have hzero : (n : ℚ) = 0 := by linarith
    exact_mod_cast hzero
  · rintro rfl
    norm_num

/-- **The total of a summary is the sum in XLM exactly when no donation in it has an amount.** -/
theorem grandTotal_iff (h : db.getAnnualSummaryData donor year = .ok summary) :
    summary.grandTotalXlm = (summary.donations.map fun d ↦ xlm d.amount).sum ↔
      ∀ d ∈ summary.donations, d.amount = 0 := by
  obtain ⟨-, -, htotal⟩ := getAnnualSummaryData_eq_ok h
  have hcast : (summary.donations.map fun d ↦ (d.amount : ℚ)).sum =
      ((summary.donations.map (·.amount)).sum : ℕ) := by
    rw [Nat.cast_list_sum, List.map_map]
    rfl
  have hxlm : (summary.donations.map fun d ↦ xlm d.amount).sum =
      ((summary.donations.map (·.amount)).sum : ℕ) / 10 ^ 7 := by
    rw [← hcast, div_eq_mul_inv, ← List.sum_map_mul_right]
    rfl
  rw [htotal, hcast, hxlm, toFixed_of_whole (whole_natCast 7 _), natCast_eq_div_iff,
    List.sum_eq_zero_iff_forall_eq_nat, List.forall_mem_map]

end Summaries

/-- **The figures of a donor are right exactly when nothing of what he gave is affected**: the
columns are there, no donation that counts is at a moment that is misread, and none has an
amount. -/
theorem figures_right_iff (env : Env) (db : Db) (donor : String) (hdonor : donor ≠ "")
    (hwritten : ∀ r ∈ db.transactions.rows, Written r.2) :
    FiguresRight env db donor ↔ Unaffected db donor := by
  constructor
  · intro h r hr hcountable
    obtain ⟨hcolumns, hread⟩ := (listed_iff hdonor hwritten).mp h.listed r hr hcountable
    refine ⟨hcolumns, hread, ?_⟩
    -- the donation is in the summary of its year, whose total is right
    obtain ⟨h₁, h₂⟩ := (hwritten r (List.mem_filter.mp hr).1).year
    obtain ⟨summary, hsummary, hdonations⟩ :=
      getAnnualSummaryData_of_columns hdonor h₁ h₂ hcolumns
    have hmem : db.donation r ∈ summary.donations := by
      rw [hdonations]
      refine (annualDonations_perm h₁ h₂).mem_iff.mpr (List.mem_map_of_mem ?_)
      refine List.mem_filter.mpr ⟨List.mem_filter.mpr ⟨hr, ?_⟩, decide_eq_true hread⟩
      exact decide_eq_true ⟨hcountable, rfl⟩
    exact (grandTotal_iff hsummary).mp (h.totals hsummary) _ hmem
  · intro h
    refine ⟨fun {id d r db'} hd hdonor' hr ↦ ?_, ?_, fun {year summary} hsummary ↦ ?_⟩
    · -- a donation with a receipt counts
      obtain ⟨row, hrow, rfl, hstatus⟩ := getDonationForReceipt_eq_ok hd
      have hmem : (id, row) ∈ db.rowsOf donor :=
        List.mem_filter.mpr ⟨Table.get_eq_some_iff.mp hrow, decide_eq_true hdonor'⟩
      have hcountable : Countable row := by
        intro s hs hinvalid
        obtain ⟨hne, hlower⟩ := lower_invalidStatuses s hinvalid
        exact hstatus s hs hne (hlower.symm ▸ hinvalid)
      refine (receipt_right_iff hwritten hd hr).mpr ?_
      rw [show (db.donation (id, row)).amount = 0 from (h _ hmem hcountable).2.2]
      norm_num
    · exact (listed_iff hdonor hwritten).mpr fun r hr hc ↦ ⟨(h r hr hc).1, (h r hr hc).2.1⟩
    · -- what is listed counts
      refine (grandTotal_iff hsummary).mpr fun d hd ↦ ?_
      rw [(getAnnualSummaryData_eq_ok hsummary).2.1] at hd
      obtain ⟨r, hr, rfl⟩ := List.mem_map.mp hd
      obtain ⟨hrow, hsender, -, hcountable⟩ := selected_of_mem hr
      exact (h r (List.mem_filter.mpr ⟨hrow, decide_eq_true hsender⟩) hcountable).2.2

theorem newYear_valid : Civil.Valid 2026 1 1 10 30 0 := by decide

def newYear : Civil := Civil.of 2026 1 1 10 30 0 newYear_valid

/-- A donation of 100 XLM on that morning, with the time that the database has given it. -/
def sampleRow : TransactionRow where
  senderId := 1
  receiverId := 2
  amount := 1000000000
  timestamp := .sqlite newYear

/-- A database with this donation, and with the columns. -/
def sampleDb : Db where
  users := [⟨1, "GDONOR", none⟩, ⟨2, "GSHELTER", none⟩]
  transactions := Table.insert default sampleRow
  taxColumns := true

/-- A configured organization, and a price of 15 cents. -/
def sampleEnv : Env where
  organization := some { ein := "12-3456789", legalName := "Shelter" }
  getPriceAtTime := some fun _ ↦ .ok (15 / 100)
  nowIso := "2027-01-15T00:00:00.000Z"
  now := 1799971200000

theorem sampleDb_written : ∀ r ∈ sampleDb.transactions.rows, Written r.2 := by
  intro r hr
  obtain rfl : r = (1, sampleRow) := List.mem_singleton.mp hr
  exact ⟨by decide, fun hrate ↦ nomatch hrate⟩

theorem figures_right_iff_at :
    FiguresRight sampleEnv sampleDb "GDONOR" ↔ Unaffected sampleDb "GDONOR" :=
  figures_right_iff sampleEnv sampleDb "GDONOR" (by decide) sampleDb_written

/-- The donation is in no summary of the years around it, and its receipt of 150 million dollars
values 100 XLM. -/
theorem new_year_donation_lost :
    (∀ r ∈ sampleDb.transactions.rows, Written r.2) ∧
      sampleDb.listed "GDONOR" 2025 = [] ∧ sampleDb.listed "GDONOR" 2026 = [] ∧
      ((sampleDb.generateTaxReceiptData sampleEnv 1).toOption.map
        fun p ↦ p.1.financial.fairMarketValueUsd) = some 150000000 ∧
      ¬FiguresRight sampleEnv sampleDb "GDONOR" := by
  refine ⟨sampleDb_written, by decide +kernel, by decide +kernel, by decide +kernel, fun h ↦ ?_⟩
  have hrow : (1, sampleRow) ∈ sampleDb.rowsOf "GDONOR" :=
    List.mem_filter.mpr ⟨List.mem_singleton_self _, by decide⟩
  have hread := ((listed_iff (by decide) sampleDb_written).mp h.listed _ hrow (by decide)).2
  exact hread ⟨rfl, rfl⟩

end StellarDonations.TaxReceipts
