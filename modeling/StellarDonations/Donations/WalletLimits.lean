import StellarDonations.Donations.Custodial
import StellarDonations.Donations.Validation
import StellarDonations.Time.Calendar

/-!
# Limits of a wallet

`LimitService.checkLimits`: a donation must stay within the limit for one transaction, and together
with what the sender has donated so far within the limits of the day and of the month. The limits
and the amount are in XLM. What has been donated is the sum of a column of `transactions`, and
`sendCustodialDonation` writes the amounts of that column in stroops (`totalIn_written`). The
sum is `10⁷` times what it is compared with.
-/

namespace StellarDonations.Limits

open Custodial Decimal Stellar

/-- The columns of `users` that hold limits. -/
structure Wallet where
  id : ℕ
  dailyLimit : Option ℚ
  monthlyLimit : Option ℚ
  perTransactionLimit : Option ℚ
  deriving DecidableEq

/-! ## The periods -/

/-- `date(timestamp) = date('now')`. -/
def sameDay (now timestamp : ℕ) : Bool := Calendar.day timestamp = Calendar.day now

/-- `strftime('%Y-%m', timestamp) = strftime('%Y-%m', 'now')`. -/
def sameMonth (now timestamp : ℕ) : Bool :=
  let date := Calendar.civilFromDays (Calendar.day timestamp)
  let today := Calendar.civilFromDays (Calendar.day now)
  date.year = today.year && date.month = today.month

/-! ## The check -/

/-- `SELECT COALESCE(SUM(amount), 0) … WHERE senderId = ?`, for the rows of a period. -/
def totalIn (period : ℕ → Bool) (rows : List TransactionRow) (userId : ℕ) : ℤ :=
  ((rows.filter fun r ↦ r.senderId = userId && period r.timestamp).map (·.amount)).sum

def getDailyTotal (rows : List TransactionRow) (userId now : ℕ) : ℤ :=
  totalIn (sameDay now) rows userId

def getMonthlyTotal (rows : List TransactionRow) (userId now : ℕ) : ℤ :=
  totalIn (sameMonth now) rows userId

/-- The limit for one transaction: the wallet's, or the configured maximum. -/
def perTxLimit (cfg : Donations.Config) (w : Wallet) : ℚ := w.perTransactionLimit.getD cfg.maxAmount

/-- The limit of a day: the wallet's, or the configured one, where zero means none. -/
def dailyLimit (cfg : Donations.Config) (w : Wallet) : Option ℚ :=
  w.dailyLimit.or (if 0 < cfg.maxDailyPerDonor then some cfg.maxDailyPerDonor else none)

def limitExceeded (message : String) : AppError := .businessLogic .invalidAmount message

def checkPeriod (cfg : Donations.Config) (name : String) (limit : Option ℚ) (total : ℤ)
    (amount : ℚ) : Except AppError Unit :=
  match limit with
  | none => .ok ()
  | some limit =>
    if limit < total + amount then
      .error (limitExceeded ("Donation would exceed " ++ name ++ " limit of " ++
        cfg.showNumber limit ++ ". Used: " ++ cfg.showNumber total ++ ", Requested: " ++
        cfg.showNumber amount))
    else .ok ()

def checkLimits (cfg : Donations.Config) (wallets : List Wallet) (rows : List TransactionRow)
    (userId : ℕ) (amount : ℚ) (now : ℕ) : Except AppError Unit :=
  match wallets.find? (·.id = userId) with
  | none => .ok ()
  | some w => do
    if perTxLimit cfg w < amount then
      throw (limitExceeded ("Donation amount " ++ cfg.showNumber amount ++
        " exceeds per-transaction limit of " ++ cfg.showNumber (perTxLimit cfg w)))
    checkPeriod cfg "daily" (dailyLimit cfg w) (getDailyTotal rows userId now) amount
    checkPeriod cfg "monthly" w.monthlyLimit (getMonthlyTotal rows userId now) amount

theorem checkPeriod_eq_ok {cfg : Donations.Config} {name : String} {limit : Option ℚ} {total : ℤ}
    {amount : ℚ} :
    checkPeriod cfg name limit total amount = .ok () ↔ ∀ l ∈ limit, total + amount ≤ l := by
  cases limit with
  | none => simp [checkPeriod]
  | some l => simp [checkPeriod, ← not_lt]

theorem checkLimits_eq_ok {cfg : Donations.Config} {wallets : List Wallet}
    {rows : List TransactionRow} {userId now : ℕ} {amount : ℚ} {w : Wallet}
    (hw : wallets.find? (·.id = userId) = some w) :
    checkLimits cfg wallets rows userId amount now = .ok () ↔
      amount ≤ perTxLimit cfg w ∧
      (∀ l ∈ dailyLimit cfg w, getDailyTotal rows userId now + amount ≤ l) ∧
      ∀ l ∈ w.monthlyLimit, getMonthlyTotal rows userId now + amount ≤ l := by
  rw [checkLimits, hw]
  rcases lt_or_ge (perTxLimit cfg w) amount with h | h
  · refine iff_of_false (fun hok ↦ ?_) fun hle ↦ absurd hle.1 h.not_ge
    simp only [h, if_true] at hok
    cases hok
  · simp only [h.not_gt, if_false, h, true_and, Except.bind_const_eq_ok, checkPeriod_eq_ok]

/-! ## Histories -/

/-- A custodial donation that was paid. The network takes only a positive whole number of
stroops. -/
structure Donation where
  args : Args
  result : PaymentResult
  /-- The environment of the SQL transaction, with the time of its row. -/
  env : Env
  positive : 0 < args.amount
  whole : Whole 7 args.amount

def Donation.isXlm (d : Donation) : Bool := d.args.asset.all (·.isNative)

/-- The rows that `sendCustodialDonation` has written for a history, the latest donation first. -/
inductive Written (svc : Services) : List Donation → List TransactionRow → Prop where
  | nil : Written svc [] []
  | donate {ds : List Donation} {d : Donation} {sh sh' : Shared} {dbId : ℕ}
      (earlier : Written svc ds sh.transactions)
      (committed : commit svc sh d.args d.result d.env = .ok (sh', dbId)) :
      Written svc (d :: ds) sh'.transactions

def donated (period : ℕ → Bool) (ds : List Donation) (userId : ℕ) : List Donation :=
  ds.filter fun d ↦ d.args.senderId = userId && period d.env.now

/-- The XLM a sender has donated in a period. -/
def xlmTotal (period : ℕ → Bool) (ds : List Donation) (userId : ℕ) : ℚ :=
  (((donated period ds userId).filter (·.isXlm)).map (·.args.amount)).sum

/-- What a sender has donated in a period, whatever the asset. -/
def assetTotal (period : ℕ → Bool) (ds : List Donation) (userId : ℕ) : ℚ :=
  ((donated period ds userId).map (·.args.amount)).sum

/-- The limits that are set leave room for the amount after these totals of day and month. -/
def Room (cfg : Donations.Config) (w : Wallet) (daily monthly amount : ℚ) : Prop :=
  (∀ l ∈ dailyLimit cfg w, daily + amount ≤ l) ∧ ∀ l ∈ w.monthlyLimit, monthly + amount ≤ l

instance (cfg : Donations.Config) (w : Wallet) (daily monthly amount : ℚ) :
    Decidable (Room cfg w daily monthly amount) :=
  inferInstanceAs (Decidable (_ ∧ _))

def WithinLimits (cfg : Donations.Config) (w : Wallet) (ds : List Donation) (userId now : ℕ)
    (amount : ℚ) : Prop :=
  amount ≤ perTxLimit cfg w ∧
    Room cfg w (xlmTotal (sameDay now) ds userId) (xlmTotal (sameMonth now) ds userId) amount

instance (cfg : Donations.Config) (w : Wallet) (ds : List Donation) (userId now : ℕ) (amount : ℚ) :
    Decidable (WithinLimits cfg w ds userId now amount) :=
  inferInstanceAs (Decidable (_ ∧ _))

theorem Donation.amountStroops_eq (d : Donation) :
    (amountStroops d.args : ℚ) = 10 ^ 7 * d.args.amount := by
  have hround := roundHalfUp_of_whole d.whole
  rw [roundHalfUp, div_eq_iff (by positivity)] at hround
  rw [amountStroops, hround, mul_comm]

theorem totalIn_concat (period : ℕ → Bool) (rows : List TransactionRow) (row : TransactionRow)
    (userId : ℕ) :
    totalIn period (rows ++ [row]) userId = totalIn period rows userId +
      if row.senderId = userId && period row.timestamp then row.amount else 0 := by
  rw [totalIn, List.filter_append, List.map_append, List.sum_append, ← totalIn,
    List.filter_cons, List.filter_nil]
  split_ifs
  · rw [List.map_singleton, List.sum_singleton]
  · rfl

theorem assetTotal_cons (period : ℕ → Bool) (d : Donation) (ds : List Donation) (userId : ℕ) :
    assetTotal period (d :: ds) userId =
      (if d.args.senderId = userId && period d.env.now then d.args.amount else 0) +
        assetTotal period ds userId := by
  rw [assetTotal, donated, List.filter_cons]
  split_ifs with h
  · rw [List.map_cons, List.sum_cons, assetTotal, donated]
  · rw [zero_add, assetTotal, donated]

/-- The column is in stroops: its sum is `10⁷` times what was donated, in whatever asset. -/
theorem totalIn_written {svc : Services} {ds : List Donation} {rows : List TransactionRow}
    (h : Written svc ds rows) (period : ℕ → Bool) (userId : ℕ) :
    (totalIn period rows userId : ℚ) = 10 ^ 7 * assetTotal period ds userId := by
  induction h with
  | nil => simp [totalIn, assetTotal, donated]
  | @donate ds d sh sh' dbId earlier committed ih =>
    obtain ⟨-, -, -, rfl⟩ := commit_eq_ok committed
    rw [Shared.incrementTotal, totalIn_concat, assetTotal_cons, Int.cast_add, ih, mul_add, add_comm]
    congr 1
    -- the new row carries the sender and the time of the donation, and its amount in stroops
    by_cases hmine : (d.args.senderId = userId && period d.env.now) = true
    · rw [if_pos hmine, ← d.amountStroops_eq]
      exact congrArg _ (if_pos hmine)
    · rw [if_neg hmine, mul_zero, ← Int.cast_zero]
      exact congrArg _ (if_neg hmine)

/-! ## The check against a history -/

theorem assetTotal_nonneg (period : ℕ → Bool) (ds : List Donation) (userId : ℕ) :
    0 ≤ assetTotal period ds userId := by
  refine List.sum_nonneg fun x hx ↦ ?_
  obtain ⟨d, -, rfl⟩ := List.mem_map.mp hx
  exact d.positive.le

theorem xlmTotal_le (period : ℕ → Bool) (ds : List Donation) (userId : ℕ) :
    xlmTotal period ds userId ≤ assetTotal period ds userId := by
  refine List.Sublist.sum_le_sum (List.filter_sublist.map _) fun x hx ↦ ?_
  obtain ⟨d, -, rfl⟩ := List.mem_map.mp hx
  exact d.positive.le

theorem Room.mono {cfg : Donations.Config} {w : Wallet} {daily monthly daily' monthly' amount : ℚ}
    (h : Room cfg w daily' monthly' amount) (hdaily : daily ≤ daily')
    (hmonthly : monthly ≤ monthly') : Room cfg w daily monthly amount := by
  constructor
  · intro l hl
    linarith [h.1 l hl]
  · intro l hl
    linarith [h.2 l hl]

/-- The check counts every XLM of the history, and every unit of another asset, `10⁷` times. It
answers as the limits in XLM do exactly when they forbid the amount anyway or leave room for the
history counted that way. -/
theorem checkLimits_iff_withinLimits {cfg : Donations.Config} {wallets : List Wallet}
    {svc : Services} {ds : List Donation} {rows : List TransactionRow} {userId now : ℕ} {w : Wallet}
    (amount : ℚ) (hw : wallets.find? (·.id = userId) = some w) (hrows : Written svc ds rows) :
    (checkLimits cfg wallets rows userId amount now = .ok () ↔
        WithinLimits cfg w ds userId now amount) ↔
      (WithinLimits cfg w ds userId now amount →
        Room cfg w (10 ^ 7 * assetTotal (sameDay now) ds userId)
          (10 ^ 7 * assetTotal (sameMonth now) ds userId) amount) := by
  have hle (period : ℕ → Bool) :
      xlmTotal period ds userId ≤ 10 ^ 7 * assetTotal period ds userId := by
    linarith [xlmTotal_le period ds userId, assetTotal_nonneg period ds userId]
  have hcheck : checkLimits cfg wallets rows userId amount now = .ok () ↔
      amount ≤ perTxLimit cfg w ∧ Room cfg w (10 ^ 7 * assetTotal (sameDay now) ds userId)
        (10 ^ 7 * assetTotal (sameMonth now) ds userId) amount := by
    rw [checkLimits_eq_ok hw, getDailyTotal, getMonthlyTotal, totalIn_written hrows,
      totalIn_written hrows, Room]
  rw [hcheck]
  constructor
  · intro h hwithin
    exact (h.mpr hwithin).2
  · intro h
    constructor
    · intro hok
      exact ⟨hok.1, hok.2.mono (hle _) (hle _)⟩
    · intro hwithin
      exact ⟨hwithin.1, h hwithin⟩

section Examples

/-- A maximum of 1000 XLM for one donation, and no limits of a day. -/
def plainConfig : Donations.Config where
  minAmount := 0
  maxAmount := 1000
  maxDailyPerDonor := 0
  multisigThresholdXLM := none
  multisigRequiredApprovals := 2
  multisigApprovalWindowMs := 0
  showNumber _ := ""

def hundredADay : Wallet := ⟨1, some 100, none, none⟩

def paidFive : Donation where
  args := fiveXlm
  result := ⟨"t1", 7, some 8, none⟩
  env := okEnv "t1"
  positive := by decide
  whole := by decide +kernel

def paidFiveRows : List TransactionRow :=
  [transactionRow plainServices twoUsers fiveXlm ⟨"t1", 7, some 8, none⟩ 1000]

theorem written_paidFive : Written plainServices [paidFive] paidFiveRows := by
  have hnone : Written plainServices [] twoUsers.transactions := .nil
  exact hnone.donate (commit_of_unique rfl rfl)

/-- After 5 of 100 XLM another XLM is refused. -/
theorem checkLimits_refuses_second_donation :
    Written plainServices [paidFive] paidFiveRows ∧
      WithinLimits plainConfig hundredADay [paidFive] 1 1000 1 ∧
      checkLimits plainConfig [hundredADay] paidFiveRows 1 1 1000 ≠ .ok () :=
  ⟨written_paidFive, by decide +kernel, by decide +kernel⟩

/-- A limit of `10⁸` XLM leaves room even for `5 · 10⁷`. -/
theorem checkLimits_iff_withinLimits_at :
    checkLimits plainConfig [⟨1, some (10 ^ 8), none, none⟩] paidFiveRows 1 1 1000 = .ok () ↔
      WithinLimits plainConfig ⟨1, some (10 ^ 8), none, none⟩ [paidFive] 1 1000 1 :=
  (checkLimits_iff_withinLimits 1 (by decide) written_paidFive).mpr fun _ ↦
    by decide +kernel

end Examples

end StellarDonations.Limits
