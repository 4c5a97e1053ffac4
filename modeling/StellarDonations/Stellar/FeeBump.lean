import Mathlib.Algebra.Order.Ring.Rat
import Mathlib.Tactic.Linarith
import StellarDonations.Concurrency.Run
import StellarDonations.Control.Except
import StellarDonations.Transactions.StateMachine

/-!
# Fee bumps

`FeeBumpService.feeBump`: a submitted transaction that is stuck is wrapped in a fee bump. The caller
gives the fee, or the network is asked for one, which is raised to twice the current fee when it is
not above it. The attempt is counted before it is made, so that failed attempts count as well.

The `catch` block saves the count and calls `.catch` on what `updateFeeBumpData` returns. That is
the record, not a promise, so the block ends there with a `TypeError`: an attempt that fails never
reports one of the service's own errors (`feeBump_error`). Nor is a given fee compared with the
current one. Except for that, fee bumps behave (`feeBumps_lawful_iff`).
-/

namespace StellarDonations.FeeBump

open Concurrency JsString Transactions

/-! ## The record -/

/-- The fields of a transaction that fee bumps use. -/
structure Transaction where
  id : String
  status : String
  stellarTxId : Option String
  envelopeXdr : Option String
  feeBumpCount : Option ℕ
  originalFee : Option ℚ
  currentFee : Option ℚ
  lastFeeBumpAt : Option String
  deletedAt : Option String
  deriving DecidableEq

/-- What `updateFeeBumpData` is given; a field may be `undefined`. -/
structure FeeBumpData where
  feeBumpCount : Option ℕ
  currentFee : Option ℚ
  lastFeeBumpAt : Option String
  envelopeXdr : Option String
  stellarTxId : Option String

def Transaction.updateFeeBumpData (tx : Transaction) (d : FeeBumpData) : Transaction :=
  { tx with
    feeBumpCount := d.feeBumpCount.or tx.feeBumpCount
    currentFee := d.currentFee.or tx.currentFee
    lastFeeBumpAt := d.lastFeeBumpAt.or tx.lastFeeBumpAt
    envelopeXdr := d.envelopeXdr.or tx.envelopeXdr
    stellarTxId := d.stellarTxId.or tx.stellarTxId }

def orNumber (a : Option ℚ) (b : ℚ) : ℚ := (a.filter (· ≠ 0)).getD b

/-! ## The service -/

def maxFeeBumpAttempts : ℕ := 3

def maxFeeCapStroops : ℕ := 1000000

structure Config where
  maxAttempts : Option ℕ
  maxFeeCapStroops : Option ℕ
  feeSourceSecret : Option String

structure FeeBumpService where
  maxAttempts : ℕ
  maxFeeCapStroops : ℕ
  feeSourceSecret : Option String
  /-- A number in a template. -/
  text : ℚ → String

def FeeBumpService.new (config : Config) (text : ℚ → String) : FeeBumpService where
  maxAttempts := (config.maxAttempts.filter (· ≠ 0)).getD maxFeeBumpAttempts
  maxFeeCapStroops := (config.maxFeeCapStroops.filter (· ≠ 0)).getD FeeBump.maxFeeCapStroops
  feeSourceSecret := orNull config.feeSourceSecret
  text := text

/-- What `buildAndSubmitFeeBumpTransaction` returns. -/
structure Submitted where
  hash : String
  envelopeXdr : String

/-- The arguments of a call, and how the network answers it. -/
structure Call where
  newFee : Option ℚ
  feeSourceSecret : Option String
  /-- `estimateFee(1)`, in stroops. -/
  estimateFee : Except AppError ℕ
  /-- `buildAndSubmitFeeBumpTransaction(envelopeXdr, newFeeStroops, feeSourceSecret)`. -/
  submit : String → ℚ → Option String → Except AppError Submitted
  now : String

/-- What `feeBump` returns. -/
structure Receipt where
  transactionId : String
  originalFee : Option ℚ
  newFee : ℚ
  feeBumpCount : ℕ
  hash : String

/-- How a call ends: the record, the fee that was submitted if any, and what the caller gets. -/
structure Outcome where
  tx : Transaction
  submitted : Option ℚ
  answer : Except AppError Receipt

/-- The checks before the attempt. They leave the envelope. -/
def checkState (svc : FeeBumpService) (tx : Transaction) : Except AppError String :=
  if truthy tx.deletedAt then
    .error (.notFound .transactionNotFound ("Transaction not found: " ++ tx.id))
  else if tx.status ≠ TransactionState.submitted.name then
    .error (.businessLogic .feeBumpInvalidState
      ("Transaction must be in submitted state to fee bump. Current state: " ++ tx.status))
  else
    match orNull tx.envelopeXdr with
    | none =>
      .error (.businessLogic .feeBumpNoEnvelope
        ("Transaction has no stored envelope XDR. " ++
          "Fee bump requires the original transaction envelope."))
    | some envelope =>
      if svc.maxAttempts ≤ tx.feeBumpCount.getD 0 then
        .error (.businessLogic .feeBumpMaxAttempts
          ("Transaction has reached maximum fee bump attempts (" ++ toString svc.maxAttempts ++
            "). Manual intervention required."))
      else .ok envelope

/-- The fee the network recommends, or twice the current one when it is not above that. -/
def raise (tx : Transaction) (estimate : ℕ) : ℚ :=
  if estimate ≤ orNumber tx.currentFee 0 then orNumber tx.currentFee 100 * 2 else estimate

/-- The fee of an attempt: the caller's, or the raised recommendation. -/
def chooseFee (tx : Transaction) (c : Call) : Except AppError ℚ :=
  match c.newFee with
  | some fee => .ok fee
  | none => c.estimateFee.map (raise tx)

def enforceCap (svc : FeeBumpService) (fee : ℚ) : Except AppError ℚ :=
  if (svc.maxFeeCapStroops : ℚ) < fee then
    .error (.businessLogic .feeBumpExceedsCap ("Fee " ++ svc.text fee ++ " stroops exceeds cap of "
      ++ toString svc.maxFeeCapStroops ++ " stroops (" ++ svc.text (svc.maxFeeCapStroops / 10 ^ 7)
      ++ " XLM)."))
  else .ok fee

def feeSource (svc : FeeBumpService) (c : Call) : Option String :=
  (orNull c.feeSourceSecret).or svc.feeSourceSecret

/-- The `try` block up to the answer of the network: the fee that was submitted, if any, and the
fee with what the network returned. -/
def attempt (svc : FeeBumpService) (tx : Transaction) (envelope : String) (c : Call) :
    Option ℚ × Except AppError (ℚ × Submitted) :=
  match chooseFee tx c >>= enforceCap svc with
  | .error e => (none, .error e)
  | .ok fee => (some fee, (c.submit envelope fee (feeSource svc c)).map (fee, ·))

/-- `tx.feeBumpCount` with this attempt. -/
def attemptCount (tx : Transaction) : ℕ := tx.feeBumpCount.getD 0 + 1

/-- The record after a bump that the network accepted. -/
def applied (tx : Transaction) (c : Call) (fee : ℚ) (result : Submitted) : Transaction :=
  tx.updateFeeBumpData ⟨attemptCount tx, fee, c.now, result.envelopeXdr, result.hash⟩

/-- The record after a failed attempt: the current fee stays. -/
def counted (tx : Transaction) (c : Call) : Transaction :=
  tx.updateFeeBumpData ⟨attemptCount tx, none, c.now, none, none⟩

/-- The engine's error for calling `.catch` on a record. -/
def noCatch : AppError := .wrongType "Transaction.updateFeeBumpData(...).catch is not a function"

def feeBump (svc : FeeBumpService) (tx : Transaction) (c : Call) : Outcome :=
  match checkState svc tx with
  | .error e => ⟨tx, none, .error e⟩
  | .ok envelope =>
    match attempt svc tx envelope c with
    | (submitted, .ok (fee, result)) =>
      ⟨applied tx c fee result, submitted, .ok
        { transactionId := tx.id
          originalFee := (tx.currentFee.filter (· ≠ 0)).or tx.originalFee
          newFee := fee
          feeBumpCount := attemptCount tx
          hash := result.hash }⟩
    -- the count is saved, and the block ends before it looks at the error
    | (submitted, .error _) => ⟨counted tx c, submitted, .error noCatch⟩

/-- The codes of the service's own errors. -/
def feeBumpCodes : List ErrorCode :=
  [.feeBumpInvalidState, .feeBumpNoEnvelope, .feeBumpMaxAttempts, .feeBumpExceedsCap,
    .feeBumpFailed]

def IsFeeBumpError (e : AppError) : Prop :=
  e.name = .businessLogicError ∧ ∃ code ∈ feeBumpCodes, e.errorCode = some code

/-! ## What a call can do -/

section Calls

variable {svc : FeeBumpService} {tx : Transaction} {c : Call} {envelope : String}

theorem checkState_eq_ok (h : checkState svc tx = .ok envelope) :
    tx.feeBumpCount.getD 0 < svc.maxAttempts := by
  rw [checkState] at h
  obtain ⟨-, h⟩ := Except.guard_not_eq_ok.mp h
  obtain ⟨-, h⟩ := Except.guard_not_eq_ok.mp h
  split at h
  · cases h
  · exact not_le.mp (Except.guard_not_eq_ok.mp h).1

theorem not_deleted_of_checkState (h : checkState svc tx = .ok envelope) :
    truthy tx.deletedAt = false := by
  rw [checkState] at h
  exact Bool.eq_false_iff.mpr (Except.guard_not_eq_ok.mp h).1

theorem enforceCap_eq_ok {fee fee' : ℚ} :
    enforceCap svc fee = .ok fee' ↔ fee ≤ svc.maxFeeCapStroops ∧ fee = fee' := by
  rw [enforceCap, Except.guard_not_eq_ok, Except.ok.injEq, not_lt]

/-- A fee that is chosen without the caller is above the current one. -/
theorem lt_raise {fee : ℚ} (h : tx.currentFee = some fee) (estimate : ℕ) :
    fee < raise tx estimate := by
  have hor : ∀ b, orNumber tx.currentFee b = if fee = 0 then b else fee := by
    intro b
    rw [orNumber, h]
    by_cases hzero : fee = 0 <;> simp [Option.filter, hzero]
  have hestimate : (0 : ℚ) ≤ estimate := Nat.cast_nonneg estimate
  rw [raise, hor, hor]
  by_cases hzero : fee = 0
  · rw [if_pos hzero, if_pos hzero, hzero]
    split_ifs with hle
    · norm_num
    · exact not_le.mp hle
  · rw [if_neg hzero, if_neg hzero]
    split_ifs with hle
    · have hpos : 0 < fee := lt_of_le_of_ne (hestimate.trans hle) (Ne.symm hzero)
      linarith
    · exact not_le.mp hle

theorem attempt_eq_ok {submitted : Option ℚ} {fee : ℚ} {result : Submitted} :
    attempt svc tx envelope c = (submitted, .ok (fee, result)) ↔
      submitted = some fee ∧ chooseFee tx c = .ok fee ∧ fee ≤ svc.maxFeeCapStroops ∧
        c.submit envelope fee (feeSource svc c) = .ok result := by
  rw [attempt]
  cases hfee : chooseFee tx c >>= enforceCap svc with
  | error e =>
    refine iff_of_false (by rintro ⟨⟩) fun ⟨_, hchoose, hcap, _⟩ ↦ ?_
    have hok := Except.bind_eq_ok.mpr ⟨fee, hchoose, enforceCap_eq_ok.mpr ⟨hcap, rfl⟩⟩
    rw [hfee] at hok
    cases hok
  | ok fee' =>
    obtain ⟨chosen, hchoose, hcap⟩ := Except.bind_eq_ok.mp hfee
    obtain ⟨hle, rfl⟩ := enforceCap_eq_ok.mp hcap
    rw [Prod.mk.injEq, Except.map_eq_ok]
    constructor
    · rintro ⟨rfl, r, hsubmit, hpair⟩
      obtain ⟨rfl, rfl⟩ := Prod.mk.inj hpair
      exact ⟨rfl, hchoose, hle, hsubmit⟩
    · rintro ⟨rfl, hchoose', -, hsubmit⟩
      obtain rfl : chosen = fee := Except.ok.inj (hchoose.symm.trans hchoose')
      exact ⟨rfl, result, hsubmit, rfl⟩

/-- A call is refused by the checks, fails in the attempt, or succeeds. -/
theorem feeBump_cases (svc : FeeBumpService) (tx : Transaction) (c : Call) :
    (∃ e, checkState svc tx = .error e ∧ feeBump svc tx c = ⟨tx, none, .error e⟩) ∨
    (∃ envelope submitted e, checkState svc tx = .ok envelope ∧
      attempt svc tx envelope c = (submitted, .error e) ∧
      feeBump svc tx c = ⟨counted tx c, submitted, .error noCatch⟩) ∨
    (∃ envelope fee result receipt, checkState svc tx = .ok envelope ∧
      attempt svc tx envelope c = (some fee, .ok (fee, result)) ∧ receipt.newFee = fee ∧
      feeBump svc tx c = ⟨applied tx c fee result, some fee, .ok receipt⟩) := by
  rw [feeBump]
  cases hcheck : checkState svc tx with
  | error e => exact .inl ⟨e, rfl, rfl⟩
  | ok envelope =>
    match hattempt : attempt svc tx envelope c with
    | (submitted, .error e) =>
      refine .inr (.inl ⟨envelope, submitted, e, rfl, hattempt, ?_⟩)
      simp only [hattempt]
    | (submitted, .ok (fee, result)) =>
      obtain ⟨rfl, -⟩ := attempt_eq_ok.mp hattempt
      let receipt : Receipt :=
        ⟨tx.id, (tx.currentFee.filter (· ≠ 0)).or tx.originalFee, fee, attemptCount tx, result.hash⟩
      refine .inr (.inr ⟨envelope, fee, result, receipt, rfl, hattempt, rfl, ?_⟩)
      simp only [hattempt, receipt]

theorem checkState_eq_error {e : AppError} (h : checkState svc tx = .error e) :
    IsFeeBumpError e ↔ truthy tx.deletedAt = false := by
  rw [checkState] at h
  split at h
  · next hdeleted =>
    obtain rfl := Except.error.inj h
    refine iff_of_false (fun he ↦ ?_) (by simp [hdeleted])
    cases he.1
  · next hdeleted =>
    refine iff_of_true ?_ (Bool.eq_false_iff.mpr hdeleted)
    split at h
    · obtain rfl := Except.error.inj h
      exact ⟨rfl, _, by simp [feeBumpCodes], rfl⟩
    · split at h
      · obtain rfl := Except.error.inj h
        exact ⟨rfl, _, by simp [feeBumpCodes], rfl⟩
      · split at h
        · obtain rfl := Except.error.inj h
          exact ⟨rfl, _, by simp [feeBumpCodes], rfl⟩
        · cases h

/-- **What a failed call reports.** The error of a check, or the `TypeError` of the `catch` block:
never that the cap is exceeded or that the bump failed. -/
theorem feeBump_error {e : AppError} (h : (feeBump svc tx c).answer = .error e) :
    checkState svc tx = .error e ∨
      (∃ envelope, checkState svc tx = .ok envelope) ∧ e = noCatch := by
  obtain ⟨e', hcheck, hr⟩ | ⟨envelope, submitted, e', hcheck, -, hr⟩ |
    ⟨envelope, fee, result, receipt, -, -, -, hr⟩ := feeBump_cases svc tx c
  · rw [hr] at h
    obtain rfl : e' = e := Except.error.inj h
    exact .inl hcheck
  · rw [hr] at h
    exact .inr ⟨⟨envelope, hcheck⟩, (Except.error.inj h).symm⟩
  · rw [hr] at h
    cases h

end Calls

/-! ## Sequences of calls -/

/-- The record, the fee of the last bump that succeeded, and how many bumps were submitted. -/
structure State where
  tx : Transaction
  lastFee : Option ℚ
  submissions : ℕ

def initial (tx : Transaction) : State := ⟨tx, none, 0⟩

def step (svc : FeeBumpService) (s : State) (c : Call) : State where
  tx := (feeBump svc s.tx c).tx
  lastFee :=
    match (feeBump svc s.tx c).answer with
    | .ok receipt => some receipt.newFee
    | .error _ => s.lastFee
  submissions := s.submissions + (feeBump svc s.tx c).submitted.toList.length

/-- What a call promises: it submits a fee above that of the last bump and within the cap, and when
it fails it keeps the record, counts an attempt, and reports an error of the service. -/
structure LawfulCall (svc : FeeBumpService) (s : State) (c : Call) : Prop where
  rising : ∀ fee, (feeBump svc s.tx c).submitted = some fee → ∀ last, s.lastFee = some last →
    last < fee
  capped : ∀ fee, (feeBump svc s.tx c).submitted = some fee → fee ≤ svc.maxFeeCapStroops
  kept : ∀ e, (feeBump svc s.tx c).answer = .error e →
    (feeBump svc s.tx c).tx.status = s.tx.status ∧
      (feeBump svc s.tx c).tx.envelopeXdr = s.tx.envelopeXdr ∧
      (feeBump svc s.tx c).tx.currentFee = s.tx.currentFee ∧
      (feeBump svc s.tx c).tx.stellarTxId = s.tx.stellarTxId
  attempts : ∀ e, (feeBump svc s.tx c).answer = .error e → (checkState svc s.tx).isOk →
    (feeBump svc s.tx c).tx.feeBumpCount = some (s.tx.feeBumpCount.getD 0 + 1)
  business : ∀ e, (feeBump svc s.tx c).answer = .error e → IsFeeBumpError e

/-- The call asks for this fee: given, and above that of the last bump, or estimated. -/
def Asks (s : State) (c : Call) (fee : ℚ) : Prop :=
  (c.newFee = some fee ∧ ∀ last, s.lastFee = some last → last < fee) ∨
    (c.newFee = none ∧ ∃ estimate, c.estimateFee = .ok estimate ∧ raise s.tx estimate = fee)

/-- The call meets a record that is there, and when it gets past the checks it asks for a fee within
the cap, which the network accepts. -/
structure Undisturbed (svc : FeeBumpService) (s : State) (c : Call) : Prop where
  present : truthy s.tx.deletedAt = false
  accepted : ∀ envelope, checkState svc s.tx = .ok envelope →
    ∃ fee result, Asks s c fee ∧ fee ≤ svc.maxFeeCapStroops ∧
      c.submit envelope fee (feeSource svc c) = .ok result

structure Counts (svc : FeeBumpService) (s : State) : Prop where
  current : ∀ last, s.lastFee = some last → s.tx.currentFee = some last
  attempts : s.submissions ≤ s.tx.feeBumpCount.getD 0
  bounded : s.submissions ≤ svc.maxAttempts

section Runs

variable {svc : FeeBumpService} {s : State} {c : Call}

theorem counts_initial (svc : FeeBumpService) (tx : Transaction) : Counts svc (initial tx) := by
  refine ⟨fun last h ↦ ?_, Nat.zero_le _, Nat.zero_le _⟩
  cases h

theorem counts_step (h : Counts svc s) : Counts svc (step svc s c) := by
  obtain ⟨e, -, hr⟩ | ⟨envelope, submitted, e, hcheck, -, hr⟩ |
    ⟨envelope, fee, result, receipt, hcheck, -, hfee, hr⟩ := feeBump_cases svc s.tx c
  · simp only [step, hr, Option.toList_none, List.length_nil, Nat.add_zero]
    exact h
  · have hcount := checkState_eq_ok hcheck
    have hattempts := h.attempts
    have hlength : submitted.toList.length ≤ 1 := by cases submitted <;> simp
    simp only [step, hr]
    refine ⟨fun last hlast ↦ ?_, ?_, ?_⟩
    · exact (Option.none_or).trans (h.current last hlast)
    · change s.submissions + submitted.toList.length ≤ attemptCount s.tx
      rw [attemptCount]
      omega
    · change s.submissions + submitted.toList.length ≤ svc.maxAttempts
      omega
  · have hcount := checkState_eq_ok hcheck
    have hattempts := h.attempts
    simp only [step, hr, Option.toList_some, List.length_singleton]
    refine ⟨fun last hlast ↦ ?_, ?_, ?_⟩
    · obtain rfl : receipt.newFee = last := Option.some.inj hlast
      rw [hfee]
      rfl
    · change s.submissions + 1 ≤ attemptCount s.tx
      rw [attemptCount]
      omega
    · change s.submissions + 1 ≤ svc.maxAttempts
      omega

/-- What `chooseFee` finds is what the call asks for, since an estimate is raised above the last
fee. -/
theorem asks_iff (h : Counts svc s) {fee : ℚ} :
    Asks s c fee ↔ chooseFee s.tx c = .ok fee ∧ ∀ last, s.lastFee = some last → last < fee := by
  rw [Asks, chooseFee]
  cases c.newFee with
  | some given => simp only [Option.some.injEq, Except.ok.injEq, reduceCtorEq, false_and, or_false]
  | none =>
    simp only [reduceCtorEq, false_and, false_or, true_and, Except.map_eq_ok]
    refine iff_self_and.mpr ?_
    rintro ⟨estimate, -, rfl⟩ last hlast
    exact lt_raise (h.current last hlast) estimate

/-- **One call.** It is as it should be exactly when nothing disturbs it. -/
theorem lawfulCall_iff (h : Counts svc s) : LawfulCall svc s c ↔ Undisturbed svc s c := by
  obtain ⟨e, hcheck, hr⟩ | ⟨envelope, submitted, e, hcheck, hattempt, hr⟩ |
    ⟨envelope, fee, result, receipt, hcheck, hattempt, hfee, hr⟩ := feeBump_cases svc s.tx c
  · -- refused: the record is as before, and the error is that of the check
    constructor
    · intro hlawful
      refine ⟨(checkState_eq_error hcheck).mp (hlawful.business e (by rw [hr])), ?_⟩
      intro envelope henvelope
      cases hcheck.symm.trans henvelope
    · intro hmeets
      have hbusiness := (checkState_eq_error hcheck).mpr hmeets.present
      constructor <;> rw [hr]
      · rintro fee ⟨⟩
      · rintro fee ⟨⟩
      · exact fun _ _ ↦ ⟨rfl, rfl, rfl, rfl⟩
      · rw [hcheck]
        rintro e' - ⟨⟩
      · rintro e' ⟨⟩
        exact hbusiness
  · -- failed: the error is the one of the `catch` block
    refine iff_of_false (fun hlawful ↦ ?_) fun hmeets ↦ ?_
    · cases (hlawful.business noCatch (by rw [hr])).1
    · obtain ⟨fee, result, hasks, hcap, hsubmit⟩ := hmeets.accepted envelope hcheck
      have hchoose := ((asks_iff h).mp hasks).1
      have hok := attempt_eq_ok.mpr ⟨rfl, hchoose, hcap, hsubmit⟩
      cases hattempt.symm.trans hok
  · obtain ⟨-, hchoose, hcap, hsubmit⟩ := attempt_eq_ok.mp hattempt
    constructor
    · intro hlawful
      have hrising := hlawful.rising fee (by rw [hr])
      refine ⟨not_deleted_of_checkState hcheck, fun envelope' henvelope ↦ ?_⟩
      obtain rfl : envelope = envelope' := Except.ok.inj (hcheck.symm.trans henvelope)
      exact ⟨fee, result, (asks_iff h).mpr ⟨hchoose, hrising⟩, hcap, hsubmit⟩
    · intro hmeets
      obtain ⟨fee', result', hasks, -, -⟩ := hmeets.accepted envelope hcheck
      obtain ⟨hchoose', hrising⟩ := (asks_iff h).mp hasks
      obtain rfl : fee = fee' := Except.ok.inj (hchoose.symm.trans hchoose')
      constructor <;> rw [hr]
      · rintro _ ⟨⟩
        exact hrising
      · rintro _ ⟨⟩
        exact hcap
      · rintro e ⟨⟩
      · rintro e ⟨⟩
      · rintro e ⟨⟩

/-- **Fee bumps.** In a sequence of calls no more bumps are submitted than attempts are allowed, and
every call is as it should be, exactly when every call meets a record that is there and, past the
checks, asks for a fee above that of the last bump and within the cap, which the network accepts. -/
theorem feeBumps_lawful_iff (svc : FeeBumpService) (tx : Transaction) (calls : List Call) :
    Always (step svc) (fun s ↦ s.submissions ≤ svc.maxAttempts) (initial tx) calls ∧
        Along (step svc) (LawfulCall svc) (initial tx) calls ↔
      Along (step svc) (Undisturbed svc) (initial tx) calls := by
  have hcounts : Always (step svc) (Counts svc) (initial tx) calls :=
    always_of_step (fun _ _ ↦ counts_step) (counts_initial svc tx) calls
  have hbounded := hcounts.mono fun _ h ↦ h.bounded
  rw [and_iff_right hbounded]
  have hcall : ∀ s c, Counts svc s → (LawfulCall svc s c ↔ Undisturbed svc s c) :=
    fun _ _ h ↦ lawfulCall_iff h
  exact along_congr hcall (fun _ _ h _ ↦ counts_step h) (counts_initial svc tx) calls

end Runs

/-! ## A network that fails -/

/-- A submitted transaction that has not been bumped. -/
def stuck : Transaction where
  id := "t1"
  status := "submitted"
  stellarTxId := some "h0"
  envelopeXdr := some "e0"
  feeBumpCount := some 0
  originalFee := some 100
  currentFee := some 100
  lastFeeBumpAt := none
  deletedAt := none

/-- A bump that the network does not answer. -/
def timedOut : Call where
  newFee := some 200
  feeSourceSecret := some "S"
  estimateFee := .ok 100
  submit := fun _ _ _ ↦ .error (.plain "Horizon timeout")
  now := "2024-01-01T00:00:00.000Z"

/-- The caller of a bump that failed is not told so. -/
theorem timedOut_not_reported :
    ¬(Always (step (.new ⟨none, none, none⟩ fun _ ↦ "0.1"))
        (fun s ↦ s.submissions ≤ 3) (initial stuck) [timedOut] ∧
      Along (step (.new ⟨none, none, none⟩ fun _ ↦ "0.1"))
        (LawfulCall (.new ⟨none, none, none⟩ fun _ ↦ "0.1")) (initial stuck) [timedOut]) := by
  rintro ⟨-, hlawful, -⟩
  cases (hlawful.business noCatch rfl).1

end StellarDonations.FeeBump
