import StellarDonations.Concurrency.Run
import StellarDonations.Transactions.Store
import StellarDonations.Users

/-!
# Refunds

`DonationService.refundDonation`: a confirmed donation is sent back by a reverse payment. The
function looks for a refund recorded under the caller's idempotency key, checks the donation's
status, the recipient's secret and the refund window, records the refund as pending, pays, completes
the record, and finally sets the donation's status to `refunded`.

That status is not one of the state machine's, so the last step always throws
(`refund_status_refused`): the money has moved, the refund row is completed, and the donation stays
confirmed. Hence the guard against a second refund never closes.
-/

namespace StellarDonations.Refund

open Concurrency JsString Stellar Transactions

/-! ## Tables and parameters -/

inductive RefundStatus where
  | pending
  | processing
  | failed
  | completed
  deriving DecidableEq, Repr

structure RefundRow where
  id : ℕ
  originalDonationId : String
  reverseTransactionId : String
  amount : ℚ
  reason : Option String
  notes : Option String
  idempotencyKey : Option String
  refundedAt : ℕ
  stellarLedger : Option ℕ
  status : RefundStatus
  deriving DecidableEq

/-- The cryptography behind the secrets, and the configured window. -/
structure Services where
  /-- `Keypair.fromSecret(secret).publicKey()`, which throws on a malformed secret. -/
  publicKeyOf : String → Option String
  decrypt : String → Except AppError String
  refundWindowHours : ℕ

/-- The state `refundDonation` reads and writes, and the reverse payments the network accepted. -/
structure World where
  store : Store
  users : List User
  refunds : List RefundRow
  reversals : List PaymentResult

structure Request where
  reason : Option String
  notes : Option String
  idempotencyKey : Option String
  recipientSecret : Option String
  now : ℕ
  answer : Answer

structure RefundResult where
  refundId : ℕ
  originalDonationId : String
  reverseTxId : String
  reverseLedger : Option ℕ
  amount : ℚ
  refundedAmount : Option ℚ
  analyticsFeeRetained : Option ℚ
  networkFeeDeducted : Option ℚ
  reason : Option String
  notes : Option String
  refundedAt : ℕ
  status : RefundStatus
  alreadyProcessed : Bool
  deriving DecidableEq

namespace World

/-- `SELECT * FROM refunds WHERE idempotency_key = ? LIMIT 1`, run only for a non-empty key. -/
def recordedRefund (w : World) (key : Option String) : Option RefundRow :=
  (orNull key).bind fun k ↦ w.refunds.find? (·.idempotencyKey = some k)

def nextRefundId (w : World) : ℕ := (w.refunds.map (·.id)).foldl max 0 + 1

def updateRefund (w : World) (id : ℕ) (f : RefundRow → RefundRow) : World :=
  { w with refunds := w.refunds.map fun r ↦ if r.id = id then f r else r }

end World

/-! ## The checks before the payment -/

/-- The caller's secret must belong to the account that received the donation. -/
def verifyRecipient (svc : Services) (donation : Record) (recipientSecret : Option String) :
    Except AppError Unit :=
  match orNull recipientSecret with
  | none => .ok ()
  | some secret =>
    match svc.publicKeyOf secret with
    | none => .error (.validation "recipientSecret is not a valid Stellar secret key")
    | some derived =>
      if donation.recipient = some derived then .ok ()
      else .error (.validation "recipientSecret does not match the original donation recipient")

/-- The donation is at most `refundWindowHours` old; hours are compared as exact fractions. -/
def insideWindow (svc : Services) (donation : Record) (now : ℕ) : Bool :=
  ((now : ℚ) - donation.timestamp) / 3600000 ≤ svc.refundWindowHours

def checkRefundWindow (svc : Services) (donation : Record) (now : ℕ) : Except AppError Unit :=
  if insideWindow svc donation now then .ok ()
  else .error (.businessLogic .refundWindowExpired
    ("Refund window has expired. Donations can only be refunded within "
      ++ toString svc.refundWindowHours ++ " hours of creation."))

/-- The secret that signs: the caller's, else the one of the custodial sender. -/
def resolveSecret (svc : Services) (users : List User) (donation : Record)
    (recipientSecret : Option String) : Except AppError String :=
  match orNull recipientSecret with
  | some secret => .ok secret
  | none =>
    match donation.senderId.filter (· ≠ 0) with
    | none => .error (.validation ("recipientSecret is required to refund this donation: the "
        ++ "donation has no associated custodial sender account. Provide the Stellar secret key of "
        ++ "the original recipient account to authorise the refund."))
    | some senderId => do
      let sender ← getUserById users senderId "Sender"
      let encrypted ← validateSenderSecret sender
      svc.decrypt encrypted

def getDonationById (st : Store) (id : String) : Except AppError Record :=
  match st.getById id with
  | some donation => .ok donation
  | none => .error (.notFound .donationNotFound "Donation not found")

def checkStatus (donation : Record) : Except AppError Unit :=
  if donation.status = "refunded" then
    .error (.duplicate .duplicateDonation "Donation has already been refunded")
  else if donation.status ≠ TransactionState.confirmed.name ∧ donation.status ≠ "completed" then
    .error (.businessLogic .transactionFailed ("Cannot refund donation with status \""
      ++ donation.status ++ "\". Only completed donations can be refunded."))
  else .ok ()

/-- What a call decides before it touches the database or the network. -/
inductive Decision where
  /-- Return the refund recorded under the caller's key. -/
  | replay (existing : RefundRow)
  /-- Send the donation back, signed with `secret`. -/
  | pay (donation : Record) (secret : String)

/-- The checks of `refundDonation`, in the order of the source. -/
def decision (svc : Services) (donationId : String) (w : World) (r : Request) :
    Except AppError Decision := do
  let donation ← getDonationById w.store donationId
  match w.recordedRefund r.idempotencyKey with
  | some existing => return .replay existing
  | none =>
    checkStatus donation
    verifyRecipient svc donation r.recipientSecret
    checkRefundWindow svc donation r.now
    let secret ← resolveSecret svc w.users donation r.recipientSecret
    return .pay donation secret

/-! ## The payment and what follows it -/

def replayResult (donationId : String) (existing : RefundRow) : RefundResult where
  refundId := existing.id
  originalDonationId := donationId
  reverseTxId := existing.reverseTransactionId
  reverseLedger := none
  amount := existing.amount
  refundedAmount := none
  analyticsFeeRetained := none
  networkFeeDeducted := none
  reason := existing.reason
  notes := none
  refundedAt := existing.refundedAt
  status := existing.status
  alreadyProcessed := true

/-- The row recorded before the payment is submitted. -/
def pendingRow (w : World) (donation : Record) (r : Request) : RefundRow where
  id := w.nextRefundId
  originalDonationId := donation.id
  reverseTransactionId := "pending_" ++ toString r.now
  amount := donation.amount
  reason := orNull r.reason
  notes := orNull r.notes
  idempotencyKey := orNull r.idempotencyKey
  refundedAt := r.now
  stellarLedger := none
  status := .pending

/-- The pending row is inserted and set to `processing`. -/
def beginRefund (w : World) (donation : Record) (r : Request) : World :=
  let row := pendingRow w donation r
  { w with refunds := w.refunds ++ [row] }.updateRefund row.id ({ · with status := .processing })

/-- The network accepted: the payment is made and the row completed. -/
def completeRefund (w : World) (refundId : ℕ) (result : PaymentResult) : World :=
  { w with reversals := w.reversals ++ [result] }.updateRefund refundId fun row ↦
    { row with
      reverseTransactionId := result.transactionId
      stellarLedger := some result.ledger
      status := .completed }

def analyticsFee (donation : Record) : ℚ :=
  donation.analyticsFee.getD (donation.amount * donation.analyticsFeePercentage.getD 0 / 100)

/-- The network fee in XLM: at least 100 is taken to be stroops. -/
def networkFee (result : PaymentResult) : ℚ :=
  let actualFee := result.fee.getD 100
  if 100 ≤ actualFee then actualFee / 10000000 else actualFee

def refundResult (donationId : String) (refundId : ℕ) (donation : Record) (r : Request)
    (result : PaymentResult) : RefundResult where
  refundId := refundId
  originalDonationId := donationId
  reverseTxId := result.transactionId
  reverseLedger := some result.ledger
  amount := donation.amount
  refundedAmount := if 0 < donation.amount - analyticsFee donation
    then some (donation.amount - analyticsFee donation) else some donation.amount
  analyticsFeeRetained := some (analyticsFee donation)
  networkFeeDeducted := some (networkFee result)
  reason := r.reason
  notes := orNull r.notes
  refundedAt := r.now
  status := .completed
  alreadyProcessed := false

/-- `refundDonation`: the state it leaves, and what it returns or throws. -/
def refundDonation (svc : Services) (donationId : String) (w : World) (r : Request) :
    World × Except AppError RefundResult :=
  match decision svc donationId w r with
  | .error e => (w, .error e)
  | .ok (.replay existing) => (w, .ok (replayResult donationId existing))
  | .ok (.pay donation _) =>
    let refundId := w.nextRefundId
    let begun := beginRefund w donation r
    match r.answer with
    | .error e => (begun.updateRefund refundId ({ · with status := .failed }), .error e)
    | .ok result =>
      let paid := completeRefund begun refundId result
      match paid.store.updateStatus donationId "refunded" {} r.now with
      | .error e => (paid, .error e)
      | .ok (store, _) =>
        ({ paid with store }, .ok (refundResult donationId refundId donation r result))

/-! ## What one call does -/

section Calls

variable {svc : Services} {donationId : String} {w : World} {r : Request} {donation : Record}

/-- The last step of a paid refund always throws. -/
theorem refund_status_refused (st : Store) (id : String) (sd : Store.StellarData) (now : ℕ) :
    ∃ e, st.updateStatus id "refunded" sd now = .error e :=
  Store.updateStatus_error (by decide) st id sd now

/-- The secret that may sign a refund of this donation, if there is one. -/
def signer (svc : Services) (users : List User) (donation : Record)
    (recipientSecret : Option String) : Option String :=
  match orNull recipientSecret with
  | some secret => if (svc.publicKeyOf secret).isSome && svc.publicKeyOf secret = donation.recipient
      then some secret else none
  | none => do
    let senderId ← donation.senderId.filter (· ≠ 0)
    let sender ← users.find? (·.id = senderId)
    let encrypted ← orNull sender.encryptedSecret
    (svc.decrypt encrypted).toOption

/-- A call that moves money: its key has no refund yet, someone can sign, the window is open and the
network accepts. -/
def Payable (svc : Services) (donationId : String) (w : World) (r : Request) : Prop :=
  w.recordedRefund r.idempotencyKey = none ∧
    (∃ donation ∈ w.store.getById donationId,
      (signer svc w.users donation r.recipientSecret).isSome ∧ insideWindow svc donation r.now) ∧
    r.answer.toOption.isSome

instance decidablePayable (svc : Services) (donationId : String) (w : World) (r : Request) :
    Decidable (Payable svc donationId w r) :=
  inferInstanceAs (Decidable (_ ∧ _ ∧ _))

theorem refundDonation_store (svc : Services) (donationId : String) (w : World) (r : Request) :
    (refundDonation svc donationId w r).1.store = w.store := by
  rw [refundDonation]
  cases decision svc donationId w r with
  | error e => rfl
  | ok d =>
    cases d with
    | replay existing => rfl
    | pay donation secret =>
      cases r.answer with
      | error e => rfl
      | ok result =>
        dsimp only
        obtain ⟨e, he⟩ := refund_status_refused
          (completeRefund (beginRefund w donation r) w.nextRefundId result).store donationId
            {} r.now
        rw [he]
        rfl

/-- A call that gets as far as paying pays, and then throws. -/
theorem refundDonation_of_pay {secret : String} {result : PaymentResult}
    (hd : decision svc donationId w r = .ok (.pay donation secret)) (ha : r.answer = .ok result) :
    (refundDonation svc donationId w r).1.reversals = w.reversals ++ [result] ∧
      ∃ e, (refundDonation svc donationId w r).2 = .error e := by
  obtain ⟨e, he⟩ := refund_status_refused
    (completeRefund (beginRefund w donation r) w.nextRefundId result).store donationId {} r.now
  rw [refundDonation, hd, ha]
  dsimp only
  rw [he]
  exact ⟨rfl, e, rfl⟩

/-- A call that does not pay leaves the accepted payments as they are, and it replays or throws. -/
theorem refundDonation_of_not_pay
    (h : ∀ donation secret, decision svc donationId w r = .ok (.pay donation secret) →
      ∃ e, r.answer = .error e) :
    (refundDonation svc donationId w r).1.reversals = w.reversals ∧
      ((∃ e, (refundDonation svc donationId w r).2 = .error e) ∨
        ∃ res, (refundDonation svc donationId w r).2 = .ok res ∧ res.alreadyProcessed = true) := by
  rw [refundDonation]
  cases hd : decision svc donationId w r with
  | error e => exact ⟨rfl, .inl ⟨e, rfl⟩⟩
  | ok d =>
    cases d with
    | replay existing => exact ⟨rfl, .inr ⟨_, rfl, rfl⟩⟩
    | pay donation secret =>
      obtain ⟨e, he⟩ := h donation secret hd
      rw [he]
      exact ⟨rfl, .inl ⟨e, rfl⟩⟩

/-! ## When a call pays -/

theorem checkRefundWindow_eq_ok {now : ℕ} :
    checkRefundWindow svc donation now = .ok () ↔ insideWindow svc donation now = true := by
  rw [checkRefundWindow, Except.guard_eq_ok]
  exact and_iff_left rfl

theorem signer_eq_some {users : List User} {recipientSecret : Option String} {secret : String} :
    signer svc users donation recipientSecret = some secret ↔
      verifyRecipient svc donation recipientSecret = .ok () ∧
        resolveSecret svc users donation recipientSecret = .ok secret := by
  rw [signer, verifyRecipient, resolveSecret]
  cases orNull recipientSecret with
  | some s =>
    cases hkey : svc.publicKeyOf s with
    | none => simp [hkey]
    | some derived =>
      by_cases hrec : donation.recipient = some derived <;> simp [hkey, hrec, eq_comm]
  | none =>
    cases donation.senderId.filter (· ≠ 0) with
    | none => simp
    | some senderId =>
      cases hfind : users.find? (·.id = senderId) with
      | none => simp [getUserById, hfind, Except.bind_eq_ok]
      | some sender =>
        cases hsecret : orNull sender.encryptedSecret with
        | none => simp [getUserById, validateSenderSecret, hfind, hsecret, Except.bind_eq_ok]
        | some encrypted => simp [getUserById, validateSenderSecret, hfind, hsecret,
            Except.bind_eq_ok, Except.toOption_eq_some]

theorem getById_of_decision_eq_pay {secret : String}
    (h : decision svc donationId w r = .ok (.pay donation secret)) :
    w.store.getById donationId = some donation := by
  obtain ⟨d, hd, h⟩ := Except.bind_eq_ok.mp h
  have hget : w.store.getById donationId = some d := by
    rw [getDonationById] at hd
    cases hfind : w.store.getById donationId with
    | none =>
      rw [hfind] at hd
      cases hd
    | some d' =>
      rw [hfind] at hd
      cases hd
      rfl
  cases hrec : w.recordedRefund r.idempotencyKey with
  | some existing =>
    rw [hrec] at h
    cases h
  | none =>
    rw [hrec] at h
    obtain ⟨-, h⟩ := Except.bind_const_eq_ok.mp h
    obtain ⟨-, h⟩ := Except.bind_const_eq_ok.mp h
    obtain ⟨-, h⟩ := Except.bind_const_eq_ok.mp h
    obtain ⟨s, -, h⟩ := Except.bind_eq_ok.mp h
    cases h
    exact hget

theorem decision_eq_pay {secret : String} (hget : w.store.getById donationId = some donation)
    (hconf : donation.status = TransactionState.confirmed.name) :
    decision svc donationId w r = .ok (.pay donation secret) ↔
      w.recordedRefund r.idempotencyKey = none ∧
        signer svc w.users donation r.recipientSecret = some secret ∧
        insideWindow svc donation r.now = true := by
  have hstatus : checkStatus donation = .ok () := by
    rw [checkStatus, hconf]
    decide
  have hdonation : getDonationById w.store donationId = .ok donation := by
    rw [getDonationById, hget]
  rw [decision, hdonation]
  cases hrec : w.recordedRefund r.idempotencyKey with
  | some existing => simp [bind, Except.bind, pure, Except.pure]
  | none =>
    constructor
    · intro h
      obtain ⟨-, h⟩ := Except.bind_const_eq_ok.mp h
      obtain ⟨hverify, h⟩ := Except.bind_const_eq_ok.mp h
      obtain ⟨hwindow, h⟩ := Except.bind_const_eq_ok.mp h
      obtain ⟨s, hs, h⟩ := Except.bind_eq_ok.mp h
      cases h
      exact ⟨rfl, signer_eq_some.mpr ⟨hverify, hs⟩, checkRefundWindow_eq_ok.mp hwindow⟩
    · rintro ⟨-, hsigner, hwindow⟩
      obtain ⟨hverify, hs⟩ := signer_eq_some.mp hsigner
      change (checkStatus donation >>= _) = _
      rw [hstatus, hverify, checkRefundWindow_eq_ok.mpr hwindow, hs]
      rfl

/-- A call on a confirmed donation moves money exactly when it is `Payable`. -/
theorem payable_iff (hget : w.store.getById donationId = some donation)
    (hconf : donation.status = TransactionState.confirmed.name) :
    Payable svc donationId w r ↔ ∃ secret result,
      decision svc donationId w r = .ok (.pay donation secret) ∧ r.answer = .ok result := by
  simp only [Payable, hget, Option.mem_some_iff, exists_eq_left', Option.isSome_iff_exists,
    decision_eq_pay hget hconf, Except.toOption_eq_some]
  constructor
  · rintro ⟨hrec, ⟨⟨secret, hs⟩, hwindow⟩, result, hr⟩
    exact ⟨secret, result, ⟨hrec, hs, hwindow⟩, hr⟩
  · rintro ⟨secret, result, ⟨hrec, hs, hwindow⟩, hr⟩
    exact ⟨hrec, ⟨⟨secret, hs⟩, hwindow⟩, result, hr⟩

end Calls

/-! ## Sequences of calls -/

/-- How one call on the donation ended. -/
structure Entry where
  /-- A reverse payment had been accepted before the call. -/
  afterRefund : Bool
  /-- The call made one. -/
  paid : Bool
  result : Except AppError RefundResult

/-- The world and how the calls so far ended. -/
structure History where
  world : World
  log : List Entry

def step (svc : Services) (donationId : String) (s : History) (r : Request) : History where
  world := (refundDonation svc donationId s.world r).1
  log := s.log ++ [{
    afterRefund := !s.world.reversals.isEmpty
    paid := s.world.reversals.length < (refundDonation svc donationId s.world r).1.reversals.length
    result := (refundDonation svc donationId s.world r).2 }]

/-- At most one reverse payment is accepted; once one is, the donation's status records it and every
later call replays the recorded refund or is rejected, without paying. -/
structure RefundedOnce (donationId : String) (s : History) : Prop where
  once : s.world.reversals.length ≤ 1
  recorded : s.world.reversals ≠ [] →
    ∃ donation, s.world.store.getById donationId = some donation ∧ donation.status = "refunded"
  later : ∀ e ∈ s.log, e.afterRefund = true → e.paid = false ∧
    ((∃ err, e.result = .error err) ∨ ∃ res, e.result = .ok res ∧ res.alreadyProcessed = true)

/-- The donation is still confirmed and no reverse payment has been accepted. -/
structure Untouched (donationId : String) (s : History) : Prop where
  confirmed : ∃ donation, s.world.store.getById donationId = some donation ∧
    donation.status = TransactionState.confirmed.name
  unpaid : s.world.reversals = []
  log : ∀ e ∈ s.log, e.afterRefund = false

section Sequences

variable {svc : Services} {donationId : String}

theorem Untouched.refundedOnce {s : History} (h : Untouched donationId s) :
    RefundedOnce donationId s where
  once := by simp [h.unpaid]
  recorded hne := absurd h.unpaid hne
  later e he hafter := by simp [h.log e he] at hafter

theorem untouched_step (s : History) (r : Request) (h : Untouched donationId s)
    (hr : ¬Payable svc donationId s.world r) : Untouched donationId (step svc donationId s r) := by
  obtain ⟨donation, hget, hconf⟩ := h.confirmed
  have hreject : ∀ d secret, decision svc donationId s.world r = .ok (.pay d secret) →
      ∃ e, r.answer = .error e := by
    intro d secret hd
    have heq : d = donation := by
      have := getById_of_decision_eq_pay hd
      rw [hget] at this
      exact (Option.some.inj this).symm
    subst heq
    refine Except.toOption_eq_none.mp (Option.eq_none_iff_forall_ne_some.mpr fun result hres ↦ ?_)
    exact hr ((payable_iff hget hconf).mpr ⟨secret, result, hd, Except.toOption_eq_some.mp hres⟩)
  obtain ⟨hreversals, -⟩ := refundDonation_of_not_pay hreject
  refine ⟨⟨donation, ?_, hconf⟩, ?_, ?_⟩
  · rw [step, refundDonation_store]
    exact hget
  · rw [step, hreversals]
    exact h.unpaid
  · intro e he
    rcases List.mem_append.mp he with he | he
    · exact h.log e he
    · rw [List.mem_singleton.mp he, h.unpaid]
      rfl

theorem not_refundedOnce_step (s : History) (r : Request) (h : Untouched donationId s)
    (hr : ¬¬Payable svc donationId s.world r) :
    ¬RefundedOnce donationId (step svc donationId s r) := by
  obtain ⟨donation, hget, hconf⟩ := h.confirmed
  obtain ⟨secret, result, hd, ha⟩ := (payable_iff hget hconf).mp (not_not.mp hr)
  intro hP
  have hpaid : (step svc donationId s r).world.reversals ≠ [] := by
    rw [step, (refundDonation_of_pay hd ha).1]
    exact List.append_ne_nil_of_right_ne_nil _ (List.cons_ne_nil _ _)
  obtain ⟨d, hd', hstatus⟩ := hP.recorded hpaid
  rw [step, refundDonation_store, hget] at hd'
  obtain rfl := Option.some.inj hd'
  rw [hconf] at hstatus
  exact absurd hstatus (by decide)

/-- The state before the first call on a donation: other donations may have refunds already. -/
def start (store : Store) (users : List User) (refunds : List RefundRow) : History :=
  ⟨⟨store, users, refunds, []⟩, []⟩

/-- **Refunds, exactly.** A sequence of refund calls on a confirmed donation keeps the promise if
and only if none of its calls moves money. -/
theorem refund_once_iff (svc : Services) {donationId : String} {store : Store} {donation : Record}
    (hget : store.getById donationId = some donation)
    (hconf : donation.status = TransactionState.confirmed.name)
    (users : List User) (refunds : List RefundRow) (rs : List Request) :
    Always (step svc donationId) (RefundedOnce donationId) (start store users refunds) rs ↔
      Along (step svc donationId) (fun s r ↦ ¬Payable svc donationId s.world r)
        (start store users refunds) rs := by
  have hstart : Untouched donationId (start store users refunds) :=
    ⟨⟨donation, hget, hconf⟩, rfl, fun e he ↦ absurd he List.not_mem_nil⟩
  exact always_iff_along (fun _ h ↦ h.refundedOnce) untouched_step not_refundedOnce_step hstart rs

end Sequences

/-! ## A donation refunded twice -/

section Examples

def plainServices : Services where
  publicKeyOf secret := if secret = "SRECIPIENT" then some "GRECIPIENT" else none
  decrypt encrypted := .ok encrypted
  refundWindowHours := 24

def confirmedDonation : Record where
  id := "d1"
  amount := 5
  donor := some "GDONOR"
  recipient := some "GRECIPIENT"
  timestamp := 0
  status := "confirmed"
  statusUpdatedAt := 0

def confirmedStore : Store := ⟨[confirmedDonation], [], [], []⟩

/-- A refund request signed by the recipient that the network accepts. -/
def acceptedRequest (txId : String) : Request where
  reason := none
  notes := none
  idempotencyKey := none
  recipientSecret := some "SRECIPIENT"
  now := 1000
  answer := .ok ⟨txId, 1, none, none⟩

theorem refund_paid_twice :
    ¬Always (step plainServices "d1") (RefundedOnce "d1") (start confirmedStore [] [])
      [acceptedRequest "t1", acceptedRequest "t2"] := by
  intro h
  have htwice : (run (step plainServices "d1") (start confirmedStore [] [])
      [acceptedRequest "t1", acceptedRequest "t2"]).world.reversals.length = 2 := by decide +kernel
  have honce := h.last.once
  omega

/-- Without the recipient's secret, or when the network rejects, nothing moves. -/
theorem refund_once_rejected :
    Always (step plainServices "d1") (RefundedOnce "d1") (start confirmedStore [] [])
      [{ acceptedRequest "t1" with recipientSecret := none },
        { acceptedRequest "t1" with answer := .error (.plain "tx_failed") }] := by
  have hget : confirmedStore.getById "d1" = some confirmedDonation := by decide
  exact (refund_once_iff plainServices hget rfl [] [] _).mpr (by decide +kernel)

end Examples

end StellarDonations.Refund
