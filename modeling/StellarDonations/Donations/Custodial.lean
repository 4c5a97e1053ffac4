import StellarDonations.Concurrency.Interleaving
import StellarDonations.Numeric.Decimal
import StellarDonations.Transactions.Store
import StellarDonations.Users

/-!
# Custodial donations

`DonationService.sendCustodialDonation`: the service pays from a wallet it keeps the key of. A call
loads the two users, checks limits, looks for a transaction recorded under its idempotency key,
pays, inserts the transaction together with the receiver's totals, and finally records the donation
in the transaction store.

The call is given as a resumable function: each constructor of `Call` is an `await`, and `resume`
runs from one to the next. The same function is used for one call on its own and for any number
of calls interleaved.

The argument of the last step mentions an identifier `overpayment` that no scope declares, so a call
that has paid always throws before the donation reaches the transaction store.
-/

namespace StellarDonations.Custodial

open Concurrency JsString Stellar Transactions

/-! ## Tables and parameters -/

structure TransactionRow where
  id : ℕ
  senderId : ℕ
  receiverId : ℕ
  amount : ℤ
  memo : Option String
  notes : Option String
  tags : List String
  timestamp : ℕ
  idempotencyKey : Option String
  stellarTxId : Option String
  deriving DecidableEq

structure TotalRow where
  recipientId : ℕ
  totalStroops : ℤ
  donationCount : ℕ
  deriving DecidableEq

structure Args where
  senderId : ℕ
  receiverId : ℕ
  amount : ℚ
  memo : Option String := none
  notes : Option String := none
  tags : List String := []
  apiKeyId : Option ℕ := none
  campaignId : Option ℕ := none
  idempotencyKey : Option String := none
  asset : Option Asset := none
  deriving DecidableEq

structure Services where
  decrypt : String → Except AppError String
  sanitizeMemo : String → String
  confirmationThreshold : ℕ
  multisigThresholdXLM : Option ℚ

structure ReserveCheck where
  sufficient : Bool
  /-- The text of the error for an insufficient balance. -/
  message : String

/-- What the environment answers to the statement a call is suspended on. -/
structure Env where
  now : ℕ
  limits : Except AppError Unit
  velocity : Except AppError Unit
  reserve : Except AppError ReserveCheck
  answer : Answer
  /-- The error of the SQL transaction, should the database fail. -/
  insertError : Option AppError
  remaining : Except AppError (ℚ × ℚ)

/-- The state all calls share. The last three fields log what the network was asked and answered,
under the idempotency key of the call. -/
structure Shared where
  users : List User
  transactions : List TransactionRow
  totals : List TotalRow
  globalTotal : ℤ × ℕ
  store : Store
  submitted : List (Option String)
  rejected : List (Option String)
  accepted : List (Option String × PaymentResult)

namespace Shared

/-- The receiver's donation total in stroops; a receiver without a row has none. -/
def total (sh : Shared) (recipientId : ℕ) : ℤ :=
  ((sh.totals.find? (·.recipientId = recipientId)).map (·.totalStroops)).getD 0

/-- `incrementTotal`: the receiver's row and the global one. -/
def incrementTotal (sh : Shared) (recipientId : ℕ) (amountStroops : ℤ) : Shared :=
  { sh with
    totals := if (sh.totals.find? (·.recipientId = recipientId)).isSome then
        sh.totals.map fun t ↦ if t.recipientId = recipientId then
          { t with
            totalStroops := t.totalStroops + amountStroops
            donationCount := t.donationCount + 1 } else t
      else sh.totals ++ [⟨recipientId, amountStroops, 1⟩]
    globalTotal := (sh.globalTotal.1 + amountStroops, sh.globalTotal.2 + 1) }

def selectByKey (sh : Shared) (key : String) : Option TransactionRow :=
  sh.transactions.find? (·.idempotencyKey = some key)

/-- The id the next `transactions` row gets. -/
def nextId (sh : Shared) : ℕ := (sh.transactions.map (·.id)).foldl max 0 + 1

/-- A `UNIQUE` column refuses a value that another row has; `NULL`s are never equal. -/
def violatesUnique (sh : Shared) (row : TransactionRow) : Bool :=
  sh.transactions.any fun r ↦ collides row.idempotencyKey r.idempotencyKey ||
    collides row.stellarTxId r.stellarTxId

end Shared

/-! ## Calls -/

structure Parties where
  sender : User
  receiver : User
  deriving DecidableEq

structure DonationResult where
  id : ℕ
  stellarTxId : Option String
  amount : ℚ
  sender : String
  receiver : String
  timestamp : ℕ
  status : TransactionState
  confirmations : Option ℕ := none
  confirmationThreshold : Option ℕ := none
  remainingLimits : ℚ × ℚ
  replayed : Bool
  deriving DecidableEq

structure Confirmation where
  required : ℕ
  confirmations : ℕ
  confirmed : Bool
  deriving DecidableEq

inductive Call where
  | getSender (a : Args)
  | getReceiver (a : Args) (sender : User)
  | checkLimits (a : Args) (p : Parties)
  | checkVelocity (a : Args) (p : Parties)
  | lookup (a : Args) (p : Parties)
  | replayLimits (a : Args) (p : Parties) (existing : TransactionRow)
  | reserve (a : Args) (p : Parties) (secret : String)
  | sendDonation (a : Args) (p : Parties)
  | insert (a : Args) (p : Parties) (result : PaymentResult)
  | campaign (a : Args) (p : Parties) (result : PaymentResult) (dbId : ℕ)
  | matching (a : Args) (p : Parties) (result : PaymentResult) (dbId : ℕ)
  | limits (a : Args) (p : Parties) (result : PaymentResult) (dbId : ℕ) (c : Confirmation)
  | returned (a : Args) (res : DonationResult)
  | threw (a : Args) (e : AppError)

def Call.args : Call → Args
  | .getSender a | .getReceiver a _ | .checkLimits a _ | .checkVelocity a _ | .lookup a _
  | .replayLimits a _ _ | .reserve a _ _ | .sendDonation a _ | .insert a _ _ | .campaign a _ _ _
  | .matching a _ _ _ | .limits a _ _ _ _ | .returned a _ | .threw a _ => a

/-! ## The steps -/

/-- The synchronous checks once both users are known. -/
def checkParties (p : Parties) : Except AppError Unit := do
  if p.sender.publicKey = p.receiver.publicKey then
    throw (.validationWith .invalidRequest "Sender and recipient cannot be the same wallet")
  let _ ← validateSenderSecret p.sender
  return ()

/-- The part after the lookup missed: decrypt, then suspend on the reserve check or, for a custom
asset, submit right away. -/
def afterLookup (svc : Services) (sh : Shared) (a : Args) (p : Parties) : Shared × Call :=
  match svc.decrypt (p.sender.encryptedSecret.getD "") with
  | .error e => (sh, .threw a e)
  | .ok secret =>
    if a.asset.all (·.isNative) then (sh, .reserve a p secret)
    else ({ sh with submitted := a.idempotencyKey :: sh.submitted }, .sendDonation a p)

def amountStroops (a : Args) : ℤ := ⌊a.amount * 10 ^ 7 + 1 / 2⌋

def transactionRow (svc : Services) (sh : Shared) (a : Args) (result : PaymentResult) (now : ℕ) :
    TransactionRow where
  id := sh.nextId
  senderId := a.senderId
  receiverId := a.receiverId
  amount := amountStroops a
  memo := (orNull a.memo).map svc.sanitizeMemo
  notes := orNull a.notes
  tags := a.tags
  timestamp := now
  idempotencyKey := a.idempotencyKey
  stellarTxId := some result.transactionId

/-- The SQL transaction: the row and the totals, or nothing. -/
def commit (svc : Services) (sh : Shared) (a : Args) (result : PaymentResult) (env : Env) :
    Except AppError (Shared × ℕ) :=
  let row := transactionRow svc sh a result env.now
  match env.insertError with
  | some e => .error e
  | none =>
    if sh.violatesUnique row then
      .error .uniqueViolation
    else .ok ({ sh with transactions := sh.transactions ++ [row] }.incrementTotal a.receiverId
      (amountStroops a), row.id)

def checkConfirmations (transactionLedger currentLedger threshold : ℕ) :
    Except AppError Confirmation :=
  if transactionLedger < 1 then
    .error (.plain "transactionLedger must be a positive finite number")
  else if currentLedger < 1 then .error (.plain "currentLedger must be a positive finite number")
  else .ok ⟨threshold, currentLedger - transactionLedger,
    threshold ≤ currentLedger - transactionLedger⟩

/-- The value of the identifier `overpayment`: the function declares no such variable, nor does an
enclosing scope. -/
def overpayment : Except AppError (Option Overpayment) := .error (.undeclared "overpayment")

/-- The confirmation threshold for an amount: high-value donations need at least two ledgers. -/
def requiredThreshold (svc : Services) (a : Args) : ℕ :=
  if svc.multisigThresholdXLM.any (· ≤ a.amount) then max svc.confirmationThreshold 2
  else svc.confirmationThreshold

/-- The argument of `Transaction.create`, for a given value of `overpayment`. -/
def draft (a : Args) (p : Parties) (dbId : ℕ) (surplus : Option Overpayment) : Draft where
  id := some (toString dbId)
  amount := a.amount
  donor := some p.sender.publicKey
  recipient := some p.receiver.publicKey
  status := transactionStates.get "PENDING"
  notes := a.notes
  tags := a.tags
  apiKeyId := a.apiKeyId
  overpaymentDetails := surplus

/-- The status updates after the record is created, up to the final status. -/
def advanceRecord (svc : Services) (st : Store) (id : String) (a : Args) (result : PaymentResult)
    (now : ℕ) : Store × Except AppError Confirmation :=
  let sd : Store.StellarData :=
    { transactionId := some result.transactionId, ledger := some result.ledger }
  match st.updateStatus id TransactionState.submitted.name sd now with
  | .error e => (st, .error e)
  | .ok (st, _) =>
    match checkConfirmations result.ledger
        ((result.currentLedger.filter (· ≠ 0)).getD result.ledger) (requiredThreshold svc a) with
    | .error e => (st, .error e)
    | .ok c =>
      if 1 < requiredThreshold svc a ∧ c.confirmed = false then
        match st.updateStatus id TransactionState.pendingConfirmation.name sd now with
        | .error e => (st, .error e)
        | .ok (st, _) => (st, .ok c)
      else if c.confirmed then
        match st.updateStatus id TransactionState.confirmed.name
            { sd with confirmedAt := some now } now with
        | .error e => (st, .error e)
        | .ok (st, _) => (st, .ok c)
      else (st, .ok c)

/-- The record in the transaction store. The argument of `create` is evaluated first. -/
def recordDonation (svc : Services) (st : Store) (a : Args) (p : Parties) (result : PaymentResult)
    (dbId now : ℕ) : Store × Except AppError Confirmation :=
  match overpayment with
  | .error e => (st, .error e)
  | .ok surplus =>
    match st.create (draft a p dbId surplus) "" now with
    | .error e => (st, .error e)
    | .ok (st, tx) => advanceRecord svc st tx.id a result now

/-- The status a completed call reports. -/
def responseStatus (c : Confirmation) : TransactionState :=
  if c.confirmed then .confirmed else if 1 < c.required then .pendingConfirmation else .submitted

/-- Resume a call: it runs to its next `await`. -/
def resume (svc : Services) (sh : Shared) : Call → Env → Shared × Call
  | .getSender a, _ =>
    match getUserById sh.users a.senderId "Sender" with
    | .error e => (sh, .threw a e)
    | .ok sender => (sh, .getReceiver a sender)
  | .getReceiver a sender, _ =>
    match getUserById sh.users a.receiverId "Receiver" with
    | .error e => (sh, .threw a e)
    | .ok receiver =>
      match checkParties ⟨sender, receiver⟩ with
      | .error e => (sh, .threw a e)
      | .ok _ => (sh, .checkLimits a ⟨sender, receiver⟩)
  | .checkLimits a p, env =>
    match env.limits with
    | .error e => (sh, .threw a e)
    | .ok _ => (sh, .checkVelocity a p)
  | .checkVelocity a p, env =>
    match env.velocity with
    | .error e => (sh, .threw a e)
    | .ok _ => (sh, .lookup a p)
  | .lookup a p, _ =>
    match (orNull a.idempotencyKey).bind sh.selectByKey with
    | some existing => (sh, .replayLimits a p existing)
    | none => afterLookup svc sh a p
  | .replayLimits a p existing, env =>
    match env.remaining with
    | .error e => (sh, .threw a e)
    | .ok limits => (sh, .returned a
        { id := existing.id, stellarTxId := existing.stellarTxId, amount := a.amount
          sender := p.sender.publicKey, receiver := p.receiver.publicKey
          timestamp := existing.timestamp, status := .submitted, remainingLimits := limits
          replayed := true })
  -- a reserve check that fails or times out is skipped
  | .reserve a p _, env =>
    match env.reserve with
    | .ok ⟨false, message⟩ =>
      (sh, .threw a (.businessLogic .insufficientBalanceAfterReserve message))
    | _ => ({ sh with submitted := a.idempotencyKey :: sh.submitted }, .sendDonation a p)
  | .sendDonation a p, env =>
    match env.answer with
    | .error e => ({ sh with rejected := a.idempotencyKey :: sh.rejected }, .threw a e)
    | .ok result =>
      ({ sh with accepted := (a.idempotencyKey, result) :: sh.accepted }, .insert a p result)
  | .insert a p result, env =>
    match commit svc sh a result env with
    | .error e => (sh, .threw a e)
    | .ok (sh', dbId) =>
      if a.campaignId.isSome then (sh', .campaign a p result dbId)
      else (sh', .matching a p result dbId)
  | .campaign a p result dbId, _ => (sh, .matching a p result dbId)
  | .matching a p result dbId, env =>
    match recordDonation svc sh.store a p result dbId env.now with
    | (store, .error e) => ({ sh with store }, .threw a e)
    | (store, .ok c) => ({ sh with store }, .limits a p result dbId c)
  | .limits a p result dbId c, env =>
    match env.remaining with
    | .error e => (sh, .threw a e)
    | .ok limits => (sh, .returned a
        { id := dbId, stellarTxId := some result.transactionId, amount := a.amount
          sender := p.sender.publicKey, receiver := p.receiver.publicKey, timestamp := env.now
          status := responseStatus c, confirmations := some c.confirmations
          confirmationThreshold := some c.required, remainingLimits := limits, replayed := false })
  | .returned a res, _ => (sh, .returned a res)
  | .threw a e, _ => (sh, .threw a e)

/-! ## What a call that has paid leaves behind -/

section Alone

variable {svc : Services} {sh : Shared} {a : Args} {p : Parties} {result : PaymentResult}

def alone (svc : Services) (x : Shared × Call) (env : Env) : Shared × Call := resume svc x.1 x.2 env

/-- What must hold of a call whose payment was accepted: it returns, one row and one store record
carry the payment's id, the record has a status past `pending`, and the receiver's total has grown
by the amount. -/
structure Settled (sh sh' : Shared) (a : Args) (result : PaymentResult) (c : Call) : Prop where
  returned : ∃ res, c = .returned a res
  row : sh'.transactions.countP (·.stellarTxId = some result.transactionId) = 1
  total : sh'.total a.receiverId = sh.total a.receiverId + amountStroops a
  record : sh'.store.records.countP (·.stellarTxId = some result.transactionId) = 1
  status : ∀ r ∈ sh'.store.records, r.stellarTxId = some result.transactionId →
    r.status ∈ [TransactionState.submitted, .pendingConfirmation, .confirmed].map (·.name)

theorem recordDonation_throws (svc : Services) (st : Store) (a : Args) (p : Parties)
    (result : PaymentResult) (dbId now : ℕ) :
    recordDonation svc st a p result dbId now = (st, .error (.undeclared "overpayment")) := rfl

theorem args_resume (svc : Services) (sh : Shared) (c : Call) (env : Env) :
    (resume svc sh c env).2.args = c.args := by
  cases c with
  | getSender | checkLimits | checkVelocity | replayLimits | reserve | sendDonation | limits =>
    rw [resume]
    split <;> rfl
  | getReceiver a sender =>
    rw [resume]
    split
    · rfl
    · split <;> rfl
  | lookup a p =>
    rw [resume]
    split
    · rfl
    · rw [afterLookup]
      split
      · rfl
      · split_ifs <;> rfl
  | insert a p result =>
    rw [resume]
    split
    · rfl
    · split_ifs <;> rfl
  | matching a p result dbId =>
    rw [resume, recordDonation_throws]
    rfl
  | campaign | returned | threw => rfl

theorem commit_eq_ok {sh' : Shared} {dbId : ℕ} {env : Env}
    (h : commit svc sh a result env = .ok (sh', dbId)) :
    env.insertError = none ∧ sh.violatesUnique (transactionRow svc sh a result env.now) = false ∧
      dbId = sh.nextId ∧
      sh' = { sh with transactions := sh.transactions ++ [transactionRow svc sh a result env.now]
        }.incrementTotal a.receiverId (amountStroops a) := by
  rw [commit] at h
  cases hinsert : env.insertError with
  | some e =>
    rw [hinsert] at h
    cases h
  | none =>
    rw [hinsert] at h
    obtain ⟨hunique, h⟩ := Except.guard_not_eq_ok.mp h
    cases h
    exact ⟨rfl, Bool.eq_false_of_not_eq_true hunique, rfl, rfl⟩

theorem commit_of_unique {env : Env} (hinsert : env.insertError = none)
    (hunique : sh.violatesUnique (transactionRow svc sh a result env.now) = false) :
    commit svc sh a result env = .ok
      ({ sh with transactions := sh.transactions ++ [transactionRow svc sh a result env.now]
        }.incrementTotal a.receiverId (amountStroops a), sh.nextId) := by
  rw [commit, hinsert]
  exact if_neg (by rw [hunique]; exact Bool.false_ne_true)

theorem afterLookup_store (svc : Services) (sh : Shared) (a : Args) (p : Parties) :
    (afterLookup svc sh a p).1.store = sh.store := by
  rw [afterLookup]
  split
  · rfl
  · split_ifs <;> rfl

/-- No custodial call ever changes the transaction store. -/
theorem resume_store (svc : Services) (sh : Shared) (c : Call) (env : Env) :
    (resume svc sh c env).1.store = sh.store := by
  cases c with
  | getSender | checkLimits | checkVelocity | replayLimits | reserve | sendDonation | limits =>
    rw [resume]
    split <;> rfl
  | getReceiver a sender =>
    rw [resume]
    split
    · rfl
    · split <;> rfl
  | lookup a p =>
    rw [resume]
    split
    · rfl
    · exact afterLookup_store svc sh a p
  | insert a p result =>
    rw [resume]
    cases hcommit : commit svc sh a result env with
    | error e => rfl
    | ok out =>
      obtain ⟨sh', dbId⟩ := out
      obtain ⟨-, -, -, rfl⟩ := commit_eq_ok hcommit
      dsimp only
      split_ifs <;> rfl
  | matching a p result dbId =>
    rw [resume, recordDonation_throws]
  | campaign | returned | threw => rfl

/-- A call that has not paid: it has not got that far, or it replays. -/
def Call.unpaid : Call → Bool
  | .insert .. | .campaign .. | .matching .. | .limits .. | .threw .. => false
  | _ => true

/-- A call that has paid is on its way to the record step, or has thrown. -/
def Call.doomed : Call → Bool
  | .insert .. | .campaign .. | .matching .. | .threw .. => true
  | _ => false

theorem afterLookup_unpaid (svc : Services) (sh : Shared) (a : Args) (p : Parties) :
    (afterLookup svc sh a p).1.accepted = sh.accepted ∧
      ((afterLookup svc sh a p).2.unpaid = true ∨ (afterLookup svc sh a p).2.doomed = true) := by
  rw [afterLookup]
  split
  · exact ⟨rfl, .inr rfl⟩
  · split_ifs <;> exact ⟨rfl, .inl rfl⟩

/-- A call that has not paid either pays or stays unpaid; a call that has paid never returns. -/
theorem resume_paid (svc : Services) (sh : Shared) (c : Call) (env : Env) :
    (c.unpaid = true → (resume svc sh c env).2.doomed = true ∨
      (resume svc sh c env).2.unpaid = true ∧ (resume svc sh c env).1.accepted = sh.accepted) ∧
    (c.doomed = true → (resume svc sh c env).2.doomed = true) := by
  cases c with
  | getSender | checkLimits | checkVelocity | replayLimits | reserve =>
    refine ⟨fun _ ↦ ?_, fun h ↦ by cases h⟩
    rw [resume]
    split
    · exact .inl rfl
    · first | exact .inl rfl | exact .inr ⟨rfl, rfl⟩
  | getReceiver a sender =>
    refine ⟨fun _ ↦ ?_, fun h ↦ by cases h⟩
    rw [resume]
    split
    · exact .inl rfl
    · split
      · exact .inl rfl
      · exact .inr ⟨rfl, rfl⟩
  | lookup a p =>
    refine ⟨fun _ ↦ ?_, fun h ↦ by cases h⟩
    rw [resume]
    split
    · exact .inr ⟨rfl, rfl⟩
    · obtain ⟨hacc, h | h⟩ := afterLookup_unpaid svc sh a p
      · exact .inr ⟨h, hacc⟩
      · exact .inl h
  | sendDonation a p =>
    refine ⟨fun _ ↦ .inl ?_, fun h ↦ by cases h⟩
    rw [resume]
    split <;> rfl
  | returned a res => exact ⟨fun _ ↦ .inr ⟨rfl, rfl⟩, fun h ↦ by cases h⟩
  | insert a p result =>
    refine ⟨fun h ↦ (by cases h), fun _ ↦ ?_⟩
    rw [resume]
    split
    · rfl
    · split_ifs <;> rfl
  | matching a p result dbId =>
    refine ⟨fun h ↦ (by cases h), fun _ ↦ ?_⟩
    rw [resume, recordDonation_throws]
    rfl
  | campaign | threw => exact ⟨fun h ↦ (by cases h), fun _ ↦ rfl⟩
  | limits => exact ⟨fun h ↦ (by cases h), fun h ↦ (by cases h)⟩

/-- The invariant of a call on its own: as long as it can still return, nothing was accepted. -/
theorem alone_paid (svc : Services) (sh : Shared) (hsh : sh.accepted = []) (a : Args)
    (envs : List Env) :
    Always (alone svc) (fun x ↦ x.1.store = sh.store ∧
      (x.2.doomed = true ∨ x.2.unpaid = true ∧ x.1.accepted = [])) (sh, .getSender a) envs := by
  refine always_of_step (fun x env ⟨hstore, hpaid⟩ ↦ ⟨?_, ?_⟩) ⟨rfl, .inr ⟨rfl, hsh⟩⟩ envs
  · exact (resume_store svc x.1 x.2 env).trans hstore
  · obtain ⟨hunpaid, hdoomed⟩ := resume_paid svc x.1 x.2 env
    rcases hpaid with hd | ⟨hu, hacc⟩
    · exact .inl (hdoomed hd)
    · rcases hunpaid hu with hd | ⟨hu', hacc'⟩
      · exact .inl hd
      · exact .inr ⟨hu', hacc'.trans hacc⟩

/-- **No custodial payment is recorded.** Whatever the arguments, the database and the answers of
the environment, a call whose payment was accepted does not settle: it never returns, and the
transaction store is what it was. -/
theorem custodial_payment_never_settles (svc : Services) {sh : Shared} (hsh : sh.accepted = [])
    (a : Args) (envs : List Env) {key : Option String} {result : PaymentResult}
    (hpaid : (run (alone svc) (sh, .getSender a) envs).1.accepted = [(key, result)]) :
    (run (alone svc) (sh, .getSender a) envs).1.store = sh.store ∧
      ¬Settled sh (run (alone svc) (sh, .getSender a) envs).1 a result
        (run (alone svc) (sh, .getSender a) envs).2 := by
  obtain ⟨hstore, hcall⟩ := (alone_paid svc sh hsh a envs).last
  refine ⟨hstore, fun hsettled ↦ ?_⟩
  obtain ⟨res, hres⟩ := hsettled.returned
  rcases hcall with hd | ⟨-, hacc⟩
  · rw [hres] at hd
    cases hd
  · rw [hpaid] at hacc
    cases hacc

/-- What does happen after an accepted payment, when the database works: the row and the total are
written, and the call throws. -/
theorem paid_call_throws {env : Env} (hinsert : env.insertError = none)
    (hunique : sh.violatesUnique (transactionRow svc sh a result env.now) = false)
    (hcampaign : a.campaignId = none) (env' : Env) :
    run (alone svc) (sh, .insert a p result) [env, env']
      = ({ sh with transactions := sh.transactions ++ [transactionRow svc sh a result env.now]
          }.incrementTotal a.receiverId (amountStroops a),
            .threw a (.undeclared "overpayment")) := by
  rw [run_cons, run_cons, run_nil, alone, alone, resume, commit_of_unique hinsert hunique]
  simp only [hcampaign, Option.isSome_none, Bool.false_eq_true, if_false]
  rw [resume, recordDonation_throws]

end Alone

section Examples

def Call.thrown : Call → Option AppError
  | .threw _ e => some e
  | _ => none

/-- Services that keep secrets and memos as they are and confirm after one ledger. -/
def plainServices : Services where
  decrypt encrypted := .ok encrypted
  sanitizeMemo memo := memo
  confirmationThreshold := 1
  multisigThresholdXLM := none

def twoUsers : Shared where
  users := [⟨1, "GSENDER", some "SSENDER"⟩, ⟨2, "GRECEIVER", none⟩]
  transactions := []
  totals := []
  globalTotal := (0, 0)
  store := .empty
  submitted := []
  rejected := []
  accepted := []

/-- 5 XLM from the one to the other under the key `k1`. -/
def fiveXlm : Args where
  senderId := 1
  receiverId := 2
  amount := 5
  idempotencyKey := some "k1"

def okEnv (txId : String) : Env where
  now := 1000
  limits := .ok ()
  velocity := .ok ()
  reserve := .ok ⟨true, ""⟩
  answer := .ok ⟨txId, 7, some 8, none⟩
  insertError := none
  remaining := .ok (100, 1000)

/-- The call pays, inserts the row, and throws. -/
theorem custodial_payment_unsettled :
    (run (alone plainServices) (twoUsers, .getSender fiveXlm)
        (List.replicate 9 (okEnv "t1"))).1.accepted = [(some "k1", ⟨"t1", 7, some 8, none⟩)] ∧
      (run (alone plainServices) (twoUsers, .getSender fiveXlm)
        (List.replicate 9 (okEnv "t1"))).2.thrown = some (.undeclared "overpayment") ∧
      ¬Settled twoUsers (run (alone plainServices) (twoUsers, .getSender fiveXlm)
          (List.replicate 9 (okEnv "t1"))).1 fiveXlm ⟨"t1", 7, some 8, none⟩
        (run (alone plainServices) (twoUsers, .getSender fiveXlm)
          (List.replicate 9 (okEnv "t1"))).2 := by
  have hthrown : (run (alone plainServices) (twoUsers, .getSender fiveXlm)
      (List.replicate 9 (okEnv "t1"))).2.thrown = some (.undeclared "overpayment") := by
    decide
  refine ⟨by decide, hthrown, fun h ↦ ?_⟩
  obtain ⟨res, hres⟩ := h.returned
  rw [hres] at hthrown
  cases hthrown

theorem custodial_payment_never_settles_at :
    ¬Settled twoUsers (run (alone plainServices) (twoUsers, .getSender fiveXlm)
        (List.replicate 9 (okEnv "t1"))).1 fiveXlm ⟨"t1", 7, some 8, none⟩
      (run (alone plainServices) (twoUsers, .getSender fiveXlm)
        (List.replicate 9 (okEnv "t1"))).2 := by
  have hpaid : (run (alone plainServices) (twoUsers, .getSender fiveXlm)
      (List.replicate 9 (okEnv "t1"))).1.accepted = [(some "k1", ⟨"t1", 7, some 8, none⟩)] := by
    decide
  exact (custodial_payment_never_settles plainServices rfl fiveXlm _ hpaid).2

end Examples

end StellarDonations.Custodial
