import Mathlib.Algebra.BigOperators.Group.List.Basic
import Mathlib.Algebra.Order.Ring.Rat
import StellarDonations.Concurrency.Interleaving
import StellarDonations.Control.Except
import StellarDonations.Errors
import StellarDonations.Text.JsString

/-!
# Payment channels

`PaymentChannelService`: a channel holds up to its capacity and accumulates a balance off-chain.
`updateChannel` adds to the balance, `closeChannel` pays the balance out and settles the channel,
`disputeChannel` replaces the balance by that of a state with a higher sequence number, and
`forceCloseChannel` pays the balance out and closes the channel.

Every operation reads the channel's row once, decides on what it read, and writes after its last
`await`. The two operations that pay submit the whole balance they read; the row says so only after
the write that follows. A balance is checked against the capacity when an update adds to it, and not
when a dispute presents it. The status keeps a closed channel closed, but a settled one can be
closed by force or disputed, which makes it closable again.
-/

namespace StellarDonations.Channels

open Concurrency JsString

/-! ## The table -/

/-- The `status` column of `payment_channels`. -/
inductive Status where
  | open
  | settled
  | disputed
  | closed
  deriving DecidableEq, Repr

def Status.text : Status → String
  | .open => "open"
  | .settled => "settled"
  | .disputed => "disputed"
  | .closed => "closed"

/-- An entry of the `signatures` column. -/
structure StateSignature where
  sequence : ℚ
  senderSig : Option String
  receiverSig : Option String
  timestamp : ℤ
  deriving DecidableEq

/-- A row of `payment_channels`. Times are in milliseconds. -/
structure Channel where
  id : String
  senderKey : String
  receiverKey : String
  capacity : ℚ
  balance : ℚ
  sequence : ℚ
  status : Status
  signatures : List StateSignature
  disputedAt : Option ℤ
  disputeSeq : Option ℚ
  settledAt : Option ℤ
  closedAt : Option ℤ
  escrowSecret : Option String
  stellarTxId : Option String
  createdAt : ℤ
  updatedAt : ℤ
  deriving DecidableEq

/-- The account a payment is made from. -/
inductive Source where
  | escrow (secret : String)
  | account (publicKey : String)
  deriving DecidableEq, Repr

/-- A payment the network accepted for a channel, with the state it pays out. -/
structure Payout where
  sequence : ℚ
  balance : ℚ
  source : Source
  deriving DecidableEq

/-- The table by its primary key, and the payments made for each channel. -/
structure Db where
  channels : String → Option Channel
  payouts : String → List Payout

/-- `UPDATE payment_channels SET … WHERE id = ?`. -/
def Db.update (db : Db) (id : String) (f : Channel → Channel) : Db :=
  { db with channels := Function.update db.channels id ((db.channels id).map f) }

/-- A payment for a channel is on the ledger. -/
def Db.payOut (db : Db) (id : String) (p : Payout) : Db :=
  { db with payouts := Function.update db.payouts id (p :: db.payouts id) }

/-- The sum of the payments for a channel. -/
def Db.paidOut (db : Db) (id : String) : ℚ := ((db.payouts id).map (·.balance)).sum

/-! ## Signatures -/

structure Platform where
  /-- `crypto.createHmac('sha256', key).update(message).digest('hex')`. -/
  hmacHex : String → String → String
  /-- A number in a template string. -/
  showNumber : ℚ → String

def buildStateMessage (pf : Platform) (channelId : String) (sequence balance : ℚ) : String :=
  "channel:" ++ channelId ++ ":seq:" ++ pf.showNumber sequence ++ ":balance:"
    ++ pf.showNumber balance

/-- `signState`. A key that is missing is refused by the platform. -/
def signState (pf : Platform) (message : String) : Option String → Except AppError String
  | none => .error (.wrongType "The \"key\" argument must be of type string")
  | some secretKey => .ok (pf.hmacHex secretKey message)

/-- `verifyStateSignature`: the decoded bytes are compared, so letter case and anything after the
last valid digit are ignored. -/
def verifyStateSignature (pf : Platform) (message : String) (signature secretKey : Option String) :
    Except AppError Bool := do
  let expected ← signState pf message secretKey
  return match signature with
    | none => false
    | some s => decide (bufferFromHex expected = bufferFromHex s)

/-- A signature that does not verify is an error. -/
def requireSignature (pf : Platform) (message : String) (signature secretKey : Option String)
    (text : String) : Except AppError Unit := do
  let valid ← verifyStateSignature pf message signature secretKey
  if valid then .ok () else .error (.validationWith .unauthorized text)

/-! ## Opening a channel -/

/-- The argument of `openChannel`. -/
structure OpenArgs where
  senderKey : Option String
  receiverKey : Option String
  capacity : ℚ
  sourceSecret : Option String
  /-- `metadata.channelEscrow.escrowSecret` and `metadata.stellarTxId`, should the caller
  set them. -/
  escrowSecret : Option String
  stellarTxId : Option String

/-- A missing or empty key is an error. -/
def requireField (name : String) (value : Option String) : Except AppError String :=
  match value with
  | some s => if s ≠ "" then .ok s
      else .error (.validationWith .missingRequiredField (name ++ " is required"))
  | none => .error (.validationWith .missingRequiredField (name ++ " is required"))

/-- The two checks on the keys and the capacity. -/
def checkOpenArgs (senderKey receiverKey : String) (capacity : ℚ) : Except AppError Unit :=
  if senderKey = receiverKey then
    .error (.validationWith .invalidRequest "senderKey and receiverKey must be different")
  else if capacity ≤ 0 then
    .error (.validationWith .invalidRequest "capacity must be a positive number")
  else .ok ()

/-- The escrow account: a source secret makes a new one, whose secret replaces the caller's. -/
def fundEscrow (a : OpenArgs) (escrow : Except AppError String) : Except AppError (Option String) :=
  if truthy a.sourceSecret then escrow.map some else .ok a.escrowSecret

def openChannel (a : OpenArgs) (uuid : String) (escrow : Except AppError String) (now : ℤ) :
    Except AppError Channel := do
  let senderKey ← requireField "senderKey" a.senderKey
  let receiverKey ← requireField "receiverKey" a.receiverKey
  checkOpenArgs senderKey receiverKey a.capacity
  let escrowSecret ← fundEscrow a escrow
  return {
    id := uuid, senderKey, receiverKey, capacity := a.capacity, balance := 0, sequence := 0
    status := .open, signatures := [], disputedAt := none, disputeSeq := none, settledAt := none
    closedAt := none, escrowSecret, stellarTxId := a.stellarTxId, createdAt := now,
    updatedAt := now }

/-! ## The operations -/

/-- The argument of `updateChannel`. -/
structure UpdateArgs where
  channelId : String
  amount : ℚ
  senderSecret : Option String
  receiverSecret : Option String
  senderSig : Option String
  receiverSig : Option String

/-- The argument of `disputeChannel`. -/
structure DisputeArgs where
  channelId : String
  sequence : ℚ
  balance : ℚ
  senderSig : Option String
  receiverSig : Option String
  senderSecret : Option String
  receiverSecret : Option String

/-- A call of one of the four operations. -/
inductive Op where
  | updateChannel (a : UpdateArgs)
  | closeChannel (channelId : String) (senderSecret : Option String)
  | disputeChannel (a : DisputeArgs)
  | forceCloseChannel (channelId : String) (senderSecret : Option String)

structure NewState where
  channelId : String
  newSequence : ℚ
  newBalance : ℚ
  signatures : List StateSignature

inductive Call where
  /-- The `getChannel` an operation starts with. -/
  | start (op : Op)
  | offChainUpdate (u : NewState)
  | writeUpdate (u : NewState)
  /-- The payment of `closeChannel`, made for a positive balance only. -/
  | settlePayment (channelId : String) (channel : Channel) (pos : 0 < channel.balance)
  | writeSettled (channelId : String) (channel : Channel) (stellarTxId : Option String)
  | writeDisputed (a : DisputeArgs)
  /-- The payment of `forceCloseChannel`, likewise. -/
  | closePayment (channelId : String) (channel : Channel) (pos : 0 < channel.balance)
  | writeClosed (channelId : String) (channel : Channel)
  /-- The `getChannel` an operation ends with. -/
  | readBack (channelId : String)
  | done (channel : Channel)
  | failed (e : AppError)

/-- What the clock, the database and the network answer. -/
structure Env where
  now : ℤ
  /-- The error of the SQL statement, should it fail. -/
  dbError : Option AppError
  /-- `stellarService.updateChannel`: whether the result does not say `updated === false`. -/
  offChain : Except AppError Bool
  /-- The payment: the transaction's id, or the error. -/
  answer : Except AppError (Option String)

def disputeWindowMs : ℤ := 24 * 60 * 60 * 1000

def channelTimeoutMs : ℤ := 7 * 24 * 60 * 60 * 1000

def getChannel (db : Db) (id : String) (env : Env) : Except AppError Channel :=
  match env.dbError, db.channels id with
  | some e, _ => .error e
  | none, some channel => .ok channel
  | none, none => .error (.notFound .notFound ("Channel " ++ id ++ " not found"))

/-- Unless `p`, the operation fails. -/
def ensure (p : Prop) [Decidable p] (e : AppError) : Except AppError Unit :=
  if p then .ok () else .error e

def transactionFailed (message : String) : AppError := .businessLogic .transactionFailed message

def requireAmount (amount : ℚ) : Except AppError Unit :=
  ensure (0 < amount) (.validationWith .invalidRequest "amount must be a positive number")

/-- `updateChannel` between its read and its off-chain step. -/
def beginUpdate (pf : Platform) (channel : Channel) (a : UpdateArgs) (now : ℤ) :
    Except AppError NewState := do
  ensure (channel.status = .open) (transactionFailed
    ("Channel is " ++ channel.status.text ++ ", only open channels can be updated"))
  let newSequence := channel.sequence + 1
  let newBalance := channel.balance + a.amount
  ensure (newBalance ≤ channel.capacity) (transactionFailed
    ("Update would exceed channel capacity of " ++ pf.showNumber channel.capacity ++ " XLM"))
  let message := buildStateMessage pf a.channelId newSequence newBalance
  requireSignature pf message a.senderSig a.senderSecret "Invalid sender signature"
  requireSignature pf message a.receiverSig a.receiverSecret "Invalid receiver signature"
  return ⟨a.channelId, newSequence, newBalance,
    channel.signatures ++ [⟨newSequence, a.senderSig, a.receiverSig, now⟩]⟩

/-- The checks of `closeChannel` on the row. -/
def checkClosable (channel : Channel) : Except AppError Unit := do
  ensure (¬(channel.status = .closed ∨ channel.status = .settled))
    (.conflict ("Channel is already " ++ channel.status.text))
  ensure (channel.status ∈ [Status.open, .disputed]) (transactionFailed
    ("Channel is " ++ channel.status.text ++ ", only open or disputed channels can be closed"))

def checkDispute (pf : Platform) (channel : Channel) (a : DisputeArgs) (now : ℤ) :
    Except AppError Unit := do
  ensure (channel.status ∈ [Status.open, .settled]) (transactionFailed
    ("Cannot dispute a channel with status '" ++ channel.status.text ++ "'"))
  ensure (channel.sequence < a.sequence) (transactionFailed
    ("Dispute sequence " ++ pf.showNumber a.sequence ++ " must be greater than current sequence "
      ++ pf.showNumber channel.sequence))
  ensure (now - channel.updatedAt ≤ disputeWindowMs)
    (transactionFailed "Dispute window has expired")
  let message := buildStateMessage pf a.channelId a.sequence a.balance
  requireSignature pf message a.senderSig a.senderSecret
    "Invalid sender signature for disputed state"
  requireSignature pf message a.receiverSig a.receiverSecret
    "Invalid receiver signature for disputed state"

/-- The checks of `forceCloseChannel` on the row. -/
def checkForceClosable (channel : Channel) (now : ℤ) : Except AppError Unit := do
  ensure (channel.status ≠ .closed) (transactionFailed "Channel is already closed")
  ensure (¬(channel.status = .open ∧ ¬channelTimeoutMs < now - channel.updatedAt))
    (transactionFailed
      "Channel has not timed out yet. Use closeChannel to close an active channel.")

/-- An operation up to its second `await`. -/
def begin (pf : Platform) (db : Db) (env : Env) : Op → Except AppError Call
  | .updateChannel a => do
    let _ ← requireField "channelId" (some a.channelId)
    requireAmount a.amount
    let channel ← getChannel db a.channelId env
    let u ← beginUpdate pf channel a env.now
    return .offChainUpdate u
  | .closeChannel channelId senderSecret => do
    let _ ← requireField "channelId" (some channelId)
    let _ ← requireField "senderSecret" senderSecret
    let channel ← getChannel db channelId env
    checkClosable channel
    return if pos : 0 < channel.balance then .settlePayment channelId channel pos
      else .writeSettled channelId channel none
  | .disputeChannel a => do
    let _ ← requireField "channelId" (some a.channelId)
    let channel ← getChannel db a.channelId env
    checkDispute pf channel a env.now
    return .writeDisputed a
  | .forceCloseChannel channelId senderSecret => do
    let _ ← requireField "channelId" (some channelId)
    let _ ← requireField "senderSecret" senderSecret
    let channel ← getChannel db channelId env
    checkForceClosable channel env.now
    return if pos : 0 < channel.balance then .closePayment channelId channel pos
      else .writeClosed channelId channel

/-- The account `closeChannel` pays from: the escrow account when there is one. -/
def settleSource (channel : Channel) : Source :=
  match channel.escrowSecret with
  | some secret => if secret ≠ "" then .escrow secret else .account channel.senderKey
  | none => .account channel.senderKey

/-- An `UPDATE` of the row, followed by the read of what it left. -/
def write (db : Db) (channelId : String) (f : Channel → Channel) (env : Env) : Db × Call :=
  match env.dbError with
  | some e => (db, .failed e)
  | none => (db.update channelId f, .readBack channelId)

/-- A submitted payment: accepted, it is on the ledger and the call goes on; rejected, the call
fails. -/
def pay (db : Db) (channelId : String) (p : Payout) (env : Env) (next : Option String → Call) :
    Db × Call :=
  match env.answer with
  | .ok txId => (db.payOut channelId p, next (orNull txId))
  | .error e => (db, .failed e)

/-- Resume a call: it runs to its next `await`. -/
def resume (pf : Platform) (db : Db) : Call → Env → Db × Call
  | .start op, env =>
    match begin pf db env op with
    | .ok c => (db, c)
    | .error e => (db, .failed e)
  | .offChainUpdate u, env =>
    match env.offChain with
    | .ok true => (db, .writeUpdate u)
    | .ok false => (db, .failed (transactionFailed "Off-chain channel update failed"))
    | .error e => (db, .failed e)
  | .writeUpdate u, env => write db u.channelId (fun r ↦
      { r with
        balance := u.newBalance, sequence := u.newSequence, signatures := u.signatures
        updatedAt := env.now }) env
  | .settlePayment channelId channel _, env =>
    pay db channelId ⟨channel.sequence, channel.balance, settleSource channel⟩ env
      (.writeSettled channelId channel)
  | .writeSettled channelId _ stellarTxId, env => write db channelId (fun r ↦
      { r with
        status := .settled, settledAt := some env.now, updatedAt := env.now, stellarTxId }) env
  | .writeDisputed a, env => write db a.channelId (fun r ↦
      { r with
        status := .disputed, disputedAt := some env.now, disputeSeq := some a.sequence
        balance := a.balance, sequence := a.sequence, updatedAt := env.now }) env
  | .closePayment channelId channel _, env =>
    pay db channelId ⟨channel.sequence, channel.balance, .account channel.senderKey⟩ env
      fun _ ↦ .writeClosed channelId channel
  | .writeClosed channelId _, env => write db channelId (fun r ↦
      { r with status := .closed, closedAt := some env.now, updatedAt := env.now }) env
  | .readBack channelId, env =>
    match getChannel db channelId env with
    | .ok channel => (db, .done channel)
    | .error e => (db, .failed e)
  | .done channel, _ => (db, .done channel)
  | .failed e, _ => (db, .failed e)

def step (pf : Platform) {ι : Type*} [DecidableEq ι] :
    Calls ι Db Call → ι × Env → Calls ι Db Call :=
  Calls.step (resume pf)

/-! ## What must hold -/

/-- The call has read the channel's row to pay its balance out, and not yet written that it did. -/
def Call.Settles (id : String) : Call → Prop
  | .settlePayment channelId _ _ | .writeSettled channelId _ _ | .closePayment channelId _ _
  | .writeClosed channelId _ => channelId = id
  | _ => False

/-- The call has read the channel's row to settle or to dispute it, and not yet written. -/
def Call.Touches (id : String) : Call → Prop
  | .settlePayment channelId _ _ | .writeSettled channelId _ _ | .closePayment channelId _ _
  | .writeClosed channelId _ => channelId = id
  | .writeDisputed a => a.channelId = id
  | _ => False

def Db.HasStatus (db : Db) (id : String) (status : Status) : Prop :=
  ∃ channel ∈ db.channels id, channel.status = status

/-- A disputed balance fits the channel's capacity. -/
def Db.Fits (db : Db) (id : String) (balance : ℚ) : Prop :=
  ∀ channel ∈ db.channels id, balance ≤ channel.capacity

/-- A settled channel has no balance left to pay. -/
def Db.Spent (db : Db) (id : String) : Prop :=
  ∀ channel ∈ db.channels id, channel.status = .settled → channel.balance ≤ 0

/-- The condition on an operation that reads its row. While it does, no other call settles the
channel, or disputes it when the operation is to settle it; a settled channel is neither disputed
nor, when it has a balance, closed by force. -/
def Op.Guarded {ι : Type*} (s : Calls ι Db Call) (i : ι) : Op → Prop
  | .updateChannel _ => True
  | .closeChannel id _ => Alone (Call.Touches id) s.call i
  | .disputeChannel a =>
    Alone (Call.Settles a.channelId) s.call i ∧ ¬s.shared.HasStatus a.channelId .settled
  | .forceCloseChannel id _ => Alone (Call.Touches id) s.call i ∧ s.shared.Spent id

/-- The condition on a call: besides that on its operation, the write that follows a payment does
not fail, and a dispute presents a balance that fits the capacity. -/
def Call.Guarded {ι : Type*} (s : Calls ι Db Call) (i : ι) (env : Env) : Call → Prop
  | .start op => op.Guarded s i
  | .writeSettled _ channel _ | .writeClosed _ channel => 0 < channel.balance → env.dbError = none
  | .writeDisputed d => s.shared.Fits d.channelId d.balance
  | _ => True

/-- The condition on a step: the resumed call is `Guarded`. -/
def Guarded {ι : Type*} (s : Calls ι Db Call) (a : ι × Env) : Prop :=
  (s.call a.1).Guarded s a.1 a.2

section Decidable

instance decidableSettles (id : String) : DecidablePred (Call.Settles id)
  | .settlePayment channelId _ _ | .writeSettled channelId _ _ | .closePayment channelId _ _
  | .writeClosed channelId _ => inferInstanceAs (Decidable (channelId = id))
  | .start _ | .offChainUpdate _ | .writeUpdate _ | .writeDisputed _ | .readBack _ | .done _
  | .failed _ => inferInstanceAs (Decidable False)

instance decidableTouches (id : String) : DecidablePred (Call.Touches id)
  | .settlePayment channelId _ _ | .writeSettled channelId _ _ | .closePayment channelId _ _
  | .writeClosed channelId _ => inferInstanceAs (Decidable (channelId = id))
  | .writeDisputed a => inferInstanceAs (Decidable (a.channelId = id))
  | .start _ | .offChainUpdate _ | .writeUpdate _ | .readBack _ | .done _ | .failed _ =>
    inferInstanceAs (Decidable False)

instance decidableHasStatus (db : Db) (id : String) (status : Status) :
    Decidable (db.HasStatus id status) :=
  decidable_of_iff (((db.channels id).any fun channel ↦ channel.status = status) = true)
    (by cases h : db.channels id <;> simp [Db.HasStatus, h])

instance decidableFits (db : Db) (id : String) (balance : ℚ) : Decidable (db.Fits id balance) :=
  decidable_of_iff (((db.channels id).all fun channel ↦ balance ≤ channel.capacity) = true)
    (by cases h : db.channels id <;> simp [Db.Fits, h])

instance decidableSpent (db : Db) (id : String) : Decidable (db.Spent id) :=
  decidable_of_iff (((db.channels id).all fun channel ↦
    channel.status ≠ .settled ∨ channel.balance ≤ 0) = true)
    (by cases h : db.channels id <;> simp [Db.Spent, h, Classical.or_iff_not_imp_left])

variable {ι : Type*} [Fintype ι] [DecidableEq ι] (s : Calls ι Db Call)

instance decidableOpGuarded (i : ι) : DecidablePred (Op.Guarded s i)
  | .updateChannel _ => inferInstanceAs (Decidable True)
  | .closeChannel id _ => inferInstanceAs (Decidable (Alone (Call.Touches id) s.call i))
  | .disputeChannel a => inferInstanceAs (Decidable
      (Alone (Call.Settles a.channelId) s.call i ∧ ¬s.shared.HasStatus a.channelId .settled))
  | .forceCloseChannel id _ =>
    inferInstanceAs (Decidable (Alone (Call.Touches id) s.call i ∧ s.shared.Spent id))

instance decidableCallGuarded (i : ι) (env : Env) : DecidablePred (Call.Guarded s i env)
  | .start op => inferInstanceAs (Decidable (op.Guarded s i))
  | .writeSettled _ channel _ | .writeClosed _ channel =>
    inferInstanceAs (Decidable (0 < channel.balance → env.dbError = none))
  | .writeDisputed d => inferInstanceAs (Decidable (s.shared.Fits d.channelId d.balance))
  | .offChainUpdate _ | .writeUpdate _ | .settlePayment .. | .closePayment .. | .readBack _
  | .done _ | .failed _ => inferInstanceAs (Decidable True)

instance decidableGuarded (a : ι × Env) : Decidable (Guarded s a) :=
  decidableCallGuarded s a.1 a.2 (s.call a.1)

end Decidable

/-- The signature is that of the message under the secret that comes with it. -/
def SelfSigned (pf : Platform) (message : String) (signature secretKey : Option String) : Prop :=
  ∃ key ∈ secretKey, ∃ s ∈ signature,
    JsString.bufferFromHex (pf.hmacHex key message) = JsString.bufferFromHex s

/-! ## What the operations decide on what they read -/

section Checks

variable {pf : Platform} {db : Db} {env : Env}

theorem requireField_some_eq_ok {name : String} {value : Option String} {x : String} :
    requireField name value = .ok x ↔ value = some x ∧ x ≠ "" := by
  cases value with
  | none => exact iff_of_false (by rintro ⟨⟩) (by rintro ⟨⟨⟩, -⟩)
  | some s =>
    rw [requireField]
    by_cases hs : s = ""
    · simp [hs]
    · simp only [ne_eq, hs, not_false_eq_true, if_true, Except.ok.injEq, Option.some.injEq]
      exact ⟨fun h ↦ ⟨h, h ▸ hs⟩, fun h ↦ h.1⟩

theorem ensure_eq_ok_iff {p : Prop} [Decidable p] {e : AppError} {u : Unit} :
    ensure p e = .ok u ↔ p := by
  rw [ensure, Except.guard_eq_ok]
  exact and_iff_left rfl

theorem getChannel_eq_ok_iff {id : String} {r : Channel} :
    getChannel db id env = .ok r ↔ env.dbError = none ∧ db.channels id = some r := by
  rw [getChannel]
  cases env.dbError with
  | some e => simp
  | none => cases db.channels id <;> simp

theorem requireSignature_eq_ok {message text : String} {signature secretKey : Option String}
    {u : Unit} :
    requireSignature pf message signature secretKey text = .ok u
      ↔ SelfSigned pf message signature secretKey := by
  rw [requireSignature, verifyStateSignature, SelfSigned]
  cases secretKey with
  | none => exact iff_of_false (by rintro ⟨⟩) (by rintro ⟨_, ⟨⟩, -⟩)
  | some key =>
    cases signature with
    | none => exact iff_of_false (by rintro ⟨⟩) (by rintro ⟨_, -, _, ⟨⟩, -⟩)
    | some s =>
      by_cases hs : JsString.bufferFromHex (pf.hmacHex key message) = JsString.bufferFromHex s
      · simp [signState, bind, Except.bind, pure, Except.pure, hs]
      · simp [signState, bind, Except.bind, pure, Except.pure, hs]

theorem begin_updateChannel {a : UpdateArgs} {c : Call} :
    begin pf db env (.updateChannel a) = .ok c ↔
      ∃ r, a.channelId ≠ "" ∧ 0 < a.amount ∧ env.dbError = none ∧
        db.channels a.channelId = some r ∧ r.status = .open ∧ r.balance + a.amount ≤ r.capacity ∧
        SelfSigned pf (buildStateMessage pf a.channelId (r.sequence + 1) (r.balance + a.amount))
          a.senderSig a.senderSecret ∧
        SelfSigned pf (buildStateMessage pf a.channelId (r.sequence + 1) (r.balance + a.amount))
          a.receiverSig a.receiverSecret ∧
        c = .offChainUpdate ⟨a.channelId, r.sequence + 1, r.balance + a.amount,
          r.signatures ++ [⟨r.sequence + 1, a.senderSig, a.receiverSig, env.now⟩]⟩ := by
  simp only [begin, beginUpdate, requireAmount, Except.bind_eq_ok, requireField_some_eq_ok,
    ensure_eq_ok_iff, getChannel_eq_ok_iff, requireSignature_eq_ok, Except.pure_eq_ok]
  constructor
  · rintro ⟨_, ⟨⟨⟩, hid⟩, ⟨⟩, hamount, r, ⟨herr, hr⟩, u,
      ⟨⟨⟩, hopen, ⟨⟩, hcap, ⟨⟩, hs, ⟨⟩, hr', rfl⟩,
      rfl⟩
    exact ⟨r, hid, hamount, herr, hr, hopen, hcap, hs, hr', rfl⟩
  · rintro ⟨r, hid, hamount, herr, hr, hopen, hcap, hs, hr', rfl⟩
    exact ⟨_, ⟨rfl, hid⟩, (), hamount, r, ⟨herr, hr⟩, _,
      ⟨(), hopen, (), hcap, (), hs, (), hr', rfl⟩,
      rfl⟩

theorem begin_closeChannel {id : String} {secret : Option String} {c : Call} :
    begin pf db env (.closeChannel id secret) = .ok c ↔
      ∃ r, id ≠ "" ∧ (∃ s ∈ secret, s ≠ "") ∧ env.dbError = none ∧ db.channels id = some r ∧
        (r.status = .open ∨ r.status = .disputed) ∧
        c = if pos : 0 < r.balance then .settlePayment id r pos else .writeSettled id r none := by
  simp only [begin, checkClosable, Except.bind_eq_ok, requireField_some_eq_ok, ensure_eq_ok_iff,
    getChannel_eq_ok_iff, Except.pure_eq_ok]
  constructor
  · rintro ⟨_, ⟨⟨⟩, hid⟩, s, ⟨rfl, hs⟩, r, ⟨herr, hr⟩, ⟨⟩, ⟨⟨⟩, -, hopen⟩, rfl⟩
    exact ⟨r, hid, ⟨s, rfl, hs⟩, herr, hr, by simpa using hopen, rfl⟩
  · rintro ⟨r, hid, ⟨s, hsecret, hs⟩, herr, hr, hopen, rfl⟩
    refine ⟨_, ⟨rfl, hid⟩, s, ⟨hsecret, hs⟩, r, ⟨herr, hr⟩, (), ⟨(), ?_, by simpa using hopen⟩, rfl⟩
    rintro (hclosed | hsettled)
    · rcases hopen with h | h <;> rw [hclosed] at h <;> cases h
    · rcases hopen with h | h <;> rw [hsettled] at h <;> cases h

theorem begin_disputeChannel {a : DisputeArgs} {c : Call} :
    begin pf db env (.disputeChannel a) = .ok c ↔
      ∃ r, a.channelId ≠ "" ∧ env.dbError = none ∧ db.channels a.channelId = some r ∧
        (r.status = .open ∨ r.status = .settled) ∧ r.sequence < a.sequence ∧
        env.now - r.updatedAt ≤ disputeWindowMs ∧
        SelfSigned pf (buildStateMessage pf a.channelId a.sequence a.balance) a.senderSig
          a.senderSecret ∧
        SelfSigned pf (buildStateMessage pf a.channelId a.sequence a.balance) a.receiverSig
          a.receiverSecret ∧ c = .writeDisputed a := by
  simp only [begin, checkDispute, Except.bind_eq_ok, requireField_some_eq_ok, ensure_eq_ok_iff,
    getChannel_eq_ok_iff, requireSignature_eq_ok, Except.pure_eq_ok]
  constructor
  · rintro ⟨_, ⟨⟨⟩, hid⟩, r, ⟨herr, hr⟩, ⟨⟩, ⟨⟨⟩, hstatus, ⟨⟩, hseq, ⟨⟩, hwindow, ⟨⟩, hs, hs'⟩, rfl⟩
    exact ⟨r, hid, herr, hr, by simpa using hstatus, hseq, hwindow, hs, hs', rfl⟩
  · rintro ⟨r, hid, herr, hr, hstatus, hseq, hwindow, hs, hs', rfl⟩
    exact ⟨_, ⟨rfl, hid⟩, r, ⟨herr, hr⟩, (),
      ⟨(), by simpa using hstatus, (), hseq, (), hwindow, (), hs, hs'⟩, rfl⟩

theorem begin_forceCloseChannel {id : String} {secret : Option String} {c : Call} :
    begin pf db env (.forceCloseChannel id secret) = .ok c ↔
      ∃ r, id ≠ "" ∧ (∃ s ∈ secret, s ≠ "") ∧ env.dbError = none ∧ db.channels id = some r ∧
        r.status ≠ .closed ∧ (r.status = .open → channelTimeoutMs < env.now - r.updatedAt) ∧
        c = if pos : 0 < r.balance then .closePayment id r pos else .writeClosed id r := by
  simp only [begin, checkForceClosable, Except.bind_eq_ok, requireField_some_eq_ok,
    ensure_eq_ok_iff, getChannel_eq_ok_iff, Except.pure_eq_ok, not_and, not_not]
  constructor
  · rintro ⟨_, ⟨⟨⟩, hid⟩, s, ⟨rfl, hs⟩, r, ⟨herr, hr⟩, ⟨⟩, ⟨⟨⟩, hclosed, htime⟩, rfl⟩
    exact ⟨r, hid, ⟨s, rfl, hs⟩, herr, hr, hclosed, htime, rfl⟩
  · rintro ⟨r, hid, ⟨s, hsecret, hs⟩, herr, hr, hclosed, htime, rfl⟩
    exact ⟨_, ⟨rfl, hid⟩, s, ⟨hsecret, hs⟩, r, ⟨herr, hr⟩, (), ⟨(), hclosed, htime⟩, rfl⟩

end Checks

/-! ## Rows and payments -/

section Rows

variable {db : Db} {id id' : String} {f : Channel → Channel} {channel : Channel}

theorem update_channels (h : (db.update id f).channels id' = some channel) :
    (id' = id ∧ ∃ r, db.channels id' = some r ∧ f r = channel) ∨
      id' ≠ id ∧ db.channels id' = some channel := by
  rw [Db.update] at h
  dsimp only at h
  rcases eq_or_ne id' id with rfl | hne
  · rw [Function.update_self, Option.map_eq_some_iff] at h
    exact .inl ⟨rfl, h⟩
  · rw [Function.update_of_ne hne] at h
    exact .inr ⟨hne, h⟩

theorem fits_update (hf : ∀ r, (f r).capacity = r.capacity) {balance : ℚ}
    (h : db.Fits id' balance) : (db.update id f).Fits id' balance := by
  intro channel hchannel
  rcases update_channels hchannel with ⟨-, r, hr, rfl⟩ | ⟨-, hr⟩
  · rw [hf]
    exact h r hr
  · exact h channel hr

end Rows

/-! ## The invariant -/

section Invariant

variable {ι : Type*}

/-- The balance a call holds and may still write or pay. -/
def Call.Sound (db : Db) : Call → Prop
  | .offChainUpdate u | .writeUpdate u => db.Fits u.channelId u.newBalance
  | .settlePayment id channel _ | .closePayment id channel _ => db.Fits id channel.balance
  | _ => True

def Call.Paid (id : String) : Call → Prop
  | .writeSettled channelId channel _ | .writeClosed channelId channel =>
    channelId = id ∧ 0 < channel.balance
  | _ => False

/-- The call goes on as if nothing had been paid out of the channel. -/
def Call.Relies (id : String) : Call → Prop
  | .settlePayment channelId _ _ | .closePayment channelId _ _ => channelId = id
  | .writeDisputed a => a.channelId = id
  | _ => False

theorem Call.Paid.settles {id : String} {c : Call} (h : c.Paid id) : c.Settles id := by
  cases c with
  | writeSettled | writeClosed => exact h.1
  | _ => exact h.elim

theorem Call.Relies.touches {id : String} {c : Call} (h : c.Relies id) : c.Touches id := by
  cases c with
  | settlePayment | closePayment | writeDisputed => exact h
  | _ => exact h.elim

theorem Call.Settles.touches {id : String} {c : Call} (h : c.Settles id) : c.Touches id := by
  cases c with
  | settlePayment | writeSettled | closePayment | writeClosed => exact h
  | _ => exact h.elim

/-- Two calls are not both at work on a channel when one of them settles it. -/
def Apart (c c' : Call) : Prop :=
  ∀ id, (c.Settles id → ¬c'.Touches id) ∧ (c'.Settles id → ¬c.Touches id)

theorem Apart.symm {c c' : Call} (h : Apart c c') : Apart c' c := fun id ↦ (h id).symm

theorem apart_of_not_touches {c : Call} (h : ∀ id, ¬c.Touches id) (c' : Call) : Apart c c' :=
  fun id ↦ ⟨fun hs ↦ absurd hs.touches (h id), fun _ ↦ h id⟩

/-- The row says that nothing may be paid out of the channel any more. -/
def Finished (channel : Channel) : Prop := channel.status = .settled ∨ channel.status = .closed

structure Orderly (s : Calls ι Db Call) : Prop where
  capacity : ∀ id channel, s.shared.channels id = some channel → 0 ≤ channel.capacity
  balance : ∀ id channel, s.shared.channels id = some channel → channel.balance ≤ channel.capacity
  sound : ∀ i, (s.call i).Sound s.shared
  apart : ∀ i j, i ≠ j → Apart (s.call i) (s.call j)
  unpaid : ∀ i id, (s.call i).Relies id → s.shared.payouts id = []
  fits : ∀ id, ∀ p ∈ s.shared.payouts id, s.shared.Fits id p.balance
  once : ∀ id, (s.shared.payouts id).length ≤ 1
  written : ∀ id channel, s.shared.channels id = some channel → s.shared.payouts id ≠ [] →
    Finished channel ∨ ∃ i, (s.call i).Paid id

theorem Orderly.payouts_eq_nil {s : Calls ι Db Call} (h : Orderly s) {i : ι} {id : String}
    {channel : Channel} (hchannel : s.shared.channels id = some channel)
    (hrow : ¬Finished channel) (hown : ¬(s.call i).Paid id)
    (halone : Alone (Call.Settles id) s.call i) : s.shared.payouts id = [] := by
  by_contra hne
  rcases h.written id channel hchannel hne with hfinished | ⟨j, hj⟩
  · exact hrow hfinished
  · rcases eq_or_ne j i with rfl | hji
    · exact hown hj
    · exact halone j hji hj.settles

variable [DecidableEq ι]

theorem apart_update {s : Calls ι Db Call} (h : Orderly s) {i : ι} {c : Call}
    (hapart : ∀ j, j ≠ i → Apart c (s.call j)) :
    ∀ j k, j ≠ k → Apart (Function.update s.call i c j) (Function.update s.call i c k) := by
  intro j k hjk
  rcases eq_or_ne j i with rfl | hj
  · rw [Function.update_self, Function.update_of_ne hjk.symm]
    exact hapart k hjk.symm
  · rw [Function.update_of_ne hj]
    rcases eq_or_ne k i with rfl | hk
    · rw [Function.update_self]
      exact (hapart j hj).symm
    · rw [Function.update_of_ne hk]
      exact h.apart j k hjk

theorem forall_update {P : Call → Prop} {call : ι → Call} {i : ι} {c : Call} (hc : P c)
    (h : ∀ j, j ≠ i → P (call j)) (j : ι) : P (Function.update call i c j) :=
  (Function.forall_update_iff call fun _ ↦ P).mpr ⟨hc, h⟩ j

theorem exists_paid_update {s : Calls ι Db Call} {i j : ι} {c : Call} {id : String}
    (hj : (s.call j).Paid id) (hpaid : (s.call i).Paid id → c.Paid id) :
    ∃ k, (Function.update s.call i c k).Paid id := by
  refine ⟨j, ?_⟩
  rcases eq_or_ne j i with rfl | hji
  · rw [Function.update_self]
    exact hpaid hj
  · rwa [Function.update_of_ne hji]

theorem Orderly.move {s : Calls ι Db Call} (h : Orderly s) {i : ι} {c : Call}
    (hsound : c.Sound s.shared) (hapart : ∀ j, j ≠ i → Apart c (s.call j))
    (hunpaid : ∀ id, c.Relies id → s.shared.payouts id = [])
    (hpaid : ∀ id, (s.call i).Paid id → c.Paid id) :
    Orderly (⟨s.shared, Function.update s.call i c⟩ : Calls ι Db Call) :=
  { capacity := h.capacity
    balance := h.balance
    sound := forall_update (P := Call.Sound s.shared) hsound fun j _ ↦ h.sound j
    apart := apart_update h hapart
    unpaid := forall_update (P := fun c ↦ ∀ id, c.Relies id → s.shared.payouts id = []) hunpaid
      fun j _ ↦ h.unpaid j
    fits := h.fits
    once := h.once
    written := fun id channel hchannel hne ↦ (h.written id channel hchannel hne).imp_right
      fun ⟨_, hj⟩ ↦ exists_paid_update hj (hpaid id) }

theorem Orderly.rest {s : Calls ι Db Call} (h : Orderly s) {i : ι} {c : Call}
    (hsound : c.Sound s.shared) (htouch : ∀ id, ¬c.Touches id)
    (hpaid : ∀ id, ¬(s.call i).Paid id) :
    Orderly (⟨s.shared, Function.update s.call i c⟩ : Calls ι Db Call) :=
  h.move hsound (fun j _ ↦ apart_of_not_touches htouch (s.call j))
    (fun id hid ↦ absurd hid.touches (htouch id)) fun id hid ↦ absurd hid (hpaid id)

/-- A call writes the row. If it had paid, the row now says so; if the row said that the channel is
finished, it still does, unless nothing was paid. -/
theorem Orderly.write {s : Calls ι Db Call} (h : Orderly s) {i : ι} {id : String}
    {f : Channel → Channel} (hf : ∀ r, (f r).capacity = r.capacity)
    (hbalance : ∀ r, s.shared.channels id = some r → (f r).balance ≤ r.capacity)
    (hpaid : ∀ id', (s.call i).Paid id' → id' = id ∧ ∀ r, Finished (f r))
    (hfinished : (∀ r, Finished r → Finished (f r)) ∨ s.shared.payouts id = []) :
    Orderly
      (⟨s.shared.update id f, Function.update s.call i (.readBack id)⟩ : Calls ι Db Call) where
  capacity id' channel hchannel := by
    rcases update_channels hchannel with ⟨-, r, hr, rfl⟩ | ⟨-, hr⟩
    · rw [hf]
      exact h.capacity id' r hr
    · exact h.capacity id' channel hr
  balance id' channel hchannel := by
    rcases update_channels hchannel with ⟨rfl, r, hr, rfl⟩ | ⟨-, hr⟩
    · rw [hf]
      exact hbalance r hr
    · exact h.balance id' channel hr
  sound := by
    refine forall_update (P := Call.Sound _) trivial fun j _ ↦ ?_
    have hsound := h.sound j
    cases hcall : s.call j <;> rw [hcall] at hsound <;>
      first | trivial | exact fits_update hf hsound
  apart := apart_update h fun j _ ↦
    apart_of_not_touches (c := .readBack id) (fun _ ht ↦ ht) (s.call j)
  unpaid := forall_update (P := fun c ↦ ∀ id', c.Relies id' → s.shared.payouts id' = [])
    (fun _ hid ↦ hid.elim) fun j _ ↦ h.unpaid j
  fits id' p hp := fits_update hf (h.fits id' p hp)
  once := h.once
  written id' channel hchannel hne := by
    rcases update_channels hchannel with ⟨rfl, r, hr, rfl⟩ | ⟨hother, hr⟩
    · rcases h.written id' r hr hne with hrow | ⟨j, hj⟩
      · exact .inl (hfinished.resolve_right hne r hrow)
      · rcases eq_or_ne j i with rfl | hji
        · exact .inl ((hpaid id' hj).2 r)
        · refine .inr ⟨j, ?_⟩
          dsimp only
          rwa [Function.update_of_ne hji]
    · refine (h.written id' channel hr hne).imp_right fun ⟨j, hj⟩ ↦ ?_
      exact exists_paid_update hj fun hi ↦ absurd (hpaid id' hi).1 hother

theorem Orderly.pay {s : Calls ι Db Call} (h : Orderly s) {i : ι} {id : String} {p : Payout}
    {c : Call} (hrelies : (s.call i).Relies id) (hsettles : (s.call i).Settles id)
    (hfits : s.shared.Fits id p.balance) (hsound : c.Sound s.shared) (hpaid : c.Paid id)
    (htouch : ∀ id', c.Touches id' ↔ id' = id) (hrests : ∀ id', ¬c.Relies id')
    (hbefore : ∀ id', ¬(s.call i).Paid id') :
    Orderly (⟨s.shared.payOut id p, Function.update s.call i c⟩ : Calls ι Db Call) := by
  have hnone : s.shared.payouts id = [] := h.unpaid i id hrelies
  have hself : ∀ id', (Db.payOut s.shared id p).payouts id'
      = if id' = id then [p] else s.shared.payouts id' := by
    intro id'
    rw [Db.payOut]
    dsimp only
    split_ifs with hid
    · rw [hid, Function.update_self, hnone]
    · rw [Function.update_of_ne hid]
  constructor
  case capacity => exact h.capacity
  case balance => exact h.balance
  case sound => exact forall_update (P := Call.Sound s.shared) hsound fun j _ ↦ h.sound j
  case apart =>
    refine apart_update h fun j hj id' ↦ ⟨fun hs ↦ ?_, fun hs ht ↦ ?_⟩
    · rw [(htouch id').mp hs.touches]
      exact (h.apart i j hj.symm id).1 hsettles
    · rw [(htouch id').mp ht] at hs
      exact (h.apart i j hj.symm id).1 hsettles hs.touches
  case unpaid =>
    -- a call that still relies on the channel would have been at work on it beside this one
    refine forall_update
      (P := fun c ↦ ∀ id', c.Relies id' → (s.shared.payOut id p).payouts id' = [])
      (fun id' hid ↦ absurd hid (hrests id')) fun j hj id' hid ↦ ?_
    rw [hself, if_neg]
    · exact h.unpaid j id' hid
    · rintro rfl
      exact (h.apart i j hj.symm id').1 hsettles hid.touches
  case fits =>
    intro id' p' hp'
    dsimp only at hp'
    rw [hself] at hp'
    split_ifs at hp' with hid
    · rw [hid, List.mem_singleton.mp hp']
      exact hfits
    · exact h.fits id' p' hp'
  case once =>
    intro id'
    dsimp only
    rw [hself]
    split_ifs
    · rw [List.length_singleton]
    · exact h.once id'
  case written =>
    intro id' channel hchannel hne
    rcases eq_or_ne id' id with rfl | hid
    · refine .inr ⟨i, ?_⟩
      dsimp only
      rw [Function.update_self]
      exact hpaid
    · dsimp only at hne
      rw [hself, if_neg hid] at hne
      refine (h.written id' channel hchannel hne).imp_right fun ⟨j, hj⟩ ↦ ?_
      exact exists_paid_update hj fun hi ↦ absurd hi (hbefore id')

end Invariant

/-! ## Runs -/

section Runs

variable {ι : Type*} [DecidableEq ι] {pf : Platform}

theorem fits_of_row {db : Db} {id : String} {r : Channel} {balance : ℚ}
    (hr : db.channels id = some r) (hle : balance ≤ r.capacity) : db.Fits id balance := by
  intro r' hr'
  obtain rfl : r = r' := Option.some.inj (hr.symm.trans hr')
  exact hle

theorem orderly_settle {s : Calls ι Db Call} (h : Orderly s) {i : ι} {id : String} {r : Channel}
    {op : Op} (hcall : s.call i = .start op) (hr : s.shared.channels id = some r)
    (halone : Alone (Call.Touches id) s.call i) (hopen : 0 < r.balance → ¬Finished r)
    {paying : 0 < r.balance → Call} {writing : Call}
    (hpaying : ∀ pos, (paying pos).Sound s.shared ∧ (∀ id', (paying pos).Touches id' ↔ id' = id) ∧
      ∀ id', (paying pos).Relies id' → id' = id)
    (hwriting : writing.Sound s.shared ∧ (∀ id', writing.Touches id' ↔ id' = id) ∧
      ∀ id', ¬writing.Relies id') :
    Orderly (⟨s.shared, Function.update s.call i
      (if pos : 0 < r.balance then paying pos else writing)⟩ : Calls ι Db Call) := by
  have hown : ∀ id', ¬(s.call i).Paid id' := by
    rw [hcall]
    exact fun _ hid ↦ hid
  have hapart : ∀ c : Call, (∀ id', c.Touches id' ↔ id' = id) →
      ∀ j, j ≠ i → Apart c (s.call j) := by
    intro c htouch j hj id'
    refine ⟨fun hs ↦ ?_, fun hs ht ↦ ?_⟩
    · rw [(htouch id').mp hs.touches]
      exact halone j hj
    · rw [(htouch id').mp ht] at hs
      exact halone j hj hs.touches
  split_ifs with pos
  · obtain ⟨hsound, htouch, hrelies⟩ := hpaying pos
    refine h.move hsound (hapart _ htouch) (fun id' hid ↦ ?_) fun id' hid ↦ absurd hid (hown id')
    rw [hrelies id' hid]
    exact h.payouts_eq_nil hr (hopen pos) (hown id) fun j hj hs ↦ halone j hj hs.touches
  · obtain ⟨hsound, htouch, hrelies⟩ := hwriting
    exact h.move hsound (hapart _ htouch) (fun id' hid ↦ absurd hid (hrelies id'))
      fun id' hid ↦ absurd hid (hown id')

/-- **An operation that starts**: what it goes on with is apart from the other calls, and fits. -/
theorem orderly_begin {s : Calls ι Db Call} (h : Orderly s) {i : ι} {env : Env} {op : Op} {c : Call}
    (hcall : s.call i = .start op) (hguard : op.Guarded s i)
    (hbegin : begin pf s.shared env op = .ok c) :
    Orderly (⟨s.shared, Function.update s.call i c⟩ : Calls ι Db Call) := by
  have hown : ∀ id', ¬(s.call i).Paid id' := by
    rw [hcall]
    exact fun _ hid ↦ hid
  cases op with
  | updateChannel a =>
    obtain ⟨r, -, -, -, hr, -, hcap, -, -, rfl⟩ := begin_updateChannel.mp hbegin
    exact h.rest (fits_of_row hr hcap) (fun _ ht ↦ ht) hown
  | closeChannel id secret =>
    obtain ⟨r, -, -, -, hr, hstatus, rfl⟩ := begin_closeChannel.mp hbegin
    have hopen : ¬Finished r := by
      rintro (hsettled | hclosed)
      · rcases hstatus with hs | hs <;> rw [hsettled] at hs <;> cases hs
      · rcases hstatus with hs | hs <;> rw [hclosed] at hs <;> cases hs
    exact orderly_settle h hcall hr hguard (fun _ ↦ hopen)
      (fun pos ↦ ⟨fits_of_row hr (h.balance id r hr), fun _ ↦ eq_comm, fun _ ↦ Eq.symm⟩)
      ⟨trivial, fun _ ↦ eq_comm, fun _ hid ↦ hid⟩
  | disputeChannel a =>
    obtain ⟨r, -, -, hr, hstatus, -, -, -, -, rfl⟩ := begin_disputeChannel.mp hbegin
    obtain ⟨halone, hunsettled⟩ := hguard
    have hopen : r.status = .open := hstatus.resolve_right fun hs ↦ hunsettled ⟨r, hr, hs⟩
    refine h.move trivial (fun j hj id' ↦ ⟨fun hs ↦ hs.elim, fun hs ht ↦ ?_⟩) (fun id' hid ↦ ?_)
      fun id' hid ↦ absurd hid (hown id')
    · obtain rfl : a.channelId = id' := ht
      exact halone j hj hs
    · obtain rfl : a.channelId = id' := hid
      refine h.payouts_eq_nil hr ?_ (hown _) halone
      rintro (hs | hs) <;> rw [hopen] at hs <;> cases hs
  | forceCloseChannel id secret =>
    obtain ⟨r, -, -, -, hr, hclosed, -, rfl⟩ := begin_forceCloseChannel.mp hbegin
    obtain ⟨halone, hspent⟩ := hguard
    refine orderly_settle h hcall hr halone (fun pos ↦ ?_)
      (fun pos ↦ ⟨fits_of_row hr (h.balance id r hr), fun _ ↦ eq_comm, fun _ ↦ Eq.symm⟩)
      ⟨trivial, fun _ ↦ eq_comm, fun _ hid ↦ hid⟩
    rintro (hs | hs)
    · exact absurd pos (hspent r hr hs).not_gt
    · exact hclosed hs

theorem orderly_step_write {s : Calls ι Db Call} (h : Orderly s) {i : ι} {env : Env} {c : Call}
    {id : String} {f : Channel → Channel} (hcall : s.call i = c)
    (hresume : resume pf s.shared c env = write s.shared id f env)
    (hf : ∀ r, (f r).capacity = r.capacity)
    (hbalance : ∀ r, s.shared.channels id = some r → (f r).balance ≤ r.capacity)
    (hpaid : ∀ id', c.Paid id' → env.dbError = none ∧ id' = id ∧ ∀ r, Finished (f r))
    (hfinished : (∀ r, Finished r → Finished (f r)) ∨ s.shared.payouts id = []) :
    Orderly (step pf s (i, env)) := by
  subst hcall
  rw [step, Calls.step, hresume]
  cases herr : env.dbError with
  | some e =>
    simp only [Channels.write, herr]
    refine h.rest trivial (fun _ ht ↦ ht) fun id' hid' ↦ ?_
    rw [(hpaid id' hid').1] at herr
    cases herr
  | none =>
    simp only [Channels.write, herr]
    exact h.write hf hbalance (fun id' hid' ↦ (hpaid id' hid').2) hfinished

theorem orderly_step_pay {s : Calls ι Db Call} (h : Orderly s) {i : ι} {env : Env} {c : Call}
    {id : String} {p : Payout} {next : Option String → Call} (hcall : s.call i = c)
    (hresume : resume pf s.shared c env = pay s.shared id p env next)
    (hbefore : ∀ id', ¬c.Paid id') (hrelies : c.Relies id) (hsettles : c.Settles id)
    (hfits : s.shared.Fits id p.balance)
    (hnext : ∀ txId, (next txId).Sound s.shared ∧ (next txId).Paid id ∧
      (∀ id', (next txId).Touches id' ↔ id' = id) ∧ ∀ id', ¬(next txId).Relies id') :
    Orderly (step pf s (i, env)) := by
  subst hcall
  rw [step, Calls.step, hresume]
  cases hanswer : env.answer with
  | error e =>
    simp only [Channels.pay, hanswer]
    exact h.rest trivial (fun _ ht ↦ ht) hbefore
  | ok txId =>
    simp only [Channels.pay, hanswer]
    obtain ⟨hsound, hpaid, htouch, hrests⟩ := hnext (orNull txId)
    exact h.pay hrelies hsettles hfits hsound hpaid htouch hrests hbefore

/-- **Every step that meets the condition keeps the invariant.** -/
theorem orderly_step (s : Calls ι Db Call) (a : ι × Env) (h : Orderly s) (hguard : Guarded s a) :
    Orderly (step pf s a) := by
  obtain ⟨i, env⟩ := a
  have hsound := h.sound i
  rw [Guarded] at hguard
  dsimp only at hguard
  -- a call that ends, or only has to read the row once more
  have hrest : ∀ c : Call, c.Sound s.shared → (∀ id, ¬c.Touches id) →
      (∀ id, ¬(s.call i).Paid id) → resume pf s.shared (s.call i) env = (s.shared, c) →
        Orderly (step pf s (i, env)) := by
    intro c hc htouch hpaid hresume
    rw [step, Calls.step, hresume]
    exact h.rest hc htouch hpaid
  cases hcall : s.call i with
  | start op =>
    rw [hcall] at hguard
    cases hbegin : begin pf s.shared env op with
    | ok c =>
      have hresume : resume pf s.shared (s.call i) env = (s.shared, c) := by
        rw [hcall, resume, hbegin]
      rw [step, Calls.step, hresume]
      exact orderly_begin h hcall hguard hbegin
    | error e =>
      refine hrest (.failed e) trivial (fun _ ht ↦ ht) ?_ ?_
      · rw [hcall]
        exact fun _ hid ↦ hid
      · rw [hcall, resume, hbegin]
  | offChainUpdate u =>
    rw [hcall] at hsound
    have hown : ∀ id, ¬(s.call i).Paid id := by
      rw [hcall]
      exact fun _ hid ↦ hid
    have hresume : resume pf s.shared (s.call i) env = (s.shared, .writeUpdate u) ∨
        ∃ e, resume pf s.shared (s.call i) env = (s.shared, .failed e) := by
      rw [hcall, resume]
      split
      · exact .inl rfl
      · exact .inr ⟨_, rfl⟩
      · exact .inr ⟨_, rfl⟩
    rcases hresume with hresume | ⟨e, hresume⟩
    · exact hrest (.writeUpdate u) hsound (fun _ ht ↦ ht) hown hresume
    · exact hrest (.failed e) trivial (fun _ ht ↦ ht) hown hresume
  | writeUpdate u =>
    rw [hcall] at hsound
    exact orderly_step_write h hcall rfl (fun _ ↦ rfl) hsound (fun _ hid ↦ hid.elim)
      (.inl fun _ hr ↦ hr)
  | settlePayment id channel pos =>
    rw [hcall] at hsound
    exact orderly_step_pay h hcall rfl (fun _ hid ↦ hid) rfl rfl hsound fun _ ↦
      ⟨trivial, ⟨rfl, pos⟩, fun _ ↦ eq_comm, fun _ hid ↦ hid⟩
  | writeSettled id channel txId =>
    rw [hcall] at hguard
    exact orderly_step_write h hcall rfl (fun _ ↦ rfl) (h.balance id)
      (fun id' hid ↦ ⟨hguard hid.2, hid.1.symm, fun _ ↦ .inl rfl⟩) (.inl fun _ _ ↦ .inl rfl)
  | writeDisputed d =>
    rw [hcall] at hguard
    refine orderly_step_write h hcall rfl (fun _ ↦ rfl) hguard (fun _ hid ↦ hid.elim)
      (.inr (h.unpaid i d.channelId ?_))
    rw [hcall]
    exact rfl
  | closePayment id channel pos =>
    rw [hcall] at hsound
    have hresume : resume pf s.shared (.closePayment id channel pos) env
        = pay s.shared id ⟨channel.sequence, channel.balance, .account channel.senderKey⟩ env
          fun _ ↦ .writeClosed id channel := rfl
    exact orderly_step_pay h hcall hresume (fun _ hid ↦ hid) rfl rfl hsound fun _ ↦
      ⟨trivial, ⟨rfl, pos⟩, fun _ ↦ eq_comm, fun _ hid ↦ hid⟩
  | writeClosed id channel =>
    rw [hcall] at hguard
    exact orderly_step_write h hcall rfl (fun _ ↦ rfl) (h.balance id)
      (fun id' hid ↦ ⟨hguard hid.2, hid.1.symm, fun _ ↦ .inr rfl⟩) (.inl fun _ _ ↦ .inr rfl)
  | readBack id =>
    have hresume : ∃ c, resume pf s.shared (s.call i) env = (s.shared, c) ∧ c.Sound s.shared ∧
        ∀ id, ¬c.Touches id := by
      rw [hcall, resume]
      split
      · exact ⟨_, rfl, trivial, fun _ ht ↦ ht⟩
      · exact ⟨_, rfl, trivial, fun _ ht ↦ ht⟩
    obtain ⟨c, hresume, hc, htouch⟩ := hresume
    refine hrest c hc htouch ?_ hresume
    rw [hcall]
    exact fun _ hid ↦ hid
  | done channel =>
    refine hrest (.done channel) trivial (fun _ ht ↦ ht) ?_ ?_
    · rw [hcall]
      exact fun _ hid ↦ hid
    · rw [hcall, resume]
  | failed e =>
    refine hrest (.failed e) trivial (fun _ ht ↦ ht) ?_ ?_
    · rw [hcall]
      exact fun _ hid ↦ hid
    · rw [hcall, resume]

/-- Channels as `openChannel` makes them, none of them paid. -/
structure Opened (db : Db) : Prop where
  made : ∀ id channel, db.channels id = some channel →
    ∃ a escrow now, openChannel a id escrow now = .ok channel
  unpaid : ∀ id, db.payouts id = []

def initial (db : Db) (op : ι → Op) : Calls ι Db Call := ⟨db, fun i ↦ .start (op i)⟩

theorem openChannel_eq_ok {a : OpenArgs} {id : String} {escrow : Except AppError String} {now : ℤ}
    {channel : Channel} (h : openChannel a id escrow now = .ok channel) :
    channel.balance = 0 ∧ 0 < channel.capacity ∧ channel.sequence = 0 := by
  obtain ⟨senderKey, -, h⟩ := Except.bind_eq_ok.mp h
  obtain ⟨receiverKey, -, h⟩ := Except.bind_eq_ok.mp h
  obtain ⟨_, hargs, h⟩ := Except.bind_eq_ok.mp h
  obtain ⟨escrowSecret, -, h⟩ := Except.bind_eq_ok.mp h
  obtain rfl := Except.pure_eq_ok.mp h
  obtain ⟨-, hargs⟩ := Except.guard_not_eq_ok.mp hargs
  obtain ⟨hcap, -⟩ := Except.guard_not_eq_ok.mp hargs
  exact ⟨rfl, not_le.mp hcap, rfl⟩

omit [DecidableEq ι] in
theorem orderly_initial {db : Db} (hdb : Opened db) (op : ι → Op) : Orderly (initial db op) := by
  have hrow : ∀ id channel, db.channels id = some channel →
      channel.balance = 0 ∧ 0 < channel.capacity := by
    intro id channel hchannel
    obtain ⟨a, escrow, now, hopen⟩ := hdb.made id channel hchannel
    exact (openChannel_eq_ok hopen).imp_right And.left
  constructor
  case capacity => exact fun id channel hchannel ↦ (hrow id channel hchannel).2.le
  case balance =>
    intro id channel hchannel
    obtain ⟨hzero, hpos⟩ := hrow id channel hchannel
    rw [hzero]
    exact hpos.le
  case sound => exact fun _ ↦ trivial
  case apart =>
    exact fun i j _ ↦ apart_of_not_touches (c := .start (op i)) (fun _ ht ↦ ht) (.start (op j))
  case unpaid => exact fun _ id _ ↦ hdb.unpaid id
  case fits =>
    intro id p hp
    have hmem : p ∈ db.payouts id := hp
    rw [hdb.unpaid id] at hmem
    cases hmem
  case once =>
    intro id
    have hlength : (db.payouts id).length = 0 := by rw [hdb.unpaid id, List.length_nil]
    exact hlength.trans_le zero_le_one
  case written => exact fun id channel hchannel hne ↦ absurd (hdb.unpaid id) hne

end Runs

section Examples

def fixedPlatform : Platform where
  hmacHex key message :=
    if (key, message) = ("SSENDER", "channel:ch1:seq:1:balance:10") then
      "ea570f0ca85d0ee29487522210c4564746d4f0bd67802c3f20d3a15e40de7c40"
    else if (key, message) = ("SRECEIVER", "channel:ch1:seq:1:balance:10") then
      "e5caf12f9807949846eb96a19c4269f6d8a8f2eb4cb9fff8217dc533b5b2cccd"
    else if (key, message) = ("SSENDER", "channel:ch1:seq:1:balance:5") then
      "7c5bacc365dc38ff7600991c6c024700a59f898c608cbfc51ad74a7f0851e206"
    else if (key, message) = ("SRECEIVER", "channel:ch1:seq:1:balance:5") then
      "83a1d1be34959a6d90829fbc6ce2ed6c996e509de7c5b4883241e1de774337b0"
    else ""
  showNumber x := toString x.num

def tenXlmChannel : Channel where
  id := "ch1"
  senderKey := "GSENDER"
  receiverKey := "GRECEIVER"
  capacity := 10
  balance := 0
  sequence := 0
  status := .open
  signatures := []
  disputedAt := none
  disputeSeq := none
  settledAt := none
  closedAt := none
  escrowSecret := some "SESCROW"
  stellarTxId := none
  createdAt := 0
  updatedAt := 0

def tenXlmDb : Db where
  channels id := if id = "ch1" then some tenXlmChannel else none
  payouts _ := []

theorem opened_tenXlmDb : Opened tenXlmDb where
  made id channel hchannel := by
    have hid : id = "ch1" ∧ tenXlmChannel = channel := by simpa [tenXlmDb] using hchannel
    obtain ⟨rfl, rfl⟩ := hid
    exact ⟨⟨some "GSENDER", some "GRECEIVER", 10, some "SSOURCE", none, none⟩, .ok "SESCROW", 0,
      rfl⟩
  unpaid _ := rfl

def fiveXlmUpdate : Op := .updateChannel
  { channelId := "ch1", amount := 5
    senderSecret := some "SSENDER", receiverSecret := some "SRECEIVER"
    senderSig := some "7c5bacc365dc38ff7600991c6c024700a59f898c608cbfc51ad74a7f0851e206"
    receiverSig := some "83a1d1be34959a6d90829fbc6ce2ed6c996e509de7c5b4883241e1de774337b0" }

def okEnv : Env := ⟨1000, none, .ok true, .ok (some "tx")⟩

/-- The second and the third operation read the row before either writes it. -/
def overlappingRun : List (Fin 3 × Env) :=
  List.replicate 4 (0, okEnv) ++ [(1, okEnv), (2, okEnv), (1, okEnv), (2, okEnv)]

end Examples

end StellarDonations.Channels
