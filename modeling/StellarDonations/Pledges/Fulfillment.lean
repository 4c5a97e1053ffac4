import StellarDonations.Concurrency.PayThenMark
import StellarDonations.Stellar.Payment
import StellarDonations.Text.JsNumber
import StellarDonations.Users

/-!
# Fulfilling pledges

`PledgeFulfillmentService`: `checkAndFulfill` goes through the pending pledges of a campaign, or one
pledge that it is handed, and fulfils those whose condition is met; `fulfillSinglePledge` pays the
pledge and then marks it as fulfilled; `expireOverdue` marks overdue pledges as expired.

The pledge that `fulfillSinglePledge` checks is a row that was read earlier, possibly before many
other awaits. The only look at the stored status is in the `UPDATE` after the payment, and whether
it changed anything is not looked at. A call has the pledges it has read as pending in hand until it
has marked them (`Call.line`, `Call.owes`); when nobody reads or expires what another call has in
hand (`Guarded`), pledges are paid once (`PayThenMark.Sound`). A pledge without a donor's secret or
without a recipient is marked as fulfilled although nothing was paid.
-/

namespace StellarDonations.Pledges

open Concurrency JsString

/-! ## The state -/

inductive PledgeStatus where
  | pending
  | fulfilled
  | expired
  | cancelled
  deriving DecidableEq

structure Pledge where
  id : String
  campaignId : Option ℕ
  donorWalletId : String
  recipientPublicKey : Option String
  amount : ℤ
  status : PledgeStatus
  conditionType : Option String
  conditionValue : Option String
  conditionStatus : String
  expiresAt : Option String
  fulfilledAt : Option ℤ
  webhookSentAt : Option ℤ
  deriving DecidableEq

structure Campaign where
  id : ℕ
  goalAmount : ℚ
  currentAmount : ℚ
  createdBy : Option ℕ
  deriving DecidableEq

/-- The database, and the ids of the pledges that were paid. -/
structure Shared where
  pledges : List Pledge
  campaigns : List Campaign
  users : List User
  payments : List String

namespace Shared

/-- How many payments have succeeded for a pledge. -/
def paid (sh : Shared) (id : String) : ℕ := sh.payments.count id

/-- The stored status of the pledge is `status`. -/
def Has (sh : Shared) (status : PledgeStatus) (id : String) : Prop :=
  ∃ p ∈ sh.pledges, p.id = id ∧ p.status = status

instance decidableHas (sh : Shared) (status : PledgeStatus) (id : String) :
    Decidable (sh.Has status id) :=
  inferInstanceAs (Decidable (∃ p ∈ sh.pledges, p.id = id ∧ p.status = status))

def findById (sh : Shared) (id : String) : Option Pledge := sh.pledges.find? (·.id = id)

/-- `SELECT * FROM pledges WHERE campaign_id = ? AND status = 'pending'`. -/
def pendingByCampaign (sh : Shared) (campaignId : ℕ) : List Pledge :=
  sh.pledges.filter fun p ↦ p.campaignId = some campaignId && p.status = .pending

/-- `Pledge.getNewlyFulfilledPledges`. -/
def newlyFulfilled (sh : Shared) (campaignId : ℕ) : List Pledge :=
  sh.pledges.filter fun p ↦
    p.campaignId = some campaignId && p.status = .fulfilled && p.webhookSentAt.isNone

/-- `expires_at < ?` in the database; the instants are ISO texts. -/
def Overdue (now : String) (p : Pledge) : Prop := p.status = .pending ∧ p.expiresAt.any (· < now)

instance decidableOverdue (now : String) : DecidablePred (Overdue now) := fun p ↦
  inferInstanceAs (Decidable (p.status = .pending ∧ p.expiresAt.any (· < now) = true))

/-- `Pledge.getNewlyExpiredPledges`. -/
def newlyExpired (sh : Shared) (now : String) : List Pledge :=
  sh.pledges.filter fun p ↦
    p.status = .expired && p.expiresAt.any (· < now) && p.webhookSentAt.isNone

/-- `UPDATE pledges SET …`, on the rows that meet a condition. -/
def updateWhere (sh : Shared) (cond : Pledge → Bool) (f : Pledge → Pledge) : Shared :=
  { sh with pledges := sh.pledges.map fun p ↦ if cond p then f p else p }

/-- `UPDATE pledges SET status = 'fulfilled' … WHERE id = ? AND status = 'pending'`. -/
def fulfil (sh : Shared) (id : String) (now : ℤ) : Shared :=
  sh.updateWhere (fun p ↦ p.id = id && p.status = .pending) fun p ↦
    { p with status := .fulfilled, fulfilledAt := some now, conditionStatus := "met" }

def expireOverdue (sh : Shared) (now : String) : Shared :=
  sh.updateWhere (fun p ↦ Overdue now p) fun p ↦ { p with status := .expired }

def markWebhookSent (sh : Shared) (id : String) (now : ℤ) : Shared :=
  sh.updateWhere (fun p ↦ p.id = id) fun p ↦ { p with webhookSentAt := some now }

/-- A payment for the pledge has been made. -/
def pay (sh : Shared) (id : String) : Shared := { sh with payments := id :: sh.payments }

end Shared

/-- The surroundings: how texts are read as dates, and whether the Stellar service can pay. -/
structure Platform where
  parseDate : String → Option ℤ
  canPay : Bool

/-! ## Conditions -/

def Pledge.campaign? (p : Pledge) : Option ℕ := p.campaignId.filter (· ≠ 0)

def normalizeInternalConditionType (p : Pledge) : String :=
  orElse p.conditionType "campaign_goal_percent"

/-- `evaluateCondition`, given the campaign: whether the condition is met. A date that cannot be
read is an error, since `toISOString` throws on it. -/
def evaluateCondition (pl : Platform) (p : Pledge) (campaign : Option Campaign) (now : ℤ) :
    Except AppError Bool :=
  match normalizeInternalConditionType p with
  | "campaign_goal_percent" =>
    match campaign with
    | none => .ok false
    | some c =>
      if c.goalAmount ≤ 0 then .ok false
      else
        match p.conditionValue.elim (some 100) JsNumber.ofString with
        | none => .ok false
        | some threshold => .ok (threshold ≤ c.currentAmount / c.goalAmount * 100)
  | "date" =>
    let target := match orNull p.conditionValue, orNull p.expiresAt with
      | some text, _ | none, some text => pl.parseDate text
      | none, none => some now
    match target with
    | some target => .ok (target ≤ now)
    | none => .error ⟨.rangeError, none, "Invalid time value"⟩
  | _ => .ok false

def legacyGoalReached (p : Pledge) (campaign : Option Campaign) : Bool :=
  !truthy p.conditionType && campaign.any fun c ↦ c.goalAmount ≤ c.currentAmount

/-! ## The calls -/

/-- A call that arrives. A pledge that is handed over is a row as it was read at some time. -/
inductive Request where
  | checkAndFulfill (campaignId : ℕ)
  | checkAndFulfillPledge (p : Pledge)
  | fulfillSinglePledge (id : String)
  | fulfillPledge (p : Pledge)
  | expireOverdue (now : String)

structure Env extends Stellar.PaymentEnv where
  /-- The webhook is delivered. -/
  delivered : Bool
  request : Request

/-- What `fulfillSinglePledge` returns to: its caller, or the loop of `checkAndFulfill` with the
pledges left, the count and the campaign. -/
inductive Return where
  | single
  | loop (rest : List Pledge) (count : ℕ) (campaignId : Option ℕ)

/-- What a call is suspended on. For the record, an update knows whether the pledge was paid, and
a call that ends with an error what it has paid and not marked. -/
inductive Call where
  | idle
  | findPledge (id : String)
  | selectPending (campaignId : ℕ)
  | legacyCampaign (campaignId : ℕ)
  | selectPendingAgain (campaignId : ℕ)
  | loopCampaign (p : Pledge) (rest : List Pledge) (count : ℕ) (campaignId : Option ℕ)
  | conditionCampaign (p : Pledge) (rest : List Pledge) (count : ℕ) (campaignId : Option ℕ)
  | findCampaign (p : Pledge) (k : Return)
  | findRecipient (p : Pledge) (c : Campaign) (k : Return)
  | findDonor (p : Pledge) (recipient : Option String) (k : Return)
  | pay (p : Pledge) (donorSecret recipientPublic : String) (k : Return)
  | fulfil (p : Pledge) (paid : Bool) (k : Return)
  | readBack (p : Pledge) (k : Return)
  | deliver (p : Pledge) (k : Return)
  | markSent (p : Pledge) (k : Return)
  | selectFulfilled (campaignId count : ℕ)
  | deliverFulfilled (p : Pledge) (rest : List Pledge) (count : ℕ)
  | markFulfilledSent (p : Pledge) (rest : List Pledge) (count : ℕ)
  | expire (now : String)
  | selectExpired (now : String) (expired : ℕ)
  | deliverExpired (p : Pledge) (rest : List Pledge) (expired : ℕ)
  | markExpiredSent (p : Pledge) (rest : List Pledge) (expired : ℕ)
  | returned (success : Bool) (p : Option Pledge)
  | counted (n : ℕ)
  | failed (e : AppError) (paid : Option String)

/-- The pledge that a call has paid and not marked. -/
def Call.owes : Call → Option String
  | .fulfil p true _ => some p.id
  | .failed _ paid => paid
  | _ => none

/-- The ids of the pledges that were pending when they were read. -/
def pendingIds (pledges : List Pledge) : List String :=
  (pledges.filter (·.status = .pending)).map (·.id)

/-- The pledges that are left to a loop. -/
def Return.line : Return → List String
  | single => []
  | loop rest _ _ => pendingIds rest

/-- The pledges that a call has read as pending and may still pay or mark. -/
def Call.line : Call → List String
  | .loopCampaign p rest _ _ | .conditionCampaign p rest _ _ => p.id :: pendingIds rest
  | .findCampaign p k | .findRecipient p _ k | .findDonor p _ k | .pay p _ _ k
  | .fulfil p false k => p.id :: k.line
  | .fulfil _ true k | .readBack _ k | .deliver _ k | .markSent _ k => k.line
  | _ => []

/-- `fulfillSinglePledge`, up to its first statement. -/
def beginFulfil (p : Pledge) (k : Return) : Call :=
  match p.campaign? with
  | some _ => .findCampaign p k
  | none => .findDonor p none k

/-- The loop of `checkAndFulfill`, from the next pledge on. -/
def nextPledge (count : ℕ) (campaignId : Option ℕ) : List Pledge → Call
  | [] =>
    match campaignId with
    | some id => .selectFulfilled id count
    | none => .counted count
  | p :: rest =>
    if p.status ≠ .pending then nextPledge count campaignId rest
    else .loopCampaign p rest count campaignId

def afterCondition (p : Pledge) (rest : List Pledge) (count : ℕ) (campaignId : Option ℕ) :
    Except AppError Bool → Call
  | .error e => .failed e none
  | .ok true => beginFulfil p (.loop rest count campaignId)
  | .ok false => nextPledge count campaignId rest

def checkPledge (pl : Platform) (p : Pledge) (rest : List Pledge) (count : ℕ)
    (campaignId : Option ℕ) (campaign : Option Campaign) (now : ℤ) : Call :=
  if normalizeInternalConditionType p = "manual" then nextPledge count campaignId rest
  else if legacyGoalReached p campaign then beginFulfil p (.loop rest count campaignId)
  else if normalizeInternalConditionType p = "campaign_goal_percent" ∧ campaign = none
      ∧ p.campaign? ≠ none then
    -- `evaluateCondition` looks for the campaign once more
    .conditionCampaign p rest count campaignId
  else afterCondition p rest count campaignId (evaluateCondition pl p campaign now)

/-- The payment, when there is a secret, a recipient and a service. -/
def beginPayment (pl : Platform) (p : Pledge) (donor : Option User) (recipient : Option String)
    (k : Return) : Call :=
  match orNull (donor.bind (·.encryptedSecret)),
      orNull (recipient.elim p.recipientPublicKey some) with
  | some secret, some recipientPublic =>
    if pl.canPay then .pay p secret recipientPublic k else .fulfil p false k
  | _, _ => .fulfil p false k

/-- The end of `fulfillSinglePledge`. -/
def Return.success (p : Option Pledge) : Return → Call
  | single => .returned true p
  | loop rest count campaignId => nextPledge (count + 1) campaignId rest

/-- The loop over the fulfilled pledges whose webhook has not been sent. -/
def nextFulfilled (count : ℕ) : List Pledge → Call
  | [] => .counted count
  | p :: rest => .deliverFulfilled p rest count

/-- The loop over the expired pledges whose webhook has not been sent. -/
def nextExpired (expired : ℕ) : List Pledge → Call
  | [] => .counted expired
  | p :: rest => .deliverExpired p rest expired

def Request.start : Request → Call
  | checkAndFulfill campaignId => .selectPending campaignId
  | checkAndFulfillPledge p => nextPledge 0 p.campaign? [p]
  | fulfillSinglePledge id => .findPledge id
  | fulfillPledge p =>
    if p.status ≠ .pending then .returned false (some p) else beginFulfil p .single
  | expireOverdue now => .expire now

/-- A user by the donor's wallet: its id, as the database compares it with a text, or its key. -/
def User.isWallet (wallet : String) (u : User) : Bool :=
  JsNumber.digits 10 wallet.toList = some u.id || u.publicKey = wallet

/-- Resume a call: it executes the statement or payment it is suspended on and runs to its next
`await`. -/
def resume (pl : Platform) (sh : Shared) : Call → Env → Shared × Call
  | .idle, env => (sh, env.request.start)
  | .findPledge id, env =>
    match env.dbError, sh.findById id with
    | some e, _ => (sh, .failed e none)
    | none, none => (sh, .returned false none)
    | none, some p => (sh, (Request.fulfillPledge p).start)
  | .selectPending campaignId, env =>
    match env.dbError, sh.pendingByCampaign campaignId with
    | some e, _ => (sh, .failed e none)
    | none, [] => (sh, .legacyCampaign campaignId)
    | none, pledges => (sh, nextPledge 0 (some campaignId) pledges)
  | .legacyCampaign campaignId, env =>
    match env.dbError with
    | some e => (sh, .failed e none)
    | none =>
      if (sh.campaigns.find? (·.id = campaignId)).any fun c ↦ c.goalAmount ≤ c.currentAmount then
        (sh, .selectPendingAgain campaignId)
      else (sh, nextPledge 0 (some campaignId) [])
  | .selectPendingAgain campaignId, env =>
    match env.dbError with
    | some e => (sh, .failed e none)
    | none => (sh, nextPledge 0 (some campaignId) (sh.pendingByCampaign campaignId))
  | .loopCampaign p rest count campaignId, env =>
    match p.campaign?, env.dbError with
    | some _, some e => (sh, .failed e none)
    | some id, none => (sh, checkPledge pl p rest count campaignId
        (sh.campaigns.find? (·.id = id)) env.now)
    | none, _ => (sh, checkPledge pl p rest count campaignId none env.now)
  | .conditionCampaign p rest count campaignId, env =>
    match env.dbError with
    | some e => (sh, .failed e none)
    | none => (sh, afterCondition p rest count campaignId (evaluateCondition pl p
        (sh.campaigns.find? fun c ↦ some c.id = p.campaign?) env.now))
  | .findCampaign p k, env =>
    match env.dbError, sh.campaigns.find? fun c ↦ some c.id = p.campaign? with
    | some e, _ => (sh, .failed e none)
    | none, some c => (sh, .findRecipient p c k)
    | none, none => (sh, .findDonor p none k)
  | .findRecipient p c k, env =>
    match env.dbError with
    | some e => (sh, .failed e none)
    | none => (sh, .findDonor p
        ((sh.users.find? fun u ↦ some u.id = c.createdBy).map (·.publicKey)) k)
  | .findDonor p recipient k, env =>
    match env.dbError with
    | some e => (sh, .failed e none)
    | none => (sh, beginPayment pl p (sh.users.find? (User.isWallet p.donorWalletId)) recipient k)
  | .pay p _ _ k, env =>
    let sh' := if env.paid then sh.pay p.id else sh
    match env.answer with
    | .ok _ => (sh', .fulfil p true k)
    | .error e => (sh', .failed e (if env.paid then some p.id else none))
  | .fulfil p paid k, env =>
    match env.dbError with
    | some e => (sh, .failed e (if paid then some p.id else none))
    | none => (sh.fulfil p.id env.now, .readBack p k)
  | .readBack p k, env =>
    match env.dbError, sh.findById p.id with
    | some e, _ => (sh, .failed e none)
    | none, some updated => (sh, .deliver updated k)
    | none, none =>
      (sh, .failed (.wrongType "Cannot read properties of null (reading 'id')") none)
  | .deliver p k, env => if env.delivered then (sh, .markSent p k) else (sh, k.success (some p))
  | .markSent p k, env =>
    match env.dbError with
    | some _ => (sh, k.success (some p))
    | none => (sh.markWebhookSent p.id env.now, k.success (some p))
  | .selectFulfilled campaignId count, env =>
    match env.dbError with
    | some e => (sh, .failed e none)
    | none => (sh, nextFulfilled count (sh.newlyFulfilled campaignId))
  | .deliverFulfilled p rest count, env =>
    if env.delivered then (sh, .markFulfilledSent p rest count) else (sh, nextFulfilled count rest)
  | .markFulfilledSent p rest count, env =>
    match env.dbError with
    | some _ => (sh, nextFulfilled count rest)
    | none => (sh.markWebhookSent p.id env.now, nextFulfilled count rest)
  | .expire now, env =>
    match env.dbError with
    | some e => (sh, .failed e none)
    | none =>
      let changed := sh.pledges.countP (Shared.Overdue now)
      (sh.expireOverdue now, if 0 < changed then .selectExpired now changed else .counted 0)
  | .selectExpired now expired, env =>
    match env.dbError with
    | some e => (sh, .failed e none)
    | none => (sh, nextExpired expired (sh.newlyExpired now))
  | .deliverExpired p rest expired, env =>
    if env.delivered then (sh, .markExpiredSent p rest expired) else (sh, nextExpired expired rest)
  | .markExpiredSent p rest expired, env =>
    match env.dbError with
    | some _ => (sh, nextExpired expired rest)
    | none => (sh.markWebhookSent p.id env.now, nextExpired expired rest)
  | .returned success p, _ => (sh, .returned success p)
  | .counted n, _ => (sh, .counted n)
  | .failed e paid, _ => (sh, .failed e paid)

def step (pl : Platform) {ι : Type*} [DecidableEq ι] :
    Calls ι Shared Call → ι × Env → Calls ι Shared Call :=
  Calls.step (resume pl)

/-! ## What must hold -/

/-- No pledge is paid twice, an expired pledge has not been paid, and a fulfilled one has. -/
structure FulfillmentSound {ι : Type*} (s : Calls ι Shared Call) : Prop where
  once : ∀ id, s.shared.paid id ≤ 1
  expired : ∀ p ∈ s.shared.pledges, p.status = .expired → s.shared.paid p.id = 0
  fulfilled : ∀ p ∈ s.shared.pledges, p.status = .fulfilled → s.shared.paid p.id = 1

/-- The call may still pay the pledge, or has paid it and not marked it. -/
def Call.Handles (id : String) (c : Call) : Prop := id ∈ c.line ∨ c.owes = some id

/-- The condition on a request that arrives: a pending pledge that is handed over is as it is
stored, and no other call handles it. -/
def Request.Guarded {ι : Type*} (s : Calls ι Shared Call) (i : ι) : Request → Prop
  | checkAndFulfillPledge p | fulfillPledge p =>
    p.status = .pending → p ∈ s.shared.pledges ∧ Alone (Call.Handles p.id) s.call i
  | _ => True

/-- The condition on a call. It reads no pledge that another call handles; it marks a pledge only
when it has paid it; and it lets no pledge expire that another call handles. -/
def Call.Guarded {ι : Type*} (s : Calls ι Shared Call) (i : ι) (env : Env) : Call → Prop
  | .idle => env.request.Guarded s i
  | .findPledge id => Alone (Call.Handles id) s.call i
  | .selectPending campaignId | .selectPendingAgain campaignId =>
    ∀ p ∈ s.shared.pendingByCampaign campaignId, Alone (Call.Handles p.id) s.call i
  | .fulfil _ paid _ => env.dbError = none → paid = true
  | .expire now =>
    ∀ p ∈ s.shared.pledges, Shared.Overdue now p → Alone (Call.Handles p.id) s.call i
  | _ => True

/-- The condition on a step: the resumed call is `Guarded`. -/
def Guarded {ι : Type*} (s : Calls ι Shared Call) (a : ι × Env) : Prop :=
  (s.call a.1).Guarded s a.1 a.2

section Decidable

variable {ι : Type*} [Fintype ι] [DecidableEq ι] (s : Calls ι Shared Call)

instance decidableHandles (id : String) : DecidablePred (Call.Handles id) := fun c ↦
  inferInstanceAs (Decidable (id ∈ c.line ∨ c.owes = some id))

instance decidableRequestGuarded (i : ι) : DecidablePred (Request.Guarded s i)
  | .checkAndFulfillPledge p | .fulfillPledge p => inferInstanceAs (Decidable
      (p.status = .pending → p ∈ s.shared.pledges ∧ Alone (Call.Handles p.id) s.call i))
  | .checkAndFulfill _ | .fulfillSinglePledge _ | .expireOverdue _ =>
    inferInstanceAs (Decidable True)

instance decidableCallGuarded (i : ι) (env : Env) : DecidablePred (Call.Guarded s i env)
  | .idle => inferInstanceAs (Decidable (env.request.Guarded s i))
  | .findPledge id => inferInstanceAs (Decidable (Alone (Call.Handles id) s.call i))
  | .selectPending campaignId | .selectPendingAgain campaignId => inferInstanceAs (Decidable
      (∀ p ∈ s.shared.pendingByCampaign campaignId, Alone (Call.Handles p.id) s.call i))
  | .fulfil _ paid _ => inferInstanceAs (Decidable (env.dbError = none → paid = true))
  | .expire now => inferInstanceAs (Decidable (∀ p ∈ s.shared.pledges, Shared.Overdue now p →
      Alone (Call.Handles p.id) s.call i))
  | .legacyCampaign _ | .loopCampaign .. | .conditionCampaign .. | .findCampaign ..
  | .findRecipient .. | .findDonor .. | .pay .. | .readBack .. | .deliver .. | .markSent ..
  | .selectFulfilled .. | .deliverFulfilled .. | .markFulfilledSent .. | .selectExpired ..
  | .deliverExpired .. | .markExpiredSent .. | .returned .. | .counted _ | .failed .. =>
    inferInstanceAs (Decidable True)

instance decidableGuarded (a : ι × Env) : Decidable (Guarded s a) :=
  decidableCallGuarded s a.1 a.2 (s.call a.1)

end Decidable

/-! ## Pledges as items to be paid and marked -/

namespace Shared

variable {sh : Shared}

/-- What the table says about a pledge. -/
def mark (sh : Shared) (id : String) : PayThenMark.Mark :=
  if sh.Has .pending id then .waiting else if sh.Has .fulfilled id then .paid else .closed

theorem mark_eq_waiting {id : String} : sh.mark id = .waiting ↔ sh.Has .pending id := by
  rw [mark]
  split_ifs with h <;> simp [h]

theorem mark_of_mem (hnodup : (sh.pledges.map (·.id)).Nodup) {p : Pledge} (hp : p ∈ sh.pledges) :
    sh.mark p.id = if p.status = .pending then .waiting
      else if p.status = .fulfilled then .paid else .closed := by
  have hhas : ∀ status, sh.Has status p.id ↔ p.status = status := by
    intro status
    constructor
    · rintro ⟨q, hq, hid, hstatus⟩
      rwa [← List.inj_on_of_nodup_map hnodup hq hp hid]
    · intro hstatus
      exact ⟨p, hp, rfl, hstatus⟩
  simp only [mark, hhas]

theorem paid_pay (sh : Shared) (id k : String) :
    (sh.pay id).paid k = sh.paid k + if id = k then 1 else 0 := by
  simp [paid, pay, List.count_cons]

theorem ids_updateWhere (sh : Shared) (cond : Pledge → Bool) {f : Pledge → Pledge}
    (hf : ∀ p, (f p).id = p.id) :
    (sh.updateWhere cond f).pledges.map (·.id) = sh.pledges.map (·.id) := by
  rw [updateWhere, List.map_map]
  refine List.map_congr_left fun p _ ↦ ?_
  rw [Function.comp_apply]
  split_ifs
  · exact hf p
  · rfl

theorem mark_of_not_mem {id : String} (h : id ∉ sh.pledges.map (·.id)) : sh.mark id = .closed := by
  have hhas : ∀ status, ¬sh.Has status id := fun _ ⟨p, hp, hid, _⟩ ↦
    h (List.mem_map.mpr ⟨p, hp, hid⟩)
  rw [mark, if_neg (hhas _), if_neg (hhas _)]

/-- **What an `UPDATE` does to the marks**: it keeps the mark of an id, or the row of the id met the
condition. -/
theorem mark_updateWhere (hnodup : (sh.pledges.map (·.id)).Nodup) (cond : Pledge → Bool)
    {f : Pledge → Pledge} (hf : ∀ p, (f p).id = p.id) (id : String) :
    (sh.updateWhere cond f).mark id = sh.mark id ∨
      ∃ p ∈ sh.pledges, p.id = id ∧ cond p = true ∧
        (sh.updateWhere cond f).mark id = if (f p).status = .pending then .waiting
          else if (f p).status = .fulfilled then .paid else .closed := by
  have hnodup' : ((sh.updateWhere cond f).pledges.map (·.id)).Nodup := by
    rw [ids_updateWhere sh cond hf]
    exact hnodup
  by_cases hmem : id ∈ sh.pledges.map (·.id)
  · obtain ⟨p, hp, rfl⟩ := List.mem_map.mp hmem
    have hrow : (if cond p then f p else p) ∈ (sh.updateWhere cond f).pledges :=
      List.mem_map.mpr ⟨p, hp, rfl⟩
    have hmark := mark_of_mem hnodup' hrow
    by_cases hcond : cond p = true
    · right
      rw [if_pos hcond, hf p] at hmark
      exact ⟨p, hp, rfl, hcond, hmark⟩
    · left
      rw [if_neg hcond] at hmark
      rw [hmark, mark_of_mem hnodup hp]
  · left
    have hmem' : id ∉ (sh.updateWhere cond f).pledges.map (·.id) := by
      rw [ids_updateWhere sh cond hf]
      exact hmem
    rw [mark_of_not_mem hmem, mark_of_not_mem hmem']

theorem mark_updateWhere_eq (hnodup : (sh.pledges.map (·.id)).Nodup) (cond : Pledge → Bool)
    {f : Pledge → Pledge} (hf : ∀ p, (f p).id = p.id) (hstatus : ∀ p, (f p).status = p.status) :
    (sh.updateWhere cond f).mark = sh.mark := by
  funext id
  rcases mark_updateWhere hnodup cond hf id with hsame | ⟨p, hp, rfl, -, hmark⟩
  · exact hsame
  · rw [hmark, hstatus, mark_of_mem hnodup hp]

end Shared

/-- The pledges as items, with those that the calls have in line and the marks that they owe. -/
def abstraction {ι : Type*} (s : Calls ι Shared Call) : PayThenMark.State ι String where
  mark := s.shared.mark
  payments := s.shared.paid
  line := (fun c : Call ↦ { id | id ∈ c.line }) ∘ s.call
  owed := (fun c : Call ↦ { id | c.owes = some id }) ∘ s.call

/-! ## Calls that take nothing up -/

section Quiet

/-- The call owes nothing, and has in line at most what is in `line`, in that order. -/
structure Call.Keeps (line : List String) (c : Call) : Prop where
  owes : c.owes = none
  line : c.line.Sublist line

theorem Call.Keeps.mono {line line' : List String} {c : Call} (h : c.Keeps line)
    (hsub : line.Sublist line') : c.Keeps line' :=
  ⟨h.owes, h.line.trans hsub⟩

theorem keeps_nextPledge (count : ℕ) (campaignId : Option ℕ) (pledges : List Pledge) :
    (nextPledge count campaignId pledges).Keeps (pendingIds pledges) := by
  induction pledges with
  | nil =>
    cases campaignId with
    | none => exact ⟨rfl, List.nil_sublist _⟩
    | some id => exact ⟨rfl, List.nil_sublist _⟩
  | cons p rest ih =>
    rw [nextPledge]
    split_ifs with hstatus
    · exact ih.mono (((List.sublist_cons_self p rest).filter _).map _)
    · have hpending : p.status = .pending := not_not.mp hstatus
      refine ⟨rfl, ?_⟩
      simp [Call.line, pendingIds, hpending]

theorem keeps_beginFulfil (p : Pledge) (k : Return) : (beginFulfil p k).Keeps (p.id :: k.line) := by
  rw [beginFulfil]
  split <;> exact ⟨rfl, List.Sublist.refl _⟩

theorem keeps_afterCondition (p : Pledge) (rest : List Pledge) (count : ℕ) (campaignId : Option ℕ)
    (met : Except AppError Bool) :
    (afterCondition p rest count campaignId met).Keeps (p.id :: pendingIds rest) := by
  rw [afterCondition.eq_def]
  split
  · exact ⟨rfl, List.nil_sublist _⟩
  · exact keeps_beginFulfil p (.loop rest count campaignId)
  · exact (keeps_nextPledge count campaignId rest).mono (List.sublist_cons_self _ _)

theorem keeps_checkPledge (pl : Platform) (p : Pledge) (rest : List Pledge) (count : ℕ)
    (campaignId : Option ℕ) (campaign : Option Campaign) (now : ℤ) :
    (checkPledge pl p rest count campaignId campaign now).Keeps (p.id :: pendingIds rest) := by
  rw [checkPledge]
  split_ifs
  · exact (keeps_nextPledge count campaignId rest).mono (List.sublist_cons_self _ _)
  · exact keeps_beginFulfil p (.loop rest count campaignId)
  · exact ⟨rfl, List.Sublist.refl _⟩
  · exact keeps_afterCondition p rest count campaignId _

theorem keeps_beginPayment (pl : Platform) (p : Pledge) (donor : Option User)
    (recipient : Option String) (k : Return) :
    (beginPayment pl p donor recipient k).Keeps (p.id :: k.line) := by
  rw [beginPayment]
  split
  · split_ifs <;> exact ⟨rfl, List.Sublist.refl _⟩
  · exact ⟨rfl, List.Sublist.refl _⟩

theorem keeps_success (p : Option Pledge) (k : Return) : (k.success p).Keeps k.line := by
  cases k with
  | single => exact ⟨rfl, List.nil_sublist _⟩
  | loop rest count campaignId => exact keeps_nextPledge (count + 1) campaignId rest

theorem keeps_nextFulfilled (count : ℕ) (pledges : List Pledge) :
    (nextFulfilled count pledges).Keeps [] := by
  cases pledges <;> exact ⟨rfl, List.nil_sublist _⟩

theorem keeps_nextExpired (expired : ℕ) (pledges : List Pledge) :
    (nextExpired expired pledges).Keeps [] := by
  cases pledges <;> exact ⟨rfl, List.nil_sublist _⟩

theorem keeps_start (r : Request) : r.start.Keeps (match r with
    | .checkAndFulfillPledge p | .fulfillPledge p => pendingIds [p]
    | _ => []) := by
  cases r with
  | checkAndFulfillPledge p => exact keeps_nextPledge 0 _ [p]
  | fulfillPledge p =>
    rw [Request.start]
    split_ifs with hstatus
    · exact ⟨rfl, List.nil_sublist _⟩
    · have hpending : p.status = .pending := not_not.mp hstatus
      have hline : pendingIds [p] = [p.id] := by simp [pendingIds, hpending]
      simpa only [hline, Return.line] using keeps_beginFulfil p .single
  | checkAndFulfill | fulfillSinglePledge | expireOverdue => exact ⟨rfl, List.nil_sublist _⟩

/-- The calls that read pledges as pending, pay a pledge or set its status. -/
def Call.moves : Call → Bool
  | .idle | .findPledge _ | .selectPending _ | .selectPendingAgain _ | .pay .. | .fulfil ..
  | .expire _ => true
  | _ => false

/-- All other calls keep the marks and the payments, take nothing up and owe what they owed. -/
theorem resume_quiet (pl : Platform) {sh : Shared} (hnodup : (sh.pledges.map (·.id)).Nodup)
    {c : Call} (hc : c.moves = false) (env : Env) :
    (resume pl sh c env).1.mark = sh.mark ∧ (resume pl sh c env).1.payments = sh.payments ∧
      (resume pl sh c env).1.pledges.map (·.id) = sh.pledges.map (·.id) ∧
        (resume pl sh c env).2.owes = c.owes ∧ (resume pl sh c env).2.line.Sublist c.line := by
  have hsame : ∀ {c' : Call} {line : List String}, c'.Keeps line →
      c'.owes = none ∧ c'.line.Sublist line := fun h ↦ ⟨h.owes, h.line⟩
  have hsent : ∀ id : String, (sh.markWebhookSent id env.now).mark = sh.mark ∧
      (sh.markWebhookSent id env.now).pledges.map (·.id) = sh.pledges.map (·.id) := fun id ↦
    ⟨Shared.mark_updateWhere_eq hnodup _ (fun _ ↦ rfl) fun _ ↦ rfl,
      Shared.ids_updateWhere sh _ fun _ ↦ rfl⟩
  cases c with
  | idle | findPledge | selectPending | selectPendingAgain | pay | fulfil | expire => cases hc
  | legacyCampaign campaignId =>
    rw [resume]
    split
    · exact ⟨rfl, rfl, rfl, rfl, List.nil_sublist _⟩
    · split_ifs
      · exact ⟨rfl, rfl, rfl, rfl, List.nil_sublist _⟩
      · exact ⟨rfl, rfl, rfl, hsame (keeps_nextPledge 0 (some campaignId) [])⟩
  | loopCampaign p rest count campaignId =>
    rw [resume]
    split
    · exact ⟨rfl, rfl, rfl, rfl, List.nil_sublist _⟩
    · exact ⟨rfl, rfl, rfl, hsame (keeps_checkPledge ..)⟩
    · exact ⟨rfl, rfl, rfl, hsame (keeps_checkPledge ..)⟩
  | conditionCampaign p rest count campaignId =>
    rw [resume]
    split
    · exact ⟨rfl, rfl, rfl, rfl, List.nil_sublist _⟩
    · exact ⟨rfl, rfl, rfl, hsame (keeps_afterCondition ..)⟩
  | findCampaign p k =>
    rw [resume]
    split
    · exact ⟨rfl, rfl, rfl, rfl, List.nil_sublist _⟩
    · exact ⟨rfl, rfl, rfl, rfl, List.Sublist.refl _⟩
    · exact ⟨rfl, rfl, rfl, rfl, List.Sublist.refl _⟩
  | findRecipient p c k =>
    rw [resume]
    split
    · exact ⟨rfl, rfl, rfl, rfl, List.nil_sublist _⟩
    · exact ⟨rfl, rfl, rfl, rfl, List.Sublist.refl _⟩
  | readBack p k =>
    rw [resume]
    split
    · exact ⟨rfl, rfl, rfl, rfl, List.nil_sublist _⟩
    · exact ⟨rfl, rfl, rfl, rfl, List.Sublist.refl _⟩
    · exact ⟨rfl, rfl, rfl, rfl, List.nil_sublist _⟩
  | findDonor p recipient k =>
    rw [resume]
    split
    · exact ⟨rfl, rfl, rfl, rfl, List.nil_sublist _⟩
    · exact ⟨rfl, rfl, rfl, hsame (keeps_beginPayment ..)⟩
  | deliver p k =>
    rw [resume]
    split_ifs
    · exact ⟨rfl, rfl, rfl, rfl, List.Sublist.refl _⟩
    · exact ⟨rfl, rfl, rfl, hsame (keeps_success ..)⟩
  | markSent p k =>
    rw [resume]
    split
    · exact ⟨rfl, rfl, rfl, hsame (keeps_success ..)⟩
    · exact ⟨(hsent p.id).1, rfl, (hsent p.id).2, hsame (keeps_success ..)⟩
  | selectFulfilled campaignId count =>
    rw [resume]
    split
    · exact ⟨rfl, rfl, rfl, rfl, List.nil_sublist _⟩
    · exact ⟨rfl, rfl, rfl, hsame (keeps_nextFulfilled ..)⟩
  | deliverFulfilled p rest count =>
    rw [resume]
    split_ifs
    · exact ⟨rfl, rfl, rfl, rfl, List.nil_sublist _⟩
    · exact ⟨rfl, rfl, rfl, hsame (keeps_nextFulfilled ..)⟩
  | markFulfilledSent p rest count =>
    rw [resume]
    split
    · exact ⟨rfl, rfl, rfl, hsame (keeps_nextFulfilled ..)⟩
    · exact ⟨(hsent p.id).1, rfl, (hsent p.id).2, hsame (keeps_nextFulfilled ..)⟩
  | selectExpired now expired =>
    rw [resume]
    split
    · exact ⟨rfl, rfl, rfl, rfl, List.nil_sublist _⟩
    · exact ⟨rfl, rfl, rfl, hsame (keeps_nextExpired ..)⟩
  | deliverExpired p rest expired =>
    rw [resume]
    split_ifs
    · exact ⟨rfl, rfl, rfl, rfl, List.nil_sublist _⟩
    · exact ⟨rfl, rfl, rfl, hsame (keeps_nextExpired ..)⟩
  | markExpiredSent p rest expired =>
    rw [resume]
    split
    · exact ⟨rfl, rfl, rfl, hsame (keeps_nextExpired ..)⟩
    · exact ⟨(hsent p.id).1, rfl, (hsent p.id).2, hsame (keeps_nextExpired ..)⟩
  | returned | counted | failed => exact ⟨rfl, rfl, rfl, rfl, List.Sublist.refl _⟩

end Quiet

/-! ## Runs -/

section Runs

variable {ι : Type*}

structure Orderly (s : Calls ι Shared Call) : Prop where
  sound : PayThenMark.Sound (abstraction s)
  nodup : (s.shared.pledges.map (·.id)).Nodup
  line : ∀ i, (s.call i).line.Nodup

theorem Orderly.fulfillmentSound {s : Calls ι Shared Call} (h : Orderly s) :
    FulfillmentSound s := by
  refine ⟨h.sound.once, fun p hp hstatus ↦ ?_, fun p hp hstatus ↦ ?_⟩
  · refine h.sound.closed p.id ((Shared.mark_of_mem h.nodup hp).trans ?_)
    simp [hstatus]
  · refine h.sound.paid p.id ((Shared.mark_of_mem h.nodup hp).trans ?_)
    simp [hstatus]

theorem Call.Handles.free {s : Calls ι Shared Call} {i : ι} {id : String}
    (h : Alone (Call.Handles id) s.call i) (hown : (s.call i).owes = none) :
    (abstraction s).Free i id :=
  .of_alone h (fun howed ↦ nomatch hown.symm.trans howed) (fun _ ↦ .inl) fun _ ↦ .inr

variable [DecidableEq ι] {pl : Platform}

theorem abstraction_update (s : Calls ι Shared Call) (i : ι) (sh : Shared) (c : Call) :
    abstraction (⟨sh, Function.update s.call i c⟩ : Calls ι Shared Call) =
      (abstraction s).next i sh.mark sh.paid { id | id ∈ c.line } { id | c.owes = some id } := by
  rw [abstraction, Function.comp_update, Function.comp_update]
  rfl

theorem line_update {s : Calls ι Shared Call} (h : Orderly s) (i : ι) {c : Call}
    (hc : c.line.Nodup) : ∀ j, (Function.update s.call i c j).line.Nodup :=
  (Function.forall_update_iff s.call fun _ c ↦ c.line.Nodup).mpr ⟨hc, fun j _ ↦ h.line j⟩

/-- A statement that touches neither marks nor payments. What it leaves in line was in line, or is
pending and free. -/
theorem Orderly.take {s : Calls ι Shared Call} (h : Orderly s) {i : ι} {sh : Shared} {c : Call}
    (hmark : sh.mark = s.shared.mark) (hpayments : sh.payments = s.shared.payments)
    (hids : sh.pledges.map (·.id) = s.shared.pledges.map (·.id))
    (hline : ∀ id ∈ c.line, id ∈ (s.call i).line ∨
      s.shared.Has .pending id ∧ (abstraction s).Free i id)
    (hnodup : c.line.Nodup) (howes : c.owes = (s.call i).owes) :
    Orderly (⟨sh, Function.update s.call i c⟩ : Calls ι Shared Call) := by
  have hpaid : sh.paid = s.shared.paid := by
    funext id
    rw [Shared.paid, Shared.paid, hpayments]
  refine ⟨?_, ?_, line_update h i hnodup⟩
  · rw [abstraction_update, hmark, hpaid, howes]
    refine h.sound.take i fun id hid ↦ (hline id hid).imp_right fun hfree ↦ ?_
    exact ⟨Shared.mark_eq_waiting.mpr hfree.1, hfree.2⟩
  · rw [hids]
    exact h.nodup

theorem Orderly.quiet {s : Calls ι Shared Call} (h : Orderly s) {i : ι} {sh : Shared} {c : Call}
    (hmark : sh.mark = s.shared.mark) (hpayments : sh.payments = s.shared.payments)
    (hids : sh.pledges.map (·.id) = s.shared.pledges.map (·.id))
    (howes : c.owes = (s.call i).owes) (hline : c.line.Sublist (s.call i).line) :
    Orderly (⟨sh, Function.update s.call i c⟩ : Calls ι Shared Call) :=
  h.take hmark hpayments hids (fun _ hid ↦ .inl (hline.subset hid)) ((h.line i).sublist hline) howes

theorem Orderly.read {s : Calls ι Shared Call} (h : Orderly s) {i : ι} {c : Call}
    {line : List String} (hkeeps : c.Keeps line) (hnodup : line.Nodup)
    (hown : (s.call i).owes = none)
    (hfree : ∀ id ∈ line, s.shared.Has .pending id ∧ Alone (Call.Handles id) s.call i) :
    Orderly (⟨s.shared, Function.update s.call i c⟩ : Calls ι Shared Call) := by
  refine h.take rfl rfl rfl (fun id hid ↦ .inr ?_) (hnodup.sublist hkeeps.line)
    (hkeeps.owes.trans hown.symm)
  obtain ⟨hpending, halone⟩ := hfree id (hkeeps.line.subset hid)
  exact ⟨hpending, Call.Handles.free halone hown⟩

theorem Orderly.pay {s : Calls ι Shared Call} (h : Orderly s) {i : ι} {id : String}
    {rest : List String} (hown : (s.call i).owes = none) (hmine : (s.call i).line = id :: rest)
    {c : Call} (howes : c.owes = some id) (hline : c.line.Sublist rest) :
    Orderly (⟨s.shared.pay id, Function.update s.call i c⟩ : Calls ι Shared Call) := by
  have hnodup := h.line i
  rw [hmine] at hnodup
  obtain ⟨hnotin, hrest⟩ := List.nodup_cons.mp hnodup
  refine ⟨?_, h.nodup, line_update h i (hrest.sublist hline)⟩
  have hunion : { k | c.owes = some k } = {id} ∪ (abstraction s).owed i := by
    ext k
    have hnone : k ∉ (abstraction s).owed i := fun howed ↦ nomatch hown.symm.trans howed
    rw [howes]
    exact ⟨fun hk ↦ .inl (Option.some.inj hk).symm, fun hk ↦ (hk.resolve_right hnone) ▸ rfl⟩
  have hinline : ∀ k ∈ id :: rest, k ∈ (abstraction s).line i := by
    intro k hk
    rwa [← hmine] at hk
  rw [abstraction_update, hunion]
  refine h.sound.payOne (hinline id List.mem_cons_self) (fun k hk ↦ ⟨?_, ?_⟩)
    (Shared.paid_pay s.shared id)
  · exact hinline k (List.mem_cons_of_mem id (hline.subset hk))
  · rintro rfl
    exact hnotin (hline.subset hk)

theorem Orderly.fulfil {s : Calls ι Shared Call} (h : Orderly s) {i : ι} {id : String} (now : ℤ)
    (hown : (s.call i).owes = some id) {c : Call} (howes : c.owes = none)
    (hline : c.line.Sublist (s.call i).line) :
    Orderly (⟨s.shared.fulfil id now, Function.update s.call i c⟩ : Calls ι Shared Call) := by
  refine ⟨?_, ?_, line_update h i ((h.line i).sublist hline)⟩
  · have hmark := Shared.mark_updateWhere h.nodup (fun p ↦ p.id = id && p.status = .pending)
      (f := fun p ↦ { p with
        status := .fulfilled, fulfilledAt := some now, conditionStatus := "met" }) fun _ ↦ rfl
    rw [abstraction_update]
    refine h.sound.mark i hline.subset (fun k ↦ ?_) (fun k hk ↦ ?_) fun k hk _ hwaiting ↦ ?_
    · rcases hmark k with hsame | ⟨p, -, rfl, hcond, hpaid⟩
      · exact .inl hsame
      · have hid : p.id = id := of_decide_eq_true (Bool.and_eq_true_iff.mp hcond).1
        refine .inr ⟨?_, hpaid⟩
        rw [hid]
        exact hown
    · have hnone : c.owes = some k := hk
      rw [howes] at hnone
      cases hnone
    · -- the paid pledge is not pending any more
      have howed : (s.call i).owes = some k := hk
      obtain rfl := Option.some.inj (hown.symm.trans howed)
      obtain ⟨q, hq, hid, hpending⟩ := Shared.mark_eq_waiting.mp hwaiting
      obtain ⟨p, -, rfl⟩ := List.mem_map.mp hq
      split_ifs at hid hpending with hcond
      exact hcond (by simp [hid, hpending])
  · have hids := Shared.ids_updateWhere s.shared
      (fun p ↦ p.id = id && p.status = .pending) (f := fun p ↦ { p with
        status := .fulfilled, fulfilledAt := some now, conditionStatus := "met" }) fun _ ↦ rfl
    rw [Shared.fulfil, hids]
    exact h.nodup

/-- The sweep, when it hits no pledge that a call handles. -/
theorem Orderly.expire {s : Calls ι Shared Call} (h : Orderly s) {i : ι} {now : String}
    (hguard : ∀ p ∈ s.shared.pledges, Shared.Overdue now p → Alone (Call.Handles p.id) s.call i)
    (hown : (s.call i).owes = none) {c : Call} (hkeeps : c.Keeps []) :
    Orderly (⟨s.shared.expireOverdue now, Function.update s.call i c⟩ : Calls ι Shared Call) := by
  have hline : c.line = [] := List.sublist_nil.mp hkeeps.line
  refine ⟨?_, ?_, line_update h i (by rw [hline]; exact List.nodup_nil)⟩
  · rw [abstraction_update, hkeeps.owes, ← hown]
    refine h.sound.close i (fun k hk ↦ absurd hk (by simp [hline])) fun k ↦ ?_
    rcases Shared.mark_updateWhere h.nodup (fun p ↦ Shared.Overdue now p)
        (f := fun p ↦ { p with status := .expired }) (fun _ ↦ rfl) k with
      hsame | ⟨p, hp, rfl, hcond, hclosed⟩
    · exact .inl hsame
    · have hoverdue : Shared.Overdue now p := of_decide_eq_true hcond
      refine .inr ⟨⟨?_, Call.Handles.free (hguard p hp hoverdue) hown, by simp [hline]⟩, hclosed⟩
      exact Shared.mark_eq_waiting.mpr ⟨p, hp, rfl, hoverdue.1⟩
  · have hids := Shared.ids_updateWhere s.shared (fun p ↦ Shared.Overdue now p)
      (f := fun p ↦ { p with status := .expired }) fun _ ↦ rfl
    rw [Shared.expireOverdue, hids]
    exact h.nodup

omit [DecidableEq ι] in
theorem pendingByCampaign_spec {sh : Shared} (hnodup : (sh.pledges.map (·.id)).Nodup)
    (campaignId : ℕ) : (pendingIds (sh.pendingByCampaign campaignId)).Nodup ∧
      ∀ id ∈ pendingIds (sh.pendingByCampaign campaignId),
        sh.Has .pending id ∧ ∃ p ∈ sh.pendingByCampaign campaignId, p.id = id := by
  constructor
  · exact hnodup.sublist ((List.filter_sublist.trans List.filter_sublist).map _)
  · intro id hid
    obtain ⟨p, hp, rfl⟩ := List.mem_map.mp hid
    have hread := List.mem_of_mem_filter hp
    obtain ⟨hmem, hcond⟩ := List.mem_filter.mp hread
    have hpending : p.status = .pending := of_decide_eq_true (Bool.and_eq_true_iff.mp hcond).2
    exact ⟨⟨p, hmem, rfl, hpending⟩, p, hread, rfl⟩

omit [DecidableEq ι] in
theorem pendingIds_singleton (p : Pledge) : (pendingIds [p]).Nodup ∧
    ∀ id ∈ pendingIds [p], id = p.id ∧ p.status = .pending := by
  by_cases hpending : p.status = .pending
  · simp [pendingIds, hpending]
  · simp [pendingIds, hpending]

theorem orderly_step (s : Calls ι Shared Call) (a : ι × Env) (h : Orderly s)
    (hguard : Guarded s a) : Orderly (step pl s a) := by
  obtain ⟨i, env⟩ := a
  simp only [Guarded] at hguard
  rw [step, Calls.step]
  by_cases hmoves : (s.call i).moves = false
  · obtain ⟨hmark, hpayments, hids, howes, hline⟩ := resume_quiet pl h.nodup hmoves env
    exact h.quiet hmark hpayments hids howes hline
  have hfailed : ∀ e, (s.call i).owes = none →
      Orderly (⟨s.shared, Function.update s.call i (.failed e none)⟩ : Calls ι Shared Call) :=
    fun e hown ↦ h.quiet rfl rfl rfl hown.symm (List.nil_sublist _)
  have hhanded : ∀ p, (p.status = .pending → p ∈ s.shared.pledges ∧
      Alone (Call.Handles p.id) s.call i) → ∀ id ∈ pendingIds [p],
        s.shared.Has .pending id ∧ Alone (Call.Handles id) s.call i := by
    intro p hp id hid
    obtain ⟨rfl, hpending⟩ := (pendingIds_singleton p).2 id hid
    exact ⟨⟨p, (hp hpending).1, rfl, hpending⟩, (hp hpending).2⟩
  cases hcall : s.call i with
  | idle =>
    rw [hcall] at hguard
    have hown : (s.call i).owes = none := by rw [hcall]; rfl
    have hkeeps := keeps_start env.request
    have hrequest : env.request.Guarded s i := hguard
    simp only [resume]
    cases hr : env.request with
    | checkAndFulfillPledge p | fulfillPledge p =>
      rw [hr] at hkeeps hrequest
      exact h.read hkeeps (pendingIds_singleton p).1 hown (hhanded p hrequest)
    | checkAndFulfill | fulfillSinglePledge | expireOverdue =>
      rw [hr] at hkeeps
      exact h.read hkeeps List.nodup_nil hown fun id hid ↦ absurd hid List.not_mem_nil
  | findPledge id =>
    rw [hcall] at hguard
    have hown : (s.call i).owes = none := by rw [hcall]; rfl
    simp only [resume]
    split
    · exact hfailed _ hown
    · exact h.quiet rfl rfl rfl hown.symm (List.nil_sublist _)
    · next p _ hfind =>
      rw [Shared.findById] at hfind
      refine h.read (keeps_start (.fulfillPledge p)) (pendingIds_singleton p).1 hown
        (hhanded p fun _ ↦ ⟨List.mem_of_find?_eq_some hfind, ?_⟩)
      have hid : p.id = id := by simpa using List.find?_some hfind
      rw [hid]
      exact hguard
  | selectPending campaignId =>
    rw [hcall] at hguard
    have hown : (s.call i).owes = none := by rw [hcall]; rfl
    obtain ⟨hnodup, hpending⟩ := pendingByCampaign_spec h.nodup campaignId
    simp only [resume]
    split
    · exact hfailed _ hown
    · exact h.quiet rfl rfl rfl hown.symm (List.nil_sublist _)
    · refine h.read (keeps_nextPledge ..) hnodup hown fun id hid ↦ ?_
      obtain ⟨hhas, p, hp, rfl⟩ := hpending id hid
      exact ⟨hhas, hguard p hp⟩
  | selectPendingAgain campaignId =>
    rw [hcall] at hguard
    have hown : (s.call i).owes = none := by rw [hcall]; rfl
    obtain ⟨hnodup, hpending⟩ := pendingByCampaign_spec h.nodup campaignId
    simp only [resume]
    split
    · exact hfailed _ hown
    · refine h.read (keeps_nextPledge ..) hnodup hown fun id hid ↦ ?_
      obtain ⟨hhas, p, hp, rfl⟩ := hpending id hid
      exact ⟨hhas, hguard p hp⟩
  | pay p secret recipient k =>
    have hown : (s.call i).owes = none := by rw [hcall]; rfl
    have hmine : (s.call i).line = p.id :: k.line := by rw [hcall]; rfl
    cases hpaid : env.paid with
    | true =>
      simp only [resume, hpaid, if_true]
      split
      · exact h.pay hown hmine rfl (List.Sublist.refl _)
      · exact h.pay hown hmine rfl (List.nil_sublist _)
    | false =>
      simp only [resume, hpaid, Bool.false_eq_true, if_false]
      split
      · next hok => exact absurd hok (Stellar.PaymentEnv.answer_ne_ok hpaid)
      · exact hfailed _ hown
  | fulfil p paid k =>
    rw [hcall] at hguard
    simp only [resume]
    cases paid with
    | true =>
      have hown : (s.call i).owes = some p.id := by rw [hcall]; rfl
      have hmine : (s.call i).line = k.line := by rw [hcall]; rfl
      split
      · exact h.quiet rfl rfl rfl hown.symm (List.nil_sublist _)
      · exact h.fulfil env.now hown rfl (hmine ▸ List.Sublist.refl _)
    | false =>
      have hown : (s.call i).owes = none := by rw [hcall]; rfl
      split
      · exact hfailed _ hown
      · next hok => exact absurd (hguard hok) Bool.false_ne_true
  | expire now =>
    rw [hcall] at hguard
    have hown : (s.call i).owes = none := by rw [hcall]; rfl
    simp only [resume]
    split
    · exact hfailed _ hown
    · refine h.expire hguard hown ?_
      split_ifs <;> exact ⟨rfl, List.Sublist.refl _⟩
  | legacyCampaign | loopCampaign | conditionCampaign | findCampaign | findRecipient | findDonor
  | readBack | deliver | markSent | selectFulfilled | deliverFulfilled | markFulfilledSent
  | selectExpired | deliverExpired | markExpiredSent | returned | counted | failed =>
    exact absurd (by rw [hcall]; rfl) hmoves

/-- A table before any pledge was paid. -/
structure Fresh (sh : Shared) : Prop where
  nodup : (sh.pledges.map (·.id)).Nodup
  unfulfilled : ∀ p ∈ sh.pledges, p.status ≠ .fulfilled
  payments : sh.payments = []

def initial (sh : Shared) : Calls ι Shared Call := ⟨sh, fun _ ↦ .idle⟩

omit [DecidableEq ι] in
theorem orderly_initial {sh : Shared} (h : Fresh sh) :
    Orderly (initial sh : Calls ι Shared Call) := by
  refine ⟨PayThenMark.sound_initial (fun id hpaid ↦ ?_) (fun id ↦ ?_) (fun i ↦ ?_) (fun i ↦ ?_),
    h.nodup, fun _ ↦ List.nodup_nil⟩
  · simp only [abstraction, initial, Shared.mark] at hpaid
    split_ifs at hpaid with hpending hfulfilled
    obtain ⟨p, hp, -, hstatus⟩ := hfulfilled
    exact h.unfulfilled p hp hstatus
  · simp only [abstraction, initial, Shared.paid, h.payments, List.count_nil]
  · ext id
    exact iff_of_false List.not_mem_nil (Set.notMem_empty id)
  · ext id
    refine iff_of_false ?_ (Set.notMem_empty id)
    rintro ⟨⟩

/-- **Pledges are fulfilled once.** In every run of fulfilments and sweeps, with any failures, in
which no call reads or expires a pledge that another one may still pay, or has paid without marking
it, and none marks a pledge that it has not paid, no pledge is paid twice, no expired pledge is
paid, and a pledge that is fulfilled has been paid. -/
theorem pledges_fulfilled_once {sh : Shared} (hsh : Fresh sh) (as : List (ι × Env))
    (hguard : Along (step pl) Guarded (initial sh) as) :
    Always (step pl) FulfillmentSound (initial sh) as :=
  (hguard.always orderly_step (orderly_initial hsh)).mono fun _ h ↦ h.fulfillmentSound

end Runs

section Examples

def plainPlatform : Platform := ⟨fun _ ↦ none, true⟩

def openPledge : Pledge where
  id := "p1"
  campaignId := some 1
  donorWalletId := "2"
  recipientPublicKey := none
  amount := 50000000
  status := .pending
  conditionType := some "campaign_goal_percent"
  conditionValue := none
  conditionStatus := "pending"
  expiresAt := some "2024-03-01T00:00:00.000Z"
  fulfilledAt := none
  webhookSentAt := none

/-- That pledge, its campaign, the creator and the donor. -/
def onePledge : Shared where
  pledges := [openPledge]
  campaigns := [⟨1, 100, 100, some 3⟩]
  users := [⟨2, "GDONOR", some "encrypted"⟩, ⟨3, "GCREATOR", none⟩]
  payments := []

theorem fresh_onePledge : Fresh onePledge := ⟨by decide, by decide, rfl⟩

def fulfilEnv (request : Request) : Env := ⟨⟨0, none, .ok (some "hash"), false⟩, true, request⟩

/-- Two fulfilments of the pledge that overlap: both read it as pending, and both pay. -/
def overlapping : List (Fin 2 × Env) :=
  List.replicate 5 (0, fulfilEnv (.fulfillSinglePledge "p1"))
    ++ List.replicate 5 (1, fulfilEnv (.fulfillSinglePledge "p1"))
    ++ [(0, fulfilEnv (.expireOverdue "")), (1, fulfilEnv (.expireOverdue ""))]

/-- Overlapping fulfilments pay the pledge twice. -/
theorem pledge_paid_twice : Fresh onePledge ∧
    ¬Always (step plainPlatform) FulfillmentSound (initial onePledge) overlapping := by
  refine ⟨fresh_onePledge, fun h ↦ ?_⟩
  have htwice :
      (run (step plainPlatform) (initial onePledge) overlapping).shared.paid "p1" = 2 := by
    decide
  have honce := h.last.once "p1"
  rw [htwice] at honce
  exact absurd honce (by decide)

/-- The pledge is fulfilled by the sweep of its campaign; a later sweep of overdue pledges leaves it
alone. -/
theorem pledges_fulfilled_once_undisturbed :
    Always (step plainPlatform) FulfillmentSound (initial onePledge)
      (List.replicate 14 ((0 : Fin 2), fulfilEnv (.checkAndFulfill 1))
        ++ List.replicate 2 (1, fulfilEnv (.expireOverdue "2024-03-02T00:00:00.000Z"))) :=
  pledges_fulfilled_once fresh_onePledge _ (by decide +kernel)

end Examples

end StellarDonations.Pledges
