import Mathlib.Algebra.Order.BigOperators.Group.List
import Mathlib.Algebra.Order.Ring.Rat
import StellarDonations.Concurrency.PayThenMark
import StellarDonations.Stellar.Payment
import StellarDonations.Users

/-!
# Escrow of an all-or-nothing campaign

`CrowdfundingService.pledge` moves a donation into escrow and records it as held; `settle` pays what
is held, to the recipient when the goal is met and back to the donors otherwise, and then marks all
held pledges and the campaign. The statements of one campaign touch no other, so the state is that
of one campaign.

`settle` reads the held pledges, pays them one by one, and marks them by one `UPDATE` at the end. It
is meant to be retried: a payment that fails ends it. The retry reads the same pledges again, those
that were refunded before the failure included. The `UPDATE` names no pledge either: it marks what
is held by then, a pledge recorded since the read included.

A settlement takes up what its `SELECT` finds held, and has it in hand until its `UPDATE`
(`Call.line`, `Call.owes`). The condition is on the `SELECT`: nobody else has those pledges in hand
(`Guarded`). What happens afterwards is then kept by `PayThenMark.Sound`.
-/

namespace StellarDonations.Crowdfunding

open Concurrency JsString

/-! ## The state -/

inductive FundingModel where
  | allOrNothing
  | keepWhatYouRaise
  deriving DecidableEq

inductive CampaignStatus where
  | active
  | released
  | refunded
  | other (status : String)
  deriving DecidableEq

structure Campaign where
  id : ℕ
  fundingModel : FundingModel
  status : CampaignStatus
  endDate : Option ℤ
  currentAmount : ℚ
  goalAmount : ℚ
  recipientPublicKey : Option String
  deriving DecidableEq

inductive PledgeStatus where
  | held
  | released
  | refunded
  deriving DecidableEq

/-- A row of `escrow_pledges`. The route accepts positive amounts only. -/
structure EscrowPledge where
  id : ℕ
  donorId : ℕ
  amount : ℚ
  status : PledgeStatus
  amount_pos : 0 < amount
  deriving DecidableEq

structure HeldPledge where
  pledge : EscrowPledge
  donorPublicKey : String
  deriving DecidableEq

/-- A payment out of escrow that succeeded, with the pledges it was made for. -/
structure Payout where
  pledgeIds : List ℕ
  destinationPublic : String
  amount : ℚ
  memo : String
  deriving DecidableEq

/-- The campaign, its pledges, the users, and what has left escrow. -/
structure Shared where
  campaign : Option Campaign
  users : List User
  pledges : List EscrowPledge
  nextId : ℕ
  payouts : List Payout

namespace Shared

def paidOut (sh : Shared) (id : ℕ) : ℕ := (sh.payouts.flatMap (·.pledgeIds)).count id

def Holds (sh : Shared) (id : ℕ) : Prop := ∃ p ∈ sh.pledges, p.id = id ∧ p.status = .held

instance decidableHolds (sh : Shared) (id : ℕ) : Decidable (sh.Holds id) :=
  inferInstanceAs (Decidable (∃ p ∈ sh.pledges, p.id = id ∧ p.status = .held))

/-- The `SELECT` of the held pledges, joined with their donors. -/
def heldPledges (sh : Shared) : List HeldPledge :=
  (sh.pledges.filter fun p ↦ p.status = .held).filterMap fun p ↦
    (sh.users.find? (·.id = p.donorId)).map fun u ↦ ⟨p, u.publicKey⟩

def insertPledge (sh : Shared) (donorId : ℕ) (amount : ℚ) (h : 0 < amount) : Shared :=
  { sh with
    pledges := sh.pledges ++ [⟨sh.nextId, donorId, amount, .held, h⟩]
    nextId := sh.nextId + 1 }

/-- `UPDATE campaigns SET current_amount = current_amount + ?`. -/
def addAmount (sh : Shared) (amount : ℚ) : Shared :=
  { sh with
    campaign := sh.campaign.map fun c ↦ { c with currentAmount := c.currentAmount + amount } }

/-- `UPDATE escrow_pledges SET status = ? WHERE campaign_id = ? AND status = 'held'`. -/
def markHeld (sh : Shared) (status : PledgeStatus) : Shared :=
  { sh with
    pledges := sh.pledges.map fun p ↦ if p.status = .held then { p with status } else p }

def setStatus (sh : Shared) (status : CampaignStatus) : Shared :=
  { sh with campaign := sh.campaign.map fun c ↦ { c with status } }

/-- A payment out of escrow has been made. -/
def payOut (sh : Shared) (p : Payout) : Shared := { sh with payouts := p :: sh.payouts }

end Shared

/-- The escrow account: its secret, when one is configured, and the SDK's public key of a secret,
which is never empty. -/
structure EscrowAccount where
  secret : Option String
  publicKey : String → Except AppError String
  publicKey_ne_empty : ∀ secret key, publicKey secret = .ok key → key ≠ ""

/-! ## The calls -/

structure PledgeRequest where
  donorId : ℕ
  amount : ℚ
  amount_pos : 0 < amount
  donorSecret : Option String
  escrowPublicKey : Option String

inductive Request where
  | pledge (r : PledgeRequest)
  | settle

structure Env extends Stellar.PaymentEnv where
  /-- The call that an idle worker begins. -/
  request : Request

inductive Outcome where
  | released
  | refunded
  deriving DecidableEq

def Outcome.campaignStatus : Outcome → CampaignStatus
  | released => .released
  | refunded => .refunded

def Outcome.pledgeStatus : Outcome → PledgeStatus
  | released => .released
  | refunded => .refunded

/-- What a call is suspended on. A settlement carries the campaign and the ids of the pledges it has
read, and, for the record, the ids of those it has paid. -/
inductive Call where
  | idle
  | findPledgeCampaign (r : PledgeRequest)
  | findDonor (r : PledgeRequest) (campaignId : ℕ)
  | payIn (r : PledgeRequest) (campaignId : ℕ)
  | insert (r : PledgeRequest) (hash : Option String)
  | addAmount (r : PledgeRequest) (pledgeId : ℕ) (hash : Option String)
  | checkMilestones (r : PledgeRequest) (pledgeId : ℕ) (hash : Option String)
  | pledged (pledgeId donorId : ℕ) (amount : ℚ) (hash : Option String)
  | findCampaign
  | readSettled (outcome : Outcome)
  | selectHeld (c : Campaign)
  | release (c : Campaign) (recipient : String) (held : List HeldPledge)
  | refund (c : Campaign) (read : List ℕ) (p : HeldPledge) (rest : List HeldPledge)
      (paid : List ℕ)
  | markPledges (outcome : Outcome) (read paid : List ℕ)
  | markCampaign (outcome : Outcome)
  | readAll (outcome : Outcome)
  | settled (outcome : Outcome) (totalAmount : ℚ) (count : ℕ)
  | failed (status : Option ℕ) (e : AppError) (paid : List ℕ)

/-- The pledges a settlement has paid and not marked. One that has failed never marks them. -/
def Call.owes : Call → List ℕ
  | .refund _ _ _ _ paid | .markPledges _ _ paid | .failed _ _ paid => paid
  | _ => []

def ids (held : List HeldPledge) : List ℕ := held.map (·.pledge.id)

/-- The pledges a settlement has read and is going to pay. -/
def Call.line : Call → List ℕ
  | .release _ _ held => ids held
  | .refund _ _ p rest _ => ids (p :: rest)
  | _ => []

/-- A thrown error with an HTTP status. -/
def refuse (status : ℕ) (message : String) : Call := .failed (some status) (.plain message) []

def checkPledge (r : PledgeRequest) (now : ℤ) : Option Campaign → Call
  | none => refuse 404 "Campaign not found"
  | some c =>
    if c.fundingModel ≠ .allOrNothing then refuse 400 "Campaign is not all-or-nothing"
    else if c.status ≠ .active then refuse 400 "Campaign is not accepting pledges"
    else if c.endDate.any (· < now) then refuse 400 "Campaign deadline has passed"
    else .findDonor r c.id

/-- The escrow destination of `pledge`, and whether there is one. -/
def beginPledge (acct : EscrowAccount) (r : PledgeRequest) (campaignId : ℕ) : Call :=
  if truthy r.escrowPublicKey then .payIn r campaignId
  else
    match orNull acct.secret with
    | none => .insert r none
    | some secret =>
      match acct.publicKey secret with
      | .ok _ => .payIn r campaignId
      | .error e => .failed none e []

def Campaign.goalMet (c : Campaign) : Bool := c.goalAmount ≤ c.currentAmount

/-- `newStatus`. -/
def Campaign.outcome (c : Campaign) : Outcome := if c.goalMet then .released else .refunded

/-- The checks of `settle` on the campaign, and the escrow key. -/
def checkSettle (acct : EscrowAccount) : Option Campaign → Call
  | none => refuse 404 "Campaign not found"
  | some c =>
    if c.fundingModel ≠ .allOrNothing then refuse 400 "Campaign is not all-or-nothing"
    else
      match c.status with
      | .released => .readSettled .released
      | .refunded => .readSettled .refunded
      | .active | .other _ =>
        match orNull acct.secret with
        | none => .selectHeld c
        | some secret =>
          match acct.publicKey secret with
          | .ok _ => .selectHeld c
          | .error e => .failed none e []

def nextRefund (c : Campaign) (read : List ℕ) (paid : List ℕ) : List HeldPledge → Call
  | [] => .markPledges .refunded read paid
  | p :: rest =>
    if p.donorPublicKey = "" then nextRefund c read paid rest
    else .refund c read p rest paid

def totalAmount (held : List HeldPledge) : ℚ := (held.map (·.pledge.amount)).sum

/-- What `settle` does with the pledges it has read. -/
def beginSettle (acct : EscrowAccount) (c : Campaign) (held : List HeldPledge) : Call :=
  match orNull acct.secret with
  | none => .markPledges c.outcome (ids held) []
  | some _ =>
    if c.goalMet then
      match orNull c.recipientPublicKey with
      | some recipient =>
        if 0 < totalAmount held then .release c recipient held
        else .markPledges .released (ids held) []
      | none => .markPledges .released (ids held) []
    else nextRefund c (ids held) [] held

def releasePayout (c : Campaign) (recipient : String) (held : List HeldPledge) : Payout :=
  ⟨ids held, recipient, totalAmount held, "settle:" ++ toString c.id⟩

def refundPayout (c : Campaign) (p : HeldPledge) : Payout :=
  ⟨[p.pledge.id], p.donorPublicKey, p.pledge.amount, "refund:" ++ toString c.id⟩

/-- The result of `settle`, read back from the table. -/
def settleResult (sh : Shared) (outcome : Outcome) : Call :=
  .settled outcome (sh.pledges.map (·.amount)).sum sh.pledges.length

/-- Resume a call: it executes the statement or payment it is suspended on and runs to its next
`await`. -/
def resume (acct : EscrowAccount) (sh : Shared) : Call → Env → Shared × Call
  | .idle, env =>
    match env.request with
    | .pledge r => (sh, .findPledgeCampaign r)
    | .settle => (sh, .findCampaign)
  | .findPledgeCampaign r, env =>
    match env.dbError with
    | some e => (sh, .failed none e [])
    | none => (sh, checkPledge r env.now sh.campaign)
  | .findDonor r campaignId, env =>
    match env.dbError, sh.users.find? (·.id = r.donorId) with
    | some e, _ => (sh, .failed none e [])
    | none, none => (sh, refuse 404 "Donor not found")
    | none, some _ => (sh, beginPledge acct r campaignId)
  | .payIn r _, env =>
    match env.answer with
    | .ok hash => (sh, .insert r hash)
    | .error e => (sh, .failed none e [])
  | .insert r hash, env =>
    match env.dbError with
    | some e => (sh, .failed none e [])
    | none => (sh.insertPledge r.donorId r.amount r.amount_pos, .addAmount r sh.nextId hash)
  | .addAmount r pledgeId hash, env =>
    match env.dbError with
    | some e => (sh, .failed none e [])
    | none => (sh.addAmount r.amount, .checkMilestones r pledgeId hash)
  | .checkMilestones r pledgeId hash, _ => (sh, .pledged pledgeId r.donorId r.amount hash)
  | .findCampaign, env =>
    match env.dbError with
    | some e => (sh, .failed none e [])
    | none => (sh, checkSettle acct sh.campaign)
  | .readSettled outcome, env =>
    match env.dbError with
    | some e => (sh, .failed none e [])
    | none => (sh, settleResult sh outcome)
  | .selectHeld c, env =>
    match env.dbError with
    | some e => (sh, .failed none e [])
    | none => (sh, beginSettle acct c sh.heldPledges)
  | .release c recipient held, env =>
    let paid := if env.paid then ids held else []
    let sh' := if env.paid then sh.payOut (releasePayout c recipient held) else sh
    match env.answer with
    | .ok _ => (sh', .markPledges .released (ids held) paid)
    | .error e => (sh', .failed (some 502)
        (.plain ("Stellar release payment failed: " ++ e.message)) paid)
  | .refund c read p rest paid, env =>
    let paid' := if env.paid then p.pledge.id :: paid else paid
    let sh' := if env.paid then sh.payOut (refundPayout c p) else sh
    match env.answer with
    | .ok _ => (sh', nextRefund c read paid' rest)
    | .error e => (sh', .failed (some 502) (.plain ("Stellar refund payment failed for pledge "
        ++ toString p.pledge.id ++ ": " ++ e.message)) paid')
  | .markPledges outcome _ paid, env =>
    match env.dbError with
    | some e => (sh, .failed none e paid)
    | none => (sh.markHeld outcome.pledgeStatus, .markCampaign outcome)
  | .markCampaign outcome, env =>
    match env.dbError with
    | some e => (sh, .failed none e [])
    | none => (sh.setStatus outcome.campaignStatus, .readAll outcome)
  | .readAll outcome, env =>
    match env.dbError with
    | some e => (sh, .failed none e [])
    | none => (sh, settleResult sh outcome)
  | .pledged pledgeId donorId amount hash, _ => (sh, .pledged pledgeId donorId amount hash)
  | .settled outcome total count, _ => (sh, .settled outcome total count)
  | .failed status e paid, _ => (sh, .failed status e paid)

def step (acct : EscrowAccount) {ι : Type*} [DecidableEq ι] :
    Calls ι Shared Call → ι × Env → Calls ι Shared Call :=
  Calls.step (resume acct)

/-! ## What must hold -/

/-- No pledge leaves escrow twice, and a pledge that is marked has left it. -/
structure EscrowSound {ι : Type*} (s : Calls ι Shared Call) : Prop where
  once : ∀ id, s.shared.paidOut id ≤ 1
  paid : ∀ p ∈ s.shared.pledges, p.status ≠ .held → s.shared.paidOut p.id = 1

/-- The call is about to pay the pledge, or has paid it and not marked it. -/
def Call.Handles (id : ℕ) (c : Call) : Prop := id ∈ c.line ∨ id ∈ c.owes

/-- The condition on a call. When a settlement reads the held pledges, no other settlement handles
one of them; a release has a recipient; and the `UPDATE` at the end finds no held pledge that the
settlement has not read. -/
def Call.Guarded {ι : Type*} (s : Calls ι Shared Call) (i : ι) (env : Env) : Call → Prop
  | .selectHeld c => (∀ id ∈ ids s.shared.heldPledges, Alone (Call.Handles id) s.call i) ∧
      (c.goalMet = true → truthy c.recipientPublicKey = true)
  | .markPledges _ read _ => env.dbError = none →
      ∀ p ∈ s.shared.pledges, p.status = .held → p.id ∈ read
  | _ => True

/-- The condition on a step: the resumed call is `Guarded`. -/
def Guarded {ι : Type*} (s : Calls ι Shared Call) (a : ι × Env) : Prop :=
  (s.call a.1).Guarded s a.1 a.2

section Decidable

variable {ι : Type*} [Fintype ι] [DecidableEq ι] (s : Calls ι Shared Call)

instance decidableHandles (id : ℕ) : DecidablePred (Call.Handles id) := fun c ↦
  inferInstanceAs (Decidable (id ∈ c.line ∨ id ∈ c.owes))

instance decidableCallGuarded (i : ι) (env : Env) : DecidablePred (Call.Guarded s i env)
  | .selectHeld c => inferInstanceAs (Decidable
      ((∀ id ∈ ids s.shared.heldPledges, Alone (Call.Handles id) s.call i) ∧
        (c.goalMet = true → truthy c.recipientPublicKey = true)))
  | .markPledges _ read _ => inferInstanceAs (Decidable (env.dbError = none →
      ∀ p ∈ s.shared.pledges, p.status = .held → p.id ∈ read))
  | .idle | .findPledgeCampaign _ | .findDonor .. | .payIn .. | .insert .. | .addAmount ..
  | .checkMilestones .. | .pledged .. | .findCampaign | .readSettled _ | .release .. | .refund ..
  | .markCampaign _ | .readAll _ | .settled .. | .failed .. => inferInstanceAs (Decidable True)

instance decidableGuarded (a : ι × Env) : Decidable (Guarded s a) :=
  decidableCallGuarded s a.1 a.2 (s.call a.1)

end Decidable

/-! ## Pledges as items to be paid and marked -/

/-- What the table says about a pledge. -/
def Shared.mark (sh : Shared) (id : ℕ) : PayThenMark.Mark :=
  if sh.Holds id then .waiting
  else if id ∈ sh.pledges.map (·.id) then .paid
  else .closed

/-- The pledges as items, with those that the settlements are about to pay and the marks that they
owe. -/
def abstraction {ι : Type*} (s : Calls ι Shared Call) : PayThenMark.State ι ℕ where
  mark := s.shared.mark
  payments := s.shared.paidOut
  line := (fun c : Call ↦ { id | id ∈ c.line }) ∘ s.call
  owed := (fun c : Call ↦ { id | id ∈ c.owes }) ∘ s.call

namespace Shared

variable {sh : Shared}

theorem mark_eq_waiting {id : ℕ} : sh.mark id = .waiting ↔ sh.Holds id := by
  rw [mark]
  split_ifs with h <;> simp [h]

theorem mark_eq_paid_of_mem (hnodup : (sh.pledges.map (·.id)).Nodup) {p : EscrowPledge}
    (hp : p ∈ sh.pledges) (hstatus : p.status ≠ .held) : sh.mark p.id = .paid := by
  have hholds : ¬sh.Holds p.id := by
    rintro ⟨q, hq, hid, hheld⟩
    obtain rfl := List.inj_on_of_nodup_map hnodup hq hp hid
    exact hstatus hheld
  rw [mark, if_neg hholds, if_pos (List.mem_map.mpr ⟨p, hp, rfl⟩)]

theorem paidOut_payOut (sh : Shared) (p : Payout) (id : ℕ) :
    (sh.payOut p).paidOut id = sh.paidOut id + p.pledgeIds.count id := by
  simp only [paidOut, payOut, List.flatMap_cons, List.count_append]
  exact Nat.add_comm _ _

theorem mark_insertPledge (hnext : ∀ p ∈ sh.pledges, p.id < sh.nextId) (donorId : ℕ) (amount : ℚ)
    (hpos : 0 < amount) (id : ℕ) :
    (sh.insertPledge donorId amount hpos).mark id = sh.mark id ∨
      sh.mark id = .closed ∧ (sh.insertPledge donorId amount hpos).mark id = .waiting := by
  have hholds : (sh.insertPledge donorId amount hpos).Holds id ↔ sh.Holds id ∨ id = sh.nextId := by
    simp only [Holds, insertPledge, List.mem_append, List.mem_singleton, or_and_right, exists_or,
      exists_eq_left, and_true]
    rw [eq_comm]
  have hmem : id ∈ (sh.insertPledge donorId amount hpos).pledges.map (·.id) ↔
      id ∈ sh.pledges.map (·.id) ∨ id = sh.nextId := by
    simp [insertPledge]
  by_cases hid : id = sh.nextId
  · right
    have hnot : id ∉ sh.pledges.map (·.id) := by
      intro h
      obtain ⟨p, hp, rfl⟩ := List.mem_map.mp h
      exact absurd (hnext p hp) (by omega)
    refine ⟨?_, mark_eq_waiting.mpr (hholds.mpr (.inr hid))⟩
    rw [mark, if_neg fun ⟨p, hp, heq, _⟩ ↦ hnot (List.mem_map.mpr ⟨p, hp, heq⟩), if_neg hnot]
  · left
    simp only [mark, hholds, hmem, hid, or_false]

theorem ids_markHeld (status : PledgeStatus) :
    (sh.markHeld status).pledges.map (·.id) = sh.pledges.map (·.id) := by
  rw [markHeld, List.map_map]
  refine List.map_congr_left fun p _ ↦ ?_
  rw [Function.comp_apply]
  split_ifs <;> rfl

theorem not_holds_markHeld {status : PledgeStatus} (hstatus : status ≠ .held) (id : ℕ) :
    ¬(sh.markHeld status).Holds id := by
  rintro ⟨p, hp, -, hheld⟩
  obtain ⟨q, -, rfl⟩ := List.mem_map.mp hp
  split_ifs at hheld with hq
  · exact hstatus hheld
  · exact hq hheld

theorem mark_markHeld {status : PledgeStatus} (hstatus : status ≠ .held) (id : ℕ) :
    (sh.markHeld status).mark id = sh.mark id ∨
      sh.Holds id ∧ (sh.markHeld status).mark id = .paid := by
  have hafter : (sh.markHeld status).mark id =
      if id ∈ sh.pledges.map (·.id) then .paid else .closed := by
    rw [mark, if_neg (not_holds_markHeld hstatus id), ids_markHeld]
  by_cases hholds : sh.Holds id
  · right
    refine ⟨hholds, ?_⟩
    obtain ⟨p, hp, rfl, -⟩ := hholds
    rw [hafter, if_pos (List.mem_map.mpr ⟨p, hp, rfl⟩)]
  · left
    rw [hafter, mark, if_neg hholds]

end Shared

/-! ## What a settlement knows -/

/-- What holds of the lists that a settlement carries: no pledge is in line twice, and when the line
is empty all that was read has been paid. -/
def Call.Prepared : Call → Prop
  | .release _ _ held => (ids held).Nodup
  | .refund _ read p rest paid =>
    (ids (p :: rest)).Nodup ∧ (∀ id ∈ read, id ∈ paid ∨ id ∈ ids (p :: rest)) ∧
      ∀ q ∈ rest, q.donorPublicKey ≠ ""
  | .markPledges _ read paid => ∀ id ∈ read, id ∈ paid
  | _ => True

theorem nextRefund_cases (c : Campaign) (read paid : List ℕ) {rest : List HeldPledge}
    (hkeys : ∀ q ∈ rest, q.donorPublicKey ≠ "") :
    (rest = [] ∧ nextRefund c read paid rest = .markPledges .refunded read paid) ∨
      ∃ p rest', rest = p :: rest' ∧ nextRefund c read paid rest = .refund c read p rest' paid := by
  cases rest with
  | nil => exact .inl ⟨rfl, rfl⟩
  | cons p rest' =>
    refine .inr ⟨p, rest', rfl, ?_⟩
    rw [nextRefund, if_neg (hkeys p List.mem_cons_self)]

theorem owes_nextRefund (c : Campaign) (read paid : List ℕ) (rest : List HeldPledge) :
    (nextRefund c read paid rest).owes = paid := by
  induction rest with
  | nil => rfl
  | cons p rest ih =>
    rw [nextRefund]
    split_ifs
    · exact ih
    · rfl

theorem prepared_nextRefund (c : Campaign) (read paid : List ℕ) {rest : List HeldPledge}
    (hnodup : (ids rest).Nodup) (hread : ∀ id ∈ read, id ∈ paid ∨ id ∈ ids rest)
    (hkeys : ∀ q ∈ rest, q.donorPublicKey ≠ "") :
    (nextRefund c read paid rest).Prepared ∧ (nextRefund c read paid rest).line = ids rest := by
  rcases nextRefund_cases c read paid hkeys with ⟨rfl, heq⟩ | ⟨p, rest', rfl, heq⟩
  · rw [heq]
    exact ⟨fun id hid ↦ (hread id hid).resolve_right List.not_mem_nil, rfl⟩
  · rw [heq]
    exact ⟨⟨hnodup, hread, fun q hq ↦ hkeys q (List.mem_cons_of_mem p hq)⟩, rfl⟩

theorem ids_heldPledges_nodup {sh : Shared} (hnodup : (sh.pledges.map (·.id)).Nodup) :
    (ids sh.heldPledges).Nodup := by
  have hjoin : ∀ held : List EscrowPledge, (ids (held.filterMap fun p ↦
      (sh.users.find? (·.id = p.donorId)).map fun u ↦ ⟨p, u.publicKey⟩)).Sublist
        (held.map EscrowPledge.id) := by
    intro held
    induction held with
    | nil => exact List.Sublist.refl _
    | cons p held ih =>
      rw [List.filterMap_cons]
      cases sh.users.find? (·.id = p.donorId) with
      | none => exact ih.cons _
      | some u => exact ih.cons_cons _
  have hsub : (ids sh.heldPledges).Sublist (sh.pledges.map EscrowPledge.id) :=
    (hjoin _).trans (List.Sublist.map _ List.filter_sublist)
  exact hnodup.sublist hsub

theorem key_of_mem_heldPledges {sh : Shared} (hkeys : ∀ u ∈ sh.users, u.publicKey ≠ "")
    {q : HeldPledge} (hq : q ∈ sh.heldPledges) : q.donorPublicKey ≠ "" := by
  obtain ⟨p, -, hmap⟩ := List.mem_filterMap.mp hq
  obtain ⟨u, hu, rfl⟩ := Option.map_eq_some_iff.mp hmap
  exact hkeys u (List.mem_of_find?_eq_some hu)

theorem totalAmount_pos {held : List HeldPledge} (h : held ≠ []) : 0 < totalAmount held := by
  have hnonneg : ∀ l : List HeldPledge, 0 ≤ totalAmount l := by
    intro l
    refine List.sum_nonneg fun x hx ↦ ?_
    obtain ⟨q, -, rfl⟩ := List.mem_map.mp hx
    exact q.pledge.amount_pos.le
  cases held with
  | nil => exact absurd rfl h
  | cons q rest =>
    rw [totalAmount, List.map_cons, List.sum_cons]
    exact add_pos_of_pos_of_nonneg q.pledge.amount_pos (hnonneg rest)

/-- A settlement with an escrow key, and with a recipient when it releases, is prepared, and has
nothing in line that it has not read. -/
theorem prepared_beginSettle {acct : EscrowAccount} (hsecret : truthy acct.secret = true)
    {c : Campaign} (hrecipient : c.goalMet = true → truthy c.recipientPublicKey = true)
    {held : List HeldPledge} (hnodup : (ids held).Nodup)
    (hkeys : ∀ q ∈ held, q.donorPublicKey ≠ "") :
    (beginSettle acct c held).Prepared ∧ (beginSettle acct c held).line ⊆ ids held ∧
      (beginSettle acct c held).owes = [] := by
  have hsome : ∀ {x : Option String}, truthy x = true → ∃ y, orNull x = some y := by
    intro x hx
    cases x with
    | none => cases hx
    | some y => exact ⟨y, Option.filter_eq_some_iff.mpr ⟨rfl, hx⟩⟩
  obtain ⟨secret, hs⟩ := hsome hsecret
  simp only [beginSettle, hs]
  by_cases hgoal : c.goalMet = true
  · obtain ⟨recipient, hr⟩ := hsome (hrecipient hgoal)
    simp only [hgoal, hr, if_true]
    split_ifs with htotal
    · exact ⟨hnodup, List.Subset.refl _, rfl⟩
    · -- nothing was read
      have hempty : held = [] := by
        by_contra hne
        exact htotal (totalAmount_pos hne)
      subst hempty
      exact ⟨fun id hid ↦ absurd hid List.not_mem_nil, List.nil_subset _, rfl⟩
  · rw [if_neg hgoal]
    obtain ⟨hprepared, hline⟩ := prepared_nextRefund c (ids held) [] hnodup
      (fun _ hid ↦ .inr hid) hkeys
    exact ⟨hprepared, fun id hid ↦ by rwa [hline] at hid, owes_nextRefund c _ [] held⟩

/-- The calls that pay or mark pledges, record one, or begin to settle. -/
def Call.moves : Call → Bool
  | .insert .. | .selectHeld _ | .release .. | .refund .. | .markPledges .. => true
  | _ => false

structure Call.Quiet (c : Call) : Prop where
  line : c.line = []
  owes : c.owes = []
  prepared : c.Prepared

theorem quiet_refuse (status : ℕ) (message : String) : (refuse status message).Quiet :=
  ⟨rfl, rfl, trivial⟩

theorem checkPledge_quiet (r : PledgeRequest) (now : ℤ) (c : Option Campaign) :
    (checkPledge r now c).Quiet := by
  cases c with
  | none => exact quiet_refuse _ _
  | some c =>
    rw [checkPledge]
    split_ifs <;> exact ⟨rfl, rfl, trivial⟩

theorem beginPledge_quiet (acct : EscrowAccount) (r : PledgeRequest) (campaignId : ℕ) :
    (beginPledge acct r campaignId).Quiet := by
  rw [beginPledge]
  split_ifs
  · exact ⟨rfl, rfl, trivial⟩
  · split
    · exact ⟨rfl, rfl, trivial⟩
    · split <;> exact ⟨rfl, rfl, trivial⟩

theorem checkSettle_quiet (acct : EscrowAccount) (c : Option Campaign) :
    (checkSettle acct c).Quiet := by
  cases c with
  | none => exact quiet_refuse _ _
  | some c =>
    rw [checkSettle]
    split_ifs
    · exact quiet_refuse _ _
    · split
      · exact ⟨rfl, rfl, trivial⟩
      · exact ⟨rfl, rfl, trivial⟩
      · split
        · exact ⟨rfl, rfl, trivial⟩
        · split <;> exact ⟨rfl, rfl, trivial⟩
      · split
        · exact ⟨rfl, rfl, trivial⟩
        · split <;> exact ⟨rfl, rfl, trivial⟩

/-! ## Runs -/

section Runs

variable {ι : Type*}

structure Orderly (s : Calls ι Shared Call) : Prop where
  sound : PayThenMark.Sound (abstraction s)
  nodup : (s.shared.pledges.map (·.id)).Nodup
  next : ∀ p ∈ s.shared.pledges, p.id < s.shared.nextId
  keys : ∀ u ∈ s.shared.users, u.publicKey ≠ ""
  prepared : ∀ i, (s.call i).Prepared

theorem Orderly.escrowSound {s : Calls ι Shared Call} (h : Orderly s) : EscrowSound s :=
  ⟨h.sound.once, fun p hp hstatus ↦
    h.sound.paid p.id (Shared.mark_eq_paid_of_mem h.nodup hp hstatus)⟩

variable [DecidableEq ι] {acct : EscrowAccount}

theorem abstraction_update (s : Calls ι Shared Call) (i : ι) (sh : Shared) (c : Call) :
    abstraction (⟨sh, Function.update s.call i c⟩ : Calls ι Shared Call) =
      (abstraction s).next i sh.mark sh.paidOut { id | id ∈ c.line } { id | id ∈ c.owes } := by
  rw [abstraction, Function.comp_update, Function.comp_update]
  rfl

omit [DecidableEq ι] in
theorem Call.Handles.free {s : Calls ι Shared Call} {i : ι} {id : ℕ}
    (h : Alone (Call.Handles id) s.call i) (hown : (s.call i).owes = []) :
    (abstraction s).Free i id :=
  .of_alone h (fun hmem : id ∈ (s.call i).owes ↦ absurd (hown ▸ hmem) List.not_mem_nil)
    (fun _ ↦ .inl) fun _ ↦ .inr

theorem prepared_update {s : Calls ι Shared Call} (h : Orderly s) (i : ι) {c : Call}
    (hc : c.Prepared) : ∀ j, (Function.update s.call i c j).Prepared :=
  (Function.forall_update_iff s.call fun _ ↦ Call.Prepared).mpr ⟨hc, fun j _ ↦ h.prepared j⟩

/-- A statement that touches neither pledges nor payments. What it leaves in line was in line, or is
held and free. -/
theorem Orderly.take {s : Calls ι Shared Call} (h : Orderly s) {i : ι} {sh : Shared} {c : Call}
    (hpledges : sh.pledges = s.shared.pledges) (hpayouts : sh.payouts = s.shared.payouts)
    (hnext : sh.nextId = s.shared.nextId) (husers : sh.users = s.shared.users)
    (hline : ∀ id ∈ c.line, id ∈ (s.call i).line ∨
      s.shared.Holds id ∧ (abstraction s).Free i id)
    (howes : c.owes = (s.call i).owes) (hprepared : c.Prepared) :
    Orderly (⟨sh, Function.update s.call i c⟩ : Calls ι Shared Call) := by
  have hmark : sh.mark = s.shared.mark := by
    funext id
    have hholds : sh.Holds id ↔ s.shared.Holds id := by rw [Shared.Holds, Shared.Holds, hpledges]
    simp only [Shared.mark, hholds, hpledges]
  have hpaid : sh.paidOut = s.shared.paidOut := by
    funext id
    simp only [Shared.paidOut, hpayouts]
  refine ⟨?_, ?_, ?_, ?_, prepared_update h i hprepared⟩
  · rw [abstraction_update, hmark, hpaid, howes]
    refine h.sound.take i fun id hid ↦ (hline id hid).imp_right fun hfree ↦ ?_
    exact ⟨Shared.mark_eq_waiting.mpr hfree.1, hfree.2⟩
  · rw [hpledges]
    exact h.nodup
  · rw [hpledges, hnext]
    exact h.next
  · rw [husers]
    exact h.keys

/-- A statement that touches neither pledges nor payments, of a call that takes nothing up. -/
theorem Orderly.quiet {s : Calls ι Shared Call} (h : Orderly s) {i : ι} {sh : Shared} {c : Call}
    (hpledges : sh.pledges = s.shared.pledges) (hpayouts : sh.payouts = s.shared.payouts)
    (hnext : sh.nextId = s.shared.nextId) (husers : sh.users = s.shared.users)
    (hline : c.line ⊆ (s.call i).line) (howes : c.owes = (s.call i).owes)
    (hprepared : c.Prepared) :
    Orderly (⟨sh, Function.update s.call i c⟩ : Calls ι Shared Call) :=
  h.take hpledges hpayouts hnext husers (fun _ hid ↦ .inl (hline hid)) howes hprepared

theorem Orderly.insert {s : Calls ι Shared Call} (h : Orderly s) {i : ι} {c : Call} (donorId : ℕ)
    {amount : ℚ} (hpos : 0 < amount) (hline : c.line = (s.call i).line)
    (howes : c.owes = (s.call i).owes) (hprepared : c.Prepared) :
    Orderly (⟨s.shared.insertPledge donorId amount hpos, Function.update s.call i c⟩ :
      Calls ι Shared Call) := by
  refine ⟨?_, ?_, ?_, h.keys, prepared_update h i hprepared⟩
  · rw [abstraction_update, hline, howes]
    exact h.sound.appear (Shared.mark_insertPledge h.next donorId amount hpos)
  · rw [Shared.insertPledge, List.map_append, List.nodup_append]
    refine ⟨h.nodup, List.nodup_singleton _, fun a ha b hb ↦ ?_⟩
    obtain ⟨p, hp, rfl⟩ := List.mem_map.mp ha
    have hlt := h.next p hp
    have heq : b = s.shared.nextId := by simpa using hb
    omega
  · intro p hp
    rcases List.mem_append.mp hp with hp | hp
    · exact Nat.lt_succ_of_lt (h.next p hp)
    · rw [List.mem_singleton.mp hp]
      exact Nat.lt_succ_self _

theorem Orderly.payOut {s : Calls ι Shared Call} (h : Orderly s) {i : ι} {c : Call} {p : Payout}
    (hnodup : p.pledgeIds.Nodup) (hmine : p.pledgeIds ⊆ (s.call i).line)
    (hline : ∀ id ∈ c.line, id ∈ (s.call i).line ∧ id ∉ p.pledgeIds)
    (howes : ∀ id, id ∈ c.owes ↔ id ∈ p.pledgeIds ∨ id ∈ (s.call i).owes)
    (hprepared : c.Prepared) :
    Orderly (⟨s.shared.payOut p, Function.update s.call i c⟩ : Calls ι Shared Call) := by
  refine ⟨?_, h.nodup, h.next, h.keys, prepared_update h i hprepared⟩
  have hunion : { id | id ∈ c.owes } = { id | id ∈ p.pledgeIds } ∪ (abstraction s).owed i := by
    ext id
    exact howes id
  rw [abstraction_update, hunion]
  refine h.sound.pay i hmine hline ?_ ?_
  · intro id hid
    rw [Shared.paidOut_payOut, List.count_eq_one_of_mem hnodup hid]
    rfl
  · intro id hid
    rw [Shared.paidOut_payOut, List.count_eq_zero_of_not_mem hid]
    rfl

/-- The `UPDATE` at the end, when all that is held was read and paid. -/
theorem Orderly.markHeld {s : Calls ι Shared Call} (h : Orderly s) {i : ι} {c : Call}
    {status : PledgeStatus} (hstatus : status ≠ .held)
    (hheld : ∀ p ∈ s.shared.pledges, p.status = .held → p.id ∈ (s.call i).owes)
    (hline : c.line = []) (howes : c.owes = []) (hprepared : c.Prepared) :
    Orderly (⟨s.shared.markHeld status, Function.update s.call i c⟩ : Calls ι Shared Call) := by
  refine ⟨?_, ?_, ?_, h.keys, prepared_update h i hprepared⟩
  · rw [abstraction_update]
    refine h.sound.mark i (fun id hid ↦ ?_) (fun id ↦ ?_) (fun id hid ↦ ?_) fun id _ _ hwaiting ↦ ?_
    · have hnil : id ∈ c.line := hid
      rw [hline] at hnil
      exact absurd hnil List.not_mem_nil
    · rcases Shared.mark_markHeld hstatus id with hsame | ⟨⟨p, hp, rfl, hp'⟩, hpaid⟩
      · exact .inl hsame
      · exact .inr ⟨hheld p hp hp', hpaid⟩
    · have hnil : id ∈ c.owes := hid
      rw [howes] at hnil
      exact absurd hnil List.not_mem_nil
    · exact Shared.not_holds_markHeld hstatus id (Shared.mark_eq_waiting.mp hwaiting)
  · rw [Shared.ids_markHeld]
    exact h.nodup
  · intro p hp
    obtain ⟨q, hq, rfl⟩ := List.mem_map.mp hp
    split_ifs
    · exact h.next q hq
    · exact h.next q hq

omit [DecidableEq ι] in
theorem resume_quiet (acct : EscrowAccount) (sh : Shared) {c : Call}
    (hc : c.moves = false) (env : Env) :
    (resume acct sh c env).1.pledges = sh.pledges ∧ (resume acct sh c env).1.payouts = sh.payouts ∧
      (resume acct sh c env).1.nextId = sh.nextId ∧ (resume acct sh c env).1.users = sh.users ∧
        (resume acct sh c env).2.line = [] ∧ (resume acct sh c env).2.owes = c.owes ∧
          (resume acct sh c env).2.Prepared := by
  cases c with
  | insert | selectHeld | release | refund | markPledges => cases hc
  | idle =>
    rw [resume]
    split <;> exact ⟨rfl, rfl, rfl, rfl, rfl, rfl, trivial⟩
  | findPledgeCampaign r =>
    rw [resume]
    split
    · exact ⟨rfl, rfl, rfl, rfl, rfl, rfl, trivial⟩
    · obtain ⟨hline, howes, hprepared⟩ := checkPledge_quiet r env.now sh.campaign
      exact ⟨rfl, rfl, rfl, rfl, hline, howes, hprepared⟩
  | findDonor r campaignId =>
    rw [resume]
    split
    · exact ⟨rfl, rfl, rfl, rfl, rfl, rfl, trivial⟩
    · exact ⟨rfl, rfl, rfl, rfl, rfl, rfl, trivial⟩
    · obtain ⟨hline, howes, hprepared⟩ := beginPledge_quiet acct r campaignId
      exact ⟨rfl, rfl, rfl, rfl, hline, howes, hprepared⟩
  | findCampaign =>
    rw [resume]
    split
    · exact ⟨rfl, rfl, rfl, rfl, rfl, rfl, trivial⟩
    · obtain ⟨hline, howes, hprepared⟩ := checkSettle_quiet acct sh.campaign
      exact ⟨rfl, rfl, rfl, rfl, hline, howes, hprepared⟩
  | payIn | addAmount | readSettled | markCampaign | readAll =>
    rw [resume]
    split <;> exact ⟨rfl, rfl, rfl, rfl, rfl, rfl, trivial⟩
  | checkMilestones | pledged | settled | failed =>
    exact ⟨rfl, rfl, rfl, rfl, rfl, rfl, trivial⟩

theorem Orderly.release {s : Calls ι Shared Call} (h : Orderly s) {i : ι} {c : Campaign}
    {recipient : String} {held : List HeldPledge} (hcall : s.call i = .release c recipient held)
    (hnodup : (ids held).Nodup) (env : Env) :
    Orderly (⟨(resume acct s.shared (.release c recipient held) env).1,
      Function.update s.call i (resume acct s.shared (.release c recipient held) env).2⟩ :
        Calls ι Shared Call) := by
  have hown : (s.call i).owes = [] := by rw [hcall]; rfl
  have hmine : (s.call i).line = ids held := by rw [hcall]; rfl
  cases hpaid : env.paid with
  | true =>
    have hpay : ∀ c' : Call, c'.line = [] → c'.owes = ids held → c'.Prepared →
        Orderly (⟨s.shared.payOut (releasePayout c recipient held),
          Function.update s.call i c'⟩ : Calls ι Shared Call) := by
      intro c' hline howes hprep
      refine h.payOut hnodup (hmine ▸ List.Subset.refl _) (fun id hid ↦ ?_) (fun id ↦ ?_) hprep
      · rw [hline] at hid
        exact absurd hid List.not_mem_nil
      · rw [howes, hown]
        simp [releasePayout]
    simp only [resume, hpaid, if_true]
    split
    · exact hpay _ rfl rfl fun id hid ↦ hid
    · exact hpay _ rfl rfl trivial
  | false =>
    simp only [resume, hpaid, Bool.false_eq_true, if_false]
    split
    · next hok => exact absurd hok (Stellar.PaymentEnv.answer_ne_ok hpaid)
    · exact h.quiet rfl rfl rfl rfl (List.nil_subset _) hown.symm trivial

theorem Orderly.refund {s : Calls ι Shared Call} (h : Orderly s) {i : ι} {c : Campaign}
    {read paid : List ℕ} {p : HeldPledge} {rest : List HeldPledge}
    (hcall : s.call i = .refund c read p rest paid)
    (hprepared : (Call.refund c read p rest paid).Prepared) (env : Env) :
    Orderly (⟨(resume acct s.shared (.refund c read p rest paid) env).1,
      Function.update s.call i (resume acct s.shared (.refund c read p rest paid) env).2⟩ :
        Calls ι Shared Call) := by
  obtain ⟨hnodup, hread, hkeys⟩ := hprepared
  obtain ⟨hnotin, hrest⟩ := List.nodup_cons.mp hnodup
  have hown : (s.call i).owes = paid := by rw [hcall]; rfl
  have hmine : (s.call i).line = ids (p :: rest) := by rw [hcall]; rfl
  cases hpaid : env.paid with
  | true =>
    have hpay : ∀ c' : Call, c'.line ⊆ ids rest → c'.owes = p.pledge.id :: paid → c'.Prepared →
        Orderly (⟨s.shared.payOut (refundPayout c p), Function.update s.call i c'⟩ :
          Calls ι Shared Call) := by
      intro c' hline howes hprep
      refine h.payOut (List.nodup_singleton _) ?_ (fun id hid ↦ ⟨?_, ?_⟩) (fun id ↦ ?_) hprep
      · intro id hid
        rw [List.mem_singleton.mp hid, hmine]
        exact List.mem_cons_self
      · rw [hmine]
        exact List.mem_cons_of_mem _ (hline hid)
      · intro hmem
        rw [List.mem_singleton.mp hmem] at hid
        exact hnotin (hline hid)
      · rw [howes, hown]
        simp [refundPayout]
    -- the pledge moves from the line to what has been paid
    have hmoved : ∀ id ∈ read, id ∈ p.pledge.id :: paid ∨ id ∈ ids rest := by
      intro id hid
      rcases hread id hid with hid | hid
      · exact .inl (List.mem_cons_of_mem _ hid)
      · rcases List.mem_cons.mp hid with rfl | hid
        · exact .inl List.mem_cons_self
        · exact .inr hid
    obtain ⟨hnext, hline⟩ := prepared_nextRefund c _ _ hrest hmoved hkeys
    simp only [resume, hpaid, if_true]
    split
    · exact hpay _ (hline ▸ List.Subset.refl _) (owes_nextRefund c read _ rest) hnext
    · exact hpay _ (List.nil_subset _) rfl trivial
  | false =>
    simp only [resume, hpaid, Bool.false_eq_true, if_false]
    split
    · next hok => exact absurd hok (Stellar.PaymentEnv.answer_ne_ok hpaid)
    · exact h.quiet rfl rfl rfl rfl (List.nil_subset _) hown.symm trivial

omit [DecidableEq ι] in
theorem holds_of_mem_heldPledges {sh : Shared} {id : ℕ} (hid : id ∈ ids sh.heldPledges) :
    sh.Holds id := by
  obtain ⟨q, hq, rfl⟩ := List.mem_map.mp hid
  obtain ⟨p, hp, hmap⟩ := List.mem_filterMap.mp hq
  obtain ⟨u, -, rfl⟩ := Option.map_eq_some_iff.mp hmap
  obtain ⟨hmem, hheld⟩ := List.mem_filter.mp hp
  exact ⟨p, hmem, rfl, of_decide_eq_true hheld⟩

theorem orderly_step (hsecret : truthy acct.secret = true) (s : Calls ι Shared Call) (a : ι × Env)
    (h : Orderly s) (hguard : Guarded s a) : Orderly (step acct s a) := by
  obtain ⟨i, env⟩ := a
  simp only [Guarded] at hguard
  rw [step, Calls.step]
  have hprepared := h.prepared i
  by_cases hmoves : (s.call i).moves = false
  · obtain ⟨hpledges, hpayouts, hnext, husers, hline, howes, hprep⟩ :=
      resume_quiet acct s.shared hmoves env
    refine h.quiet hpledges hpayouts hnext husers ?_ howes hprep
    rw [hline]
    exact List.nil_subset _
  cases hcall : s.call i with
  | insert r hash =>
    simp only [resume]
    split
    · exact h.quiet rfl rfl rfl rfl (List.nil_subset _) (by rw [hcall]; rfl) trivial
    · exact h.insert r.donorId r.amount_pos (by rw [hcall]; rfl) (by rw [hcall]; rfl) trivial
  | selectHeld c =>
    rw [hcall] at hguard
    obtain ⟨hfree, hrecipient⟩ := hguard
    have hown : (s.call i).owes = [] := by rw [hcall]; rfl
    simp only [resume]
    split
    · exact h.quiet rfl rfl rfl rfl (List.nil_subset _) hown.symm trivial
    · obtain ⟨hprep, hline, howes⟩ := prepared_beginSettle hsecret hrecipient
        (ids_heldPledges_nodup h.nodup) fun q hq ↦ key_of_mem_heldPledges h.keys hq
      refine h.take rfl rfl rfl rfl (fun id hid ↦ .inr ?_) (howes.trans hown.symm) hprep
      exact ⟨holds_of_mem_heldPledges (hline hid), Call.Handles.free (hfree id (hline hid)) hown⟩
  | release c recipient held =>
    rw [hcall] at hprepared
    exact h.release hcall hprepared env
  | refund c read p rest paid =>
    rw [hcall] at hprepared
    exact h.refund hcall hprepared env
  | markPledges outcome read paid =>
    rw [hcall] at hguard hprepared
    simp only [resume]
    split
    · exact h.quiet rfl rfl rfl rfl (List.nil_subset _) (by rw [hcall]; rfl) trivial
    · next hok =>
      refine h.markHeld (by cases outcome <;> decide) (fun p hp hheld ↦ ?_) rfl rfl trivial
      rw [hcall]
      exact hprepared p.id (hguard hok p hp hheld)
  | idle | findPledgeCampaign | findDonor | payIn | addAmount | checkMilestones | pledged
  | findCampaign | readSettled | markCampaign | readAll | settled | failed =>
    exact absurd (by rw [hcall]; rfl) hmoves

/-- A campaign before anything has left escrow. -/
structure Fresh (sh : Shared) : Prop where
  nodup : (sh.pledges.map (·.id)).Nodup
  next : ∀ p ∈ sh.pledges, p.id < sh.nextId
  held : ∀ p ∈ sh.pledges, p.status = .held
  payouts : sh.payouts = []
  /-- Every donor has a public key. -/
  keys : ∀ u ∈ sh.users, u.publicKey ≠ ""

def initial (sh : Shared) : Calls ι Shared Call := ⟨sh, fun _ ↦ .idle⟩

omit [DecidableEq ι] in
theorem orderly_initial {sh : Shared} (h : Fresh sh) :
    Orderly (initial sh : Calls ι Shared Call) := by
  refine ⟨PayThenMark.sound_initial (fun id hpaid ↦ ?_) (fun id ↦ ?_) (fun i ↦ ?_) (fun i ↦ ?_),
    h.nodup, h.next, h.keys, fun _ ↦ trivial⟩
  · simp only [abstraction, initial, Shared.mark] at hpaid
    split_ifs at hpaid with hholds hmem
    obtain ⟨p, hp, rfl⟩ := List.mem_map.mp hmem
    exact hholds ⟨p, hp, rfl, h.held p hp⟩
  · simp only [abstraction, initial, Shared.paidOut, h.payouts, List.flatMap_nil, List.count_nil]
  · ext id
    exact iff_of_false List.not_mem_nil (Set.notMem_empty id)
  · ext id
    exact iff_of_false List.not_mem_nil (Set.notMem_empty id)

/-- **Escrow is settled once.** In every run of any pledges and settlements, with any failures, in
which a settlement reads no pledge that another one is about to pay, or has paid without marking it,
releases to a recipient that is set, and marks only pledges it has read, no pledge leaves escrow
twice and every pledge that is marked has left it. -/
theorem escrow_settled_once (hsecret : truthy acct.secret = true) {sh : Shared} (hsh : Fresh sh)
    (as : List (ι × Env)) (hguard : Along (step acct) Guarded (initial sh) as) :
    Always (step acct) EscrowSound (initial sh) as :=
  (hguard.always (orderly_step hsecret) (orderly_initial hsh)).mono fun _ h ↦ h.escrowSound

end Runs

section Examples

/-- An escrow account whose public key is derived from its secret. -/
def plainAccount : EscrowAccount where
  secret := some "SESCROW"
  publicKey secret := .ok ("G" ++ secret)
  publicKey_ne_empty secret key h := by
    cases h
    intro hempty
    have hlength := congrArg String.length hempty
    rw [String.length_append] at hlength
    exact absurd hlength (by simp)

/-- A campaign that has missed its goal, with two pledges of 10 and 20 XLM. -/
def missedCampaign : Shared where
  campaign := some ⟨1, .allOrNothing, .active, some 1000, 30, 100, some "GRECIPIENT"⟩
  users := [⟨1, "GDONOR1", none⟩, ⟨2, "GDONOR2", none⟩]
  pledges := [⟨1, 1, 10, .held, by decide⟩, ⟨2, 2, 20, .held, by decide⟩]
  nextId := 3
  payouts := []

theorem fresh_missedCampaign : Fresh missedCampaign :=
  ⟨by decide, by decide, by decide, rfl, by decide⟩

def settleEnv : Env := ⟨⟨2000, none, .ok (some "hash"), false⟩, .settle⟩

def rejectedEnv : Env := { settleEnv with answer := .error (.plain "tx_bad_seq") }

/-- The first refund succeeds and the second is rejected; the settlement is retried. -/
def refundRetried : List (Fin 2 × Env) :=
  List.replicate 4 (0, settleEnv) ++ [(0, rejectedEnv)] ++ List.replicate 4 (1, settleEnv)

theorem settle_retry_refunds_again : Fresh missedCampaign ∧
    ¬Always (step plainAccount) EscrowSound (initial missedCampaign) refundRetried := by
  refine ⟨fresh_missedCampaign, fun h ↦ ?_⟩
  have htwice : (run (step plainAccount) (initial missedCampaign)
      refundRetried).shared.paidOut 1 = 2 := by
    decide
  have honce := h.last.once 1
  rw [htwice] at honce
  exact absurd honce (by decide)

/-- Both donors are refunded, and a second settlement finds the campaign settled. -/
theorem escrow_settled_once_undisturbed :
    Always (step plainAccount) EscrowSound (initial missedCampaign)
      (List.replicate 8 ((0 : Fin 2), settleEnv) ++ List.replicate 3 (1, settleEnv)) :=
  escrow_settled_once rfl fresh_missedCampaign _ (by decide)

end Examples

end StellarDonations.Crowdfunding
