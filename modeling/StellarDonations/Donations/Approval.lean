import StellarDonations.Concurrency.Interleaving
import StellarDonations.Donations.CreateRecord

/-!
# Approval by several signers

`DonationService.approveDonation` and `expireOverdueApprovals`. A donation above the multi-signature
threshold is recorded without being paid. Signers approve it one by one; the call that brings the
number of approvals to the required one submits the payment. A background sweep expires donations
whose approval window has passed.

Both functions recognise such a donation by the status `TRANSACTION_STATES.AWAITING_APPROVAL`, a
property that does not exist. A record's status is a string and never equal to `undefined`, so
`approveDonation` throws on every donation (`beginApproval_refuses`) and the sweep finds none: the
payment is never submitted, whoever approves.
-/

namespace StellarDonations.Approval

open Concurrency JsString Stellar Transactions Donations

/-! ## The state -/

/-- A payment submitted for a donation, with what the reader of a run wants to know about it. -/
structure Submitted where
  donationId : String
  /-- The submitting call is the one whose approval completed the required number. -/
  decided : Bool
  /-- The donation's status when the payment was submitted. -/
  status : Option String
  deriving DecidableEq

/-- The donation a run is about: how many approvals it needs, and until when. -/
structure Target where
  id : String
  required : ℕ
  expiresAt : ℕ

/-- The target a created record describes. -/
def Target.of (tx : Record) : Target :=
  ⟨tx.id, tx.requiredApprovals.getD 0, tx.approvalExpiresAt.getD 0⟩

/-- The store and the payments submitted. `approvers` is kept for the specification only: the
distinct signers that have called `approveDonation` on the target inside its window. -/
structure Shared where
  store : Store
  payments : List Submitted
  approvers : List String

/-- An approval in progress: the record it read and the approvals it wrote. -/
structure Pending where
  id : String
  updated : Record
  approvals : List Approval
  required : ℕ
  /-- This call's signer completed the required number of approvers. -/
  decided : Bool

/-- What `approveDonation` returns. -/
structure ApprovalResult where
  transaction : Record
  approvalsCount : ℕ
  required : ℕ
  fullyApproved : Bool

/-- Where a call of either function is suspended. The two flags of an ended approval say whether it
was the deciding one and whether it submitted a payment. -/
inductive Call where
  | approve (id signerKeyId : String)
  | auditApproval (p : Pending)
  | sendDonation (p : Pending)
  | auditFailure (p : Pending) (paid : Bool) (message : String)
  | auditSubmitted (p : Pending) (updated : Record)
  | followUp (p : Pending) (updated : Record)
  | returned (decided paid : Bool) (result : ApprovalResult)
  | threw (decided paid : Bool) (e : AppError)
  | expireOverdueApprovals
  | auditExpiry (rest : List Record) (sweepTime expired : ℕ)
  | swept (expired : ℕ)
  | sweepThrew (e : AppError)

/-- The clock and the network's answer. -/
structure StepEnv where
  now : ℕ
  answer : Answer

/-! ## Approving -/

/-- The synchronous first part of `approveDonation`: the checks, and the approval it records. -/
def beginApproval (cfg : Config) (st : Store) (id signerKeyId : String) (now : ℕ) :
    Store × Except AppError (Record × List Approval × ℕ) :=
  if signerKeyId = "" then
    (st, .error (.validationWith .missingRequiredField "signerKeyId is required"))
  else match st.getById id with
  | none => (st, .error (.notFound .donationNotFound "Donation not found"))
  | some tx =>
    if some tx.status ≠ transactionStates.get "AWAITING_APPROVAL" then
      (st, .error (.businessLogic .invalidStateTransition ("Donation " ++ id
        ++ " is not awaiting approval (current status: " ++ tx.status ++ ")")))
    -- expire on access when the window has already lapsed
    else if tx.approvalExpiresAt.any (· ≤ now) then
      match st.updateStatus id TransactionState.expired.name {} now with
      | .error e => (st, .error e)
      | .ok (st', _) => (st', .error (.businessLogic .donationApprovalExpired
          ("Donation " ++ id ++ " approval window has expired")))
    else if (tx.approvals.getD []).any (·.signerKeyId = signerKeyId) then
      (st, .error (.validationWith .donationAlreadyApprovedBySigner
        (signerKeyId ++ " has already approved this donation")))
    else
      let approvals := tx.approvals.getD [] ++ [⟨signerKeyId, now⟩]
      match st.updateApprovals id approvals with
      | .error e => (st, .error e)
      | .ok (st', updated) => (st', .ok (updated, approvals,
          (tx.requiredApprovals.filter (· ≠ 0)).getD cfg.multisigRequiredApprovals))

def failSubmission (sh : Shared) (p : Pending) (paid : Bool) (err : AppError) (now : ℕ) :
    Shared × Call :=
  match sh.store.updateStatus p.id TransactionState.failed.name {} now with
  | .error e => (sh, .threw p.decided paid e)
  | .ok (store, _) => ({ sh with store }, .auditFailure p paid err.message)

/-- After the approval is logged: submit the payment when there are enough approvals. -/
def submitIfApproved (svc : Services) (sh : Shared) (p : Pending) (now : ℕ) : Shared × Call :=
  if p.approvals.length < p.required then
    (sh, .returned p.decided false ⟨p.updated, p.approvals.length, p.required, false⟩)
  else match (p.updated.payment.map (·.sourceAsset)).mapM
      fun a ↦ svc.parseAssetInput (.normalized a) "sourceAsset" with
  | .error e => failSubmission sh p false e now
  | .ok _ => ({ sh with payments := sh.payments ++
      [⟨p.id, p.decided, (sh.store.find p.id).map (·.status)⟩] }, .sendDonation p)

/-- The specification's count: a signer's first call on the target inside its window. -/
def counts (D : Target) (sh : Shared) (id signerKeyId : String) (now : ℕ) : Bool :=
  id = D.id && signerKeyId ≠ "" && now < D.expiresAt && signerKeyId ∉ sh.approvers

/-- The call whose signer completes the required number of approvers. -/
def decides (D : Target) (sh : Shared) (id signerKeyId : String) (now : ℕ) : Bool :=
  counts D sh id signerKeyId now && sh.approvers.length + 1 = D.required

def noteApprover (D : Target) (sh : Shared) (id signerKeyId : String) (now : ℕ) : Shared :=
  if counts D sh id signerKeyId now then { sh with approvers := signerKeyId :: sh.approvers }
  else sh

/-! ## Expiring -/

/-- The loop of `expireOverdueApprovals`, up to its next suspension. -/
def sweepFrom (sh : Shared) (sweepTime now expired : ℕ) : List Record → Shared × Call
  | [] => (sh, .swept expired)
  | tx :: rest =>
    if tx.approvalExpiresAt.any (· ≤ sweepTime) then
      match sh.store.updateStatus tx.id TransactionState.expired.name {} now with
      | .error e => (sh, .sweepThrew e)
      | .ok (store, _) => ({ sh with store }, .auditExpiry rest sweepTime expired)
    else sweepFrom sh sweepTime now expired rest

/-! ## One step -/

/-- Resume a call: it runs to its next `await`. -/
def resume (svc : Services) (D : Target) (sh : Shared) : Call → StepEnv → Shared × Call
  | .approve id signerKeyId, env =>
    let decided := decides D sh id signerKeyId env.now
    let noted := noteApprover D sh id signerKeyId env.now
    match beginApproval svc.config sh.store id signerKeyId env.now with
    | (store, .error e) => ({ noted with store }, .threw decided false e)
    | (store, .ok (updated, approvals, required)) =>
      ({ noted with store }, .auditApproval ⟨id, updated, approvals, required, decided⟩)
  | .auditApproval p, env => submitIfApproved svc sh p env.now
  | .sendDonation p, env =>
    match env.answer with
    | .error e => failSubmission sh p true e env.now
    | .ok result =>
      match sh.store.updateStatus p.id TransactionState.confirmed.name
          { transactionId := some result.transactionId, ledger := some result.ledger,
            confirmedAt := some env.now } env.now with
      | .error e => (sh, .threw p.decided true e)
      | .ok (store, updated) => ({ sh with store }, .auditSubmitted p updated)
  | .auditFailure p paid message, _ => (sh, .threw p.decided paid (.businessLogic .transactionFailed
      ("Approved donation " ++ p.id ++ " failed to submit: " ++ message)))
  | .auditSubmitted p updated, _ => (sh, .followUp p updated)
  -- campaign contribution and donation matching; neither touches this state
  | .followUp p updated, _ =>
    (sh, .returned p.decided true ⟨updated, p.approvals.length, p.required, true⟩)
  | .expireOverdueApprovals, env => sweepFrom sh env.now env.now 0
      (sh.store.getByStatus (transactionStates.get "AWAITING_APPROVAL"))
  | .auditExpiry rest sweepTime expired, env =>
    sweepFrom sh sweepTime env.now (expired + 1) rest
  | .returned decided paid result, _ => (sh, .returned decided paid result)
  | .threw decided paid e, _ => (sh, .threw decided paid e)
  | .swept expired, _ => (sh, .swept expired)
  | .sweepThrew e, _ => (sh, .sweepThrew e)

def step {ι : Type*} [DecidableEq ι] (svc : Services) (D : Target) :
    Calls ι Shared Call → ι × StepEnv → Calls ι Shared Call :=
  Calls.step (resume svc D)

/-! ## What must hold -/

/-- The deciding call has ended without a payment. -/
def Call.lapsed : Call → Bool
  | .returned true false _ => true
  | .threw true false _ => true
  | _ => false

/-- The target is paid at most once, by the call that completed the required number of approvers
inside the window and not after it has expired, and that call does submit the payment. -/
structure PaidOnApproval {ι : Type*} (D : Target) (s : Calls ι Shared Call) : Prop where
  once : s.shared.payments.countP (·.donationId = D.id) ≤ 1
  decided : ∀ p ∈ s.shared.payments, p.donationId = D.id →
    p.decided = true ∧ p.status ≠ some TransactionState.expired.name
  submitted : ∀ i, (s.call i).lapsed = false

/-- The call is an approval that completes the required number of approvers. -/
def Call.completesQuorum (D : Target) (sh : Shared) (now : ℕ) : Call → Bool
  | .approve id signerKeyId => decides D sh id signerKeyId now
  | _ => false

/-- The step is not an approval that completes the required number of approvers. -/
def NoQuorum {ι : Type*} (D : Target) (s : Calls ι Shared Call) (a : ι × StepEnv) : Prop :=
  (s.call a.1).completesQuorum D s.shared a.2.now = false

instance decidableNoQuorum {ι : Type*} (D : Target) (s : Calls ι Shared Call) (a : ι × StepEnv) :
    Decidable (NoQuorum D s a) :=
  inferInstanceAs (Decidable (_ = false))

/-! ## Nothing is ever approved -/

/-- Every approval is refused, and leaves the store as it is. -/
theorem beginApproval_refuses (cfg : Config) (st : Store) (id signerKeyId : String) (now : ℕ) :
    ∃ e, beginApproval cfg st id signerKeyId now = (st, .error e) := by
  rw [beginApproval]
  split_ifs with hsigner
  · exact ⟨_, rfl⟩
  · cases st.getById id with
    | none => exact ⟨_, rfl⟩
    | some tx =>
      have hstatus : some tx.status ≠ transactionStates.get "AWAITING_APPROVAL" := by
        rw [awaitingApproval_undefined]
        exact Option.some_ne_none _
      dsimp only
      rw [if_pos hstatus]
      exact ⟨_, rfl⟩

/-- The sweep finds no donation to expire. -/
theorem getByStatus_awaitingApproval (st : Store) :
    st.getByStatus (transactionStates.get "AWAITING_APPROVAL") = [] := by
  rw [awaitingApproval_undefined, Store.getByStatus]
  exact List.filter_eq_nil_iff.mpr fun r _ ↦ by simp

/-- A call that has not got past its first step, and did not decide. -/
def Call.idle : Call → Bool
  | .approve _ _ => true
  | .expireOverdueApprovals => true
  | .threw decided _ _ => !decided
  | .swept _ => true
  | _ => false

theorem Call.lapsed_of_idle {c : Call} (h : c.idle = true) : c.lapsed = false := by
  cases c with
  | threw decided paid e => cases decided <;> simp_all [Call.idle, Call.lapsed]
  | returned => cases h
  | _ => rfl

section Runs

variable {ι : Type*} [DecidableEq ι] {svc : Services} {D : Target}

/-- No payment has been submitted and no call has got past its first step. -/
structure Idle (s : Calls ι Shared Call) : Prop where
  payments : s.shared.payments = []
  calls : ∀ i, (s.call i).idle = true

omit [DecidableEq ι] in
theorem Idle.paidOnApproval {s : Calls ι Shared Call} (h : Idle s) : PaidOnApproval D s where
  once := by simp [h.payments]
  decided p hp := by
    rw [h.payments] at hp
    exact absurd hp List.not_mem_nil
  submitted i := Call.lapsed_of_idle (h.calls i)

/-- One step of an idle call: nothing is paid, and the call is idle afterwards unless it completes
the quorum, in which case it lapses. -/
theorem resume_idle {c : Call} (hc : c.idle = true) (sh : Shared) (env : StepEnv) :
    (resume svc D sh c env).1.payments = sh.payments ∧
      (c.completesQuorum D sh env.now = false → (resume svc D sh c env).2.idle = true) ∧
      (c.completesQuorum D sh env.now = true → (resume svc D sh c env).2.lapsed = true) := by
  cases c with
  | approve id signer =>
    obtain ⟨e, he⟩ := beginApproval_refuses svc.config sh.store id signer env.now
    have hresume : resume svc D sh (.approve id signer) env
        = ({ noteApprover D sh id signer env.now with store := sh.store },
          .threw (decides D sh id signer env.now) false e) := by
      rw [resume, he]
    rw [hresume, Call.completesQuorum]
    refine ⟨?_, fun h ↦ ?_, fun h ↦ ?_⟩
    · rw [noteApprover]
      split_ifs <;> rfl
    · rw [h]
      rfl
    · rw [h]
      rfl
  | expireOverdueApprovals =>
    rw [resume, getByStatus_awaitingApproval]
    exact ⟨rfl, fun _ ↦ rfl, fun h ↦ by cases h⟩
  | threw decided paid e => exact ⟨rfl, fun _ ↦ hc, fun h ↦ by cases h⟩
  | swept expired => exact ⟨rfl, fun _ ↦ rfl, fun h ↦ by cases h⟩
  | auditApproval | sendDonation | auditFailure | auditSubmitted | followUp | returned | auditExpiry
  | sweepThrew => cases hc

theorem idle_step (s : Calls ι Shared Call) (a : ι × StepEnv) (h : Idle s) (hq : NoQuorum D s a) :
    Idle (step svc D s a) := by
  obtain ⟨i, env⟩ := a
  obtain ⟨hpay, hidle, -⟩ := resume_idle (h.calls i) s.shared env
  refine ⟨?_, fun j ↦ ?_⟩
  · rw [step, Calls.step_shared, hpay]
    exact h.payments
  · by_cases hj : j = i
    · subst hj
      rw [step, Calls.step_call_self]
      exact hidle hq
    · rw [step, Calls.step_call_of_ne s env hj]
      exact h.calls j

/-- The call that completes the quorum ends without paying. -/
theorem not_paidOnApproval_step (s : Calls ι Shared Call) (a : ι × StepEnv) (h : Idle s)
    (hq : ¬NoQuorum D s a) : ¬PaidOnApproval D (step svc D s a) := by
  obtain ⟨i, env⟩ := a
  have hlapsed : (resume svc D s.shared (s.call i) env).2.lapsed = true :=
    (resume_idle (h.calls i) s.shared env).2.2 (Bool.eq_true_of_not_eq_false hq)
  intro hP
  have hsub := hP.submitted i
  rw [step, Calls.step_call_self, hlapsed] at hsub
  cases hsub

def initial (st : Store) (c : ι → Call) : Calls ι Shared Call := ⟨⟨st, [], []⟩, c⟩

def Call.fresh : Call → Bool
  | .approve _ _ => true
  | .expireOverdueApprovals => true
  | _ => false

omit [DecidableEq ι] in
theorem idle_initial (st : Store) {c : ι → Call} (hc : ∀ i, (c i).fresh = true) :
    Idle (initial st c) where
  payments := rfl
  calls i := by
    have hi := hc i
    change (c i).idle = true
    cases hcall : c i with
    | approve | expireOverdueApprovals => rfl
    | auditApproval | sendDonation | auditFailure | auditSubmitted | followUp | returned | threw
    | auditExpiry | swept | sweepThrew =>
      rw [hcall] at hi
      cases hi

/-- **Approvals, exactly.** A donation that `createDonationRecord` makes above the threshold is
recorded unpaid as `pending`, to be approved by the configured number of signers within the window.
An interleaving of approvals and sweeps pays it as promised if and only if no approval completes
the required number of approvers inside the window. -/
theorem paid_on_approval_iff {w w' : World} {r : Request} {env : Env} {tx : Record} {xlm : ℚ}
    (hcreate : createDonationRecord svc w r env = (w', .ok tx))
    (hkey : ∀ k, orNull r.idempotencyKey = some k →
      w.store.indexed k = none ∧ w.store.selectByIdempotencyKey k = none)
    (hxlm : xlmAmount svc r env = .ok xlm) (happroval : requiresApproval svc.config xlm = true)
    {c : ι → Call} (hc : ∀ i, (c i).fresh = true) (as : List (ι × StepEnv)) :
    (w'.submissions = w.submissions ∧ w'.store.getById tx.id = some tx ∧
      Target.of tx = ⟨tx.id, svc.config.multisigRequiredApprovals,
        env.now + svc.config.multisigApprovalWindowMs⟩) ∧
      (Always (step svc (Target.of tx)) (PaidOnApproval (Target.of tx)) (initial w'.store c) as ↔
        Along (step svc (Target.of tx)) (NoQuorum (Target.of tx)) (initial w'.store c) as) := by
  obtain ⟨hsubs, hget, -, hrequired, hexpires, -⟩ :=
    createDonationRecord_of_requiresApproval hcreate hkey hxlm happroval
  refine ⟨⟨hsubs, hget, ?_⟩, ?_⟩
  · rw [Target.of, hrequired, hexpires]
    rfl
  · exact always_iff_along (fun _ h ↦ h.paidOnApproval) idle_step not_paidOnApproval_step
      (idle_initial w'.store hc) as

end Runs

/-! ## Two signers approve -/

section Examples

/-- Donations above 50 XLM need two approvals within a minute. -/
def approvalServices : Services :=
  { signingServices with
    config := { plainConfig with
      multisigThresholdXLM := some 50
      multisigRequiredApprovals := 2
      multisigApprovalWindowMs := 60000 } }

def largeRequest : Request where
  amount := 100
  donor := some "GDONOR"
  recipient := some "GRECIPIENT"

def largeWorld : World :=
  (createDonationRecord approvalServices (start .empty) largeRequest (acceptingEnv "d1" "t1")).1

def largeRecord : Record :=
  (createDonationRecord approvalServices (start .empty) largeRequest
    (acceptingEnv "d1" "t1")).2.toOption.get (by decide +kernel)

theorem createDonationRecord_large :
    createDonationRecord approvalServices (start .empty) largeRequest (acceptingEnv "d1" "t1")
      = (largeWorld, .ok largeRecord) :=
  Prod.ext rfl (Except.toOption_eq_some.mp (Option.some_get _).symm)

def twoSigners (i : Fin 2) : Call := .approve "d1" (if i = 0 then "GSIGNER0" else "GSIGNER1")

theorem approvals_never_paid :
    ¬Always (step approvalServices (Target.of largeRecord)) (PaidOnApproval (Target.of largeRecord))
      (initial largeWorld.store twoSigners)
      [(0, ⟨2000, .ok ⟨"t2", 2, none, none⟩⟩), (1, ⟨3000, .ok ⟨"t2", 2, none, none⟩⟩)] := by
  intro h
  have hlapsed : ((run (step approvalServices (Target.of largeRecord))
      (initial largeWorld.store twoSigners)
      [(0, ⟨2000, .ok ⟨"t2", 2, none, none⟩⟩),
        (1, ⟨3000, .ok ⟨"t2", 2, none, none⟩⟩)]).call 1).lapsed = true := by decide +kernel
  rw [h.last.submitted 1] at hlapsed
  cases hlapsed

/-- With one signer the donation is not due yet. -/
theorem one_approval_not_due :
    Always (step approvalServices (Target.of largeRecord)) (PaidOnApproval (Target.of largeRecord))
      (initial largeWorld.store twoSigners) [((0 : Fin 2), ⟨2000, .ok ⟨"t2", 2, none, none⟩⟩)] := by
  have hxlm : xlmAmount approvalServices largeRequest (acceptingEnv "d1" "t1") = .ok 100 := by
    decide
  refine (paid_on_approval_iff createDonationRecord_large (fun k hk ↦ ?_) hxlm (by decide)
    (fun i ↦ rfl) _).2.mpr (by decide +kernel)
  cases hk

end Examples

end StellarDonations.Approval
