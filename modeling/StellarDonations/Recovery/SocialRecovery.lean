import Mathlib.Data.Finset.Card
import StellarDonations.Concurrency.Interleaving
import StellarDonations.Users

/-!
# Social recovery

`setGuardians`, `initiateRecovery` and `approveRecovery`: the guardians of a wallet approve a
request, and the call whose approval completes the threshold swaps the signer of the account.

`approveRecovery` decides on the request it has read and on the number of all approvals ever given.
By the time of the swap the request may have been cancelled, may have expired or may have been
executed by another call, and approvals count that were given by guardians who have been replaced.

The checks are right about what they read. So each swap is as it should be exactly in the runs where
what a call has read still holds when it swaps: the row of the request is as it was, an earlier swap
has been recorded in it, the deadline has not come in between, and the approvals suffice without
those of guardians who have been removed (`proper_iff`).
-/

namespace StellarDonations.SocialRecovery

open Concurrency

/-! ## The tables -/

def expirationMs : ℕ := 72 * 60 * 60 * 1000

inductive Status where
  | pending
  | cancelled
  | expired
  | executed
  deriving DecidableEq

def Status.name : Status → String
  | pending => "pending"
  | cancelled => "cancelled"
  | expired => "expired"
  | executed => "executed"

/-- A row of `recovery_guardians`. -/
structure Guardian where
  walletId : ℕ
  guardianPublicKey : String
  guardianEmail : Option String
  threshold : Option ℕ
  deriving DecidableEq

structure RecoveryRequest where
  id : ℕ
  walletId : ℕ
  newPublicKey : String
  status : Status
  threshold : ℕ
  executeAfter : ℕ
  executedAt : Option ℕ
  expiresAt : Option ℕ
  deriving DecidableEq

/-- `request.expiresAt || request.executeAfter`. -/
def RecoveryRequest.deadline (r : RecoveryRequest) : ℕ := r.expiresAt.getD r.executeAfter

/-- A row of `recovery_approvals`. -/
structure Approval where
  recoveryRequestId : ℕ
  guardianPublicKey : String
  deriving DecidableEq

/-- A signer swap: the request, and what the tables held about it at the time. -/
structure Swap where
  requestId : ℕ
  row : Option RecoveryRequest
  time : ℕ
  /-- The guardians of the wallet who had approved the request. -/
  endorsers : Finset String
  deriving DecidableEq

/-- The tables and the clock, with the swaps that were executed. -/
structure Shared where
  users : List User
  guardians : List Guardian
  requests : List RecoveryRequest
  approvals : List Approval
  now : ℕ
  swaps : List Swap

/-! ## Calls -/

/-- A call, with its arguments. A guardian or a key without a text is absent. -/
inductive Op where
  | setGuardians (walletId : ℕ) (guardians : List (Option String × Option String))
      (threshold : Option ℤ)
  | initiateRecovery (walletId : ℕ) (newPublicKey : Option String)
  | approveRecovery (walletId recoveryRequestId : ℕ) (guardianPublicKey : String)
  deriving DecidableEq

inductive Returned where
  | guardians (keys : List String) (threshold : ℕ)
  | request (row : RecoveryRequest)
  | approved (row : RecoveryRequest) (approvalCount : ℕ)
  deriving DecidableEq

inductive Call where
  /-- The call has not begun. -/
  | waiting (op : Op)
  | deleteGuardians (walletId : ℕ) (rows : List Guardian) (threshold : ℕ)
  /-- The rows that are still to be inserted. -/
  | insertGuardian (row : Guardian) (rows : List Guardian) (result : Returned)
  /-- `_assertWalletExists` in `getGuardians`, called by `initiateRecovery`. -/
  | initiatorWallet (walletId : ℕ) (newPublicKey : String)
  | initiatorGuardians (walletId : ℕ) (newPublicKey : String)
  | cancel (walletId : ℕ) (newPublicKey : String) (guardianCount : ℕ)
  | getThreshold (walletId : ℕ) (newPublicKey : String) (guardianCount : ℕ)
  | insertRequest (walletId : ℕ) (newPublicKey : String) (threshold expiresAt : ℕ)
  | selectCreated (id : ℕ)
  | expire (request : RecoveryRequest)
  /-- `_assertWalletExists` in `getGuardians`, called by `approveRecovery`. -/
  | approverWallet (request : RecoveryRequest) (guardianPublicKey : String)
  | approverGuardians (request : RecoveryRequest) (guardianPublicKey : String)
  | insertApproval (request : RecoveryRequest) (guardianPublicKey : String)
  | countApprovals (request : RecoveryRequest)
  | loadWallet (request : RecoveryRequest) (approvalCount : ℕ)
  | addSigner (request : RecoveryRequest) (approvalCount : ℕ) (secret publicKey : String)
  | removeSigner (request : RecoveryRequest) (approvalCount : ℕ)
  | markExecuted (request : RecoveryRequest) (approvalCount : ℕ)
  | returned (r : Returned)
  | threw (e : AppError)
  deriving DecidableEq

structure Env where
  /-- The time since the step before. -/
  elapsed : ℕ
  /-- The error of the statement, should it fail. -/
  dbError : Option AppError
  /-- The result of a transaction on the network. -/
  network : Except AppError Unit
  /-- The transaction was applied although the call threw. -/
  lost : Bool

/-- What the service given to the constructor has. -/
structure Config where
  hasAddSigner : Bool
  hasRemoveSigner : Bool

/-! ## The statements -/

def assertWalletExists (sh : Shared) (walletId : ℕ) (next : Call) : Call :=
  if sh.users.any (·.id = walletId) then next
  else .threw (.notFound .notFound ("Wallet " ++ toString walletId ++ " not found"))

def guardianKeys (sh : Shared) (walletId : ℕ) : List String :=
  (sh.guardians.filter (·.walletId = walletId)).map (·.guardianPublicKey)

def approverKeys (sh : Shared) (recoveryRequestId : ℕ) : List String :=
  (sh.approvals.filter (·.recoveryRequestId = recoveryRequestId)).map (·.guardianPublicKey)

def Shared.find (sh : Shared) (id : ℕ) : Option RecoveryRequest := sh.requests.find? (·.id = id)

/-- Change the rows that meet a condition. -/
def Shared.update (sh : Shared) (p : RecoveryRequest → Bool)
    (f : RecoveryRequest → RecoveryRequest) : Shared :=
  { sh with requests := sh.requests.map fun r ↦ if p r then f r else r }

/-- The rows that `setGuardians` inserts: the first one has the threshold. -/
def guardianRows (walletId threshold : ℕ) (guardians : List (String × Option String)) :
    List Guardian :=
  guardians.mapIdx fun i g ↦ ⟨walletId, g.1, g.2, if i = 0 then some threshold else none⟩

def checkGuardians (walletId : ℕ) (guardians : List (Option String × Option String))
    (threshold : Option ℤ) : Call :=
  if guardians = [] then .threw (.validation "guardianPublicKeys must be a non-empty array")
  else if guardians.any fun g ↦ (g.1.filter (· ≠ "")).isNone then
    .threw (.validation "Every guardian must have a publicKey")
  else match threshold.filter fun t ↦ 1 ≤ t ∧ t ≤ (guardians.length : ℤ) with
  | none => .threw (.validation
      ("threshold must be an integer between 1 and " ++ toString guardians.length))
  | some t => .deleteGuardians walletId
      (guardianRows walletId t.toNat (guardians.map fun g ↦ (g.1.getD "", g.2))) t.toNat

/-- `_expireIfNeeded` and the check of the status, up to the next statement. -/
def checkPending (sh : Shared) (request : RecoveryRequest) (guardianPublicKey : String) : Call :=
  if request.status ≠ .pending then
    .threw (.validation ("Recovery request has " ++ request.status.name))
  else if sh.now < request.deadline then .approverWallet request guardianPublicKey
  else .expire request

def nextId (requests : List RecoveryRequest) : ℕ := (requests.map (·.id)).foldl max 0 + 1

/-- The row that `initiateRecovery` inserts. -/
def newRequest (sh : Shared) (walletId : ℕ) (newPublicKey : String) (threshold expiresAt : ℕ) :
    RecoveryRequest where
  id := nextId sh.requests
  walletId := walletId
  newPublicKey := newPublicKey
  status := .pending
  threshold := threshold
  executeAfter := expiresAt
  executedAt := none
  expiresAt := some expiresAt

def getThreshold (sh : Shared) (walletId guardianCount : ℕ) : ℕ :=
  match (sh.guardians.find? fun g ↦ g.walletId = walletId && g.threshold.isSome).bind
    (·.threshold) with
  | some threshold => if threshold = 0 then (guardianCount + 1) / 2 else threshold
  | none => (guardianCount + 1) / 2

/-- The guardians of the wallet who have approved the request. -/
def endorsers (sh : Shared) (request : RecoveryRequest) : Finset String :=
  (guardianKeys sh request.walletId).toFinset ∩ (approverKeys sh request.id).toFinset

/-- What the tables say about a request. -/
def snapshot (sh : Shared) (id : ℕ) : Swap where
  requestId := id
  row := sh.find id
  time := sh.now
  endorsers := ((sh.find id).map (endorsers sh)).getD ∅

def begin (sh : Shared) : Op → Call
  | .setGuardians walletId guardians threshold =>
    assertWalletExists sh walletId (checkGuardians walletId guardians threshold)
  | .initiateRecovery walletId newPublicKey =>
    assertWalletExists sh walletId (match newPublicKey.filter (· ≠ "") with
      | none => .threw (.validation "newPublicKey is required")
      | some key => .initiatorWallet walletId key)
  | .approveRecovery walletId recoveryRequestId guardianPublicKey =>
    match sh.requests.find? fun r ↦ r.id = recoveryRequestId && r.walletId = walletId with
    | none => .threw (.notFound .notFound "Recovery request not found")
    | some request => checkPending sh request guardianPublicKey

def afterSigner (cfg : Config) (request : RecoveryRequest) (approvalCount : ℕ)
    (publicKey : String) : Call :=
  if cfg.hasRemoveSigner && publicKey ≠ "" && publicKey ≠ request.newPublicKey then
    .removeSigner request approvalCount
  else .markExecuted request approvalCount

/-- The statement of `_executeRecovery` that comes first. -/
def executeRecovery (cfg : Config) (sh : Shared) (request : RecoveryRequest)
    (approvalCount : ℕ) : Call :=
  match sh.users.find? (·.id = request.walletId) with
  | none => .markExecuted request approvalCount
  | some wallet =>
    match wallet.encryptedSecret.filter (· ≠ "") with
    | none => .markExecuted request approvalCount
    | some secret =>
      if cfg.hasAddSigner then .addSigner request approvalCount secret wallet.publicKey
      else afterSigner cfg request approvalCount wallet.publicKey

/-- The next row to insert, or the end of `setGuardians`. -/
def insertNext (rows : List Guardian) (result : Returned) : Call :=
  match rows with
  | [] => .returned result
  | row :: rows => .insertGuardian row rows result

/-- Execute the statement a call is suspended on. -/
def execute (cfg : Config) (sh : Shared) (c : Call) (env : Env) : Shared × Call :=
  match c, env.dbError with
  | .addSigner request approvalCount _ publicKey, _ =>
    let swapped := { sh with swaps := sh.swaps ++ [snapshot sh request.id] }
    match env.network with
    | .ok _ => (swapped, afterSigner cfg request approvalCount publicKey)
    | .error e => (if env.lost then swapped else sh, .threw e)
  | .removeSigner request approvalCount, _ =>
    match env.network with
    | .ok _ => (sh, .markExecuted request approvalCount)
    | .error e => (sh, .threw e)
  | .returned _, _ | .threw _, _ => (sh, c)
  | _, some e => (sh, .threw e)
  | .waiting op, none => (sh, begin sh op)
  | .deleteGuardians walletId rows threshold, none =>
    ({ sh with guardians := sh.guardians.filter (·.walletId ≠ walletId) },
      insertNext rows (.guardians (rows.map (·.guardianPublicKey)) threshold))
  | .insertGuardian row rows result, none =>
    if sh.guardians.any fun g ↦ g.walletId = row.walletId &&
        g.guardianPublicKey = row.guardianPublicKey then (sh, .threw .uniqueViolation)
    else ({ sh with guardians := sh.guardians ++ [row] }, insertNext rows result)
  | .initiatorWallet walletId key, none =>
    (sh, assertWalletExists sh walletId (.initiatorGuardians walletId key))
  | .initiatorGuardians walletId key, none =>
    (sh, if guardianKeys sh walletId = [] then
        .threw (.validation "No guardians configured for this wallet")
      else .cancel walletId key (guardianKeys sh walletId).length)
  | .cancel walletId key count, none =>
    (sh.update (fun r ↦ r.walletId = walletId && r.status = .pending)
      ({ · with status := .cancelled }), .getThreshold walletId key count)
  | .getThreshold walletId key count, none =>
    (sh, .insertRequest walletId key (getThreshold sh walletId count) (sh.now + expirationMs))
  | .insertRequest walletId key threshold expiresAt, none =>
    let row := newRequest sh walletId key threshold expiresAt
    ({ sh with requests := sh.requests ++ [row] }, .selectCreated row.id)
  | .selectCreated id, none =>
    (sh, match sh.find id with
      | some row => .returned (.request row)
      | none => .threw (.wrongType "Cannot read properties of undefined (reading 'id')"))
  | .expire request, none =>
    (sh.update (fun r ↦ r.id = request.id && r.status = .pending) ({ · with status := .expired }),
      .threw (.validation "Recovery request has expired"))
  | .approverWallet request key, none =>
    (sh, assertWalletExists sh request.walletId (.approverGuardians request key))
  | .approverGuardians request key, none =>
    (sh, if key ∈ guardianKeys sh request.walletId then .insertApproval request key
      else .threw (.validation "Not an authorized guardian for this wallet"))
  | .insertApproval request key, none =>
    if ⟨request.id, key⟩ ∈ sh.approvals then
      (sh, .threw (.validation "Guardian has already approved this request"))
    else ({ sh with approvals := sh.approvals ++ [⟨request.id, key⟩] }, .countApprovals request)
  | .countApprovals request, none =>
    let approvalCount := (approverKeys sh request.id).length
    (sh, if request.threshold ≤ approvalCount then .loadWallet request approvalCount
      else .returned (.approved request approvalCount))
  | .loadWallet request approvalCount, none => (sh, executeRecovery cfg sh request approvalCount)
  | .markExecuted request approvalCount, none =>
    (sh.update (·.id = request.id) ({ · with status := .executed, executedAt := some sh.now }),
      .returned (.approved { request with status := .executed } approvalCount))

def Shared.tick (sh : Shared) (elapsed : ℕ) : Shared := { sh with now := sh.now + elapsed }

def resume (cfg : Config) (sh : Shared) (c : Call) (env : Env) : Shared × Call :=
  execute cfg (sh.tick env.elapsed) c env

/-! ## The property -/

/-- The request was pending and not past its deadline, and enough guardians had approved it. -/
def Swap.proper (w : Swap) : Bool :=
  w.row.any fun row ↦ row.status = .pending && w.time < row.deadline &&
    row.threshold ≤ w.endorsers.card

variable {ι : Type*}

/-- Each request is executed at most once, and every swap was as it should be. -/
structure Proper (sh : Shared) : Prop where
  once : (sh.swaps.map (·.requestId)).Nodup
  proper : ∀ w ∈ sh.swaps, w.proper = true

/-! ## The condition -/

/-- The transaction on the network is applied, whatever the call learns of it. -/
def Env.applies (env : Env) : Bool :=
  match env.network with
  | .ok _ => true
  | .error _ => env.lost

def Call.reads : Call → Bool
  | .waiting (.approveRecovery _ _ _) => true
  | _ => false

/-- The approval that a call has found a guardian for. -/
def vets (sh : Shared) (c : Call) (env : Env) : Option Approval :=
  match c, env.dbError with
  | .approverGuardians request key, none =>
    if key ∈ guardianKeys sh request.walletId then some ⟨request.id, key⟩ else none
  | _, _ => none

/-- The request whose swap a call records. -/
def records (c : Call) (env : Env) : Option ℕ :=
  match c, env.dbError with
  | .markExecuted request _, none => some request.id
  | _, _ => none

/-- An interleaving, with the times at which the calls read their requests, the approvals whose keys
were those of guardians when they were looked up, and the requests whose swaps were recorded. -/
structure Tracked (ι : Type*) where
  calls : Calls ι Shared Call
  readAt : ι → ℕ
  vetted : List Approval
  recorded : List ℕ

def Tracked.step [DecidableEq ι] (cfg : Config) (t : Tracked ι) (a : ι × Env) : Tracked ι where
  calls := Calls.step (resume cfg) t.calls a
  readAt :=
    if (t.calls.call a.1).reads then
      Function.update t.readAt a.1 (t.calls.shared.now + a.2.elapsed)
    else t.readAt
  vetted := (vets t.calls.shared (t.calls.call a.1) a.2).toList ++ t.vetted
  recorded := (records (t.calls.call a.1) a.2).toList ++ t.recorded

/-- The approvals of a request by guardians who have been removed since. -/
def removed (sh : Shared) (vetted : List Approval) (request : RecoveryRequest) : List String :=
  (approverKeys sh request.id).filter fun key ↦
    ⟨request.id, key⟩ ∈ vetted ∧ key ∉ guardianKeys sh request.walletId

/-- What a call has read of its request still holds. -/
structure Undisturbed (t : Tracked ι) (i : ι) (sh : Shared) (request : RecoveryRequest) : Prop where
  /-- Nobody has written to the row. -/
  row : sh.find request.id = some request
  /-- An earlier swap for the request is recorded. -/
  recorded : request.id ∈ sh.swaps.map (·.requestId) → request.id ∈ t.recorded
  /-- The deadline has not come. -/
  deadline : t.readAt i < request.deadline → sh.now < request.deadline
  /-- The approvals of removed guardians can be spared. -/
  spare : request.threshold ≤ (approverKeys sh request.id).length →
    request.threshold + (removed sh t.vetted request).length ≤ (approverKeys sh request.id).length

/-- The condition on a step: the signer is swapped by a call that is undisturbed. -/
def Guarded (t : Tracked ι) (a : ι × Env) : Prop :=
  match t.calls.call a.1 with
  | .addSigner request _ _ _ =>
    a.2.applies = true → Undisturbed t a.1 (t.calls.shared.tick a.2.elapsed) request
  | _ => True

/-! ## What a statement does -/

/-- The request that a call has read and found pending. -/
def held : Call → Option RecoveryRequest
  | .approverWallet request _ | .approverGuardians request _ | .insertApproval request _
  | .countApprovals request | .loadWallet request _ | .addSigner request _ _ _
  | .removeSigner request _ | .markExecuted request _ => some request
  | _ => none

/-- The request that a call is about to swap the signer for. -/
def poised : Call → Option RecoveryRequest
  | .loadWallet request _ | .addSigner request _ _ _ => some request
  | _ => none

/-- The approval that a call is about to insert. -/
def approving : Call → Option Approval
  | .insertApproval request key => some ⟨request.id, key⟩
  | _ => none

section Execute

variable {cfg : Config} {sh : Shared} {c : Call} {env : Env} {request row : RecoveryRequest}
  {id : ℕ}

theorem find_update (sh : Shared) (p : RecoveryRequest → Bool)
    {f : RecoveryRequest → RecoveryRequest} (hf : ∀ r, (f r).id = r.id) (id : ℕ) :
    (sh.update p f).find id = (sh.find id).map fun r ↦ if p r then f r else r := by
  have hid : ∀ r : RecoveryRequest, (if p r then f r else r).id = r.id := by
    intro r
    split_ifs
    · exact hf r
    · rfl
  have hcomp : (fun r : RecoveryRequest ↦ decide (r.id = id)) ∘ (fun r ↦ if p r then f r else r) =
      fun r ↦ decide (r.id = id) :=
    funext fun r ↦ decide_eq_decide.mpr (by rw [hid])
  rw [Shared.find, Shared.update, List.find?_map, hcomp, Shared.find]

theorem find_update_self {p : RecoveryRequest → Bool} {f : RecoveryRequest → RecoveryRequest}
    (hf : ∀ r, (f r).id = r.id) (hrow : sh.find id = some row) (hp : p row = true) :
    (sh.update p f).find id = some (f row) := by
  rw [find_update sh p hf, hrow, Option.map_some, if_pos hp]

theorem ids_update (sh : Shared) (p : RecoveryRequest → Bool)
    {f : RecoveryRequest → RecoveryRequest} (hf : ∀ r, (f r).id = r.id) :
    (sh.update p f).requests.map (·.id) = sh.requests.map (·.id) := by
  rw [Shared.update, List.map_map]
  refine List.map_congr_left fun r _ ↦ ?_
  rw [Function.comp_apply]
  split_ifs
  · exact hf r
  · rfl

theorem find_id (h : sh.find id = some row) : row.id = id := by
  simpa using List.find?_some h

theorem find_of_mem (hids : (sh.requests.map (·.id)).Nodup) (hrow : row ∈ sh.requests) :
    sh.find row.id = some row := by
  cases hfind : sh.find row.id with
  | none => exact absurd (decide_eq_true rfl) (List.find?_eq_none.mp hfind row hrow)
  | some row' =>
    have hmem : row' ∈ sh.requests := List.mem_of_find?_eq_some hfind
    rw [List.inj_on_of_nodup_map hids hmem hrow (find_id hfind)]

theorem id_lt_nextId {requests : List RecoveryRequest} {r : RecoveryRequest} (hr : r ∈ requests) :
    r.id < nextId requests := by
  have hmem : r.id ∈ requests.map (·.id) := List.mem_map_of_mem hr
  have hle : ∀ (ids : List ℕ) (m : ℕ), m ≤ ids.foldl max m ∧ ∀ n ∈ ids, n ≤ ids.foldl max m := by
    intro ids
    induction ids with
    | nil => exact fun m ↦ ⟨le_rfl, nofun⟩
    | cons n ids ih =>
      intro m
      obtain ⟨hstart, hrest⟩ := ih (max m n)
      refine ⟨(le_max_left m n).trans hstart, fun k hk ↦ ?_⟩
      rcases List.mem_cons.mp hk with rfl | hk
      · exact (le_max_right m k).trans hstart
      · exact hrest k hk
  exact Nat.lt_succ_of_le ((hle _ 0).2 r.id hmem)

/-- A row stays as it is, or is not pending any more. -/
def Later (row row' : RecoveryRequest) : Prop := row' = row ∨ row'.status ≠ .pending

structure Rows (sh sh' : Shared) : Prop where
  find : ∀ id row, sh.find id = some row → ∃ row', sh'.find id = some row' ∧ Later row row'
  ids : (sh.requests.map (·.id)).Nodup → (sh'.requests.map (·.id)).Nodup

theorem Rows.of_requests {sh' : Shared} (h : sh'.requests = sh.requests) : Rows sh sh' := by
  have hfind : ∀ id, sh'.find id = sh.find id := fun id ↦ by rw [Shared.find, Shared.find, h]
  exact ⟨fun id row hrow ↦ ⟨row, (hfind id).trans hrow, .inl rfl⟩, fun hids ↦ h ▸ hids⟩

theorem rows_update (p : RecoveryRequest → Bool) {f : RecoveryRequest → RecoveryRequest}
    (hf : ∀ r, (f r).id = r.id) (hstatus : ∀ r, (f r).status ≠ .pending) :
    Rows sh (sh.update p f) := by
  refine ⟨fun id row hrow ↦ ?_, fun hids ↦ by rwa [ids_update sh p hf]⟩
  rw [find_update sh p hf, hrow, Option.map_some]
  refine ⟨_, rfl, ?_⟩
  split_ifs
  · exact .inr (hstatus row)
  · exact .inl rfl

/-- **No statement makes a request pending again.** -/
theorem rows_execute (cfg : Config) (sh : Shared) (c : Call) (env : Env) :
    Rows sh (execute cfg sh c env).1 := by
  rcases env with ⟨elapsed, _ | e, network, lost⟩ <;> cases c
  case none.addSigner | some.addSigner =>
    simp only [execute]
    split
    · exact .of_requests rfl
    · split_ifs <;> exact .of_requests rfl
  case none.removeSigner | some.removeSigner =>
    simp only [execute]
    split <;> exact .of_requests rfl
  case none.insertGuardian | none.insertApproval =>
    simp only [execute]
    split_ifs <;> exact .of_requests rfl
  case none.cancel => exact rows_update _ (fun _ ↦ rfl) fun _ ↦ Status.noConfusion
  case none.expire => exact rows_update _ (fun _ ↦ rfl) fun _ ↦ Status.noConfusion
  case none.markExecuted => exact rows_update _ (fun _ ↦ rfl) fun _ ↦ Status.noConfusion
  case none.insertRequest walletId key threshold expiresAt =>
    refine ⟨fun id row hrow ↦ ⟨row, ?_, .inl rfl⟩, fun hids ↦ ?_⟩
    · rw [Shared.find] at hrow ⊢
      simp only [execute, List.find?_append, hrow, Option.some_or]
    · simp only [execute, List.map_append, List.map_cons, List.map_nil]
      refine hids.append (List.nodup_singleton _) fun n hn hn' ↦ ?_
      obtain ⟨r, hr, rfl⟩ := List.mem_map.mp hn
      exact (id_lt_nextId hr).ne (List.mem_singleton.mp hn')
  all_goals exact .of_requests rfl

/-- Where a statement takes a call, with the request it has read. -/
inductive Goes (sh : Shared) (c : Call) (env : Env) : Call → Prop where
  /-- The call holds no request afterwards. -/
  | rest (c' : Call) (held : held c' = none) : Goes sh c env c'
  /-- It has read a request that is pending and before its deadline. -/
  | read (request : RecoveryRequest) (key : String) (reads : c.reads = true)
      (mem : request ∈ sh.requests) (pending : request.status = .pending)
      (live : sh.now < request.deadline) : Goes sh c env (.approverWallet request key)
  | lookup (request : RecoveryRequest) (key : String) (call : c = .approverWallet request key) :
      Goes sh c env (.approverGuardians request key)
  /-- The key is that of a guardian. -/
  | vet (request : RecoveryRequest) (key : String) (call : c = .approverGuardians request key)
      (vets : vets sh c env = some ⟨request.id, key⟩) :
      Goes sh c env (.insertApproval request key)
  | count (request : RecoveryRequest) (key : String) (call : c = .insertApproval request key) :
      Goes sh c env (.countApprovals request)
  | decide (request : RecoveryRequest) (call : c = .countApprovals request)
      (reached : request.threshold ≤ (approverKeys sh request.id).length) :
      Goes sh c env (.loadWallet request (approverKeys sh request.id).length)
  | load (request : RecoveryRequest) (count : ℕ) (c' : Call) (call : c = .loadWallet request count)
      (held : held c' = some request) (approving : approving c' = none) : Goes sh c env c'
  | finish (request : RecoveryRequest) (c' : Call) (call : held c = some request)
      (held : held c' = some request) (poised : poised c' = none)
      (approving : approving c' = none) :
      Goes sh c env c'

theorem goes_insertNext (rows : List Guardian) (result : Returned) :
    Goes sh c env (insertNext rows result) := by
  cases rows <;> exact .rest _ rfl

theorem afterSigner_held (cfg : Config) (request : RecoveryRequest) (count : ℕ)
    (publicKey : String) : held (afterSigner cfg request count publicKey) = some request ∧
      poised (afterSigner cfg request count publicKey) = none ∧
      approving (afterSigner cfg request count publicKey) = none := by
  rw [afterSigner]
  split_ifs <;> exact ⟨rfl, rfl, rfl⟩

theorem executeRecovery_held (cfg : Config) (sh : Shared) (request : RecoveryRequest)
    (count : ℕ) : held (executeRecovery cfg sh request count) = some request ∧
      approving (executeRecovery cfg sh request count) = none := by
  rw [executeRecovery]
  split
  · exact ⟨rfl, rfl⟩
  · split
    · exact ⟨rfl, rfl⟩
    · split_ifs
      · exact ⟨rfl, rfl⟩
      · exact (afterSigner_held cfg request count _).imp_right And.right

/-- **The checks on a request that is read**: it is pending, and before its deadline. -/
theorem goes_begin (op : Op) : Goes sh (.waiting op) env (begin sh op) := by
  cases op with
  | setGuardians walletId guardians threshold =>
    rw [begin, assertWalletExists, checkGuardians]
    split_ifs
    · exact .rest _ rfl
    · exact .rest _ rfl
    · split <;> exact .rest _ rfl
    · exact .rest _ rfl
  | initiateRecovery walletId key =>
    rw [begin, assertWalletExists]
    split_ifs
    · split <;> exact .rest _ rfl
    · exact .rest _ rfl
  | approveRecovery walletId id key =>
    rw [begin]
    split
    · exact .rest _ rfl
    · next request hrequest =>
      rw [checkPending]
      split_ifs with hpending hlive
      · exact .rest _ rfl
      · exact .read request key rfl (List.mem_of_find?_eq_some hrequest) (not_not.mp hpending) hlive
      · exact .rest _ rfl

/-- **The inversion of a statement.** -/
theorem goes_execute (cfg : Config) (sh : Shared) (c : Call) (env : Env) :
    Goes sh c env (execute cfg sh c env).2 := by
  rcases env with ⟨elapsed, _ | e, network, lost⟩ <;> cases c
  case none.addSigner request count secret key | some.addSigner request count secret key =>
    simp only [execute]
    split
    · obtain ⟨hheld, hpoised, happroving⟩ := afterSigner_held cfg request count key
      exact .finish request _ rfl hheld hpoised happroving
    · exact .rest _ rfl
  case none.removeSigner request count | some.removeSigner request count =>
    simp only [execute]
    split
    · exact .finish request _ rfl rfl rfl rfl
    · exact .rest _ rfl
  case none.waiting op => exact goes_begin op
  case none.deleteGuardians => exact goes_insertNext _ _
  case none.insertGuardian =>
    simp only [execute]
    split_ifs
    · exact .rest _ rfl
    · exact goes_insertNext _ _
  case none.initiatorWallet =>
    simp only [execute, assertWalletExists]
    split_ifs <;> exact .rest _ rfl
  case none.initiatorGuardians =>
    simp only [execute]
    split_ifs <;> exact .rest _ rfl
  case none.selectCreated =>
    simp only [execute]
    split <;> exact .rest _ rfl
  case none.approverWallet request key =>
    simp only [execute, assertWalletExists]
    split_ifs
    · exact .lookup request key rfl
    · exact .rest _ rfl
  case none.approverGuardians request key =>
    simp only [execute]
    split_ifs with hguardian
    · exact .vet request key rfl (if_pos hguardian)
    · exact .rest _ rfl
  case none.insertApproval request key =>
    simp only [execute]
    split_ifs
    · exact .rest _ rfl
    · exact .count request key rfl
  case none.countApprovals request =>
    simp only [execute]
    split_ifs with hreached
    · exact .decide request rfl hreached
    · exact .rest _ rfl
  case none.loadWallet request count =>
    obtain ⟨hheld, happroving⟩ := executeRecovery_held cfg sh request count
    exact .load request count _ rfl hheld happroving
  all_goals exact .rest _ rfl

theorem poised_of_held (h : held c = none) : poised c = none := by
  cases c <;> first | rfl | cases h

theorem approving_of_held (h : held c = none) : approving c = none := by
  cases c <;> first | rfl | cases h

section Goes

variable {c' : Call}

theorem Goes.held (hgoes : Goes sh c env c') (h : held c' = some request) :
    SocialRecovery.held c = some request ∨ c.reads = true ∧ request ∈ sh.requests ∧
      request.status = .pending ∧ sh.now < request.deadline := by
  cases hgoes with
  | rest _ hnone => cases hnone.symm.trans h
  | read request' key hreads hmem hpending hlive =>
    cases h
    exact .inr ⟨hreads, hmem, hpending, hlive⟩
  | lookup _ _ hcall | vet _ _ hcall | count _ _ hcall | decide _ hcall =>
    subst hcall
    exact .inl h
  | load _ _ _ hcall hheld =>
    subst hcall
    exact .inl (hheld.symm.trans h)
  | finish _ _ hcall hheld => exact .inl (hcall.trans (hheld.symm.trans h))

theorem Goes.poised (hgoes : Goes sh c env c') (h : poised c' = some request) :
    SocialRecovery.poised c = some request ∨
      request.threshold ≤ (approverKeys sh request.id).length := by
  cases hgoes with
  | rest _ hnone => cases (poised_of_held hnone).symm.trans h
  | read | lookup | vet | count => cases h
  | decide request' hcall hreached =>
    cases h
    exact .inr hreached
  | load request' count _ hcall hheld =>
    subst hcall
    refine .inl (hheld.symm.trans ?_)
    cases c' <;> first | exact h | cases h
  | finish _ _ _ _ hnone => cases hnone.symm.trans h

theorem Goes.approving (hgoes : Goes sh c env c') {x : Approval} (h : approving c' = some x) :
    vets sh c env = some x := by
  cases hgoes with
  | rest _ hnone => cases (approving_of_held hnone).symm.trans h
  | read | lookup | count | decide => cases h
  | vet request key hcall hvets => exact hvets.trans h
  | load _ _ _ _ _ hnone => cases hnone.symm.trans h
  | finish _ _ _ _ _ hnone => cases hnone.symm.trans h

end Goes

theorem approvals_execute (cfg : Config) (sh : Shared) (c : Call) (env : Env) :
    (execute cfg sh c env).1.approvals = sh.approvals ∨ ∃ x, approving c = some x ∧
      x ∉ sh.approvals ∧ (execute cfg sh c env).1.approvals = sh.approvals ++ [x] := by
  rcases env with ⟨elapsed, _ | e, network, lost⟩ <;> cases c
  case none.addSigner | some.addSigner =>
    simp only [execute]
    split
    · exact .inl rfl
    · split_ifs <;> exact .inl rfl
  case none.removeSigner | some.removeSigner =>
    simp only [execute]
    split <;> exact .inl rfl
  case none.insertGuardian =>
    simp only [execute]
    split_ifs <;> exact .inl rfl
  case none.insertApproval request key =>
    simp only [execute]
    split_ifs with hdup
    · exact .inl rfl
    · exact .inr ⟨⟨request.id, key⟩, rfl, hdup, rfl⟩
  all_goals exact .inl rfl

/-- Swaps are executed by the transactions that are applied. -/
theorem swaps_execute (cfg : Config) (sh : Shared) (c : Call) (env : Env) :
    (execute cfg sh c env).1.swaps = sh.swaps ∨ ∃ request count secret key,
      c = .addSigner request count secret key ∧ env.applies = true := by
  rcases env with ⟨elapsed, _ | e, network, lost⟩ <;> cases c
  case none.addSigner request count secret key | some.addSigner request count secret key =>
    simp only [execute, Env.applies]
    split
    · exact .inr ⟨request, count, secret, key, rfl, rfl⟩
    · split_ifs with hlost
      · exact .inr ⟨request, count, secret, key, rfl, hlost⟩
      · exact .inl rfl
  case none.removeSigner | some.removeSigner =>
    simp only [execute]
    split <;> exact .inl rfl
  case none.insertGuardian | none.insertApproval =>
    simp only [execute]
    split_ifs <;> exact .inl rfl
  all_goals exact .inl rfl

theorem execute_addSigner (cfg : Config) (sh : Shared) (request : RecoveryRequest) (count : ℕ)
    (secret key : String) (h : env.applies = true) :
    (execute cfg sh (.addSigner request count secret key) env).1
      = { sh with swaps := sh.swaps ++ [snapshot sh request.id] } := by
  obtain ⟨elapsed, dbError, network, lost⟩ := env
  rw [Env.applies] at h
  dsimp only at h
  cases network with
  | ok u => cases dbError <;> rfl
  | error e =>
    have hlost : lost = true := h
    cases dbError <;> simp only [execute, hlost, if_true]

theorem find_of_records (h : records c env = some id) (hrow : sh.find id = some row) :
    ∃ row', (execute cfg sh c env).1.find id = some row' ∧ row'.status ≠ .pending := by
  obtain ⟨elapsed, dbError, network, lost⟩ := env
  cases c with
  | markExecuted request count =>
    cases dbError with
    | some e => cases h
    | none =>
      obtain rfl : request.id = id := Option.some.inj h
      exact ⟨_, find_update_self (fun _ ↦ rfl) hrow (decide_eq_true (find_id hrow)),
        Status.noConfusion⟩
  | _ => cases dbError <;> cases h

theorem held_of_records (h : records c env = some id) :
    ∃ request, held c = some request ∧ request.id = id := by
  obtain ⟨elapsed, dbError, network, lost⟩ := env
  cases c with
  | markExecuted request count =>
    cases dbError with
    | some e => cases h
    | none => exact ⟨request, rfl, Option.some.inj h⟩
  | _ => cases dbError <;> cases h

end Execute

/-! ## Counting the approvals -/

section Count

variable {sh : Shared} {vetted : List Approval} {request : RecoveryRequest}

theorem nodup_approverKeys (h : sh.approvals.Nodup) (id : ℕ) : (approverKeys sh id).Nodup := by
  refine (h.filter _).map_on fun x hx y hy hkey ↦ ?_
  have hx' : x.recoveryRequestId = id := of_decide_eq_true (List.mem_filter.mp hx).2
  have hy' : y.recoveryRequestId = id := of_decide_eq_true (List.mem_filter.mp hy).2
  obtain ⟨xid, xkey⟩ := x
  obtain ⟨yid, ykey⟩ := y
  obtain rfl : xid = id := hx'
  obtain rfl : yid = xid := hy'
  obtain rfl : xkey = ykey := hkey
  rfl

theorem mem_approverKeys {id : ℕ} {key : String} :
    key ∈ approverKeys sh id ↔ ⟨id, key⟩ ∈ sh.approvals := by
  rw [approverKeys, List.mem_map]
  constructor
  · rintro ⟨x, hx, rfl⟩
    obtain ⟨hmem, hid⟩ := List.mem_filter.mp hx
    obtain rfl := of_decide_eq_true hid
    exact hmem
  · exact fun h ↦ ⟨_, List.mem_filter.mpr ⟨h, decide_eq_true rfl⟩, rfl⟩

/-- The approvals are those of current guardians and those of removed ones, when all of them were
given by guardians. -/
theorem card_endorsers (request : RecoveryRequest) (hnodup : sh.approvals.Nodup)
    (hvetted : ∀ x ∈ sh.approvals, x ∈ vetted) :
    (endorsers sh request).card + (removed sh vetted request).length
      = (approverKeys sh request.id).length := by
  have hendorsers : endorsers sh request = ((approverKeys sh request.id).filter fun key ↦
      key ∈ guardianKeys sh request.walletId).toFinset := by
    ext key
    simp [endorsers, and_comm]
  have hremoved : removed sh vetted request = (approverKeys sh request.id).filter fun key ↦
      !decide (key ∈ guardianKeys sh request.walletId) := by
    refine List.filter_congr fun key hkey ↦ ?_
    have hmem := hvetted _ (mem_approverKeys.mp hkey)
    simp [hmem]
  rw [hendorsers, hremoved,
    List.toFinset_card_of_nodup ((nodup_approverKeys hnodup request.id).filter _)]
  exact (List.length_eq_length_filter_add _).symm

end Count

/-! ## The invariant -/

section Invariant

variable {t : Tracked ι} {cfg : Config}

structure Sound (t : Tracked ι) : Prop where
  ids : (t.calls.shared.requests.map (·.id)).Nodup
  unique : t.calls.shared.approvals.Nodup
  vetted : ∀ x ∈ t.calls.shared.approvals, x ∈ t.vetted
  approving : ∀ i, ∀ x ∈ approving (t.calls.call i), x ∈ t.vetted
  recorded : ∀ id ∈ t.recorded,
    ∃ row, t.calls.shared.find id = some row ∧ row.status ≠ .pending
  held : ∀ i, ∀ request ∈ held (t.calls.call i),
    (∃ row, t.calls.shared.find request.id = some row ∧ Later request row) ∧
      request.status = .pending ∧ t.readAt i < request.deadline
  poised : ∀ i, ∀ request ∈ poised (t.calls.call i),
    request.threshold ≤ (approverKeys t.calls.shared request.id).length
  proper : Proper t.calls.shared

theorem Later.trans {r r' r'' : RecoveryRequest} (h : Later r r') (h' : Later r' r'') :
    Later r r'' := by
  rcases h' with rfl | h'
  · exact h
  · exact .inr h'

theorem find_tick (sh : Shared) (elapsed id : ℕ) : (sh.tick elapsed).find id = sh.find id := rfl

/-- **A swap by an undisturbed call is as it should be.** -/
theorem Sound.proper_swap (ht : Sound t) (i : ι) {elapsed : ℕ} {request : RecoveryRequest}
    (hheld : request ∈ SocialRecovery.held (t.calls.call i))
    (hpoised : request ∈ SocialRecovery.poised (t.calls.call i)) :
    Undisturbed t i (t.calls.shared.tick elapsed) request ↔
      (snapshot (t.calls.shared.tick elapsed) request.id).proper = true ∧
        request.id ∉ t.calls.shared.swaps.map (·.requestId) := by
  obtain ⟨⟨row, hrow, hlater⟩, hpending, hread⟩ := ht.held i request hheld
  have hcount := ht.poised i request hpoised
  have hcard := @card_endorsers (t.calls.shared.tick elapsed) _ request ht.unique ht.vetted
  have hproper : (snapshot (t.calls.shared.tick elapsed) request.id).proper = true ↔
      row.status = .pending ∧ (t.calls.shared.tick elapsed).now < row.deadline ∧
        row.threshold ≤ (endorsers (t.calls.shared.tick elapsed) row).card := by
    rw [Swap.proper, snapshot, find_tick, hrow]
    simp [and_assoc]
  rw [hproper]
  constructor
  · intro hquiet
    obtain rfl : row = request := Option.some.inj (hrow.symm.trans hquiet.row)
    refine ⟨⟨hpending, hquiet.deadline hread, ?_⟩, fun hswapped ↦ ?_⟩
    · have hspare := hquiet.spare hcount
      have hlength : (approverKeys (t.calls.shared.tick elapsed) row.id).length
          = (approverKeys t.calls.shared row.id).length := rfl
      omega
    · -- the row of a recorded request was not pending when it was read
      obtain ⟨row', hrow', hstatus⟩ := ht.recorded _ (hquiet.recorded hswapped)
      obtain rfl : row = row' := Option.some.inj (hrow.symm.trans hrow')
      exact hstatus hpending
  · rintro ⟨⟨hrowPending, hlive, hthreshold⟩, hnew⟩
    obtain rfl : row = request := hlater.resolve_right fun hne ↦ hne hrowPending
    refine ⟨hrow, fun hswapped ↦ absurd hswapped hnew, fun _ ↦ hlive, fun _ ↦ ?_⟩
    omega

variable [DecidableEq ι] {i : ι} {env : Env}

omit [DecidableEq ι] in
theorem Sound.proper_execute (ht : Sound t) (hguard : Guarded t (i, env)) :
    Proper (execute cfg (t.calls.shared.tick env.elapsed) (t.calls.call i) env).1 := by
  rcases swaps_execute cfg (t.calls.shared.tick env.elapsed) (t.calls.call i) env with
    hsame | ⟨request, count, secret, key, hcall, happlies⟩
  · exact ⟨by rw [hsame]; exact ht.proper.once, by rw [hsame]; exact ht.proper.proper⟩
  · simp only [Guarded, hcall] at hguard
    have hheld : request ∈ SocialRecovery.held (t.calls.call i) := by rw [hcall]; rfl
    have hpoised : request ∈ SocialRecovery.poised (t.calls.call i) := by rw [hcall]; rfl
    obtain ⟨hproper, hnew⟩ := (ht.proper_swap i hheld hpoised).mp (hguard happlies)
    rw [hcall, execute_addSigner cfg _ request count secret key happlies]
    constructor
    · dsimp only
      rw [List.map_append, List.map_singleton]
      refine List.nodup_append.mpr ⟨ht.proper.once, List.pairwise_singleton .., ?_⟩
      rintro id hid id' hid' rfl
      rw [List.mem_singleton.mp hid'] at hid
      exact hnew hid
    · intro w hw
      rcases List.mem_append.mp hw with hold | hlast
      · exact ht.proper.proper w hold
      · rw [List.mem_singleton.mp hlast]
        exact hproper

theorem Sound.step (ht : Sound t) (hguard : Guarded t (i, env)) :
    Sound (t.step cfg (i, env)) := by
  have hrows := rows_execute cfg (t.calls.shared.tick env.elapsed) (t.calls.call i) env
  have happrovals := approvals_execute cfg (t.calls.shared.tick env.elapsed) (t.calls.call i) env
  have hgoes := goes_execute cfg (t.calls.shared.tick env.elapsed) (t.calls.call i) env
  have hself : (t.step cfg (i, env)).calls.call i
      = (execute cfg (t.calls.shared.tick env.elapsed) (t.calls.call i) env).2 :=
    Calls.step_call_self ..
  have hother : ∀ j, j ≠ i → (t.step cfg (i, env)).calls.call j = t.calls.call j :=
    fun j hj ↦ Calls.step_call_of_ne _ env hj
  have hvetted : ∀ x ∈ t.vetted, x ∈ (t.step cfg (i, env)).vetted :=
    fun x hx ↦ List.mem_append_right _ hx
  have hfind : ∀ {request row : RecoveryRequest}, t.calls.shared.find request.id = some row →
      Later request row → ∃ row', (t.step cfg (i, env)).calls.shared.find request.id = some row' ∧
        Later request row' := by
    intro request row hrow hlater
    obtain ⟨row', hrow', hlater'⟩ := hrows.find request.id row hrow
    exact ⟨row', hrow', hlater.trans hlater'⟩
  constructor
  case ids => exact hrows.ids ht.ids
  case unique =>
    rcases happrovals with hsame | ⟨x, -, hnew, hadded⟩
    · exact hsame.symm ▸ ht.unique
    · refine hadded.symm ▸ ht.unique.append (List.nodup_singleton _) fun y hy hy' ↦ ?_
      exact hnew (List.mem_singleton.mp hy' ▸ hy)
  case vetted =>
    intro x hx
    rcases happrovals with hsame | ⟨y, hy, -, hadded⟩
    · exact hvetted x (ht.vetted x (hsame ▸ hx))
    · have hx' : x ∈ t.calls.shared.approvals ++ [y] := hadded ▸ hx
      rcases List.mem_append.mp hx' with hx' | hx'
      · exact hvetted x (ht.vetted x hx')
      · rw [List.mem_singleton.mp hx']
        exact hvetted y (ht.approving i y hy)
  case approving =>
    intro j x hx
    rcases eq_or_ne j i with rfl | hj
    · rw [hself] at hx
      exact List.mem_append_left _ (Option.mem_toList.mpr (hgoes.approving hx))
    · rw [hother j hj] at hx
      exact hvetted x (ht.approving j x hx)
  case recorded =>
    intro id hid
    rcases List.mem_append.mp hid with hid | hid
    · have hrecords := Option.mem_toList.mp hid
      obtain ⟨request, hheld, rfl⟩ := held_of_records hrecords
      obtain ⟨⟨row, hrow, -⟩, -⟩ := ht.held i request hheld
      exact find_of_records hrecords hrow
    · obtain ⟨row, hrow, hstatus⟩ := ht.recorded id hid
      obtain ⟨row', hrow', hlater⟩ := hrows.find id row hrow
      exact ⟨row', hrow', hlater.elim (fun h ↦ h ▸ hstatus) fun h ↦ h⟩
  case held =>
    intro j request hheld
    rcases eq_or_ne j i with rfl | hj
    · rw [hself] at hheld
      rcases hgoes.held hheld with hbefore | ⟨hreads, hmem, hpending, hlive⟩
      · obtain ⟨⟨row, hrow, hlater⟩, hpending, hread⟩ := ht.held j request hbefore
        refine ⟨hfind hrow hlater, hpending, ?_⟩
        have hreads : (t.calls.call j).reads = false := by
          cases hcall : t.calls.call j <;> rw [hcall] at hbefore <;> first | rfl | cases hbefore
        rw [Tracked.step]
        dsimp only
        rw [hreads, if_neg Bool.false_ne_true]
        exact hread
      · refine ⟨hfind (find_of_mem ht.ids hmem) (.inl rfl), hpending, ?_⟩
        rw [Tracked.step]
        dsimp only
        rw [hreads, if_pos rfl, Function.update_self]
        exact hlive
    · rw [hother j hj] at hheld
      obtain ⟨⟨row, hrow, hlater⟩, hpending, hread⟩ := ht.held j request hheld
      refine ⟨hfind hrow hlater, hpending, ?_⟩
      rw [Tracked.step]
      dsimp only
      split_ifs
      · rwa [Function.update_of_ne hj]
      · exact hread
  case poised =>
    have hmono : ∀ id, (approverKeys t.calls.shared id).length
        ≤ (approverKeys (t.step cfg (i, env)).calls.shared id).length := by
      intro id
      have hsub :
          t.calls.shared.approvals.Sublist (t.step cfg (i, env)).calls.shared.approvals := by
        rcases happrovals with hsame | ⟨x, -, -, hadded⟩
        · exact hsame.symm ▸ List.Sublist.refl _
        · exact hadded.symm ▸ List.sublist_append_left _ _
      exact ((hsub.filter _).map _).length_le
    intro j request hpoised
    rcases eq_or_ne j i with rfl | hj
    · rw [hself] at hpoised
      rcases hgoes.poised hpoised with hbefore | hreached
      · exact (ht.poised j request hbefore).trans (hmono request.id)
      · exact le_trans hreached (hmono request.id)
    · rw [hother j hj] at hpoised
      exact (ht.poised j request hpoised).trans (hmono request.id)
  case proper => exact ht.proper_execute hguard

/-- A swap by a call that was disturbed is not as it should be. -/
theorem Sound.not_proper (ht : Sound t) (hguard : ¬Guarded t (i, env)) :
    ¬Proper (t.step cfg (i, env)).calls.shared := by
  rw [Guarded] at hguard
  dsimp only at hguard
  split at hguard
  case h_2 => exact absurd trivial hguard
  next request count secret key hcall =>
    obtain ⟨happlies, hdisturbed⟩ := Classical.not_imp.mp hguard
    have hshared : (t.step cfg (i, env)).calls.shared
        = (execute cfg (t.calls.shared.tick env.elapsed) (t.calls.call i) env).1 := rfl
    intro hproper
    rw [hshared, hcall, execute_addSigner cfg _ request count secret key happlies] at hproper
    refine hdisturbed ((ht.proper_swap i (by rw [hcall]; rfl) (by rw [hcall]; rfl)).mpr
      ⟨hproper.proper _ (List.mem_append_right _ (List.mem_singleton_self _)), fun hmem ↦ ?_⟩)
    have honce := hproper.once
    dsimp only at honce
    rw [List.map_append, List.map_singleton] at honce
    exact (List.nodup_append.mp honce).2.2 _ hmem _ (List.mem_singleton_self _) rfl

/-- Tables with their keys, before the first call has begun. -/
structure Starts (s : Calls ι Shared Call) : Prop where
  waiting : ∀ i, ∃ op, s.call i = .waiting op
  swaps : s.shared.swaps = []
  ids : (s.shared.requests.map (·.id)).Nodup
  unique : s.shared.approvals.Nodup

/-- The start of a run. The approvals in the tables count as given by guardians. -/
def start (s : Calls ι Shared Call) : Tracked ι where
  calls := s
  readAt _ := 0
  vetted := s.shared.approvals
  recorded := []

omit [DecidableEq ι] in
theorem sound_start {s : Calls ι Shared Call} (hs : Starts s) : Sound (start s) := by
  have hcall : ∀ i, ∃ op, (start s).calls.call i = .waiting op := hs.waiting
  constructor
  case ids => exact hs.ids
  case unique => exact hs.unique
  case vetted => exact fun _ hx ↦ hx
  case approving | held | poised =>
    intro i x hx
    obtain ⟨op, hop⟩ := hcall i
    rw [hop] at hx
    cases hx
  case recorded => exact fun id hid ↦ absurd hid List.not_mem_nil
  case proper =>
    have hswaps : (start s).calls.shared.swaps = [] := hs.swaps
    constructor
    · rw [hswaps]
      exact List.nodup_nil
    · rw [hswaps]
      exact fun w hw ↦ absurd hw List.not_mem_nil

/-- **Swaps are as they should be**: every request is executed at most once, while it is pending,
before its deadline and approved by enough guardians of the wallet, exactly in the runs in which
every swap is made by a call of which nobody has disturbed what it has read. -/
theorem proper_iff (cfg : Config) {s : Calls ι Shared Call} (hs : Starts s) (as : List (ι × Env)) :
    Always (Tracked.step cfg) (fun t ↦ Proper t.calls.shared) (start s) as ↔
      Along (Tracked.step cfg) Guarded (start s) as :=
  always_iff_along (I := Sound) (fun _ ht ↦ ht.proper) (fun _ _ ht hguard ↦ ht.step hguard)
    (fun _ _ ht hguard ↦ ht.not_proper hguard) (sound_start hs) as

end Invariant

section Examples

/-- The statement succeeds at once, and so does the network. -/
def calm : Env := ⟨0, none, .ok (), false⟩

def stellarService : Config := ⟨true, true⟩

/-- A wallet with the guardians `A` and `B`, both of whom are needed, and a pending request that
some have approved. -/
def pendingRequest (approvers : List String) : Shared where
  users := [⟨1, "GW", some "secret"⟩]
  guardians := [⟨1, "A", none, some 2⟩, ⟨1, "B", none, none⟩]
  requests := [⟨1, 1, "GNEW", .pending, 2, expirationMs, none, some expirationMs⟩]
  approvals := approvers.map (⟨1, ·⟩)
  now := 0
  swaps := []

def twoCalls (approvers : List String) (first second : Op) : Calls (Fin 2) Shared Call where
  shared := pendingRequest approvers
  call i := .waiting (if i = 0 then first else second)

theorem starts_twoCalls {approvers : List String} (happrovers : approvers.Nodup)
    (first second : Op) :
    Starts (twoCalls approvers first second) :=
  ⟨fun _ ↦ ⟨_, rfl⟩, rfl, List.nodup_singleton 1, happrovers.map fun _ _ h ↦ (Approval.mk.inj h).2⟩

/-- After `A` has approved, the guardians are replaced and a new one approves: the two approvals are
enough. A request that is cancelled between the last approval and the swap is executed. And where
the two approvals overlap, both calls swap. -/
theorem improper_swaps :
    (Starts (twoCalls ["A"] (.setGuardians 1 [(some "B", none), (some "C", none)] (some 2))
        (.approveRecovery 1 1 "C")) ∧
      ¬Always (Tracked.step stellarService) (fun t ↦ Proper t.calls.shared)
        (start (twoCalls ["A"] (.setGuardians 1 [(some "B", none), (some "C", none)] (some 2))
          (.approveRecovery 1 1 "C")))
        (List.replicate 4 (0, calm) ++ List.replicate 9 (1, calm))) ∧
    (Starts (twoCalls ["A"] (.initiateRecovery 1 (some "GX")) (.approveRecovery 1 1 "B")) ∧
      ¬Always (Tracked.step stellarService) (fun t ↦ Proper t.calls.shared)
        (start (twoCalls ["A"] (.initiateRecovery 1 (some "GX")) (.approveRecovery 1 1 "B")))
        (List.replicate 5 (1, calm) ++ List.replicate 7 (0, calm) ++
          List.replicate 4 (1, calm))) ∧
    (Starts (twoCalls [] (.approveRecovery 1 1 "A") (.approveRecovery 1 1 "B")) ∧
      ¬Always (Tracked.step stellarService) (fun t ↦ Proper t.calls.shared)
        (start (twoCalls [] (.approveRecovery 1 1 "A") (.approveRecovery 1 1 "B")))
        (List.replicate 4 (0, calm) ++ List.replicate 4 (1, calm) ++
          List.replicate 5 (0, calm) ++ List.replicate 5 (1, calm))) := by
  refine ⟨⟨starts_twoCalls (by decide) _ _, fun h ↦ ?_⟩,
    ⟨starts_twoCalls (by decide) _ _, fun h ↦ ?_⟩, starts_twoCalls (by decide) _ _, fun h ↦ ?_⟩
  · exact absurd (List.all_eq_true.mpr h.last.proper) (by decide)
  · exact absurd (List.all_eq_true.mpr h.last.proper) (by decide)
  · exact absurd h.last.once (by decide)

instance (t : Tracked (Fin 2)) (i : Fin 2) (sh : Shared) (request : RecoveryRequest) :
    Decidable (Undisturbed t i sh request) :=
  decidable_of_iff (sh.find request.id = some request ∧
      (request.id ∈ sh.swaps.map (·.requestId) → request.id ∈ t.recorded) ∧
      (t.readAt i < request.deadline → sh.now < request.deadline) ∧
      (request.threshold ≤ (approverKeys sh request.id).length → request.threshold +
        (removed sh t.vetted request).length ≤ (approverKeys sh request.id).length))
    ⟨fun h ↦ ⟨h.1, h.2.1, h.2.2.1, h.2.2.2⟩, fun h ↦ ⟨h.row, h.recorded, h.deadline, h.spare⟩⟩

instance (t : Tracked (Fin 2)) (a : Fin 2 × Env) : Decidable (Guarded t a) := by
  unfold Guarded
  split <;> infer_instance

/-- Both guardians approve, one after the other. -/
theorem proper_iff_at :
    Always (Tracked.step stellarService) (fun t ↦ Proper t.calls.shared)
      (start (twoCalls [] (.approveRecovery 1 1 "A") (.approveRecovery 1 1 "B")))
      (List.replicate 5 (0, calm) ++ List.replicate 9 (1, calm)) :=
  (proper_iff stellarService (starts_twoCalls (by decide) _ _) _).mpr (by decide)

end Examples

end StellarDonations.SocialRecovery
