import Mathlib.Data.List.AList
import StellarDonations.Concurrency.Run
import StellarDonations.Text.JsNumber
import StellarDonations.Transactions.Store

/-!
# Objects of the transaction store

The records of the store are objects. `_store` and `_idempotencyIndex` hold references to them, and
so does whoever has been handed one: an update makes a new object and puts it into `_store`, while
several services change the object they were handed in place. What a reader sees therefore depends
on which object a reference leads to, and this module models references: an object is a place in
`objects`, and both maps lead from strings to places.

The table `donations_store` is written by statements that nobody waits for, from what the object
held when the statement was issued; changes in place write nothing, since `saveTransactions` is
empty. The load reads the table by a statement of its own, and fills both maps later, when the
result has arrived.
-/

namespace StellarDonations.Transactions

open Concurrency JsString

/-! ## Objects -/

/-- What `updateFeeBumpData` keeps. -/
structure FeeData where
  envelopeXdr : Option String := none
  feeBumpCount : ℕ := 0
  originalFee : Option ℕ := none
  currentFee : Option ℕ := none
  lastFeeBumpAt : Option ℕ := none
  deriving DecidableEq

structure NftData where
  assetCode : Option String := none
  issuer : Option String := none
  txHash : Option String := none
  mintedAt : Option ℕ := none
  mintError : Option String := none
  deriving DecidableEq

structure Reconciliation where
  needed : Bool := false
  reason : Option String := none
  flaggedAt : Option ℕ := none
  resolvedAt : Option ℕ := none
  deriving DecidableEq

structure DecimalText where
  text : String
  value : ℚ
  value_eq : JsNumber.ofString text = some value
  deriving DecidableEq

def DecimalText.ofNat (n : ℕ) : DecimalText := ⟨Nat.repr n, n, JsNumber.ofString_repr n⟩

/-- What is handed to `create` as an amount. -/
inductive Amount where
  | number (x : ℚ)
  | text (s : DecimalText)
  deriving DecidableEq

namespace Amount

instance (n : ℕ) : OfNat Amount n := ⟨number n⟩

def toNumber : Amount → ℚ
  | number x => x
  | text s => s.value

end Amount

/-- A record with the properties that services add to it later. -/
structure Object extends Record Amount where
  fees : FeeData := {}
  nft : NftData := {}
  reconciliation : Reconciliation := {}
  overpaymentFlagged : Bool := false
  overpaymentReturnStatus : Option String := none
  overpaymentReturnTxId : Option String := none
  memoCollision : Bool := false
  memoSuspicious : Bool := false
  memoCollisionReason : Option String := none
  deriving DecidableEq

/-- The argument of `create`, with the times and the fee data a caller may give. -/
structure NewTransaction extends Draft Amount where
  timestamp : Option ℕ := none
  statusUpdatedAt : Option ℕ := none
  fees : FeeData := {}
  deriving DecidableEq

/-- The object `create` builds. -/
def NewTransaction.object (data : NewTransaction) (status : TransactionState) (uuid : String)
    (now : ℕ) : Object where
  toRecord := { Store.newRecord data.toDraft status uuid now with
    timestamp := data.timestamp.getD now
    statusUpdatedAt := data.statusUpdatedAt.getD now }
  fees := { data.fees with envelopeXdr := orNull data.fees.envelopeXdr }

theorem NewTransaction.id_object (data : NewTransaction) (status : TransactionState) (uuid : String)
    (now : ℕ) : (data.object status uuid now).id = orElse data.id uuid := rfl

/-- A row of `donations_store`, with the whole object as its `data`. -/
structure ObjectRow where
  columns : Row Amount
  data : Object
  deriving DecidableEq

/-! ## The memory and the table -/

/-- How far a load has got: its `SELECT` is under way, or has returned these objects. -/
inductive Load where
  | idle
  | selecting
  | read (data : List Object)

/-- The module state of `models/transaction.js`, the objects, and the table. -/
structure Memory where
  objects : ℕ → Option Object
  /-- The next place for an object. -/
  next : ℕ
  store : AList fun _ : String ↦ ℕ
  /-- `_idempotencyIndex`. -/
  index : AList fun _ : String ↦ ℕ
  /-- The writes under way: the object and its serialization. -/
  writes : List (ℕ × Object)
  rows : List ObjectRow
  load : Load

namespace Memory

/-- The object `_store.get(id)` leads to. -/
def find (m : Memory) (id : String) : Option Object := (m.store.lookup id).bind m.objects

def getById (m : Memory) (id : String) : Option Object :=
  (m.find id).filter (·.deletedAt.isNone)

def alloc (m : Memory) (tx : Object) : Memory :=
  { m with objects := Function.update m.objects m.next (some tx), next := m.next + 1 }

/-- `_store.set(id, tx)` with the newest object. -/
def setStore (m : Memory) (id : String) : Memory :=
  { m with store := m.store.insert id (m.next - 1) }

/-- `_idempotencyIndex.set(key, tx)` with the newest object, when there is a key. -/
def setIndex (m : Memory) (key : Option String) : Memory :=
  match orNull key with
  | some k => { m with index := m.index.insert k (m.next - 1) }
  | none => m

/-- `_persist(tx)` with the newest object. -/
def persist (m : Memory) (tx : Object) : Memory :=
  { m with writes := m.writes ++ [(m.next - 1, tx)] }

/-- The end of every update: the new object is stored and persisted. -/
def save (m : Memory) (id : String) (tx : Object) : Memory := ((m.alloc tx).setStore id).persist tx

/-- The end of `create`. -/
def insertNew (m : Memory) (tx : Object) : Memory :=
  (((m.alloc tx).setStore tx.id).setIndex tx.idempotencyKey).persist tx

/-- A change in place of the object at `r`. -/
def modify (m : Memory) (r : ℕ) (f : Object → Object) : Memory :=
  { m with objects := Function.update m.objects r ((m.objects r).map f) }

end Memory

/-! ## The operations -/

/-- The argument of `updateFeeBumpData`; what is absent is `undefined`. -/
structure FeeBumpUpdate where
  feeBumpCount : Option ℕ := none
  currentFee : Option (Option ℕ) := none
  lastFeeBumpAt : Option (Option ℕ) := none
  envelopeXdr : Option (Option String) := none
  stellarTxId : Option (Option String) := none

/-- The argument of `updateNftData`; what is absent is not a property. -/
structure NftUpdate where
  assetCode : Option (Option String) := none
  issuer : Option (Option String) := none
  txHash : Option (Option String) := none
  mintedAt : Option (Option ℕ) := none
  mintError : Option (Option String) := none

/-- The changes in place that services make to an object they hold. -/
inductive Edit where
  /-- `verifyTransaction` finds that more was paid. -/
  | overpaid (details : Overpayment)
  /-- `approveOverpaymentReturn`, after its payment. -/
  | returned (transactionId : String)
  | returnRejected
  /-- The routes that add and remove tags. -/
  | setTags (tags : List String)
  /-- `createDonationRecord`, after the memo was checked. -/
  | memoChecked (collision suspicious : Bool) (reason : Option String)

def Edit.apply : Edit → Object → Object
  | overpaid details, tx =>
    { tx with
      overpaymentFlagged := true
      overpaymentDetails := some details
      overpaymentReturnStatus := some (orElse tx.overpaymentReturnStatus "pending") }
  | returned transactionId, tx =>
    { tx with
      overpaymentReturnStatus := some "completed"
      overpaymentReturnTxId := some transactionId }
  | returnRejected, tx => { tx with overpaymentReturnStatus := some "rejected" }
  | setTags tags, tx => { tx with tags := tags }
  | memoChecked collision suspicious reason, tx =>
    { tx with
      memoCollision := collision
      memoSuspicious := suspicious
      memoCollisionReason := reason }

/-- The operations that create and change records by id. -/
inductive Operation where
  | create (data : NewTransaction) (uuid : String)
  | updateStatus (id status : String) (stellarData : Store.StellarData)
  | updateFeeBumpData (id : String) (data : FeeBumpUpdate)
  | updateApprovals (id : String) (approvals : List Approval)
  | updateMatchedDonationId (id matchedDonationId : String)
  | updateNftData (id : String) (data : NftUpdate)
  | flagDiscrepancy (id reason : String)
  | resolveDiscrepancy (id newStatus : String)

namespace Memory

def notFound (id : String) : AppError := .plain ("Transaction not found: " ++ id)

/-- `Transaction.create`, with the object it returns. -/
def create (m : Memory) (data : NewTransaction) (uuid : String) (now : ℕ) :
    Except AppError (Memory × ℕ) := do
  let status ← assertValidState (normalizeState data.status) "status"
  match (orNull data.idempotencyKey).bind m.index.lookup with
  | some existing => return (m, existing)
  | none => return (m.insertNew (data.object status uuid now), m.next)

/-- An update: the object found is copied, changed, stored and persisted. -/
def update (m : Memory) (id : String) (f : Object → Except AppError Object) :
    Except AppError (Memory × ℕ) :=
  match m.find id with
  | none => .error (notFound id)
  | some tx => (f tx).map fun updated ↦ (m.save id updated, m.next)

/-- What `updateStatus` makes of an object. -/
def advance (status : String) (stellarData : Store.StellarData) (now : ℕ) (tx : Object) :
    Except AppError Object := do
  let current ← assertValidState (normalizeState (some tx.status)) "current status"
  let next ← assertValidState (normalizeState (some status)) "target status"
  assertValidTransition current next
  return { tx with toRecord := Store.advance tx.toRecord next stellarData now }

def updateStatus (m : Memory) (id status : String) (stellarData : Store.StellarData) (now : ℕ) :
    Except AppError (Memory × ℕ) :=
  m.update id (advance status stellarData now)

def updateFeeBumpData (m : Memory) (id : String) (data : FeeBumpUpdate) :
    Except AppError (Memory × ℕ) :=
  m.update id fun tx ↦ .ok { tx with
    stellarTxId := data.stellarTxId.getD tx.stellarTxId
    fees := { tx.fees with
      feeBumpCount := data.feeBumpCount.getD tx.fees.feeBumpCount
      currentFee := data.currentFee.getD tx.fees.currentFee
      lastFeeBumpAt := data.lastFeeBumpAt.getD tx.fees.lastFeeBumpAt
      envelopeXdr := data.envelopeXdr.getD tx.fees.envelopeXdr } }

def updateApprovals (m : Memory) (id : String) (approvals : List Approval) :
    Except AppError (Memory × ℕ) :=
  m.update id fun tx ↦ .ok { tx with approvals := some approvals }

def updateMatchedDonationId (m : Memory) (id matchedDonationId : String) :
    Except AppError (Memory × ℕ) :=
  m.update id fun tx ↦ .ok { tx with matchedDonationId := some matchedDonationId }

def updateNftData (m : Memory) (id : String) (data : NftUpdate) : Except AppError (Memory × ℕ) :=
  m.update id fun tx ↦ .ok { tx with
    nft := {
      assetCode := data.assetCode.getD tx.nft.assetCode
      issuer := data.issuer.getD tx.nft.issuer
      txHash := data.txHash.getD tx.nft.txHash
      mintedAt := data.mintedAt.getD tx.nft.mintedAt
      mintError := data.mintError.getD tx.nft.mintError } }

/-- A change in place of the object stored under an id. -/
def modifyStored (m : Memory) (id : String) (f : Object → Object) : Except AppError (Memory × ℕ) :=
  match m.store.lookup id with
  | none => .error (notFound id)
  | some r => .ok (m.modify r f, r)

/-- What `flagDiscrepancy` does to the object. -/
def flagged (reason : String) (now : ℕ) (tx : Object) : Object :=
  { tx with
    reconciliation := { tx.reconciliation with
      needed := true
      reason := some reason
      flaggedAt := some now } }

/-- What `resolveDiscrepancy` does to the object. -/
def resolved (newStatus : String) (now : ℕ) (tx : Object) : Object :=
  { tx with
    status := newStatus
    reconciliation := { tx.reconciliation with
      needed := false
      resolvedAt := some now } }

def flagDiscrepancy (m : Memory) (id reason : String) (now : ℕ) : Except AppError (Memory × ℕ) :=
  m.modifyStored id (flagged reason now)

def resolveDiscrepancy (m : Memory) (id newStatus : String) (now : ℕ) :
    Except AppError (Memory × ℕ) :=
  m.modifyStored id (resolved newStatus now)

def perform (m : Memory) (now : ℕ) : Operation → Except AppError (Memory × ℕ)
  | .create data uuid => m.create data uuid now
  | .updateStatus id status stellarData => m.updateStatus id status stellarData now
  | .updateFeeBumpData id data => m.updateFeeBumpData id data
  | .updateApprovals id approvals => m.updateApprovals id approvals
  | .updateMatchedDonationId id matchedDonationId => m.updateMatchedDonationId id matchedDonationId
  | .updateNftData id data => m.updateNftData id data
  | .flagDiscrepancy id reason => m.flagDiscrepancy id reason now
  | .resolveDiscrepancy id newStatus => m.resolveDiscrepancy id newStatus now

/-! ## The table -/

/-- The outcome of a write: the rows, or the error of `Database.run`. -/
inductive Outcome where
  | written (rows : List ObjectRow)
  | failed (e : AppError)

/-- `INSERT … ON CONFLICT(id) DO UPDATE`. -/
def upsert (rows : List ObjectRow) (tx : Object) : List ObjectRow :=
  let new := tx.toRow
  if rows.any (·.columns.id = new.id) then
    rows.map fun row ↦ if row.columns.id = new.id then
      { columns := { row.columns with
          status := new.status
          stellarTxId := new.stellarTxId
          statusUpdatedAt := new.statusUpdatedAt
          deletedAt := new.deletedAt }
        data := tx }
      else row
  else rows ++ [⟨new, tx⟩]

/-- What the constraints of the table say to a write. -/
def outcome (rows : List ObjectRow) (tx : Object) : Outcome :=
  let new := tx.toRow
  let others := rows.filter (·.columns.id ≠ new.id)
  if !new.wellFormed then .failed runFailure
  else if others.length = rows.length &&
      others.any (fun row ↦ collides new.idempotencyKey row.columns.idempotencyKey) then
    .failed .uniqueViolation
  else if others.any (fun row ↦ collides new.stellarTxId row.columns.stellarTxId) then
    .failed .uniqueViolation
  else .written (upsert rows tx)

/-- The handler of a failed write: on a collision of idempotency keys the object leaves both maps,
unless it has been replaced. -/
def onFailure (m : Memory) (r : ℕ) (tx : Object) (e : AppError) : Memory :=
  if isIdempotencyConflict e.message ∧ m.store.lookup tx.id = some r then
    { m with
      store := m.store.erase tx.id
      index := match orNull tx.idempotencyKey with
        | some key => if m.index.lookup key = some r then m.index.erase key else m.index
        | none => m.index }
  else m

/-- The database executes a write under way; it may fail for reasons of its own. -/
def execute (m : Memory) (n : ℕ) (failure : Bool) : Memory :=
  match m.writes[n]? with
  | none => m
  | some (r, tx) =>
    let m' := { m with writes := m.writes.eraseIdx n }
    match if failure then .failed runFailure else outcome m.rows tx with
    | .written rows => { m' with rows }
    | .failed e => m'.onFailure r tx e

/-! ## Loading -/

/-- One turn of the loop of `_ensureLoaded`. -/
def loadOne (m : Memory) (tx : Object) : Memory :=
  ((m.alloc tx).setStore tx.id).setIndex tx.idempotencyKey

/-- The loop of `_ensureLoaded`. -/
def loadAll (m : Memory) (data : List Object) : Memory := data.foldl loadOne m

/-- The `SELECT` of a load is executed. -/
def select (m : Memory) (failure : Bool) : Memory :=
  match m.load with
  | .selecting =>
    if failure then { m with load := .idle } else { m with load := .read (m.rows.map (·.data)) }
  | .idle | .read _ => m

def finishLoad (m : Memory) : Memory :=
  match m.load with
  | .read data => { m.loadAll data with load := .idle }
  | .idle | .selecting => m

/-- `_reloadFromDb`, up to its first wait: a load under way is joined. -/
def beginReload (m : Memory) : Memory :=
  { m with
    store := ∅
    index := ∅
    load := match m.load with
      | .idle => .selecting
      | load => load }

/-- `_reloadFromDb` when nothing else happens: the maps hold what the table holds. -/
def reloaded (m : Memory) : Memory := (m.beginReload.select false).finishLoad

end Memory

/-! ## Runs -/

inductive Action where
  /-- An operation is called; when it throws, nothing changes. -/
  | call (now : ℕ) (op : Operation)
  /-- The holder of an object changes it in place. -/
  | edit (r : ℕ) (e : Edit)
  | execute (n : ℕ) (failure : Bool)
  | beginReload
  | select (failure : Bool)
  | finishLoad

def Memory.step (m : Memory) : Action → Memory
  | .call now op => ((m.perform now op).map Prod.fst).toOption.getD m
  | .edit r e => m.modify r e.apply
  | .execute n failure => m.execute n failure
  | .beginReload => m.beginReload
  | .select failure => m.select failure
  | .finishLoad => m.finishLoad

/-- The start of the process: nothing in memory, and the load under way. -/
def Memory.starting (rows : List ObjectRow) : Memory :=
  ⟨fun _ ↦ none, 0, ∅, ∅, [], rows, .selecting⟩

/-! ## What is found where -/

namespace Memory

variable {m : Memory}

/-- Every reference leads to an object, which has the id or the key it is filed under. -/
structure WellFormed (m : Memory) : Prop where
  fresh : ∀ r, m.next ≤ r → m.objects r = none
  stored : ∀ id r, m.store.lookup id = some r → ∃ tx, m.objects r = some tx ∧ tx.id = id
  indexed : ∀ k r, m.index.lookup k = some r →
    ∃ tx, m.objects r = some tx ∧ orNull tx.idempotencyKey = some k

theorem WellFormed.lt_next (h : WellFormed m) {r : ℕ} {tx : Object} (hr : m.objects r = some tx) :
    r < m.next := by
  by_contra hle
  rw [h.fresh r (Nat.le_of_not_lt hle)] at hr
  cases hr

theorem WellFormed.id_of_find (h : WellFormed m) {id : String} {tx : Object}
    (hfind : m.find id = some tx) : tx.id = id := by
  obtain ⟨r, hr, hobj⟩ := Option.bind_eq_some_iff.mp hfind
  obtain ⟨tx', hobj', hid⟩ := h.stored id r hr
  rw [hobj] at hobj'
  cases hobj'
  exact hid

theorem WellFormed.find_of_lookup (h : WellFormed m) {id : String} {r : ℕ}
    (hr : m.store.lookup id = some r) : ∃ tx, m.find id = some tx ∧ m.objects r = some tx := by
  obtain ⟨tx, hobj, -⟩ := h.stored id r hr
  exact ⟨tx, by rw [find, hr]; exact hobj, hobj⟩

@[simp] theorem find_setIndex (m : Memory) (key : Option String) :
    (m.setIndex key).find = m.find := by
  rw [setIndex]
  split <;> rfl

@[simp] theorem find_persist (m : Memory) (tx : Object) : (m.persist tx).find = m.find := rfl

theorem find_setStore_alloc (h : WellFormed m) (tx : Object) (id id' : String) :
    ((m.alloc tx).setStore id).find id' = if id' = id then some tx else m.find id' := by
  rw [find, setStore]
  split_ifs with hid
  · subst hid
    rw [AList.lookup_insert]
    exact Function.update_self m.next (some tx) m.objects
  · rw [AList.lookup_insert_ne hid, find]
    refine Option.bind_congr fun r hr ↦ ?_
    obtain ⟨tx', hobj, -⟩ := h.stored id' r hr
    exact Function.update_of_ne (h.lt_next hobj).ne _ _

theorem find_save (h : WellFormed m) (id : String) (tx : Object) (id' : String) :
    (m.save id tx).find id' = if id' = id then some tx else m.find id' :=
  find_setStore_alloc h tx id id'

theorem find_insertNew (h : WellFormed m) (tx : Object) (id' : String) :
    (m.insertNew tx).find id' = if id' = tx.id then some tx else m.find id' := by
  rw [insertNew, find_persist, find_setIndex]
  exact find_setStore_alloc h tx tx.id id'

theorem find_loadOne (h : WellFormed m) (tx : Object) (id' : String) :
    (m.loadOne tx).find id' = if id' = tx.id then some tx else m.find id' := by
  rw [loadOne, find_setIndex]
  exact find_setStore_alloc h tx tx.id id'

theorem find_modify (m : Memory) (r : ℕ) (f : Object → Object) (id : String) :
    (m.modify r f).find id =
      if m.store.lookup id = some r then (m.find id).map f else m.find id := by
  rw [find, find, modify]
  cases hlookup : m.store.lookup id with
  | none => simp
  | some r' =>
    by_cases hr : r' = r
    · subst hr
      simp
    · simp [hr]

/-! ## Where the references lead -/

theorem lookup_setStore (m : Memory) (id id' : String) :
    (m.setStore id).store.lookup id' =
      if id' = id then some (m.next - 1) else m.store.lookup id' := by
  rw [setStore]
  split_ifs with h
  · subst h
    exact AList.lookup_insert _
  · exact AList.lookup_insert_ne h

theorem lookup_setIndex (m : Memory) (key : Option String) (k : String) :
    (m.setIndex key).index.lookup k =
      if orNull key = some k then some (m.next - 1) else m.index.lookup k := by
  rw [setIndex]
  cases hkey : orNull key with
  | none => rfl
  | some k' =>
    by_cases hk : k' = k
    · subst hk
      rw [if_pos rfl]
      exact AList.lookup_insert _
    · rw [if_neg (by simpa using hk)]
      exact AList.lookup_insert_ne (Ne.symm hk)

theorem setIndex_store (m : Memory) (key : Option String) : (m.setIndex key).store = m.store := by
  rw [setIndex]
  split <;> rfl

theorem lookup_loadOne_store (m : Memory) (tx : Object) (id : String) :
    (m.loadOne tx).store.lookup id = if id = tx.id then some m.next else m.store.lookup id := by
  rw [loadOne, setIndex_store]
  exact lookup_setStore (m.alloc tx) tx.id id

theorem lookup_loadOne_index (m : Memory) (tx : Object) (k : String) :
    (m.loadOne tx).index.lookup k =
      if orNull tx.idempotencyKey = some k then some m.next else m.index.lookup k :=
  lookup_setIndex ((m.alloc tx).setStore tx.id) tx.idempotencyKey k

theorem lookup_save_store (m : Memory) (id : String) (tx : Object) (id' : String) :
    (m.save id tx).store.lookup id' = if id' = id then some m.next else m.store.lookup id' :=
  lookup_setStore (m.alloc tx) id id'

/-! ## The invariant of the references -/

theorem alloc_objects (m : Memory) (tx : Object) :
    (m.alloc tx).objects = Function.update m.objects m.next (some tx) := rfl

theorem modify_objects (m : Memory) (r : ℕ) (f : Object → Object) :
    (m.modify r f).objects = Function.update m.objects r ((m.objects r).map f) := rfl

theorem objects_alloc (m : Memory) (tx : Object) :
    (m.alloc tx).objects ((m.alloc tx).next - 1) = some tx := by
  rw [alloc_objects]
  exact Function.update_self m.next (some tx) m.objects

theorem objects_alloc_of_some (h : WellFormed m) (tx : Object) {r : ℕ} {old : Object}
    (hr : m.objects r = some old) : (m.alloc tx).objects r = some old := by
  rw [alloc_objects, Function.update_of_ne (h.lt_next hr).ne]
  exact hr

theorem WellFormed.alloc (h : WellFormed m) (tx : Object) : WellFormed (m.alloc tx) := by
  refine ⟨fun r hr ↦ ?_, fun id r hr ↦ ?_, fun k r hr ↦ ?_⟩
  · have hne : r ≠ m.next := by
      rintro rfl
      exact absurd hr (Nat.not_succ_le_self _)
    rw [alloc_objects, Function.update_of_ne hne]
    exact h.fresh r (Nat.le_of_succ_le hr)
  · obtain ⟨old, hobj, hid⟩ := h.stored id r hr
    exact ⟨old, objects_alloc_of_some h tx hobj, hid⟩
  · obtain ⟨old, hobj, hkey⟩ := h.indexed k r hr
    exact ⟨old, objects_alloc_of_some h tx hobj, hkey⟩

theorem WellFormed.setStore (h : WellFormed m) {tx : Object}
    (hnewest : m.objects (m.next - 1) = some tx) : WellFormed (m.setStore tx.id) := by
  refine ⟨h.fresh, fun id r hr ↦ ?_, h.indexed⟩
  rw [Memory.setStore] at hr
  by_cases hid : id = tx.id
  · subst hid
    rw [AList.lookup_insert] at hr
    cases hr
    exact ⟨tx, hnewest, rfl⟩
  · rw [AList.lookup_insert_ne hid] at hr
    exact h.stored id r hr

theorem WellFormed.setIndex (h : WellFormed m) {tx : Object}
    (hnewest : m.objects (m.next - 1) = some tx) : WellFormed (m.setIndex tx.idempotencyKey) := by
  rw [Memory.setIndex]
  split
  · next k hk =>
    refine ⟨h.fresh, h.stored, fun k' r hr ↦ ?_⟩
    by_cases heq : k' = k
    · subst heq
      rw [AList.lookup_insert] at hr
      cases hr
      exact ⟨tx, hnewest, hk⟩
    · rw [AList.lookup_insert_ne heq] at hr
      exact h.indexed k' r hr
  · exact h

theorem WellFormed.save (h : WellFormed m) {id : String} {tx : Object} (hid : tx.id = id) :
    WellFormed (m.save id tx) := by
  subst hid
  have hstored := (h.alloc tx).setStore (objects_alloc m tx)
  exact ⟨hstored.fresh, hstored.stored, hstored.indexed⟩

theorem WellFormed.loadOne (h : WellFormed m) (tx : Object) : WellFormed (m.loadOne tx) :=
  ((h.alloc tx).setStore (objects_alloc m tx)).setIndex (objects_alloc m tx)

theorem WellFormed.insertNew (h : WellFormed m) (tx : Object) : WellFormed (m.insertNew tx) := by
  have hloaded := h.loadOne tx
  exact ⟨hloaded.fresh, hloaded.stored, hloaded.indexed⟩

theorem WellFormed.loadAll (h : WellFormed m) (data : List Object) :
    WellFormed (m.loadAll data) := by
  induction data generalizing m with
  | nil => exact h
  | cons tx data ih => exact ih (h.loadOne tx)

theorem WellFormed.modify (h : WellFormed m) (r : ℕ) {f : Object → Object}
    (hid : ∀ tx, (f tx).id = tx.id)
    (hkey : ∀ tx, (f tx).idempotencyKey = tx.idempotencyKey) : WellFormed (m.modify r f) := by
  have hobjects : ∀ r' tx, m.objects r' = some tx →
      ∃ tx', (m.modify r f).objects r' = some tx' ∧ tx'.id = tx.id ∧
        tx'.idempotencyKey = tx.idempotencyKey := by
    intro r' tx hobj
    by_cases hr : r' = r
    · subst hr
      refine ⟨f tx, ?_, hid tx, hkey tx⟩
      rw [modify_objects, Function.update_self, hobj]
      rfl
    · refine ⟨tx, ?_, rfl, rfl⟩
      rw [modify_objects, Function.update_of_ne hr]
      exact hobj
  refine ⟨fun r' hr' ↦ ?_, fun id r' hr' ↦ ?_, fun k r' hr' ↦ ?_⟩
  · have hnone := h.fresh r' hr'
    rw [modify_objects]
    by_cases hr : r' = r
    · subst hr
      rw [Function.update_self, hnone]
      rfl
    · rw [Function.update_of_ne hr]
      exact hnone
  · obtain ⟨tx, hobj, htx⟩ := h.stored id r' hr'
    obtain ⟨tx', hobj', hid', -⟩ := hobjects r' tx hobj
    exact ⟨tx', hobj', hid'.trans htx⟩
  · obtain ⟨tx, hobj, htx⟩ := h.indexed k r' hr'
    obtain ⟨tx', hobj', -, hkey'⟩ := hobjects r' tx hobj
    exact ⟨tx', hobj', by rw [hkey']; exact htx⟩

theorem lookup_erase_eq_some {β : Type*} {refs : AList fun _ : String ↦ β} {k k' : String} {r : β}
    (h : (refs.erase k).lookup k' = some r) : k' ≠ k ∧ refs.lookup k' = some r := by
  by_cases hk : k' = k
  · subst hk
    rw [AList.lookup_erase] at h
    cases h
  · rw [AList.lookup_erase_ne hk] at h
    exact ⟨hk, h⟩

/-! ### Executing a write -/

theorem outcome_eq (rows : List ObjectRow) (tx : Object) :
    outcome rows tx = .written (upsert rows tx) ∨
      ∃ e, outcome rows tx = .failed e ∧ isIdempotencyConflict e.message = false := by
  rw [outcome]
  split_ifs
  · exact .inr ⟨_, rfl, not_isIdempotencyConflict_runFailure⟩
  · exact .inr ⟨_, rfl, not_isIdempotencyConflict_uniqueViolation⟩
  · exact .inr ⟨_, rfl, not_isIdempotencyConflict_uniqueViolation⟩
  · exact .inl rfl

theorem onFailure_eq_self {r : ℕ} {tx : Object} {e : AppError}
    (h : isIdempotencyConflict e.message = false) : m.onFailure r tx e = m :=
  if_neg fun hdrop ↦ Bool.false_ne_true (h.symm.trans hdrop.1)

/-- **A write that is executed** is lost, or reaches the table; the maps stay as they are. -/
theorem execute_eq {n r : ℕ} {tx : Object} (failure : Bool)
    (hwrite : m.writes[n]? = some (r, tx)) :
    m.execute n failure = { m with writes := m.writes.eraseIdx n } ∨
      outcome m.rows tx = .written (upsert m.rows tx) ∧ m.execute n failure =
        { m with writes := m.writes.eraseIdx n, rows := upsert m.rows tx } := by
  rw [execute, hwrite]
  cases failure with
  | true => exact .inl (onFailure_eq_self not_isIdempotencyConflict_runFailure)
  | false =>
    rcases outcome_eq m.rows tx with hwritten | ⟨e, hfailed, hmessage⟩
    · refine .inr ⟨hwritten, ?_⟩
      simp only [Bool.false_eq_true, if_false, hwritten]
    · simp only [Bool.false_eq_true, if_false, hfailed]
      exact .inl (onFailure_eq_self hmessage)

theorem execute_of_none {n : ℕ} (failure : Bool) (hwrite : m.writes[n]? = none) :
    m.execute n failure = m := by
  rw [execute, hwrite]

theorem find_execute (m : Memory) (n : ℕ) (failure : Bool) :
    (m.execute n failure).find = m.find := by
  cases hwrite : m.writes[n]? with
  | none => rw [execute_of_none failure hwrite]
  | some w =>
    rcases execute_eq failure hwrite with heq | ⟨-, heq⟩
    · rw [heq]
      rfl
    · rw [heq]
      rfl

end Memory

/-! ## What an operation can do -/

def Operation.id : Operation → String
  | create data uuid => orElse data.id uuid
  | updateStatus id _ _ | updateFeeBumpData id _ | updateApprovals id _
  | updateMatchedDonationId id _ | updateNftData id _ | flagDiscrepancy id _
  | resolveDiscrepancy id _ => id

def Operation.inPlace : Operation → Bool
  | flagDiscrepancy _ _ | resolveDiscrepancy _ _ => true
  | _ => false

/-- The operation replaces a stored object by a new one. -/
def Operation.updates : Operation → Bool
  | updateStatus .. | updateFeeBumpData .. | updateApprovals .. | updateMatchedDonationId ..
  | updateNftData .. => true
  | create .. | flagDiscrepancy .. | resolveDiscrepancy .. => false

theorem Edit.id_apply (e : Edit) (tx : Object) : (e.apply tx).id = tx.id := by
  cases e <;> rfl

theorem Edit.key_apply (e : Edit) (tx : Object) :
    (e.apply tx).idempotencyKey = tx.idempotencyKey := by
  cases e <;> rfl

theorem Edit.deletedAt_apply (e : Edit) (tx : Object) :
    (e.apply tx).deletedAt = tx.deletedAt := by
  cases e <;> rfl

/-- The status stays, or moves along a transition and gets a later time. -/
def Advances (old new : Object) : Prop :=
  new.status = old.status ∨
    ∃ s t : TransactionState, s.name = normalizeState (some old.status) ∧ t.name = new.status ∧
      canTransition s t = true ∧ old.statusUpdatedAt < new.statusUpdatedAt

namespace Memory

variable {m : Memory}

/-- What an operation can do to the memory. -/
inductive Effect (m : Memory) (now : ℕ) (op : Operation) : Memory → Prop
  /-- It throws, or `create` returns the object of its key. -/
  | unchanged : Effect m now op m
  | created {data : NewTransaction} {uuid : String} (status : TransactionState)
      (hop : op = .create data uuid)
      (hkey : (orNull data.idempotencyKey).bind m.index.lookup = none) :
      Effect m now op (m.insertNew (data.object status uuid now))
  | saved {old new : Object} (hop : op.updates = true) (hfind : m.find op.id = some old)
      (hid : new.id = old.id) (hkey : new.idempotencyKey = old.idempotencyKey)
      (hstatus : Advances old new) : Effect m now op (m.save op.id new)
  | modified {r : ℕ} {f : Object → Object} (hop : op.inPlace = true)
      (hstore : m.store.lookup op.id = some r) (hid : ∀ tx, (f tx).id = tx.id)
      (hkey : ∀ tx, (f tx).idempotencyKey = tx.idempotencyKey)
      (hstatus : ∀ tx, (f tx).status = tx.status ∨
        ∃ newStatus, op = .resolveDiscrepancy op.id newStatus ∧ (f tx).status = newStatus)
      (hdeleted : ∀ tx, (f tx).deletedAt = tx.deletedAt) : Effect m now op (m.modify r f)

theorem update_eq_ok {id : String} {f : Object → Except AppError Object} {m' : Memory} {r : ℕ}
    (h : m.update id f = .ok (m', r)) :
    ∃ old new, m.find id = some old ∧ f old = .ok new ∧ m' = m.save id new := by
  rw [update] at h
  cases hfind : m.find id with
  | none =>
    rw [hfind] at h
    cases h
  | some old =>
    rw [hfind] at h
    cases hf : f old with
    | error e =>
      simp only [hf] at h
      cases h
    | ok new =>
      simp only [hf] at h
      cases h
      exact ⟨old, new, rfl, hf, rfl⟩

theorem modifyStored_eq_ok {id : String} {f : Object → Object} {m' : Memory} {r : ℕ}
    (h : m.modifyStored id f = .ok (m', r)) : m.store.lookup id = some r ∧ m' = m.modify r f := by
  rw [modifyStored] at h
  cases hstore : m.store.lookup id with
  | none =>
    rw [hstore] at h
    cases h
  | some r' =>
    rw [hstore] at h
    cases h
    exact ⟨rfl, rfl⟩

theorem advance_eq_ok {status : String} {stellarData : Store.StellarData} {now : ℕ}
    {old new : Object} (h : advance status stellarData now old = .ok new) :
    new.id = old.id ∧ new.idempotencyKey = old.idempotencyKey ∧ Advances old new := by
  obtain ⟨current, hcurrent, h⟩ := Except.bind_eq_ok.mp h
  obtain ⟨next, -, h⟩ := Except.bind_eq_ok.mp h
  obtain ⟨htransition, h⟩ := Except.bind_const_eq_ok.mp h
  cases h
  refine ⟨rfl, rfl, .inr ⟨current, next, assertValidState_eq_ok.mp hcurrent, rfl,
    (Except.guard_eq_ok.mp htransition).1, ?_⟩⟩
  exact lt_of_lt_of_le (Nat.lt_succ_self _) (le_max_right _ _)

theorem Effect.of_update {now : ℕ} (op : Operation) {f : Object → Except AppError Object}
    (hop : op.updates = true)
    (hf : ∀ old new, f old = .ok new →
      new.id = old.id ∧ new.idempotencyKey = old.idempotencyKey ∧ Advances old new)
    {m' : Memory} {r : ℕ} (h : m.update op.id f = .ok (m', r)) : Effect m now op m' := by
  obtain ⟨old, new, hfind, hnew, rfl⟩ := update_eq_ok h
  obtain ⟨hid, hkey, hstatus⟩ := hf old new hnew
  exact .saved hop hfind hid hkey hstatus

theorem effect_of_perform {now : ℕ} {op : Operation} {m' : Memory} {r : ℕ}
    (h : m.perform now op = .ok (m', r)) : Effect m now op m' := by
  cases op with
  | create data uuid =>
    obtain ⟨status, -, h⟩ := Except.bind_eq_ok.mp h
    cases hindex : (orNull data.idempotencyKey).bind m.index.lookup with
    | some existing =>
      rw [hindex] at h
      cases h
      exact .unchanged
    | none =>
      rw [hindex] at h
      cases h
      exact .created status rfl hindex
  | updateStatus id status stellarData =>
    exact Effect.of_update (.updateStatus id status stellarData) rfl
      (fun old new hnew ↦ advance_eq_ok hnew) h
  | updateFeeBumpData id data =>
    refine Effect.of_update (.updateFeeBumpData id data) rfl (fun old new hnew ↦ ?_) h
    cases hnew
    exact ⟨rfl, rfl, .inl rfl⟩
  | updateApprovals id approvals =>
    refine Effect.of_update (.updateApprovals id approvals) rfl (fun old new hnew ↦ ?_) h
    cases hnew
    exact ⟨rfl, rfl, .inl rfl⟩
  | updateMatchedDonationId id matchedDonationId =>
    refine Effect.of_update (.updateMatchedDonationId id matchedDonationId) rfl
      (fun old new hnew ↦ ?_) h
    cases hnew
    exact ⟨rfl, rfl, .inl rfl⟩
  | updateNftData id data =>
    refine Effect.of_update (.updateNftData id data) rfl (fun old new hnew ↦ ?_) h
    cases hnew
    exact ⟨rfl, rfl, .inl rfl⟩
  | flagDiscrepancy id reason =>
    obtain ⟨hstore, rfl⟩ := modifyStored_eq_ok h
    exact .modified rfl hstore (fun _ ↦ rfl) (fun _ ↦ rfl) (fun _ ↦ .inl rfl) fun _ ↦ rfl
  | resolveDiscrepancy id newStatus =>
    obtain ⟨hstore, rfl⟩ := modifyStored_eq_ok h
    exact .modified rfl hstore (fun _ ↦ rfl) (fun _ ↦ rfl)
      (fun _ ↦ .inr ⟨newStatus, rfl, rfl⟩) fun _ ↦ rfl

theorem effect_step (m : Memory) (now : ℕ) (op : Operation) :
    Effect m now op (m.step (.call now op)) := by
  rw [step]
  cases h : m.perform now op with
  | error e => exact .unchanged
  | ok p => exact effect_of_perform h

theorem wellFormed_step (m : Memory) (a : Action) (h : WellFormed m) : WellFormed (m.step a) := by
  cases a with
  | call now op =>
    have heffect := effect_step m now op
    generalize m.step (.call now op) = m' at heffect
    cases heffect with
    | unchanged => exact h
    | created status hop hkey => exact h.insertNew _
    | saved hop hfind hid hkey hstatus => exact h.save (hid.trans (h.id_of_find hfind))
    | modified hop hstore hid hkey hstatus => exact h.modify _ hid hkey
  | edit r e => exact h.modify r e.id_apply e.key_apply
  | execute n failure =>
    rw [step]
    cases hwrite : m.writes[n]? with
    | none => rwa [execute_of_none failure hwrite]
    | some w =>
      rcases execute_eq failure hwrite with heq | ⟨-, heq⟩
      · rw [heq]
        exact ⟨h.fresh, h.stored, h.indexed⟩
      · rw [heq]
        exact ⟨h.fresh, h.stored, h.indexed⟩
  | beginReload =>
    refine ⟨h.fresh, fun id r hr ↦ ?_, fun k r hr ↦ ?_⟩
    · cases hr
    · cases hr
  | select failure =>
    rw [step, select]
    split
    · split_ifs <;> exact ⟨h.fresh, h.stored, h.indexed⟩
    · exact h
    · exact h
  | finishLoad =>
    rw [step, finishLoad]
    split
    · next data _ =>
      have hloaded := h.loadAll data
      exact ⟨hloaded.fresh, hloaded.stored, hloaded.indexed⟩
    · exact h
    · exact h

theorem wellFormed_starting (rows : List ObjectRow) : WellFormed (starting rows) :=
  ⟨fun _ _ ↦ rfl, by rintro id r ⟨⟩, by rintro k r ⟨⟩⟩

end Memory

end StellarDonations.Transactions
