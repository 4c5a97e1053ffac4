import Mathlib.Algebra.Order.Ring.Rat
import Mathlib.Data.List.Infix
import StellarDonations.Control.Except
import StellarDonations.Stellar.Payment
import StellarDonations.Transactions.StateMachine

/-!
# The transaction store

`models/transaction.js`: the records of all donations, kept in memory and copied to the table
`donations_store`. The synchronous operations work on the memory only. Each of them also issues a
write to the table that nobody waits for; such a write is held in `pending` until it is executed,
in any order, by `flush`.

The memory has two maps: the records by id, and an index from idempotency keys to the record as it
was when it was created.
-/

namespace StellarDonations.Transactions

open JsString Stellar

/-! ## Records -/

structure Approval where
  signerKeyId : String
  approvedAt : ℕ
  deriving DecidableEq, Repr

/-- The surplus of a payment over donation and fee. -/
structure Overpayment where
  expectedTotal : ℚ
  receivedAmount : ℚ
  excessAmount : ℚ
  overpaymentPercentage : ℚ
  deriving DecidableEq

inductive PaymentMethod where
  | recordOnly
  | direct
  | path
  | soroban
  deriving DecidableEq, Repr

/-- What `createDonationRecord` notes about the payment behind a record. -/
structure PaymentDetails where
  sourceAsset : Asset
  sourceAmount : ℚ
  destinationAsset : Asset
  destinationAmount : ℚ
  paymentMethod : PaymentMethod
  contractAddress : Option String
  fallbackUsed : Bool
  path : List Asset
  conversionRate : Option ℚ
  validAfter : ℤ
  validBefore : ℤ
  deriving DecidableEq

/-- The fields `create` takes over from its argument. `DonationService` hands over amounts that are
numbers; not everybody does. -/
structure Fields (α : Type := ℚ) where
  amount : α
  donor : Option String
  recipient : Option String
  memo : String := ""
  memoType : String := "text"
  memoEnvelope : Option String := none
  encryptionMetadata : Option String := none
  notes : Option String := none
  tags : List String := []
  apiKeyId : Option ℕ := none
  idempotencyKey : Option String := none
  stellarTxId : Option String := none
  stellarLedger : Option ℕ := none
  confirmedAt : Option ℕ := none
  senderId : Option ℕ := none
  requiresApproval : Bool := false
  requiredApprovals : Option ℕ := none
  approvals : Option (List Approval) := none
  approvalExpiresAt : Option ℕ := none
  originalAmount : Option ℚ := none
  originalCurrency : Option String := none
  analyticsFee : Option ℚ := none
  analyticsFeePercentage : Option ℚ := none
  payment : Option PaymentDetails := none
  overpaymentDetails : Option Overpayment := none
  campaignId : Option ℕ := none
  pseudonymousId : Option String := none
  matchedDonationId : Option String := none
  deletedAt : Option ℕ := none
  deriving DecidableEq

/-- The argument of `create`. -/
structure Draft (α : Type := ℚ) extends Fields α where
  id : Option String := none
  /-- `status`, which is `undefined` when the caller reads a property that does not exist. -/
  status : Option String := none
  deriving DecidableEq

/-- A record of the store. Times are milliseconds since the epoch. -/
structure Record (α : Type := ℚ) extends Fields α where
  id : String
  timestamp : ℕ
  /-- The status as stored; only some writers keep it within the state machine. -/
  status : String
  statusUpdatedAt : ℕ
  deriving DecidableEq

/-! ## The table -/

/-- A row of `donations_store`; `data` is the serialized record. -/
structure Row (α : Type := ℚ) where
  id : String
  donor : Option String
  recipient : Option String
  status : String
  idempotencyKey : Option String
  stellarTxId : Option String
  timestamp : ℕ
  statusUpdatedAt : ℕ
  deletedAt : Option ℕ
  data : Record α
  deriving DecidableEq

/-- The `CHECK` on the address columns: 56 characters that start with `G`. -/
def isAddress (s : String) : Bool := s.length = 56 && s.startsWith "G"

/-- The row `_persist` writes for a record; the empty string is stored as `NULL`. -/
def Record.toRow {α : Type} (tx : Record α) : Row α where
  id := tx.id
  donor := orNull tx.donor
  recipient := orNull tx.recipient
  status := if tx.status = "" then "pending" else tx.status
  idempotencyKey := orNull tx.idempotencyKey
  stellarTxId := orNull tx.stellarTxId
  timestamp := tx.timestamp
  statusUpdatedAt := tx.statusUpdatedAt
  deletedAt := tx.deletedAt
  data := tx

/-- The `CHECK` constraints of the table. -/
def Row.wellFormed {α : Type} (r : Row α) : Bool :=
  r.donor.all isAddress && r.recipient.all isAddress

/-- Two rows collide in a `UNIQUE` column; `NULL`s never do. -/
def collides (a b : Option String) : Bool := a.isSome && a = b

/-- The error of `Database.run` for a statement that fails, but for a violated `UNIQUE`. -/
def runFailure : AppError := ⟨.databaseError, some .databaseError, "Database operation failed"⟩

/-- `/UNIQUE constraint failed: donations_store\.idempotency_key/i`. -/
def isIdempotencyConflict (message : String) : Bool :=
  "unique constraint failed: donations_store.idempotency_key".toList <:+:
    (toLowerCase message).toList

theorem not_isIdempotencyConflict {message : String} (h : '_' ∉ (toLowerCase message).toList) :
    isIdempotencyConflict message = false := by
  refine decide_eq_false fun hinside ↦ h (hinside.subset ?_)
  decide

/-- The text of SQLite is not in the error that `Database.run` makes of it. -/
theorem not_isIdempotencyConflict_uniqueViolation :
    isIdempotencyConflict AppError.uniqueViolation.message = false :=
  not_isIdempotencyConflict (by decide)

theorem not_isIdempotencyConflict_runFailure :
    isIdempotencyConflict runFailure.message = false :=
  not_isIdempotencyConflict (by decide)

/-! ## The store -/

/-- The model's module state: the two maps, the writes under way, and the table. -/
structure Store where
  /-- `_store`, in insertion order. -/
  records : List Record
  idempotencyIndex : List (String × Record)
  /-- Writes issued by `_persist` that the database has not executed yet. -/
  pending : List Record
  /-- `donations_store`. -/
  rows : List Row

namespace Store

/-- A store nothing has been written to. -/
def empty : Store := ⟨[], [], [], []⟩

/-- `_store.get(id)`. -/
def find (st : Store) (id : String) : Option Record := st.records.find? (·.id = id)

/-- `_store.set(id, tx)`: a record that is there keeps its place. -/
def set (st : Store) (tx : Record) : Store :=
  { st with
    records := if (st.find tx.id).isSome then st.records.map fun r ↦ if r.id = tx.id then tx else r
      else st.records ++ [tx] }

/-- `_persist(tx)`: issue the write and go on. -/
def persist (st : Store) (tx : Record) : Store := { st with pending := st.pending ++ [tx] }

/-- `_store.set(tx.id, tx); _persist(tx)`, as every update ends. -/
def save (st : Store) (tx : Record) : Store := (st.set tx).persist tx

/-- `_idempotencyIndex.get(key)`. -/
def indexed (st : Store) (key : String) : Option Record := st.idempotencyIndex.lookup key

/-- `Transaction.getById`: a soft-deleted record is not found. -/
def getById (st : Store) (id : String) : Option Record :=
  (st.find id).filter (·.deletedAt.isNone)

/-- `Transaction.getByStatus`, whose argument may be `undefined`. -/
def getByStatus (st : Store) (status : Option String) : List Record :=
  st.records.filter fun r ↦ some r.status = status

/-- `Transaction.getDailyTotalByDonor`, given the bounds of the day. -/
def getDailyTotalByDonor (st : Store) (donor : String) (startOfDay endOfDay : ℕ) : ℚ :=
  ((st.records.filter fun r ↦ r.donor = some donor && startOfDay ≤ r.timestamp &&
      r.timestamp ≤ endOfDay && r.status ≠ "failed" && r.status ≠ "cancelled").map (·.amount)).sum

/-- `SELECT data FROM donations_store WHERE idempotency_key = ?`. -/
def selectByIdempotencyKey (st : Store) (key : String) : Option Record :=
  (st.rows.find? (·.idempotencyKey = some key)).map (·.data)

/-! ### Creating a record -/

/-- The record `create` builds at time `now`, with a fresh `uuid` unless the caller gave an id. -/
def newRecord {α : Type} (data : Draft α) (status : TransactionState) (uuid : String) (now : ℕ) :
    Record α where
  toFields := { data.toFields with
    memoType := if data.memoType = "" then "text" else data.memoType
    notes := orNull data.notes
    stellarTxId := orNull data.stellarTxId }
  id := orElse data.id uuid
  timestamp := now
  status := status.name
  statusUpdatedAt := now

/-- The part of `create` after the checks: store, index and persist the record. -/
def insertNew (st : Store) (tx : Record) : Store :=
  let stored := st.set tx
  let indexed := if truthy tx.idempotencyKey then
    { stored with idempotencyIndex := (tx.idempotencyKey.getD "", tx) :: stored.idempotencyIndex }
    else stored
  indexed.persist tx

/-- `Transaction.create`: a record already indexed under the idempotency key is returned as
it is. -/
def create (st : Store) (data : Draft) (uuid : String) (now : ℕ) :
    Except AppError (Store × Record) := do
  let status ← assertValidState (normalizeState data.status) "status"
  match (orNull data.idempotencyKey).bind st.indexed with
  | some existing => return (st, existing)
  | none =>
    let tx := newRecord data status uuid now
    return (st.insertNew tx, tx)

/-! ### Updating a record -/

/-- What `updateStatus` may be told about the payment behind the new status. -/
structure StellarData where
  transactionId : Option String := none
  ledger : Option ℕ := none
  confirmedAt : Option ℕ := none
  /-- The outer option says whether the property is there at all. -/
  notes : Option (Option String) := none
  tags : Option (List String) := none

/-- The record `updateStatus` stores: status times never go back. -/
def advance {α : Type} (tx : Record α) (next : TransactionState) (stellarData : StellarData)
    (now : ℕ) : Record α :=
  { tx with
    status := next.name
    statusUpdatedAt := max now (tx.statusUpdatedAt + 1)
    stellarTxId := (orNull stellarData.transactionId).or tx.stellarTxId
    stellarLedger := (stellarData.ledger.filter (· ≠ 0)).or tx.stellarLedger
    confirmedAt := stellarData.confirmedAt.or tx.confirmedAt
    notes := stellarData.notes.getD tx.notes
    tags := stellarData.tags.getD tx.tags }

def updateStatus (st : Store) (id status : String) (stellarData : StellarData) (now : ℕ) :
    Except AppError (Store × Record) := do
  match st.find id with
  | none => throw (.plain ("Transaction not found: " ++ id))
  | some tx =>
    let current ← assertValidState (normalizeState (some tx.status)) "current status"
    let next ← assertValidState (normalizeState (some status)) "target status"
    assertValidTransition current next
    let updated := advance tx next stellarData now
    return (st.save updated, updated)

def updateApprovals (st : Store) (id : String) (approvals : List Approval) :
    Except AppError (Store × Record) :=
  match st.find id with
  | none => .error (.plain ("Transaction not found: " ++ id))
  | some tx =>
    let updated := { tx with approvals := some approvals }
    .ok (st.save updated, updated)

def updateMatchedDonationId (st : Store) (id matchedDonationId : String) :
    Except AppError (Store × Record) :=
  match st.find id with
  | none => .error (.plain ("Transaction not found: " ++ id))
  | some tx =>
    let updated := { tx with matchedDonationId := some matchedDonationId }
    .ok (st.save updated, updated)

/-! ### Executing the writes -/

/-- `INSERT … ON CONFLICT(id) DO UPDATE`: the columns an update replaces. -/
def upsert (rows : List Row) (new : Row) : List Row :=
  if rows.any (·.id = new.id) then
    rows.map fun r ↦ if r.id = new.id then
      { r with
        status := new.status
        stellarTxId := new.stellarTxId
        statusUpdatedAt := new.statusUpdatedAt
        deletedAt := new.deletedAt
        data := new.data }
      else r
  else rows ++ [new]

/-- The handler of a failed write: on a collision of idempotency keys the record leaves the memory,
unless it has been replaced in the meantime. -/
def onFailure (st : Store) (tx : Record) (e : AppError) : Store :=
  if isIdempotencyConflict e.message ∧ st.find tx.id = some tx then
    { st with
      records := st.records.filter (·.id ≠ tx.id)
      idempotencyIndex := match tx.idempotencyKey with
        | some key => if st.indexed key = some tx then
            st.idempotencyIndex.filter (·.1 ≠ key) else st.idempotencyIndex
        | none => st.idempotencyIndex }
  else st

def write (st : Store) (tx : Record) : Store :=
  let new := tx.toRow
  let others := st.rows.filter (·.id ≠ new.id)
  if !new.wellFormed then st.onFailure tx runFailure
  else if others.length = st.rows.length &&
      others.any (fun r ↦ collides new.idempotencyKey r.idempotencyKey) then
    st.onFailure tx .uniqueViolation
  else if others.any (fun r ↦ collides new.stellarTxId r.stellarTxId) then
    st.onFailure tx .uniqueViolation
  else { st with rows := upsert st.rows new }

/-- The database executes the `n`-th write under way. -/
def flush (st : Store) (n : ℕ) : Store :=
  match st.pending[n]? with
  | none => st
  | some tx => write { st with pending := st.pending.eraseIdx n } tx

/-! ### What the operations do -/

section Lemmas

variable {st st' : Store} {tx : Record}

theorem updateStatus_eq_ok {id status : String} {sd : StellarData} {now : ℕ}
    (h : st.updateStatus id status sd now = .ok (st', tx)) :
    ∃ (old : Record) (current next : TransactionState), st.find id = some old ∧
      current.name = normalizeState (some old.status) ∧ next.name = normalizeState (some status) ∧
      canTransition current next = true ∧ tx = advance old next sd now ∧ st' = st.save tx := by
  rw [updateStatus] at h
  cases hfind : st.find id with
  | none =>
    rw [hfind] at h
    cases h
  | some old =>
    rw [hfind] at h
    obtain ⟨current, hcur, h⟩ := Except.bind_eq_ok.mp h
    obtain ⟨next, hnext, h⟩ := Except.bind_eq_ok.mp h
    obtain ⟨htrans, h⟩ := Except.bind_const_eq_ok.mp h
    cases h
    exact ⟨old, current, next, rfl, assertValidState_eq_ok.mp hcur, assertValidState_eq_ok.mp hnext,
      (Except.guard_eq_ok.mp htrans).1, rfl, rfl⟩

/-- A status that names no state is refused, whatever the store holds. -/
theorem updateStatus_error {status : String}
    (hstatus : isValidState (normalizeState (some status)) = false)
    (st : Store) (id : String) (sd : StellarData) (now : ℕ) :
    ∃ e, st.updateStatus id status sd now = .error e := by
  cases h : st.updateStatus id status sd now with
  | error e => exact ⟨e, rfl⟩
  | ok p =>
    obtain ⟨st', tx⟩ := p
    obtain ⟨old, current, next, -, -, hnext, -⟩ := updateStatus_eq_ok h
    rw [← hnext, isValidState_name] at hstatus
    cases hstatus

theorem create_eq_ok {data : Draft} {uuid : String} {now : ℕ}
    (h : st.create data uuid now = .ok (st', tx)) :
    (st' = st ∧ (orNull data.idempotencyKey).bind st.indexed = some tx) ∨
      ∃ status : TransactionState, status.name = normalizeState data.status ∧
        (orNull data.idempotencyKey).bind st.indexed = none ∧
        tx = newRecord data status uuid now ∧ st' = st.insertNew tx := by
  obtain ⟨status, hstatus, h⟩ := Except.bind_eq_ok.mp h
  cases hindex : (orNull data.idempotencyKey).bind st.indexed with
  | some existing =>
    rw [hindex] at h
    cases h
    exact .inl ⟨rfl, rfl⟩
  | none =>
    rw [hindex] at h
    cases h
    exact .inr ⟨status, assertValidState_eq_ok.mp hstatus, rfl, rfl, rfl⟩

theorem find_set (st : Store) (tx : Record) : (st.set tx).find tx.id = some tx := by
  rw [set, find]
  split_ifs with h
  · rw [List.find?_map]
    obtain ⟨old, hold⟩ := Option.isSome_iff_exists.mp h
    have hid : old.id = tx.id := by simpa using List.find?_some hold
    have hcomp : ((fun r : Record ↦ decide (r.id = tx.id)) ∘ fun r ↦ if r.id = tx.id then tx else r)
        = fun r ↦ decide (r.id = tx.id) := by
      funext r
      by_cases hr : r.id = tx.id <;> simp [hr]
    rw [hcomp, show st.records.find? (fun r ↦ decide (r.id = tx.id)) = some old from hold,
      Option.map_some, if_pos hid]
  · have hnone : st.records.find? (fun r ↦ decide (r.id = tx.id)) = none :=
      Option.not_isSome_iff_eq_none.mp h
    rw [List.find?_append, hnone]
    simp

theorem find_set_of_ne (st : Store) (tx : Record) {id : String} (hid : id ≠ tx.id) :
    (st.set tx).find id = st.find id := by
  rw [set, find, find]
  split_ifs with h
  · rw [List.find?_map]
    have hcomp : ((fun r : Record ↦ decide (r.id = id)) ∘ fun r ↦ if r.id = tx.id then tx else r)
        = fun r ↦ decide (r.id = id) := by
      funext r
      by_cases hr : r.id = tx.id
      · simp [hr, hid.symm]
      · simp [hr]
    rw [hcomp]
    cases hfind : st.records.find? (fun r ↦ decide (r.id = id)) with
    | none => exact hfind.symm
    | some r =>
      have hr : r.id = id := by simpa using List.find?_some hfind
      rw [Option.map_some, if_neg (hr.trans_ne hid)]
      exact hfind.symm
  · rw [List.find?_append, List.find?_singleton, if_neg (by simpa using hid.symm)]
    exact Option.or_none

theorem find_insertNew (st : Store) (tx : Record) : (st.insertNew tx).find tx.id = some tx := by
  rw [insertNew]
  split_ifs <;> exact find_set st tx

/-! ### The idempotency index

A record reaches the table only through a write issued when it was created or updated, and an index
entry is never replaced. Hence every record with a key, wherever it is stored, is the record its key
is indexed with. -/

def Filed (st : Store) (key : Option String) (id : String) : Prop :=
  ∀ k, orNull key = some k → ∃ r, st.indexed k = some r ∧ r.id = id

/-- All writes and rows agree with the index. -/
structure Coherent (st : Store) : Prop where
  pending : ∀ tx ∈ st.pending, st.Filed tx.idempotencyKey tx.id
  rows : ∀ row ∈ st.rows, st.Filed row.idempotencyKey row.id ∧ row.data.id = row.id

theorem coherent_empty : Coherent empty where
  pending _ h := absurd h List.not_mem_nil
  rows _ h := absurd h List.not_mem_nil

theorem filed_of_indexed {key : Option String} {id : String}
    (hindex : ∀ k r, st.indexed k = some r → st'.indexed k = some r) (h : st.Filed key id) :
    st'.Filed key id := by
  intro k hk
  obtain ⟨r, hr, hid⟩ := h k hk
  exact ⟨r, hindex k r hr, hid⟩

theorem insertNew_pending (st : Store) (tx : Record) :
    (st.insertNew tx).pending = st.pending ++ [tx] := by
  rw [insertNew]
  split_ifs <;> rfl

theorem insertNew_rows (st : Store) (tx : Record) : (st.insertNew tx).rows = st.rows := by
  rw [insertNew]
  split_ifs <;> rfl

theorem truthy_iff {key : Option String} : truthy key = true ↔ ∃ k, orNull key = some k := by
  cases key with
  | none => simp [truthy]
  | some s => by_cases hs : s = "" <;> simp [truthy, orNull, Option.filter, hs]

/-- A new record is indexed under its key, and no other key changes its record. -/
theorem indexed_insertNew (st : Store) (tx : Record) (k : String) :
    (st.insertNew tx).indexed k = if orNull tx.idempotencyKey = some k then some tx
      else st.indexed k := by
  by_cases htruthy : truthy tx.idempotencyKey = true
  · obtain ⟨k', hk'⟩ := truthy_iff.mp htruthy
    have hkey : tx.idempotencyKey = some k' := (orNull_eq_some.mp hk').1
    have hindex : (st.insertNew tx).idempotencyIndex = (k', tx) :: st.idempotencyIndex := by
      rw [insertNew, if_pos htruthy, hkey]
      rfl
    rw [indexed, hindex, hk', List.lookup_cons]
    by_cases hk : k = k'
    · simp [hk]
    · rw [if_neg (fun h ↦ hk (Option.some.inj h).symm), beq_false_of_ne hk, indexed]
  · have hindex : (st.insertNew tx).idempotencyIndex = st.idempotencyIndex := by
      rw [insertNew, if_neg htruthy]
      rfl
    have hkey : orNull tx.idempotencyKey ≠ some k := fun h ↦ htruthy (truthy_iff.mpr ⟨k, h⟩)
    rw [indexed, hindex, if_neg hkey, indexed]

@[simp] theorem newRecord_idempotencyKey (data : Draft) (status : TransactionState) (uuid : String)
    (now : ℕ) : (newRecord data status uuid now).idempotencyKey = data.idempotencyKey := rfl

theorem indexed_create {data : Draft} {uuid : String} {now : ℕ}
    (h : st.create data uuid now = .ok (st', tx)) (k : String) (r : Record)
    (hk : st.indexed k = some r) : st'.indexed k = some r := by
  rcases create_eq_ok h with ⟨rfl, -⟩ | ⟨status, -, hnone, rfl, rfl⟩
  · exact hk
  · rw [indexed_insertNew, if_neg, hk]
    intro hkey
    rw [newRecord_idempotencyKey] at hkey
    rw [hkey, Option.bind_some, hk] at hnone
    cases hnone

/-- The record a creation returns is the one its key is indexed with. -/
theorem filed_create {data : Draft} {uuid : String} {now : ℕ}
    (h : st.create data uuid now = .ok (st', tx)) : st'.Filed data.idempotencyKey tx.id := by
  intro k hk
  rcases create_eq_ok h with ⟨rfl, hindex⟩ | ⟨status, -, -, rfl, rfl⟩
  · rw [hk, Option.bind_some] at hindex
    exact ⟨tx, hindex, rfl⟩
  · exact ⟨_, by rw [indexed_insertNew, newRecord_idempotencyKey, if_pos hk], rfl⟩

theorem Coherent.create {data : Draft} {uuid : String} {now : ℕ} (hst : Coherent st)
    (h : st.create data uuid now = .ok (st', tx)) : Coherent st' := by
  have hindex := indexed_create h
  have hfiled := filed_create h
  rcases create_eq_ok h with ⟨rfl, -⟩ | ⟨status, -, -, rfl, rfl⟩
  · exact hst
  · refine ⟨fun p hp ↦ ?_, fun row hrow ↦ ?_⟩
    · rw [insertNew_pending] at hp
      rcases List.mem_append.mp hp with hp | hp
      · exact filed_of_indexed hindex (hst.pending p hp)
      · rw [List.mem_singleton.mp hp]
        exact hfiled
    · rw [insertNew_rows] at hrow
      exact ⟨filed_of_indexed hindex (hst.rows row hrow).1, (hst.rows row hrow).2⟩

/-- A failed write leaves the memory as it is. -/
theorem onFailure_eq_self {e : AppError} (h : isIdempotencyConflict e.message = false) :
    st.onFailure tx e = st :=
  if_neg fun hdrop ↦ Bool.false_ne_true (h.symm.trans hdrop.1)

theorem write_eq (st : Store) (tx : Record) :
    st.write tx = st ∨ st.write tx = { st with rows := upsert st.rows tx.toRow } := by
  rw [write]
  split_ifs
  · exact .inl (onFailure_eq_self not_isIdempotencyConflict_runFailure)
  · exact .inl (onFailure_eq_self not_isIdempotencyConflict_uniqueViolation)
  · exact .inl (onFailure_eq_self not_isIdempotencyConflict_uniqueViolation)
  · exact .inr rfl

theorem Coherent.write (hst : Coherent st) (htx : st.Filed tx.idempotencyKey tx.id) :
    Coherent (st.write tx) ∧ ∀ k, (st.write tx).indexed k = st.indexed k := by
  rcases write_eq st tx with h | h
  · rw [h]
    exact ⟨hst, fun _ ↦ rfl⟩
  rw [h]
  refine ⟨⟨hst.pending, fun row hrow ↦ ?_⟩, fun _ ↦ rfl⟩
  have hnew : st.Filed tx.toRow.idempotencyKey tx.toRow.id := by
    intro k hk
    exact htx k (orNull_eq_some.mpr (by
      obtain ⟨hkey, hne⟩ := orNull_eq_some.mp hk
      exact ⟨(orNull_eq_some.mp hkey).1, hne⟩))
  rw [upsert] at hrow
  split_ifs at hrow with hany
  · obtain ⟨old, hold, rfl⟩ := List.mem_map.mp hrow
    obtain ⟨hfiled, hdata⟩ := hst.rows old hold
    split_ifs with hid
    · exact ⟨hfiled, hid.symm⟩
    · exact ⟨hfiled, hdata⟩
  · rcases List.mem_append.mp hrow with hrow | hrow
    · exact hst.rows row hrow
    · rw [List.mem_singleton.mp hrow]
      exact ⟨hnew, rfl⟩

theorem Coherent.flush (hst : Coherent st) (n : ℕ) :
    Coherent (st.flush n) ∧ ∀ k, (st.flush n).indexed k = st.indexed k := by
  rw [Store.flush]
  cases hn : st.pending[n]? with
  | none => exact ⟨hst, fun _ ↦ rfl⟩
  | some tx =>
    have hrest : Coherent { st with pending := st.pending.eraseIdx n } :=
      ⟨fun p hp ↦ hst.pending p (List.mem_of_mem_eraseIdx hp), hst.rows⟩
    exact hrest.write (hst.pending tx (List.mem_of_getElem? hn))

/-- The replay lookup finds the record the key is indexed with. -/
theorem Coherent.select (hst : Coherent st) {k : String} (hk : k ≠ "")
    (h : st.selectByIdempotencyKey k = some tx) : ∃ r, st.indexed k = some r ∧ r.id = tx.id := by
  obtain ⟨row, hfind, rfl⟩ := Option.map_eq_some_iff.mp h
  have hkey : row.idempotencyKey = some k := by simpa using List.find?_some hfind
  obtain ⟨hfiled, hdata⟩ := hst.rows row (List.mem_of_find?_eq_some hfind)
  rw [hdata]
  exact hfiled k (orNull_eq_some.mpr ⟨hkey, hk⟩)

end Lemmas

end Store

end StellarDonations.Transactions
