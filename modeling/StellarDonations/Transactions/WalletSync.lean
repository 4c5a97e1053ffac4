import StellarDonations.Transactions.IdempotencyIndex

/-!
# Syncing a wallet with the chain

`TransactionSyncService.syncWalletTransactions` reads the transactions of an account from Horizon,
page by page, records those that the store does not have, and stores the last paging token as the
wallet's cursor. `Wallet.getByAddress` and `Wallet.update` are asynchronous and are called without
`await`. What the service takes for the wallet is therefore a promise: it has neither a cursor nor
an id, so that a run without a given cursor starts at the newest transaction, and the update is
issued for the id `"undefined"`, which no wallet has.

Horizon is the list of the transactions of the chain in the order of their paging tokens. It grows
at any time, and answers a page request from what it has got then. A run is suspended while Horizon
answers and when `_fetchHorizonTransactions` returns; looking up and recording a transaction is one
piece of code without a suspension.
-/

namespace StellarDonations.WalletSync

open Concurrency JsString Transactions

/-! ## Horizon -/

/-- A record of Horizon, as far as the sync reads it. -/
structure HorizonTx where
  id : String
  pagingToken : ℕ
  /-- The accounts the transaction is about. -/
  accounts : List String
  memo : Option String := none
  createdAt : ℕ
  /-- The amounts of `operations`, which is a link without elements in most of the records. -/
  operations : List (Option DecimalText) := []
  id_ne : id ≠ ""

structure Ledger where
  txs : List HorizonTx
  increasing : txs.Pairwise (·.pagingToken < ·.pagingToken)

inductive Order where
  | asc
  | desc
  deriving DecidableEq

structure Request where
  account : String
  order : Order
  cursor : Option ℕ
  limit : ℕ

namespace Ledger

def append (l : Ledger) (tx : HorizonTx) : Ledger :=
  if h : ∀ t ∈ l.txs, t.pagingToken < tx.pagingToken then
    ⟨l.txs ++ [tx], List.pairwise_append.mpr ⟨l.increasing, List.pairwise_singleton _ _,
      fun t ht _ hnew ↦ List.mem_singleton.mp hnew ▸ h t ht⟩⟩
  else l

def forAccount (l : Ledger) (account : String) : List HorizonTx :=
  l.txs.filter fun tx ↦ account ∈ tx.accounts

/-- The page Horizon answers a request with. -/
def page (l : Ledger) (r : Request) : List HorizonTx :=
  let txs := l.forAccount r.account
  match r.order with
  | .asc => (txs.filter fun tx ↦ r.cursor.all (· < tx.pagingToken)).take r.limit
  | .desc => (txs.reverse.filter fun tx ↦ r.cursor.all (tx.pagingToken < ·)).take r.limit

end Ledger

/-- How Horizon answers a request: with the page, with status 404, or with another error. -/
inductive Outcome where
  | ok
  | notFound
  | error
  deriving DecidableEq

/-! ## Wallets -/

structure Uuid where
  text : String
  length_eq : text.length = 36

/-- A row of `wallets`, as far as it matters here. -/
structure WalletRow where
  id : Uuid
  address : String
  lastCursor : Option ℕ
  lastSyncedAt : Option ℕ
  updatedAt : Option ℕ := none
  deleted : Bool := false

/-- What `Wallet.getByAddress` returns at once: a promise of the row of an address. -/
structure RowPromise where
  address : String

namespace RowPromise

/-! A promise is an object, so `wallet` is truthy; the columns of the row are not among its
properties. -/

def lastCursor (_wallet : RowPromise) : Option ℕ := none

def lastSyncedCursor (_wallet : RowPromise) : Option ℕ := none

def id (_wallet : RowPromise) : Option Uuid := none

end RowPromise

def idText : Option Uuid → String
  | none => "undefined"
  | some id => id.text

/-- The second argument of `Wallet.update`. -/
structure Updates where
  /-- The outer option says whether the property is there. -/
  lastCursor : Option (Option ℕ) := none
  lastSyncedAt : ℕ

/-- A call of `Wallet.update` that nobody waits for, by the statement it is suspended on. -/
inductive Update where
  | reading (id : Option Uuid) (updates : Updates)
  | writing (id : Option Uuid) (merged : WalletRow)
  | ended

def merge (existing : WalletRow) (updates : Updates) (now : ℕ) : WalletRow :=
  { existing with
    lastCursor := updates.lastCursor.getD existing.lastCursor
    lastSyncedAt := some updates.lastSyncedAt
    updatedAt := some now }

/-- The condition `id = ? AND deletedAt IS NULL`. -/
def Selects (id : Option Uuid) (row : WalletRow) : Prop :=
  row.id.text = idText id ∧ row.deleted = false

instance decidableSelects (id : Option Uuid) : DecidablePred (Selects id) :=
  fun row ↦ inferInstanceAs (Decidable (row.id.text = idText id ∧ row.deleted = false))

def Update.resume (wallets : List WalletRow) (now : ℕ) (failure : Bool) :
    Update → List WalletRow × Update
  | .reading id updates =>
    match failure, wallets.find? (Selects id ·) with
    | false, some existing => (wallets, .writing id (merge existing updates now))
    | _, _ => (wallets, .ended)
  | .writing id merged =>
    if failure then (wallets, .ended)
    else
      (wallets.map fun row ↦ if Selects id row then
        { row with
          lastCursor := merged.lastCursor
          lastSyncedAt := merged.lastSyncedAt
          updatedAt := merged.updatedAt }
        else row, .ended)
  | .ended => (wallets, .ended)

/-! ## Fetching -/

/-- The options of a run. `cursor` is `undefined`, or given and possibly falsy. -/
structure SyncOptions where
  maxTransactions : ℕ := 500
  maxPages : Option ℕ := none
  cursor : Option (Option ℕ) := none

/-- The page limit of the environment: 100 unless `SYNC_MAX_PAGES` is a positive number, and at most
1000. -/
def resolvedMaxPages (envMaxPages : Option ℕ) : ℕ :=
  min (match envMaxPages with
    | some n => if 0 < n then n else 100
    | none => 100) 1000

/-- The variables of `_fetchHorizonTransactions` while a request is under way. -/
structure Fetch where
  publicKey : String
  maxTransactions : ℕ
  cursor : Option ℕ
  effectiveMaxPages : ℕ
  /-- The page requested. -/
  request : Request
  transactions : List HorizonTx := []
  pagesFetched : ℕ := 0

def fetchHorizonTransactions (envMaxPages : Option ℕ) (publicKey : String) (maxTransactions : ℕ)
    (cursor maxPages : Option ℕ) : Fetch where
  publicKey := publicKey
  maxTransactions := maxTransactions
  cursor := cursor
  effectiveMaxPages := maxPages.getD (resolvedMaxPages envMaxPages)
  request :=
    { account := publicKey
      order := if cursor.isSome then .asc else .desc
      cursor := cursor
      limit := min 200 maxTransactions }

/-- A fetch goes on with another request, or returns. -/
inductive Fetched where
  | next (f : Fetch)
  | returns (transactions : List HorizonTx)

namespace Fetch

/-- The end of `_fetchHorizonTransactions`. -/
def finish (f : Fetch) : Fetched :=
  .returns (if f.cursor.isSome then f.transactions else f.transactions.reverse)

/-- A turn of the loop, with the page received. -/
def receive (f : Fetch) (records : List HorizonTx) : Fetched :=
  match records.getLast? with
  | none => f.finish
  | some last =>
    if f.transactions.length < f.maxTransactions ∧ f.pagesFetched < f.effectiveMaxPages then
      let f : Fetch := { f with
        transactions := f.transactions ++ records.take (f.maxTransactions - f.transactions.length)
        pagesFetched := f.pagesFetched + 1 }
      if f.maxTransactions ≤ f.transactions.length then f.finish
      else if f.effectiveMaxPages ≤ f.pagesFetched then f.finish
      else .next { f with request := { f.request with cursor := some last.pagingToken } }
    else f.finish

end Fetch

/-! ## Recording -/

/-- The ids `uuidv4()` gives, which never repeats one. -/
structure UuidSource where
  draw : ℕ → String
  injective : Function.Injective draw

/-- `Transaction.getByStellarTxId`. Which record it finds matters to nobody here. -/
def getByStellarTxId (m : Memory) (stellarTxId : String) : Option Object :=
  m.store.keys.findSome? fun id ↦ (m.find id).filter (·.stellarTxId = some stellarTxId)

def extractAmount (tx : HorizonTx) : Amount :=
  .text ((tx.operations.head?.join.filter (·.text ≠ "")).getD (.ofNat 0))

/-- What a run gives to `Transaction.create`. -/
def transactionData (tx : HorizonTx) : NewTransaction :=
  { amount := extractAmount tx
    donor := none
    recipient := none
    memo := tx.memo.getD ""
    stellarTxId := some tx.id
    status := some "confirmed"
    timestamp := some tx.createdAt }

/-- The store, the number of ids drawn, and `syncedTxs`. -/
structure Recording where
  memory : Memory
  drawn : ℕ
  syncedTxs : List Object := []

/-- A turn of the loop of `syncWalletTransactions`. -/
def syncOne (uuid : UuidSource) (now : ℕ) (r : Recording) (tx : HorizonTx) :
    Except AppError Recording :=
  match getByStellarTxId r.memory tx.id with
  | some _ => .ok r
  | none => do
    let (memory, newTx) ← r.memory.create (transactionData tx) (uuid.draw r.drawn) now
    return { memory, drawn := r.drawn + 1,
             syncedTxs := r.syncedTxs ++ (memory.objects newTx).toList }

/-! ## The runs -/

/-- The variables of `syncWalletTransactions`. -/
structure Sync where
  publicKey : String
  wallet : RowPromise
  lastCursor : Option ℕ

/-- What `syncWalletTransactions` returns. -/
structure Result where
  transactions : List Object
  lastCursor : Option ℕ

inductive Call where
  | notStarted (publicKey : String) (options : SyncOptions)
  /-- Horizon has not answered. -/
  | requested (v : Sync) (f : Fetch)
  /-- Horizon has answered, with a page or with an error. -/
  | answered (v : Sync) (f : Fetch) (answer : Except Outcome (List HorizonTx))
  /-- `_fetchHorizonTransactions` has returned. -/
  | fetched (v : Sync) (horizonTxs : List HorizonTx)
  | rejected
  | returned (v : Sync) (result : Result)

/-- The system: the chain, the store, the wallets, and the calls. -/
structure State (ι : Type*) where
  ledger : Ledger
  memory : Memory
  /-- The number of ids drawn. -/
  drawn : ℕ := 0
  wallets : List WalletRow
  updates : List Update := []
  call : ι → Call

inductive Event (ι : Type*) where
  /-- The call goes on. -/
  | resume (i : ι) (now : ℕ)
  /-- Horizon answers the request of a call. -/
  | horizon (i : ι) (outcome : Outcome)
  /-- The chain grows. -/
  | ledger (tx : HorizonTx)
  /-- A statement of an update of a wallet is executed. -/
  | update (k now : ℕ) (failure : Bool)
  /-- The database executes a write of the store. -/
  | execute (n : ℕ) (failure : Bool)

/-- The beginning of `syncWalletTransactions`. -/
def begin (envMaxPages : Option ℕ) (publicKey : String) (options : SyncOptions) : Call :=
  let wallet : RowPromise := ⟨publicKey⟩
  let lastCursor := options.cursor.getD (wallet.lastCursor.or wallet.lastSyncedCursor)
  .requested ⟨publicKey, wallet, lastCursor⟩
    (fetchHorizonTransactions envMaxPages publicKey options.maxTransactions lastCursor
      options.maxPages)

/-- The answer of Horizon arrives in `_fetchHorizonTransactions`. -/
def receive (v : Sync) (f : Fetch) : Except Outcome (List HorizonTx) → Call
  | .ok records =>
    match f.receive records with
    | .next f => .requested v f
    | .returns transactions => .fetched v transactions
  | .error .notFound => .fetched v []
  | .error _ => .rejected

def lastToken (txs : List HorizonTx) : Option ℕ := txs.getLast?.map (·.pagingToken)

variable {ι : Type*} [DecidableEq ι]

namespace State

def setCall (s : State ι) (i : ι) (c : Call) : State ι :=
  { s with call := Function.update s.call i c }

@[simp] theorem setCall_call (s : State ι) (i : ι) (c : Call) :
    (s.setCall i c).call = Function.update s.call i c := rfl

/-- The rest of `syncWalletTransactions`. -/
def record (uuid : UuidSource) (s : State ι) (i : ι) (now : ℕ) (v : Sync)
    (horizonTxs : List HorizonTx) : State ι :=
  match horizonTxs.foldlM (syncOne uuid now) ⟨s.memory, s.drawn, []⟩ with
  | .error _ => s.setCall i .rejected
  | .ok r =>
    let updates : Updates :=
      if 0 < horizonTxs.length then
        { lastCursor := some (lastToken horizonTxs)
          lastSyncedAt := now }
      else { lastSyncedAt := now }
    { s with
      memory := r.memory
      drawn := r.drawn
      updates := s.updates ++ [.reading v.wallet.id updates]
      call := Function.update s.call i (.returned v ⟨r.syncedTxs, lastToken horizonTxs⟩) }

def resume (uuid : UuidSource) (envMaxPages : Option ℕ) (s : State ι) (i : ι) (now : ℕ) :
    State ι :=
  match s.call i with
  | .notStarted publicKey options => s.setCall i (begin envMaxPages publicKey options)
  | .answered v f answer => s.setCall i (receive v f answer)
  | .fetched v horizonTxs => s.record uuid i now v horizonTxs
  | .requested .. | .rejected | .returned .. => s

/-- Horizon answers the request of a call. -/
def answer (s : State ι) (i : ι) (outcome : Outcome) : State ι :=
  match s.call i with
  | .requested v f => s.setCall i (.answered v f
      (if outcome = .ok then .ok (s.ledger.page f.request) else .error outcome))
  | _ => s

def resumeUpdate (s : State ι) (k now : ℕ) (failure : Bool) : State ι :=
  match s.updates[k]? with
  | none => s
  | some u =>
    { s with
      wallets := (u.resume s.wallets now failure).1
      updates := s.updates.set k (u.resume s.wallets now failure).2 }

end State

def step (uuid : UuidSource) (envMaxPages : Option ℕ) (s : State ι) : Event ι → State ι
  | .resume i now => s.resume uuid envMaxPages i now
  | .horizon i outcome => s.answer i outcome
  | .ledger tx => { s with ledger := s.ledger.append tx }
  | .update k now failure => s.resumeUpdate k now failure
  | .execute n failure => { s with memory := s.memory.execute n failure }

/-! ## What must hold -/

/-- The store has a record of the Stellar transaction under the id. -/
def StoresUnder (m : Memory) (id stellarTxId : String) : Prop :=
  ∃ obj, m.find id = some obj ∧ obj.stellarTxId = some stellarTxId

def Recorded (m : Memory) (tx : HorizonTx) : Prop := ∃ id, StoresUnder m id tx.id

def Call.synced : Call → List Object
  | .returned _ result => result.transactions
  | _ => []

def Call.recorded (c : Call) : List (Option String) := c.synced.map (·.stellarTxId)

/-- No transaction is recorded twice by the calls: a record that was not in the store before them is
the only one of its transaction, and what one call has recorded, neither it nor another call has
recorded again. -/
structure RecordedOnce (s₀ s : State ι) : Prop where
  store : ∀ {t id id'}, StoresUnder s.memory id t → StoresUnder s.memory id' t →
    s₀.memory.find id = none → id = id'
  call : ∀ i, (s.call i).recorded.Nodup
  calls : ∀ i j, i ≠ j → (s.call i).recorded.Disjoint (s.call j).recorded

/-- The transactions of a wallet's account after the cursor it had at the start, up to the cursor it
has now, are recorded. -/
def CursorsPassNothing (s₀ s : State ι) : Prop :=
  ∀ w ∈ s.wallets, ∃ w₀ ∈ s₀.wallets, w₀.id = w.id ∧ w₀.address = w.address ∧
    ∀ tx ∈ s.ledger.forAccount w.address, (∀ c ∈ w₀.lastCursor, c < tx.pagingToken) →
      (∃ k ∈ w.lastCursor, tx.pagingToken ≤ k) → Recorded s.memory tx

/-- The start of a run: the memory is a store of objects, and no call has begun. -/
structure Initial (uuid : UuidSource) (s : State ι) : Prop where
  wellFormed : s.memory.WellFormed
  unused : ∀ n, s.drawn ≤ n → s.memory.find (uuid.draw n) = none
  updates : s.updates = []
  call : ∀ i, ∃ publicKey options, s.call i = .notStarted publicKey options

/-! ## The store -/

section Store

variable {m : Memory} {uuid : UuidSource} {now : ℕ} {tx : HorizonTx} {obj : Object}

theorem mem_keys_of_find {id : String} (h : m.find id = some obj) : id ∈ m.store.keys := by
  obtain ⟨r, hr, -⟩ := Option.bind_eq_some_iff.mp h
  exact AList.mem_keys.mp (AList.lookup_isSome.mp (Option.isSome_of_eq_some hr))

theorem getByStellarTxId_eq_none_iff {stellarTxId : String} :
    getByStellarTxId m stellarTxId = none ↔ ∀ id, ¬StoresUnder m id stellarTxId := by
  rw [getByStellarTxId, List.findSome?_eq_none_iff]
  constructor
  · rintro h id ⟨obj, hfind, htx⟩
    have hnone := h id (mem_keys_of_find hfind)
    rw [hfind, Option.filter_some, if_pos (decide_eq_true htx)] at hnone
    cases hnone
  · intro h id _
    refine Option.filter_eq_none_iff.mpr fun obj hfind htx ↦ ?_
    exact h id ⟨obj, hfind, of_decide_eq_true htx⟩

def Kept (m : Memory) (obj : Object) : Prop := m.find obj.id = some obj

theorem Kept.storesUnder (h : Kept m obj) {t : String} (ht : obj.stellarTxId = some t) :
    StoresUnder m obj.id t :=
  ⟨obj, h, ht⟩

/-! ### Recording a transaction -/

def newRecord (uuid : UuidSource) (now : ℕ) (drawn : ℕ) (tx : HorizonTx) : Object :=
  (transactionData tx).object .confirmed (uuid.draw drawn) now

/-- What a turn of the loop does: a transaction that the store has no record of gets one. -/
def turn (uuid : UuidSource) (now : ℕ) (r : Recording) (tx : HorizonTx) : Recording :=
  match getByStellarTxId r.memory tx.id with
  | some _ => r
  | none =>
    { memory := r.memory.insertNew (newRecord uuid now r.drawn tx)
      drawn := r.drawn + 1
      syncedTxs := r.syncedTxs ++ [newRecord uuid now r.drawn tx] }

theorem id_newRecord (drawn : ℕ) : (newRecord uuid now drawn tx).id = uuid.draw drawn := rfl

theorem stellarTxId_newRecord (drawn : ℕ) :
    (newRecord uuid now drawn tx).stellarTxId = some tx.id :=
  orNull_eq_some.mpr ⟨rfl, tx.id_ne⟩

theorem objects_insertNew (m : Memory) (new : Object) :
    (m.insertNew new).objects m.next = some new := by
  have hsetIndex : ∀ (m : Memory) key, (m.setIndex key).objects = m.objects := by
    intro m key
    rw [Memory.setIndex]
    split <;> rfl
  rw [Memory.insertNew, Memory.persist, hsetIndex]
  exact Memory.objects_alloc m new

theorem confirmed_normalized :
    TransactionState.confirmed.name = normalizeState (some "confirmed") := by
  decide

/-- Creating the record never throws. -/
theorem syncOne_eq (uuid : UuidSource) (now : ℕ) (r : Recording) (tx : HorizonTx) :
    syncOne uuid now r tx = .ok (turn uuid now r tx) := by
  rw [syncOne, turn]
  cases getByStellarTxId r.memory tx.id with
  | some existing => rfl
  | none =>
    have hstatus : assertValidState (normalizeState (transactionData tx).status) "status" =
        .ok .confirmed := assertValidState_eq_ok.mpr confirmed_normalized
    have hcreate : r.memory.create (transactionData tx) (uuid.draw r.drawn) now =
        .ok (r.memory.insertNew (newRecord uuid now r.drawn tx), r.memory.next) := by
      rw [Memory.create, hstatus]
      rfl
    simp only [hcreate]
    show Except.ok _ = Except.ok _
    rw [objects_insertNew]
    rfl

theorem foldlM_syncOne (uuid : UuidSource) (now : ℕ) (txs : List HorizonTx) (r : Recording) :
    txs.foldlM (syncOne uuid now) r = .ok (txs.foldl (turn uuid now) r) := by
  induction txs generalizing r with
  | nil => rfl
  | cons tx txs ih =>
    rw [List.foldlM_cons, syncOne_eq]
    exact ih (turn uuid now r tx)

/-- The store with the ids that are still to be drawn, seen from the store `m₀` at the start. -/
structure Unrepeated (uuid : UuidSource) (m₀ m : Memory) (drawn : ℕ) : Prop where
  wellFormed : m.WellFormed
  unused : ∀ n, drawn ≤ n → m.find (uuid.draw n) = none
  one : ∀ {t id id'}, StoresUnder m id t → StoresUnder m id' t → m₀.find id = none → id = id'

theorem Unrepeated.execute {m₀ : Memory} {drawn : ℕ} (h : Unrepeated uuid m₀ m drawn) (n : ℕ)
    (failure : Bool) : Unrepeated uuid m₀ (m.execute n failure) drawn where
  wellFormed := Memory.wellFormed_step m (.execute n failure) h.wellFormed
  unused k hk := by
    rw [Memory.find_execute]
    exact h.unused k hk
  one hid hid' := by
    simp only [StoresUnder, Memory.find_execute] at hid hid'
    exact h.one hid hid'

section Insert

variable {m₀ : Memory} {drawn : ℕ} (h : Unrepeated uuid m₀ m drawn)

include h

theorem find_insert (id : String) :
    (m.insertNew (newRecord uuid now drawn tx)).find id =
      if id = uuid.draw drawn then some (newRecord uuid now drawn tx) else m.find id :=
  Memory.find_insertNew h.wellFormed _ id

theorem Kept.insert (hobj : Kept m obj) : Kept (m.insertNew (newRecord uuid now drawn tx)) obj := by
  have hne : obj.id ≠ uuid.draw drawn := by
    intro hid
    rw [Kept, hid, h.unused drawn le_rfl] at hobj
    cases hobj
  rw [Kept, find_insert h, if_neg hne]
  exact hobj

theorem kept_newRecord :
    Kept (m.insertNew (newRecord uuid now drawn tx)) (newRecord uuid now drawn tx) := by
  rw [Kept, find_insert h, id_newRecord, if_pos rfl]

theorem Unrepeated.insert (hnone : getByStellarTxId m tx.id = none) :
    Unrepeated uuid m₀ (m.insertNew (newRecord uuid now drawn tx)) (drawn + 1) := by
  have hnot := getByStellarTxId_eq_none_iff.mp hnone
  -- a transaction is stored where it was before, or is the new one under the new id
  have hstores : ∀ {t id}, StoresUnder (m.insertNew (newRecord uuid now drawn tx)) id t →
      id = uuid.draw drawn ∧ t = tx.id ∨ StoresUnder m id t := by
    rintro t id ⟨obj, hfind, ht⟩
    rw [find_insert h] at hfind
    split_ifs at hfind with hid
    · cases hfind
      rw [stellarTxId_newRecord] at ht
      exact .inl ⟨hid, (Option.some.inj ht).symm⟩
    · exact .inr ⟨obj, hfind, ht⟩
  refine ⟨h.wellFormed.insertNew _, fun n hn ↦ ?_, fun hid hid' hold ↦ ?_⟩
  · have hne : uuid.draw n ≠ uuid.draw drawn := fun heq ↦
      Nat.ne_of_gt hn (uuid.injective heq)
    rw [find_insert h, if_neg hne]
    exact h.unused n (Nat.le_of_succ_le hn)
  · rcases hstores hid with ⟨rfl, rfl⟩ | hid
    · rcases hstores hid' with ⟨rfl, -⟩ | hid'
      · rfl
      · exact absurd hid' (hnot _)
    · rcases hstores hid' with ⟨-, rfl⟩ | hid'
      · exact absurd hid (hnot _)
      · exact h.one hid hid' hold

end Insert

/-! ### The loop -/

/-- What the loop has done, started with the store `m`. -/
structure Looped (uuid : UuidSource) (m₀ m : Memory) (r : Recording) : Prop where
  unrepeated : Unrepeated uuid m₀ r.memory r.drawn
  kept : ∀ obj, Kept m obj → Kept r.memory obj
  synced : ∀ obj ∈ r.syncedTxs, Kept r.memory obj
  nodup : (r.syncedTxs.map (·.stellarTxId)).Nodup
  new : ∀ obj ∈ r.syncedTxs, ∀ old, Kept m old → old.stellarTxId ≠ obj.stellarTxId

section Loop

variable {m₀ : Memory} {r : Recording}

theorem looped_start {drawn : ℕ} (h : Unrepeated uuid m₀ m drawn) :
    Looped uuid m₀ m ⟨m, drawn, []⟩ where
  unrepeated := h
  kept _ hobj := hobj
  synced _ hobj := absurd hobj List.not_mem_nil
  nodup := List.nodup_nil
  new _ hobj := absurd hobj List.not_mem_nil

theorem StoresUnder.turn (h : Unrepeated uuid m₀ r.memory r.drawn) {id t : String}
    (hid : StoresUnder r.memory id t) : StoresUnder (turn uuid now r tx).memory id t := by
  rw [WalletSync.turn]
  cases getByStellarTxId r.memory tx.id with
  | some existing => exact hid
  | none =>
    obtain ⟨obj, hfind, ht⟩ := hid
    have hused : id ≠ uuid.draw r.drawn := by
      rintro rfl
      rw [h.unused r.drawn le_rfl] at hfind
      cases hfind
    refine ⟨obj, ?_, ht⟩
    rw [find_insert h, if_neg hused]
    exact hfind

theorem recorded_turn (h : Unrepeated uuid m₀ r.memory r.drawn) (tx : HorizonTx) :
    Recorded (turn uuid now r tx).memory tx := by
  rw [turn]
  cases hget : getByStellarTxId r.memory tx.id with
  | some existing =>
    by_contra hnot
    rw [getByStellarTxId_eq_none_iff.mpr fun id hid ↦ hnot ⟨id, hid⟩] at hget
    cases hget
  | none => exact ⟨_, (kept_newRecord h).storesUnder (stellarTxId_newRecord r.drawn)⟩

/-- A turn records a transaction that no record has. -/
theorem Looped.turn (h : Looped uuid m₀ m r) (tx : HorizonTx) :
    Looped uuid m₀ m (turn uuid now r tx) := by
  rw [WalletSync.turn]
  cases hget : getByStellarTxId r.memory tx.id with
  | some existing => exact h
  | none =>
    have hnot := getByStellarTxId_eq_none_iff.mp hget
    have hid : (newRecord uuid now r.drawn tx).stellarTxId = some tx.id :=
      stellarTxId_newRecord r.drawn
    have hne : ∀ obj, Kept r.memory obj →
        obj.stellarTxId ≠ (newRecord uuid now r.drawn tx).stellarTxId := by
      intro obj hobj heq
      exact hnot _ (hobj.storesUnder (heq.trans hid))
    refine ⟨h.unrepeated.insert hget, fun obj hobj ↦ (h.kept obj hobj).insert h.unrepeated,
      fun obj hobj ↦ ?_, ?_, fun obj hobj old hold ↦ ?_⟩
    · rcases List.mem_append.mp hobj with hobj | hobj
      · exact (h.synced obj hobj).insert h.unrepeated
      · rw [List.mem_singleton.mp hobj]
        exact kept_newRecord h.unrepeated
    · rw [List.map_append, List.nodup_append]
      refine ⟨h.nodup, List.nodup_singleton _, ?_⟩
      rintro t ht _ hmem rfl
      obtain ⟨obj, hobj, rfl⟩ := List.mem_map.mp ht
      exact hne obj (h.synced obj hobj) (List.mem_singleton.mp hmem)
    · rcases List.mem_append.mp hobj with hobj | hobj
      · exact h.new obj hobj old hold
      · rw [List.mem_singleton.mp hobj]
        exact hne old (h.kept old hold)

theorem Looped.foldl (h : Looped uuid m₀ m r) (txs : List HorizonTx) :
    Looped uuid m₀ m (txs.foldl (WalletSync.turn uuid now) r) ∧
      (∀ id t, StoresUnder r.memory id t →
        StoresUnder (txs.foldl (WalletSync.turn uuid now) r).memory id t) ∧
      ∀ tx ∈ txs, Recorded (txs.foldl (WalletSync.turn uuid now) r).memory tx := by
  induction txs generalizing r with
  | nil => exact ⟨h, fun _ _ hid ↦ hid, fun _ htx ↦ absurd htx List.not_mem_nil⟩
  | cons tx txs ih =>
    obtain ⟨hloop, hstored, htxs⟩ := ih (h.turn tx)
    refine ⟨hloop, fun id t hid ↦ hstored id t (hid.turn h.unrepeated), fun tx' htx' ↦ ?_⟩
    rcases List.mem_cons.mp htx' with rfl | htx'
    · exact (recorded_turn h.unrepeated _).imp fun id hid ↦ hstored id _ hid
    · exact htxs tx' htx'

end Loop

end Store

/-! ## The wallets -/

def Update.Idle : Update → Prop
  | .reading id _ | .writing id _ => id = none
  | .ended => True

theorem not_selects_none (row : WalletRow) : ¬Selects none row := by
  rintro ⟨hid, -⟩
  have hlength := row.id.length_eq
  rw [hid, idText] at hlength
  exact absurd hlength (by decide)

theorem Update.Idle.resume {u : Update} (h : u.Idle) (wallets : List WalletRow) (now : ℕ)
    (failure : Bool) :
    (u.resume wallets now failure).1 = wallets ∧ (u.resume wallets now failure).2.Idle := by
  cases u with
  | reading id updates =>
    simp only [Update.resume]
    split
    · exact ⟨rfl, h⟩
    · exact ⟨rfl, trivial⟩
  | writing id merged =>
    obtain rfl : id = none := h
    rw [Update.resume]
    split_ifs
    · exact ⟨rfl, trivial⟩
    · refine ⟨?_, trivial⟩
      refine (List.map_congr_left fun row _ ↦ ?_).trans wallets.map_id
      exact if_neg (not_selects_none row)
  | ended => exact ⟨rfl, trivial⟩

/-! ## The invariant -/

structure Sound (uuid : UuidSource) (s₀ s : State ι) : Prop where
  unrepeated : Unrepeated uuid s₀.memory s.memory s.drawn
  kept : ∀ i, ∀ obj ∈ (s.call i).synced, Kept s.memory obj
  call : ∀ i, (s.call i).recorded.Nodup
  calls : ∀ i j, i ≠ j → (s.call i).recorded.Disjoint (s.call j).recorded
  wallets : s.wallets = s₀.wallets
  updates : ∀ u ∈ s.updates, u.Idle

section Invariant

variable {uuid : UuidSource} {env : Option ℕ} {s₀ s : State ι}

omit [DecidableEq ι] in
theorem Initial.sound (h : Initial uuid s₀) : Sound uuid s₀ s₀ where
  unrepeated := by
    refine ⟨h.wellFormed, h.unused, ?_⟩
    rintro t id id' ⟨obj, hfind, -⟩ - hnone
    rw [hfind] at hnone
    cases hnone
  kept i obj hobj := by
    obtain ⟨publicKey, options, hi⟩ := h.call i
    rw [hi] at hobj
    cases hobj
  call i := by
    obtain ⟨publicKey, options, hi⟩ := h.call i
    rw [hi]
    exact List.nodup_nil
  calls i j _ := by
    obtain ⟨publicKey, options, hi⟩ := h.call i
    rw [hi]
    exact List.disjoint_nil_left _
  wallets := rfl
  updates u hu := by
    rw [h.updates] at hu
    cases hu

theorem Sound.setCall (h : Sound uuid s₀ s) (i : ι) {c : Call} (hc : c.synced = []) :
    Sound uuid s₀ (s.setCall i c) := by
  have hcall : ∀ j, ((s.setCall i c).call j).synced = [] ∨
      (s.setCall i c).call j = s.call j := by
    intro j
    rw [State.setCall_call]
    rcases eq_or_ne j i with rfl | hj
    · rw [Function.update_self]
      exact .inl hc
    · rw [Function.update_of_ne hj]
      exact .inr rfl
  refine ⟨h.unrepeated, fun j obj hobj ↦ ?_, fun j ↦ ?_, fun j k hjk ↦ ?_, h.wallets, h.updates⟩
  · rcases hcall j with hj | hj
    · rw [hj] at hobj
      cases hobj
    · rw [hj] at hobj
      exact h.kept j obj hobj
  · rcases hcall j with hj | hj
    · rw [Call.recorded, hj]
      exact List.nodup_nil
    · rw [hj]
      exact h.call j
  · rcases hcall j with hj | hj
    · rw [Call.recorded, hj]
      exact List.disjoint_nil_left _
    rcases hcall k with hk | hk
    · rw [Call.recorded, Call.recorded, hk]
      exact List.disjoint_nil_right _
    · rw [hj, hk]
      exact h.calls j k hjk

theorem record_eq (uuid : UuidSource) (s : State ι) (i : ι) (now : ℕ) (v : Sync)
    (txs : List HorizonTx) :
    ∃ updates : Updates, s.record uuid i now v txs =
      { s with
        memory := (txs.foldl (turn uuid now) ⟨s.memory, s.drawn, []⟩).memory
        drawn := (txs.foldl (turn uuid now) ⟨s.memory, s.drawn, []⟩).drawn
        updates := s.updates ++ [.reading none updates]
        call := Function.update s.call i (.returned v
          ⟨(txs.foldl (turn uuid now) ⟨s.memory, s.drawn, []⟩).syncedTxs, lastToken txs⟩) } := by
  rw [State.record, foldlM_syncOne]
  exact ⟨_, rfl⟩

theorem Sound.record (h : Sound uuid s₀ s) (i : ι) (now : ℕ) (v : Sync) (txs : List HorizonTx) :
    Sound uuid s₀ (s.record uuid i now v txs) := by
  obtain ⟨updates, heq⟩ := record_eq uuid s i now v txs
  have hloop : Looped uuid s₀.memory s.memory
      (txs.foldl (turn uuid now) ⟨s.memory, s.drawn, []⟩) :=
    ((looped_start h.unrepeated).foldl txs).1
  rw [heq]
  -- what another call has recorded is kept, and the loop records nothing of it
  have hother : ∀ j, ((s.call j).recorded).Disjoint
      ((txs.foldl (turn uuid now) ⟨s.memory, s.drawn, []⟩).syncedTxs.map (·.stellarTxId)) := by
    intro j t ht ht'
    obtain ⟨old, hold, rfl⟩ := List.mem_map.mp ht
    obtain ⟨obj, hobj, heq⟩ := List.mem_map.mp ht'
    exact hloop.new obj hobj old (h.kept j old hold) heq.symm
  refine ⟨hloop.unrepeated, fun j obj hobj ↦ ?_, fun j ↦ ?_, fun j k hjk ↦ ?_, h.wallets,
    fun u hu ↦ ?_⟩
  · rcases eq_or_ne j i with rfl | hj
    · simp only [Function.update_self] at hobj
      exact hloop.synced obj hobj
    · simp only [Function.update_of_ne hj] at hobj
      exact hloop.kept obj (h.kept j obj hobj)
  · rcases eq_or_ne j i with rfl | hj
    · simp only [Function.update_self]
      exact hloop.nodup
    · simp only [Function.update_of_ne hj]
      exact h.call j
  · rcases eq_or_ne j i with rfl | hj
    · simp only [Function.update_self, Function.update_of_ne hjk.symm]
      exact fun t ht ht' ↦ hother k ht' ht
    rcases eq_or_ne k i with rfl | hk
    · simp only [Function.update_self, Function.update_of_ne hj]
      exact hother j
    · simp only [Function.update_of_ne hj, Function.update_of_ne hk]
      exact h.calls j k hjk
  · rcases List.mem_append.mp hu with hu | hu
    · exact h.updates u hu
    · rw [List.mem_singleton.mp hu]
      rfl

theorem synced_receive (v : Sync) (f : Fetch) (answer : Except Outcome (List HorizonTx)) :
    (receive v f answer).synced = [] := by
  cases answer with
  | ok records =>
    rw [receive]
    split <;> rfl
  | error outcome => cases outcome <;> rfl

theorem Sound.resume (h : Sound uuid s₀ s) (i : ι) (now : ℕ) :
    Sound uuid s₀ (s.resume uuid env i now) := by
  rw [State.resume]
  split
  · exact h.setCall i rfl
  · exact h.setCall i (synced_receive _ _ _)
  · exact h.record i now _ _
  · exact h
  · exact h
  · exact h

omit [DecidableEq ι] in
theorem Sound.resumeUpdate (h : Sound uuid s₀ s) (k now : ℕ) (failure : Bool) :
    Sound uuid s₀ (s.resumeUpdate k now failure) := by
  rw [State.resumeUpdate]
  cases hk : s.updates[k]? with
  | none => exact h
  | some u =>
    obtain ⟨hwallets, hidle⟩ :=
      (h.updates u (List.mem_of_getElem? hk)).resume s.wallets now failure
    refine ⟨h.unrepeated, h.kept, h.call, h.calls, hwallets.trans h.wallets, fun u' hu' ↦ ?_⟩
    rcases List.mem_or_eq_of_mem_set hu' with hu' | rfl
    · exact h.updates u' hu'
    · exact hidle

theorem sound_step (h : Sound uuid s₀ s) (e : Event ι) : Sound uuid s₀ (step uuid env s e) := by
  cases e with
  | resume i now => exact h.resume i now
  | horizon i outcome =>
    rw [step, State.answer]
    split
    · exact h.setCall i rfl
    · exact h
  | ledger tx => exact ⟨h.unrepeated, h.kept, h.call, h.calls, h.wallets, h.updates⟩
  | update k now failure => exact h.resumeUpdate k now failure
  | execute n failure =>
    refine ⟨h.unrepeated.execute n failure, fun i obj hobj ↦ ?_, h.call, h.calls, h.wallets,
      h.updates⟩
    rw [step, Kept, Memory.find_execute]
    exact h.kept i obj hobj

omit [DecidableEq ι] in
theorem Sound.recordedOnce (h : Sound uuid s₀ s) : RecordedOnce s₀ s :=
  ⟨h.unrepeated.one, h.call, h.calls⟩

omit [DecidableEq ι] in
/-- The stored cursors are those of the start. -/
theorem Sound.cursorsPassNothing (h : Sound uuid s₀ s) : CursorsPassNothing s₀ s := by
  intro w hw
  refine ⟨w, h.wallets ▸ hw, rfl, rfl, ?_⟩
  rintro tx - hafter ⟨k, hk, hle⟩
  exact absurd hle (Nat.not_le_of_lt (hafter k hk))

end Invariant

/-- **In every run no transaction is recorded twice by the calls, and no stored cursor passes a
transaction that is not recorded.** -/
theorem sync_records_once (uuid : UuidSource) (env : Option ℕ) (s₀ : State ι)
    (h : Initial uuid s₀) (es : List (Event ι)) :
    Always (step uuid env) (fun s ↦ RecordedOnce s₀ s ∧ CursorsPassNothing s₀ s) s₀ es := by
  have hsound : Always (step uuid env) (Sound uuid s₀) s₀ es :=
    always_of_step (P := Sound uuid s₀) (fun _ e hs ↦ sound_step hs e) h.sound es
  exact hsound.mono fun s hs ↦ ⟨hs.recordedOnce, hs.cursorsPassNothing⟩

def sampleUuid : UuidSource where
  draw n := String.ofList (List.replicate n 'u')
  injective m n h := by
    have hlists := String.ofList_injective h
    rw [← List.length_replicate (n := m), hlists, List.length_replicate]

/-- A payment between the accounts `GA` and `GB`. -/
def samplePayment : HorizonTx where
  id := "tx1"
  pagingToken := 7
  accounts := ["GA", "GB"]
  createdAt := 1000
  id_ne := by decide

/-- A wallet of the account `GA`, whose cursor is 3, and two calls that sync it. -/
def sampleState : State (Fin 2) where
  ledger := ⟨[samplePayment], List.pairwise_singleton _ _⟩
  memory := Memory.starting []
  wallets := [{
    id := ⟨"00000000-0000-4000-8000-000000000001", by decide⟩
    address := "GA"
    lastCursor := some 3
    lastSyncedAt := none }]
  call _ := .notStarted "GA" {}

/-- Both calls have fetched the payment, and know that there is nothing more, before the first of
them records it. -/
def sampleEvents : List (Event (Fin 2)) :=
  [.resume 0 0, .horizon 0 .ok, .resume 1 0, .horizon 1 .ok, .resume 0 1, .horizon 0 .ok,
    .resume 1 1, .horizon 1 .ok, .resume 0 2, .resume 1 2, .resume 0 3, .resume 1 3,
    .update 0 4 false]

theorem sampleState_initial : Initial sampleUuid sampleState where
  wellFormed := Memory.wellFormed_starting []
  unused _ _ := rfl
  updates := rfl
  call _ := ⟨"GA", {}, rfl⟩

theorem sync_records_once_at :
    Always (step sampleUuid none)
      (fun s ↦ RecordedOnce sampleState s ∧ CursorsPassNothing sampleState s) sampleState
      sampleEvents :=
  sync_records_once sampleUuid none sampleState sampleState_initial sampleEvents

end StellarDonations.WalletSync
