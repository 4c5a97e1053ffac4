import Mathlib.Data.Rat.Floor
import Mathlib.Tactic.Linarith
import StellarDonations.Concurrency.Run
import StellarDonations.Storage.Table
import StellarDonations.Text.JsNumber

/-!
# Orphaned transactions

`detectAndCompensateOrphans`: the transactions on the chain, from the service's own memory and from
the accounts of the known wallets, are compared with the `stellar_tx_id`s of the table, and each one
without a row is inserted.

The insert is an `INSERT OR IGNORE`, so a second transaction with the same id is left out, and so is
one whose sender or receiver is not a user. Its amount is the one that the service is told, in XLM,
where every other writer of the column writes stroops: the two are the same for nothing but `0`. A
record that does not tell its amount counts as `0`.
-/

namespace StellarDonations.Orphans

open Concurrency JsString Storage

/-! ## The database -/

/-- A row of `transactions`, as far as it is written here. -/
structure TxRow where
  senderId : ℕ
  receiverId : ℕ
  amount : ℚ
  memo : Option String
  timestamp : String
  stellarTxId : Option String
  isOrphan : Bool
  deriving DecidableEq

/-- The table `transactions`, whose column `stellar_tx_id` is unique. -/
structure Ledger where
  table : Table TxRow
  unique : table.UniqueIn (·.stellarTxId)

structure UserRow where
  id : ℕ
  publicKey : Option String
  deriving DecidableEq

namespace Ledger

def find (l : Ledger) (transactionId : String) : Option (ℕ × TxRow) :=
  l.table.find (·.stellarTxId) transactionId

/-- An `INSERT`, unless a row has the same `stellar_tx_id`. -/
def insertOrIgnore (l : Ledger) (row : TxRow) : Ledger :=
  if h : ∀ r ∈ l.table.rows, ∀ v, row.stellarTxId = some v → r.2.stellarTxId ≠ some v then
    ⟨l.table.insert row, l.unique.insert h⟩
  else l

end Ledger

/-! ## The chain -/

/-- A transaction on the chain, as it is compared with the table. -/
structure StellarTx where
  transactionId : String
  source : Option String
  destination : Option String
  /-- In XLM, as far as the service is told. -/
  amount : String
  /-- What the transaction pays, in XLM. -/
  paid : String
  memo : Option String
  timestamp : Option String
  deriving DecidableEq

/-- A transaction in the service's own memory, which may be named by its hash. -/
structure MemoryTx where
  transactionId : Option String
  hash : Option String
  source : Option String
  destination : Option String
  amount : String
  memo : Option String
  timestamp : Option String

structure HorizonOperation where
  destination : Option String
  amount : Option String

/-- A record of Horizon. One without operations has an empty list of them, and does not tell what
the transaction pays. -/
structure HorizonRecord where
  id : String
  sourceAccount : String
  operations : List HorizonOperation
  memo : Option String
  createdAt : String
  paid : String
  told : ∀ amount, operations.head?.bind (·.amount) = some amount → amount = paid

/-- What a run reads beside the database, and which of its statements fail. -/
structure Env where
  /-- The lists of `stellarService.transactions`, when the service has them. -/
  memory : Option (List (List MemoryTx))
  /-- The records of an account; there are none without a server, or when the request fails. -/
  horizon : String → List HorizonRecord
  now : String
  knownFails : Bool := false
  walletsFail : Bool := false
  /-- A statement for this orphan fails. -/
  orphanFails : ℕ → Bool := fun _ ↦ false

def Env.Succeeds (env : Env) : Prop :=
  env.knownFails = false ∧ env.walletsFail = false ∧ ∀ i, env.orphanFails i = false

/-- The functions of the standard library on which nothing here depends. -/
structure Runtime where
  /-- `parseFloat(s)`; there is none where it is `NaN`. -/
  parseFloat : String → Option ℚ
  parseFloat_zero : parseFloat "0" = some 0

/-- The transactions without those that have the id of an earlier one. -/
def distinct (seen : List String) : List StellarTx → List StellarTx
  | [] => []
  | tx :: txs =>
    if tx.transactionId ∈ seen then distinct seen txs
    else tx :: distinct (tx.transactionId :: seen) txs

/-- `{ ...tx, transactionId: tx.transactionId || tx.hash }`, when there is one. -/
def MemoryTx.toStellarTx (tx : MemoryTx) : Option StellarTx :=
  ((orNull tx.transactionId).or (orNull tx.hash)).map fun id ↦
    ⟨id, tx.source, tx.destination, tx.amount, tx.amount, tx.memo, tx.timestamp⟩

def getAllStellarTransactions (env : Env) : List StellarTx :=
  match env.memory with
  | some lists => distinct [] (lists.flatten.filterMap MemoryTx.toStellarTx)
  | none => []

/-- A record as `_fetchHorizonTransactions` returns it. -/
def HorizonRecord.toStellarTx (r : HorizonRecord) : StellarTx where
  transactionId := r.id
  source := some r.sourceAccount
  destination := some (orElse (r.operations.head?.bind (·.destination)) r.sourceAccount)
  amount := orElse (r.operations.head?.bind (·.amount)) "0"
  paid := r.paid
  memo := orNull r.memo
  timestamp := some r.createdAt

def horizonTransactions (env : Env) (users : List UserRow) : List StellarTx :=
  if env.walletsFail then []
  else
    let walletKeys := (users.filterMap (·.publicKey)).eraseDups.filter (· ≠ "")
    distinct [] (walletKeys.flatMap fun key ↦ (env.horizon key).map HorizonRecord.toStellarTx)

/-- `allKnown`: the transactions that a run sees. -/
def allKnown (env : Env) (users : List UserRow) : List StellarTx :=
  getAllStellarTransactions env ++ horizonTransactions env users

/-! ## Compensation -/

structure State where
  users : List UserRow
  ledger : Ledger
  orphanedTransactionCount : ℕ

structure Result where
  detected : ℕ
  compensated : ℕ
  orphans : List StellarTx

/-- `SELECT id FROM users WHERE publicKey = ?`. -/
def userId (users : List UserRow) (publicKey : Option String) : Option ℕ :=
  publicKey.bind fun key ↦ (users.find? (·.publicKey = some key)).map (·.id)

variable (rt : Runtime)

/-- The row that `compensateOrphan` inserts; one with a `NULL` in a column that has to have a value
is ignored. -/
def orphanRow (users : List UserRow) (now : String) (orphan : StellarTx) : Option TxRow := do
  let senderId ← userId users orphan.source
  let receiverId ← userId users orphan.destination
  let amount ← rt.parseFloat orphan.amount
  return { senderId, receiverId, amount
           memo := orNull orphan.memo
           timestamp := orElse orphan.timestamp now
           stellarTxId := some orphan.transactionId
           isOrphan := true }

/-- `compensateOrphan`, whose statements succeed. -/
def compensateOrphan (users : List UserRow) (now : String) (l : Ledger) (orphan : StellarTx) :
    Ledger :=
  match orphanRow rt users now orphan with
  | some row => l.insertOrIgnore row
  | none => l

/-- The orphans one after the other; one that has a statement fail is passed over. -/
def compensateAll (users : List UserRow) (env : Env) :
    ℕ → Ledger → List StellarTx → Ledger × ℕ
  | _, l, [] => (l, 0)
  | i, l, orphan :: orphans =>
    if env.orphanFails i then compensateAll users env (i + 1) l orphans
    else
      let (l', compensated) :=
        compensateAll users env (i + 1) (compensateOrphan rt users env.now l orphan) orphans
      (l', compensated + 1)

def detectAndCompensateOrphans (s : State) (env : Env) : State × Result :=
  if env.knownFails then (s, ⟨0, 0, []⟩)
  else
    let orphans := (allKnown env s.users).filter fun tx ↦
      (s.ledger.find tx.transactionId).isNone
    if orphans.length = 0 then (s, ⟨0, 0, []⟩)
    else
      let (ledger, compensated) := compensateAll rt s.users env 0 s.ledger orphans
      ({ s with
          ledger
          orphanedTransactionCount := s.orphanedTransactionCount + orphans.length },
        ⟨orphans.length, compensated, orphans⟩)

/-- What happens to the two tables: a run, a row of another writer, a new user. -/
inductive Action where
  | detectAndCompensateOrphans (env : Env)
  | write (row : TxRow)
  | register (user : UserRow)

def step (s : State) : Action → State
  | .detectAndCompensateOrphans env => (detectAndCompensateOrphans rt s env).1
  | .write row => { s with ledger := s.ledger.insertOrIgnore row }
  | .register user => { s with users := s.users ++ [user] }

/-! ## What a run is for -/

/-- An amount in stroops, as `sendCustodialDonation` writes it. -/
def stroops (amount : ℚ) : ℚ := ⌊amount * 10 ^ 7 + 1 / 2⌋

/-- The transaction has one row, with what it pays in stroops. -/
def Recorded (l : Ledger) (tx : StellarTx) : Prop :=
  ∃ r ∈ l.table.rows, r.2.stellarTxId = some tx.transactionId ∧
    (∀ r' ∈ l.table.rows, r'.2.stellarTxId = some tx.transactionId → r' = r) ∧
    (rt.parseFloat tx.paid).map stroops = some r.2.amount

/-- The run records every transaction that it sees, and a second one changes nothing. -/
def Compensated (s : State) (env : Env) : Prop :=
  (∀ tx ∈ allKnown env s.users, Recorded rt (detectAndCompensateOrphans rt s env).1.ledger tx) ∧
    (detectAndCompensateOrphans rt (detectAndCompensateOrphans rt s env).1 env).1 =
      (detectAndCompensateOrphans rt s env).1

/-- Whenever the statements of a run succeed, it does what it is for. -/
def Compensates (s : State) : Action → Prop
  | .detectAndCompensateOrphans env => env.Succeeds → Compensated rt s env
  | _ => True

/-- The first of the transactions with this id that can be inserted. -/
def firstInsertable (s : State) (env : Env) (transactionId : String) : Option StellarTx :=
  (allKnown env s.users).find? fun tx ↦
    tx.transactionId = transactionId && (orphanRow rt s.users env.now tx).isSome

/-- A transaction with a row has what it pays in stroops there; one without pays nothing, and can be
inserted, with the amount `0`. -/
def Covered (s : State) (env : Env) (tx : StellarTx) : Prop :=
  match s.ledger.find tx.transactionId with
  | some r => (rt.parseFloat tx.paid).map stroops = some r.2.amount
  | none => (rt.parseFloat tx.paid).map stroops = some 0 ∧
      (firstInsertable rt s env tx.transactionId).bind (fun tx ↦ rt.parseFloat tx.amount) = some 0

/-- Every transaction that a run sees, if its statements succeed, is covered. -/
def CoveredAll (s : State) : Action → Prop
  | .detectAndCompensateOrphans env =>
    env.Succeeds → ∀ tx ∈ allKnown env s.users, Covered rt s env tx
  | _ => True

/-! ## Amounts -/

/-- XLM and stroops are the same for nothing but `0`. -/
theorem stroops_eq_self_iff {a : ℚ} : stroops a = a ↔ a = 0 := by
  constructor
  · intro h
    have hfloor : ⌊a * 10 ^ 7 + 1 / 2⌋ = ⌊a * 10 ^ 7 + 1 / 2⌋ * 10 ^ 7 := by
      calc ⌊a * 10 ^ 7 + 1 / 2⌋
          = ⌊stroops a * 10 ^ 7 + 1 / 2⌋ := by rw [h]
        _ = ⌊((⌊a * 10 ^ 7 + 1 / 2⌋ * 10 ^ 7 : ℤ) : ℚ) + 1 / 2⌋ := by rw [stroops]; push_cast; rfl
        _ = ⌊a * 10 ^ 7 + 1 / 2⌋ * 10 ^ 7 := by
          rw [Int.floor_intCast_add]
          norm_num
    have hzero : ⌊a * 10 ^ 7 + 1 / 2⌋ = 0 := by omega
    rw [← h, stroops, hzero, Int.cast_zero]
  · rintro rfl
    norm_num [stroops]

variable {rt} {l : Ledger} {row : TxRow} {s : State} {env : Env} {tx : StellarTx} {id : String}
  {users : List UserRow}

/-! ## Rows -/

def Ledger.amountOf (l : Ledger) (transactionId : String) : Option ℚ :=
  (l.find transactionId).map (·.2.amount)

theorem recorded_iff :
    Recorded rt l tx ↔ ∃ a, l.amountOf tx.transactionId = some a ∧
      (rt.parseFloat tx.paid).map stroops = some a := by
  constructor
  · rintro ⟨r, hr, hid, -, hamount⟩
    have hfind : l.find tx.transactionId = some r := l.unique.find_eq_some_iff.mpr ⟨hr, hid⟩
    exact ⟨r.2.amount, by rw [Ledger.amountOf, hfind, Option.map_some], hamount⟩
  · rintro ⟨a, ha, hamount⟩
    obtain ⟨r, hfind, rfl⟩ := Option.map_eq_some_iff.mp ha
    obtain ⟨hr, hid⟩ := l.unique.find_eq_some_iff.mp hfind
    exact ⟨r, hr, hid, fun r' hr' hid' ↦ l.unique r' hr' r hr _ hid' hid, hamount⟩

theorem amountOf_insertOrIgnore (h : row.stellarTxId = some tx.transactionId) :
    (l.insertOrIgnore row).amountOf id =
      (l.amountOf id).or (if tx.transactionId = id then some row.amount else none) := by
  rw [Ledger.insertOrIgnore]
  split_ifs with hnew hid hid
  · subst hid
    rw [Ledger.amountOf, Ledger.amountOf, Ledger.find, Table.find_insert, if_pos h, Ledger.find,
      Table.find_eq_none_iff.mpr fun r hr ↦ hnew r hr _ h]
    rfl
  · rw [Ledger.amountOf, Ledger.find, Table.find_insert, if_neg (by rwa [h, Option.some_inj]),
      Option.or_none, Option.or_none]
    rfl
  · subst hid
    push Not at hnew
    obtain ⟨r, hr, v, hv, hrv⟩ := hnew
    rw [h] at hv
    cases hv
    rw [Ledger.amountOf, show l.find tx.transactionId = some r from
      l.unique.find_eq_some_iff.mpr ⟨hr, hrv⟩]
    rfl
  · exact (Option.or_none).symm

theorem orphanRow_stellarTxId {now : String} (h : orphanRow rt users now tx = some row) :
    row.stellarTxId = some tx.transactionId := by
  simp only [orphanRow, Option.bind_eq_bind, Option.bind_eq_some_iff] at h
  obtain ⟨_, -, _, -, _, -, h⟩ := h
  cases h
  rfl

theorem orphanRow_amount {now : String} (h : orphanRow rt users now tx = some row) :
    rt.parseFloat tx.amount = some row.amount := by
  simp only [orphanRow, Option.bind_eq_bind, Option.bind_eq_some_iff] at h
  obtain ⟨_, -, _, -, a, ha, h⟩ := h
  cases h
  exact ha

theorem amountOf_compensateOrphan {now : String} :
    (compensateOrphan rt users now l tx).amountOf id = (l.amountOf id).or
      (if tx.transactionId = id && (orphanRow rt users now tx).isSome then rt.parseFloat tx.amount
        else none) := by
  rw [compensateOrphan]
  cases hrow : orphanRow rt users now tx with
  | none => simp
  | some row =>
    rw [amountOf_insertOrIgnore (orphanRow_stellarTxId hrow), orphanRow_amount hrow]
    simp

/-- **All orphans.** An id that has no row gets the amount of the first transaction that can be
inserted. -/
theorem amountOf_compensateAll (hfails : ∀ i, env.orphanFails i = false) (orphans : List StellarTx)
    (i : ℕ) (l : Ledger) :
    (compensateAll rt users env i l orphans).1.amountOf id = (l.amountOf id).or
      ((orphans.find? fun tx ↦ tx.transactionId = id &&
        (orphanRow rt users env.now tx).isSome).bind fun tx ↦ rt.parseFloat tx.amount) := by
  induction orphans generalizing i l with
  | nil => exact (Option.or_none).symm
  | cons tx orphans ih =>
    rw [compensateAll, hfails, if_neg Bool.false_ne_true]
    dsimp only
    rw [ih, amountOf_compensateOrphan, Option.or_assoc]
    congr 1
    split_ifs with hfirst
    · rw [List.find?_cons, hfirst]
      obtain ⟨row, hrow⟩ := Option.isSome_iff_exists.mp (Bool.and_eq_true_iff.mp hfirst).2
      dsimp only
      rw [Option.bind_some, orphanRow_amount hrow, Option.some_or]
    · rw [List.find?_cons, eq_false_of_ne_true hfirst, Option.none_or]

/-! ## Runs -/

/-- **One run** whose statements succeed: an id that has no row gets the amount of the first
transaction that can be inserted. -/
theorem amountOf_detectAndCompensateOrphans (hok : env.Succeeds) :
    (detectAndCompensateOrphans rt s env).1.ledger.amountOf id = (s.ledger.amountOf id).or
      ((firstInsertable rt s env id).bind fun tx ↦ rt.parseFloat tx.amount) := by
  -- all transactions with the same id are orphans together
  have hfind : s.ledger.find id = none →
      ((allKnown env s.users).filter fun tx ↦ (s.ledger.find tx.transactionId).isNone).find?
          (fun tx ↦ tx.transactionId = id && (orphanRow rt s.users env.now tx).isSome) =
        firstInsertable rt s env id := by
    intro hnone
    rw [List.find?_filter, firstInsertable]
    congr 1
    funext tx
    by_cases hid : tx.transactionId = id
    · simp [hid, hnone]
    · simp [hid]
  rw [detectAndCompensateOrphans, hok.1, if_neg Bool.false_ne_true]
  dsimp only
  split_ifs with hempty
  · cases hrow : s.ledger.find id with
    | some r => rw [Ledger.amountOf, hrow]; rfl
    | none =>
      rw [← hfind hrow, List.length_eq_zero_iff.mp hempty, List.find?_nil, Option.bind_none,
        Option.or_none]
  · rw [amountOf_compensateAll hok.2.2]
    cases hrow : s.ledger.find id with
    | some r => rw [Ledger.amountOf, hrow]; rfl
    | none => rw [hfind hrow]

theorem mem_of_firstInsertable (h : firstInsertable rt s env id = some tx) :
    tx ∈ allKnown env s.users ∧ tx.transactionId = id := by
  have hid := List.find?_some h
  rw [Bool.and_eq_true, decide_eq_true_iff] at hid
  exact ⟨List.mem_of_find?_eq_some h, hid.1⟩

theorem mem_of_mem_distinct {seen : List String} {txs : List StellarTx}
    (h : tx ∈ distinct seen txs) : tx ∈ txs := by
  induction txs generalizing seen with
  | nil => exact h
  | cons tx' txs ih =>
    rw [distinct] at h
    split_ifs at h
    · exact List.mem_cons_of_mem tx' (ih h)
    · rcases List.mem_cons.mp h with rfl | h
      · exact List.mem_cons_self
      · exact List.mem_cons_of_mem tx' (ih h)

theorem HorizonRecord.amount_toStellarTx (r : HorizonRecord) :
    r.toStellarTx.amount = r.paid ∨ r.toStellarTx.amount = "0" := by
  rw [toStellarTx]
  dsimp only
  cases hamount : r.operations.head?.bind (·.amount) with
  | none => exact .inr rfl
  | some amount =>
    rw [r.told amount hamount, orElse]
    split_ifs
    · exact .inr rfl
    · exact .inl rfl

theorem amount_of_mem_allKnown (h : tx ∈ allKnown env users) :
    tx.amount = tx.paid ∨ tx.amount = "0" := by
  rcases List.mem_append.mp h with h | h
  · rw [getAllStellarTransactions] at h
    split at h
    · obtain ⟨m, -, hm⟩ := List.mem_filterMap.mp (mem_of_mem_distinct h)
      obtain ⟨id, -, rfl⟩ := Option.map_eq_some_iff.mp hm
      exact .inl rfl
    · cases h
  · rw [horizonTransactions] at h
    split_ifs at h
    · cases h
    · obtain ⟨key, -, hkey⟩ := List.mem_flatMap.mp (mem_of_mem_distinct h)
      obtain ⟨r, -, rfl⟩ := List.mem_map.mp hkey
      exact r.amount_toStellarTx

theorem users_detectAndCompensateOrphans :
    (detectAndCompensateOrphans rt s env).1.users = s.users := by
  rw [detectAndCompensateOrphans]
  split_ifs
  · rfl
  · dsimp only
    split_ifs <;> rfl

/-- A run that sees no transaction without a row changes nothing. -/
theorem detectAndCompensateOrphans_eq_self
    (h : ∀ tx ∈ allKnown env s.users, s.ledger.find tx.transactionId ≠ none) :
    (detectAndCompensateOrphans rt s env).1 = s := by
  have hempty : ((allKnown env s.users).filter fun tx ↦
      (s.ledger.find tx.transactionId).isNone) = [] := by
    refine List.filter_eq_nil_iff.mpr fun tx htx hnone ↦ ?_
    exact h tx htx (Option.isNone_iff_eq_none.mp hnone)
  rw [detectAndCompensateOrphans, hempty]
  split_ifs
  · rfl
  · rfl

/-- **One run** records a transaction with a row exactly when the row has its amount, and one
without exactly when the amount that is inserted is its amount. -/
theorem recorded_run_iff (hok : env.Succeeds) :
    Recorded rt (detectAndCompensateOrphans rt s env).1.ledger tx ↔
      match s.ledger.find tx.transactionId with
      | some r => (rt.parseFloat tx.paid).map stroops = some r.2.amount
      | none => ∃ tx₀, firstInsertable rt s env tx.transactionId = some tx₀ ∧ ∃ a,
          rt.parseFloat tx₀.amount = some a ∧ (rt.parseFloat tx.paid).map stroops = some a := by
  rw [recorded_iff, amountOf_detectAndCompensateOrphans hok, Ledger.amountOf]
  cases s.ledger.find tx.transactionId with
  | some r => simp [eq_comm]
  | none =>
    simp only [Option.map_none, Option.none_or, Option.bind_eq_some_iff]
    constructor
    · rintro ⟨a, ⟨tx₀, htx₀, ha⟩, hamount⟩
      exact ⟨tx₀, htx₀, a, ha, hamount⟩
    · rintro ⟨tx₀, htx₀, a, ha, hamount⟩
      exact ⟨a, ⟨tx₀, htx₀, ha⟩, hamount⟩

/-- **One run** whose statements succeed does what it is for exactly when every transaction that it
sees is covered. -/
theorem compensated_iff (hok : env.Succeeds) :
    Compensated rt s env ↔ ∀ tx ∈ allKnown env s.users, Covered rt s env tx := by
  constructor
  · rintro ⟨hrecorded, -⟩ tx htx
    have hrun := (recorded_run_iff hok).mp (hrecorded tx htx)
    rw [Covered]
    cases hrow : s.ledger.find tx.transactionId with
    | some r =>
      rw [hrow] at hrun
      exact hrun
    | none =>
      rw [hrow] at hrun
      obtain ⟨tx₀, htx₀, a, ha, hamount⟩ := hrun
      -- the transaction that is inserted has to have its own amount too
      obtain ⟨hmem, hid⟩ := mem_of_firstInsertable htx₀
      have hrun₀ := (recorded_run_iff hok).mp (hrecorded tx₀ hmem)
      rw [hid, hrow] at hrun₀
      obtain ⟨tx₁, htx₁, a₁, ha₁, hamount₁⟩ := hrun₀
      obtain rfl := Option.some_inj.mp (htx₀.symm.trans htx₁)
      obtain rfl := Option.some_inj.mp (ha.symm.trans ha₁)
      have hzero : a = 0 := by
        rcases amount_of_mem_allKnown hmem with heq | heq
        · rw [← heq, ha, Option.map_some, Option.some_inj] at hamount₁
          exact stroops_eq_self_iff.mp hamount₁
        · rw [heq, rt.parseFloat_zero] at ha
          exact (Option.some_inj.mp ha).symm
      subst hzero
      exact ⟨hamount, by rw [htx₀, Option.bind_some, ha]⟩
  · intro hcovered
    have hrecorded : ∀ tx ∈ allKnown env s.users,
        Recorded rt (detectAndCompensateOrphans rt s env).1.ledger tx := by
      intro tx htx
      have hc := hcovered tx htx
      refine (recorded_run_iff hok).mpr ?_
      rw [Covered] at hc
      cases hrow : s.ledger.find tx.transactionId with
      | some r =>
        rw [hrow] at hc
        exact hc
      | none =>
        rw [hrow] at hc
        obtain ⟨tx₀, htx₀, hzero⟩ := Option.bind_eq_some_iff.mp hc.2
        exact ⟨tx₀, htx₀, 0, hzero, hc.1⟩
    refine ⟨hrecorded, detectAndCompensateOrphans_eq_self fun tx htx hnone ↦ ?_⟩
    rw [users_detectAndCompensateOrphans] at htx
    obtain ⟨a, ha, -⟩ := recorded_iff.mp (hrecorded tx htx)
    rw [Ledger.amountOf, hnone] at ha
    cases ha

/-- **Orphan compensation.** In any sequence of runs, of rows of other writers and of new users,
the runs whose statements succeed do what they are for exactly when every transaction that they see
is covered. -/
theorem orphans_compensated_iff (rt : Runtime) (s : State) (as : List Action) :
    Along (step rt) (Compensates rt) s as ↔ Along (step rt) (CoveredAll rt) s as := by
  have hstep : Compensates rt = CoveredAll rt := by
    funext s a
    cases a with
    | detectAndCompensateOrphans env =>
      exact propext (forall_congr' fun hok ↦ compensated_iff hok)
    | write | register => rfl
  rw [hstep]

/-- The runtime of the example reads the decimals that the chain gives. -/
def sampleRuntime : Runtime := ⟨JsNumber.ofString, by decide +kernel⟩

def sampleState : State :=
  ⟨[⟨1, some "GSENDER"⟩, ⟨2, some "GRECEIVER"⟩], ⟨default, fun _ h ↦ nomatch h⟩, 0⟩

/-- A payment of 30 XLM between them, which the table has no row of. -/
def sampleEnv : Env where
  memory := some [[⟨some "tx1", none, some "GSENDER", some "GRECEIVER", "30.0000000", none, none⟩]]
  horizon _ := []
  now := "2026-01-01T00:00:00.000Z"

/-- Its row says 30 stroops. -/
theorem orphan_recorded_in_xlm :
    ¬Along (step sampleRuntime) (Compensates sampleRuntime) sampleState
      [.detectAndCompensateOrphans sampleEnv] := by
  rintro ⟨hrun, -⟩
  have hok : sampleEnv.Succeeds := ⟨rfl, rfl, fun _ ↦ rfl⟩
  have hcovered := (compensated_iff hok).mp (hrun hok)
  have hamount : (sampleRuntime.parseFloat "30.0000000").map stroops = some 0 :=
    (hcovered ⟨"tx1", some "GSENDER", some "GRECEIVER", "30.0000000", "30.0000000", none, none⟩
      (by decide)).1
  exact absurd hamount (by decide +kernel)

end StellarDonations.Orphans
