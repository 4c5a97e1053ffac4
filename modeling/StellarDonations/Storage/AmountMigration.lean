import Mathlib.Algebra.Order.Floor.Ring
import Mathlib.Data.Rat.Floor
import Mathlib.Logic.Function.Basic
import StellarDonations.Concurrency.Script
import StellarDonations.Errors

/-!
# The migration of amounts to stroops

Migration `021_amount_precision_stroops`, statement by statement, with the part of SQLite that its
statements use. `up` rebuilds the table `transactions`; it is not atomic, and the runner executes it
again from the beginning when it was interrupted before the migration was recorded.

A second run is harmless as long as the old table is there. Once it has been dropped, the second run
finds no table to convert; and once the new one has taken its name, amounts that are stroops are
converted again. The old table cannot be dropped at all while a refund refers to one of its rows.
The boundaries at which an interruption does no harm are those of `migration_restarts_iff`.
-/

namespace StellarDonations.AmountMigration

open Concurrency

/-! ## Tables -/

/-- A row of `transactions`. The amount is in XLM before the migration and in stroops after it;
`fields` are the columns that are copied and have no constraint. -/
structure Row (φ : Type*) where
  id : ℤ
  senderId : ℤ
  receiverId : ℤ
  amount : ℚ
  idempotencyKey : Option String
  stellarTxId : Option String
  campaignId : Option ℤ
  tenantId : String
  amountStroops : Option ℤ
  fields : φ
  deriving DecidableEq

/-- A table with these columns, some of which may be missing, and perhaps the index
`idx_transactions_idempotency`. -/
structure Table (φ : Type*) where
  hasAmountStroops : Bool
  hasTenantId : Bool
  hasIndex : Bool
  rows : List (Row φ)
  deriving DecidableEq

inductive TableName where
  | transactions
  | transactionsNew
  | transactionsOld
  deriving DecidableEq

structure Db (φ : Type*) where
  tables : TableName → Option (Table φ)
  users : List ℤ
  campaigns : List ℤ
  /-- The transactions that the rows of other tables, such as `refunds`, refer to. -/
  referenced : List ℤ
  /-- `schema_migrations` has the migration. -/
  applied : Bool

variable {φ : Type*}

/-- `db` with another table under the name. -/
def Db.set (db : Db φ) (name : TableName) (table : Option (Table φ)) : Db φ :=
  { db with tables := Function.update db.tables name table }

/-- The `PRIMARY KEY` and the `UNIQUE` columns. -/
def Distinct (rows : List (Row φ)) : Prop :=
  (rows.map (·.id)).Nodup ∧ (rows.filterMap (·.idempotencyKey)).Nodup ∧
    (rows.filterMap (·.stellarTxId)).Nodup

instance (rows : List (Row φ)) : Decidable (Distinct rows) := by
  unfold Distinct
  infer_instance

/-- The `FOREIGN KEY`s of a row. -/
def Row.RefersInto (row : Row φ) (db : Db φ) : Prop :=
  row.senderId ∈ db.users ∧ row.receiverId ∈ db.users ∧ ∀ c ∈ row.campaignId, c ∈ db.campaigns

instance (row : Row φ) (db : Db φ) : Decidable (row.RefersInto db) := by
  unfold Row.RefersInto
  infer_instance

/-! ## Numbers -/

def stroopsPerXlm : ℚ := 10000000

/-- `ROUND`: halves are rounded away from zero. -/
def roundHalf (x : ℚ) : ℤ := if x < 0 then -⌊-x + 1 / 2⌋ else ⌊x + 1 / 2⌋

/-- `CAST(… AS INTEGER)` of an integral number: the nearest 64-bit integer. -/
def castInteger (n : ℤ) : ℤ := max (-2 ^ 63) (min n (2 ^ 63 - 1))

/-- `CAST(ROUND(amount * 10000000) AS INTEGER)`. -/
def toStroops (amount : ℚ) : ℤ := castInteger (roundHalf (amount * stroopsPerXlm))

/-! ## Statements -/

inductive Statement where
  /-- `ALTER TABLE transactions ADD COLUMN amount_stroops INTEGER`. -/
  | addAmountStroops
  /-- `ALTER TABLE transactions ADD COLUMN tenant_id TEXT NOT NULL DEFAULT 'default'`. -/
  | addTenantId
  /-- `UPDATE transactions SET amount_stroops = CAST(ROUND(amount * 10000000) AS INTEGER)`. -/
  | updateAmountStroops
  | dropTable (ifExists : Bool) (name : TableName)
  | createTable (name : TableName)
  /-- `INSERT INTO transactions_new SELECT …, amount_stroops, … FROM transactions`. -/
  | insertStroops
  /-- `INSERT INTO transactions_old SELECT …, CAST(amount AS REAL) / 10000000, …`. -/
  | insertXlm
  | renameTable (name newName : TableName)
  /-- `CREATE INDEX IF NOT EXISTS idx_transactions_idempotency ON transactions(idempotencyKey)`. -/
  | createIndex
  /-- `INSERT INTO schema_migrations`. -/
  | recordMigration
  deriving DecidableEq

/-- What `Database.run` makes of an error that is not a violated `UNIQUE`. -/
def databaseError : AppError := ⟨.databaseError, some .databaseError, "Database operation failed"⟩

def Table.addAmountStroops (t : Table φ) : Table φ :=
  { t with hasAmountStroops := true, rows := t.rows.map ({ · with amountStroops := none }) }

def Table.addTenantId (t : Table φ) : Table φ :=
  { t with hasTenantId := true, rows := t.rows.map ({ · with tenantId := "default" }) }

def Table.updateAmountStroops (t : Table φ) : Table φ :=
  { t with rows := t.rows.map fun r ↦ { r with amountStroops := some (toStroops r.amount) } }

/-- The columns that are selected, with the amount of the new table. -/
def Row.select (row : Row φ) (amount : ℚ) : Row φ :=
  { row with amount := amount, amountStroops := none }

/-- An `INSERT INTO … SELECT … FROM transactions`; an amount may be `NULL`. -/
def insertSelect (db : Db φ) (name : TableName) (amount : Row φ → Option ℚ) :
    Except AppError (Db φ) :=
  match db.tables .transactions, db.tables name with
  | some t, some target =>
    if !t.hasTenantId then .error databaseError
    else match t.rows.mapM fun row ↦ (amount row).map row.select with
      | none => .error databaseError
      | some rows =>
        if ¬Distinct (target.rows ++ rows) then .error .uniqueViolation
        else if ¬∀ row ∈ rows, row.RefersInto db then .error databaseError
        else .ok (db.set name (some { target with rows := target.rows ++ rows }))
  | _, _ => .error databaseError

/-- Execute a statement. Dropping a table deletes its rows first, which fails when a row of another
table refers to one of them. -/
def exec (db : Db φ) : Statement → Except AppError (Db φ)
  | .addAmountStroops =>
    match db.tables .transactions with
    | none => .error databaseError
    | some t =>
      if t.hasAmountStroops then .error databaseError
      else .ok (db.set .transactions (some t.addAmountStroops))
  | .addTenantId =>
    match db.tables .transactions with
    | none => .error databaseError
    | some t =>
      if t.hasTenantId then .error databaseError
      else .ok (db.set .transactions (some t.addTenantId))
  | .updateAmountStroops =>
    match db.tables .transactions with
    | none => .error databaseError
    | some t =>
      if !t.hasAmountStroops then .error databaseError
      else .ok (db.set .transactions (some t.updateAmountStroops))
  | .dropTable ifExists name =>
    match db.tables name with
    | none => if ifExists then .ok db else .error databaseError
    | some t =>
      if name = .transactions ∧ ∃ row ∈ t.rows, row.id ∈ db.referenced then .error databaseError
      else .ok (db.set name none)
  | .createTable name =>
    match db.tables name with
    | some _ => .error databaseError
    | none => .ok (db.set name (some ⟨false, true, false, []⟩))
  | .insertStroops =>
    if (db.tables .transactions).any (·.hasAmountStroops) then
      insertSelect db .transactionsNew fun row ↦ row.amountStroops.map (↑)
    else .error databaseError
  | .insertXlm => insertSelect db .transactionsOld fun row ↦ some (row.amount / stroopsPerXlm)
  | .renameTable name newName =>
    match db.tables name, db.tables newName with
    | some t, none => .ok ((db.set newName (some t)).set name none)
    | _, _ => .error databaseError
  | .createIndex =>
    match db.tables .transactions with
    | none => .error databaseError
    | some t => .ok (db.set .transactions (some { t with hasIndex := true }))
  | .recordMigration =>
    if db.applied then .error .uniqueViolation else .ok { db with applied := true }

/-! ## The migration and the runner -/

/-- `up`; the errors of the first two statements are swallowed. -/
def up : List (Statement × Bool) :=
  [(.addAmountStroops, true), (.addTenantId, true), (.updateAmountStroops, false),
    (.dropTable true .transactionsNew, false), (.createTable .transactionsNew, false),
    (.insertStroops, false), (.dropTable false .transactions, false),
    (.renameTable .transactionsNew .transactions, false), (.createIndex, false)]

def down : List (Statement × Bool) :=
  [(.dropTable true .transactionsOld, false), (.createTable .transactionsOld, false),
    (.insertXlm, false), (.dropTable false .transactions, false),
    (.renameTable .transactionsOld .transactions, false), (.createIndex, false)]

/-- What the runner executes for a pending migration. -/
def applyAndRecord : List (Statement × Bool) := up ++ [(.recordMigration, false)]

/-- `runMigrations`, when it has the lock and no other migration is pending. -/
def runMigrations (db : Db φ) : Db φ × Option AppError :=
  if db.applied then (db, none)
  else
    let (db, error) := runScript exec applyAndRecord db
    (db, error.map fun e ↦
      .plain ("Migration failed [021_amount_precision_stroops]: " ++ e.message))

/-- The database when the first run was interrupted after `k` statements. -/
def interrupted (db : Db φ) (k : ℕ) : Db φ := (runScript exec (applyAndRecord.take k) db).1

def rerun (db : Db φ) (k : ℕ) : Db φ × Option AppError := runMigrations (interrupted db k)

/-! ## What must hold -/

/-- The table `transactions`, with its constraints. -/
structure Db.Has (db : Db φ) (t : Table φ) : Prop where
  table : db.tables .transactions = some t
  distinct : Distinct t.rows
  refers : ∀ row ∈ t.rows, row.RefersInto db

structure PreMigration (db : Db φ) (t : Table φ) : Prop extends db.Has t where
  pending : db.applied = false

def Row.stroops (row : Row φ) : ℤ := roundHalf (row.amount * stroopsPerXlm)

def Row.inStroops (row : Row φ) (hasTenantId : Bool) : Row φ :=
  { row with
    amount := row.stroops
    tenantId := if hasTenantId then row.tenantId else "default"
    amountStroops := none }

/-- The row is kept, and its amount as well if it is a whole number of stroops. -/
def Row.Restored (hasTenantId : Bool) (row row' : Row φ) : Prop :=
  row' = { row.inStroops hasTenantId with amount := row'.amount } ∧
    ((∃ n : ℤ, row.amount * stroopsPerXlm = n) → row'.amount = row.amount)

/-- The second run completes, gives the table that one run gives, with every row converted once, and
can be undone. -/
structure Restarts (db : Db φ) (t : Table φ) (k : ℕ) : Prop where
  completes : (rerun db k).2 = none
  same : (rerun db k).1.tables .transactions = (runMigrations db).1.tables .transactions
  once : ∃ t' ∈ (rerun db k).1.tables .transactions,
    t'.rows = t.rows.map (·.inStroops t.hasTenantId)
  restored : (runScript exec down (rerun db k).1).2 = none ∧
    ∃ t' ∈ (runScript exec down (rerun db k).1).1.tables .transactions,
      List.Forall₂ (Row.Restored t.hasTenantId) t.rows t'.rows

/-- No other table refers to a row, and the amounts are 64-bit integers. The first run was
interrupted before it dropped the old table, or not at all; or after it has renamed the new one,
with amounts that do not change when they are converted again. -/
structure Restartable (db : Db φ) (t : Table φ) (k : ℕ) : Prop where
  unreferenced : ∀ row ∈ t.rows, row.id ∉ db.referenced
  inRange : ∀ row ∈ t.rows, -2 ^ 63 ≤ row.stroops ∧ row.stroops ≤ 2 ^ 63 - 1
  boundary : k ≤ 6 ∨ 10 ≤ k ∨ k ≠ 7 ∧ ∀ row ∈ t.rows,
    row.stroops = 0 ∨ row.stroops = -2 ^ 63 ∨ row.stroops = 2 ^ 63 - 1

/-! ## Numbers, again -/

theorem roundHalf_intCast (n : ℤ) : roundHalf n = n := by
  have hfloor (m : ℤ) : ⌊(m : ℚ) + 1 / 2⌋ = m := by
    rw [Int.floor_intCast_add]
    norm_num
  rw [roundHalf]
  split
  · rw [← Int.cast_neg, hfloor, neg_neg]
  · exact hfloor n

theorem castInteger_eq_iff (n : ℤ) : castInteger n = n ↔ -2 ^ 63 ≤ n ∧ n ≤ 2 ^ 63 - 1 := by
  rw [castInteger]
  omega

theorem toStroops_intCast (n : ℤ) : toStroops n = castInteger (n * 10000000) := by
  have hmul : (n : ℚ) * stroopsPerXlm = ((n * 10000000 : ℤ) : ℚ) := by
    rw [stroopsPerXlm]
    push_cast
    rfl
  rw [toStroops, hmul, roundHalf_intCast]

/-- A second conversion changes all but zero and the ends of the range. -/
theorem toStroops_intCast_eq_iff (n : ℤ) :
    toStroops n = n ↔ n = 0 ∨ n = -2 ^ 63 ∨ n = 2 ^ 63 - 1 := by
  rw [toStroops_intCast, castInteger]
  omega

theorem toStroops_eq_stroops_iff (row : Row φ) :
    toStroops row.amount = row.stroops ↔ -2 ^ 63 ≤ row.stroops ∧ row.stroops ≤ 2 ^ 63 - 1 :=
  castInteger_eq_iff row.stroops

/-! ## Rows with the same keys -/

def Row.keys (row : Row φ) : ℤ × ℤ × ℤ × Option String × Option String × Option ℤ :=
  (row.id, row.senderId, row.receiverId, row.idempotencyKey, row.stellarTxId, row.campaignId)

variable {f : Row φ → Row φ} {db db' : Db φ} {t t' : Table φ}

theorem Distinct.map {rows : List (Row φ)} (h : Distinct rows)
    (hf : ∀ row, (f row).keys = row.keys) :
    Distinct (rows.map f) := by
  have hid : (fun row ↦ (f row).id) = fun row : Row φ ↦ row.id :=
    funext fun row ↦ congrArg (·.1) (hf row)
  have hkey : (fun row ↦ (f row).idempotencyKey) = fun row : Row φ ↦ row.idempotencyKey :=
    funext fun row ↦ congrArg (·.2.2.2.1) (hf row)
  have htx : (fun row ↦ (f row).stellarTxId) = fun row : Row φ ↦ row.stellarTxId :=
    funext fun row ↦ congrArg (·.2.2.2.2.1) (hf row)
  simpa only [Distinct, List.map_map, List.filterMap_map, Function.comp_def, hid, hkey, htx] using h

theorem Row.RefersInto.of_keys {row row' : Row φ} (h : row.RefersInto db)
    (hkeys : row'.keys = row.keys)
    (husers : db'.users = db.users) (hcampaigns : db'.campaigns = db.campaigns) :
    row'.RefersInto db' := by
  have hsender : row'.senderId = row.senderId := congrArg (·.2.1) hkeys
  have hreceiver : row'.receiverId = row.receiverId := congrArg (·.2.2.1) hkeys
  have hcampaign : row'.campaignId = row.campaignId := congrArg (·.2.2.2.2.2) hkeys
  simpa only [Row.RefersInto, hsender, hreceiver, hcampaign, husers, hcampaigns] using h

theorem Db.Has.map (h : db.Has t) (hf : ∀ row, (f row).keys = row.keys)
    (hrows : t'.rows = t.rows.map f) (htable : db'.tables .transactions = some t')
    (husers : db'.users = db.users) (hcampaigns : db'.campaigns = db.campaigns) : db'.Has t' := by
  refine ⟨htable, hrows ▸ h.distinct.map hf, fun row hrow ↦ ?_⟩
  rw [hrows] at hrow
  obtain ⟨r, hr, rfl⟩ := List.mem_map.mp hrow
  exact (h.refers r hr).of_keys (hf r) husers hcampaigns

@[simp] theorem set_tables_self (db : Db φ) (name : TableName) (table : Option (Table φ)) :
    (db.set name table).tables name = table := Function.update_self ..

@[simp] theorem set_tables_of_ne (db : Db φ) {name other : TableName} (table : Option (Table φ))
    (h : other ≠ name) : (db.set name table).tables other = db.tables other :=
  Function.update_of_ne h ..

@[simp] theorem set_users (db : Db φ) (name : TableName) (table : Option (Table φ)) :
    (db.set name table).users = db.users := rfl

@[simp] theorem set_campaigns (db : Db φ) (name : TableName) (table : Option (Table φ)) :
    (db.set name table).campaigns = db.campaigns := rfl

@[simp] theorem set_referenced (db : Db φ) (name : TableName) (table : Option (Table φ)) :
    (db.set name table).referenced = db.referenced := rfl

@[simp] theorem set_applied (db : Db φ) (name : TableName) (table : Option (Table φ)) :
    (db.set name table).applied = db.applied := rfl

/-! ## The converted table -/

def Row.converted (hasTenantId : Bool) (row : Row φ) : Row φ :=
  { row.inStroops hasTenantId with amount := toStroops row.amount }

/-- The table that a run of `up` makes of `t`. -/
def Table.converted (t : Table φ) : Table φ :=
  ⟨false, true, true, t.rows.map (·.converted t.hasTenantId)⟩

theorem keys_converted (hasTenantId : Bool) (row : Row φ) :
    (row.converted hasTenantId).keys = row.keys := rfl

/-- A table that the first statements of `up` have made of `t`. -/
structure Unconverted (db₀ : Db φ) (t : Table φ) (db : Db φ) (t' : Table φ) : Prop
    extends PreMigration db t' where
  converted : t'.converted = t.converted
  referenced : db.referenced = db₀.referenced

theorem PreMigration.unconverted (h : PreMigration db t) : Unconverted db t db t := ⟨h, rfl, rfl⟩

theorem ids_converted (t : Table φ) : t.converted.rows.map (·.id) = t.rows.map (·.id) := by
  rw [Table.converted, List.map_map]
  rfl

theorem Unconverted.referenced_iff {db₀ : Db φ} (h : Unconverted db₀ t db t') :
    (∃ row ∈ t'.rows, row.id ∈ db.referenced) ↔ ∃ row ∈ t.rows, row.id ∈ db₀.referenced := by
  have hids : t'.rows.map (·.id) = t.rows.map (·.id) := by
    rw [← ids_converted t', h.converted, ids_converted]
  have hexists (rows : List (Row φ)) :
      (∃ row ∈ rows, row.id ∈ db₀.referenced) ↔ ∃ id ∈ rows.map (·.id), id ∈ db₀.referenced := by
    simp
  rw [h.referenced, hexists, hids, ← hexists]

/-! ## The statements before the old table is dropped -/

variable {db₀ : Db φ}

/-- Another table in place of `transactions`, with the columns that are not converted and the same
amounts. -/
theorem Unconverted.set (h : Unconverted db₀ t db t') {t'' : Table φ}
    (hf : ∀ row, (f row).keys = row.keys) (hrows : t''.rows = t'.rows.map f)
    (hconverted : t''.converted = t'.converted) :
    Unconverted db₀ t (db.set .transactions (some t'')) t'' where
  toHas := h.toHas.map hf hrows (set_tables_self ..) rfl rfl
  pending := h.pending
  converted := hconverted.trans h.converted
  referenced := h.referenced

theorem Db.Has.set_of_ne (h : db.Has t) {name : TableName} (hname : .transactions ≠ name)
    (table : Option (Table φ)) : (db.set name table).Has t :=
  ⟨(set_tables_of_ne db table hname).trans h.table, h.distinct, h.refers⟩

theorem Unconverted.set_of_ne (h : Unconverted db₀ t db t') {name : TableName}
    (hname : .transactions ≠ name) (table : Option (Table φ)) :
    Unconverted db₀ t (db.set name table) t' where
  toHas := h.toHas.set_of_ne hname table
  pending := h.pending
  converted := h.converted
  referenced := h.referenced

theorem Unconverted.addAmountStroops (h : Unconverted db₀ t db t') :
    Unconverted db₀ t (db.set .transactions (some t'.addAmountStroops)) t'.addAmountStroops := by
  refine h.set (f := fun row ↦ { row with amountStroops := none }) (fun _ ↦ rfl) rfl ?_
  rw [Table.converted, Table.addAmountStroops, List.map_map]
  rfl

theorem Unconverted.addTenantId (h : Unconverted db₀ t db t') (hnone : t'.hasTenantId = false) :
    Unconverted db₀ t (db.set .transactions (some t'.addTenantId)) t'.addTenantId := by
  refine h.set (f := fun row ↦ { row with tenantId := "default" }) (fun _ ↦ rfl) rfl ?_
  rw [Table.converted, Table.converted, Table.addTenantId, List.map_map, hnone]
  rfl

theorem Unconverted.updateAmountStroops (h : Unconverted db₀ t db t') :
    Unconverted db₀ t
      (db.set .transactions (some t'.updateAmountStroops)) t'.updateAmountStroops := by
  refine h.set (f := fun row ↦ { row with amountStroops := some (toStroops row.amount) })
    (fun _ ↦ rfl) rfl ?_
  rw [Table.converted, Table.updateAmountStroops, List.map_map]
  rfl

theorem insertSelect_ok_set {name : TableName} {amount : Row φ → Option ℚ}
    (h : insertSelect db name amount = .ok db') : ∃ table, db' = db.set name table := by
  unfold insertSelect at h
  split at h
  · split at h
    · cases h
    split at h
    · cases h
    split at h
    · cases h
    split at h
    · cases h
    · cases h
      exact ⟨_, rfl⟩
  · cases h

theorem exists_unconverted_exec {a : Statement × Bool} (ha : a ∈ up.take 6)
    (h : ∃ t', Unconverted db₀ t db t') (hexec : exec db a.1 = .ok db') :
    ∃ t', Unconverted db₀ t db' t' := by
  obtain ⟨t', h⟩ := h
  have htable := h.table
  simp only [up, List.take_succ_cons, List.take_zero, List.mem_cons, List.not_mem_nil,
    or_false] at ha
  obtain rfl | rfl | rfl | rfl | rfl | rfl := ha
  · simp only [exec, htable] at hexec
    split at hexec
    · cases hexec
    · cases hexec
      exact ⟨_, h.addAmountStroops⟩
  · simp only [exec, htable] at hexec
    split at hexec
    · cases hexec
    · rename_i hnone
      cases hexec
      exact ⟨_, h.addTenantId (Bool.eq_false_iff.mpr hnone)⟩
  · simp only [exec, htable] at hexec
    split at hexec
    · cases hexec
    · cases hexec
      exact ⟨_, h.updateAmountStroops⟩
  · simp only [exec, reduceCtorEq, false_and, if_false, if_true] at hexec
    split at hexec
    · cases hexec
      exact ⟨t', h⟩
    · cases hexec
      exact ⟨t', h.set_of_ne (by decide) none⟩
  · simp only [exec] at hexec
    split at hexec
    · cases hexec
    · cases hexec
      exact ⟨t', h.set_of_ne (by decide) _⟩
  · simp only [exec] at hexec
    split at hexec
    · obtain ⟨table, rfl⟩ := insertSelect_ok_set hexec
      exact ⟨t', h.set_of_ne (by decide) table⟩
    · cases hexec

/-- Interrupted before it has dropped the old table, the first run has not converted it. -/
theorem exists_unconverted_interrupted (h : PreMigration db t) {k : ℕ} (hk : k ≤ 6) :
    ∃ t', Unconverted db t (interrupted db k) t' := by
  have htake : applyAndRecord.take k = (up.take 6).take k := by
    rw [List.take_take, min_eq_left hk, applyAndRecord, List.take_append_of_le_length]
    exact hk.trans (by decide)
  refine runScript_keeps (P := fun db' ↦ ∃ t', Unconverted db t db' t')
    (fun a ha s s' hs hexec ↦ ?_)
    ⟨t, h.unconverted⟩
  rw [htake] at ha
  exact exists_unconverted_exec (List.mem_of_mem_take ha) hs hexec

theorem insertSelect_new (h : db.Has t) (htenant : t.hasTenantId = true) {name : TableName}
    (hnew : db.tables name = some ⟨false, true, false, []⟩) (amount : Row φ → Option ℚ)
    (amount' : Row φ → ℚ) (hamount : ∀ row ∈ t.rows, amount row = some (amount' row)) :
    insertSelect db name amount =
      .ok (db.set name (some ⟨false, true, false,
        t.rows.map fun row ↦ row.select (amount' row)⟩)) := by
  have hselect : (t.rows.mapM fun row ↦ (amount row).map row.select) =
      some (t.rows.map fun row ↦ row.select (amount' row)) := by
    have hrows : ∀ rows ⊆ t.rows, (rows.mapM fun row ↦ (amount row).map row.select) =
        some (rows.map fun row ↦ row.select (amount' row)) := by
      intro rows hsub
      induction rows with
      | nil => rfl
      | cons row rows ih =>
        obtain ⟨hrow, hrest⟩ := List.cons_subset.mp hsub
        simp [List.mapM_cons, hamount row hrow, ih hrest]
    exact hrows t.rows (List.Subset.refl _)
  have hdistinct := h.distinct.map (f := fun row ↦ row.select (amount' row)) fun _ ↦ rfl
  have hrefers : ∀ row ∈ t.rows.map fun row ↦ row.select (amount' row), row.RefersInto db := by
    intro row hrow
    obtain ⟨r, hr, rfl⟩ := List.mem_map.mp hrow
    exact h.refers r hr
  simp only [insertSelect, h.table, hnew, htenant, hselect, List.nil_append, hdistinct,
    not_true_eq_false, if_false, Bool.not_true, Bool.false_eq_true]
  rw [if_neg (not_not_intro hrefers)]

/-! ## A run of `up` -/

/-- The new table, before its index is created. -/
def Table.copied (t : Table φ) : Table φ := { t.converted with hasIndex := false }

theorem exists_run_addAmountStroops (h : Unconverted db₀ t db t') (rest : List (Statement × Bool)) :
    ∃ db₁ t₁, runScript exec ((.addAmountStroops, true) :: rest) db = runScript exec rest db₁ ∧
      Unconverted db₀ t db₁ t₁ ∧ t₁.hasAmountStroops = true := by
  cases hstroops : t'.hasAmountStroops with
  | true =>
    have hexec : exec db .addAmountStroops = .error databaseError := by
      simp only [exec, h.table, hstroops, if_true]
    exact ⟨db, t', runScript_swallowed hexec, h, hstroops⟩
  | false =>
    have hexec : exec db .addAmountStroops =
        .ok (db.set .transactions (some t'.addAmountStroops)) := by
      simp only [exec, h.table, hstroops, Bool.false_eq_true, if_false]
    exact ⟨_, _, runScript_ok hexec, h.addAmountStroops, rfl⟩

theorem exists_run_addTenantId (h : Unconverted db₀ t db t') (hstroops : t'.hasAmountStroops = true)
    (rest : List (Statement × Bool)) :
    ∃ db₁ t₁, runScript exec ((.addTenantId, true) :: rest) db = runScript exec rest db₁ ∧
      Unconverted db₀ t db₁ t₁ ∧ t₁.hasAmountStroops = true ∧ t₁.hasTenantId = true := by
  cases htenant : t'.hasTenantId with
  | true =>
    have hexec : exec db .addTenantId = .error databaseError := by
      simp only [exec, h.table, htenant, if_true]
    exact ⟨db, t', runScript_swallowed hexec, h, hstroops, htenant⟩
  | false =>
    have hexec : exec db .addTenantId = .ok (db.set .transactions (some t'.addTenantId)) := by
      simp only [exec, h.table, htenant, Bool.false_eq_true, if_false]
    exact ⟨_, _, runScript_ok hexec, h.addTenantId htenant, hstroops, rfl⟩

theorem exists_exec_dropIfExists (db : Db φ) {name : TableName} (hname : .transactions ≠ name) :
    ∃ db₁, exec db (.dropTable true name) = .ok db₁ ∧ (db₁ = db ∨ db₁ = db.set name none) ∧
      db₁.tables name = none := by
  cases htable : db.tables name with
  | none => exact ⟨db, by simp only [exec, htable, if_true], .inl rfl, htable⟩
  | some table =>
    exact ⟨db.set name none, by simp only [exec, htable, hname.symm, false_and, if_false], .inr rfl,
      set_tables_self ..⟩

theorem copied_eq (h : Unconverted db₀ t db t') (htenant : t'.hasTenantId = true) :
    t.copied = ⟨false, true, false,
      t'.updateAmountStroops.rows.map fun row ↦ row.select (toStroops row.amount)⟩ := by
  have htenant' : t'.updateAmountStroops.hasTenantId = true := htenant
  rw [Table.copied, ← h.updateAmountStroops.converted, Table.converted, htenant']
  rfl

theorem exists_run_take_six (h : PreMigration db t) :
    ∃ db' t', runScript exec (up.take 6) db = (db', none) ∧ Unconverted db t db' t' ∧
      db'.tables .transactionsNew = some t.copied := by
  obtain ⟨db₁, t₁, hrun₁, h₁, hstroops₁⟩ :=
    exists_run_addAmountStroops h.unconverted ((up.take 6).drop 1)
  obtain ⟨db₂, t₂, hrun₂, h₂, hstroops₂, htenant₂⟩ :=
    exists_run_addTenantId h₁ hstroops₁ ((up.take 6).drop 2)
  -- the amounts are converted, and the new table is empty
  have hupdate : exec db₂ .updateAmountStroops =
      .ok (db₂.set .transactions (some t₂.updateAmountStroops)) := by
    simp only [exec, h₂.table, hstroops₂, Bool.not_true, Bool.false_eq_true, if_false]
  have hne : TableName.transactions ≠ .transactionsNew := by decide
  obtain ⟨db₄, hdrop, hsame, hnone⟩ :=
    exists_exec_dropIfExists (db₂.set .transactions (some t₂.updateAmountStroops)) hne
  have h₄ : Unconverted db t db₄ t₂.updateAmountStroops := by
    obtain rfl | rfl := hsame
    · exact h₂.updateAmountStroops
    · exact h₂.updateAmountStroops.set_of_ne hne none
  have hcreate : exec db₄ (.createTable .transactionsNew) =
      .ok (db₄.set .transactionsNew (some ⟨false, true, false, []⟩)) := by
    simp only [exec, hnone]
  have h₅ := h₄.set_of_ne hne (some ⟨false, true, false, []⟩)
  -- and then it has the converted rows
  have hselect := insertSelect_new h₅.toHas htenant₂ (set_tables_self ..)
    (fun row ↦ row.amountStroops.map (↑)) (fun row ↦ toStroops row.amount) fun row hrow ↦ by
      obtain ⟨r, -, rfl⟩ := List.mem_map.mp hrow
      rfl
  have hinsert : exec (db₄.set .transactionsNew (some ⟨false, true, false, []⟩)) .insertStroops =
      .ok ((db₄.set .transactionsNew (some ⟨false, true, false, []⟩)).set .transactionsNew
        (some t.copied)) := by
    rw [copied_eq h₂ htenant₂, ← hselect, exec, if_pos]
    rw [h₅.table]
    exact hstroops₂
  refine ⟨_, t₂.updateAmountStroops, ?_, h₅.set_of_ne hne (some t.copied), set_tables_self ..⟩
  calc runScript exec (up.take 6) db
    _ = runScript exec ((up.take 6).drop 1) db₁ := hrun₁
    _ = runScript exec ((up.take 6).drop 2) db₂ := hrun₂
    _ = runScript exec ((up.take 6).drop 3) _ := runScript_ok hupdate
    _ = runScript exec ((up.take 6).drop 4) _ := runScript_ok hdrop
    _ = runScript exec ((up.take 6).drop 5) _ := runScript_ok hcreate
    _ = runScript exec ((up.take 6).drop 6) _ := runScript_ok hinsert

/-! ## The statements after it -/

/-- The old table cannot be dropped while another one refers to it. -/
theorem exec_dropTable_referenced (h : db.Has t) (href : ∃ row ∈ t.rows, row.id ∈ db.referenced)
    (ifExists : Bool) : exec db (.dropTable ifExists .transactions) = .error databaseError := by
  simp only [exec, h.table, true_and]
  exact if_pos href

theorem exec_dropTable (h : db.Has t) (href : ¬∃ row ∈ t.rows, row.id ∈ db.referenced)
    (ifExists : Bool) :
    exec db (.dropTable ifExists .transactions) = .ok (db.set .transactions none) := by
  simp only [exec, h.table, true_and]
  exact if_neg href

/-- The database after the old table has been dropped and the new one renamed. -/
def Db.renamed (db : Db φ) (name : TableName) (new : Table φ) : Db φ :=
  ((db.set .transactions none).set .transactions (some new)).set name none

theorem renamed_table (db : Db φ) {name : TableName} (hname : .transactions ≠ name)
    (new : Table φ) :
    (db.renamed name new).tables .transactions = some new := by
  rw [Db.renamed, set_tables_of_ne _ _ hname, set_tables_self]

theorem exec_renameTable {name : TableName} (hname : .transactions ≠ name) {new : Table φ}
    (hnew : db.tables name = some new) :
    exec (db.set .transactions none) (.renameTable name .transactions) =
      .ok (db.renamed name new) := by
  have hname' : (db.set .transactions none).tables name = some new :=
    (set_tables_of_ne db none hname.symm).trans hnew
  simp only [exec, hname', set_tables_self]
  rfl

theorem exec_createIndex (htable : db.tables .transactions = some t) :
    exec db .createIndex = .ok (db.set .transactions (some { t with hasIndex := true })) := by
  simp only [exec, htable]

/-- The database after the migration has been recorded. -/
def Db.recorded (db : Db φ) (t : Table φ) : Db φ :=
  { (db.renamed .transactionsNew t.copied).set .transactions (some t.converted) with
    applied := true }

theorem recorded_table (db : Db φ) (t : Table φ) :
    (db.recorded t).tables .transactions = some t.converted := by
  simp only [Db.recorded, set_tables_self]

theorem take_applyAndRecord {k : ℕ} (hk : 7 ≤ k) :
    applyAndRecord.take k = up.take 6 ++ (Statement.dropTable false .transactions, false) ::
      ([(.renameTable .transactionsNew .transactions, false), (.createIndex, false),
        (.recordMigration, false)] : List (Statement × Bool)).take (k - 7) := by
  obtain ⟨n, rfl⟩ := Nat.exists_eq_add_of_le hk
  rw [Nat.add_comm, Nat.add_sub_cancel]
  rfl

/-- While another table refers to the old one, the run fails when it would be dropped. -/
theorem exists_run_of_referenced (h : PreMigration db t)
    (href : ∃ row ∈ t.rows, row.id ∈ db.referenced) :
    ∃ db' t', Unconverted db t db' t' ∧
      ∀ k, 7 ≤ k → runScript exec (applyAndRecord.take k) db = (db', some databaseError) := by
  obtain ⟨db', t', hrun, h', -⟩ := exists_run_take_six h
  refine ⟨db', t', h', fun k hk ↦ ?_⟩
  rw [take_applyAndRecord hk, runScript_append hrun]
  exact runScript_error (exec_dropTable_referenced h'.toHas (h'.referenced_iff.mpr href) false)

/-- Otherwise the new table takes the place of the old one, and the migration is recorded. -/
theorem exists_run_of_unreferenced (h : PreMigration db t)
    (href : ¬∃ row ∈ t.rows, row.id ∈ db.referenced) :
    ∃ db' t', Unconverted db t db' t' ∧
      runScript exec (applyAndRecord.take 7) db = (db'.set .transactions none, none) ∧
      runScript exec (applyAndRecord.take 8) db = (db'.renamed .transactionsNew t.copied, none) ∧
      runScript exec (applyAndRecord.take 9) db =
        ((db'.renamed .transactionsNew t.copied).set .transactions (some t.converted), none) ∧
      ∀ k, 10 ≤ k → runScript exec (applyAndRecord.take k) db = (db'.recorded t, none) := by
  obtain ⟨db', t', hrun, h', hnew⟩ := exists_run_take_six h
  have hdrop := exec_dropTable h'.toHas (mt h'.referenced_iff.mp href) false
  have hne : TableName.transactions ≠ .transactionsNew := by decide
  have hrename := exec_renameTable hne hnew
  have hindex := exec_createIndex (renamed_table db' hne t.copied)
  have hrecord : exec ((db'.renamed .transactionsNew t.copied).set .transactions (some t.converted))
      .recordMigration = .ok (db'.recorded t) := if_neg (by simp [Db.renamed, h'.pending])
  refine ⟨db', t', h', ?_, ?_, ?_, fun k hk ↦ ?_⟩
  · rw [take_applyAndRecord le_rfl, runScript_append hrun]
    exact runScript_ok hdrop
  · rw [take_applyAndRecord (by decide), runScript_append hrun]
    exact (runScript_ok hdrop).trans (runScript_ok hrename)
  · rw [take_applyAndRecord (by decide), runScript_append hrun]
    exact (runScript_ok hdrop).trans ((runScript_ok hrename).trans (runScript_ok hindex))
  · rw [take_applyAndRecord (by omega), runScript_append hrun, List.take_of_length_le]
    · exact (runScript_ok hdrop).trans ((runScript_ok hrename).trans
        ((runScript_ok hindex).trans (runScript_ok hrecord)))
    · simp only [List.length_cons, List.length_nil]
      omega

theorem Unconverted.has_converted (h : Unconverted db₀ t db t') {db₁ : Db φ} {t₁ : Table φ}
    (hrows : t₁.rows = t.converted.rows) (htable : db₁.tables .transactions = some t₁)
    (husers : db₁.users = db.users) (hcampaigns : db₁.campaigns = db.campaigns) : db₁.Has t₁ :=
  h.toHas.map (keys_converted t'.hasTenantId) (hrows.trans (h.converted ▸ rfl)) htable husers
    hcampaigns

/-! ## Runs of the runner -/

/-- One run converts the table. -/
theorem exists_runMigrations (h : PreMigration db t)
    (href : ¬∃ row ∈ t.rows, row.id ∈ db.referenced) :
    ∃ db₁, runMigrations db = (db₁, none) ∧ db₁.Has t.converted ∧
      db₁.referenced = db.referenced := by
  obtain ⟨db', t', h', -, -, -, hrun⟩ := exists_run_of_unreferenced h href
  have hall : runScript exec applyAndRecord db = (db'.recorded t, none) := hrun 10 le_rfl
  refine ⟨db'.recorded t, ?_, h'.has_converted rfl (recorded_table db' t) rfl rfl, h'.referenced⟩
  rw [runMigrations, h.pending, hall]
  rfl

theorem runMigrations_referenced (h : PreMigration db t)
    (href : ∃ row ∈ t.rows, row.id ∈ db.referenced) : (runMigrations db).2 ≠ none := by
  obtain ⟨db', -, -, hrun⟩ := exists_run_of_referenced h href
  have hall : runScript exec applyAndRecord db = (db', some databaseError) := hrun 10 (by decide)
  rw [runMigrations, h.pending, hall]
  exact Option.some_ne_none _

theorem runMigrations_missing (htable : db.tables .transactions = none)
    (hpending : db.applied = false) :
    (runMigrations db).2 ≠ none := by
  have hstroops : exec db .addAmountStroops = .error databaseError := by simp only [exec, htable]
  have htenant : exec db .addTenantId = .error databaseError := by simp only [exec, htable]
  have hupdate : exec db .updateAmountStroops = .error databaseError := by simp only [exec, htable]
  have hrun : runScript exec applyAndRecord db = (db, some databaseError) :=
    (runScript_swallowed hstroops).trans ((runScript_swallowed htenant).trans
      (runScript_error hupdate))
  rw [runMigrations, hpending, hrun]
  exact Option.some_ne_none _

theorem exists_run_down (h : db.Has t) (htenant : t.hasTenantId = true)
    (href : ¬∃ row ∈ t.rows, row.id ∈ db.referenced) :
    ∃ db₁, runScript exec down db = (db₁, none) ∧ db₁.tables .transactions =
      some ⟨false, true, true, t.rows.map fun row ↦ row.select (row.amount / stroopsPerXlm)⟩ := by
  have hne : TableName.transactions ≠ .transactionsOld := by decide
  obtain ⟨db₁, hdrop, hsame, hnone⟩ := exists_exec_dropIfExists db hne
  obtain ⟨h₁, href₁⟩ : db₁.Has t ∧ db₁.referenced = db.referenced := by
    obtain rfl | rfl := hsame
    · exact ⟨h, rfl⟩
    · exact ⟨h.set_of_ne hne none, rfl⟩
  have hcreate : exec db₁ (.createTable .transactionsOld) =
      .ok (db₁.set .transactionsOld (some ⟨false, true, false, []⟩)) := by
    simp only [exec, hnone]
  have h₂ := h₁.set_of_ne hne (some ⟨false, true, false, []⟩)
  have hinsert := insertSelect_new h₂ htenant (set_tables_self ..)
    (fun row ↦ some (row.amount / stroopsPerXlm)) (fun row ↦ row.amount / stroopsPerXlm)
    fun _ _ ↦ rfl
  have h₃ := h₂.set_of_ne hne (some ⟨false, true, false,
    t.rows.map fun row ↦ row.select (row.amount / stroopsPerXlm)⟩)
  have hrun := calc runScript exec down db
    _ = runScript exec (down.drop 1) db₁ := runScript_ok hdrop
    _ = runScript exec (down.drop 2) _ := runScript_ok hcreate
    _ = runScript exec (down.drop 3) _ := runScript_ok hinsert
    _ = runScript exec (down.drop 4) _ := runScript_ok (exec_dropTable h₃ (href₁ ▸ href) false)
    _ = runScript exec (down.drop 5) _ := runScript_ok (exec_renameTable hne (set_tables_self ..))
    _ = runScript exec (down.drop 6) _ := runScript_ok (exec_createIndex (renamed_table _ hne _))
  exact ⟨_, hrun, set_tables_self ..⟩

/-! ## The boundaries -/

theorem converted_rows_eq_iff (t : Table φ) :
    t.converted.rows = t.rows.map (·.inStroops t.hasTenantId) ↔
      ∀ row ∈ t.rows, -2 ^ 63 ≤ row.stroops ∧ row.stroops ≤ 2 ^ 63 - 1 := by
  rw [Table.converted, List.map_inj_left]
  refine forall₂_congr fun row _ ↦ ?_
  rw [← toStroops_eq_stroops_iff]
  constructor
  · intro h
    have hamount : (toStroops row.amount : ℚ) = row.stroops := congrArg Row.amount h
    exact_mod_cast hamount
  · intro h
    rw [Row.converted, h]
    rfl

/-- A row whose amount is a 64-bit number of stroops has it back after `down`. -/
theorem restored_converted {row : Row φ} {hasTenantId : Bool}
    (hrange : -2 ^ 63 ≤ row.stroops ∧ row.stroops ≤ 2 ^ 63 - 1) :
    row.Restored hasTenantId ((row.converted hasTenantId).select
      ((row.converted hasTenantId).amount / stroopsPerXlm)) := by
  refine ⟨rfl, fun ⟨n, hn⟩ ↦ ?_⟩
  have hstroops : row.stroops = n := by rw [Row.stroops, hn, roundHalf_intCast]
  have hamount : (row.converted hasTenantId).amount = row.amount * stroopsPerXlm := by
    rw [hn, ← hstroops, ← (toStroops_eq_stroops_iff row).mpr hrange]
    rfl
  rw [hamount]
  exact mul_div_cancel_right₀ row.amount (by norm_num [stroopsPerXlm])

/-- A second run that completes does no harm when it gives the same table and the amounts are in
range. -/
theorem restarts_iff_of_rerun {k : ℕ} {db₁ : Db φ} {t₁ : Table φ}
    (hrerun : rerun db k = (db₁, none))
    (h₁ : db₁.Has t₁) (htenant : t₁.hasTenantId = true)
    (href : ¬∃ row ∈ t₁.rows, row.id ∈ db₁.referenced)
    (hone : (runMigrations db).1.tables .transactions = some t.converted) :
    Restarts db t k ↔ t₁ = t.converted ∧
      ∀ row ∈ t.rows, -2 ^ 63 ≤ row.stroops ∧ row.stroops ≤ 2 ^ 63 - 1 := by
  constructor
  · intro h
    have hsame := h.same
    rw [hrerun, hone, h₁.table] at hsame
    have heq : t₁ = t.converted := Option.some.inj hsame
    refine ⟨heq, (converted_rows_eq_iff t).mp ?_⟩
    obtain ⟨t', ht', hrows⟩ := h.once
    rw [hrerun, h₁.table] at ht'
    rw [← heq, ← hrows, Option.some.inj ht']
  · rintro ⟨rfl, hrange⟩
    obtain ⟨db₂, hdown, htable⟩ := exists_run_down h₁ htenant href
    have hdown' : runScript exec down (rerun db k).1 = (db₂, none) := by rw [hrerun, hdown]
    refine ⟨?_, ?_, ⟨t.converted, ?_, (converted_rows_eq_iff t).mpr hrange⟩, ?_⟩
    · rw [hrerun]
    · rw [hrerun, hone, h₁.table]
    · rw [hrerun]
      exact h₁.table
    · rw [hdown']
      refine ⟨rfl, _, htable, ?_⟩
      rw [Table.converted, List.map_map, List.forall₂_map_right_iff, List.forall₂_same]
      exact fun row hrow ↦ restored_converted (hrange row hrow)

theorem not_referenced_converted (href : ¬∃ row ∈ t.rows, row.id ∈ db.referenced) {db₁ : Db φ}
    (hreferenced : db₁.referenced = db.referenced) :
    ¬∃ row ∈ t.converted.rows, row.id ∈ db₁.referenced := by
  rintro ⟨row, hrow, hid⟩
  obtain ⟨r, hr, rfl⟩ := List.mem_map.mp hrow
  rw [hreferenced] at hid
  exact href ⟨r, hr, hid⟩

/-- The table that the first run has renamed is converted again, unless its amounts stay
the same. -/
theorem converted_eq_iff {t₁ : Table φ} (hrows : t₁.rows = t.converted.rows)
    (htenant : t₁.hasTenantId = true) :
    t₁.converted = t.converted ↔ ∀ row ∈ t.rows,
      toStroops (toStroops row.amount) = toStroops row.amount := by
  have hconverted : t₁.converted = ⟨false, true, true, t.rows.map fun row ↦
      (row.converted t.hasTenantId).converted true⟩ := by
    rw [Table.converted, hrows, htenant, Table.converted, List.map_map]
    rfl
  rw [hconverted, Table.converted, Table.mk.injEq]
  simp only [true_and]
  rw [List.map_inj_left]
  refine forall₂_congr fun row _ ↦ ⟨fun h ↦ ?_, fun h ↦ ?_⟩
  · have hamount : (toStroops (toStroops row.amount) : ℚ) = toStroops row.amount :=
      congrArg Row.amount h
    exact_mod_cast hamount
  · rw [Row.converted, Row.converted, h]
    rfl

/-- Before the old table is dropped, every boundary is restartable. -/
theorem restarts_iff_of_le_six (h : PreMigration db t)
    (href : ¬∃ row ∈ t.rows, row.id ∈ db.referenced)
    (hone : (runMigrations db).1.tables .transactions = some t.converted) {k : ℕ} (hk : k ≤ 6) :
    Restarts db t k ↔ ∀ row ∈ t.rows, -2 ^ 63 ≤ row.stroops ∧ row.stroops ≤ 2 ^ 63 - 1 := by
  obtain ⟨t', h'⟩ := exists_unconverted_interrupted h hk
  obtain ⟨db₁, hrun, hhas, href₁⟩ := exists_runMigrations h'.toPreMigration
    (mt h'.referenced_iff.mp href)
  rw [h'.converted] at hhas
  rw [restarts_iff_of_rerun hrun hhas rfl
    (not_referenced_converted href (href₁.trans h'.referenced)) hone]
  exact and_iff_right rfl

/-- Once the migration is recorded, it is not executed again. -/
theorem restarts_iff_of_ten_le (h : PreMigration db t)
    (href : ¬∃ row ∈ t.rows, row.id ∈ db.referenced)
    (hone : (runMigrations db).1.tables .transactions = some t.converted) {k : ℕ} (hk : 10 ≤ k) :
    Restarts db t k ↔ ∀ row ∈ t.rows, -2 ^ 63 ≤ row.stroops ∧ row.stroops ≤ 2 ^ 63 - 1 := by
  obtain ⟨db', t', h', -, -, -, hten⟩ := exists_run_of_unreferenced h href
  have hrerun : rerun db k = (db'.recorded t, none) := by
    rw [rerun, interrupted, hten k hk]
    rfl
  rw [restarts_iff_of_rerun hrerun (h'.has_converted rfl (recorded_table db' t) rfl rfl) rfl
    (not_referenced_converted href h'.referenced) hone]
  exact and_iff_right rfl

/-- Between the two statements that drop the old table and rename the new one, there is no table. -/
theorem not_restarts_seven (h : PreMigration db t)
    (href : ¬∃ row ∈ t.rows, row.id ∈ db.referenced) :
    ¬Restarts db t 7 := by
  obtain ⟨db', t', h', hseven, -⟩ := exists_run_of_unreferenced h href
  have hinterrupted : interrupted db 7 = db'.set .transactions none := congrArg Prod.fst hseven
  intro hrestarts
  have hcompletes := hrestarts.completes
  rw [rerun, hinterrupted] at hcompletes
  exact runMigrations_missing (set_tables_self ..) h'.pending hcompletes

/-- After that, the amounts of the renamed table are converted again. -/
theorem restarts_iff_of_eight_nine (h : PreMigration db t)
    (href : ¬∃ row ∈ t.rows, row.id ∈ db.referenced)
    (hone : (runMigrations db).1.tables .transactions = some t.converted) {k : ℕ}
    (hk : k = 8 ∨ k = 9) :
    Restarts db t k ↔ (∀ row ∈ t.rows, toStroops (toStroops row.amount) = toStroops row.amount) ∧
      ∀ row ∈ t.rows, -2 ^ 63 ≤ row.stroops ∧ row.stroops ≤ 2 ^ 63 - 1 := by
  obtain ⟨db', t', h', -, height, hnine, -⟩ := exists_run_of_unreferenced h href
  obtain ⟨t₁, hpre, hrows, htenant, hreferenced⟩ : ∃ t₁, PreMigration (interrupted db k) t₁ ∧
      t₁.rows = t.converted.rows ∧ t₁.hasTenantId = true ∧
        (interrupted db k).referenced = db.referenced := by
    obtain rfl | rfl := hk
    · rw [interrupted, height]
      have hne : TableName.transactions ≠ .transactionsNew := by decide
      have htable := renamed_table db' hne t.copied
      exact ⟨t.copied, ⟨h'.has_converted rfl htable rfl rfl, h'.pending⟩, rfl, rfl, h'.referenced⟩
    · rw [interrupted, hnine]
      exact ⟨t.converted, ⟨h'.has_converted rfl (set_tables_self ..) rfl rfl, h'.pending⟩, rfl, rfl,
        h'.referenced⟩
  have href₁ : ¬∃ row ∈ t₁.rows, row.id ∈ (interrupted db k).referenced := by
    rw [hrows]
    exact not_referenced_converted href hreferenced
  obtain ⟨db₁, hrun, hhas, hreferenced₁⟩ := exists_runMigrations hpre href₁
  rw [restarts_iff_of_rerun hrun hhas rfl (not_referenced_converted href₁ hreferenced₁) hone,
    converted_eq_iff hrows htenant]

/-- **Where the migration can be interrupted.** The next run gives the table that one run gives,
with every amount converted once, exactly at the restartable boundaries. -/
theorem migration_restarts_iff (h : PreMigration db t) (k : ℕ) :
    Restarts db t k ↔ Restartable db t k := by
  by_cases href : ∃ row ∈ t.rows, row.id ∈ db.referenced
  · -- no run gets beyond the old table
    obtain ⟨t₁, h₁⟩ : ∃ t₁, Unconverted db t (interrupted db k) t₁ := by
      obtain hk | hk := Nat.lt_or_ge 6 k
      · obtain ⟨db', t', h', hrun⟩ := exists_run_of_referenced h href
        refine ⟨t', ?_⟩
        rwa [interrupted, hrun k hk]
      · exact exists_unconverted_interrupted h hk
    refine iff_of_false (fun hrestarts ↦ ?_) fun hrestartable ↦ ?_
    · exact runMigrations_referenced h₁.toPreMigration (h₁.referenced_iff.mpr href)
        hrestarts.completes
    · obtain ⟨row, hrow, hid⟩ := href
      exact hrestartable.unreferenced row hrow hid
  have hunreferenced : ∀ row ∈ t.rows, row.id ∉ db.referenced :=
    fun row hrow hid ↦ href ⟨row, hrow, hid⟩
  obtain ⟨db₀, hrun₀, hhas₀, -⟩ := exists_runMigrations h href
  have hone : (runMigrations db).1.tables .transactions = some t.converted := by
    rw [hrun₀]
    exact hhas₀.table
  obtain hk | rfl | hk | hk : k ≤ 6 ∨ k = 7 ∨ (k = 8 ∨ k = 9) ∨ 10 ≤ k := by omega
  · rw [restarts_iff_of_le_six h href hone hk]
    exact ⟨fun hrange ↦ ⟨hunreferenced, hrange, .inl hk⟩, (·.inRange)⟩
  · refine iff_of_false (not_restarts_seven h href) fun hrestartable ↦ ?_
    have := hrestartable.boundary
    omega
  · rw [restarts_iff_of_eight_nine h href hone hk]
    have htwice (hrange : ∀ row ∈ t.rows, -2 ^ 63 ≤ row.stroops ∧ row.stroops ≤ 2 ^ 63 - 1) :
        (∀ row ∈ t.rows, toStroops (toStroops row.amount) = toStroops row.amount) ↔
          ∀ row ∈ t.rows, row.stroops = 0 ∨ row.stroops = -2 ^ 63 ∨ row.stroops = 2 ^ 63 - 1 := by
      refine forall₂_congr fun row hrow ↦ ?_
      rw [(toStroops_eq_stroops_iff row).mpr (hrange row hrow), toStroops_intCast_eq_iff]
    constructor
    · rintro ⟨hsame, hrange⟩
      exact ⟨hunreferenced, hrange, .inr (.inr ⟨by omega, (htwice hrange).mp hsame⟩)⟩
    · intro hrestartable
      have hends := hrestartable.boundary.resolve_left (by omega) |>.resolve_left (by omega)
      exact ⟨(htwice hrestartable.inRange).mpr hends.2, hrestartable.inRange⟩
  · rw [restarts_iff_of_ten_le h href hone hk]
    exact ⟨fun hrange ↦ ⟨hunreferenced, hrange, .inr (.inl hk)⟩, (·.inRange)⟩

/-! ## A table with one row -/

def sampleRow : Row Unit := ⟨1, 1, 2, 5 / 2, some "key", none, none, "default", none, ()⟩

def sampleTable : Table Unit := ⟨false, true, true, [sampleRow]⟩

def sampleDb : Db Unit where
  tables name := if name = .transactions then some sampleTable else none
  users := [1, 2]
  campaigns := []
  referenced := []
  applied := false

theorem preMigration_sampleDb : PreMigration sampleDb sampleTable where
  table := rfl
  distinct := by decide
  refers := by decide
  pending := rfl

/-- Interrupted after the old table has been dropped, the migration fails when it is run again; one
statement later, it converts the amount twice. -/
theorem migration_not_restartable :
    ¬Restarts sampleDb sampleTable 7 ∧ ¬Restarts sampleDb sampleTable 8 := by
  constructor
  · intro h
    exact absurd h.completes (by decide)
  · intro h
    exact absurd h.same (by decide +kernel)

/-- Interrupted after the amount has been converted, it can be run again. -/
theorem migration_restarts_at : Restarts sampleDb sampleTable 3 :=
  (migration_restarts_iff preMigration_sampleDb 3).mpr
    ⟨by decide, by decide +kernel, .inl (by decide)⟩

end StellarDonations.AmountMigration
