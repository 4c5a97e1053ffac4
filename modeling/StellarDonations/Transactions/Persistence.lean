import StellarDonations.Containers.Log
import StellarDonations.Transactions.Memory

/-!
# The table and the writes under way

The table together with the writes under way is a log of the objects that were persisted. Executing
a write moves an object from the second part of the log to the first; a load brings into the maps
what the first part held when it was read.
-/

namespace StellarDonations.Transactions

open Concurrency JsString Log

/-! ## Loads and writes under way -/

namespace Memory

/-- The objects a load has read and not yet put into the maps. -/
def arriving (m : Memory) : List Object :=
  match m.load with
  | .read data => data
  | .idle | .selecting => []

def hasRead (m : Memory) : Bool :=
  match m.load with
  | .read _ => true
  | .idle | .selecting => false

/-- The database accepts a write of the object. -/
def accepts (rows : List ObjectRow) (tx : Object) : Bool :=
  match outcome rows tx with
  | .written _ => true
  | .failed _ => false

end Memory

/-! ## The log -/

def RowsFiled (rows : List ObjectRow) : Prop := ∀ row ∈ rows, row.columns.id = row.data.id

namespace Memory

variable {m : Memory}

/-- The objects persisted: those of the table, and those of the writes under way. -/
def log (m : Memory) : List Object := m.rows.map (·.data) ++ m.writes.map (·.2)

/-- The latest object persisted for an id. -/
def logged (m : Memory) (id : String) : Option Object := latest (fun tx : Object ↦ tx.id) m.log id

theorem mem_log {tx : Object} :
    tx ∈ m.log ↔ (∃ row ∈ m.rows, row.data = tx) ∨ ∃ w ∈ m.writes, w.2 = tx := by
  rw [log, List.mem_append, List.mem_map, List.mem_map]

theorem log_congr {m' : Memory} (hrows : m'.rows = m.rows) (hwrites : m'.writes = m.writes) :
    m'.log = m.log := by
  rw [log, log, hrows, hwrites]

theorem arriving_congr {m' : Memory} (hload : m'.load = m.load) : m'.arriving = m.arriving := by
  rw [arriving, hload]
  rfl

theorem mem_log_concat {m' : Memory} (hrows : m'.rows = m.rows) {r : ℕ} {new : Object}
    (hwrites : m'.writes = m.writes ++ [(r, new)]) (tx : Object) :
    tx ∈ m'.log ↔ tx ∈ m.log ∨ tx = new := by
  rw [log, hrows, hwrites, List.map_append, ← List.append_assoc, List.mem_append]
  exact or_congr Iff.rfl List.mem_singleton

theorem mem_log_of_eraseIdx {n : ℕ} {tx : Object}
    (h : tx ∈ log { m with writes := m.writes.eraseIdx n }) : tx ∈ m.log := by
  rcases mem_log.mp h with hrow | ⟨w, hw, rfl⟩
  · exact mem_log.mpr (.inl hrow)
  · exact mem_log.mpr (.inr ⟨w, List.mem_of_mem_eraseIdx hw, rfl⟩)

theorem upsert_data {rows : List ObjectRow} (h : RowsFiled rows) (tx : Object) :
    (upsert rows tx).map (·.data) = put (fun tx : Object ↦ tx.id) (rows.map (·.data)) tx := by
  have hid : ∀ row ∈ rows, (row.columns.id = tx.toRow.id ↔ row.data.id = tx.id) := by
    intro row hrow
    rw [h row hrow]
    rfl
  have hany : rows.any (·.columns.id = tx.toRow.id) = (rows.map (·.data)).any (·.id = tx.id) := by
    rw [List.any_map, Bool.eq_iff_iff, List.any_eq_true, List.any_eq_true]
    refine exists_congr fun row ↦ and_congr_right fun hrow ↦ ?_
    simpa using hid row hrow
  rw [upsert, put, ← hany]
  split_ifs
  · rw [List.map_map, List.map_map]
    refine List.map_congr_left fun row hrow ↦ ?_
    by_cases heq : row.data.id = tx.id
    · simp [heq, (hid row hrow).mpr heq]
    · simp [heq, mt (hid row hrow).mp heq]
  · rw [List.map_append]
    rfl

theorem mem_upsert {rows : List ObjectRow} {tx : Object} {row : ObjectRow}
    (h : row ∈ upsert rows tx) :
    row ∈ rows ∨ row = ⟨tx.toRow, tx⟩ ∨
      ∃ old ∈ rows, old.columns.id = tx.id ∧ row.data = tx ∧ row.columns.id = old.columns.id ∧
        row.columns.idempotencyKey = old.columns.idempotencyKey := by
  rw [upsert] at h
  split_ifs at h
  · obtain ⟨old, hold, rfl⟩ := List.mem_map.mp h
    split_ifs with heq
    · exact .inr (.inr ⟨old, hold, heq, rfl, rfl, rfl⟩)
    · exact .inl hold
  · rcases List.mem_append.mp h with hmem | hmem
    · exact .inl hmem
    · exact .inr (.inl (List.mem_singleton.mp hmem))

theorem exists_mem_upsert {rows : List ObjectRow} {row : ObjectRow} (hrow : row ∈ rows)
    (tx : Object) :
    ∃ row' ∈ upsert rows tx, row' = row ∨ row'.data = tx ∧ row.columns.id = tx.id := by
  rw [upsert]
  split_ifs
  · refine ⟨_, List.mem_map_of_mem hrow, ?_⟩
    split_ifs with heq
    · exact .inr ⟨rfl, heq⟩
    · exact .inl rfl
  · exact ⟨row, List.mem_append_left _ hrow, .inl rfl⟩

theorem exists_mem_upsert_self (rows : List ObjectRow) (tx : Object) :
    ∃ row ∈ upsert rows tx, row.data = tx := by
  rw [upsert]
  split_ifs with hany
  · obtain ⟨row, hrow, hid⟩ := List.any_eq_true.mp hany
    refine ⟨_, List.mem_map_of_mem hrow, ?_⟩
    rw [if_pos (of_decide_eq_true hid)]
  · exact ⟨_, List.mem_append_right _ List.mem_cons_self, rfl⟩

theorem rowsFiled_upsert {rows : List ObjectRow} (h : RowsFiled rows) (tx : Object) :
    RowsFiled (upsert rows tx) := by
  intro row hrow
  rcases mem_upsert hrow with hmem | rfl | ⟨old, hold, hid, hdata, hcolumn, -⟩
  · exact h row hmem
  · rfl
  · rw [hcolumn, hid, hdata]

theorem find_loadAll (h : WellFormed m) (data : List Object) (id : String) :
    (m.loadAll data).find id = (latest (fun tx : Object ↦ tx.id) data id).or (m.find id) := by
  induction data generalizing m with
  | nil => rfl
  | cons tx data ih =>
    rw [loadAll, List.foldl_cons]
    refine (ih (h.loadOne tx)).trans ?_
    rw [latest_cons, find_loadOne h]
    by_cases hid : id = tx.id
    · simp [hid]
    · simp [hid, Ne.symm hid]

theorem outcome_of_accepts {rows : List ObjectRow} {tx : Object} (h : accepts rows tx = true) :
    outcome rows tx = .written (upsert rows tx) := by
  rcases outcome_eq rows tx with hwritten | ⟨e, hfailed, -⟩
  · exact hwritten
  · rw [accepts, hfailed] at h
    cases h

theorem writes_split {n : ℕ} {r : ℕ} {tx : Object} (hwrite : m.writes[n]? = some (r, tx)) :
    m.writes.map (·.2) =
      (m.writes.take n).map (·.2) ++ tx :: (m.writes.drop (n + 1)).map (·.2) := by
  obtain ⟨hn, hget⟩ := List.getElem?_eq_some_iff.mp hwrite
  conv_lhs => rw [← List.take_append_drop n m.writes, ← List.getElem_cons_drop hn, hget]
  rw [List.map_append, List.map_cons]

/-- A write executed in order leaves the log as it was. -/
theorem logged_execute (hrows : RowsFiled m.rows) {n : ℕ} {r : ℕ} {tx : Object}
    (hwrite : m.writes[n]? = some (r, tx)) (horder : ∀ w ∈ m.writes.take n, w.2.id ≠ tx.id)
    (id : String) :
    logged { m with writes := m.writes.eraseIdx n, rows := upsert m.rows tx } id = m.logged id := by
  have hother : ∀ tx' ∈ (m.writes.take n).map (·.2), tx'.id ≠ tx.id := by
    intro tx' htx'
    obtain ⟨w, hw, rfl⟩ := List.mem_map.mp htx'
    exact horder w hw
  calc latest (fun tx : Object ↦ tx.id)
        ((upsert m.rows tx).map (·.data) ++ (m.writes.eraseIdx n).map (·.2)) id
      = latest (fun tx : Object ↦ tx.id) (m.rows.map (·.data) ++ [tx] ++
          ((m.writes.take n).map (·.2) ++ (m.writes.drop (n + 1)).map (·.2))) id := by
        rw [latest_append, upsert_data hrows, latest_put, ← latest_append,
          List.eraseIdx_eq_take_drop_succ, List.map_append]
    _ = m.logged id := by
        rw [latest_move hother, ← writes_split hwrite]
        rfl

theorem mem_log_of_writes {n : ℕ} {r : ℕ} {tx : Object} (hwrite : m.writes[n]? = some (r, tx)) :
    tx ∈ m.log :=
  mem_log.mpr (.inr ⟨_, List.mem_of_getElem? hwrite, rfl⟩)

theorem mem_log_of_upsert {n : ℕ} {r : ℕ} {tx tx' : Object} (hwrite : m.writes[n]? = some (r, tx))
    (h : tx' ∈ log { m with writes := m.writes.eraseIdx n, rows := upsert m.rows tx }) :
    tx' ∈ m.log := by
  have htx : tx ∈ m.log := mem_log_of_writes hwrite
  rcases mem_log.mp h with ⟨row, hrow, rfl⟩ | ⟨w, hw, rfl⟩
  · rcases mem_upsert hrow with hold | rfl | ⟨old, -, -, hdata, -⟩
    · exact mem_log.mpr (.inl ⟨row, hold, rfl⟩)
    · exact htx
    · exact hdata ▸ htx
  · exact mem_log.mpr (.inr ⟨w, List.mem_of_mem_eraseIdx hw, rfl⟩)

theorem insertNew_log (m : Memory) (tx : Object) :
    (m.insertNew tx).writes = m.writes ++ [(m.next, tx)] ∧ (m.insertNew tx).rows = m.rows ∧
      (m.insertNew tx).load = m.load := by
  rw [insertNew, setIndex]
  split <;> exact ⟨rfl, rfl, rfl⟩

/-! ## What a load brings -/

theorem load_beginReload (h : m.hasRead = false) : m.beginReload.load = .selecting := by
  rw [beginReload]
  cases hload : m.load with
  | idle | selecting => rfl
  | read data =>
    rw [hasRead, hload] at h
    cases h

theorem finishLoad_of_read {data : List Object} (hload : m.load = .read data) :
    m.finishLoad = { m.loadAll data with load := .idle } := by
  rw [finishLoad, hload]

theorem arriving_of_read {data : List Object} (hload : m.load = .read data) :
    m.arriving = data := by
  rw [arriving, hload]

theorem loadAll_writes (m : Memory) (data : List Object) :
    (m.loadAll data).writes = m.writes ∧ (m.loadAll data).rows = m.rows := by
  induction data generalizing m with
  | nil => exact ⟨rfl, rfl⟩
  | cons tx data ih =>
    have hone : (m.loadOne tx).writes = m.writes ∧ (m.loadOne tx).rows = m.rows := by
      rw [loadOne, setIndex]
      split <;> exact ⟨rfl, rfl⟩
    exact ⟨(ih _).1.trans hone.1, (ih _).2.trans hone.2⟩

end Memory

end StellarDonations.Transactions
