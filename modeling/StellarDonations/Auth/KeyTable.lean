import Mathlib.Data.List.Nodup
import StellarDonations.Auth.ApiKeys

/-!
# The table of the API keys

The rows of `api_keys` with all the columns that the management of the keys reads, and the shape of
the statements that change them: an `UPDATE` assigns columns other than the two that identify a row,
in the rows that its `WHERE` selects.
-/

namespace StellarDonations.ApiKeys

/-! ## Rows and statements -/

/-- A row of `api_keys` as the functions that manage the keys read it. -/
structure ManagedRow extends KeyRow where
  createdBy : Option String
  deprecatedAt : Option ℤ
  revokedAt : Option ℤ
  rotatedToId : Option ℕ
  deriving DecidableEq

/-- The `SET` of an `UPDATE`. -/
structure Assignment where
  apply : ManagedRow → ManagedRow
  id_apply : ∀ r, (apply r).id = r.id
  keyHash_apply : ∀ r, (apply r).keyHash = r.keyHash

/-- The table, with its primary key, which is never given twice, and its unique hashes. -/
structure KeyTable where
  rows : List ManagedRow
  nextId : ℕ
  ids : (rows.map (·.id)).Nodup
  hashes : (rows.map (·.keyHash)).Nodup
  lt_nextId : ∀ id ∈ rows.map (·.id), id < nextId

namespace Assignment

/-- The assignment in the rows that a `WHERE` selects. -/
def on (f : Assignment) (p : ManagedRow → Bool) : ManagedRow → ManagedRow :=
  fun r ↦ if p r then f.apply r else r

variable (f : Assignment) (p : ManagedRow → Bool) (r : ManagedRow)

@[simp] theorem id_on : (f.on p r).id = r.id := by
  rw [on]
  split_ifs
  · exact f.id_apply r
  · rfl

@[simp] theorem keyHash_on : (f.on p r).keyHash = r.keyHash := by
  rw [on]
  split_ifs
  · exact f.keyHash_apply r
  · rfl

end Assignment

namespace KeyTable

variable (t : KeyTable) (p : ManagedRow → Bool) (f : Assignment)

theorem map_id_update : (t.rows.map (f.on p)).map (·.id) = t.rows.map (·.id) := by
  rw [List.map_map]
  exact List.map_congr_left fun r _ ↦ f.id_on p r

theorem map_keyHash_update : (t.rows.map (f.on p)).map (·.keyHash) = t.rows.map (·.keyHash) := by
  rw [List.map_map]
  exact List.map_congr_left fun r _ ↦ f.keyHash_on p r

/-- `UPDATE api_keys SET … WHERE …`. -/
def update : KeyTable where
  rows := t.rows.map (f.on p)
  nextId := t.nextId
  ids := (t.map_id_update p f).symm ▸ t.ids
  hashes := (t.map_keyHash_update p f).symm ▸ t.hashes
  lt_nextId := (t.map_id_update p f).symm ▸ t.lt_nextId

/-- `result.changes` of such an `UPDATE`. -/
def changes : ℕ := t.rows.countP p

/-- `SELECT … WHERE key_hash = ?`. -/
def byHash (keyHash : String) : Option ManagedRow := t.rows.find? (·.keyHash = keyHash)

def byId (id : ℕ) : Option ManagedRow := t.rows.find? (·.id = id)

theorem byHash_update (keyHash : String) :
    (t.update p f).byHash keyHash = (t.byHash keyHash).map (f.on p) := by
  rw [byHash, byHash, update, List.find?_map]
  congr 2
  funext r
  rw [Function.comp_apply, Assignment.keyHash_on]

theorem byId_update (id : ℕ) : (t.update p f).byId id = (t.byId id).map (f.on p) := by
  rw [byId, byId, update, List.find?_map]
  congr 2
  funext r
  rw [Function.comp_apply, Assignment.id_on]

def single (row : ManagedRow) : KeyTable where
  rows := [row]
  nextId := row.id + 1
  ids := List.nodup_singleton _
  hashes := List.nodup_singleton _
  lt_nextId id hid := by
    rw [List.mem_singleton.mp hid]
    exact Nat.lt_succ_self row.id

/-- The row of an `INSERT` that the table will hold. -/
def stored (row : ManagedRow) : ManagedRow := { row with id := t.nextId }

@[simp] theorem stored_id (row : ManagedRow) : (t.stored row).id = t.nextId := rfl

theorem nodup_id_insert (row : ManagedRow) :
    ((t.rows ++ [t.stored row]).map (·.id)).Nodup := by
  rw [List.map_append, List.nodup_append]
  refine ⟨t.ids, List.nodup_singleton _, fun id hid id' hid' ↦ ?_⟩
  rw [List.map_singleton, List.mem_singleton] at hid'
  rw [hid', stored_id]
  exact (t.lt_nextId id hid).ne

theorem nodup_keyHash_insert {row : ManagedRow} (h : row.keyHash ∉ t.rows.map (·.keyHash)) :
    ((t.rows ++ [t.stored row]).map (·.keyHash)).Nodup := by
  rw [List.map_append, List.nodup_append]
  refine ⟨t.hashes, List.nodup_singleton _, fun keyHash hmem keyHash' hmem' ↦ ?_⟩
  rw [List.map_singleton, List.mem_singleton] at hmem'
  rintro rfl
  rw [hmem'] at hmem
  exact h hmem

theorem lt_nextId_insert (row : ManagedRow) :
    ∀ id ∈ (t.rows ++ [t.stored row]).map (·.id), id < t.nextId + 1 := by
  intro id hid
  rw [List.map_append, List.mem_append] at hid
  rcases hid with hid | hid
  · exact Nat.lt_succ_of_lt (t.lt_nextId id hid)
  · rw [List.map_singleton, List.mem_singleton, stored_id] at hid
    exact hid ▸ Nat.lt_succ_self t.nextId

/-- `INSERT INTO api_keys`, with an id that has not been given before. The hashes are unique. -/
def insert (row : ManagedRow) : Option KeyTable :=
  if h : row.keyHash ∈ t.rows.map (·.keyHash) then none
  else some ⟨t.rows ++ [t.stored row], t.nextId + 1, t.nodup_id_insert row,
    t.nodup_keyHash_insert h, t.lt_nextId_insert row⟩

variable {t}

theorem insert_eq_some {t' : KeyTable} {row : ManagedRow} (h : t.insert row = some t') :
    row.keyHash ∉ t.rows.map (·.keyHash) := by
  intro hmem
  rw [insert, dif_pos hmem] at h
  cases h

theorem exists_insert {row : ManagedRow} (h : row.keyHash ∉ t.rows.map (·.keyHash)) :
    ∃ t', t.insert row = some t' := by
  rw [insert, dif_neg h]
  exact ⟨_, rfl⟩

theorem byId_insert {t' : KeyTable} {row : ManagedRow} (h : t.insert row = some t') (id : ℕ) :
    t'.byId id = (t.byId id).or (if id = t.nextId then some (t.stored row) else none) := by
  rw [insert] at h
  split_ifs at h
  cases h
  rw [byId, byId, List.find?_append, List.find?_singleton]
  congr 1
  rw [stored_id]
  by_cases hid : id = t.nextId
  · rw [if_pos hid, if_pos (decide_eq_true hid.symm)]
  · rw [if_neg hid, if_neg fun heq ↦ hid (of_decide_eq_true heq).symm]

theorem mem_of_byHash {keyHash : String} {r : ManagedRow} (h : t.byHash keyHash = some r) :
    r ∈ t.rows ∧ r.keyHash = keyHash := by
  rw [byHash] at h
  have hhash := List.find?_some h
  exact ⟨List.mem_of_find?_eq_some h, of_decide_eq_true hhash⟩

theorem mem_of_byId {id : ℕ} {r : ManagedRow} (h : t.byId id = some r) :
    r ∈ t.rows ∧ r.id = id := by
  rw [byId] at h
  have hid := List.find?_some h
  exact ⟨List.mem_of_find?_eq_some h, of_decide_eq_true hid⟩

theorem byId_of_mem {r : ManagedRow} (h : r ∈ t.rows) : t.byId r.id = some r := by
  cases hfound : t.byId r.id with
  | none => exact absurd (List.find?_eq_none.mp hfound r h) (by simp)
  | some r' =>
    obtain ⟨hmem, hid⟩ := mem_of_byId hfound
    exact congrArg some (List.inj_on_of_nodup_map t.ids hmem h hid)

end KeyTable

/-! ## The assignments -/

def setQuotaReset (nextReset : ℤ) : Assignment where
  apply r := { r with quotaUsed := 0, quotaResetAt := some nextReset }
  id_apply _ := rfl
  keyHash_apply _ := rfl

def setLastUsed (now : ℤ) : Assignment where
  apply r := { r with lastUsedAt := some now }
  id_apply _ := rfl
  keyHash_apply _ := rfl

def setRevoked (now : ℤ) : Assignment where
  apply r := { r with status := .revoked, revokedAt := some now }
  id_apply _ := rfl
  keyHash_apply _ := rfl

end StellarDonations.ApiKeys
