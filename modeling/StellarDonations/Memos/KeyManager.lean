import Mathlib.Data.List.MinMax
import Mathlib.Data.List.Nodup
import StellarDonations.Concurrency.Run
import StellarDonations.Errors
import StellarDonations.Text.JsString

/-!
# Memo keys

The keys that memos are encrypted with, as `memoKeyManager` keeps them in an index file. Every
function reads the file first. A file that cannot be read or parsed counts as one that does not
exist, and `initializeKeyStorage` then writes a new index, with a new key for version 1, over the
old one. It does so after one failed read; the other functions call it when their own read has
failed, and read twice.

As long as no existing index is written over in this way, every key that was ever active stays in
the index (`memo_keys_kept_iff`).
-/

namespace StellarDonations.MemoKeys

open Concurrency JsString

/-! ## The index -/

/-- An entry of the index, in the present format or with the fields `keyMaterial` and `status` of
the earlier one. `retiredAt` may be missing, `null`, or a time. -/
structure KeyEntry where
  version : ℕ
  key : Option String
  keyMaterial : Option String
  createdAt : ℕ
  retiredAt : Option (Option ℕ)
  status : Option String
  deriving DecidableEq

/-- The index; an active version of 0 stands for a missing one. -/
structure Index where
  activeVersion : ℕ
  keys : List KeyEntry
  deriving DecidableEq

/-- `keyEntry.key || keyEntry.keyMaterial`. -/
def KeyEntry.material (k : KeyEntry) : Option String := (orNull k.key).or (orNull k.keyMaterial)

def KeyEntry.lacksRetiredAt (k : KeyEntry) : Bool := k.retiredAt.join.isNone

/-- The key is not retired, in either format. -/
def KeyEntry.isUnretired (k : KeyEntry) : Bool :=
  k.lacksRetiredAt && !(k.retiredAt.isNone && k.status = some "retired")

def Index.materials (index : Index) : List (ℕ × String) :=
  index.keys.filterMap fun k ↦ k.material.map (k.version, ·)

def Index.activeKeys (index : Index) : List (ℕ × String) :=
  index.materials.filter (·.1 = index.activeVersion)

/-- The index file, if there is one, and the versions that were ever active with their keys. -/
structure Store where
  file : Option Index
  active : List (ℕ × String)
  deriving DecidableEq

/-! ## The functions -/

/-- `loadKeysIndex`, which fails when the file cannot be read or is truncated. -/
def loadKeysIndex (st : Store) (fails : Bool) : Option Index := if fails then none else st.file

def saveKeysIndex (st : Store) (index : Index) : Store :=
  ⟨some index, st.active ++ index.activeKeys⟩

/-- The index that `initializeKeyStorage` starts with. -/
def initialIndex (key : String) (now : ℕ) : Index :=
  ⟨1, [⟨1, some key, none, now, some none, none⟩]⟩

def KeyEntry.hasOldKey (k : KeyEntry) : Bool := k.keyMaterial.isSome && k.key.isNone

def KeyEntry.hasOldStatus (k : KeyEntry) : Bool := k.status.isSome && k.retiredAt.isNone

/-- What `initializeKeyStorage` makes of an entry of the earlier format. -/
def migrateKey (now : ℕ) (k : KeyEntry) : KeyEntry :=
  let updated := if k.hasOldKey then { k with key := k.keyMaterial, keyMaterial := none } else k
  if updated.hasOldStatus then
    { updated with
      retiredAt := some (if updated.status = some "retired" then some now else none)
      status := none }
  else updated

def Index.migrated (index : Index) (now : ℕ) : Index :=
  { index with keys := index.keys.map (migrateKey now) }

def initializeKeyStorage (st : Store) (fails : Bool) (key : String) (now : ℕ) : Index × Store :=
  match loadKeysIndex st fails with
  | none => (initialIndex key now, saveKeysIndex st (initialIndex key now))
  | some index =>
    (index.migrated now,
      if index.keys.any fun k ↦ k.hasOldKey || k.hasOldStatus then
        saveKeysIndex st (index.migrated now)
      else st)

/-- `loadKeysIndex() || initializeKeyStorage()`. -/
def loadOrInitialize (st : Store) (fails fails' : Bool) (key : String) (now : ℕ) : Index × Store :=
  match loadKeysIndex st fails with
  | some index => (index, st)
  | none => initializeKeyStorage st fails' key now

structure Env where
  /-- Which of the reads of the call fail. -/
  fails : ℕ → Bool
  /-- `crypto.randomBytes(32)`, each time a key is generated. -/
  randomBytes : ℕ → Vector UInt8 32
  now : ℕ

def Env.randomKey (env : Env) (n : ℕ) : String := toHex (env.randomBytes n).toList

def getActiveKeyVersion (st : Store) (env : Env) : ℕ × Store :=
  let (index, st) := loadOrInitialize st (env.fails 0) (env.fails 1) (env.randomKey 0) env.now
  (if index.activeVersion = 0 then 1 else index.activeVersion, st)

def getKeyMaterial (st : Store) (version : ℕ) (env : Env) : Except AppError (List ℕ) × Store :=
  let (index, st) := loadOrInitialize st (env.fails 0) (env.fails 1) (env.randomKey 0) env.now
  match index.keys.find? (·.version = version) with
  | none => (.error (.plain ("Key version " ++ Nat.repr version ++ " not found")), st)
  | some k =>
    match (orNull k.key).or k.keyMaterial with
    | none => (.error (.wrongType "The first argument must be of type string"), st)
    | some rawKey => (.ok (bufferFromHex rawKey), st)

/-- The environment of the second half of a call. -/
def Env.rest (env : Env) : Env :=
  ⟨fun n ↦ env.fails (n + 2), fun n ↦ env.randomBytes (n + 1), env.now⟩

def getActiveKeyMaterial (st : Store) (env : Env) : Except AppError (List ℕ) × Store :=
  let (version, st) := getActiveKeyVersion st env
  getKeyMaterial st version env.rest

def getAllKeyVersions (st : Store) (env : Env) : List (ℕ × ℕ × Option ℕ) × Store :=
  let (index, st) := loadOrInitialize st (env.fails 0) (env.fails 1) (env.randomKey 0) env.now
  (index.keys.map fun k ↦ (k.version, k.createdAt, k.retiredAt.join), st)

def KeyEntry.retire (now : ℕ) (k : KeyEntry) : KeyEntry :=
  if k.lacksRetiredAt then { k with retiredAt := some (some now) } else k

def rotatedIndex (index : Index) (key : String) (now : ℕ) : Index :=
  let newVersion := (index.keys.map (·.version)).foldr max 0 + 1
  { activeVersion := newVersion
    keys := index.keys.map (KeyEntry.retire now) ++
      [⟨newVersion, some key, none, now, some none, none⟩] }

def rotateKey (st : Store) (env : Env) : ℕ × Store :=
  let (index, st) := loadOrInitialize st (env.fails 0) (env.fails 1) (env.randomKey 0) env.now
  let rotated := rotatedIndex index (env.randomKey 1) env.now
  (rotated.activeVersion, saveKeysIndex st rotated)

inductive Op where
  | initializeKeyStorage
  | getActiveKeyVersion
  | getKeyMaterial (version : ℕ)
  | getActiveKeyMaterial
  | getAllKeyVersions
  | rotateKey

def step (st : Store) : Op × Env → Store
  | (.initializeKeyStorage, env) =>
    (initializeKeyStorage st (env.fails 0) (env.randomKey 0) env.now).2
  | (.getActiveKeyVersion, env) => (getActiveKeyVersion st env).2
  | (.getKeyMaterial version, env) => (getKeyMaterial st version env).2
  | (.getActiveKeyMaterial, env) => (getActiveKeyMaterial st env).2
  | (.getAllKeyVersions, env) => (getAllKeyVersions st env).2
  | (.rotateKey, env) => (rotateKey st env).2

/-! ## What must hold -/

/-- The keys that were ever active are in the index, the versions are distinct, and the active one
is the only one that is not retired. -/
structure Index.Keeps (index : Index) (active : List (ℕ × String)) : Prop where
  kept : ∀ p ∈ active, p ∈ index.materials
  versions : (index.keys.map (·.version)).Nodup
  unretired : ∀ k ∈ index.keys, k.isUnretired = true ↔ k.version = index.activeVersion
  exists_active : ∃ k ∈ index.keys, k.version = index.activeVersion

def Kept (st : Store) : Prop :=
  match st.file with
  | none => st.active = []
  | some index => index.Keeps st.active

/-- The call writes a new index over an existing one. -/
def Reinitializes (st : Store) : Op × Env → Prop
  | (.initializeKeyStorage, env) => st.file ≠ none ∧ env.fails 0 = true
  | (.getActiveKeyMaterial, env) =>
    (st.file ≠ none ∧ env.fails 0 = true ∧ env.fails 1 = true) ∨
      (env.fails 2 = true ∧ env.fails 3 = true)
  | (_, env) => st.file ≠ none ∧ env.fails 0 = true ∧ env.fails 1 = true

def NewKeys (st : Store) (a : Op × Env) : Prop :=
  a.2.randomKey 0 ≠ a.2.randomKey 1 ∧
    ∀ p ∈ st.active, p.2 ≠ a.2.randomKey 0 ∧ p.2 ≠ a.2.randomKey 1

/-- A store as earlier runs leave it, in either format: every key has its material. -/
structure Index.WellFormed (index : Index) : Prop where
  keeps : index.Keeps []
  material : ∀ k ∈ index.keys, k.material.isSome = true

/-- The store at the start, whose keys were all active once. -/
def start (file : Option Index) : Store := ⟨file, (file.map Index.materials).getD []⟩

/-! ## Entries -/

theorem randomKey_ne_empty (env : Env) (n : ℕ) : env.randomKey n ≠ "" := by
  intro h
  have hlength : (env.randomKey n).length = 2 * 32 := by
    rw [Env.randomKey, length_toHex, Vector.length_toList]
  rw [h] at hlength
  cases hlength

theorem material_of_key (env : Env) (n : ℕ) {k : KeyEntry} (h : k.key = some (env.randomKey n)) :
    k.material = some (env.randomKey n) := by
  simp only [KeyEntry.material, h, orNull]
  rw [Option.filter_some, if_pos (decide_eq_true (randomKey_ne_empty env n))]
  rfl

section Entries

variable (now : ℕ) (k : KeyEntry)

@[simp] theorem migrateKey_version : (migrateKey now k).version = k.version := by
  simp only [migrateKey]
  split_ifs <;> rfl

@[simp] theorem migrateKey_material : (migrateKey now k).material = k.material := by
  simp only [migrateKey]
  split_ifs with hkey
  all_goals
    simp_all [KeyEntry.material, KeyEntry.hasOldKey]

@[simp] theorem migrateKey_isUnretired : (migrateKey now k).isUnretired = k.isUnretired := by
  simp only [migrateKey]
  split_ifs
  all_goals
    simp_all [KeyEntry.isUnretired, KeyEntry.lacksRetiredAt, KeyEntry.hasOldStatus]

theorem migrateKey_eq_self (h : (k.hasOldKey || k.hasOldStatus) = false) :
    migrateKey now k = k := by
  obtain ⟨hkey, hstatus⟩ := Bool.or_eq_false_iff.mp h
  simp only [migrateKey, hkey, hstatus, Bool.false_eq_true, if_false]

end Entries

/-! ## Indexes -/

section Indexes

variable {index : Index} {active : List (ℕ × String)} {now : ℕ}

theorem mem_materials {p : ℕ × String} :
    p ∈ index.materials ↔ ∃ k ∈ index.keys, k.version = p.1 ∧ k.material = some p.2 := by
  obtain ⟨version, key⟩ := p
  rw [Index.materials, List.mem_filterMap]
  refine exists_congr fun k ↦ and_congr_right fun _ ↦ ?_
  cases k.material with
  | none => simp
  | some m => simp

theorem activeKeys_subset : ∀ p ∈ index.activeKeys, p ∈ index.materials :=
  fun _ hp ↦ (List.mem_filter.mp hp).1

theorem materials_initialIndex (env : Env) (n : ℕ) :
    (initialIndex (env.randomKey n) now).materials = [(1, env.randomKey n)] := by
  simp [Index.materials, initialIndex, KeyEntry.material, orNull, randomKey_ne_empty]

theorem materials_migrated : (index.migrated now).materials = index.materials := by
  rw [Index.materials, Index.migrated, List.filterMap_map]
  exact List.filterMap_congr fun k _ ↦ by simp

theorem versions_migrated :
    (index.migrated now).keys.map (·.version) = index.keys.map (·.version) := by
  rw [Index.migrated, List.map_map]
  exact List.map_congr_left fun k _ ↦ migrateKey_version now k

theorem Index.Keeps.migrated (h : index.Keeps active) : (index.migrated now).Keeps active where
  kept p hp := by
    rw [materials_migrated]
    exact h.kept p hp
  versions := by
    rw [versions_migrated]
    exact h.versions
  unretired k hk := by
    obtain ⟨k, hmem, rfl⟩ := List.mem_map.mp hk
    rw [migrateKey_isUnretired, migrateKey_version]
    exact h.unretired k hmem
  exists_active := by
    obtain ⟨k, hk, hversion⟩ := h.exists_active
    exact ⟨_, List.mem_map_of_mem hk, (migrateKey_version now k).trans hversion⟩

theorem keeps_initialIndex (env : Env) (n : ℕ) (hactive : ∀ p ∈ active, p = (1, env.randomKey n)) :
    (initialIndex (env.randomKey n) now).Keeps active where
  kept p hp := by
    rw [materials_initialIndex, hactive p hp]
    exact List.mem_singleton_self _
  versions := List.nodup_singleton 1
  unretired k hk := by
    obtain rfl := List.mem_singleton.mp hk
    exact iff_of_true rfl rfl
  exists_active := ⟨_, List.mem_singleton_self _, rfl⟩

/-- Saving an index makes its active key one that was ever active. -/
theorem Index.Keeps.append (h : index.Keeps active) : index.Keeps (active ++ index.activeKeys) where
  kept p hp := by
    rcases List.mem_append.mp hp with hp | hp
    · exact h.kept p hp
    · exact activeKeys_subset p hp
  versions := h.versions
  unretired := h.unretired
  exists_active := h.exists_active

/-! ### Rotation -/

theorem version_lt_rotatedIndex {k : KeyEntry} (hk : k ∈ index.keys) (key : String) :
    k.version < (rotatedIndex index key now).activeVersion := by
  have hmem : k.version ∈ index.keys.map (·.version) := List.mem_map_of_mem hk
  exact Nat.lt_succ_of_le (List.le_max_of_le' 0 hmem le_rfl)

@[simp] theorem retire_version (k : KeyEntry) : (k.retire now).version = k.version := by
  rw [KeyEntry.retire]
  split_ifs <;> rfl

@[simp] theorem retire_material (k : KeyEntry) : (k.retire now).material = k.material := by
  rw [KeyEntry.retire]
  split_ifs <;> rfl

@[simp] theorem retire_isUnretired (k : KeyEntry) : (k.retire now).isUnretired = false := by
  rw [KeyEntry.retire]
  split_ifs with h
  · rfl
  · rw [KeyEntry.isUnretired, Bool.eq_false_iff.mpr h, Bool.false_and]

theorem mem_rotatedIndex {k : KeyEntry} {key : String}
    (hk : k ∈ (rotatedIndex index key now).keys) :
    (∃ k' ∈ index.keys, k = k'.retire now) ∨
      k = ⟨(rotatedIndex index key now).activeVersion, some key, none, now, some none, none⟩ := by
  rcases List.mem_append.mp hk with hk | hk
  · obtain ⟨k', hk', rfl⟩ := List.mem_map.mp hk
    exact .inl ⟨k', hk', rfl⟩
  · exact .inr (List.mem_singleton.mp hk)

/-- **A rotation** keeps the keys there are and makes a new one the only one that is not retired. -/
theorem Index.Keeps.rotated (h : index.Keeps active) (key : String) :
    (rotatedIndex index key now).Keeps active where
  kept p hp := by
    obtain ⟨k, hk, hversion, hmaterial⟩ := mem_materials.mp (h.kept p hp)
    refine mem_materials.mpr ⟨k.retire now, ?_, ?_, ?_⟩
    · exact List.mem_append_left _ (List.mem_map_of_mem hk)
    · rwa [retire_version]
    · rwa [retire_material]
  versions := by
    have hold : (index.keys.map (KeyEntry.retire now)).map (·.version) =
        index.keys.map (·.version) := by
      rw [List.map_map]
      exact List.map_congr_left fun k _ ↦ retire_version k
    have hkeys : (rotatedIndex index key now).keys.map (·.version) =
        index.keys.map (·.version) ++ [(rotatedIndex index key now).activeVersion] := by
      rw [← hold]
      exact List.map_append
    rw [hkeys]
    refine h.versions.append (List.nodup_singleton _) fun n hn hn' ↦ ?_
    obtain ⟨k, hk, rfl⟩ := List.mem_map.mp hn
    exact (version_lt_rotatedIndex hk key).ne (List.mem_singleton.mp hn')
  unretired k hk := by
    rcases mem_rotatedIndex hk with ⟨k', hk', rfl⟩ | rfl
    · rw [retire_isUnretired, retire_version]
      exact iff_of_false (by decide) (version_lt_rotatedIndex hk' key).ne
    · exact iff_of_true rfl rfl
  exists_active := ⟨_, List.mem_append_right _ (List.mem_singleton_self _), rfl⟩

end Indexes

/-! ## Calls -/

section Calls

variable {st : Store}

theorem Kept.save {index : Index} (h : index.Keeps st.active) : Kept (saveKeysIndex st index) :=
  h.append

theorem map_migrateKey {keys : List KeyEntry}
    (h : ¬(keys.any fun k ↦ k.hasOldKey || k.hasOldStatus) = true) (now : ℕ) :
    keys.map (migrateKey now) = keys := by
  refine (List.map_congr_left fun k hk ↦ ?_).trans (List.map_id keys)
  refine migrateKey_eq_self now k (Bool.eq_false_iff.mpr fun hk' ↦ h ?_)
  exact List.any_eq_true.mpr ⟨k, hk, hk'⟩

theorem kept_initializeKeyStorage (h : Kept st) {fails : Bool} (env : Env) (n : ℕ)
    (hsafe : ¬(st.file ≠ none ∧ fails = true)) :
    (initializeKeyStorage st fails (env.randomKey n) env.now).2.file =
        some (initializeKeyStorage st fails (env.randomKey n) env.now).1 ∧
      Kept (initializeKeyStorage st fails (env.randomKey n) env.now).2 := by
  obtain ⟨file, active⟩ := st
  cases file with
  | none =>
    have hactive : active = [] := h
    subst hactive
    have hload : loadKeysIndex ⟨none, []⟩ fails = none := by cases fails <;> rfl
    rw [initializeKeyStorage, hload]
    exact ⟨rfl, Kept.save (keeps_initialIndex env n (List.forall_mem_nil _))⟩
  | some index =>
    cases fails with
    | true => exact absurd ⟨Option.some_ne_none index, rfl⟩ hsafe
    | false =>
      have hkeeps : index.Keeps active := h
      simp only [initializeKeyStorage, loadKeysIndex, Bool.false_eq_true, if_false]
      split_ifs with hold
      · exact ⟨rfl, Kept.save hkeeps.migrated⟩
      · rw [Index.migrated, map_migrateKey hold]
        exact ⟨rfl, h⟩

theorem kept_loadOrInitialize (h : Kept st) {fails fails' : Bool} (env : Env) (n : ℕ)
    (hsafe : ¬(st.file ≠ none ∧ fails = true ∧ fails' = true)) :
    (loadOrInitialize st fails fails' (env.randomKey n) env.now).2.file =
        some (loadOrInitialize st fails fails' (env.randomKey n) env.now).1 ∧
      Kept (loadOrInitialize st fails fails' (env.randomKey n) env.now).2 := by
  rw [loadOrInitialize]
  split
  · next index hload =>
    cases fails with
    | true => cases hload
    | false => exact ⟨hload, h⟩
  · next hload =>
    refine kept_initializeKeyStorage h env n fun hfails' ↦ hsafe ⟨hfails'.1, ?_, hfails'.2⟩
    cases fails with
    | true => rfl
    | false => exact absurd hload hfails'.1

theorem kept_rotateKey (h : Kept st) (env : Env)
    (hsafe : ¬(st.file ≠ none ∧ env.fails 0 = true ∧ env.fails 1 = true)) :
    Kept (rotateKey st env).2 := by
  obtain ⟨hfile, hkept⟩ := kept_loadOrInitialize h env 0 hsafe
  rw [Kept, hfile] at hkept
  exact Kept.save (hkept.rotated _)

theorem getKeyMaterial_snd (st : Store) (version : ℕ) (env : Env) :
    (getKeyMaterial st version env).2 =
      (loadOrInitialize st (env.fails 0) (env.fails 1) (env.randomKey 0) env.now).2 := by
  simp only [getKeyMaterial]
  split
  · rfl
  · split <;> rfl

theorem Kept.step (h : Kept st) {a : Op × Env} (hsafe : ¬Reinitializes st a) :
    Kept (step st a) := by
  obtain ⟨op, env⟩ := a
  cases op with
  | initializeKeyStorage => exact (kept_initializeKeyStorage h env 0 hsafe).2
  | getActiveKeyVersion => exact (kept_loadOrInitialize h env 0 hsafe).2
  | getKeyMaterial version =>
    rw [MemoKeys.step, getKeyMaterial_snd]
    exact (kept_loadOrInitialize h env 0 hsafe).2
  | getActiveKeyMaterial =>
    obtain ⟨hfirst, hsecond⟩ := not_or.mp hsafe
    have hkept : Kept (getActiveKeyVersion st env).2 := (kept_loadOrInitialize h env 0 hfirst).2
    simp only [MemoKeys.step, getActiveKeyMaterial, getKeyMaterial_snd]
    exact (kept_loadOrInitialize hkept env.rest 0 fun hfails ↦ hsecond hfails.2).2
  | getAllKeyVersions => exact (kept_loadOrInitialize h env 0 hsafe).2
  | rotateKey => exact kept_rotateKey h env hsafe

end Calls

/-! ## Indexes that are written over -/

section Overwritten

variable {st : Store}

def Store.HasActive (st : Store) : Prop := ∃ p, p ∈ st.active

theorem mem_active_save {index : Index} {p : ℕ × String} (hp : p ∈ st.active) :
    p ∈ (saveKeysIndex st index).active :=
  List.mem_append_left _ hp

theorem mem_active_initializeKeyStorage {p : ℕ × String} (hp : p ∈ st.active) (fails : Bool)
    (key : String) (now : ℕ) : p ∈ (initializeKeyStorage st fails key now).2.active := by
  rw [initializeKeyStorage]
  split
  · exact mem_active_save hp
  · dsimp only
    split_ifs
    · exact mem_active_save hp
    · exact hp

theorem mem_active_loadOrInitialize {p : ℕ × String} (hp : p ∈ st.active) (fails fails' : Bool)
    (key : String) (now : ℕ) : p ∈ (loadOrInitialize st fails fails' key now).2.active := by
  rw [loadOrInitialize]
  split
  · exact hp
  · exact mem_active_initializeKeyStorage hp fails' key now

theorem mem_active_step {p : ℕ × String} (hp : p ∈ st.active) (a : Op × Env) :
    p ∈ (step st a).active := by
  obtain ⟨op, env⟩ := a
  have hmem := mem_active_loadOrInitialize hp (env.fails 0) (env.fails 1) (env.randomKey 0) env.now
  cases op with
  | initializeKeyStorage => exact mem_active_initializeKeyStorage hp _ _ _
  | getActiveKeyVersion | getAllKeyVersions => exact hmem
  | getKeyMaterial version =>
    rw [step, getKeyMaterial_snd]
    exact hmem
  | getActiveKeyMaterial =>
    simp only [step, getActiveKeyMaterial, getKeyMaterial_snd]
    exact mem_active_loadOrInitialize hmem _ _ _ _
  | rotateKey => exact mem_active_save hmem

theorem mem_active_saveInitial (st : Store) (env : Env) (n : ℕ) :
    (1, env.randomKey n) ∈ (saveKeysIndex st (initialIndex (env.randomKey n) env.now)).active := by
  refine List.mem_append_right _ (List.mem_filter.mpr ⟨?_, rfl⟩)
  rw [materials_initialIndex]
  exact List.mem_singleton_self _

/-- An active key is lost when the index holds none but other keys. -/
theorem not_kept_of_mem {index : Index} (hfile : st.file = some index) {p : ℕ × String}
    (hp : p ∈ st.active) (hother : ∀ q ∈ index.materials, q.2 ≠ p.2) : ¬Kept st := by
  intro h
  rw [Kept, hfile] at h
  exact hother p (h.kept p hp) rfl

theorem ne_of_mem_initialIndex (env : Env) (n : ℕ) {now : ℕ} {p : ℕ × String}
    (hnew : p.2 ≠ env.randomKey n) :
    ∀ q ∈ (initialIndex (env.randomKey n) now).materials, q.2 ≠ p.2 := by
  intro q hq
  rw [materials_initialIndex] at hq
  rw [List.mem_singleton.mp hq]
  exact hnew.symm

theorem not_kept_saveInitial {p : ℕ × String} (hp : p ∈ st.active) (env : Env) (n : ℕ)
    (hnew : p.2 ≠ env.randomKey n) :
    ¬Kept (saveKeysIndex st (initialIndex (env.randomKey n) env.now)) := by
  exact not_kept_of_mem rfl (mem_active_save hp) (ne_of_mem_initialIndex env n hnew)

theorem loadOrInitialize_of_none (hfile : st.file = none) {fails fails' : Bool} {key : String}
    {now : ℕ} : loadOrInitialize st fails fails' key now =
      (initialIndex key now, saveKeysIndex st (initialIndex key now)) := by
  cases fails <;> cases fails' <;>
    simp [loadOrInitialize, initializeKeyStorage, loadKeysIndex, hfile]

/-- A store that was just initialised is read as it is, or initialised again. -/
theorem file_loadOrInitialize_saveInitial (fails fails' : Bool) (key key' : String) (now now' : ℕ) :
    (loadOrInitialize (saveKeysIndex st (initialIndex key now)) fails fails' key' now').2.file =
        some (initialIndex key now) ∨
      (loadOrInitialize (saveKeysIndex st (initialIndex key now)) fails fails' key' now').2.file =
        some (initialIndex key' now') := by
  cases fails with
  | false => exact .inl rfl
  | true =>
    cases fails' with
    | false => exact .inl rfl
    | true => exact .inr rfl

/-- **A loss.** When an existing index is written over and the keys generated are new, a key that
was active is lost. -/
theorem not_kept_step {a : Op × Env} (hnew : NewKeys st a)
    (hactive : st.file ≠ none → st.HasActive) (hre : Reinitializes st a) : ¬Kept (step st a) := by
  obtain ⟨op, env⟩ := a
  obtain ⟨hkeys, hnew⟩ := hnew
  -- every call that reads once and initialises
  have hover : st.file ≠ none →
      ¬Kept (saveKeysIndex st (initialIndex (env.randomKey 0) env.now)) := by
    intro hfile
    obtain ⟨p, hp⟩ := hactive hfile
    exact not_kept_saveInitial hp env 0 (hnew p hp).1
  have hload : env.fails 0 = true → env.fails 1 = true →
      loadOrInitialize st (env.fails 0) (env.fails 1) (env.randomKey 0) env.now =
        (initialIndex (env.randomKey 0) env.now,
          saveKeysIndex st (initialIndex (env.randomKey 0) env.now)) := by
    intro h0 h1
    rw [h0, h1]
    rfl
  cases op with
  | initializeKeyStorage =>
    obtain ⟨hfile, h0⟩ := hre
    rw [step, h0]
    exact hover hfile
  | getActiveKeyVersion | getAllKeyVersions =>
    obtain ⟨hfile, h0, h1⟩ := hre
    simp only [step, getActiveKeyVersion, getAllKeyVersions, hload h0 h1]
    exact hover hfile
  | getKeyMaterial version =>
    obtain ⟨hfile, h0, h1⟩ := hre
    simp only [step, getKeyMaterial_snd, hload h0 h1]
    exact hover hfile
  | getActiveKeyMaterial =>
    simp only [step, getActiveKeyMaterial, getActiveKeyVersion, getKeyMaterial_snd]
    rcases hre with ⟨hfile, h0, h1⟩ | ⟨h2, h3⟩
    · obtain ⟨p, hp⟩ := hactive hfile
      rw [hload h0 h1]
      have hsaved : p ∈ (saveKeysIndex st (initialIndex (env.randomKey 0) env.now)).active :=
        mem_active_save hp
      have hmem := mem_active_loadOrInitialize hsaved (env.rest.fails 0) (env.rest.fails 1)
        (env.rest.randomKey 0) env.rest.now
      rcases file_loadOrInitialize_saveInitial (env.rest.fails 0) (env.rest.fails 1)
        (env.randomKey 0) (env.rest.randomKey 0) env.now env.rest.now with hfile' | hfile'
      · exact not_kept_of_mem hfile' hmem (ne_of_mem_initialIndex env 0 (hnew p hp).1)
      · exact not_kept_of_mem hfile' hmem (ne_of_mem_initialIndex env.rest 0 (hnew p hp).2)
    · obtain ⟨p, hp, hne⟩ : ∃ p ∈ (loadOrInitialize st (env.fails 0) (env.fails 1)
          (env.randomKey 0) env.now).2.active, p.2 ≠ env.rest.randomKey 0 := by
        by_cases hfile : st.file = none
        · -- the first half has initialised the store
          refine ⟨(1, env.randomKey 0), ?_, hkeys⟩
          rw [loadOrInitialize_of_none hfile]
          exact mem_active_saveInitial st env 0
        · obtain ⟨p, hp⟩ := hactive hfile
          exact ⟨p, mem_active_loadOrInitialize hp _ _ _ _, (hnew p hp).2⟩
      have hrest : env.rest.fails 0 = true ∧ env.rest.fails 1 = true := ⟨h2, h3⟩
      rw [hrest.1, hrest.2]
      exact not_kept_saveInitial hp env.rest 0 hne
  | rotateKey =>
    obtain ⟨hfile, h0, h1⟩ := hre
    obtain ⟨p, hp⟩ := hactive hfile
    simp only [step, rotateKey, hload h0 h1]
    refine not_kept_of_mem rfl (mem_active_save (mem_active_save hp)) fun q hq ↦ ?_
    obtain ⟨k, hk, -, hmaterial⟩ := mem_materials.mp hq
    rcases mem_rotatedIndex hk with ⟨k', hk', rfl⟩ | rfl
    · obtain rfl := List.mem_singleton.mp hk'
      rw [retire_material, material_of_key env 0 rfl] at hmaterial
      rw [← Option.some.inj hmaterial]
      exact (hnew p hp).1.symm
    · rw [material_of_key env 1 rfl] at hmaterial
      rw [← Option.some.inj hmaterial]
      exact (hnew p hp).2.symm

def Store.Sound (st : Store) : Prop := Kept st ∧ (st.file ≠ none → st.HasActive)

theorem Store.Sound.step (h : st.Sound) {a : Op × Env} (hkept : Kept (step st a)) :
    (step st a).Sound := by
  refine ⟨hkept, fun hfile ↦ ?_⟩
  by_cases hold : st.file = none
  · obtain ⟨op, env⟩ := a
    refine ⟨(1, env.randomKey 0), ?_⟩
    have hfirst := mem_active_saveInitial st env 0
    have hload : (loadOrInitialize st (env.fails 0) (env.fails 1) (env.randomKey 0) env.now).2 =
        saveKeysIndex st (initialIndex (env.randomKey 0) env.now) := by
      rw [loadOrInitialize_of_none hold]
    cases op with
    | initializeKeyStorage =>
      have hnone : loadKeysIndex st (env.fails 0) = none := by
        cases h0 : env.fails 0 <;> simp [loadKeysIndex, hold]
      rw [MemoKeys.step, initializeKeyStorage, hnone]
      exact hfirst
    | getActiveKeyVersion | getAllKeyVersions =>
      simp only [MemoKeys.step, getActiveKeyVersion, getAllKeyVersions, hload]
      exact hfirst
    | getKeyMaterial version =>
      simp only [MemoKeys.step, getKeyMaterial_snd, hload]
      exact hfirst
    | getActiveKeyMaterial =>
      simp only [MemoKeys.step, getActiveKeyMaterial, getActiveKeyVersion, getKeyMaterial_snd,
        hload]
      exact mem_active_loadOrInitialize hfirst _ _ _ _
    | rotateKey =>
      simp only [MemoKeys.step, rotateKey, hload]
      exact mem_active_save hfirst
  · obtain ⟨p, hp⟩ := h.2 hold
    exact ⟨p, mem_active_step hp a⟩

theorem sound_start {file : Option Index} (hfile : ∀ index ∈ file, index.WellFormed) :
    (start file).Sound := by
  cases file with
  | none => exact ⟨rfl, fun h ↦ absurd rfl h⟩
  | some index =>
    obtain ⟨hkeeps, hmaterial⟩ := hfile index rfl
    refine ⟨⟨fun p hp ↦ hp, hkeeps.versions, hkeeps.unretired, hkeeps.exists_active⟩, fun _ ↦ ?_⟩
    obtain ⟨k, hk, -⟩ := hkeeps.exists_active
    obtain ⟨m, hm⟩ := Option.isSome_iff_exists.mp (hmaterial k hk)
    exact ⟨(k.version, m), mem_materials.mpr ⟨k, hk, rfl, hm⟩⟩

end Overwritten

/-- **No memo key is lost** in a run in which no existing index is written over; and when the keys
that are generated are new, in no other run. -/
theorem memo_keys_kept_iff {file : Option Index} (hfile : ∀ index ∈ file, index.WellFormed)
    (as : List (Op × Env)) :
    (Along step (fun st a ↦ ¬Reinitializes st a) (start file) as →
      Always step Kept (start file) as) ∧
      (Along step NewKeys (start file) as → Always step Kept (start file) as →
        Along step (fun st a ↦ ¬Reinitializes st a) (start file) as) := by
  have hstart := sound_start hfile
  constructor
  · intro hsafe
    exact hsafe.always (fun st a h hre ↦ h.step hre) hstart.1
  · intro hnew hkept
    have hnext := ((always_iff_along_next _ _).mp hkept).2
    have hsound : Always step Store.Sound (start file) as :=
      hnext.always (fun st a h hk ↦ h.step hk) hstart
    refine (hnew.and hnext).of_always (fun st a hs hboth hre ↦ ?_) hsound
    exact not_kept_step hboth.1 hs.2 hre hboth.2

section Examples

def keyBytes (n : ℕ) : Vector UInt8 32 := .replicate 32 (UInt8.ofNat n)

def readable (n : ℕ) : Env := ⟨fun _ ↦ false, fun m ↦ keyBytes (2 * n + m), 1000 + n⟩

/-- The first read of the index fails, and so does the second one when `twice`. -/
def unreadable (twice : Bool) (n : ℕ) : Env :=
  ⟨fun m ↦ m = 0 || (twice && m = 1), fun m ↦ keyBytes (2 * n + m), 1000 + n⟩

/-- An index of the earlier format, with a retired key and an active one. -/
def legacyIndex : Index :=
  ⟨2, [⟨1, none, some "aa", 0, none, some "retired"⟩, ⟨2, none, some "bb", 1, none, some "active"⟩]⟩

def failingGetter : List (Op × Env) :=
  [(.initializeKeyStorage, readable 0), (.getActiveKeyVersion, unreadable true 1)]

/-- The getter replaces the keys by a new one. -/
theorem file_failingGetter :
    (run step (start (some legacyIndex)) failingGetter).file =
        some (initialIndex ((unreadable true 1).randomKey 0) 1001) ∧
      (2, "bb") ∈ (run step (start (some legacyIndex)) failingGetter).active := by
  decide

theorem memo_keys_lost : ¬Always step Kept (start (some legacyIndex)) failingGetter := by
  intro h
  obtain ⟨hfile, hactive⟩ := file_failingGetter
  refine not_kept_of_mem hfile hactive ?_ h.last
  exact ne_of_mem_initialIndex (unreadable true 1) 0 (by decide)

instance (st : Store) (a : Op × Env) : Decidable (Reinitializes st a) := by
  unfold Reinitializes
  split <;> infer_instance

instance (st : Store) (a : Op × Env) : Decidable (NewKeys st a) := by
  unfold NewKeys
  infer_instance

theorem wellFormed_legacyIndex : legacyIndex.WellFormed where
  keeps := by
    refine ⟨List.forall_mem_nil _, ?_, ?_, ?_⟩ <;> decide
  material := by decide

/-- A migration, two rotations and a getter, with reads that fail once. -/
theorem memo_keys_kept_at :
    Always step Kept (start (some legacyIndex))
      [(.rotateKey, unreadable false 0), (.initializeKeyStorage, readable 1),
        (.rotateKey, readable 2), (.getActiveKeyMaterial, unreadable false 3)] :=
  (memo_keys_kept_iff (by rintro _ ⟨⟩; exact wellFormed_legacyIndex) _).1 (by decide)

end Examples

end StellarDonations.MemoKeys
