import StellarDonations.Transactions.IdempotencyIndex

/-!
# One record for a key

Updates leave the index behind: it goes on leading to the object that was replaced. What it keeps in
every run is weaker than leading to the stored object, and enough for a record to be the only one
with its key: the index leads somewhere for a key exactly when an object with that key is stored.

`OnePerKey` is the invariant. Ids and keys that the memory, the table or a write under way know
determine each other, so that no write meets the key of another record, and a load brings back
nothing that has become something else in the meantime.
-/

namespace StellarDonations.Transactions

open Concurrency JsString Log

/-! ## What must hold of the steps -/

/-- A new record gets an id that is not in use, and while a load is under way an id and a key that
are not in the table. -/
def Operation.CreatesFresh (m : Memory) : Operation → Prop
  | .create data uuid => (orNull data.idempotencyKey).bind m.index.lookup = none →
      m.find (orElse data.id uuid) = none ∧
      (m.loading = true → ∀ row ∈ m.rows, row.data.id ≠ orElse data.id uuid ∧
        ∀ key ∈ orNull data.idempotencyKey, orNull row.data.idempotencyKey ≠ some key)
  | _ => True

/-- The condition on a step: records are created fresh, loads succeed, and a reload begins when no
write is under way and no load has read its rows. -/
def Action.KeepsFresh (m : Memory) : Action → Prop
  | call _ op => op.CreatesFresh m
  | select failure => failure = false
  | beginReload => m.writes = [] ∧ m.hasRead = false
  | edit .. | execute .. | finishLoad => True

section Decidable

variable (m : Memory)

instance decidableCreatesFresh : DecidablePred (Operation.CreatesFresh m)
  | .create data uuid => inferInstanceAs
      (Decidable ((orNull data.idempotencyKey).bind m.index.lookup = none →
        m.find (orElse data.id uuid) = none ∧
        (m.loading = true → ∀ row ∈ m.rows, row.data.id ≠ orElse data.id uuid ∧
          ∀ key ∈ orNull data.idempotencyKey, orNull row.data.idempotencyKey ≠ some key)))
  | .updateStatus .. | .updateFeeBumpData .. | .updateApprovals .. | .updateMatchedDonationId ..
  | .updateNftData .. | .flagDiscrepancy .. | .resolveDiscrepancy .. =>
    inferInstanceAs (Decidable True)

end Decidable

namespace Memory

variable {m m' : Memory}

/-! ## Ids and keys -/

/-- The key of the object stored under an id. -/
def keyOf (m : Memory) (id : String) : Option (Option String) :=
  (m.find id).map fun tx ↦ orNull tx.idempotencyKey

/-- An object with this id and key is in the table or in a write under way. -/
def Logged (m : Memory) (id : String) (key : Option String) : Prop :=
  ∃ tx ∈ m.log, tx.id = id ∧ orNull tx.idempotencyKey = key

/-- An object with this id and key is stored, in the table or in a write under way. -/
def Known (m : Memory) (id : String) (key : Option String) : Prop :=
  m.keyOf id = some key ∨ m.Logged id key

/-- The table has a row of the record with the key. -/
def InTable (m : Memory) (k id : String) : Prop :=
  ∃ row ∈ m.rows, row.data.id = id ∧ orNull row.data.idempotencyKey = some k

/-- The store has the record with the key: in memory, or in the table while that is being
loaded. -/
def Holds (m : Memory) (k id : String) : Prop :=
  m.keyOf id = some (some k) ∨ m.loading = true ∧ m.InTable k id

theorem logged_of_row {row : ObjectRow} (hrow : row ∈ m.rows) :
    m.Logged row.data.id (orNull row.data.idempotencyKey) :=
  ⟨row.data, mem_log.mpr (.inl ⟨row, hrow, rfl⟩), rfl, rfl⟩

theorem InTable.logged {k id : String} (h : m.InTable k id) : m.Logged id (some k) := by
  obtain ⟨row, hrow, hid, hkey⟩ := h
  rw [← hid, ← hkey]
  exact logged_of_row hrow

theorem Holds.known {k id : String} (h : m.Holds k id) : m.Known id (some k) :=
  h.imp_right fun hloading ↦ hloading.2.logged

theorem keyOf_of_find {id : String} {tx : Object} (h : m.find id = some tx) :
    m.keyOf id = some (orNull tx.idempotencyKey) := by
  rw [keyOf, h]
  rfl

theorem keyOf_save (h : WellFormed m) {old new : Object} (hfind : m.find new.id = some old)
    (hkey : new.idempotencyKey = old.idempotencyKey) : (m.save new.id new).keyOf = m.keyOf := by
  funext id
  rw [keyOf, find_save h]
  split_ifs with hid
  · rw [hid, keyOf_of_find hfind, Option.map_some, hkey]
  · rfl

theorem keyOf_modify (m : Memory) (r : ℕ) {f : Object → Object}
    (hkey : ∀ tx, (f tx).idempotencyKey = tx.idempotencyKey) :
    (m.modify r f).keyOf = m.keyOf := by
  funext id
  rw [keyOf, find_modify]
  split_ifs
  · rw [Option.map_map, keyOf]
    refine Option.map_congr fun tx _ ↦ ?_
    rw [Function.comp_apply, hkey]
  · rfl

theorem keyOf_insertNew (h : WellFormed m) (tx : Object) (id : String) :
    (m.insertNew tx).keyOf id =
      if id = tx.id then some (orNull tx.idempotencyKey) else m.keyOf id := by
  rw [keyOf, find_insertNew h]
  split_ifs <;> rfl

theorem isSome_index_loadAll {data : List Object} {k : String} :
    ((m.loadAll data).index.lookup k).isSome ↔
      (m.index.lookup k).isSome ∨ ∃ tx ∈ data, orNull tx.idempotencyKey = some k := by
  induction data generalizing m with
  | nil => simp [loadAll]
  | cons tx data ih =>
    rw [loadAll, List.foldl_cons]
    refine ih.trans ?_
    rw [lookup_loadOne_index, List.exists_mem_cons_iff, ← or_assoc]
    refine or_congr ?_ Iff.rfl
    by_cases hkey : orNull tx.idempotencyKey = some k
    · simp [hkey]
    · simp [hkey]

/-! ## The invariant -/

/-- Ids and keys determine each other, and the index has the keys that are stored. -/
structure OnePerKey (m : Memory) : Prop where
  wellFormed : WellFormed m
  filed : RowsFiled m.rows
  columns : ∀ row ∈ m.rows, row.columns.idempotencyKey = orNull row.data.idempotencyKey
  /-- A record keeps its key. -/
  key_eq : ∀ {id key key'}, m.Known id key → m.Known id key' → key = key'
  /-- A key belongs to one record. -/
  id_eq : ∀ {id id' k}, m.Known id (some k) → m.Known id' (some k) → id = id'
  indexed : ∀ k, (m.index.lookup k).isSome ↔ ∃ id, m.keyOf id = some (some k)
  pending : ∀ w ∈ m.writes, (m.keyOf w.2.id).isSome
  arriving : ∀ tx ∈ m.arriving, ∃ row ∈ m.rows, row.data.id = tx.id ∧
    orNull row.data.idempotencyKey = orNull tx.idempotencyKey
  /-- What is not in memory is still to be loaded. -/
  brought : ∀ row ∈ m.rows, (m.keyOf row.data.id).isSome ∨ m.load = .selecting ∨
    ∃ tx ∈ m.arriving, tx.id = row.data.id

/-- **At most one record has the key.** -/
theorem OnePerKey.holds_unique (h : OnePerKey m) {k id id' : String} (hid : m.Holds k id)
    (hid' : m.Holds k id') : id = id' :=
  h.id_eq hid.known hid'.known

theorem OnePerKey.of_known (h : OnePerKey m) (hm' : WellFormed m') (hfiled : RowsFiled m'.rows)
    (hcolumns : ∀ row ∈ m'.rows, row.columns.idempotencyKey = orNull row.data.idempotencyKey)
    (hknown : ∀ id key, m'.Known id key → m.Known id key)
    (hindexed : ∀ k, (m'.index.lookup k).isSome ↔ ∃ id, m'.keyOf id = some (some k))
    (hpending : ∀ w ∈ m'.writes, (m'.keyOf w.2.id).isSome)
    (harriving : ∀ tx ∈ m'.arriving, ∃ row ∈ m'.rows, row.data.id = tx.id ∧
      orNull row.data.idempotencyKey = orNull tx.idempotencyKey)
    (hbrought : ∀ row ∈ m'.rows, (m'.keyOf row.data.id).isSome ∨ m'.load = .selecting ∨
      ∃ tx ∈ m'.arriving, tx.id = row.data.id) : OnePerKey m' where
  wellFormed := hm'
  filed := hfiled
  columns := hcolumns
  key_eq := fun hkey hkey' ↦ h.key_eq (hknown _ _ hkey) (hknown _ _ hkey')
  id_eq := fun hid hid' ↦ h.id_eq (hknown _ _ hid) (hknown _ _ hid')
  indexed := hindexed
  pending := hpending
  arriving := harriving
  brought := hbrought

theorem OnePerKey.congr (h : OnePerKey m) (hm' : WellFormed m') (hkeyOf : m'.keyOf = m.keyOf)
    (hindex : m'.index = m.index) (hrows : m'.rows = m.rows) (hload : m'.load = m.load)
    (hwrites : ∀ w ∈ m'.writes, w ∈ m.writes ∨
      m.keyOf w.2.id = some (orNull w.2.idempotencyKey)) : OnePerKey m' := by
  have harriving : m'.arriving = m.arriving := arriving_congr hload
  refine h.of_known hm' (hrows ▸ h.filed) (hrows ▸ h.columns) (fun id key hknown ↦ ?_)
    (fun k ↦ ?_) (fun w hw ↦ ?_) ?_ ?_
  · rcases hknown with hkey | ⟨tx, htx, rfl, rfl⟩
    · exact .inl (hkeyOf ▸ hkey)
    · rcases mem_log.mp htx with ⟨row, hrow, rfl⟩ | ⟨w, hw, rfl⟩
      · exact .inr (logged_of_row (hrows ▸ hrow))
      · rcases hwrites w hw with hold | hkey
        · exact .inr ⟨w.2, mem_log.mpr (.inr ⟨w, hold, rfl⟩), rfl, rfl⟩
        · exact .inl hkey
  · rw [hindex, hkeyOf]
    exact h.indexed k
  · rw [hkeyOf]
    rcases hwrites w hw with hold | hkey
    · exact h.pending w hold
    · rw [hkey]
      rfl
  · rw [harriving, hrows]
    exact h.arriving
  · rw [hrows, hkeyOf, hload, harriving]
    exact h.brought

/-! ## Creating a record -/

theorem OnePerKey.fresh (h : OnePerKey m) {data : NewTransaction} {uuid : String}
    (hfresh : (Operation.create data uuid).CreatesFresh m)
    (hindex : (orNull data.idempotencyKey).bind m.index.lookup = none) {id : String}
    {key : Option String} (hknown : m.Known id key) :
    id ≠ orElse data.id uuid ∧ ∀ k, orNull data.idempotencyKey = some k → key ≠ some k := by
  obtain ⟨hfind, hloading⟩ := hfresh hindex
  -- what is in memory is found by its id, and its key is in the index
  have hstored : ∀ key', m.keyOf id = some key' → id ≠ orElse data.id uuid ∧
      ∀ k, orNull data.idempotencyKey = some k → key' ≠ some k := by
    intro key' hkey'
    refine ⟨?_, ?_⟩
    · rintro rfl
      rw [keyOf, hfind] at hkey'
      cases hkey'
    · rintro k hk rfl
      have hsome := (h.indexed k).mpr ⟨id, hkey'⟩
      rw [hk] at hindex
      rw [show m.index.lookup k = none from hindex] at hsome
      cases hsome
  have hbysome : (m.keyOf id).isSome → id ≠ orElse data.id uuid ∧
      ∀ k, orNull data.idempotencyKey = some k → key ≠ some k := by
    intro hsome
    obtain ⟨key', hkey'⟩ := Option.isSome_iff_exists.mp hsome
    rw [h.key_eq hknown (.inl hkey')]
    exact hstored key' hkey'
  rcases hknown with hkey | ⟨tx, htx, rfl, rfl⟩
  · exact hstored key hkey
  · rcases mem_log.mp htx with ⟨row, hrow, rfl⟩ | ⟨w, hw, rfl⟩
    · rcases h.brought row hrow with hsome | hbrought
      · exact hbysome hsome
      · have hne : m.load ≠ .idle := by
          intro hidle
          rcases hbrought with hselecting | ⟨tx, hmem, -⟩
          · rw [hidle] at hselecting
            cases hselecting
          · rw [Memory.arriving, hidle] at hmem
            cases hmem
        obtain ⟨hid, hkey⟩ := hloading (loading_of_load_ne hne) row hrow
        exact ⟨hid, fun k hk ↦ hkey k hk⟩
    · exact hbysome (h.pending w hw)

theorem isSome_index_insertNew (m : Memory) (tx : Object) (k : String) :
    ((m.insertNew tx).index.lookup k).isSome ↔
      orNull tx.idempotencyKey = some k ∨ (m.index.lookup k).isSome := by
  rw [show (m.insertNew tx).index = (m.loadOne tx).index from rfl, lookup_loadOne_index]
  split_ifs with hkey
  · simp [hkey]
  · simp [hkey]

theorem OnePerKey.insertNew (h : OnePerKey m) {new : Object}
    (hfresh : ∀ id key, m.Known id key →
      id ≠ new.id ∧ ∀ k, orNull new.idempotencyKey = some k → key ≠ some k) :
    OnePerKey (m.insertNew new) := by
  obtain ⟨hwrites, hrows, hload⟩ := insertNew_log m new
  have harriving : (m.insertNew new).arriving = m.arriving := arriving_congr hload
  have hkeyOf := keyOf_insertNew h.wellFormed new
  have hsome : ∀ id, (m.keyOf id).isSome → ((m.insertNew new).keyOf id).isSome := by
    intro id hid
    rw [hkeyOf]
    split_ifs
    · rfl
    · exact hid
  -- what is known afterwards is the new record, or was known before
  have hknown : ∀ id key, (m.insertNew new).Known id key →
      id = new.id ∧ key = orNull new.idempotencyKey ∨ m.Known id key := by
    rintro id key (hkey | ⟨tx, htx, rfl, rfl⟩)
    · rw [hkeyOf] at hkey
      split_ifs at hkey with hid
      · cases hkey
        exact .inl ⟨hid, rfl⟩
      · exact .inr (.inl hkey)
    · rcases (mem_log_concat hrows hwrites tx).mp htx with hold | rfl
      · exact .inr (.inr ⟨tx, hold, rfl, rfl⟩)
      · exact .inl ⟨rfl, rfl⟩
  constructor
  · exact h.wellFormed.insertNew new
  · exact hrows ▸ h.filed
  · exact hrows ▸ h.columns
  · intro id key key' hkey hkey'
    rcases hknown id key hkey with ⟨rfl, rfl⟩ | hold
    · rcases hknown _ key' hkey' with ⟨-, rfl⟩ | hold'
      · rfl
      · exact absurd rfl (hfresh _ _ hold').1
    · rcases hknown id key' hkey' with ⟨rfl, -⟩ | hold'
      · exact absurd rfl (hfresh _ _ hold).1
      · exact h.key_eq hold hold'
  · intro id id' k hid hid'
    rcases hknown id (some k) hid with ⟨rfl, hk⟩ | hold
    · rcases hknown id' (some k) hid' with ⟨rfl, -⟩ | hold'
      · rfl
      · exact absurd rfl ((hfresh _ _ hold').2 k hk.symm)
    · rcases hknown id' (some k) hid' with ⟨rfl, hk⟩ | hold'
      · exact absurd rfl ((hfresh _ _ hold).2 k hk.symm)
      · exact h.id_eq hold hold'
  · intro k
    rw [isSome_index_insertNew, h.indexed]
    constructor
    · rintro (hk | ⟨id, hid⟩)
      · exact ⟨new.id, by rw [hkeyOf, if_pos rfl, hk]⟩
      · exact ⟨id, by rw [hkeyOf, if_neg (hfresh id _ (.inl hid)).1, hid]⟩
    · rintro ⟨id, hid⟩
      rw [hkeyOf] at hid
      split_ifs at hid
      · exact .inl (Option.some.inj hid)
      · exact .inr ⟨id, hid⟩
  · intro w hw
    rw [hwrites] at hw
    rcases List.mem_append.mp hw with hold | hnew
    · exact hsome _ (h.pending w hold)
    · rw [List.mem_singleton.mp hnew, hkeyOf, if_pos rfl]
      rfl
  · rw [harriving, hrows]
    exact h.arriving
  · intro row hrow
    rw [hrows] at hrow
    rw [hload, harriving]
    exact (h.brought row hrow).imp_left (hsome _)

/-! ## Writes and loads -/

theorem OnePerKey.lose (h : OnePerKey m) (n : ℕ) :
    OnePerKey { m with writes := m.writes.eraseIdx n } := by
  refine h.congr ⟨h.wellFormed.fresh, h.wellFormed.stored, h.wellFormed.indexed⟩ rfl rfl rfl rfl ?_
  exact fun w hw ↦ .inl (List.mem_of_mem_eraseIdx hw)

theorem OnePerKey.key_row (h : OnePerKey m) {tx : Object} (htx : tx ∈ m.log) {row : ObjectRow}
    (hrow : row ∈ m.rows) (hid : row.columns.id = tx.id) :
    orNull row.data.idempotencyKey = orNull tx.idempotencyKey := by
  have hlogged := logged_of_row hrow
  rw [(h.filed row hrow).symm.trans hid] at hlogged
  exact h.key_eq (.inr hlogged) (.inr ⟨tx, htx, rfl, rfl⟩)

theorem OnePerKey.exists_row_upsert (h : OnePerKey m) {tx : Object} (htx : tx ∈ m.log)
    {row : ObjectRow} (hrow : row ∈ m.rows) :
    ∃ row' ∈ upsert m.rows tx, row'.data.id = row.data.id ∧
      orNull row'.data.idempotencyKey = orNull row.data.idempotencyKey := by
  obtain ⟨row', hrow', rfl | ⟨hdata, hcolumn⟩⟩ := exists_mem_upsert hrow tx
  · exact ⟨row', hrow', rfl, rfl⟩
  · refine ⟨row', hrow', ?_, ?_⟩
    · rw [hdata, ← hcolumn, h.filed row hrow]
    · rw [hdata, h.key_row htx hrow hcolumn]

theorem OnePerKey.write (h : OnePerKey m) {n : ℕ} {r : ℕ} {tx : Object}
    (hwrite : m.writes[n]? = some (r, tx)) :
    OnePerKey { m with writes := m.writes.eraseIdx n, rows := upsert m.rows tx } := by
  have htx : tx ∈ m.log := mem_log_of_writes hwrite
  have hpending : (m.keyOf tx.id).isSome := h.pending _ (List.mem_of_getElem? hwrite)
  refine h.of_known ⟨h.wellFormed.fresh, h.wellFormed.stored, h.wellFormed.indexed⟩
    (rowsFiled_upsert h.filed tx) (fun row hrow ↦ ?_) (fun id key hknown ↦ ?_) h.indexed
    (fun w hw ↦ h.pending w (List.mem_of_mem_eraseIdx hw)) (fun tx' htx' ↦ ?_) fun row hrow ↦ ?_
  · rcases mem_upsert hrow with hold | rfl | ⟨old, hold, hid, hdata, -, hkey⟩
    · exact h.columns row hold
    · rfl
    · rw [hkey, h.columns old hold, hdata]
      exact h.key_row htx hold hid
  · refine hknown.imp_right ?_
    rintro ⟨tx', htx', hkey⟩
    exact ⟨tx', mem_log_of_upsert hwrite htx', hkey⟩
  · obtain ⟨row, hrow, hid, hkey⟩ := h.arriving tx' htx'
    obtain ⟨row', hrow', hid', hkey'⟩ := h.exists_row_upsert htx hrow
    exact ⟨row', hrow', hid'.trans hid, hkey'.trans hkey⟩
  · rcases mem_upsert hrow with hold | rfl | ⟨old, -, -, hdata, -⟩
    · exact h.brought row hold
    · exact .inl hpending
    · rw [hdata]
      exact .inl hpending

theorem OnePerKey.execute (h : OnePerKey m) (n : ℕ) (failure : Bool) :
    OnePerKey (m.execute n failure) := by
  cases hwrite : m.writes[n]? with
  | none =>
    rw [Memory.execute, hwrite]
    exact h
  | some w =>
    obtain ⟨r, tx⟩ := w
    rcases execute_cases failure hwrite with ⟨-, heq⟩ | ⟨-, heq⟩
    · rw [heq]
      exact h.lose n
    · rw [heq]
      exact h.write hwrite

theorem OnePerKey.read (h : OnePerKey m) :
    OnePerKey { m with load := .read (m.rows.map (·.data)) } := by
  refine h.of_known ⟨h.wellFormed.fresh, h.wellFormed.stored, h.wellFormed.indexed⟩ h.filed
    h.columns (fun _ _ hknown ↦ hknown) h.indexed h.pending (fun tx htx ↦ ?_) fun row hrow ↦ ?_
  · obtain ⟨row, hrow, rfl⟩ := List.mem_map.mp htx
    exact ⟨row, hrow, rfl, rfl⟩
  · exact .inr (.inr ⟨row.data, List.mem_map_of_mem hrow, rfl⟩)

theorem keyOf_loadAll (h : WellFormed m) (data : List Object) (id : String) :
    (∃ tx ∈ data, tx.id = id ∧
        (m.loadAll data).keyOf id = some (orNull tx.idempotencyKey)) ∨
      (∀ tx ∈ data, tx.id ≠ id) ∧ (m.loadAll data).keyOf id = m.keyOf id := by
  have hfind := find_loadAll h data id
  cases hlatest : latest (fun tx : Object ↦ tx.id) data id with
  | some tx =>
    obtain ⟨hmem, hid⟩ := mem_of_latest hlatest
    rw [hlatest, Option.some_or] at hfind
    exact .inl ⟨tx, hmem, hid, keyOf_of_find hfind⟩
  | none =>
    rw [hlatest, Option.none_or] at hfind
    refine .inr ⟨latest_eq_none_iff.mp hlatest, ?_⟩
    rw [keyOf, hfind, keyOf]

theorem OnePerKey.logged_of_arriving (h : OnePerKey m) {tx : Object} (htx : tx ∈ m.arriving) :
    m.Logged tx.id (orNull tx.idempotencyKey) := by
  obtain ⟨row, hrow, hid, hkey⟩ := h.arriving tx htx
  rw [← hid, ← hkey]
  exact logged_of_row hrow

theorem OnePerKey.keyOf_loadAll_of_some (h : OnePerKey m) {data : List Object}
    (hdata : m.arriving = data) {id : String} {key : Option String}
    (hkey : m.keyOf id = some key) : (m.loadAll data).keyOf id = some key := by
  rcases keyOf_loadAll h.wellFormed data id with ⟨tx, htx, rfl, heq⟩ | ⟨-, heq⟩
  · rw [heq, h.key_eq (.inr (h.logged_of_arriving (hdata ▸ htx))) (.inl hkey)]
  · rw [heq, hkey]

theorem OnePerKey.keyOf_loadAll_of_mem (h : OnePerKey m) {data : List Object}
    (hdata : m.arriving = data) {tx : Object} (htx : tx ∈ data) :
    (m.loadAll data).keyOf tx.id = some (orNull tx.idempotencyKey) := by
  rcases keyOf_loadAll h.wellFormed data tx.id with ⟨tx', htx', hid, heq⟩ | ⟨hnone, -⟩
  · have hlogged := h.logged_of_arriving (hdata ▸ htx')
    rw [hid] at hlogged
    rw [heq, h.key_eq (.inr hlogged) (.inr (h.logged_of_arriving (hdata ▸ htx)))]
  · exact absurd rfl (hnone tx htx)

theorem OnePerKey.finishLoad (h : OnePerKey m) : OnePerKey m.finishLoad := by
  cases hload : m.load with
  | idle | selecting =>
    rw [Memory.finishLoad, hload]
    exact h
  | read data =>
    rw [finishLoad_of_read hload]
    have hdata := arriving_of_read hload
    obtain ⟨hwrites, hrows⟩ := loadAll_writes m data
    have hloaded := h.wellFormed.loadAll data
    have hlog : log { m.loadAll data with load := .idle } = m.log := log_congr hrows hwrites
    have hkept : ∀ {id}, (m.keyOf id).isSome → ((m.loadAll data).keyOf id).isSome := by
      intro id hsome
      obtain ⟨key, hkey⟩ := Option.isSome_iff_exists.mp hsome
      rw [h.keyOf_loadAll_of_some hdata hkey]
      rfl
    refine h.of_known ⟨hloaded.fresh, hloaded.stored, hloaded.indexed⟩ (hrows ▸ h.filed)
      (hrows ▸ h.columns) (fun id key hknown ↦ ?_) (fun k ↦ ?_) (fun w hw ↦ ?_) ?_ fun row hrow ↦ ?_
    · rcases hknown with hkey | ⟨tx, htx, hkey⟩
      · rcases keyOf_loadAll h.wellFormed data id with ⟨tx, htx, rfl, heq⟩ | ⟨-, heq⟩
        · cases heq.symm.trans hkey
          exact .inr (h.logged_of_arriving (hdata ▸ htx))
        · exact .inl (heq.symm.trans hkey)
      · exact .inr ⟨tx, hlog ▸ htx, hkey⟩
    -- a row read adds its key to the index, and its id to the maps
    · refine isSome_index_loadAll.trans ?_
      rw [h.indexed]
      constructor
      · rintro (⟨id, hid⟩ | ⟨tx, htx, hk⟩)
        · exact ⟨id, h.keyOf_loadAll_of_some hdata hid⟩
        · exact ⟨tx.id, (h.keyOf_loadAll_of_mem hdata htx).trans (congrArg some hk)⟩
      · rintro ⟨id, hid⟩
        rcases keyOf_loadAll h.wellFormed data id with ⟨tx, htx, -, heq⟩ | ⟨-, heq⟩
        · exact .inr ⟨tx, htx, Option.some.inj (heq.symm.trans hid)⟩
        · exact .inl ⟨id, heq.symm.trans hid⟩
    · exact hkept (h.pending w (hwrites ▸ hw))
    · rintro tx ⟨⟩
    · left
      rcases h.brought row (hrows ▸ hrow) with hsome | hselecting | ⟨tx, htx, hid⟩
      · exact hkept hsome
      · rw [hload] at hselecting
        cases hselecting
      · rw [← hid]
        exact Option.isSome_iff_exists.mpr ⟨_, h.keyOf_loadAll_of_mem hdata (hdata ▸ htx)⟩

/-- The start of a reload: no write is lost with the maps that are dropped. -/
theorem OnePerKey.beginReload (h : OnePerKey m) (hkeeps : Action.beginReload.KeepsFresh m) :
    OnePerKey m.beginReload := by
  obtain ⟨hwrites, hread⟩ := hkeeps
  have hload := load_beginReload hread
  refine h.of_known (wellFormed_step m .beginReload h.wellFormed) h.filed h.columns
    (fun id key hknown ↦ ?_) (fun k ↦ ?_) (fun w hw ↦ ?_) (fun tx htx ↦ ?_)
    fun row hrow ↦ .inr (.inl hload)
  · rcases hknown with hkey | hlogged
    · cases hkey
    · exact .inr hlogged
  · refine ⟨fun hsome ↦ ?_, fun hid ↦ ?_⟩
    · cases hsome
    · obtain ⟨id, hid⟩ := hid
      cases hid
  · rw [show m.beginReload.writes = [] from hwrites] at hw
    cases hw
  · rw [Memory.arriving, hload] at htx
    cases htx

/-- **One step.** Steps that meet the condition keep ids and keys apart. -/
theorem onePerKey_step {a : Action} (h : OnePerKey m) (hkeeps : a.KeepsFresh m) :
    OnePerKey (m.step a) := by
  have hm' := wellFormed_step m a h.wellFormed
  cases a with
  | call now op =>
    have heffect := effect_step m now op
    generalize m.step (.call now op) = m' at heffect hm' ⊢
    cases heffect with
    | unchanged => exact h
    | created status hop hindex =>
      subst hop
      exact h.insertNew fun id key hknown ↦ h.fresh hkeeps hindex hknown
    | @saved old new hop hfind hid hkey hstatus =>
      have hnew : new.id = op.id := hid.trans (h.wellFormed.id_of_find hfind)
      rw [← hnew] at hm' hfind ⊢
      have hkeyOf := keyOf_save h.wellFormed hfind hkey
      refine h.congr hm' hkeyOf rfl rfl rfl fun w hw ↦ ?_
      refine (List.mem_append.mp hw).imp_right fun hw ↦ ?_
      rw [List.mem_singleton.mp hw, keyOf_of_find hfind, hkey]
    | modified hop hstore hid hkey hstatus =>
      exact h.congr hm' (keyOf_modify m _ hkey) rfl rfl rfl fun w hw ↦ .inl hw
  | edit r e => exact h.congr hm' (keyOf_modify m r e.key_apply) rfl rfl rfl fun w hw ↦ .inl hw
  | execute n failure => exact h.execute n failure
  | beginReload => exact h.beginReload hkeeps
  | select failure =>
    have hfailure : failure = false := hkeeps
    subst hfailure
    rw [step, Memory.select]
    cases hload : m.load with
    | selecting => exact h.read
    | idle | read => exact h
  | finishLoad => exact h.finishLoad

theorem onePerKey_of_rows {rows : List ObjectRow} (hfiled : RowsFiled rows)
    (hcolumns : ∀ row ∈ rows, row.columns.idempotencyKey = orNull row.data.idempotencyKey)
    (hkey : ∀ row ∈ rows, ∀ row' ∈ rows, row.data.id = row'.data.id →
      orNull row.data.idempotencyKey = orNull row'.data.idempotencyKey)
    (hid : ∀ row ∈ rows, ∀ row' ∈ rows, ∀ k, orNull row.data.idempotencyKey = some k →
      orNull row'.data.idempotencyKey = some k → row.data.id = row'.data.id) :
    OnePerKey (starting rows) := by
  have hknown : ∀ {id key}, (starting rows).Known id key →
      ∃ row ∈ rows, row.data.id = id ∧ orNull row.data.idempotencyKey = key := by
    rintro id key (hkey | ⟨tx, htx, rfl, rfl⟩)
    · cases hkey
    · rcases mem_log.mp htx with ⟨row, hrow, rfl⟩ | ⟨w, hw, -⟩
      · exact ⟨row, hrow, rfl, rfl⟩
      · cases hw
  constructor
  · exact wellFormed_starting rows
  · exact hfiled
  · exact hcolumns
  · intro id key key' hk hk'
    obtain ⟨row, hrow, rfl, rfl⟩ := hknown hk
    obtain ⟨row', hrow', heq, rfl⟩ := hknown hk'
    exact hkey row hrow row' hrow' heq.symm
  · intro id id' k hk hk'
    obtain ⟨row, hrow, rfl, hrowk⟩ := hknown hk
    obtain ⟨row', hrow', rfl, hrowk'⟩ := hknown hk'
    exact hid row hrow row' hrow' k hrowk hrowk'
  · intro k
    refine ⟨fun hsome ↦ ?_, fun hid ↦ ?_⟩
    · cases hsome
    · obtain ⟨id, hid⟩ := hid
      cases hid
  · rintro w ⟨⟩
  · rintro tx ⟨⟩
  · exact fun row hrow ↦ .inr (.inl rfl)

theorem onePerKey_starting {rows : List ObjectRow} (h : TableValid rows) :
    OnePerKey (starting rows) := by
  refine onePerKey_of_rows h.filed h.columns (fun row hrow row' hrow' hid ↦ ?_)
    fun row hrow row' hrow' k hk hk' ↦ ?_
  · rw [← h.filed row hrow, ← h.filed row' hrow'] at hid
    rw [h.primary row hrow row' hrow' hid]
  · have hcollides : collides row.columns.idempotencyKey row'.columns.idempotencyKey = true := by
      rw [h.columns row hrow, h.columns row' hrow', hk, hk']
      simp [collides]
    rw [h.unique row hrow row' hrow' hcollides]

/-- The process may start again at any time. -/
theorem OnePerKey.restart (h : OnePerKey m) : OnePerKey (starting m.rows) := by
  refine onePerKey_of_rows h.filed h.columns (fun row hrow row' hrow' hid ↦ ?_)
    fun row hrow row' hrow' k hk hk' ↦ ?_
  · have hlogged := logged_of_row hrow'
    rw [← hid] at hlogged
    exact h.key_eq (.inr (logged_of_row hrow)) (.inr hlogged)
  · have hlogged := logged_of_row hrow
    have hlogged' := logged_of_row hrow'
    rw [hk] at hlogged
    rw [hk'] at hlogged'
    exact h.id_eq (.inr hlogged) (.inr hlogged')

/-! ## Records are kept -/

theorem inTable_execute (h : OnePerKey m) {k id : String} (hrow : m.InTable k id) (n : ℕ)
    (failure : Bool) : (m.execute n failure).InTable k id := by
  cases hwrite : m.writes[n]? with
  | none =>
    rw [execute, hwrite]
    exact hrow
  | some w =>
    obtain ⟨r, tx⟩ := w
    have htx : tx ∈ m.log := mem_log_of_writes hwrite
    rcases execute_cases failure hwrite with ⟨-, heq⟩ | ⟨-, heq⟩
    · rw [heq]
      exact hrow
    · rw [heq]
      obtain ⟨row, hrow, hid, hkey⟩ := hrow
      obtain ⟨row', hrow', hid', hkey'⟩ := h.exists_row_upsert htx hrow
      exact ⟨row', hrow', hid'.trans hid, hkey'.trans hkey⟩

theorem keyOf_execute (m : Memory) (n : ℕ) (failure : Bool) :
    (m.execute n failure).keyOf = m.keyOf ∧ (m.execute n failure).load = m.load := by
  cases hwrite : m.writes[n]? with
  | none =>
    rw [Memory.execute, hwrite]
    exact ⟨rfl, rfl⟩
  | some w =>
    obtain ⟨r, tx⟩ := w
    rcases execute_cases failure hwrite with ⟨-, heq⟩ | ⟨-, heq⟩
    · rw [heq]
      exact ⟨rfl, rfl⟩
    · rw [heq]
      exact ⟨rfl, rfl⟩

theorem loading_congr (hload : m'.load = m.load) : m'.loading = m.loading := by
  rw [loading, hload]
  rfl

/-- **A record that is held stays held**, but for a reload that finds no row of it. -/
theorem OnePerKey.holds_step (h : OnePerKey m) {a : Action} (hkeeps : a.KeepsFresh m)
    {k id : String} (hholds : m.Holds k id) (hreload : a = .beginReload → m.InTable k id) :
    (m.step a).Holds k id := by
  -- a step that changes neither the table nor how far the load is
  have hframe : ∀ {m' : Memory}, (∀ key, m.keyOf id = some key → m'.keyOf id = some key) →
      m'.rows = m.rows → m'.load = m.load → m'.Holds k id := by
    intro m' hkeyOf hrows hload
    refine hholds.imp (hkeyOf _) fun ⟨hloading, hrow⟩ ↦ ⟨?_, ?_⟩
    · rw [loading_congr hload]
      exact hloading
    · obtain ⟨row, hrow, hkey⟩ := hrow
      exact ⟨row, hrows ▸ hrow, hkey⟩
  cases a with
  | call now op =>
    have heffect := effect_step m now op
    generalize m.step (.call now op) = m' at heffect ⊢
    cases heffect with
    | unchanged => exact hholds
    | created status hop hindex =>
      subst hop
      obtain ⟨-, hrows, hload⟩ := insertNew_log m _
      refine hframe (fun key hkey ↦ ?_) hrows hload
      rw [keyOf_insertNew h.wellFormed, NewTransaction.id_object,
        if_neg (h.fresh hkeeps hindex (.inl hkey)).1, hkey]
    | @saved old new hop hfind hid hkey hstatus =>
      have hnew : new.id = op.id := hid.trans (h.wellFormed.id_of_find hfind)
      rw [← hnew] at hfind ⊢
      refine hframe (fun key hkeyOf ↦ ?_) rfl rfl
      rw [keyOf_save h.wellFormed hfind hkey, hkeyOf]
    | modified hop hstore hid hkey hstatus =>
      refine hframe (fun key hkeyOf ↦ ?_) rfl rfl
      rw [keyOf_modify m _ hkey, hkeyOf]
  | edit r e =>
    refine hframe (fun key hkeyOf ↦ ?_) rfl rfl
    rw [step, keyOf_modify m r e.key_apply, hkeyOf]
  | execute n failure =>
    obtain ⟨hkeyOf, hload⟩ := keyOf_execute m n failure
    refine hholds.imp (fun hkey ↦ ?_) fun ⟨hloading, hrow⟩ ↦ ⟨?_, inTable_execute h hrow n failure⟩
    · rw [step, hkeyOf, hkey]
    · rw [step, loading_congr hload]
      exact hloading
  | beginReload =>
    refine .inr ⟨?_, hreload rfl⟩
    rw [step, loading, load_beginReload hkeeps.2]
  | select failure =>
    have hfailure : failure = false := hkeeps
    subst hfailure
    rw [step, Memory.select]
    cases hload : m.load with
    | selecting => exact hholds.imp_right fun ⟨_, hrow⟩ ↦ ⟨rfl, hrow⟩
    | idle | read => exact hholds
  | finishLoad =>
    rw [step]
    cases hload : m.load with
    | idle | selecting =>
      rw [Memory.finishLoad, hload]
      exact hholds
    | read data =>
      rw [finishLoad_of_read hload]
      have hdata := arriving_of_read hload
      left
      show (m.loadAll data).keyOf id = some (some k)
      rcases hholds with hkey | ⟨-, hrow⟩
      · exact h.keyOf_loadAll_of_some hdata hkey
      · -- the row was in memory before, or has arrived
        have hlogged := hrow.logged
        obtain ⟨row, hrow, rfl, hk⟩ := hrow
        rcases h.brought row hrow with hsome | hselecting | ⟨tx, htx, hid⟩
        · obtain ⟨key, hkey⟩ := Option.isSome_iff_exists.mp hsome
          rw [h.keyOf_loadAll_of_some hdata hkey, h.key_eq (.inl hkey) (.inr hlogged)]
        · rw [hload] at hselecting
          cases hselecting
        · have harrived := h.logged_of_arriving htx
          rw [hid] at harrived
          rw [← hid, h.keyOf_loadAll_of_mem hdata (hdata ▸ htx),
            h.key_eq (.inr harrived) (.inr hlogged)]

/-- **A `create` with a key leaves a record with the key.** -/
theorem OnePerKey.holds_create (h : OnePerKey m) {data : NewTransaction} (uuid : String) (now : ℕ)
    (hstatus : isValidState (normalizeState data.status) = true) {k : String}
    (hkey : orNull data.idempotencyKey = some k) :
    ∃ id, (m.step (.call now (.create data uuid))).Holds k id := by
  obtain ⟨status, hstatus'⟩ := isValidState_iff.mp hstatus
  cases hindex : m.index.lookup k with
  | some r =>
    have hcreate : m.create data uuid now = .ok (m, r) := by
      refine Except.bind_eq_ok.mpr ⟨status, assertValidState_eq_ok.mpr hstatus', ?_⟩
      rw [hkey, Option.bind_some, hindex]
      rfl
    obtain ⟨id, hid⟩ := (h.indexed k).mp (Option.isSome_iff_exists.mpr ⟨r, hindex⟩)
    refine ⟨id, .inl ?_⟩
    rw [step, perform, hcreate]
    exact hid
  | none =>
    have hcreate : m.create data uuid now =
        .ok (m.insertNew (data.object status uuid now), m.next) := by
      refine Except.bind_eq_ok.mpr ⟨status, assertValidState_eq_ok.mpr hstatus', ?_⟩
      rw [hkey, Option.bind_some, hindex]
      rfl
    refine ⟨orElse data.id uuid, .inl ?_⟩
    rw [step, perform, hcreate]
    refine (keyOf_insertNew h.wellFormed _ _).trans ?_
    rw [if_pos (data.id_object status uuid now).symm]
    exact congrArg some hkey

end Memory

end StellarDonations.Transactions
