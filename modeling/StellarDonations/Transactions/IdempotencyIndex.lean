import StellarDonations.Transactions.Persistence

/-!
# The index of the idempotency keys

`create` and the load put one object into both maps, so that a `create` with a known key returns the
stored record. The updates put a new object into `_store` only: from then on the index leads to the
object that was replaced, until the next load.

`Aligned` is the invariant of the runs without such updates: whatever has a key in the table or in a
write under way is found by the key exactly as it is found by its id. Loads keep it, since two rows
with one key do not exist, and no write ever meets the key of another record.
-/

namespace StellarDonations.Transactions

open Concurrency JsString

/-! ## Records with a key -/

structure Keyed where
  key : String
  id : String
  deriving DecidableEq

namespace Memory

/-- The records that an operation creates with a key: the object that it returns is new. -/
def keyedBy (m : Memory) (now : ℕ) : Operation → List Keyed
  | .create data uuid =>
    match orNull data.idempotencyKey, m.create data uuid now with
    | some key, .ok (_, r) => if r = m.next then [⟨key, orElse data.id uuid⟩] else []
    | _, _ => []
  | _ => []

def failing (m : Memory) (n : ℕ) (failure : Bool) : Option Object :=
  (m.writes[n]?).bind fun w ↦ if failure || !accepts m.rows w.2 then some w.2 else none

def loading (m : Memory) : Bool :=
  match m.load with
  | .idle => false
  | .selecting | .read _ => true

end Memory

/-- The memory, and the records created with a key whose write has not failed. -/
structure Tracked where
  memory : Memory
  keyed : List Keyed

def Tracked.step (t : Tracked) (a : Action) : Tracked where
  memory := t.memory.step a
  keyed :=
    match a with
    | .call now op => t.keyed ++ t.memory.keyedBy now op
    | .execute n failure => t.keyed.filter fun e ↦
        ∀ tx ∈ t.memory.failing n failure, ¬(tx.id = e.id ∧ orNull tx.idempotencyKey = some e.key)
    | .edit .. | .beginReload | .select _ | .finishLoad => t.keyed

/-! ## What must hold -/

/-- A `create` with the key of a record returns the record as it is stored, and creates nothing. -/
def Tracked.Returns (t : Tracked) : Action → Prop
  | .call now (.create data uuid) => isValidState (normalizeState data.status) = true →
      ∀ e ∈ t.keyed, orNull data.idempotencyKey = some e.key →
        ∃ r tx, t.memory.create data uuid now = .ok (t.memory, r) ∧
          t.memory.objects r = some tx ∧ t.memory.getById e.id = some tx
  | _ => True

/-- A record is created under an id that is not in use, not as a deleted one when it has a key, and
while a load is under way with an id and a key that are not in the table. -/
def Operation.CreatesApart (m : Memory) : Operation → Prop
  | .create data uuid => (orNull data.idempotencyKey).bind m.index.lookup = none →
      m.find (orElse data.id uuid) = none ∧
      (orNull data.idempotencyKey ≠ none → data.deletedAt = none) ∧
      (m.loading = true → ∀ row ∈ m.rows, row.data.id ≠ orElse data.id uuid ∧
        ∀ key ∈ orNull data.idempotencyKey, orNull row.data.idempotencyKey ≠ some key)
  | _ => True

/-- The condition on an operation: records are created apart, and an update is about a record
without a key. -/
def Operation.KeepsIndex (m : Memory) (op : Operation) : Prop :=
  op.CreatesApart m ∧ (op.updates = true → ∀ tx ∈ m.find op.id, orNull tx.idempotencyKey = none)

/-- The condition on a step: operations keep the index, loads succeed, and a reload begins when no
write is under way and no load has read its rows. -/
def Action.KeepsIndex (m : Memory) : Action → Prop
  | call _ op => op.KeepsIndex m
  | select failure => failure = false
  | beginReload => m.writes = [] ∧ m.hasRead = false
  | edit .. | execute .. | finishLoad => True

section Decidable

variable (m : Memory)

instance decidableCreatesApart : DecidablePred (Operation.CreatesApart m)
  | .create data uuid => inferInstanceAs
      (Decidable ((orNull data.idempotencyKey).bind m.index.lookup = none →
        m.find (orElse data.id uuid) = none ∧
        (orNull data.idempotencyKey ≠ none → data.deletedAt = none) ∧
        (m.loading = true → ∀ row ∈ m.rows, row.data.id ≠ orElse data.id uuid ∧
          ∀ key ∈ orNull data.idempotencyKey, orNull row.data.idempotencyKey ≠ some key)))
  | .updateStatus .. | .updateFeeBumpData .. | .updateApprovals .. | .updateMatchedDonationId ..
  | .updateNftData .. | .flagDiscrepancy .. | .resolveDiscrepancy .. =>
    inferInstanceAs (Decidable True)

instance decidableOperationKeepsIndex (op : Operation) : Decidable (op.KeepsIndex m) :=
  inferInstanceAs (Decidable (op.CreatesApart m ∧
    (op.updates = true → ∀ tx ∈ m.find op.id, orNull tx.idempotencyKey = none)))

instance decidableActionKeepsIndex : DecidablePred (Action.KeepsIndex m)
  | .call _ op => decidableOperationKeepsIndex m op
  | .select failure => inferInstanceAs (Decidable (failure = false))
  | .beginReload => inferInstanceAs (Decidable (m.writes = [] ∧ m.hasRead = false))
  | .edit .. | .execute .. | .finishLoad => inferInstanceAs (Decidable True)

end Decidable

/-! ## The references a load makes -/

namespace Memory

variable {m : Memory}

/-- When the objects with the id are those with the key, a load keeps id and key together. -/
theorem agree_loadAll {data : List Object} {id k : String}
    (hdata : ∀ tx ∈ data, tx.id = id ↔ orNull tx.idempotencyKey = some k)
    (h : m.store.lookup id = m.index.lookup k) :
    (m.loadAll data).store.lookup id = (m.loadAll data).index.lookup k := by
  induction data generalizing m with
  | nil => exact h
  | cons tx data ih =>
    refine ih (fun tx' htx' ↦ hdata tx' (List.mem_cons_of_mem _ htx')) ?_
    rw [lookup_loadOne_store, lookup_loadOne_index]
    have hiff := hdata tx List.mem_cons_self
    by_cases hid : id = tx.id
    · rw [if_pos hid, if_pos (hiff.mp hid.symm)]
    · rw [if_neg hid, if_neg fun hkey ↦ hid (hiff.mpr hkey).symm]
      exact h

theorem isSome_lookup_loadAll {data : List Object} {id : String} :
    ((m.loadAll data).store.lookup id).isSome ↔
      (m.store.lookup id).isSome ∨ ∃ tx ∈ data, tx.id = id := by
  induction data generalizing m with
  | nil => simp [loadAll]
  | cons tx data ih =>
    rw [loadAll, List.foldl_cons]
    refine ih.trans ?_
    rw [lookup_loadOne_store, List.exists_mem_cons_iff, ← or_assoc]
    refine or_congr ?_ Iff.rfl
    by_cases hid : id = tx.id
    · simp [hid]
    · simp [hid, Ne.symm hid]

theorem execute_cases {n : ℕ} (failure : Bool) {r : ℕ} {tx : Object}
    (hwrite : m.writes[n]? = some (r, tx)) :
    m.failing n failure = some tx ∧
        m.execute n failure = { m with writes := m.writes.eraseIdx n } ∨
      m.failing n failure = none ∧
        m.execute n failure = { m with
          writes := m.writes.eraseIdx n
          rows := upsert m.rows tx } := by
  rw [failing, execute, hwrite]
  cases failure with
  | true => exact .inl ⟨rfl, onFailure_eq_self not_isIdempotencyConflict_runFailure⟩
  | false =>
    rcases outcome_eq m.rows tx with hwritten | ⟨e, hfailed, hmessage⟩
    · right
      simp [accepts, hwritten]
    · left
      simp [accepts, hfailed, onFailure_eq_self hmessage]

/-! ## The invariant -/

/-- What is persisted with a key is found by the key as it is found by its id. -/
structure Aligned (m : Memory) : Prop where
  wellFormed : WellFormed m
  filed : RowsFiled m.rows
  columns : ∀ row ∈ m.rows, row.columns.idempotencyKey = orNull row.data.idempotencyKey
  /-- A record keeps its key. -/
  key_eq : ∀ tx ∈ m.log, ∀ tx' ∈ m.log, tx.id = tx'.id →
    orNull tx.idempotencyKey = orNull tx'.idempotencyKey
  /-- A key belongs to one record. -/
  id_eq : ∀ tx ∈ m.log, ∀ tx' ∈ m.log, ∀ k, orNull tx.idempotencyKey = some k →
    orNull tx'.idempotencyKey = some k → tx.id = tx'.id
  pending : ∀ w ∈ m.writes, (m.store.lookup w.2.id).isSome
  arriving : ∀ tx ∈ m.arriving, ∃ row ∈ m.rows, row.data.id = tx.id ∧
    orNull row.data.idempotencyKey = orNull tx.idempotencyKey
  /-- What is not in memory is still to be loaded. -/
  brought : ∀ row ∈ m.rows, (m.store.lookup row.data.id).isSome ∨ m.load = .selecting ∨
    ∃ tx ∈ m.arriving, tx.id = row.data.id
  agree : ∀ tx ∈ m.log, ∀ k, orNull tx.idempotencyKey = some k →
    m.store.lookup tx.id = m.index.lookup k

theorem loading_of_load_ne (h : m.load ≠ .idle) : m.loading = true := by
  rw [loading]
  cases hload : m.load with
  | idle => exact absurd hload h
  | selecting | read => rfl

theorem Aligned.apart (h : Aligned m) {data : NewTransaction} {uuid : String}
    (hapart : (Operation.create data uuid).CreatesApart m)
    (hindex : (orNull data.idempotencyKey).bind m.index.lookup = none) {tx : Object}
    (htx : tx ∈ m.log) :
    tx.id ≠ orElse data.id uuid ∧
      ∀ k, orNull data.idempotencyKey = some k → orNull tx.idempotencyKey ≠ some k := by
  obtain ⟨hfind, -, hloading⟩ := hapart hindex
  -- what is in memory is found by its id and by its key
  have hstored : (m.store.lookup tx.id).isSome → tx.id ≠ orElse data.id uuid ∧
      ∀ k, orNull data.idempotencyKey = some k → orNull tx.idempotencyKey ≠ some k := by
    intro hsome
    refine ⟨fun hid ↦ ?_, fun k hk htxk ↦ ?_⟩
    · obtain ⟨r, hr⟩ := Option.isSome_iff_exists.mp hsome
      obtain ⟨tx', hfound, -⟩ := h.wellFormed.find_of_lookup hr
      rw [hid, hfind] at hfound
      cases hfound
    · rw [hk] at hindex
      rw [h.agree tx htx k htxk] at hsome
      rw [show m.index.lookup k = none from hindex] at hsome
      cases hsome
  rcases mem_log.mp htx with ⟨row, hrow, rfl⟩ | ⟨w, hw, rfl⟩
  · rcases h.brought row hrow with hsome | hbrought
    · exact hstored hsome
    · have hne : m.load ≠ .idle := by
        intro hidle
        rcases hbrought with hselecting | ⟨tx, hmem, -⟩
        · rw [hidle] at hselecting
          cases hselecting
        · rw [Memory.arriving, hidle] at hmem
          cases hmem
      obtain ⟨hid, hkey⟩ := hloading (loading_of_load_ne hne) row hrow
      exact ⟨hid, fun k hk ↦ hkey k hk⟩
  · exact hstored (h.pending w hw)

theorem Aligned.congr (h : Aligned m) {m' : Memory} (hm' : WellFormed m')
    (hstore : m'.store = m.store) (hindex : m'.index = m.index) (hrows : m'.rows = m.rows)
    (hwrites : m'.writes = m.writes) (hload : m'.load = m.load) : Aligned m' := by
  have hlog : m'.log = m.log := log_congr hrows hwrites
  have harriving : m'.arriving = m.arriving := arriving_congr hload
  constructor
  · exact hm'
  · exact hrows ▸ h.filed
  · exact hrows ▸ h.columns
  · exact hlog ▸ h.key_eq
  · exact hlog ▸ h.id_eq
  · rw [hwrites, hstore]
    exact h.pending
  · rw [harriving, hrows]
    exact h.arriving
  · rw [hrows, hstore, hload, harriving]
    exact h.brought
  · rw [hlog, hstore, hindex]
    exact h.agree

/-- An object is stored and persisted whose key is not in use, and whose id is in use only where
there is no key. -/
theorem Aligned.append (h : Aligned m) {m' : Memory} (hm' : WellFormed m')
    (hrows : m'.rows = m.rows) (hload : m'.load = m.load) {r : ℕ} {new : Object}
    (hwrites : m'.writes = m.writes ++ [(r, new)])
    (hstore : ∀ id, m'.store.lookup id = if id = new.id then some r else m.store.lookup id)
    (hindex : ∀ k, m'.index.lookup k =
      if orNull new.idempotencyKey = some k then some r else m.index.lookup k)
    (hid : ∀ tx ∈ m.log, tx.id = new.id →
      orNull tx.idempotencyKey = none ∧ orNull new.idempotencyKey = none)
    (hkey : ∀ tx ∈ m.log, ∀ k, orNull new.idempotencyKey = some k →
      orNull tx.idempotencyKey ≠ some k) : Aligned m' := by
  have hlog : ∀ tx, tx ∈ m'.log ↔ tx ∈ m.log ∨ tx = new := mem_log_concat hrows hwrites
  have harriving : m'.arriving = m.arriving := arriving_congr hload
  have hsome : ∀ id, (m.store.lookup id).isSome → (m'.store.lookup id).isSome := by
    intro id hsome
    rw [hstore]
    split_ifs
    · rfl
    · exact hsome
  constructor
  · exact hm'
  · exact hrows ▸ h.filed
  · exact hrows ▸ h.columns
  · intro tx htx tx' htx' heq
    rcases (hlog tx).mp htx with hold | rfl
    · rcases (hlog tx').mp htx' with hold' | rfl
      · exact h.key_eq tx hold tx' hold' heq
      · obtain ⟨hnone, hnone'⟩ := hid tx hold heq
        rw [hnone, hnone']
    · rcases (hlog tx').mp htx' with hold' | rfl
      · obtain ⟨hnone, hnone'⟩ := hid tx' hold' heq.symm
        rw [hnone, hnone']
      · rfl
  · intro tx htx tx' htx' k hk hk'
    rcases (hlog tx).mp htx with hold | rfl
    · rcases (hlog tx').mp htx' with hold' | rfl
      · exact h.id_eq tx hold tx' hold' k hk hk'
      · exact absurd hk (hkey tx hold k hk')
    · rcases (hlog tx').mp htx' with hold' | rfl
      · exact absurd hk' (hkey tx' hold' k hk)
      · rfl
  · intro w hw
    rw [hwrites] at hw
    rcases List.mem_append.mp hw with hold | hnew
    · exact hsome _ (h.pending w hold)
    · rw [List.mem_singleton.mp hnew, hstore, if_pos rfl]
      rfl
  · rw [harriving, hrows]
    exact h.arriving
  · intro row hrow
    rw [hrows] at hrow
    rw [hload, harriving]
    exact (h.brought row hrow).imp_left (hsome _)
  · intro tx htx k hk
    rw [hstore, hindex]
    rcases (hlog tx).mp htx with hold | rfl
    · have hne : tx.id ≠ new.id := by
        intro heq
        rw [(hid tx hold heq).1] at hk
        cases hk
      rw [if_neg hne, if_neg fun hnew ↦ hkey tx hold k hnew hk]
      exact h.agree tx hold k hk
    · rw [if_pos rfl, if_pos hk]

theorem Aligned.lose (h : Aligned m) (n : ℕ) :
    Aligned { m with writes := m.writes.eraseIdx n } := by
  have hlog : ∀ tx ∈ log { m with writes := m.writes.eraseIdx n }, tx ∈ m.log :=
    fun tx ↦ mem_log_of_eraseIdx
  constructor
  · exact ⟨h.wellFormed.fresh, h.wellFormed.stored, h.wellFormed.indexed⟩
  · exact h.filed
  · exact h.columns
  · exact fun tx htx tx' htx' ↦ h.key_eq tx (hlog tx htx) tx' (hlog tx' htx')
  · exact fun tx htx tx' htx' ↦ h.id_eq tx (hlog tx htx) tx' (hlog tx' htx')
  · exact fun w hw ↦ h.pending w (List.mem_of_mem_eraseIdx hw)
  · exact h.arriving
  · exact h.brought
  · exact fun tx htx ↦ h.agree tx (hlog tx htx)

theorem Aligned.write (h : Aligned m) {n : ℕ} {r : ℕ} {tx : Object}
    (hwrite : m.writes[n]? = some (r, tx)) :
    Aligned { m with writes := m.writes.eraseIdx n, rows := upsert m.rows tx } := by
  have hmem : (r, tx) ∈ m.writes := List.mem_of_getElem? hwrite
  have htx : tx ∈ m.log := mem_log.mpr (.inr ⟨_, hmem, rfl⟩)
  have hrow : ∀ row ∈ m.rows, row.data ∈ m.log := fun row hrow ↦ mem_log.mpr (.inl ⟨row, hrow, rfl⟩)
  -- the rows of the id had the key of the object
  have hsame : ∀ row ∈ m.rows, row.columns.id = tx.id →
      orNull row.data.idempotencyKey = orNull tx.idempotencyKey := by
    intro row hrow' hid
    exact h.key_eq row.data (hrow row hrow') tx htx ((h.filed row hrow').symm.trans hid)
  have hlog : ∀ tx' ∈ log { m with writes := m.writes.eraseIdx n, rows := upsert m.rows tx },
      tx' ∈ m.log := fun tx' ↦ mem_log_of_upsert hwrite
  constructor
  · exact ⟨h.wellFormed.fresh, h.wellFormed.stored, h.wellFormed.indexed⟩
  · exact rowsFiled_upsert h.filed tx
  · intro row hmem'
    rcases mem_upsert hmem' with hold | rfl | ⟨old, hold, hid, hdata, -, hkey⟩
    · exact h.columns row hold
    · rfl
    · rw [hkey, h.columns old hold, hdata]
      exact hsame old hold hid
  · exact fun tx' htx' tx'' htx'' ↦ h.key_eq tx' (hlog tx' htx') tx'' (hlog tx'' htx'')
  · exact fun tx' htx' tx'' htx'' ↦ h.id_eq tx' (hlog tx' htx') tx'' (hlog tx'' htx'')
  · exact fun w hw ↦ h.pending w (List.mem_of_mem_eraseIdx hw)
  · intro tx' htx'
    obtain ⟨row, hmem', hid, hkey⟩ := h.arriving tx' htx'
    obtain ⟨row', hrow', rfl | ⟨hdata, hcolumn⟩⟩ := exists_mem_upsert hmem' tx
    · exact ⟨row', hrow', hid, hkey⟩
    · refine ⟨row', hrow', ?_, ?_⟩
      · rw [hdata, ← hid, ← h.filed row hmem', hcolumn]
      · rw [hdata, ← hkey, hsame row hmem' hcolumn]
  · intro row hmem'
    rcases mem_upsert hmem' with hold | rfl | ⟨old, -, -, hdata, -⟩
    · exact h.brought row hold
    · exact .inl (h.pending _ hmem)
    · rw [hdata]
      exact .inl (h.pending _ hmem)
  · exact fun tx' htx' ↦ h.agree tx' (hlog tx' htx')

theorem Aligned.read (h : Aligned m) : Aligned { m with load := .read (m.rows.map (·.data)) } where
  wellFormed := ⟨h.wellFormed.fresh, h.wellFormed.stored, h.wellFormed.indexed⟩
  filed := h.filed
  columns := h.columns
  key_eq := h.key_eq
  id_eq := h.id_eq
  pending := h.pending
  arriving := by
    intro tx htx
    obtain ⟨row, hrow, rfl⟩ := List.mem_map.mp htx
    exact ⟨row, hrow, rfl, rfl⟩
  brought := fun row hrow ↦ .inr (.inr ⟨row.data, List.mem_map_of_mem hrow, rfl⟩)
  agree := h.agree

/-- The objects that arrive with the id of a record are those with its key. -/
theorem Aligned.arriving_iff (h : Aligned m) {tx : Object} (htx : tx ∈ m.log) {k : String}
    (hk : orNull tx.idempotencyKey = some k) {tx' : Object} (htx' : tx' ∈ m.arriving) :
    tx'.id = tx.id ↔ orNull tx'.idempotencyKey = some k := by
  obtain ⟨row, hrow, hid, hkey⟩ := h.arriving tx' htx'
  have hmem : row.data ∈ m.log := mem_log.mpr (.inl ⟨row, hrow, rfl⟩)
  rw [← hid, ← hkey]
  constructor
  · intro heq
    rw [h.key_eq row.data hmem tx htx heq, hk]
  · intro hrowk
    exact h.id_eq row.data hmem tx htx k hrowk hk

theorem Aligned.finishLoad (h : Aligned m) : Aligned m.finishLoad := by
  cases hload : m.load with
  | idle | selecting =>
    rw [Memory.finishLoad, hload]
    exact h
  | read data =>
    rw [finishLoad_of_read hload]
    obtain ⟨hwrites, hrows⟩ := loadAll_writes m data
    have hloaded := h.wellFormed.loadAll data
    have hlog : log { m.loadAll data with load := .idle } = m.log := log_congr hrows hwrites
    have hdata := arriving_of_read hload
    constructor
    · exact ⟨hloaded.fresh, hloaded.stored, hloaded.indexed⟩
    · exact hrows ▸ h.filed
    · exact hrows ▸ h.columns
    · exact hlog ▸ h.key_eq
    · exact hlog ▸ h.id_eq
    · intro w hw
      rw [hwrites] at hw
      exact isSome_lookup_loadAll.mpr (.inl (h.pending w hw))
    · rintro tx ⟨⟩
    · intro row hrow
      rw [hrows] at hrow
      left
      rcases h.brought row hrow with hsome | hselecting | harriving
      · exact isSome_lookup_loadAll.mpr (.inl hsome)
      · rw [hload] at hselecting
        cases hselecting
      · rw [hdata] at harriving
        exact isSome_lookup_loadAll.mpr (.inr harriving)
    · intro tx htx k hk
      rw [hlog] at htx
      refine agree_loadAll (fun tx' htx' ↦ ?_) (h.agree tx htx k hk)
      exact h.arriving_iff htx hk (hdata ▸ htx')

theorem Aligned.key_eq_none (h : Aligned m) {id : String} {old : Object}
    (hfind : m.find id = some old) (hold : orNull old.idempotencyKey = none) {tx : Object}
    (htx : tx ∈ m.log) (hid : tx.id = id) : orNull tx.idempotencyKey = none := by
  by_contra hne
  obtain ⟨k, hk⟩ := Option.ne_none_iff_exists'.mp hne
  obtain ⟨r, hr, hobj⟩ := Option.bind_eq_some_iff.mp hfind
  have hindex : m.index.lookup k = some r := by
    rw [← h.agree tx htx k hk, hid, hr]
  obtain ⟨tx', hobj', hkey'⟩ := h.wellFormed.indexed k r hindex
  rw [hobj] at hobj'
  cases hobj'
  rw [hold] at hkey'
  cases hkey'

theorem Aligned.beginReload (h : Aligned m) (hkeeps : Action.beginReload.KeepsIndex m) :
    Aligned (m.step .beginReload) := by
  obtain ⟨hwrites, hread⟩ := hkeeps
  have hload := load_beginReload hread
  constructor
  · exact wellFormed_step m .beginReload h.wellFormed
  · exact h.filed
  · exact h.columns
  · exact h.key_eq
  · exact h.id_eq
  · intro w hw
    rw [show (m.step .beginReload).writes = [] from hwrites] at hw
    cases hw
  · intro tx htx
    rw [Memory.arriving, show (m.step .beginReload).load = .selecting from hload] at htx
    cases htx
  · exact fun row hrow ↦ .inr (.inl hload)
  · exact fun tx htx k hk ↦ rfl

/-- **One step.** Steps that meet the condition keep the maps aligned. -/
theorem aligned_step {a : Action} (h : Aligned m) (hkeeps : a.KeepsIndex m) :
    Aligned (m.step a) := by
  have hm' := wellFormed_step m a h.wellFormed
  cases a with
  | call now op =>
    obtain ⟨hapart, hupdates⟩ := hkeeps
    have heffect := effect_step m now op
    generalize m.step (.call now op) = m' at heffect hm' ⊢
    cases heffect with
    | unchanged => exact h
    | created status hop hindex =>
      subst hop
      obtain ⟨hwrites, hrows, hload⟩ := insertNew_log m _
      refine h.append hm' hrows hload hwrites (lookup_loadOne_store m _) (lookup_loadOne_index m _)
        (fun tx htx hid ↦ ?_) fun tx htx ↦ (h.apart hapart hindex htx).2
      exact absurd hid (h.apart hapart hindex htx).1
    | @saved old new hop hfind hid hkey hstatus =>
      have hid' : new.id = op.id := hid.trans (h.wellFormed.id_of_find hfind)
      have hold : orNull old.idempotencyKey = none := hupdates hop old hfind
      have hnew : orNull new.idempotencyKey = none := by rw [hkey, hold]
      rw [← hid'] at hm' hfind ⊢
      refine h.append hm' rfl rfl rfl (lookup_save_store m new.id new) (fun k ↦ ?_)
        (fun tx htx heq ↦ ⟨h.key_eq_none hfind hold htx heq, hnew⟩) fun tx htx k hk ↦ ?_
      · rw [hnew]
        rfl
      · rw [hnew] at hk
        cases hk
    | modified => exact h.congr hm' rfl rfl rfl rfl rfl
  | edit r e => exact h.congr hm' rfl rfl rfl rfl rfl
  | execute n failure =>
    rw [step]
    cases hwrite : m.writes[n]? with
    | none =>
      rw [execute, hwrite]
      exact h
    | some w =>
      obtain ⟨r, tx⟩ := w
      rcases execute_cases failure hwrite with ⟨-, heq⟩ | ⟨-, heq⟩
      · rw [heq]
        exact h.lose n
      · rw [heq]
        exact h.write hwrite
  | beginReload => exact h.beginReload hkeeps
  | select failure =>
    have hfailure : failure = false := hkeeps
    subst hfailure
    rw [step, Memory.select]
    cases hload : m.load with
    | selecting => exact h.read
    | idle | read => exact h
  | finishLoad => exact h.finishLoad

/-! ## The records followed -/

/-- The record is persisted with its key, and nobody holds a deleted version of it. -/
structure Follows (m : Memory) (e : Keyed) : Prop where
  logged : ∃ tx ∈ m.log, tx.id = e.id ∧ orNull tx.idempotencyKey = some e.key
  undeleted : ∀ tx, tx ∈ m.log ∨ tx ∈ m.arriving → tx.id = e.id → tx.deletedAt = none
  found : ∀ tx, m.find e.id = some tx → tx.deletedAt = none

variable {e : Keyed}

theorem Follows.lookup (h : Aligned m) (hf : Follows m e) :
    m.store.lookup e.id = m.index.lookup e.key := by
  obtain ⟨tx, htx, hid, hkey⟩ := hf.logged
  rw [← hid]
  exact h.agree tx htx e.key hkey

theorem Follows.append (hf : Follows m e) {m' : Memory} (hrows : m'.rows = m.rows)
    (hload : m'.load = m.load) {r : ℕ} {new : Object} (hwrites : m'.writes = m.writes ++ [(r, new)])
    (hfind : ∀ id, m'.find id = if id = new.id then some new else m.find id)
    (hne : new.id ≠ e.id) : Follows m' e := by
  have hlog : ∀ tx, tx ∈ m'.log ↔ tx ∈ m.log ∨ tx = new := mem_log_concat hrows hwrites
  have harriving : m'.arriving = m.arriving := arriving_congr hload
  obtain ⟨tx, htx, htracked⟩ := hf.logged
  refine ⟨⟨tx, (hlog tx).mpr (.inl htx), htracked⟩, fun tx htx hid ↦ ?_, fun tx htx ↦ ?_⟩
  · rw [hlog, harriving] at htx
    rcases htx with (hold | rfl) | hold
    · exact hf.undeleted tx (.inl hold) hid
    · exact absurd hid hne
    · exact hf.undeleted tx (.inr hold) hid
  · rw [hfind, if_neg (Ne.symm hne)] at htx
    exact hf.found tx htx

theorem Follows.modify (hf : Follows m e) (r : ℕ) {f : Object → Object}
    (hdeleted : ∀ tx, (f tx).deletedAt = tx.deletedAt) : Follows (m.modify r f) e := by
  refine ⟨hf.logged, hf.undeleted, fun tx htx ↦ ?_⟩
  rw [find_modify] at htx
  split_ifs at htx
  · obtain ⟨old, hold, rfl⟩ := Option.map_eq_some_iff.mp htx
    rw [hdeleted]
    exact hf.found old hold
  · exact hf.found tx htx

theorem Follows.lose (hf : Follows m e) {n : ℕ} {r : ℕ} {tx : Object}
    (hwrite : m.writes[n]? = some (r, tx))
    (hother : ¬(tx.id = e.id ∧ orNull tx.idempotencyKey = some e.key)) :
    Follows { m with writes := m.writes.eraseIdx n } e := by
  obtain ⟨tx', htx', htracked⟩ := hf.logged
  refine ⟨⟨tx', ?_, htracked⟩, fun tx'' htx'' ↦ hf.undeleted tx'' ?_, hf.found⟩
  · refine List.mem_append.mpr ((List.mem_append.mp htx').imp_right fun hmem ↦ ?_)
    rw [writes_split hwrite] at hmem
    rw [List.eraseIdx_eq_take_drop_succ, List.map_append]
    rcases List.mem_append.mp hmem with hleft | hright
    · exact List.mem_append_left _ hleft
    · rcases List.mem_cons.mp hright with rfl | hright
      · exact absurd htracked hother
      · exact List.mem_append_right _ hright
  · exact htx''.imp_left mem_log_of_eraseIdx

theorem Follows.write (h : Aligned m) (hf : Follows m e) {n : ℕ} {r : ℕ} {tx : Object}
    (hwrite : m.writes[n]? = some (r, tx)) :
    Follows { m with writes := m.writes.eraseIdx n, rows := upsert m.rows tx } e := by
  have htx : tx ∈ m.log := mem_log_of_writes hwrite
  obtain ⟨old, hold, hid, hkey⟩ := hf.logged
  refine ⟨?_, fun tx' htx' ↦ hf.undeleted tx' ?_, hf.found⟩
  · rcases mem_log.mp hold with ⟨row, hrow, rfl⟩ | ⟨w, hw, rfl⟩
    · -- the row stays, or holds the new object of the same record
      obtain ⟨row', hrow', rfl | ⟨hdata, hcolumn⟩⟩ := exists_mem_upsert hrow tx
      · exact ⟨row'.data, mem_log.mpr (.inl ⟨row', hrow', rfl⟩), hid, hkey⟩
      · have heq : row.data.id = tx.id := (h.filed row hrow).symm.trans hcolumn
        refine ⟨row'.data, mem_log.mpr (.inl ⟨row', hrow', rfl⟩), ?_, ?_⟩
        · rw [hdata, ← heq, hid]
        · rw [hdata, ← h.key_eq row.data hold tx htx heq, hkey]
    · -- the write stays under way, or its object is in the table now
      have hmem : w.2 ∈ m.writes.map (·.2) := List.mem_map_of_mem hw
      rw [writes_split hwrite] at hmem
      rcases List.mem_append.mp hmem with hleft | hright
      · refine ⟨w.2, List.mem_append_right _ ?_, hid, hkey⟩
        rw [List.eraseIdx_eq_take_drop_succ, List.map_append]
        exact List.mem_append_left _ hleft
      · rcases List.mem_cons.mp hright with heq | hright
        · obtain ⟨row, hrow, hdata⟩ := exists_mem_upsert_self m.rows tx
          refine ⟨tx, mem_log.mpr (.inl ⟨row, hrow, hdata⟩), ?_, ?_⟩
          · rw [← heq, hid]
          · rw [← heq, hkey]
        · refine ⟨w.2, List.mem_append_right _ ?_, hid, hkey⟩
          rw [List.eraseIdx_eq_take_drop_succ, List.map_append]
          exact List.mem_append_right _ hright
  · exact htx'.imp_left (mem_log_of_upsert hwrite)

theorem Follows.finishLoad (h : Aligned m) (hf : Follows m e) : Follows m.finishLoad e := by
  cases hload : m.load with
  | idle | selecting =>
    rw [Memory.finishLoad, hload]
    exact hf
  | read data =>
    rw [finishLoad_of_read hload]
    obtain ⟨hwrites, hrows⟩ := loadAll_writes m data
    have hlog : log { m.loadAll data with load := .idle } = m.log := log_congr hrows hwrites
    refine ⟨hlog ▸ hf.logged, fun tx htx ↦ ?_, fun tx htx ↦ ?_⟩
    · rw [hlog] at htx
      exact hf.undeleted tx (htx.imp_right fun h ↦ absurd h List.not_mem_nil)
    · replace htx := (find_loadAll h.wellFormed data e.id).symm.trans htx
      rcases Option.or_eq_some_iff.mp htx with hlatest | ⟨-, hfound⟩
      · obtain ⟨hmem, hid⟩ := Log.mem_of_latest hlatest
        exact hf.undeleted tx (.inr ((arriving_of_read hload).symm ▸ hmem)) hid
      · exact hf.found tx hfound

/-- A record is followed through every step, unless its write fails. -/
theorem follows_step {a : Action} (h : Aligned m) (hf : Follows m e) (hkeeps : a.KeepsIndex m)
    (hpersisted : ∀ n failure, a = .execute n failure → ∀ tx ∈ m.failing n failure,
      ¬(tx.id = e.id ∧ orNull tx.idempotencyKey = some e.key)) : Follows (m.step a) e := by
  obtain ⟨tracked, htracked, hid, hkey⟩ := hf.logged
  cases a with
  | call now op =>
    obtain ⟨hapart, hupdates⟩ := hkeeps
    have heffect := effect_step m now op
    generalize m.step (.call now op) = m' at heffect ⊢
    cases heffect with
    | unchanged => exact hf
    | created status hop hindex =>
      subst hop
      obtain ⟨hwrites, hrows, hload⟩ := insertNew_log m _
      refine hf.append hrows hload hwrites (find_insertNew h.wellFormed _) ?_
      rw [← hid]
      exact (h.apart hapart hindex htracked).1.symm
    | @saved old new hop hfind hid' hkey' hstatus =>
      have hnew : new.id = op.id := hid'.trans (h.wellFormed.id_of_find hfind)
      rw [← hnew] at hfind ⊢
      refine hf.append rfl rfl rfl (find_save h.wellFormed new.id new) fun heq ↦ ?_
      have hold : orNull old.idempotencyKey = none := hupdates hop old (hnew ▸ hfind)
      have hnone := h.key_eq_none hfind hold htracked (hid.trans heq.symm)
      rw [hkey] at hnone
      cases hnone
    | modified hop hstore hid' hkey' hstatus hdeleted => exact hf.modify _ hdeleted
  | edit r edit => exact hf.modify r edit.deletedAt_apply
  | execute n failure =>
    rw [step]
    cases hwrite : m.writes[n]? with
    | none =>
      rw [execute, hwrite]
      exact hf
    | some w =>
      obtain ⟨r, tx⟩ := w
      rcases execute_cases failure hwrite with ⟨hfailing, heq⟩ | ⟨-, heq⟩
      · rw [heq]
        exact hf.lose hwrite (hpersisted n failure rfl tx hfailing)
      · rw [heq]
        exact hf.write h hwrite
  | beginReload =>
    have hload := load_beginReload hkeeps.2
    refine ⟨hf.logged, fun tx htx ↦ hf.undeleted tx (.inl ?_), by rintro tx ⟨⟩⟩
    refine htx.resolve_right fun harriving ↦ ?_
    rw [arriving, show (m.step .beginReload).load = .selecting from hload] at harriving
    cases harriving
  | select failure =>
    have hfailure : failure = false := hkeeps
    subst hfailure
    rw [step, Memory.select]
    cases hload : m.load with
    | selecting =>
      refine ⟨hf.logged, fun tx htx ↦ hf.undeleted tx (.inl ?_), hf.found⟩
      exact htx.elim (fun hlog ↦ hlog) fun harriving ↦ List.mem_append_left _ harriving
    | idle | read => exact hf
  | finishLoad => exact hf.finishLoad h

theorem create_eq_ok {data : NewTransaction} {uuid : String} {now : ℕ} {m' : Memory} {r : ℕ}
    (h : m.create data uuid now = .ok (m', r)) :
    (orNull data.idempotencyKey).bind m.index.lookup = some r ∧ m' = m ∨
      (orNull data.idempotencyKey).bind m.index.lookup = none ∧
        ∃ status, m' = m.insertNew (data.object status uuid now) := by
  obtain ⟨status, -, h⟩ := Except.bind_eq_ok.mp h
  cases hindex : (orNull data.idempotencyKey).bind m.index.lookup with
  | some existing =>
    rw [hindex] at h
    cases h
    exact .inl ⟨rfl, rfl⟩
  | none =>
    rw [hindex] at h
    cases h
    exact .inr ⟨rfl, status, rfl⟩

/-- A record created with a key is followed from then on. -/
theorem follows_created (h : Aligned m) {now : ℕ} {op : Operation} (hkeeps : op.KeepsIndex m)
    (he : e ∈ m.keyedBy now op) : Follows (m.step (.call now op)) e := by
  cases op with
  | create data uuid =>
    rw [keyedBy] at he
    split at he
    · next key m' r hkey hcreate =>
      split_ifs at he with hr
      · rw [List.mem_singleton.mp he]
        have hstep : m.step (.call now (.create data uuid)) = m' := by
          rw [step, perform, hcreate]
          rfl
        rw [hstep]
        rcases create_eq_ok hcreate with ⟨hindex, -⟩ | ⟨hindex, status, rfl⟩
        · -- an object that was there is not the newest
          rw [hkey] at hindex
          obtain ⟨tx, hobj, -⟩ := h.wellFormed.indexed key r hindex
          exact absurd hr (h.wellFormed.lt_next hobj).ne
        · obtain ⟨hfind, hdeleted, -⟩ := hkeeps.1 hindex
          have hundeleted : data.deletedAt = none :=
            hdeleted (by rw [hkey]; exact Option.some_ne_none _)
          obtain ⟨hwrites, hrows, hload⟩ := insertNew_log m (data.object status uuid now)
          have hapart : ∀ tx ∈ m.log, tx.id ≠ orElse data.id uuid :=
            fun tx htx ↦ (h.apart hkeeps.1 hindex htx).1
          refine ⟨⟨data.object status uuid now, ?_, rfl, hkey⟩, fun tx htx hid ↦ ?_,
            fun tx htx ↦ ?_⟩
          · rw [log, hwrites, List.map_append]
            exact List.mem_append_right _ (List.mem_append_right _ List.mem_cons_self)
          · rw [log, hrows, hwrites, List.map_append, ← List.append_assoc, arriving, hload] at htx
            rcases htx with hlog | harriving
            · rcases List.mem_append.mp hlog with hold | hnew
              · exact absurd hid (hapart tx hold)
              · rw [List.mem_singleton.mp hnew]
                exact hundeleted
            · obtain ⟨row, hrow, hrowid, -⟩ := h.arriving tx harriving
              have hne := hapart row.data (mem_log.mpr (.inl ⟨row, hrow, rfl⟩))
              exact absurd (hrowid.trans hid) hne
          · rw [find_insertNew h.wellFormed, data.id_object, if_pos rfl] at htx
            cases htx
            exact hundeleted
      · cases he
    · cases he
  | _ => cases he

/-- **What the index returns.** -/
theorem Follows.returns (h : Aligned m) (hf : Follows m e) {data : NewTransaction} {uuid : String}
    (now : ℕ) (hapart : (Operation.create data uuid).CreatesApart m)
    (hstatus : isValidState (normalizeState data.status) = true)
    (hkey : orNull data.idempotencyKey = some e.key) :
    ∃ r tx, m.create data uuid now = .ok (m, r) ∧ m.objects r = some tx ∧
      m.getById e.id = some tx := by
  obtain ⟨tracked, htracked, hid, htkey⟩ := hf.logged
  have hindex : (m.index.lookup e.key).isSome := by
    by_contra hnone
    have hbind : (orNull data.idempotencyKey).bind m.index.lookup = none := by
      rw [hkey]
      exact Option.not_isSome_iff_eq_none.mp hnone
    exact (h.apart hapart hbind htracked).2 e.key hkey htkey
  obtain ⟨r, hr⟩ := Option.isSome_iff_exists.mp hindex
  have hstore : m.store.lookup e.id = some r := (hf.lookup h).trans hr
  obtain ⟨tx, hfind, hobj⟩ := h.wellFormed.find_of_lookup hstore
  obtain ⟨status, hstatus'⟩ := isValidState_iff.mp hstatus
  refine ⟨r, tx, ?_, hobj, ?_⟩
  · have hbind : (orNull data.idempotencyKey).bind m.index.lookup = some r := by
      rw [hkey]
      exact hr
    refine Except.bind_eq_ok.mpr ⟨status, assertValidState_eq_ok.mpr hstatus', ?_⟩
    rw [hbind]
    rfl
  · rw [getById, hfind]
    simp [hf.found tx hfind]

end Memory

/-! ## Runs -/

def Tracked.Aligned (t : Tracked) : Prop :=
  t.memory.Aligned ∧ ∀ e ∈ t.keyed, t.memory.Follows e

theorem Tracked.aligned_step {t : Tracked} {a : Action} (h : t.Aligned)
    (hkeeps : a.KeepsIndex t.memory) : (t.step a).Aligned := by
  refine ⟨Memory.aligned_step h.1 hkeeps, fun e he ↦ ?_⟩
  cases a with
  | call now op =>
    rcases List.mem_append.mp he with hold | hnew
    · exact Memory.follows_step h.1 (h.2 e hold) hkeeps nofun
    · exact Memory.follows_created h.1 hkeeps hnew
  | execute n failure =>
    obtain ⟨hold, hpersisted⟩ := List.mem_filter.mp he
    refine Memory.follows_step h.1 (h.2 e hold) hkeeps ?_
    rintro n' failure' ⟨⟩
    exact of_decide_eq_true hpersisted
  | edit | beginReload | select | finishLoad =>
    exact Memory.follows_step h.1 (h.2 e he) hkeeps nofun

theorem Tracked.returns_of_aligned {t : Tracked} {a : Action} (h : t.Aligned)
    (hkeeps : a.KeepsIndex t.memory) : t.Returns a := by
  cases a with
  | call now op =>
    cases op with
    | create data uuid =>
      intro hstatus e he hkey
      exact (h.2 e he).returns h.1 now hkeeps.1 hstatus hkey
    | _ => trivial
  | _ => trivial

/-- The table as its constraints leave it: rows are what `_persist` writes, `id` is the primary key
and `idempotency_key` is unique. -/
structure TableValid (rows : List ObjectRow) : Prop where
  filed : RowsFiled rows
  columns : ∀ row ∈ rows, row.columns.idempotencyKey = orNull row.data.idempotencyKey
  primary : ∀ row ∈ rows, ∀ row' ∈ rows, row.columns.id = row'.columns.id → row = row'
  unique : ∀ row ∈ rows, ∀ row' ∈ rows,
    collides row.columns.idempotencyKey row'.columns.idempotencyKey = true → row = row'

theorem Memory.aligned_starting {rows : List ObjectRow} (h : TableValid rows) :
    (Memory.starting rows).Aligned := by
  have hlog : ∀ tx ∈ (Memory.starting rows).log, ∃ row ∈ rows, row.data = tx := by
    intro tx htx
    exact (Memory.mem_log.mp htx).resolve_right (by rintro ⟨w, ⟨⟩, -⟩)
  constructor
  · exact Memory.wellFormed_starting rows
  · exact h.filed
  · exact h.columns
  · intro tx htx tx' htx' hid
    obtain ⟨row, hrow, rfl⟩ := hlog tx htx
    obtain ⟨row', hrow', rfl⟩ := hlog tx' htx'
    rw [← h.filed row hrow, ← h.filed row' hrow'] at hid
    rw [h.primary row hrow row' hrow' hid]
  · intro tx htx tx' htx' k hk hk'
    obtain ⟨row, hrow, rfl⟩ := hlog tx htx
    obtain ⟨row', hrow', rfl⟩ := hlog tx' htx'
    have hcollides : collides row.columns.idempotencyKey row'.columns.idempotencyKey = true := by
      rw [h.columns row hrow, h.columns row' hrow', hk, hk']
      simp [collides]
    rw [h.unique row hrow row' hrow' hcollides]
  · rintro w ⟨⟩
  · rintro tx ⟨⟩
  · exact fun row hrow ↦ .inr (.inl rfl)
  · exact fun tx htx k hk ↦ rfl

/-- **A repeated key returns the stored record.** In every run from the start of the process, with
any failures of writes, in which updates are about records without a key, records are created apart
and loads succeed and do not overlap with writes, every `create` with the key of a record created
before, whose write has not failed, returns what `getById` returns for that record, and changes
nothing. -/
theorem repeated_key_returns_stored {rows : List ObjectRow} (hrows : TableValid rows)
    (as : List Action)
    (hkeeps : Along Tracked.step (fun t a ↦ a.KeepsIndex t.memory) ⟨Memory.starting rows, []⟩ as) :
    Along Tracked.step (fun t a ↦ t.Returns a) ⟨Memory.starting rows, []⟩ as := by
  have hinv : Always Tracked.step Tracked.Aligned ⟨Memory.starting rows, []⟩ as :=
    hkeeps.always (fun t a h hC ↦ Tracked.aligned_step h hC)
      ⟨Memory.aligned_starting hrows, by rintro e ⟨⟩⟩
  refine hkeeps.of_always (fun t a h hC ↦ ?_) hinv
  exact Tracked.returns_of_aligned h hC

/-! ## Fixed runs -/

section IndexExamples

def keyedDonation : NewTransaction :=
  { amount := 10, donor := none, recipient := none, idempotencyKey := some "k" }

def confirmedWithKey : List Action :=
  [.select false, .finishLoad, .call 0 (.create keyedDonation "tx1"), .execute 0 false,
    .call 1 (.updateStatus "tx1" "confirmed" {}), .execute 0 false]

/-- After an update, the key leads to the record as it was before. -/
theorem repeated_key_returns_stale :
    ¬Along Tracked.step (fun t a ↦ t.Returns a) ⟨Memory.starting [], []⟩
      (confirmedWithKey ++ [.call 2 (.create keyedDonation "tx2")]) := by
  rintro ⟨-, -, -, -, -, -, hreturns, -⟩
  let t := run Tracked.step ⟨Memory.starting [], []⟩ confirmedWithKey
  have hreturns : t.Returns (.call 2 (.create keyedDonation "tx2")) := hreturns
  obtain ⟨r, tx, hcreate, hobj, hget⟩ := hreturns (by decide) ⟨"k", "tx1"⟩
    (by decide) (by decide)
  have hstale : ((t.memory.create keyedDonation "tx2" 2).toOption.bind
      fun p ↦ p.1.objects p.2).map (fun tx ↦ tx.status) = some "pending" := by
    decide
  have hstored : (t.memory.getById "tx1").map (fun tx ↦ tx.status) = some "confirmed" := by
    decide
  rw [hcreate, Except.toOption, Option.bind_some, hobj] at hstale
  rw [hget] at hstored
  exact absurd (hstale.symm.trans hstored) (by decide)

/-- A record is created, edited in place and reloaded; its key returns it each time. -/
theorem repeated_key_returns_reloaded :
    Along Tracked.step (fun t a ↦ t.Returns a) ⟨Memory.starting [], []⟩
      [.call 0 (.create keyedDonation "tx1"), .select false, .execute 0 false, .finishLoad,
        .call 1 (.create keyedDonation "tx2"), .edit 0 (.setTags ["tag"]),
        .call 2 (.create keyedDonation "tx2"), .beginReload, .select false, .finishLoad,
        .call 3 (.create keyedDonation "tx2")] :=
  repeated_key_returns_stored ⟨by rintro row ⟨⟩, by rintro row ⟨⟩, by rintro row ⟨⟩,
    by rintro row ⟨⟩⟩ _ (by decide)

end IndexExamples

end StellarDonations.Transactions
