import StellarDonations.Transactions.Lifecycle
import StellarDonations.Transactions.Persistence

/-!
# What a reload finds

The maps in memory are what readers see; the table is what is left after a restart. Read together
with the writes under way the table is a log of the objects that were persisted, and as long as
every change of a record is appended to this log, the memory holds its latest entries
(`Synced`). Then a reload finds what was there before it.

Two kinds of steps leave this behind. A change in place reaches the memory and not the log: the
services that make them call `saveTransactions`, which is empty. And a load that has read its rows
puts them into the maps however much has happened since, so a record that was changed in the
meantime goes back to the row that was read.
-/

namespace StellarDonations.Transactions

open Concurrency JsString Log

/-! ## What must hold -/

namespace Memory

/-- When every statement has been executed and no load is under way, a reload changes no answer of
`getById`. -/
def ReloadFaithful (m : Memory) : Prop :=
  m.writes = [] → m.load = .idle → ∀ id, m.reloaded.getById id = m.getById id

/-- The rows of a load that arrive now replace no record by another one. -/
def LoadFaithful (m : Memory) : Prop :=
  ∀ id tx, m.find id = some tx → m.finishLoad.find id = some tx

/-- The memory survives reloads and loads. -/
def Durable (m : Memory) : Prop := m.ReloadFaithful ∧ m.LoadFaithful

end Memory

/-- Statements succeed, and a reload begins when the writes before it are done. -/
def Action.Completed (m : Memory) : Action → Prop
  | execute n failure => failure = false ∧ ∀ w ∈ m.writes[n]?, Memory.accepts m.rows w.2 = true
  | select failure => failure = false
  | beginReload => m.writes = []
  | call .. | edit .. | finishLoad => True

def Operation.changeInPlace (now : ℕ) : Operation → Object → Object
  | flagDiscrepancy _ reason => Memory.flagged reason now
  | resolveDiscrepancy _ newStatus => Memory.resolved newStatus now
  | _ => fun tx ↦ tx

/-- The operation stores a new object: `create` finds no object of its key, and the others find
the record. -/
def Operation.storesNew (m : Memory) : Operation → Bool
  | create data _ => ((orNull data.idempotencyKey).bind m.index.lookup).isNone
  | op => op.updates && (m.find op.id).isSome

/-- The condition on a step: changes in place leave the stored records as they are; a record that a
load has read is not stored anew until the load is done; the writes of one record are executed in
the order they were issued; a load does not read the row of a record whose write is under way; and
no reload joins a load that has read its rows. -/
def Action.Kept (m : Memory) : Action → Prop
  | call now op => (∀ tx ∈ m.find op.id, op.changeInPlace now tx = tx) ∧
      (op.storesNew m = true → ∀ tx ∈ m.arriving, tx.id ≠ op.id)
  | edit r e => ∀ tx ∈ m.objects r, m.store.lookup tx.id = some r → e.apply tx = tx
  | execute n _ => ∀ w ∈ m.writes[n]?, ∀ w' ∈ m.writes.take n, w'.2.id ≠ w.2.id
  | select _ => ∀ w ∈ m.writes, ∀ row ∈ m.rows, row.data.id ≠ w.2.id
  | beginReload => m.hasRead = false
  | finishLoad => True

section Decidable

variable (m : Memory)

instance decidableActionCompleted : DecidablePred (Action.Completed m)
  | .execute n failure => inferInstanceAs
      (Decidable (failure = false ∧ ∀ w ∈ m.writes[n]?, Memory.accepts m.rows w.2 = true))
  | .select failure => inferInstanceAs (Decidable (failure = false))
  | .beginReload => inferInstanceAs (Decidable (m.writes = []))
  | .call .. | .edit .. | .finishLoad => inferInstanceAs (Decidable True)

instance decidableActionKept : DecidablePred (Action.Kept m)
  | .call now op => inferInstanceAs
      (Decidable ((∀ tx ∈ m.find op.id, op.changeInPlace now tx = tx) ∧
        (op.storesNew m = true → ∀ tx ∈ m.arriving, tx.id ≠ op.id)))
  | .edit r e => inferInstanceAs
      (Decidable (∀ tx ∈ m.objects r, m.store.lookup tx.id = some r → e.apply tx = tx))
  | .execute n _ => inferInstanceAs
      (Decidable (∀ w ∈ m.writes[n]?, ∀ w' ∈ m.writes.take n, w'.2.id ≠ w.2.id))
  | .select _ => inferInstanceAs
      (Decidable (∀ w ∈ m.writes, ∀ row ∈ m.rows, row.data.id ≠ w.2.id))
  | .beginReload => inferInstanceAs (Decidable (m.hasRead = false))
  | .finishLoad => inferInstanceAs (Decidable True)

end Decidable

/-! ## The invariant -/

namespace Memory

variable {m : Memory}

/-- The memory holds the latest objects of the log, apart from those that a load is still to bring;
and what a load brings is the latest too. -/
structure Synced (m : Memory) : Prop where
  wellFormed : WellFormed m
  rows : RowsFiled m.rows
  present : ∀ id tx, m.find id = some tx → m.logged id = some tx
  pending : ∀ id tx, latest (fun tx : Object ↦ tx.id) (m.writes.map (·.2)) id = some tx →
    m.find id = some tx
  arriving : ∀ id tx, latest (fun tx : Object ↦ tx.id) m.arriving id = some tx →
    m.logged id = some tx
  complete : m.load ≠ .selecting → ∀ id tx, m.logged id = some tx →
    m.find id = some tx ∨ latest (fun tx : Object ↦ tx.id) m.arriving id = some tx

theorem Synced.congr (h : Synced m) {m' : Memory} (hm' : WellFormed m') (hrows : m'.rows = m.rows)
    (hwrites : m'.writes = m.writes) (hload : m'.load = m.load)
    (hfind : ∀ id, m'.find id = m.find id) : Synced m' := by
  have hlogged : ∀ id, m'.logged id = m.logged id := by
    intro id
    rw [logged, log_congr hrows hwrites]
    rfl
  have harriving : m'.arriving = m.arriving := arriving_congr hload
  refine ⟨hm', hrows ▸ h.rows, fun id tx ↦ ?_, fun id tx ↦ ?_, fun id tx ↦ ?_, fun hne id tx ↦ ?_⟩
  · rw [hfind, hlogged]
    exact h.present id tx
  · rw [hfind, hwrites]
    exact h.pending id tx
  · rw [harriving, hlogged]
    exact h.arriving id tx
  · rw [harriving, hlogged, hfind]
    exact h.complete (hload ▸ hne) id tx

theorem Synced.store (h : Synced m) {m' : Memory} (hm' : WellFormed m') (hrows : m'.rows = m.rows)
    (hload : m'.load = m.load) {r : ℕ} {new : Object} (hwrites : m'.writes = m.writes ++ [(r, new)])
    (hfind : ∀ id, m'.find id = if id = new.id then some new else m.find id)
    (hnew : ∀ tx ∈ m.arriving, tx.id ≠ new.id) : Synced m' := by
  have hconcat : ∀ (l : List Object) (id : String),
      latest (fun tx : Object ↦ tx.id) (l ++ [new]) id =
        if id = new.id then some new else latest (fun tx : Object ↦ tx.id) l id := by
    intro l id
    rw [latest_concat]
    simp only [eq_comm]
  have hlogged : ∀ id, m'.logged id = if id = new.id then some new else m.logged id := by
    intro id
    rw [logged, log, hrows, hwrites, List.map_append, ← List.append_assoc]
    exact hconcat _ id
  have harriving : m'.arriving = m.arriving := arriving_congr hload
  refine ⟨hm', hrows ▸ h.rows, fun id tx ↦ ?_, fun id tx ↦ ?_, fun id tx htx ↦ ?_,
    fun hne id tx ↦ ?_⟩
  · rw [hlogged, hfind]
    split_ifs
    · exact fun htx ↦ htx
    · exact h.present id tx
  · rw [hwrites, List.map_append]
    refine fun htx ↦ ?_
    replace htx := (hconcat _ id).symm.trans htx
    rw [hfind]
    split_ifs at htx ⊢
    · exact htx
    · exact h.pending id tx htx
  · rw [harriving] at htx
    obtain ⟨hmem, hid⟩ := mem_of_latest htx
    rw [hlogged, if_neg (hid ▸ hnew tx hmem)]
    exact h.arriving id tx htx
  · rw [hlogged, hfind, harriving]
    split_ifs
    · exact .inl
    · exact h.complete (hload ▸ hne) id tx

theorem Synced.execute (h : Synced m) {n : ℕ} {r : ℕ} {tx : Object}
    (hwrite : m.writes[n]? = some (r, tx)) (horder : ∀ w ∈ m.writes.take n, w.2.id ≠ tx.id) :
    Synced { m with writes := m.writes.eraseIdx n, rows := upsert m.rows tx } := by
  have hlogged := logged_execute h.rows hwrite horder
  refine ⟨⟨h.wellFormed.fresh, h.wellFormed.stored, h.wellFormed.indexed⟩,
    rowsFiled_upsert h.rows tx, fun id tx' htx' ↦ ?_, fun id tx' htx' ↦ ?_,
    fun id tx' htx' ↦ ?_, fun hne id tx' htx' ↦ ?_⟩
  · rw [hlogged]
    exact h.present id tx' htx'
  · refine h.pending id tx' ?_
    rw [writes_split hwrite]
    rw [List.eraseIdx_eq_take_drop_succ, List.map_append] at htx'
    refine latest_of_latest_erase (fun tx'' htx'' ↦ ?_) htx'
    obtain ⟨w, hw, rfl⟩ := List.mem_map.mp htx''
    exact horder w hw
  · rw [hlogged]
    exact h.arriving id tx' htx'
  · rw [hlogged] at htx'
    exact h.complete hne id tx' htx'

theorem Synced.select (h : Synced m)
    (hkept : ∀ w ∈ m.writes, ∀ row ∈ m.rows, row.data.id ≠ w.2.id) :
    Synced { m with load := .read (m.rows.map (·.data)) } := by
  refine ⟨⟨h.wellFormed.fresh, h.wellFormed.stored, h.wellFormed.indexed⟩, h.rows, h.present,
    h.pending, fun id tx htx ↦ ?_, fun _ id tx htx ↦ ?_⟩
  · obtain ⟨hmem, hid⟩ := mem_of_latest htx
    obtain ⟨row, hrow, hdata⟩ := List.mem_map.mp hmem
    have hwrites : latest (fun tx : Object ↦ tx.id) (m.writes.map (·.2)) id = none := by
      refine latest_eq_none_iff.mpr fun tx' htx' heq ↦ ?_
      obtain ⟨w, hw, rfl⟩ := List.mem_map.mp htx'
      refine hkept w hw row hrow ?_
      rw [hdata, hid, heq]
    exact latest_append.trans (by rw [hwrites]; exact htx)
  · replace htx := latest_append.symm.trans htx
    rcases Option.or_eq_some_iff.mp htx with hpending | ⟨-, hrows⟩
    · exact .inl (h.pending id tx hpending)
    · exact .inr hrows

/-- What a load brings and what is there agree, so nothing found is replaced by another object. -/
theorem Synced.find_or (h : Synced m) {id : String} {tx : Object} (htx : m.find id = some tx) :
    (latest (fun tx : Object ↦ tx.id) m.arriving id).or (m.find id) = some tx := by
  rw [htx]
  cases hlatest : latest (fun tx : Object ↦ tx.id) m.arriving id with
  | none => rfl
  | some tx' =>
    have heq := (h.arriving id tx' hlatest).symm.trans (h.present id tx htx)
    exact heq

/-- A load that finishes replaces no record by another one. -/
theorem Synced.loadFaithful (h : Synced m) : m.LoadFaithful := by
  intro id tx htx
  cases hload : m.load with
  | idle | selecting =>
    rw [Memory.finishLoad, hload]
    exact htx
  | read data =>
    rw [finishLoad_of_read hload]
    refine (find_loadAll h.wellFormed data id).trans ?_
    rw [← arriving_of_read hload]
    exact h.find_or htx

theorem Synced.finishLoad (h : Synced m) : Synced m.finishLoad := by
  cases hload : m.load with
  | idle | selecting =>
    rw [Memory.finishLoad, hload]
    exact h
  | read data =>
    have hfaithful := h.loadFaithful
    rw [LoadFaithful, finishLoad_of_read hload] at hfaithful
    rw [finishLoad_of_read hload]
    obtain ⟨hwrites, hrows⟩ := loadAll_writes m data
    have hloaded := h.wellFormed.loadAll data
    have hfind := find_loadAll h.wellFormed data
    have hlog : log { m.loadAll data with load := .idle } = m.log := log_congr hrows hwrites
    have hlogged : ∀ id, logged { m.loadAll data with load := .idle } id = m.logged id := by
      intro id
      rw [logged, hlog]
      rfl
    refine ⟨⟨hloaded.fresh, hloaded.stored, hloaded.indexed⟩, hrows ▸ h.rows, fun id tx htx ↦ ?_,
      fun id tx htx ↦ ?_, fun id tx htx ↦ ?_, fun _ id tx htx ↦ ?_⟩
    · rw [hlogged]
      replace htx := (hfind id).symm.trans htx
      rcases Option.or_eq_some_iff.mp htx with hlatest | ⟨-, hfound⟩
      · refine h.arriving id tx ?_
        rwa [arriving_of_read hload]
      · exact h.present id tx hfound
    · refine hfaithful id tx (h.pending id tx ?_)
      rwa [← hwrites]
    · cases htx
    · rw [hlogged] at htx
      rcases h.complete (by rw [hload]; rintro ⟨⟩) id tx htx with hfound | hlatest
      · exact .inl (hfaithful id tx hfound)
      · rw [arriving_of_read hload] at hlatest
        exact .inl ((hfind id).trans (by rw [hlatest]; rfl))

/-- **The invariant is what durability needs.** -/
theorem Synced.durable (h : Synced m) : m.Durable := by
  refine ⟨fun hwrites hload id ↦ ?_, h.loadFaithful⟩
  have hfind : m.reloaded.find id = m.find id := by
    have hreloaded : m.reloaded =
        { ({ m with store := ∅, index := ∅, load := .read (m.rows.map (·.data)) } : Memory).loadAll
            (m.rows.map (·.data)) with load := .idle } := by
      rw [reloaded, beginReload, hload]
      rfl
    have hempty :
        WellFormed { m with store := ∅, index := ∅, load := .read (m.rows.map (·.data)) } :=
      ⟨h.wellFormed.fresh, by rintro id r ⟨⟩, by rintro k r ⟨⟩⟩
    rw [hreloaded]
    refine (find_loadAll hempty _ id).trans (Option.or_none.trans ?_)
    have hlogged : latest (fun tx : Object ↦ tx.id) (m.rows.map (·.data)) id = m.logged id := by
      rw [logged, log, hwrites, List.map_nil, List.append_nil]
    rw [hlogged]
    cases hlog : m.logged id with
    | some tx =>
      rcases h.complete (by rw [hload]; rintro ⟨⟩) id tx hlog with hfound | hlatest
      · exact hfound.symm
      · rw [Memory.arriving, hload] at hlatest
        cases hlatest
    | none =>
      cases hfound : m.find id with
      | none => rfl
      | some tx =>
        rw [h.present id tx hfound] at hlog
        cases hlog
  rw [getById, getById, hfind]

/-! ## One step -/

theorem find_step_inPlace (hm : WellFormed m) (now : ℕ) {op : Operation} (hop : op.inPlace = true)
    (id : String) :
    (m.step (.call now op)).find id =
      if id = op.id then (m.find id).map (op.changeInPlace now) else m.find id := by
  have hmodify : ∀ (id' : String) (f : Object → Object),
      (((m.modifyStored id' f).map Prod.fst).toOption.getD m).find id =
        if id = id' then (m.find id).map f else m.find id := by
    intro id' f
    rw [modifyStored]
    cases hlookup : m.store.lookup id' with
    | none =>
      split_ifs with hid
      · subst hid
        have hnone : m.find id = none := by
          rw [find, hlookup]
          rfl
        rw [hnone]
        exact hnone
      · rfl
    | some r =>
      refine (find_modify m r f id).trans ?_
      by_cases hid : id = id'
      · subst hid
        rw [if_pos hlookup, if_pos rfl]
      · rw [if_neg hid, if_neg]
        -- the object has one id only
        intro hr
        obtain ⟨tx, hobj, htx⟩ := hm.stored id r hr
        obtain ⟨tx', hobj', htx'⟩ := hm.stored id' r hlookup
        rw [hobj] at hobj'
        cases hobj'
        exact hid (htx.symm.trans htx')
  cases op with
  | flagDiscrepancy id' reason => exact hmodify id' (flagged reason now)
  | resolveDiscrepancy id' newStatus => exact hmodify id' (resolved newStatus now)
  | _ => cases hop

theorem find_modify_of_unchanged (hm : WellFormed m) {r : ℕ} {f : Object → Object}
    (h : ∀ tx ∈ m.objects r, m.store.lookup tx.id = some r → f tx = tx) (id : String) :
    (m.modify r f).find id = m.find id := by
  rw [find_modify]
  split_ifs with hr
  · obtain ⟨tx, hobj, hid⟩ := hm.stored id r hr
    have hfind : m.find id = some tx := by
      rw [find, hr]
      exact hobj
    rw [hfind, Option.map_some, h tx hobj (hid ▸ hr)]
  · rfl

theorem storesNew_of_updates {op : Operation} {old : Object} (hop : op.updates = true)
    (hfind : m.find op.id = some old) : op.storesNew m = true := by
  cases op with
  | create => cases hop
  | _ => simp [Operation.storesNew, hop, hfind]

/-- **One step.** Steps whose statements succeed and that meet the condition keep the memory and
the log together. -/
theorem synced_step {a : Action} (h : Synced m) (hcompleted : a.Completed m) (hkept : a.Kept m) :
    Synced (m.step a) := by
  have hm' := wellFormed_step m a h.wellFormed
  cases a with
  | call now op =>
    obtain ⟨hunchanged, hnew⟩ := hkept
    have hinPlace : op.inPlace = true → ∀ id, (m.step (.call now op)).find id = m.find id := by
      intro hop id
      rw [find_step_inPlace h.wellFormed now hop]
      split_ifs with hid
      · subst hid
        cases hfind : m.find op.id with
        | none => rfl
        | some tx => rw [Option.map_some, hunchanged tx hfind]
      · rfl
    have heffect := effect_step m now op
    generalize m.step (.call now op) = m' at heffect hm' hinPlace ⊢
    cases heffect with
    | unchanged => exact h
    | created status hop hkey =>
      subst hop
      obtain ⟨hwrites, hrows, hload⟩ := insertNew_log m _
      refine h.store hm' hrows hload hwrites (find_insertNew h.wellFormed _) fun tx htx ↦ ?_
      refine hnew ?_ tx htx
      rw [Operation.storesNew, hkey]
      rfl
    | @saved old new hop hfind hid hkey hstatus =>
      have hid' : new.id = op.id := hid.trans (h.wellFormed.id_of_find hfind)
      rw [← hid'] at hm' ⊢
      refine h.store hm' rfl rfl rfl (find_save h.wellFormed new.id new) fun tx htx ↦ ?_
      rw [hid']
      exact hnew (storesNew_of_updates hop hfind) tx htx
    | modified hop hstore hid hkey hstatus => exact h.congr hm' rfl rfl rfl (hinPlace hop)
  | edit r e => exact h.congr hm' rfl rfl rfl (find_modify_of_unchanged h.wellFormed hkept)
  | execute n failure =>
    obtain ⟨rfl, haccepts⟩ := hcompleted
    rw [step, Memory.execute]
    cases hwrite : m.writes[n]? with
    | none => exact h
    | some w =>
      obtain ⟨r, tx⟩ := w
      have houtcome := outcome_of_accepts (haccepts (r, tx) hwrite)
      simp only [houtcome]
      exact h.execute hwrite (hkept (r, tx) hwrite)
  | beginReload =>
    have hload : (m.step .beginReload).load = .selecting := load_beginReload hkept
    have hwrites : (m.step .beginReload).writes = [] := hcompleted
    refine ⟨hm', h.rows, ?_, fun id tx htx ↦ ?_, fun id tx htx ↦ ?_, fun hne ↦ absurd hload hne⟩
    · rintro id tx ⟨⟩
    · rw [hwrites] at htx
      cases htx
    · rw [Memory.arriving, hload] at htx
      cases htx
  | select failure =>
    have hfailure : failure = false := hcompleted
    subst hfailure
    rw [step, Memory.select]
    cases hload : m.load with
    | selecting => exact h.select hkept
    | idle | read => exact h
  | finishLoad => exact h.finishLoad

theorem synced_starting {rows : List ObjectRow} (h : RowsFiled rows) : Synced (starting rows) := by
  refine ⟨wellFormed_starting rows, h, ?_, ?_, ?_, fun hne ↦ absurd rfl hne⟩
  · rintro id tx ⟨⟩
  · rintro id tx ⟨⟩
  · rintro id tx ⟨⟩

end Memory

/-! ## Runs -/

/-- **A reload finds what was there.** In every run from the start of the process whose statements
all succeed, and in which the changes in place leave the stored records as they are, loads and
stores of one record do not overlap, and the writes of one record are executed in order, a reload
changes no answer of `getById`, and no load replaces a record by an older one. -/
theorem reload_finds_stored {rows : List ObjectRow} (hrows : RowsFiled rows) (as : List Action)
    (hcompleted : Along Memory.step (fun m a ↦ a.Completed m) (Memory.starting rows) as)
    (hkept : Along Memory.step (fun m a ↦ a.Kept m) (Memory.starting rows) as) :
    Always Memory.step Memory.Durable (Memory.starting rows) as := by
  have hinv : Always Memory.step Memory.Synced (Memory.starting rows) as :=
    (hcompleted.and hkept).always (fun m a h hC ↦ Memory.synced_step h hC.1 hC.2)
      (Memory.synced_starting hrows)
  exact hinv.mono fun m h ↦ h.durable

/-! ## Fixed runs -/

section DurabilityExamples

def anonymousDonation : NewTransaction := { amount := 10, donor := none, recipient := none }

/-- The first load of an empty table, and a record that is created and written. -/
def writtenDonation : List Action :=
  [.select false, .finishLoad, .call 0 (.create anonymousDonation "tx1"), .execute 0 false]

/-- A record that is created, written and read by a load, and confirmed before the rows arrive. -/
def confirmedWhileLoading : List Action :=
  [.call 0 (.create anonymousDonation "tx1"), .execute 0 false, .select false,
    .call 1 (.updateStatus "tx1" "confirmed" {})]

/-- A discrepancy that was resolved is back after a reload; and the load of the start takes a
confirmed record back to pending. -/
theorem reload_reverts_resolution :
    (Along Memory.step (fun m a ↦ a.Completed m) (Memory.starting [])
        (writtenDonation ++ [.call 1 (.resolveDiscrepancy "tx1" "failed")]) ∧
      ¬Always Memory.step Memory.ReloadFaithful (Memory.starting [])
        (writtenDonation ++ [.call 1 (.resolveDiscrepancy "tx1" "failed")])) ∧
    Along Memory.step (fun m a ↦ a.Completed m) (Memory.starting []) confirmedWhileLoading ∧
      ¬Always Memory.step Memory.LoadFaithful (Memory.starting []) confirmedWhileLoading := by
  refine ⟨⟨by decide, fun h ↦ ?_⟩, by decide, fun h ↦ ?_⟩
  · have hsame := congrArg (Option.map fun tx ↦ tx.status) (h.last (by decide) rfl "tx1")
    revert hsame
    decide
  · have hbefore : ((run Memory.step (Memory.starting []) confirmedWhileLoading).find "tx1").map
        (fun tx ↦ tx.status) = some "confirmed" := by
      decide
    obtain ⟨tx, hfind, hstatus⟩ := Option.map_eq_some_iff.mp hbefore
    have hafter := congrArg (Option.map fun tx ↦ tx.status) (h.last "tx1" tx hfind)
    rw [Option.map_some, hstatus] at hafter
    revert hafter
    decide +kernel

/-- A donation is created and confirmed, and the store is reloaded. -/
theorem reload_finds_confirmed :
    Always Memory.step Memory.Durable (Memory.starting [])
      (writtenDonation ++ [.call 1 (.updateStatus "tx1" "confirmed" {}), .execute 0 false,
        .beginReload, .select false, .finishLoad]) :=
  reload_finds_stored (by rintro row ⟨⟩) _ (by decide) (by decide)

end DurabilityExamples

end StellarDonations.Transactions
