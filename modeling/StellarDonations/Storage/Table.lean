import Mathlib.Data.List.Nodup

/-!
# Tables

A table whose integer primary key is given by the table and never given twice, with the three
statements that change it. The columns other than the key are the type of its rows, so a statement
cannot assign a key.
-/

namespace Storage

/-- A table with an autoincremented primary key. -/
structure Table (ρ : Type*) where
  rows : List (ℕ × ρ)
  nextId : ℕ
  nodup : (rows.map Prod.fst).Nodup
  lt_nextId : ∀ r ∈ rows, r.1 < nextId

namespace Table

variable {ρ : Type*}

instance : Inhabited (Table ρ) := ⟨⟨[], 1, List.nodup_nil, fun _ h ↦ nomatch h⟩⟩

variable (t : Table ρ) (p : ℕ × ρ → Bool) (f : ρ → ρ)

/-! ## Statements -/

theorem nodup_insert (row : ρ) : ((t.rows ++ [(t.nextId, row)]).map Prod.fst).Nodup := by
  rw [List.map_append, List.nodup_append]
  refine ⟨t.nodup, List.nodup_singleton _, ?_⟩
  rintro id hid _ hnew rfl
  rw [List.map_singleton, List.mem_singleton] at hnew
  obtain ⟨r, hr, rfl⟩ := List.mem_map.mp hid
  exact Nat.ne_of_lt (t.lt_nextId r hr) hnew

def insert (row : ρ) : Table ρ where
  rows := t.rows ++ [(t.nextId, row)]
  nextId := t.nextId + 1
  nodup := t.nodup_insert row
  lt_nextId r hr := by
    rcases List.mem_append.mp hr with hr | hr
    · exact Nat.lt_succ_of_lt (t.lt_nextId r hr)
    · rw [List.mem_singleton.mp hr]
      exact Nat.lt_succ_self t.nextId

/-- A row after an `UPDATE … WHERE …`. -/
def assign (r : ℕ × ρ) : ℕ × ρ := if p r then (r.1, f r.2) else r

@[simp] theorem fst_assign (r : ℕ × ρ) : (assign p f r).1 = r.1 := by
  rw [assign]
  split_ifs <;> rfl

theorem map_fst_update : (t.rows.map (assign p f)).map Prod.fst = t.rows.map Prod.fst := by
  rw [List.map_map]
  exact List.map_congr_left fun r _ ↦ fst_assign p f r

def update : Table ρ where
  rows := t.rows.map (assign p f)
  nextId := t.nextId
  nodup := t.map_fst_update p f ▸ t.nodup
  lt_nextId r hr := by
    obtain ⟨r', hr', rfl⟩ := List.mem_map.mp hr
    rw [fst_assign]
    exact t.lt_nextId r' hr'

def delete : Table ρ where
  rows := t.rows.filter fun r ↦ !p r
  nextId := t.nextId
  nodup := t.nodup.sublist (List.filter_sublist.map Prod.fst)
  lt_nextId r hr := t.lt_nextId r (List.mem_filter.mp hr).1

/-- `result.changes` of such an `UPDATE` or `DELETE`. -/
def changes : ℕ := t.rows.countP p

/-- `SELECT … WHERE id = ?`. -/
def get (id : ℕ) : Option ρ := (t.rows.find? (·.1 = id)).map Prod.snd

/-! ## Statements that change nothing -/

variable {t p}

theorem update_of_changes_eq_zero (h : t.changes p = 0) : (t.update p f).rows = t.rows := by
  have hnone := List.countP_eq_zero.mp h
  calc t.rows.map (assign p f) = t.rows.map id :=
        List.map_congr_left fun r hr ↦ if_neg (hnone r hr)
    _ = t.rows := List.map_id t.rows

theorem delete_of_changes_eq_zero (h : t.changes p = 0) : (t.delete p).rows = t.rows := by
  have hnone := List.countP_eq_zero.mp h
  refine List.filter_eq_self.mpr fun r hr ↦ ?_
  rw [eq_false_of_ne_true (hnone r hr)]
  rfl

/-! ## Rows that have been read -/

variable (t) in
/-- The row that was read under this key is the row that the table holds under it, as long as it
holds one. -/
def Known (r : ℕ × ρ) : Prop := r.1 < t.nextId ∧ ∀ r' ∈ t.rows, r'.1 = r.1 → r' = r

theorem known_of_mem {r : ℕ × ρ} (h : r ∈ t.rows) : t.Known r :=
  ⟨t.lt_nextId r h, fun _ hr' heq ↦ List.inj_on_of_nodup_map t.nodup hr' h heq⟩

theorem Known.insert {r : ℕ × ρ} (h : t.Known r) (row : ρ) : (t.insert row).Known r := by
  refine ⟨Nat.lt_succ_of_lt h.1, fun r' hr' heq ↦ ?_⟩
  rcases List.mem_append.mp hr' with hr' | hr'
  · exact h.2 r' hr' heq
  · rw [List.mem_singleton.mp hr'] at heq
    exact absurd heq (Nat.ne_of_gt h.1)

theorem Known.delete {r : ℕ × ρ} (h : t.Known r) : (t.delete p).Known r :=
  ⟨h.1, fun r' hr' ↦ h.2 r' (List.mem_filter.mp hr').1⟩

theorem mem_insert {row : ρ} {r : ℕ × ρ} :
    r ∈ (t.insert row).rows ↔ r ∈ t.rows ∨ r = (t.nextId, row) := by
  rw [insert, List.mem_append, List.mem_singleton]

theorem mem_update {f : ρ → ρ} {r : ℕ × ρ} :
    r ∈ (t.update p f).rows ↔ ∃ r' ∈ t.rows, assign p f r' = r :=
  List.mem_map

theorem mem_delete {r : ℕ × ρ} : r ∈ (t.delete p).rows ↔ r ∈ t.rows ∧ ¬p r := by
  rw [delete, List.mem_filter, Bool.not_eq_true', Bool.not_eq_true]

/-! ## Rows by their key -/

theorem get_eq_some_iff {id : ℕ} {row : ρ} : t.get id = some row ↔ (id, row) ∈ t.rows := by
  rw [get, Option.map_eq_some_iff]
  constructor
  · rintro ⟨r, hr, rfl⟩
    have hid : r.1 = id := by simpa using List.find?_some hr
    rw [← hid]
    exact List.mem_of_find?_eq_some hr
  · intro hmem
    have hsome : (t.rows.find? (·.1 = id)).isSome :=
      List.find?_isSome.mpr ⟨(id, row), hmem, decide_eq_true rfl⟩
    obtain ⟨r, hr⟩ := Option.isSome_iff_exists.mp hsome
    have hid : r.1 = id := by simpa using List.find?_some hr
    rw [(known_of_mem hmem).2 r (List.mem_of_find?_eq_some hr) hid] at hr
    exact ⟨(id, row), hr, rfl⟩

theorem get_insert {id : ℕ} {row row' : ρ} (h : t.get id = some row) :
    (t.insert row').get id = some row :=
  get_eq_some_iff.mpr (mem_insert.mpr (.inl (get_eq_some_iff.mp h)))

theorem get_update {f : ρ → ρ} {id : ℕ} {row : ρ} (h : t.get id = some row) :
    (t.update p f).get id = some (assign p f (id, row)).2 := by
  refine get_eq_some_iff.mpr (mem_update.mpr ⟨(id, row), get_eq_some_iff.mp h, ?_⟩)
  exact Prod.ext (fst_assign p f (id, row)) rfl

/-! ## Statements in a loop -/

/-- What a loop does to a row that goes through what a `SELECT` has picked and updates each row by
its key. -/
def assignPicked {α : Type*} (pick : ρ → Option α) (f : α → ρ → ρ) (r : ℕ × ρ) : ℕ × ρ :=
  match pick r.2 with
  | some a => (r.1, f a r.2)
  | none => r

theorem rows_foldl_update {α : Type*} (f : α → ρ → ρ) {picked : List (ℕ × α)}
    (hnodup : (picked.map Prod.fst).Nodup) (t : Table ρ) :
    (picked.foldl (fun t a ↦ t.update (·.1 = a.1) (f a.2)) t).rows = t.rows.map fun r ↦
      match picked.find? (·.1 = r.1) with
      | some a => (r.1, f a.2 r.2)
      | none => r := by
  induction picked generalizing t with
  | nil => exact (List.map_id t.rows).symm
  | cons a picked ih =>
    rw [List.map_cons, List.nodup_cons] at hnodup
    rw [List.foldl_cons, ih hnodup.2, update, List.map_map]
    refine List.map_congr_left fun r _ ↦ ?_
    rw [Function.comp_apply, fst_assign, assign]
    by_cases ha : a.1 = r.1
    · -- no later statement has the key of this one
      have hlater : picked.find? (fun b ↦ decide (b.1 = r.1)) = none := by
        rw [List.find?_eq_none]
        intro b hb
        rw [decide_eq_true_iff]
        intro hbr
        exact hnodup.1 (List.mem_map.mpr ⟨b, hb, hbr.trans ha.symm⟩)
      have hfirst : (a :: picked).find? (fun b ↦ decide (b.1 = r.1)) = some a := by
        rw [List.find?_cons, decide_eq_true ha]
      rw [hlater, hfirst]
      exact if_pos (decide_eq_true ha.symm)
    · have hrest : (a :: picked).find? (fun b ↦ decide (b.1 = r.1)) =
          picked.find? fun b ↦ decide (b.1 = r.1) := by
        rw [List.find?_cons, decide_eq_false ha]
      rw [hrest]
      simp only [decide_eq_true_iff, if_neg (Ne.symm ha)]

/-- A `SELECT` of rows, and a loop that updates each of them, change every picked row once. -/
theorem rows_foldl_update_picked {α : Type*} (pick : ρ → Option α) (f : α → ρ → ρ) (t : Table ρ) :
    ((t.rows.filterMap fun r ↦ (pick r.2).map fun a ↦ (r.1, a)).foldl
      (fun t a ↦ t.update (·.1 = a.1) (f a.2)) t).rows = t.rows.map (assignPicked pick f) := by
  have hkeys : ((t.rows.filterMap fun r ↦ (pick r.2).map fun a ↦ (r.1, a)).map Prod.fst).Nodup := by
    refine t.nodup.sublist ?_
    induction t.rows with
    | nil => exact List.Sublist.refl _
    | cons r rows ih =>
      rw [List.filterMap_cons, List.map_cons]
      cases pick r.2 with
      | none => exact ih.trans (List.sublist_cons_self _ _)
      | some a => exact ih.cons_cons r.1
  rw [rows_foldl_update f hkeys]
  refine List.map_congr_left fun r hr ↦ ?_
  have hsame : ∀ r' ∈ t.rows, ((pick r'.2).map fun a ↦ (r'.1, a)).any (·.1 = r.1) = true →
      r' = r := by
    intro r' hr' hany
    cases hpick : pick r'.2 with
    | none => rw [hpick] at hany; cases hany
    | some a =>
      rw [hpick, Option.map_some, Option.any_some, decide_eq_true_iff] at hany
      exact (known_of_mem hr).2 r' hr' hany
  rw [List.find?_filterMap, assignPicked]
  cases hpick : pick r.2 with
  | none =>
    have hnone : t.rows.find? (fun r' ↦ ((pick r'.2).map fun a ↦ (r'.1, a)).any (·.1 = r.1)) =
        none := by
      rw [List.find?_eq_none]
      intro r' hr' hany
      rw [hsame r' hr' hany, hpick] at hany
      cases hany
    rw [hnone]
    rfl
  | some a =>
    have hsome : (t.rows.find? fun r' ↦ ((pick r'.2).map fun a ↦ (r'.1, a)).any
        (·.1 = r.1)).isSome := by
      rw [List.find?_isSome]
      refine ⟨r, hr, ?_⟩
      rw [hpick, Option.map_some, Option.any_some, decide_eq_true_iff]
    obtain ⟨r', hfind⟩ := Option.isSome_iff_exists.mp hsome
    have hany : ((pick r'.2).map fun a ↦ (r'.1, a)).any (·.1 = r.1) = true := by
      exact List.find?_some
        (p := fun r' : ℕ × ρ ↦ ((pick r'.2).map fun a ↦ (r'.1, a)).any (·.1 = r.1)) hfind
    obtain rfl := hsame r' (List.mem_of_find?_eq_some hfind) hany
    rw [hfind, Option.bind_some, hpick]
    rfl

/-! ## Unique columns -/

variable {κ : Type*}

variable (t) in
/-- Two rows do not share a value of the column; `NULL`s are never equal. -/
def UniqueIn (column : ρ → Option κ) : Prop :=
  ∀ r ∈ t.rows, ∀ r' ∈ t.rows, ∀ v, column r.2 = some v → column r'.2 = some v → r = r'

variable (t) in
/-- `SELECT … WHERE column = ?`, on a column that may be `NULL`. -/
def find [DecidableEq κ] (column : ρ → Option κ) (v : κ) : Option (ℕ × ρ) :=
  t.rows.find? fun r ↦ column r.2 = some v

variable {column : ρ → Option κ}

theorem UniqueIn.insert {row : ρ} (h : t.UniqueIn column)
    (hnew : ∀ r ∈ t.rows, ∀ v, column row = some v → column r.2 ≠ some v) :
    (t.insert row).UniqueIn column := by
  intro r hr r' hr' v hv hv'
  rcases mem_insert.mp hr with hr | rfl <;> rcases mem_insert.mp hr' with hr' | rfl
  · exact h r hr r' hr' v hv hv'
  · exact absurd hv (hnew r hr v hv')
  · exact absurd hv' (hnew r' hr' v hv)
  · rfl

theorem UniqueIn.update {f : ρ → ρ} (h : t.UniqueIn column)
    (hf : ∀ row, column (f row) = column row) : (t.update p f).UniqueIn column := by
  have hcolumn : ∀ r, column (assign p f r).2 = column r.2 := by
    intro r
    rw [assign]
    split_ifs
    · exact hf r.2
    · rfl
  intro r hr r' hr' v hv hv'
  obtain ⟨r, hmem, rfl⟩ := mem_update.mp hr
  obtain ⟨r', hmem', rfl⟩ := mem_update.mp hr'
  rw [h r hmem r' hmem' v ((hcolumn r).symm.trans hv) ((hcolumn r').symm.trans hv')]

variable [DecidableEq κ] {v : κ}

theorem mem_of_find {r : ℕ × ρ} (h : t.find column v = some r) :
    r ∈ t.rows ∧ column r.2 = some v := by
  have hv := List.find?_some h
  rw [decide_eq_true_iff] at hv
  exact ⟨List.mem_of_find?_eq_some h, hv⟩

theorem UniqueIn.find_eq_some_iff (h : t.UniqueIn column) {r : ℕ × ρ} :
    t.find column v = some r ↔ r ∈ t.rows ∧ column r.2 = some v := by
  refine ⟨mem_of_find, ?_⟩
  rintro ⟨hr, hv⟩
  cases hfind : t.find column v with
  | none => exact absurd (decide_eq_true hv) (List.find?_eq_none.mp hfind r hr)
  | some r' =>
    obtain ⟨hr', hv'⟩ := mem_of_find hfind
    rw [h r hr r' hr' v hv hv']

theorem find_eq_none_iff : t.find column v = none ↔ ∀ r ∈ t.rows, column r.2 ≠ some v := by
  simp only [find, List.find?_eq_none, decide_eq_true_iff, ne_eq]

theorem find_insert {row : ρ} : (t.insert row).find column v =
    (t.find column v).or (if column row = some v then some (t.nextId, row) else none) := by
  rw [find, insert, List.find?_append]
  congr 1
  split_ifs with hrow
  · exact List.find?_cons_of_pos (decide_eq_true hrow)
  · rw [List.find?_cons_of_neg (by simpa using hrow)]
    rfl

end Table

end Storage
