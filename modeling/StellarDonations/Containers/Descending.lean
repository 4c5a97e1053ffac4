import Mathlib.Data.List.Sort

/-!
# Lists in the descending order of their keys

Entries with different keys are sorted in one way only, so sorting and picking some of the entries
can be done in either order (`sortDesc_filter`), and sorting the other way round gives the list
backwards (`sortAsc_eq_reverse`). A key that occurs cuts the sorted list in two: the entries with
smaller keys are those after it and the entries with greater keys those before it
(`filter_lt_getElem`, `filter_gt_getElem`).
-/

namespace Descending

variable {α κ : Type*} [LinearOrder κ] (key : α → κ)

local instance isTrans_ge : IsTrans α fun a b ↦ key b ≤ key a := ⟨fun _ _ _ hab hbc ↦ hbc.trans hab⟩

local instance total_ge : Std.Total fun a b : α ↦ key b ≤ key a :=
  ⟨fun a b ↦ le_total (key b) (key a)⟩

local instance isTrans_le : IsTrans α fun a b ↦ key a ≤ key b := ⟨fun _ _ _ hab hbc ↦ hab.trans hbc⟩

local instance total_le : Std.Total fun a b : α ↦ key a ≤ key b :=
  ⟨fun a b ↦ le_total (key a) (key b)⟩

/-- The entries with the greatest key first. -/
def sortDesc (l : List α) : List α := l.insertionSort fun a b ↦ key b ≤ key a

/-- The entries with the smallest key first. -/
def sortAsc (l : List α) : List α := l.insertionSort fun a b ↦ key a ≤ key b

variable {key} {l s : List α}

theorem perm_sortDesc (l : List α) : (sortDesc key l).Perm l := List.perm_insertionSort _ l

theorem perm_sortAsc (l : List α) : (sortAsc key l).Perm l := List.perm_insertionSort _ l

@[simp] theorem length_sortDesc (l : List α) : (sortDesc key l).length = l.length :=
  (perm_sortDesc l).length_eq

@[simp] theorem mem_sortDesc {a : α} : a ∈ sortDesc key l ↔ a ∈ l := (perm_sortDesc l).mem_iff

/-! ## Keys that differ -/

def Distinct (key : α → κ) (l : List α) : Prop := (l.map key).Nodup

omit [LinearOrder κ] in
theorem Distinct.filter (hl : Distinct key l) (p : α → Bool) : Distinct key (l.filter p) :=
  hl.sublist (List.filter_sublist.map key)

omit [LinearOrder κ] in
theorem Distinct.perm (hl : Distinct key l) (hperm : s.Perm l) : Distinct key s :=
  (hperm.map key).nodup_iff.mpr hl

theorem distinct_of_descending (hs : s.Pairwise fun a b ↦ key b < key a) : Distinct key s :=
  List.pairwise_map.mpr (hs.imp fun h ↦ h.ne')

theorem descending_of_le (hs : s.Pairwise fun a b ↦ key b ≤ key a) (hdistinct : Distinct key s) :
    s.Pairwise fun a b ↦ key b < key a :=
  (hs.and (List.pairwise_map.mp hdistinct)).imp fun h ↦ lt_of_le_of_ne h.1 h.2.symm

theorem descending_sortDesc (hl : Distinct key l) :
    (sortDesc key l).Pairwise fun a b ↦ key b < key a :=
  descending_of_le (List.pairwise_insertionSort _ l) (hl.perm (perm_sortDesc l))

theorem eq_of_descending {t : List α} (hs : s.Pairwise fun a b ↦ key b < key a)
    (ht : t.Pairwise fun a b ↦ key b < key a) (hperm : s.Perm t) : s = t :=
  hperm.eq_of_pairwise (fun _ _ _ _ hab hba ↦ absurd hab hba.not_gt) hs ht

theorem sortDesc_eq (hs : s.Pairwise fun a b ↦ key b < key a) (hperm : s.Perm l) :
    sortDesc key l = s := by
  have hl : Distinct key l := (distinct_of_descending hs).perm hperm.symm
  exact eq_of_descending (descending_sortDesc hl) hs ((perm_sortDesc l).trans hperm.symm)

theorem sortDesc_filter (hl : Distinct key l) (p : α → Bool) :
    sortDesc key (l.filter p) = (sortDesc key l).filter p :=
  sortDesc_eq ((descending_sortDesc hl).sublist List.filter_sublist)
    ((perm_sortDesc l).filter p)

theorem sortAsc_eq_reverse (hl : Distinct key l) : sortAsc key l = (sortDesc key l).reverse := by
  have hasc : (sortAsc key l).reverse.Pairwise fun a b ↦ key b ≤ key a :=
    List.pairwise_reverse.mpr (List.pairwise_insertionSort _ l)
  have hperm : (sortAsc key l).reverse.Perm l := (List.reverse_perm _).trans (perm_sortAsc l)
  rw [sortDesc_eq (descending_of_le hasc (hl.perm hperm)) hperm, List.reverse_reverse]

/-! ## Cuts -/

theorem filter_eq_drop {p : α → Bool} {n : ℕ} (htake : ∀ a ∈ s.take n, p a = false)
    (hdrop : ∀ a ∈ s.drop n, p a = true) : s.filter p = s.drop n := by
  conv_lhs => rw [← List.take_append_drop n s]
  rw [List.filter_append, List.filter_eq_nil_iff.mpr fun a ha ↦ by simp [htake a ha],
    List.filter_eq_self.mpr hdrop, List.nil_append]

theorem filter_eq_take {p : α → Bool} {n : ℕ} (htake : ∀ a ∈ s.take n, p a = true)
    (hdrop : ∀ a ∈ s.drop n, p a = false) : s.filter p = s.take n := by
  conv_lhs => rw [← List.take_append_drop n s]
  rw [List.filter_append, List.filter_eq_self.mpr htake,
    List.filter_eq_nil_iff.mpr fun a ha ↦ by simp [hdrop a ha], List.append_nil]

section Keys

variable (hs : s.Pairwise fun a b ↦ key b < key a) {i : ℕ} (hi : i < s.length)
include hs

theorem key_getElem_lt_iff {j : ℕ} (hj : j < s.length) : key s[j] < key s[i] ↔ i < j := by
  constructor
  · intro hlt
    by_contra hle
    rcases Nat.lt_or_eq_of_le (Nat.not_lt.mp hle) with hji | rfl
    · exact absurd hlt (List.pairwise_iff_getElem.mp hs j i hj hi hji).not_gt
    · exact absurd hlt (lt_irrefl _)
  · exact fun hij ↦ List.pairwise_iff_getElem.mp hs i j hi hj hij

theorem filter_lt_getElem : s.filter (fun a ↦ key a < key s[i]) = s.drop (i + 1) := by
  apply filter_eq_drop
  · intro a ha
    obtain ⟨j, hj, rfl⟩ := List.mem_take_iff_getElem.mp ha
    exact decide_eq_false ((key_getElem_lt_iff hs hi _).not.mpr (by omega))
  · intro a ha
    obtain ⟨j, hj, rfl⟩ := List.mem_drop_iff_getElem.mp ha
    exact decide_eq_true ((key_getElem_lt_iff hs hi _).mpr (by omega))

theorem filter_gt_getElem : s.filter (fun a ↦ key s[i] < key a) = s.take i := by
  apply filter_eq_take
  · intro a ha
    obtain ⟨j, hj, rfl⟩ := List.mem_take_iff_getElem.mp ha
    exact decide_eq_true ((key_getElem_lt_iff hs _ hi).mpr (by omega))
  · intro a ha
    obtain ⟨j, hj, rfl⟩ := List.mem_drop_iff_getElem.mp ha
    exact decide_eq_false ((key_getElem_lt_iff hs _ hi).not.mpr (by omega))

theorem findIdx?_of_key {p : α → Bool} (hp : ∀ a, p a = true ↔ key a = key s[i]) :
    s.findIdx? p = some i := by
  rw [List.findIdx?_eq_some_iff_getElem]
  refine ⟨hi, (hp _).mpr rfl, fun j hj hpj ↦ ?_⟩
  have hlt := (key_getElem_lt_iff hs (by omega) hi).mpr hj
  exact hlt.ne' ((hp _).mp hpj)

end Keys

/-! ## Thresholds -/

/-- From the index on, the keys are not above the threshold. -/
def CutsAt (key : α → κ) (s : List α) (d : κ) (q : ℕ) : Prop :=
  q ≤ s.length ∧ ∀ i, ∀ hi : i < s.length, key s[i] ≤ d ↔ q ≤ i

theorem exists_cutsAt (hs : s.Pairwise fun a b ↦ key b ≤ key a) (d : κ) :
    ∃ q, CutsAt key s d q := by
  refine ⟨s.findIdx fun a ↦ key a ≤ d, List.findIdx_le_length, fun i hi ↦ ?_⟩
  constructor
  · intro hle
    by_contra hlt
    exact absurd hle (by simpa using List.not_of_lt_findIdx (not_le.mp hlt))
  · intro hqi
    have hq : key s[s.findIdx fun a ↦ key a ≤ d] ≤ d := by
      simpa using List.findIdx_getElem (p := fun a ↦ key a ≤ d) (w := by omega)
    rcases Nat.lt_or_eq_of_le hqi with hlt | heq
    · exact le_trans (List.pairwise_iff_getElem.mp hs _ i (by omega) hi hlt) hq
    · simpa only [heq] using hq

variable {d : κ} {q : ℕ}

theorem CutsAt.filter_le (h : CutsAt key s d q) : s.filter (fun a ↦ key a ≤ d) = s.drop q := by
  apply filter_eq_drop
  · intro a ha
    obtain ⟨i, hi, rfl⟩ := List.mem_take_iff_getElem.mp ha
    exact decide_eq_false ((h.2 i (by omega)).not.mpr (by omega))
  · intro a ha
    obtain ⟨i, hi, rfl⟩ := List.mem_drop_iff_getElem.mp ha
    exact decide_eq_true ((h.2 (q + i) (by omega)).mpr (by omega))

theorem CutsAt.filter_gt (h : CutsAt key s d q) : s.filter (fun a ↦ d < key a) = s.take q := by
  apply filter_eq_take
  · intro a ha
    obtain ⟨i, hi, rfl⟩ := List.mem_take_iff_getElem.mp ha
    exact decide_eq_true (not_le.mp ((h.2 i (by omega)).not.mpr (by omega)))
  · intro a ha
    obtain ⟨i, hi, rfl⟩ := List.mem_drop_iff_getElem.mp ha
    exact decide_eq_false (not_lt.mpr ((h.2 (q + i) (by omega)).mpr (by omega)))

end Descending
