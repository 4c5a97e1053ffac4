import Mathlib.Data.List.Nodup
import Mathlib.Order.Lattice

/-!
# A list in windows

A list is cut into windows of one size, the last of which may be shorter; the empty list has one
empty window. Whoever follows the positions from window to window (`Follows`) reads them all, and
may put each into another order. What is read is then sorted exactly when any two entries of
different windows are in order (`pairwise_flatten_iff`).
-/

namespace Windows

/-- Following the positions from `c`, until a page has none, gives these pages. -/
inductive Follows {ε β γ : Type*} (pageAt : Option γ → Except ε (β × Option γ)) :
    Option γ → List β → Prop
  | last {c : Option γ} {page : β} (hpage : pageAt c = .ok (page, none)) : Follows pageAt c [page]
  | next {c : Option γ} {page : β} {k : γ} {rest : List β} (hpage : pageAt c = .ok (page, some k))
      (hrest : Follows pageAt (some k) rest) : Follows pageAt c (page :: rest)

variable {ε α β γ : Type*} {pageAt : Option γ → Except ε (β × Option γ)}

theorem Follows.unique {c : Option γ} {pages pages' : List β} (h : Follows pageAt c pages)
    (h' : Follows pageAt c pages') : pages = pages' := by
  induction h generalizing pages' with
  | last hpage =>
    cases h' with
    | last hpage' =>
      rw [hpage] at hpage'
      cases hpage'
      rfl
    | next hpage' =>
      rw [hpage] at hpage'
      cases hpage'
  | next hpage hrest ih =>
    cases h' with
    | last hpage' =>
      rw [hpage] at hpage'
      cases hpage'
    | next hpage' hrest' =>
      rw [hpage] at hpage'
      cases hpage'
      rw [ih hrest']

theorem Follows.inv {c : Option γ} {pages : List β} {page : β} {position : Option γ}
    (h : Follows pageAt c pages) (hpage : pageAt c = .ok (page, position)) :
    ∃ rest, pages = page :: rest ∧ (position = none → rest = []) ∧
      ∀ k ∈ position, Follows pageAt (some k) rest := by
  cases h with
  | last hpage' =>
    rw [hpage] at hpage'
    cases hpage'
    exact ⟨[], rfl, fun _ ↦ rfl, fun k hk ↦ nomatch hk⟩
  | next hpage' hrest =>
    rw [hpage] at hpage'
    cases hpage'
    exact ⟨_, rfl, (fun hnone ↦ nomatch hnone), fun k hk ↦ Option.some.inj hk ▸ hrest⟩

theorem follows_range {n : ℕ} (page : ℕ → β) (position : ℕ → Option γ)
    (hpage : ∀ k < n, pageAt (position k) =
      .ok (page k, if k + 1 < n then position (k + 1) else none))
    (hsome : ∀ k, k + 1 < n → (position (k + 1)).isSome) {k : ℕ} (hk : k < n) :
    Follows pageAt (position k) ((List.range' k (n - k)).map page) := by
  obtain ⟨m, rfl⟩ : ∃ m, n = k + (m + 1) := ⟨n - k - 1, by omega⟩
  rw [Nat.add_sub_cancel_left]
  induction m generalizing k with
  | zero =>
    have hlast := hpage k hk
    rw [if_neg (by omega)] at hlast
    exact .last hlast
  | succ m ih =>
    have hfirst := hpage k hk
    rw [if_pos (by omega)] at hfirst
    obtain ⟨c, hc⟩ := Option.isSome_iff_exists.mp (hsome k (by omega))
    rw [List.range'_succ, List.map_cons]
    refine .next (hc ▸ hfirst) (hc ▸ ih ?_ ?_ (by omega))
    · intro j hj
      simpa only [Nat.add_right_comm k 1, Nat.add_assoc] using hpage j (by omega)
    · exact fun j hj ↦ hsome j (by omega)

/-! ## Windows -/

/-- The number of windows of a list of `n` entries. -/
def count (limit n : ℕ) : ℕ := max 1 ((n + limit - 1) / limit)

variable (limit : ℕ) (s : List α)

def window (k : ℕ) : List α := (s.drop (k * limit)).take limit

variable {limit s}

theorem count_pos (limit n : ℕ) : 0 < count limit n := Nat.le_max_left 1 _

theorem succ_lt_count_iff (hlimit : 0 < limit) {n k : ℕ} :
    k + 1 < count limit n ↔ (k + 1) * limit < n := by
  have hdiv : k + 2 ≤ (n + limit - 1) / limit ↔ (k + 2) * limit ≤ n + limit - 1 :=
    Nat.le_div_iff_mul_le hlimit
  have hmul : (k + 2) * limit = (k + 1) * limit + limit := Nat.succ_mul (k + 1) limit
  rw [count]
  omega

theorem flatten_windows_take (m : ℕ) :
    ((List.range m).map (window limit s)).flatten = s.take (m * limit) := by
  induction m with
  | zero => simp
  | succ m ih =>
    rw [List.range_succ, List.map_append, List.flatten_append, ih, List.map_singleton,
      List.flatten_singleton, window, ← List.take_add, Nat.succ_mul]

theorem length_le_count_mul (hlimit : 0 < limit) (n : ℕ) : n ≤ count limit n * limit := by
  by_contra hlt
  have := count_pos limit n
  have hmore := (succ_lt_count_iff (n := n) (k := count limit n - 1) hlimit).mpr
  rw [Nat.sub_add_cancel this] at hmore
  exact absurd (hmore (not_le.mp hlt)) (lt_irrefl _)

theorem flatten_windows (hlimit : 0 < limit) (s : List α) :
    ((List.range (count limit s.length)).map (window limit s)).flatten = s := by
  rw [flatten_windows_take, List.take_of_length_le (length_le_count_mul hlimit _)]

theorem mem_window_iff (hlimit : 0 < limit) {k : ℕ} {a : α} :
    a ∈ window limit s k ↔ ∃ i, ∃ hi : i < s.length, i / limit = k ∧ s[i] = a := by
  rw [window, List.mem_take_iff_getElem]
  constructor
  · rintro ⟨j, hj, rfl⟩
    rw [List.length_drop] at hj
    refine ⟨k * limit + j, by omega, ?_, (List.getElem_drop ..).symm⟩
    rw [Nat.mul_comm, Nat.mul_add_div hlimit, Nat.div_eq_of_lt (by omega), Nat.add_zero]
  · rintro ⟨i, hi, rfl, rfl⟩
    have hsplit := Nat.div_add_mod' i limit
    have hmod := Nat.mod_lt i hlimit
    refine ⟨i % limit, by rw [List.length_drop]; omega, ?_⟩
    simp only [List.getElem_drop, hsplit]

/-- Any two entries of different windows are in order. -/
def Across (limit : ℕ) (r : α → α → Prop) (s : List α) : Prop :=
  ∀ i j, ∀ (hi : i < s.length) (hj : j < s.length), i / limit < j / limit → r s[i] s[j]

section Reordered

variable {reorder : List α → List α} (hperm : ∀ l, (reorder l).Perm l)
include hperm

theorem perm_flatten (hlimit : 0 < limit) (s : List α) :
    ((List.range (count limit s.length)).map fun k ↦
      reorder (window limit s k)).flatten.Perm s := by
  have hwindows : ∀ ks : List ℕ, (ks.map fun k ↦ reorder (window limit s k)).flatten.Perm
      (ks.map (window limit s)).flatten := by
    intro ks
    induction ks with
    | nil => exact .nil
    | cons k ks ih => exact (hperm _).append ih
  have hall := hwindows (List.range (count limit s.length))
  rwa [flatten_windows hlimit] at hall

/-- **Sorted pages.** When every page is sorted, the pages together are sorted exactly when any two
entries of different windows are in order. -/
theorem pairwise_flatten_iff (hlimit : 0 < limit) {r : α → α → Prop}
    (hsorted : ∀ l, (reorder l).Pairwise r) (s : List α) :
    ((List.range (count limit s.length)).map fun k ↦
      reorder (window limit s k)).flatten.Pairwise r ↔ Across limit r s := by
  have hmem : ∀ {k : ℕ} {a : α}, a ∈ reorder (window limit s k) ↔
      ∃ i, ∃ hi : i < s.length, i / limit = k ∧ s[i] = a := by
    intro k a
    rw [(hperm _).mem_iff, mem_window_iff hlimit]
  rw [List.pairwise_flatten, List.pairwise_map, List.pairwise_iff_getElem]
  simp only [List.getElem_range, List.length_range]
  constructor
  · rintro ⟨-, hacross⟩ i j hi hj hij
    have hcount : j / limit < count limit s.length :=
      Nat.div_lt_of_lt_mul (Nat.mul_comm .. ▸ lt_of_lt_of_le hj (length_le_count_mul hlimit _))
    exact hacross _ _ (lt_trans hij hcount) hcount hij _ (hmem.mpr ⟨i, hi, rfl, rfl⟩) _
      (hmem.mpr ⟨j, hj, rfl, rfl⟩)
  · intro hacross
    refine ⟨?_, ?_⟩
    · intro page hpage
      obtain ⟨k, -, rfl⟩ := List.mem_map.mp hpage
      exact hsorted _
    · intro k k' _ _ hlt a ha b hb
      obtain ⟨i, hi, rfl, rfl⟩ := hmem.mp ha
      obtain ⟨j, hj, rfl, rfl⟩ := hmem.mp hb
      exact hacross i j hi hj hlt

end Reordered

end Windows
