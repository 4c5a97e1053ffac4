import Mathlib.Algebra.Order.Monoid.Defs
import Mathlib.Data.List.MinMax

/-!
# Sliding windows

A list of times is sparse when every interval of a fixed length, wherever it starts, holds at most
`n` of them. The intervals are half open, so two times exactly `W` apart are never in the same one.

A list that grows by the current time stays sparse as long as fewer than `n` of its times are less
than `W` old (`Sparse.concat`), and only then (`Sparse.recent_lt`).
-/

namespace SlidingWindow

variable {τ : Type*} [AddCommMonoid τ] [LinearOrder τ] {n : ℕ} {W now now' : τ} {ts : List τ}

/-- The number of times that are less than `W` old. -/
def recent (W now : τ) (ts : List τ) : ℕ := ts.countP (now < · + W)

/-- The number of times in the interval of length `W` from `a`. -/
def within (W a : τ) (ts : List τ) : ℕ := ts.countP fun t ↦ a ≤ t ∧ t < a + W

/-- Every interval of length `W` holds at most `n` of the times. -/
def Sparse (n : ℕ) (W : τ) (ts : List τ) : Prop := ∀ a, within W a ts ≤ n

theorem sparse_nil : Sparse n W [] := fun _ ↦ Nat.zero_le n

@[simp] theorem within_concat (a : τ) : within W a (ts ++ [now]) =
    within W a ts + if a ≤ now ∧ now < a + W then 1 else 0 := by
  rw [within, List.countP_append, List.countP_singleton, within]
  simp only [decide_eq_true_eq]

@[simp] theorem recent_concat (t : τ) : recent W now (ts ++ [t]) =
    recent W now ts + if now < t + W then 1 else 0 := by
  rw [recent, List.countP_append, List.countP_singleton, recent]
  simp only [decide_eq_true_eq]

theorem recent_anti (h : now ≤ now') : recent W now' ts ≤ recent W now ts := by
  refine List.countP_mono_left fun t _ ht ↦ ?_
  rw [decide_eq_true_eq] at ht ⊢
  exact h.trans_lt ht

theorem Sparse.recent_le (h : Sparse n W ts) (hle : ∀ t ∈ ts, t ≤ now) : recent W now ts ≤ n := by
  rcases hnew : ts.filter (now < · + W) with - | ⟨t, l⟩
  · rw [recent, List.countP_eq_length_filter, hnew]
    exact Nat.zero_le n
  · have hne : (ts.filter (now < · + W)) ≠ [] := by simp [hnew]
    obtain ⟨a, ha⟩ := WithTop.ne_top_iff_exists.mp (List.minimum_ne_top_of_ne_nil hne)
    have hfirst : now < a + W := by
      simpa using (List.mem_filter.mp (List.minimum_mem ha.symm)).2
    refine le_trans (List.countP_mono_left fun t ht hold ↦ ?_) (h a)
    have hmem : t ∈ ts.filter (now < · + W) := List.mem_filter.mpr ⟨ht, hold⟩
    rw [decide_eq_true_eq]
    exact ⟨List.minimum_le_of_mem hmem ha.symm, (hle t ht).trans_lt hfirst⟩

theorem Sparse.recent_lt (h : Sparse n W (ts ++ [now])) (hle : ∀ t ∈ ts, t ≤ now)
    (hW : now < now + W) : recent W now ts < n := by
  have hall : ∀ t ∈ ts ++ [now], t ≤ now := by
    intro t ht
    rcases List.mem_append.mp ht with ht | ht
    · exact hle t ht
    · exact (List.mem_singleton.mp ht).le
  have := h.recent_le hall
  rwa [recent_concat, if_pos hW] at this

variable [IsOrderedCancelAddMonoid τ]

/-- The times of an interval that the current time lies in are less than `W` old. -/
theorem within_le_recent {a : τ} (h : now < a + W) : within W a ts ≤ recent W now ts := by
  refine List.countP_mono_left fun t _ ht ↦ ?_
  rw [decide_eq_true_eq] at ht ⊢
  exact h.trans_le (add_le_add_left ht.1 W)

/-- **Adding the current time**, of which fewer than `n` are less than `W` old. -/
theorem Sparse.concat (h : Sparse n W ts) (hrecent : recent W now ts < n) :
    Sparse n W (ts ++ [now]) := by
  intro a
  rw [within_concat]
  split_ifs with hnow
  · exact Nat.succ_le_of_lt ((within_le_recent hnow.2).trans_lt hrecent)
  · exact h a

end SlidingWindow
