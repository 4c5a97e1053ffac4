import Mathlib.Data.List.DropRight

/-!
# The last entries of a list

A list that grows at its end and is cut to its last `n` entries. Cutting once at the end is the same
as cutting after every entry (`rtake_rtake_concat`), and where the entries that meet a condition are
the last ones, it does not matter whether they are selected before or after the cut
(`filter_rtake`).
-/

namespace Recent

variable {α : Type*} {p : α → Bool} {l : List α}

theorem rtake_rtake (l : List α) (m n : ℕ) : (l.rtake m).rtake n = l.rtake (min n m) := by
  rw [List.rtake_eq_reverse_take_reverse, List.rtake_eq_reverse_take_reverse, List.reverse_reverse,
    List.take_take, ← List.rtake_eq_reverse_take_reverse]

/-- A list that was cut before its last entry came. -/
theorem rtake_rtake_concat (l : List α) (a : α) (n : ℕ) :
    (l.rtake n ++ [a]).rtake n = (l ++ [a]).rtake n := by
  cases n with
  | zero => rw [List.rtake_zero, List.rtake_zero]
  | succ n =>
    rw [List.rtake_concat_succ, List.rtake_concat_succ, rtake_rtake,
      min_eq_left (Nat.le_succ n)]

theorem rtake_append {l₁ l₂ : List α} {n : ℕ} (h : l₂.length ≤ n) :
    (l₁ ++ l₂).rtake n = l₁.rtake (n - l₂.length) ++ l₂ := by
  have hall : l₂.reverse.take n = l₂.reverse :=
    List.take_of_length_le (by rwa [List.length_reverse])
  rw [List.rtake_eq_reverse_take_reverse, List.rtake_eq_reverse_take_reverse, List.reverse_append,
    List.take_append, List.reverse_append, List.length_reverse, hall, List.reverse_reverse]

/-- What comes after an entry that meets the condition meets it as well. -/
def Lasting (p : α → Bool) (l : List α) : Prop := l.Pairwise fun a b ↦ p a = true → p b = true

/-- If the entries that meet the condition are the last ones, it can be imposed after the cut. -/
theorem filter_rtake (h : Lasting p l) (n : ℕ) : (l.rtake n).filter p = (l.filter p).rtake n := by
  induction l using List.reverseRecOn generalizing n with
  | nil => rw [List.rtake_nil, List.filter_nil, List.rtake_nil]
  | append_singleton l a ih =>
    cases n with
    | zero => rw [List.rtake_zero, List.rtake_zero, List.filter_nil]
    | succ n =>
      obtain ⟨hl, -, hlast⟩ := List.pairwise_append.mp h
      rw [List.rtake_concat_succ, List.filter_append, List.filter_append, ih hl n]
      by_cases ha : p a = true
      · rw [List.filter_cons_of_pos ha, List.filter_nil, List.rtake_concat_succ]
      · -- then no earlier entry meets the condition
        have hnone : l.filter p = [] := by
          refine List.filter_eq_nil_iff.mpr fun b hb hpb ↦ ha ?_
          exact hlast b hb a (List.mem_singleton_self a) hpb
        rw [List.filter_cons_of_neg ha, hnone, List.filter_nil, List.rtake_nil, List.append_nil,
          List.rtake_nil]

end Recent
