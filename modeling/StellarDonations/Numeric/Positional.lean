import Mathlib.Data.Nat.Bitwise
import Mathlib.Data.Nat.Digits.Lemmas

/-!
# Numbers by their digits

Numbers written with the most significant digit first, in any base, and what is left of a number
under a mask of leading ones: two numbers agree under such a mask exactly if they agree after the
other bits are dropped (`and_mask_eq_iff`).
-/

namespace Positional

def value (b : ℕ) (l : List ℕ) : ℕ := Nat.ofDigits b l.reverse

variable {b : ℕ}

@[simp] theorem value_nil : value b [] = 0 := rfl

theorem value_append (l m : List ℕ) : value b (l ++ m) = value b l * b ^ m.length + value b m := by
  rw [value, List.reverse_append, Nat.ofDigits_append, List.length_reverse, value, value]
  ring

theorem value_singleton (d : ℕ) : value b [d] = d := Nat.ofDigits_singleton

/-- Horner's rule. -/
theorem foldl_eq_value (l : List ℕ) : l.foldl (fun n d ↦ b * n + d) 0 = value b l := by
  induction l using List.reverseRecOn with
  | nil => rfl
  | append_singleton l d ih =>
    rw [List.foldl_append, ih, value_append, value_singleton, List.length_singleton, pow_one,
      mul_comm]
    rfl

theorem value_lt (hb : 1 < b) {l : List ℕ} (hl : ∀ d ∈ l, d < b) : value b l < b ^ l.length := by
  rw [← List.length_reverse]
  exact Nat.ofDigits_lt_base_pow_length hb fun d hd ↦ hl d (List.mem_reverse.mp hd)

theorem value_append_div (hb : 1 < b) (l : List ℕ) {m : List ℕ} (hm : ∀ d ∈ m, d < b) :
    value b (l ++ m) / b ^ m.length = value b l := by
  rw [value_append, mul_comm, Nat.mul_add_div (pow_pos (Nat.zero_lt_of_lt hb) _),
    Nat.div_eq_of_lt (value_lt hb hm), add_zero]

theorem value_injective (hb : 1 < b) {l m : List ℕ} (hlen : l.length = m.length)
    (hl : ∀ d ∈ l, d < b) (hm : ∀ d ∈ m, d < b) (h : value b l = value b m) : l = m := by
  rw [← List.reverse_inj]
  refine Nat.injOn_ofDigits hb l.length ?_ ?_ h
  · exact ⟨List.length_reverse, fun d hd ↦ hl d (List.mem_reverse.mp hd)⟩
  · exact ⟨List.length_reverse.trans hlen.symm, fun d hd ↦ hm d (List.mem_reverse.mp hd)⟩

theorem value_cons (d : ℕ) (l : List ℕ) : value b (d :: l) = d * b ^ l.length + value b l := by
  rw [← List.singleton_append, value_append, value_singleton]

/-! ## Masks -/

theorem and_mask {w k a : ℕ} (hk : k ≤ w) (ha : a < 2 ^ w) :
    a &&& (2 ^ w - 2 ^ k) = a / 2 ^ k * 2 ^ k := by
  have hpred : 2 ^ k = 2 ^ k - 1 + 1 := (Nat.sub_add_cancel (Nat.one_le_two_pow)).symm
  have hlt : 2 ^ k - 1 < 2 ^ w :=
    (Nat.sub_lt (Nat.two_pow_pos k) Nat.one_pos).trans_le (Nat.pow_le_pow_right Nat.two_pos hk)
  refine Nat.eq_of_testBit_eq fun i ↦ ?_
  rw [Nat.testBit_and, hpred, Nat.testBit_two_pow_sub_succ hlt, ← hpred,
    Nat.testBit_two_pow_sub_one, Nat.testBit_mul_two_pow, Nat.testBit_div_two_pow]
  by_cases hki : k ≤ i
  · rw [Nat.sub_add_cancel hki]
    by_cases hiw : i < w
    · simp [hki, hiw]
    · have hbit : a.testBit i = false :=
        Nat.testBit_lt_two_pow (ha.trans_le (Nat.pow_le_pow_right Nat.two_pos (Nat.not_lt.mp hiw)))
      rw [hbit, Bool.false_and, Bool.and_false]
  · simp [hki, Nat.not_le.mp hki]

theorem and_mask_eq_iff {w k m n : ℕ} (hk : k ≤ w) (hm : m < 2 ^ w) (hn : n < 2 ^ w) :
    m &&& (2 ^ w - 2 ^ k) = n &&& (2 ^ w - 2 ^ k) ↔ m / 2 ^ k = n / 2 ^ k := by
  rw [and_mask hk hm, and_mask hk hn]
  exact Nat.mul_left_inj (Nat.two_pow_pos k).ne'

end Positional
