import Mathlib.Data.String.Basic
import StellarDonations.Time.Calendar

/-!
# Numbers of a fixed width

Texts are compared character by character. Texts that begin with numbers padded to the same width
are compared by these numbers first, and by what follows when the numbers are equal
(`padded_append_le_iff`); a common beginning does not matter (`append_le_append_iff`). Taken
together, texts of one format compare like the tuples of their fields, up to the place where the
formats differ.
-/

namespace FixedWidth

open Calendar

/-- The last `w` decimal digits of a number. -/
def digits : ℕ → ℕ → List Char
  | 0, _ => []
  | w + 1, n => digits w (n / 10) ++ [Nat.digitChar (n % 10)]

theorem digits_zero (w : ℕ) : digits w 0 = List.replicate w '0' := by
  induction w with
  | zero => rfl
  | succ w ih =>
    rw [digits, Nat.zero_div, ih, List.replicate_succ']
    rfl

theorem digitChar_lt_iff : ∀ m < 10, ∀ n < 10,
    (Nat.digitChar m < Nat.digitChar n ↔ m < n) ∧ (Nat.digitChar m = Nat.digitChar n ↔ m = n) := by
  decide

theorem cons_le_cons_iff {c d : Char} {x y : List Char} :
    c :: x ≤ d :: y ↔ c < d ∨ c = d ∧ x ≤ y := by
  rw [← not_lt, List.cons_lt_cons_iff, not_or, not_and, not_lt, not_lt]
  constructor
  · rintro ⟨hle, hxy⟩
    exact hle.lt_or_eq.imp_right fun heq ↦ ⟨heq, hxy heq.symm⟩
  · rintro (hlt | ⟨rfl, hxy⟩)
    · exact ⟨hlt.le, fun heq ↦ absurd heq hlt.ne'⟩
    · exact ⟨le_rfl, fun _ ↦ hxy⟩

/-- Digits of the same width compare like the numbers. -/
theorem digits_append_le_iff {w m n : ℕ} (hm : m < 10 ^ w) (hn : n < 10 ^ w) {x y : List Char} :
    digits w m ++ x ≤ digits w n ++ y ↔ m < n ∨ m = n ∧ x ≤ y := by
  induction w generalizing m n x y with
  | zero =>
    obtain rfl : m = 0 := Nat.lt_one_iff.mp hm
    obtain rfl : n = 0 := Nat.lt_one_iff.mp hn
    simp [digits]
  | succ w ih =>
    have hm' : m / 10 < 10 ^ w := Nat.div_lt_of_lt_mul (by rwa [pow_succ'] at hm)
    have hn' : n / 10 < 10 ^ w := Nat.div_lt_of_lt_mul (by rwa [pow_succ'] at hn)
    obtain ⟨hlt, heq⟩ := digitChar_lt_iff (m % 10) (Nat.mod_lt m Nat.succ_pos') (n % 10)
      (Nat.mod_lt n Nat.succ_pos')
    rw [digits, digits, List.append_assoc, List.append_assoc, ih hm' hn', List.singleton_append,
      List.singleton_append, cons_le_cons_iff, hlt, heq]
    have hfirst : m < n ↔ m / 10 < n / 10 ∨ m / 10 = n / 10 ∧ m % 10 < n % 10 := by omega
    have hsecond : m = n ↔ m / 10 = n / 10 ∧ m % 10 = n % 10 := by omega
    rw [hfirst, hsecond, and_or_left, or_assoc, and_assoc]

theorem toList_padded {w n : ℕ} (hw : 0 < w) (hn : n < 10 ^ w) :
    (padded w n).toList = digits w n := by
  have key : List.replicate (w - (Nat.toDigits 10 n).length) '0' ++ Nat.toDigits 10 n =
      digits w n := by
    induction w, hw using Nat.le_induction generalizing n with
    | base =>
      have hlt : n < 10 := hn
      rw [Nat.toDigits_of_lt_base hlt, digits, Nat.mod_eq_of_lt hlt]
      rfl
    | succ w hw ih =>
      rw [digits]
      rcases Nat.lt_or_ge n 10 with hlt | hge
      · rw [Nat.toDigits_of_lt_base hlt, Nat.div_eq_of_lt hlt, digits_zero, Nat.mod_eq_of_lt hlt]
        rfl
      · have hn' : n / 10 < 10 ^ w := Nat.div_lt_of_lt_mul (by rwa [pow_succ'] at hn)
        rw [Nat.toDigits_of_base_le (by decide) hge, ← ih hn', List.length_append,
          List.length_singleton, Nat.add_sub_add_right, List.append_assoc]
  have hdigits : (toString n).toList = Nat.toDigits 10 n := Nat.toList_repr
  rw [← key, padded, String.toList_append, String.toList_ofList, ← String.length_toList, hdigits]

/-- **Padded numbers compare like the numbers.** -/
theorem padded_append_le_iff {w m n : ℕ} (hw : 0 < w) (hm : m < 10 ^ w) (hn : n < 10 ^ w)
    {x y : String} : padded w m ++ x ≤ padded w n ++ y ↔ m < n ∨ m = n ∧ x ≤ y := by
  rw [String.le_iff_toList_le, String.toList_append, String.toList_append, toList_padded hw hm,
    toList_padded hw hn, digits_append_le_iff hm hn, String.le_iff_toList_le]

theorem padded_injective {w m n : ℕ} (hw : 0 < w) (hm : m < 10 ^ w) (hn : n < 10 ^ w)
    (h : padded w m = padded w n) : m = n := by
  have hle := (padded_append_le_iff (x := "") (y := "") hw hm hn).mp (by rw [h])
  have hge := (padded_append_le_iff (x := "") (y := "") hw hn hm).mp (by rw [h])
  omega

theorem length_digits (w n : ℕ) : (digits w n).length = w := by
  induction w generalizing n with
  | zero => rfl
  | succ w ih => rw [digits, List.length_append, ih, List.length_singleton]

theorem append_le_append_iff {a x y : String} : a ++ x ≤ a ++ y ↔ x ≤ y := by
  rw [String.le_iff_toList_le, String.le_iff_toList_le, String.toList_append, String.toList_append]
  induction a.toList with
  | nil => rfl
  | cons c cs ih =>
    rw [List.cons_append, List.cons_append, cons_le_cons_iff, ih]
    simp

theorem cons_le_of_lt {c d : Char} (h : c < d) (x y : String) :
    String.ofList [c] ++ x ≤ String.ofList [d] ++ y := by
  rw [String.le_iff_toList_le, String.toList_append, String.toList_append, String.toList_ofList,
    String.toList_ofList]
  exact cons_le_cons_iff.mpr (.inl h)

theorem not_cons_le_of_lt {c d : Char} (h : c < d) (x y : String) :
    ¬String.ofList [d] ++ x ≤ String.ofList [c] ++ y := by
  rw [String.le_iff_toList_le, String.toList_append, String.toList_append, String.toList_ofList,
    String.toList_ofList]
  rintro hle
  rcases cons_le_cons_iff.mp hle with hlt | ⟨rfl, -⟩
  · exact absurd hlt h.not_gt
  · exact absurd h (lt_irrefl _)

end FixedWidth
