import Mathlib.Algebra.Order.Group.Int
import Mathlib.Algebra.Order.Ring.Nat

/-!
# Whole doubles

The double that a whole number is converted to: the nearest one, and of two equally near ones the
one with the even significand. A double has 53 significant bits, so the numbers of fewer bits are
doubles themselves, and the doubles near a longer number are the multiples of a power of two.
Numbers too large for a double are left out.
-/

namespace Double

/-- The distance of two neighbouring doubles about a number. -/
def ulp (n : ℕ) : ℕ := 2 ^ (n.log2 - 52)

/-- The nearest multiple of the distance of neighbours, with ties to the even one. -/
def nearestNat (n : ℕ) : ℕ :=
  let q := n / ulp n
  let r := n % ulp n
  if ulp n < 2 * r ∨ ulp n = 2 * r ∧ q % 2 = 1 then (q + 1) * ulp n else q * ulp n

def nearest (n : ℤ) : ℤ := n.sign * nearestNat n.natAbs

theorem ulp_le {n : ℕ} (hn : n ≠ 0) : ulp n ≤ n :=
  (Nat.pow_le_pow_right Nat.two_pos (Nat.sub_le _ _)).trans (Nat.log2_self_le hn)

theorem le_two_mul_nearestNat (n : ℕ) : n ≤ 2 * nearestNat n := by
  rcases eq_or_ne n 0 with rfl | hn
  · exact Nat.zero_le _
  have hulp := ulp_le hn
  have hsplit := Nat.div_add_mod' n (ulp n)
  have hpos : 0 < ulp n := Nat.two_pow_pos _
  have hmod := Nat.mod_lt n hpos
  have hnext := Nat.add_one_mul (n / ulp n) (ulp n)
  simp only [nearestNat]
  split
  · omega
  · omega

theorem nearest_natCast (n : ℕ) : nearest n = nearestNat n := by
  rcases Nat.eq_zero_or_pos n with rfl | hn
  · decide
  · rw [nearest, Int.sign_eq_one_of_pos (by exact_mod_cast hn), one_mul, Int.natAbs_natCast]

example : nearest 9007199254740993 = 9007199254740992 := by decide

end Double
