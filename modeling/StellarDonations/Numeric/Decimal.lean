import Mathlib.Data.Rat.Floor
import Mathlib.Tactic.Linarith
import Mathlib.Tactic.Positivity
import Mathlib.Tactic.FieldSimp
import Mathlib.Tactic.Ring

/-!
# Rounding to a fixed number of decimals

`Number.prototype.toFixed(d)` rounds to the nearest multiple of `10⁻ᵈ`, choosing the larger
magnitude when two are equally near; parsing the result back gives `toFixed d x` below. Amounts are
exact rationals, so the only loss is this rounding.

`Whole d x` says that `x` is a multiple of `10⁻ᵈ`. The facts a caller needs are that rounding is
monotone, fixes whole amounts and commutes with adding one: together they bound a rounded minimum
by any whole bound of the unrounded one.
-/

namespace Decimal

variable {d : ℕ} {x y : ℚ}

/-! ## Whole amounts -/

/-- `x` is a multiple of `10⁻ᵈ`. -/
def Whole (d : ℕ) (x : ℚ) : Prop := ∃ n : ℤ, x = n / 10 ^ d

theorem whole_iff_floor (d : ℕ) (x : ℚ) : Whole d x ↔ (⌊x * 10 ^ d⌋ : ℚ) = x * 10 ^ d := by
  have hd : (10 : ℚ) ^ d ≠ 0 := by positivity
  constructor
  · rintro ⟨n, rfl⟩
    rw [div_mul_cancel₀ _ hd, Int.floor_intCast]
  · intro h
    exact ⟨⌊x * 10 ^ d⌋, by rw [h, mul_div_cancel_right₀ _ hd]⟩

instance decidableWhole (d : ℕ) (x : ℚ) : Decidable (Whole d x) :=
  decidable_of_iff _ (whole_iff_floor d x).symm

theorem whole_zero (d : ℕ) : Whole d 0 := ⟨0, by simp⟩

theorem Whole.add (hx : Whole d x) (hy : Whole d y) : Whole d (x + y) := by
  obtain ⟨m, rfl⟩ := hx
  obtain ⟨n, rfl⟩ := hy
  exact ⟨m + n, by push_cast; ring⟩

theorem Whole.sub (hx : Whole d x) (hy : Whole d y) : Whole d (x - y) := by
  obtain ⟨m, rfl⟩ := hx
  obtain ⟨n, rfl⟩ := hy
  exact ⟨m - n, by push_cast; ring⟩

/-! ## Rounding -/

/-- Round a nonnegative amount half up to `d` decimals. -/
def roundHalfUp (d : ℕ) (x : ℚ) : ℚ := ⌊x * 10 ^ d + 1 / 2⌋ / 10 ^ d

/-- `parseFloat(x.toFixed(d))`: ties go away from zero, negative amounts by symmetry. -/
def toFixed (d : ℕ) (x : ℚ) : ℚ := if x < 0 then -roundHalfUp d (-x) else roundHalfUp d x

theorem toFixed_of_nonneg (h : 0 ≤ x) : toFixed d x = roundHalfUp d x := if_neg h.not_gt

theorem roundHalfUp_mono (h : x ≤ y) : roundHalfUp d x ≤ roundHalfUp d y := by
  rw [roundHalfUp, roundHalfUp]
  gcongr

theorem roundHalfUp_of_whole (h : Whole d x) : roundHalfUp d x = x := by
  obtain ⟨n, rfl⟩ := h
  have hd : (10 : ℚ) ^ d ≠ 0 := by positivity
  have hfloor : ⌊(n : ℚ) + 1 / 2⌋ = n := by
    rw [Int.floor_eq_iff]
    constructor <;> norm_num
  rw [roundHalfUp, div_mul_cancel₀ _ hd, hfloor]

theorem roundHalfUp_sub_whole (h : Whole d y) :
    roundHalfUp d (x - y) = roundHalfUp d x - y := by
  obtain ⟨n, rfl⟩ := h
  have hd : (10 : ℚ) ^ d ≠ 0 := by positivity
  have hscale : (x - n / 10 ^ d) * 10 ^ d + 1 / 2 = x * 10 ^ d + 1 / 2 - n := by
    field_simp
    ring
  rw [roundHalfUp, roundHalfUp, hscale, Int.floor_sub_intCast]
  push_cast
  ring

theorem whole_toFixed (d : ℕ) (x : ℚ) : Whole d (toFixed d x) := by
  rw [toFixed]
  split_ifs
  · exact ⟨-⌊-x * 10 ^ d + 1 / 2⌋, by rw [roundHalfUp]; push_cast; ring⟩
  · exact ⟨⌊x * 10 ^ d + 1 / 2⌋, rfl⟩

theorem toFixed_nonneg (h : 0 ≤ x) : 0 ≤ toFixed d x := by
  rw [toFixed_of_nonneg h]
  calc (0 : ℚ) = roundHalfUp d 0 := (roundHalfUp_of_whole (whole_zero d)).symm
    _ ≤ roundHalfUp d x := roundHalfUp_mono h

theorem nonneg_of_toFixed_pos (h : 0 < toFixed d x) : 0 ≤ x := by
  by_contra hx
  rw [not_le] at hx
  have hneg : 0 ≤ roundHalfUp d (-x) := by
    rw [← toFixed_of_nonneg (neg_nonneg.mpr hx.le)]
    exact toFixed_nonneg (neg_nonneg.mpr hx.le)
  rw [toFixed, if_pos hx] at h
  linarith

theorem toFixed_of_whole (h : Whole d x) : toFixed d x = x := by
  rw [toFixed]
  split_ifs
  · obtain ⟨n, rfl⟩ := h
    rw [roundHalfUp_of_whole ⟨-n, by push_cast; ring⟩, neg_neg]
  · exact roundHalfUp_of_whole h

/-- Rounding cannot lift an amount above a whole bound. -/
theorem toFixed_le_of_whole (hx : 0 ≤ x) (hxy : x ≤ y) (hy : Whole d y) : toFixed d x ≤ y := by
  rw [toFixed_of_nonneg hx]
  calc roundHalfUp d x ≤ roundHalfUp d y := roundHalfUp_mono hxy
    _ = y := roundHalfUp_of_whole hy

/-- The bound for a limit that need not be whole: what is left of `y` after a whole amount `z` is
never exceeded as long as `y` itself does not round up. -/
theorem toFixed_le_sub {z : ℚ} (hx : 0 ≤ x) (hxy : x ≤ y - z) (hz : Whole d z)
    (hy : roundHalfUp d y ≤ y) : toFixed d x ≤ y - z := by
  rw [toFixed_of_nonneg hx]
  calc roundHalfUp d x ≤ roundHalfUp d (y - z) := roundHalfUp_mono hxy
    _ = roundHalfUp d y - z := roundHalfUp_sub_whole hz
    _ ≤ y - z := by linarith

example : toFixed 7 (5 / 10 ^ 8) = 1 / 10 ^ 7 := by decide +kernel

end Decimal
