import Mathlib.Algebra.Order.Field.Power
import Mathlib.Data.Int.Log
import Mathlib.Data.Rat.Floor
import Mathlib.Tactic.Linarith
import Mathlib.Tactic.NormNum

/-!
# Arithmetic of doubles

A double is a whole number of at most 53 bits times a power of two, which is not below the smallest
one; here there is no largest. The result of an operation is the double nearest to the exact result,
and the even one of two that are equally near. As it is nearest, rounding keeps doubles as they are
and never reverses an order (`nearest_mono`), so sums and quotients are monotone.
-/

structure Binary64 where
  val : ℚ
  /-- At most 53 significant bits. -/
  isDouble : ∃ k e : ℤ, |k| < 2 ^ 53 ∧ -1074 ≤ e ∧ val = k * 2 ^ e
  deriving DecidableEq

namespace Binary64

/-! ## Rounding to whole numbers -/

/-- The nearest whole number, and the even one of two. -/
def roundEven (x : ℚ) : ℤ :=
  if 1 / 2 < Int.fract x ∨ Int.fract x = 1 / 2 ∧ ⌊x⌋ % 2 = 1 then ⌊x⌋ + 1 else ⌊x⌋

theorem roundEven_cases (x : ℚ) :
    roundEven x = ⌊x⌋ ∧ Int.fract x ≤ 1 / 2 ∨ roundEven x = ⌊x⌋ + 1 ∧ 1 / 2 ≤ Int.fract x := by
  rw [roundEven]
  split_ifs with h
  · exact .inr ⟨rfl, h.elim le_of_lt fun hhalf ↦ hhalf.1.ge⟩
  · exact .inl ⟨rfl, not_lt.mp fun hlt ↦ h (.inl hlt)⟩

theorem abs_sub_roundEven_le (x : ℚ) (n : ℤ) : |x - roundEven x| ≤ |x - n| := by
  have hsplit : x - ⌊x⌋ = Int.fract x := rfl
  have hnonneg := Int.fract_nonneg x
  have hlt := Int.fract_lt_one x
  have hn : Int.fract x ≤ |x - n| ∨ 1 - Int.fract x ≤ |x - n| := by
    rcases le_or_gt n ⌊x⌋ with hle | hgt
    · have hcast : (n : ℚ) ≤ ⌊x⌋ := by exact_mod_cast hle
      exact .inl ((by linarith : Int.fract x ≤ x - n).trans (le_abs_self _))
    · have hcast : ((⌊x⌋ + 1 : ℤ) : ℚ) ≤ n := by exact_mod_cast hgt
      rw [Int.cast_add, Int.cast_one] at hcast
      exact .inr ((by linarith : 1 - Int.fract x ≤ -(x - n)).trans (neg_le_abs _))
  rcases roundEven_cases x with ⟨hround, hhalf⟩ | ⟨hround, hhalf⟩
  · rw [hround, hsplit, abs_of_nonneg hnonneg]
    exact hn.elim id fun h ↦ by linarith
  · have habs : |x - ((⌊x⌋ + 1 : ℤ) : ℚ)| = 1 - Int.fract x := by
      rw [Int.cast_add, Int.cast_one, ← sub_sub, hsplit, abs_sub_comm, abs_of_nonneg (by linarith)]
    rw [hround, habs]
    exact hn.elim (fun h ↦ by linarith) id

theorem abs_roundEven_le {x : ℚ} {n : ℕ} (h : |x| < n) : |roundEven x| ≤ n := by
  obtain ⟨hlow, hhigh⟩ := abs_lt.mp h
  have hfloor : ⌊x⌋ < n := Int.floor_lt.mpr (by exact_mod_cast hhigh)
  have hfloor' : -(n : ℤ) ≤ ⌊x⌋ := Int.le_floor.mpr (by push_cast; exact hlow.le)
  rw [abs_le]
  rcases roundEven_cases x with ⟨hround, -⟩ | ⟨hround, -⟩
  · rw [hround]
    omega
  · rw [hround]
    omega

/-! ## Rounding to doubles -/

/-- The exponent of the last bit of the doubles about a number. -/
def lastPlace (x : ℚ) : ℤ := max (Int.log 2 |x| - 52) (-1074)

def nearestRat (x : ℚ) : ℚ := roundEven (x / 2 ^ lastPlace x) * 2 ^ lastPlace x

theorem two_zpow_pos (e : ℤ) : (0 : ℚ) < 2 ^ e := zpow_pos (by norm_num) e

theorem two_zpow_sub_add {e f : ℤ} : (2 : ℚ) ^ f = 2 ^ (f - e) * 2 ^ e := by
  rw [← zpow_add₀ (by norm_num), sub_add_cancel]

theorem two_zpow_add_nat (n : ℕ) (e : ℤ) : (2 : ℚ) ^ (e + n) = (2 ^ n : ℕ) * 2 ^ e := by
  rw [zpow_add₀ (by norm_num), zpow_natCast, mul_comm]
  norm_num

theorem abs_lt_lastPlace (x : ℚ) : |x| < 2 ^ (lastPlace x + (53 : ℕ)) := by
  have hlog := Int.lt_zpow_succ_log_self (b := 2) (by norm_num) |x|
  refine hlog.trans_le (zpow_le_zpow_right₀ (by norm_num) ?_)
  rw [lastPlace]
  have hle := le_max_left (Int.log 2 |x| - 52) (-1074)
  push_cast
  omega

theorem isDouble_nearestRat (x : ℚ) :
    ∃ k e : ℤ, |k| < 2 ^ 53 ∧ -1074 ≤ e ∧ nearestRat x = k * 2 ^ e := by
  have hplace : -1074 ≤ lastPlace x := le_max_right _ _
  have hscaled : |x / 2 ^ lastPlace x| < ((2 ^ 53 : ℕ) : ℚ) := by
    rw [abs_div, abs_of_pos (two_zpow_pos _), div_lt_iff₀ (two_zpow_pos _), ← two_zpow_add_nat]
    exact abs_lt_lastPlace x
  rcases lt_or_eq_of_le (abs_roundEven_le hscaled) with hlt | heq
  · exact ⟨_, lastPlace x, by exact_mod_cast hlt, hplace, rfl⟩
  · -- the rounding has carried into a bit more
    rcases eq_or_eq_neg_of_abs_eq heq with hround | hround
    · refine ⟨1, lastPlace x + (53 : ℕ), by norm_num, by omega, ?_⟩
      rw [nearestRat, hround, two_zpow_add_nat, Int.cast_one, one_mul]
      rfl
    · refine ⟨-1, lastPlace x + (53 : ℕ), by norm_num, by omega, ?_⟩
      rw [nearestRat, hround, two_zpow_add_nat, Int.cast_neg, Int.cast_neg, Int.cast_one,
        neg_one_mul, neg_mul]
      rfl

def nearest (x : ℚ) : Binary64 := ⟨nearestRat x, isDouble_nearestRat x⟩

theorem abs_sub_nearest_le_of_multiple (x : ℚ) (n : ℤ) :
    |x - (nearest x).val| ≤ |x - n * 2 ^ lastPlace x| := by
  have hpos := two_zpow_pos (lastPlace x)
  have hscale : ∀ m : ℤ, |x - m * 2 ^ lastPlace x| =
      |x / 2 ^ lastPlace x - m| * 2 ^ lastPlace x := by
    intro m
    rw [← abs_of_pos hpos, ← abs_mul, abs_of_pos hpos, sub_mul, div_mul_cancel₀ _ hpos.ne']
  change |x - roundEven (x / 2 ^ lastPlace x) * 2 ^ lastPlace x| ≤ _
  rw [hscale, hscale]
  exact mul_le_mul_of_nonneg_right (abs_sub_roundEven_le _ n) hpos.le

/-- **No double is nearer.** -/
theorem abs_sub_nearest_le (x : ℚ) (z : Binary64) : |x - (nearest x).val| ≤ |x - z.val| := by
  obtain ⟨k, f, hk, hf, hz⟩ := z.isDouble
  rcases le_or_gt (lastPlace x) f with hle | hgt
  · -- the double is a multiple of the last place
    obtain ⟨n, hn⟩ := Int.eq_ofNat_of_zero_le (sub_nonneg.mpr hle)
    have hmultiple : z.val = ((k * 2 ^ n : ℤ) : ℚ) * 2 ^ lastPlace x := by
      rw [hz, two_zpow_sub_add (e := lastPlace x), hn, zpow_natCast, ← mul_assoc]
      push_cast
      rfl
    rw [hmultiple]
    exact abs_sub_nearest_le_of_multiple x _
  rcases eq_or_ne x 0 with rfl | hx
  · have hzero : (nearest 0).val = 0 := by decide +kernel
    rw [hzero, sub_zero, abs_zero]
    exact abs_nonneg _
  -- a finer double is smaller than the power of two that starts the doubles about the number
  have hplace : lastPlace x = Int.log 2 |x| - 52 := by
    refine max_eq_left (not_lt.mp fun hlt ↦ ?_)
    rw [lastPlace, max_eq_right hlt.le] at hgt
    omega
  have hstart : (2 : ℚ) ^ (lastPlace x + (52 : ℕ)) ≤ |x| := by
    have hlog := Int.zpow_log_le_self (b := 2) (by norm_num) (abs_pos.mpr hx)
    rw [hplace]
    push_cast
    rwa [sub_add_cancel]
  have hsmall : |z.val| ≤ 2 ^ (lastPlace x + (52 : ℕ)) := by
    have hk' : |(k : ℚ)| ≤ 2 ^ 53 := by exact_mod_cast hk.le
    calc |z.val| = |(k : ℚ)| * 2 ^ f := by rw [hz, abs_mul, abs_of_pos (two_zpow_pos f)]
      _ ≤ 2 ^ 53 * 2 ^ (lastPlace x - 1) := by
        refine mul_le_mul hk' ?_ (two_zpow_pos f).le (by norm_num)
        exact zpow_le_zpow_right₀ (by norm_num) (by omega)
      _ = 2 ^ (lastPlace x + (52 : ℕ)) := by
        rw [← zpow_natCast, ← zpow_add₀ (by norm_num)]
        congr 1
        push_cast
        ring
  obtain ⟨n, hn⟩ : ∃ n : ℤ,
      |x - n * 2 ^ lastPlace x| = |x| - 2 ^ (lastPlace x + (52 : ℕ)) := by
    rw [two_zpow_add_nat] at hstart ⊢
    rcases lt_or_gt_of_ne hx with hneg | hpos
    · refine ⟨-(2 ^ 52 : ℕ), ?_⟩
      rw [abs_of_neg hneg] at hstart ⊢
      rw [Int.cast_neg, Int.cast_natCast, neg_mul, sub_neg_eq_add, abs_of_nonpos (by linarith)]
      ring
    · refine ⟨(2 ^ 52 : ℕ), ?_⟩
      rw [abs_of_pos hpos] at hstart ⊢
      rw [Int.cast_natCast, abs_of_nonneg (by linarith)]
  calc |x - (nearest x).val| ≤ |x| - 2 ^ (lastPlace x + (52 : ℕ)) :=
        hn ▸ abs_sub_nearest_le_of_multiple x n
    _ ≤ |x| - |z.val| := sub_le_sub_left hsmall _
    _ ≤ |x - z.val| := abs_sub_abs_le_abs_sub _ _

/-! ## The order -/

theorem val_injective : Function.Injective val := by
  rintro ⟨x, hx⟩ ⟨y, hy⟩ rfl
  rfl

instance : LinearOrder Binary64 := LinearOrder.lift' val val_injective

theorem le_def {a b : Binary64} : a ≤ b ↔ a.val ≤ b.val := Iff.rfl

theorem lt_def {a b : Binary64} : a < b ↔ a.val < b.val := Iff.rfl

/-- A double is its own nearest one. -/
theorem nearest_val (a : Binary64) : nearest a.val = a := by
  have hzero := abs_sub_nearest_le a.val a
  rw [sub_self, abs_zero] at hzero
  exact val_injective (sub_eq_zero.mp (abs_nonpos_iff.mp hzero)).symm

/-- **Rounding never reverses an order.** -/
theorem nearest_mono {x y : ℚ} (h : x ≤ y) : nearest x ≤ nearest y := by
  rcases eq_or_lt_of_le h with rfl | hlt
  · exact le_rfl
  by_contra hnot
  have hgt : (nearest y).val < (nearest x).val := lt_def.mp (not_le.mp hnot)
  have hx := sq_le_sq.mpr (abs_sub_nearest_le x (nearest y))
  have hy := sq_le_sq.mpr (abs_sub_nearest_le y (nearest x))
  have hpos := mul_pos (sub_pos.mpr hlt) (sub_pos.mpr hgt)
  linarith

/-! ## Operations -/

instance : Add Binary64 := ⟨fun a b ↦ nearest (a.val + b.val)⟩
instance : Mul Binary64 := ⟨fun a b ↦ nearest (a.val * b.val)⟩
instance : Div Binary64 := ⟨fun a b ↦ nearest (a.val / b.val)⟩
instance (n : ℕ) : OfNat Binary64 n := ⟨nearest n⟩

theorem val_zero : (0 : Binary64).val = 0 := by decide +kernel

theorem le_add_of_pos (a : Binary64) {b : Binary64} (hb : 0 < b) : a ≤ a + b := by
  have hpos : 0 < b.val := by
    rw [← val_zero]
    exact lt_def.mp hb
  calc a = nearest a.val := (nearest_val a).symm
    _ ≤ nearest (a.val + b.val) := nearest_mono (le_add_of_nonneg_right hpos.le)

theorem div_le_div_of_pos {a b c : Binary64} (h : a ≤ b) (hc : 0 < c) : a / c ≤ b / c := by
  have hpos : 0 ≤ c.val := by
    rw [← val_zero]
    exact (lt_def.mp hc).le
  exact nearest_mono (div_le_div_of_nonneg_right (le_def.mp h) hpos)

end Binary64
