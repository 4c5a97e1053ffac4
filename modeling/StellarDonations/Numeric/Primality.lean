import Mathlib.Data.List.Prime
import Mathlib.NumberTheory.LucasPrimality

/-!
# Primes with a certificate

Lucas's criterion in a form that can be computed: a number is prime if it has an element whose
order is the number less one, and the order is read from the prime factors of that
(`prime_of_certified`). The factors are certified in the same way or are small. Powers are computed
by squaring, over as many bits as the exponent has.
-/

namespace Primality

/-- `r * a ^ n % m`, if `n` has at most as many bits as the first argument says. -/
def powLoop (m : ℕ) : ℕ → ℕ → ℕ → ℕ → ℕ
  | 0, r, _, _ => r % m
  | k + 1, r, a, n => powLoop m k (if n % 2 = 1 then r * a % m else r) (a * a % m) (n / 2)

/-- `a ^ n % m`. -/
def powMod (m a n : ℕ) : ℕ := powLoop m (n.log2 + 1) 1 a n

/-- The base `a` shows that `p` is prime, provided the factors of `p - 1` are. -/
def certified (p a : ℕ) (factors : List ℕ) : Bool :=
  1 < p && factors.prod = p - 1 && powMod p a (p - 1) = 1 &&
    factors.all fun q ↦ powMod p a ((p - 1) / q) ≠ 1

theorem powLoop_modEq (m k r a n : ℕ) (hn : n < 2 ^ k) : powLoop m k r a n = r * a ^ n % m := by
  induction k generalizing r a n with
  | zero =>
    obtain rfl : n = 0 := Nat.lt_one_iff.mp hn
    rw [powLoop, pow_zero, mul_one]
  | succ k ih =>
    have hhalf : n / 2 < 2 ^ k := by
      rw [pow_succ] at hn
      omega
    have hsquare : (a * a % m) ^ (n / 2) ≡ a ^ (2 * (n / 2)) [MOD m] := by
      rw [pow_mul, sq]
      exact (Nat.mod_modEq _ m).pow _
    rw [powLoop, ih _ _ _ hhalf]
    split_ifs with hodd
    · calc r * a % m * (a * a % m) ^ (n / 2) ≡ r * a * a ^ (2 * (n / 2)) [MOD m] :=
            (Nat.mod_modEq _ m).mul hsquare
        _ = r * a ^ n := by
          rw [mul_assoc, ← pow_succ', ← hodd, Nat.div_add_mod]
    · calc r * (a * a % m) ^ (n / 2) ≡ r * a ^ (2 * (n / 2)) [MOD m] := hsquare.mul_left r
        _ = r * a ^ n := by rw [Nat.mul_div_cancel' (Nat.dvd_of_mod_eq_zero (by omega))]

theorem powMod_eq (m a n : ℕ) : powMod m a n = a ^ n % m := by
  rw [powMod, powLoop_modEq m _ 1 a n Nat.lt_log2_self, one_mul]

theorem powMod_eq_one_iff {p : ℕ} (hp : 1 < p) (a n : ℕ) :
    powMod p a n = 1 ↔ (a : ZMod p) ^ n = 1 := by
  have hcast := ZMod.natCast_eq_natCast_iff' (a ^ n) 1 p
  rw [Nat.cast_pow, Nat.cast_one, Nat.mod_eq_of_lt hp] at hcast
  rw [powMod_eq, hcast]

/-- **Lucas's criterion**, checked. -/
theorem prime_of_certified {p : ℕ} (a : ℕ) (factors : List ℕ)
    (h : certified p a factors = true) (hprime : ∀ q ∈ factors, q.Prime) : p.Prime := by
  simp only [certified, Bool.and_eq_true, decide_eq_true_eq, List.all_eq_true] at h
  obtain ⟨⟨⟨hp, hprod⟩, hone⟩, hne⟩ := h
  refine lucas_primality p a ((powMod_eq_one_iff hp a _).mp hone) fun q hq hdvd ↦ ?_
  rw [← hprod] at hdvd
  obtain ⟨q', hq', hdvd'⟩ := (Prime.dvd_prod_iff hq.prime).mp hdvd
  obtain rfl : q = q' := (Nat.prime_dvd_prime_iff_eq hq (hprime q' hq')).mp hdvd'
  exact fun hpow ↦ hne q hq' ((powMod_eq_one_iff hp a _).mpr hpow)

end Primality
