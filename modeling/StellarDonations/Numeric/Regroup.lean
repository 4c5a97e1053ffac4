import StellarDonations.Numeric.Positional

/-!
# Regrouping digits

Digits of `v` bits are turned into digits of `w` bits by an accumulator: every digit that comes in
is appended to the bits that wait, and whenever `w` bits wait the leading ones go out. `Regrouped`
says how the input, the output and the waiting bits belong together; it is kept by taking a digit in
(`push`) and by giving one out (`emit`), whatever the order. Regrouping and regrouping back restores
the digits, provided fewer bits were padded than a digit has (`Regrouped.roundtrip`).

An accumulator of a fixed width need not be cleared: the waiting bits are its low ones
(`waiting_shift`, `waiting_emit`, `waiting_rest`).
-/

namespace Regroup

open Positional

/-- `output` has the leading bits of `input`, and `waiting` is the number of the `bits` that
remain. -/
structure Regrouped (v w : ℕ) (input output : List ℕ) (bits waiting : ℕ) : Prop where
  total : v * input.length = w * output.length + bits
  same : value (2 ^ v) input = value (2 ^ w) output * 2 ^ bits + waiting
  waiting_lt : waiting < 2 ^ bits
  digits : ∀ d ∈ output, d < 2 ^ w

variable {v w bits waiting d : ℕ} {input output : List ℕ}

theorem regrouped_nil (v w : ℕ) : Regrouped v w [] [] 0 0 where
  total := rfl
  same := rfl
  waiting_lt := Nat.one_pos
  digits := by simp

theorem Regrouped.push (h : Regrouped v w input output bits waiting) (hd : d < 2 ^ v) :
    Regrouped v w (input ++ [d]) output (bits + v) (waiting * 2 ^ v + d) where
  total := by
    rw [List.length_append, List.length_singleton, Nat.mul_add, h.total]
    omega
  same := by
    rw [value_append, value_singleton, List.length_singleton, h.same, pow_one, pow_add]
    ring
  waiting_lt := by
    have hw := h.waiting_lt
    calc waiting * 2 ^ v + d < (waiting + 1) * 2 ^ v := by rw [Nat.succ_mul]; omega
      _ ≤ 2 ^ bits * 2 ^ v := Nat.mul_le_mul_right _ hw
      _ = 2 ^ (bits + v) := (pow_add 2 bits v).symm
  digits := h.digits

theorem Regrouped.emit (h : Regrouped v w input output bits waiting) (hbits : w ≤ bits) :
    Regrouped v w input (output ++ [waiting / 2 ^ (bits - w)]) (bits - w)
      (waiting % 2 ^ (bits - w)) where
  total := by
    rw [List.length_append, List.length_singleton, Nat.mul_add, h.total]
    omega
  same := by
    have hsplit : 2 ^ bits = 2 ^ w * 2 ^ (bits - w) := by rw [← pow_add, Nat.add_sub_cancel' hbits]
    rw [h.same, value_append, value_singleton, List.length_singleton, pow_one, hsplit, add_mul,
      add_assoc, mul_comm (waiting / _), Nat.div_add_mod, mul_assoc]
  waiting_lt := Nat.mod_lt _ (Nat.two_pow_pos _)
  digits := by
    intro d hd
    rcases List.mem_append.mp hd with hd | hd
    · exact h.digits d hd
    · obtain rfl := List.mem_singleton.mp hd
      rw [Nat.div_lt_iff_lt_mul (Nat.two_pow_pos _), ← pow_add, Nat.add_sub_cancel' hbits]
      exact h.waiting_lt

theorem Regrouped.pad (h : Regrouped v w input output bits waiting) (hbits : bits < w) :
    value (2 ^ w) (output ++ [waiting * 2 ^ (w - bits)]) =
      value (2 ^ v) input * 2 ^ (w - bits) := by
  have hsplit : 2 ^ w = 2 ^ bits * 2 ^ (w - bits) := by
    rw [← pow_add, Nat.add_sub_cancel' hbits.le]
  rw [value_append, value_singleton, List.length_singleton, pow_one, h.same, add_mul, mul_assoc,
    ← hsplit]

theorem Regrouped.pad_lt (h : Regrouped v w input output bits waiting) (hbits : bits < w) :
    waiting * 2 ^ (w - bits) < 2 ^ w := by
  have hsplit : 2 ^ w = 2 ^ bits * 2 ^ (w - bits) := by
    rw [← pow_add, Nat.add_sub_cancel' hbits.le]
  rw [hsplit]
  exact Nat.mul_lt_mul_of_pos_right h.waiting_lt (Nat.two_pow_pos _)

/-- Digits of `v` bits that were filled up to digits of `w` bits are restored by regrouping those:
as many zeros are left over as were filled up. -/
theorem Regrouped.roundtrip {middle : List ℕ} {padding : ℕ}
    (h : Regrouped w v middle output bits waiting) (hbits : bits < v) (hpadding : padding < v)
    (hinput : ∀ d ∈ input, d < 2 ^ v) (hlength : w * middle.length = v * input.length + padding)
    (hvalue : value (2 ^ w) middle = value (2 ^ v) input * 2 ^ padding) : output = input := by
  have hv : 0 < v := Nat.zero_lt_of_lt hbits
  have htotal : v * output.length + bits = v * input.length + padding := h.total.symm.trans hlength
  have hlen : output.length = input.length := by
    have hdiv := congrArg (· / v) htotal
    simpa only [Nat.mul_add_div hv, Nat.div_eq_of_lt hbits, Nat.div_eq_of_lt hpadding,
      add_zero] using hdiv
  have hpad : bits = padding := by
    rw [hlen] at htotal
    exact Nat.add_left_cancel htotal
  have hsame : value (2 ^ v) output = value (2 ^ v) input := by
    have hboth := h.same.symm.trans hvalue
    have hdiv := congrArg (· / 2 ^ bits) hboth
    rwa [mul_comm, Nat.mul_add_div (Nat.two_pow_pos _), Nat.div_eq_of_lt h.waiting_lt, add_zero,
      hpad, Nat.mul_div_cancel _ (Nat.two_pow_pos _)] at hdiv
  exact value_injective (Nat.one_lt_two_pow hv.ne') hlen h.digits hinput hsame

/-! ## Accumulators of a fixed width -/

variable {n : ℕ}

/-- The waiting bits move up, whatever stands above them and whatever is lost at the top. -/
theorem waiting_shiftLeft {x : BitVec n} (hx : x.toNat % 2 ^ bits = waiting) (hn : bits + v ≤ n) :
    (x <<< v).toNat % 2 ^ (bits + v) = waiting * 2 ^ v := by
  rw [BitVec.toNat_shiftLeft, Nat.mod_mod_of_dvd _ (pow_dvd_pow 2 hn), Nat.shiftLeft_eq, pow_add,
    Nat.mul_mod_mul_right, hx]

theorem waiting_shift {x : BitVec n} (hx : x.toNat % 2 ^ bits = waiting) (hn : bits + v ≤ n)
    (hd : d < 2 ^ v) :
    ((x <<< v) ||| BitVec.ofNat n d).toNat % 2 ^ (bits + v) = waiting * 2 ^ v + d := by
  have hdw : d < 2 ^ (bits + v) := hd.trans_le (Nat.pow_le_pow_right Nat.two_pos (by omega))
  have hdn : d < 2 ^ n := hdw.trans_le (Nat.pow_le_pow_right Nat.two_pos hn)
  rw [BitVec.toNat_or, BitVec.toNat_ofNat, Nat.mod_eq_of_lt hdn, Nat.or_mod_two_pow,
    waiting_shiftLeft hx hn, Nat.mod_eq_of_lt hdw, mul_comm, ← Nat.two_pow_add_eq_or_of_lt hd]

theorem waiting_emit {x : BitVec n} (hx : x.toNat % 2 ^ bits = waiting) (hbits : w ≤ bits) :
    (x >>> (bits - w)).toNat % 2 ^ w = waiting / 2 ^ (bits - w) := by
  rw [BitVec.toNat_ushiftRight, Nat.shiftRight_eq_div_pow, ← Nat.mod_mul_right_div_self, ← pow_add,
    Nat.sub_add_cancel hbits, hx]

theorem waiting_rest {x : BitVec n} (hx : x.toNat % 2 ^ bits = waiting) :
    x.toNat % 2 ^ (bits - w) = waiting % 2 ^ (bits - w) := by
  rw [← hx, Nat.mod_mod_of_dvd _ (pow_dvd_pow 2 (Nat.sub_le bits w))]

end Regroup
