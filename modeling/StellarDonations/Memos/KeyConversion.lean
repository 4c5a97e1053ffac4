import Mathlib.Data.Nat.Digits.Lemmas
import Mathlib.FieldTheory.Finite.Basic
import Mathlib.Tactic.NormNum.Prime
import StellarDonations.Numeric.Primality

/-!
# From signing keys to encryption keys

The field arithmetic of `utils/memoEncryption.js`. An Ed25519 key is the `y` of a point on the
Edwards curve, in 32 bytes from the least significant one, with the sign of `x` in the top bit; the
X25519 key of the same point is `u = (1 + y) / (1 - y)`. Division is multiplication by a power that
`modInverse` computes by squaring. The `y` of a key need not be reduced, and the formula has no
value at `y = 1`.
-/

namespace StellarDonations.KeyConversion

open Primality

/-! ## The code -/

def P : ℕ := 2 ^ 255 - 19

def modInverseLoop (result base : ℤ) (e : ℕ) : ℤ :=
  if 0 < e then
    modInverseLoop (if e % 2 = 1 then (result * base).tmod P else result) ((base * base).tmod P)
      (e / 2)
  else result
termination_by e

def modInverse (a : ℤ) : ℤ := modInverseLoop 1 ((a.tmod P + P).tmod P) (P - 2)

def bufToBigIntLE (buf : List UInt8) : ℕ := buf.foldr (fun b n ↦ (n <<< 8) ||| b.toNat) 0

/-- The loop of `bigIntToBufLE`, for the bytes that are left. -/
def writeBytes : ℕ → ℕ → List UInt8
  | 0, _ => []
  | k + 1, v => UInt8.ofNat (v &&& 0xff) :: writeBytes k (v >>> 8)

def bigIntToBufLE (n : ℕ) : List UInt8 := writeBytes 32 n

def ed25519PubToX25519 (ed25519PubBytes : List UInt8) : List UInt8 :=
  let yBytes := ed25519PubBytes.modify 31 (· &&& 0x7f)
  let y : ℤ := bufToBigIntLE yBytes
  let num := (1 + y).tmod P
  let den := ((1 - y).tmod P + P).tmod P
  bigIntToBufLE ((num * modInverse den).tmod P).toNat

/-! ## What it is for -/

/-- The number that bytes stand for, the least significant first. -/
def number (buf : List UInt8) : ℕ := Nat.ofDigits 256 (buf.map UInt8.toNat)

/-- The coordinate in a key: all bits but the top one. -/
def yCoordinate (key : List UInt8) : ℕ := number key % 2 ^ 255

/-- `buf` is a number in 32 bytes. -/
def Encodes (buf : List UInt8) (n : ℕ) : Prop := buf.length = 32 ∧ number buf = n

/-- `u` is the other coordinate of the point with the coordinate `y`. -/
def IsMontgomery (y u : ℕ) : Prop := (u * (1 - y) : ℤ) ≡ 1 + y [ZMOD P]

/-! ## Bytes -/

theorem number_cons (b : UInt8) (buf : List UInt8) :
    number (b :: buf) = b.toNat + 256 * number buf := Nat.ofDigits_cons

theorem number_append (l m : List UInt8) :
    number (l ++ m) = number l + 256 ^ l.length * number m := by
  rw [number, List.map_append, Nat.ofDigits_append, List.length_map, number, number]

theorem number_lt (buf : List UInt8) : number buf < 256 ^ buf.length := by
  have hlength : (buf.map UInt8.toNat).length = buf.length := List.length_map _
  rw [← hlength]
  refine Nat.ofDigits_lt_base_pow_length (by decide) fun d hd ↦ ?_
  obtain ⟨b, -, rfl⟩ := List.mem_map.mp hd
  exact b.toNat_lt

theorem bufToBigIntLE_eq (buf : List UInt8) : bufToBigIntLE buf = number buf := by
  induction buf with
  | nil => rfl
  | cons b buf ih =>
    have hstep : bufToBigIntLE (b :: buf) = (bufToBigIntLE buf <<< 8) ||| b.toNat := rfl
    rw [hstep, ih, ← Nat.shiftLeft_add_eq_or_of_lt b.toNat_lt, Nat.shiftLeft_eq, number_cons]
    ring

theorem length_writeBytes (k v : ℕ) : (writeBytes k v).length = k := by
  induction k generalizing v with
  | zero => rfl
  | succ k ih => rw [writeBytes, List.length_cons, ih]

theorem number_writeBytes (k v : ℕ) : number (writeBytes k v) = v % 256 ^ k := by
  induction k generalizing v with
  | zero => rw [pow_zero, Nat.mod_one]; rfl
  | succ k ih =>
    have hbyte : v &&& 0xff = v % 256 := Nat.and_two_pow_sub_one_eq_mod v 8
    rw [writeBytes, number_cons, ih, hbyte, UInt8.toNat_ofNat', Nat.mod_mod,
      Nat.shiftRight_eq_div_pow, pow_succ' 256, Nat.mod_mul]

theorem encodes_bigIntToBufLE {n : ℕ} (hn : n < 2 ^ 256) : Encodes (bigIntToBufLE n) n := by
  refine ⟨length_writeBytes 32 n, ?_⟩
  rw [bigIntToBufLE, number_writeBytes]
  exact Nat.mod_eq_of_lt hn

theorem number_clear {key : List UInt8} (hkey : key.length = 32) :
    number (key.modify 31 (· &&& 0x7f)) = yCoordinate key := by
  obtain rfl | ⟨l, b, rfl⟩ := key.eq_nil_or_concat
  · cases hkey
  · have hl : l.length = 31 := by simpa using hkey
    have hmodify : (l ++ [b]).modify 31 (· &&& 0x7f) = l ++ [b &&& 0x7f] := by
      rw [List.modify_eq_take_cons_drop (by simp [hl])]
      simp [hl]
    have hmask : (b &&& 0x7f).toNat = b.toNat % 2 ^ 7 := by
      rw [UInt8.toNat_and]
      exact Nat.and_two_pow_sub_one_eq_mod b.toNat 7
    have hlt : number l < 256 ^ 31 := hl ▸ number_lt l
    have hsplit : 2 ^ 255 = 256 ^ 31 * 2 ^ 7 := by norm_num
    rw [List.concat_eq_append, hmodify, yCoordinate, hsplit, number_append, number_append, hl,
      Nat.mod_mul, Nat.add_mul_mod_self_left, Nat.mod_eq_of_lt hlt,
      Nat.add_mul_div_left _ _ (by positivity), Nat.div_eq_of_lt hlt, Nat.zero_add]
    simp [number, hmask]

/-! ## The prime

The certificate of the prime: the large factors of a number less one come before it. -/

theorem certificates : certified 2773320623 5 [2, 2437, 569003] ∧
    certified 72106336199 7 [2, 13, 2773320623] ∧
    certified 1919519569386763 2 [2, 3, 7, 19, 47, 47, 127, 8574133] ∧
    certified 31757755568855353 10 [2, 2, 2, 3, 31, 107, 223, 4153, 430751] ∧
    certified 75445702479781427272750846543864801 7 ([2, 2, 2, 2, 2, 3, 3, 5, 5, 75707] ++
      [72106336199, 1919519569386763]) ∧
    certified 74058212732561358302231226437062788676166966415465897661863160754340907 2
      ([2, 3, 353, 57467, 132049, 1923133] ++
        [31757755568855353, 75445702479781427272750846543864801]) ∧
    certified P 2 ([2, 2, 3, 65147] ++
      [74058212732561358302231226437062788676166966415465897661863160754340907]) := by
  decide +kernel

theorem prime_2773320623 : Nat.Prime 2773320623 :=
  prime_of_certified _ _ certificates.1 (by norm_num)

theorem prime_72106336199 : Nat.Prime 72106336199 := by
  refine prime_of_certified _ _ certificates.2.1 ?_
  simp only [List.forall_mem_cons]
  exact ⟨by norm_num, by norm_num, prime_2773320623, List.forall_mem_nil _⟩

theorem prime_1919519569386763 : Nat.Prime 1919519569386763 :=
  prime_of_certified _ _ certificates.2.2.1 (by norm_num)

theorem prime_31757755568855353 : Nat.Prime 31757755568855353 :=
  prime_of_certified _ _ certificates.2.2.2.1 (by norm_num)

theorem prime_75445702479781427272750846543864801 :
    Nat.Prime 75445702479781427272750846543864801 := by
  refine prime_of_certified _ _ certificates.2.2.2.2.1 ?_
  refine List.forall_mem_append.mpr ⟨by norm_num, ?_⟩
  simp only [List.forall_mem_cons]
  exact ⟨prime_72106336199, prime_1919519569386763, List.forall_mem_nil _⟩

theorem prime_factor :
    Nat.Prime 74058212732561358302231226437062788676166966415465897661863160754340907 := by
  refine prime_of_certified _ _ certificates.2.2.2.2.2.1 ?_
  refine List.forall_mem_append.mpr ⟨by norm_num, ?_⟩
  simp only [List.forall_mem_cons]
  exact ⟨prime_31757755568855353, prime_75445702479781427272750846543864801,
    List.forall_mem_nil _⟩

theorem prime_P : Nat.Prime P := by
  refine prime_of_certified _ _ certificates.2.2.2.2.2.2 ?_
  refine List.forall_mem_append.mpr ⟨by norm_num, ?_⟩
  simp only [List.forall_mem_cons]
  exact ⟨prime_factor, List.forall_mem_nil _⟩

instance fact_prime_P : Fact P.Prime := ⟨prime_P⟩

/-! ## The field -/

theorem pos_P : (0 : ℤ) < P := Int.natCast_pos.mpr prime_P.pos

theorem cast_tmod (x : ℤ) : ((x.tmod P : ℤ) : ZMod P) = x := by
  rw [Int.tmod_def, Int.cast_sub, Int.cast_mul, Int.cast_natCast, CharP.cast_eq_zero, zero_mul,
    sub_zero]

theorem tmod_add_tmod (x : ℤ) :
    0 ≤ (x.tmod P + P).tmod P ∧ (((x.tmod P + P).tmod P : ℤ) : ZMod P) = x := by
  constructor
  · have hlow := Int.lt_tmod_of_pos x pos_P
    exact Int.tmod_nonneg _ (by omega)
  · rw [cast_tmod, Int.cast_add, cast_tmod, Int.cast_natCast, CharP.cast_eq_zero, add_zero]

/-- **The loop.** It multiplies the result by the power of the base. -/
theorem modInverseLoop_spec (result base : ℤ) (e : ℕ) (hresult : 0 ≤ result) (hbase : 0 ≤ base) :
    0 ≤ modInverseLoop result base e ∧
      ((modInverseLoop result base e : ℤ) : ZMod P) = result * (base : ZMod P) ^ e := by
  fun_induction modInverseLoop result base e with
  | case1 result base e he ih =>
    have hproduct : 0 ≤ (result * base).tmod P := Int.tmod_nonneg _ (mul_nonneg hresult hbase)
    have hsquare : 0 ≤ (base * base).tmod P := Int.tmod_nonneg _ (mul_self_nonneg base)
    have hpower : (base * base : ZMod P) ^ (e / 2) = (base : ZMod P) ^ (2 * (e / 2)) := by
      rw [pow_mul, sq]
    have hcast : (((base * base).tmod P : ℤ) : ZMod P) = base * base := by
      rw [cast_tmod, Int.cast_mul]
    by_cases hodd : e % 2 = 1
    · rw [dif_pos hodd] at ih
      rw [if_pos hodd]
      obtain ⟨hnonneg, hloop⟩ := ih hproduct hsquare
      refine ⟨hnonneg, ?_⟩
      rw [hloop, hcast, hpower, cast_tmod, Int.cast_mul, mul_assoc, ← pow_succ', ← hodd,
        Nat.div_add_mod]
    · rw [dif_neg hodd] at ih
      rw [if_neg hodd]
      obtain ⟨hnonneg, hloop⟩ := ih hresult hsquare
      refine ⟨hnonneg, ?_⟩
      rw [hloop, hcast, hpower, Nat.mul_div_cancel' (Nat.dvd_of_mod_eq_zero (by omega))]
  | case2 result base e he =>
    obtain rfl : e = 0 := Nat.eq_zero_of_not_pos he
    exact ⟨hresult, by rw [pow_zero, mul_one]⟩

/-- **Fermat.** The power is the inverse. -/
theorem modInverse_spec {a : ℤ} (ha : (a : ZMod P) ≠ 0) :
    0 ≤ modInverse a ∧ ((modInverse a : ℤ) : ZMod P) * a = 1 := by
  obtain ⟨hnonneg, hcast⟩ := tmod_add_tmod a
  obtain ⟨hloop, hpow⟩ := modInverseLoop_spec 1 _ (P - 2) Int.one_nonneg hnonneg
  refine ⟨hloop, ?_⟩
  have hexp : P - 2 + 1 = P - 1 := by
    have htwo := prime_P.two_le
    omega
  rw [modInverse, hpow, hcast, Int.cast_one, one_mul, ← pow_succ, hexp,
    ZMod.pow_card_sub_one_eq_one ha]

theorem isMontgomery_iff {y u : ℕ} :
    IsMontgomery y u ↔ (u : ZMod P) * (1 - y) = 1 + y := by
  rw [IsMontgomery, ← ZMod.intCast_eq_intCast_iff]
  push_cast
  rfl

theorem IsMontgomery.unique {y u u' : ℕ} (hy : (1 - y : ZMod P) ≠ 0) (hu : u < P) (hu' : u' < P)
    (h : IsMontgomery y u) (h' : IsMontgomery y u') : u' = u := by
  have heq := (isMontgomery_iff.mp h').trans (isMontgomery_iff.mp h).symm
  have hcast := mul_right_cancel₀ hy heq
  rwa [ZMod.natCast_eq_natCast_iff', Nat.mod_eq_of_lt hu', Nat.mod_eq_of_lt hu] at hcast

theorem quotient_spec {y : ℕ} (hy : (1 - y : ZMod P) ≠ 0) :
    ∃ u : ℕ, u < P ∧ IsMontgomery y u ∧
      (((1 + y : ℤ).tmod P * modInverse (((1 - y : ℤ).tmod P + P).tmod P)).tmod P).toNat = u := by
  obtain ⟨-, hden⟩ := tmod_add_tmod (1 - y)
  rw [Int.cast_sub, Int.cast_one, Int.cast_natCast] at hden
  obtain ⟨hinvNonneg, hinv⟩ := modInverse_spec (hden.symm ▸ hy)
  rw [hden] at hinv
  generalize ((1 - y : ℤ).tmod P + P).tmod P = den at hinv hinvNonneg ⊢
  have hnum : 0 ≤ (1 + y : ℤ).tmod P := Int.tmod_nonneg _ (by omega)
  have hnonneg := Int.tmod_nonneg (P : ℤ) (mul_nonneg hnum hinvNonneg)
  have hlt := Int.tmod_lt_of_pos ((1 + y : ℤ).tmod P * modInverse den) pos_P
  have hcast : ((((1 + y : ℤ).tmod P * modInverse den).tmod P : ℤ) : ZMod P) =
      (1 + y) * modInverse den := by
    rw [cast_tmod, Int.cast_mul, cast_tmod]
    push_cast
    rfl
  generalize ((1 + y : ℤ).tmod P * modInverse den).tmod P = r at hnonneg hlt hcast ⊢
  refine ⟨r.toNat, by omega, ?_, rfl⟩
  have hr : ((r.toNat : ℕ) : ZMod P) = r := by rw [← Int.cast_natCast, Int.toNat_of_nonneg hnonneg]
  rw [isMontgomery_iff, hr, hcast, mul_assoc, hinv, mul_one]

/-- **Keys are converted.** The result is the number below `P` that solves the equation, in 32
bytes; numbers of 256 bits are written and read back. -/
theorem ed25519PubToX25519_correct (pub : List UInt8) (hlength : pub.length = 32)
    (hy : ¬yCoordinate pub ≡ 1 [MOD P]) (n : ℕ) (hn : n < 2 ^ 256) :
    (∃ u < P, Encodes (ed25519PubToX25519 pub) u ∧ IsMontgomery (yCoordinate pub) u ∧
        ∀ u' < P, IsMontgomery (yCoordinate pub) u' → u' = u) ∧
      bufToBigIntLE (bigIntToBufLE n) = n := by
  constructor
  · have hden : (1 - yCoordinate pub : ZMod P) ≠ 0 := by
      intro hzero
      refine hy ((ZMod.natCast_eq_natCast_iff _ 1 P).mp ?_)
      rw [Nat.cast_one]
      exact (sub_eq_zero.mp hzero).symm
    obtain ⟨u, hu, hmontgomery, hquotient⟩ := quotient_spec hden
    have hout : ed25519PubToX25519 pub = bigIntToBufLE u := by
      simp only [ed25519PubToX25519]
      rw [bufToBigIntLE_eq, number_clear hlength, hquotient]
    have hsmall : u < 2 ^ 256 := hu.trans (by decide +kernel)
    refine ⟨u, hu, ?_, hmontgomery, fun u' hu' h' ↦ hmontgomery.unique hden hu hu' h'⟩
    rw [hout]
    exact encodes_bigIntToBufLE hsmall
  · rw [bufToBigIntLE_eq]
    exact (encodes_bigIntToBufLE hn).2

/-- The key of the point with `y = 0` has `u = 1`. -/
theorem ed25519PubToX25519_zero :
    (∃ u < P, Encodes (ed25519PubToX25519 (List.replicate 32 0)) u ∧
        IsMontgomery (yCoordinate (List.replicate 32 0)) u ∧
        ∀ u' < P, IsMontgomery (yCoordinate (List.replicate 32 0)) u' → u' = u) ∧
      bufToBigIntLE (bigIntToBufLE 1) = 1 :=
  ed25519PubToX25519_correct (List.replicate 32 0) (by decide) (by decide +kernel) 1 (by decide)

end StellarDonations.KeyConversion
