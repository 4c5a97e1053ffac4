import Mathlib.Algebra.Order.BigOperators.Group.List
import Mathlib.Data.Rat.Floor
import Mathlib.Tactic.FieldSimp
import Mathlib.Tactic.Linarith
import StellarDonations.Control.Except
import StellarDonations.Errors
import StellarDonations.Numeric.Positional
import StellarDonations.Text.FixedWidth
import StellarDonations.Text.JsNumber

/-!
# Amounts of money

`utils/money.js`: amounts are kept in stroops, of which an XLM has ten million, and written as
decimal numbers of XLM; fees are basis points of an amount. `toStroops` works on the text of a
number: it pads or cuts the fraction to seven digits, which rounds down. `calcFee` divides integers
towards zero, and a fee below the minimum, which is zero unless it is given, is raised to it.
-/

namespace StellarDonations.Money

open JsString Positional

def stroopsPerXlm : ℕ := 10 ^ 7

def bpsDivisor : ℕ := 10 ^ 4

/-! ## Stroops and XLM -/

/-- `BigInt(s)` of a text of decimal digits. -/
def bigInt (s : List Char) : ℕ := value 10 (s.map fun c ↦ c.toNat - '0'.toNat)

def unsigned : List Char → List Char
  | '-' :: rest => rest
  | s => s

/-- `/^-?\d+(\.\d+)?$/.test(str)`. -/
def isAmount (str : List Char) : Bool :=
  let s := unsigned str
  s.takeWhile Char.isDigit ≠ [] &&
    match s.dropWhile Char.isDigit with
    | [] => true
    | c :: frac => c = '.' && frac ≠ [] && frac.all Char.isDigit

/-- `frac.padEnd(7, '0').slice(0, 7)`. -/
def padFraction (frac : List Char) : List Char :=
  (frac ++ List.replicate (7 - frac.length) '0').take 7

/-- `toStroops`, of the text of the amount. Digits are never negative, so the last check of the
source has nothing to refuse. -/
def toStroops (xlm : String) : Except AppError ℕ :=
  let str := (trim xlm).toList
  if !isAmount str then .error (.plain ("Invalid XLM amount: " ++ xlm))
  else if str.head? = some '-' then .error (.plain ("Amount must be non-negative: " ++ xlm))
  else
    let whole := str.takeWhile (· ≠ '.')
    let frac := (str.dropWhile (· ≠ '.')).drop 1
    .ok (bigInt whole * stroopsPerXlm + bigInt (padFraction frac))

def fromStroops (stroops : ℤ) : String :=
  (if stroops < 0 then "-" else "") ++ toString (stroops.natAbs / stroopsPerXlm) ++ "." ++
    Calendar.padded 7 (stroops.natAbs % stroopsPerXlm)

/-! ## Fees -/

structure FeeOptions where
  minFeeStroops : Option ℤ
  maxFeeStroops : Option ℤ
  surgeMultiplierBps : Option ℤ

def unclamped (surgeMultiplierBps : Option ℤ) : FeeOptions := ⟨none, none, surgeMultiplierBps⟩

/-- The rate with the surge multiplier. -/
def effectiveBps (bps : ℤ) (opts : FeeOptions) : ℤ :=
  match opts.surgeMultiplierBps with
  | none => bps
  | some surgeBps => (bps * surgeBps).tdiv bpsDivisor

def calcFee (amountStroops bps : ℤ) (opts : FeeOptions) : Except AppError ℤ :=
  if bps < 0 then .error (.plain "calcFee: bps must be non-negative")
  else
    let share := (amountStroops * effectiveBps bps opts).tdiv bpsDivisor
    let fee := max share (opts.minFeeStroops.getD 0)
    .ok (opts.maxFeeStroops.elim fee (min fee))

/-! ## What the texts say -/

def Digits (s : List Char) : Prop := ∀ c ∈ s, c.isDigit = true

/-- A text of digits with a fraction, if there is one. -/
def written (whole frac : List Char) : List Char :=
  whole ++ if frac = [] then [] else '.' :: frac

section Text

variable {s whole frac : List Char}

theorem mem_written {c : Char} (hwhole : Digits whole) (hfrac : Digits frac)
    (hc : c ∈ written whole frac) : c.isDigit = true ∨ c = '.' := by
  rcases List.mem_append.mp hc with hc | hc
  · exact .inl (hwhole c hc)
  · split_ifs at hc
    · cases hc
    · rcases List.mem_cons.mp hc with rfl | hc
      · exact .inr rfl
      · exact .inl (hfrac c hc)

theorem takeWhile_written {p : Char → Bool} (hdigit : ∀ c, c.isDigit = true → p c = true)
    (hdot : p '.' = false) (hwhole : Digits whole) (frac : List Char) :
    (written whole frac).takeWhile p = whole ∧
      (written whole frac).dropWhile p = if frac = [] then [] else '.' :: frac := by
  have hpass : ∀ c ∈ whole, p c = true := fun c hc ↦ hdigit c (hwhole c hc)
  rw [written, List.takeWhile_append_of_pos hpass, List.dropWhile_append_of_pos hpass]
  split_ifs with hfrac <;> simp [hdot]

theorem digit_ne {c d : Char} (hd : d.isDigit = false) (hc : c.isDigit = true) : c ≠ d := by
  rintro rfl
  rw [hd] at hc
  cases hc

theorem isAmount_iff {str : List Char} : isAmount str = true ↔
    ∃ whole frac, whole ≠ [] ∧ Digits whole ∧ Digits frac ∧ unsigned str = written whole frac := by
  rw [isAmount]
  generalize unsigned str = s
  simp only [Bool.and_eq_true, decide_eq_true_eq]
  constructor
  · rintro ⟨hne, hrest⟩
    have hsplit := List.takeWhile_append_dropWhile (p := Char.isDigit) (l := s)
    have hwhole : Digits (s.takeWhile Char.isDigit) := fun c hc ↦ List.mem_takeWhile_imp hc
    cases hdrop : s.dropWhile Char.isDigit with
    | nil =>
      refine ⟨_, [], hne, hwhole, by simp [Digits], ?_⟩
      rw [hdrop] at hsplit
      exact hsplit.symm
    | cons c frac =>
      rw [hdrop] at hrest hsplit
      simp only [Bool.and_eq_true, decide_eq_true_eq] at hrest
      obtain ⟨⟨rfl, hfrac⟩, hall⟩ := hrest
      refine ⟨_, frac, hne, hwhole, List.all_eq_true.mp hall, ?_⟩
      rw [written, if_neg hfrac]
      exact hsplit.symm
  · rintro ⟨whole, frac, hne, hwhole, hfrac, rfl⟩
    obtain ⟨htake, hdrop⟩ := takeWhile_written (fun _ h ↦ h) (by decide) hwhole frac
    rw [htake, hdrop]
    refine ⟨hne, ?_⟩
    split_ifs with hnil
    · rfl
    · simp [hnil, List.all_eq_true.mpr hfrac]

theorem unsigned_of_head {str : List Char} (h : str.head? ≠ some '-') : unsigned str = str := by
  unfold unsigned
  split
  · exact absurd rfl h
  · rfl

theorem head_written (hne : whole ≠ []) (hwhole : Digits whole) (frac : List Char) :
    (written whole frac).head? ≠ some '-' := by
  obtain ⟨c, rest, rfl⟩ := List.exists_cons_of_ne_nil hne
  rw [written, List.cons_append, List.head?_cons]
  exact fun h ↦ digit_ne (by decide) (hwhole c List.mem_cons_self) (Option.some.inj h)

/-- **What `toStroops` accepts**, and what it makes of it. -/
theorem toStroops_eq_ok {xlm : String} {n : ℕ} : toStroops xlm = .ok n ↔
    ∃ whole frac, whole ≠ [] ∧ Digits whole ∧ Digits frac ∧
      (trim xlm).toList = written whole frac ∧
        n = bigInt whole * stroopsPerXlm + bigInt (padFraction frac) := by
  rw [toStroops]
  generalize (trim xlm).toList = str
  have hparts : ∀ whole frac, Digits whole → str = written whole frac →
      bigInt (str.takeWhile (· ≠ '.')) * stroopsPerXlm +
        bigInt (padFraction ((str.dropWhile (· ≠ '.')).drop 1)) =
          bigInt whole * stroopsPerXlm + bigInt (padFraction frac) := by
    rintro whole frac hwhole rfl
    obtain ⟨htake, hdrop⟩ := takeWhile_written (p := (· ≠ '.'))
      (fun c hc ↦ decide_eq_true (digit_ne (by decide) hc)) (by decide) hwhole frac
    rw [htake, hdrop]
    split_ifs with hnil
    · rw [hnil, List.drop_nil]
    · rw [List.drop_succ_cons, List.drop_zero]
  simp only [Except.guard_not_eq_ok, Except.ok.injEq, Bool.not_eq_true', Bool.not_eq_false]
  constructor
  · rintro ⟨hamount, hhead, rfl⟩
    obtain ⟨whole, frac, hne, hwhole, hfrac, hunsigned⟩ := isAmount_iff.mp hamount
    rw [unsigned_of_head hhead] at hunsigned
    exact ⟨whole, frac, hne, hwhole, hfrac, hunsigned, hparts whole frac hwhole hunsigned⟩
  · rintro ⟨whole, frac, hne, hwhole, hfrac, hstr, rfl⟩
    have hhead : str.head? ≠ some '-' := hstr ▸ head_written hne hwhole frac
    have hunsigned := (unsigned_of_head hhead).trans hstr
    exact ⟨isAmount_iff.mpr ⟨whole, frac, hne, hwhole, hfrac, hunsigned⟩, hhead,
      hparts whole frac hwhole hstr⟩

/-! ## Values -/

theorem bigInt_append (s t : List Char) :
    bigInt (s ++ t) = bigInt s * 10 ^ t.length + bigInt t := by
  rw [bigInt, List.map_append, value_append, List.length_map]
  rfl

theorem digitValue_lt (hs : Digits s) : ∀ d ∈ s.map (fun c ↦ c.toNat - '0'.toNat), d < 10 := by
  intro d hd
  obtain ⟨c, hc, rfl⟩ := List.mem_map.mp hd
  have hnine : c.toNat ≤ '9'.toNat := of_decide_eq_true (Bool.and_eq_true_iff.mp (hs c hc)).2
  have h9 : '9'.toNat = 57 := rfl
  have h0 : '0'.toNat = 48 := rfl
  omega

theorem bigInt_zeros (k : ℕ) : bigInt (List.replicate k '0') = 0 := by
  induction k with
  | zero => rfl
  | succ k ih => rw [List.replicate_succ', bigInt_append, ih]; rfl

theorem bigInt_padFraction (hfrac : Digits frac) :
    bigInt (padFraction frac) = bigInt frac * 10 ^ 7 / 10 ^ frac.length := by
  rw [padFraction]
  rcases Nat.le_total frac.length 7 with hle | hge
  · have hlength : (frac ++ List.replicate (7 - frac.length) '0').length = 7 := by
      rw [List.length_append, List.length_replicate, Nat.add_sub_cancel' hle]
    have hpow : 10 ^ 7 = 10 ^ (7 - frac.length) * 10 ^ frac.length := by
      rw [← pow_add, Nat.sub_add_cancel hle]
    rw [List.take_of_length_le hlength.le, bigInt_append, bigInt_zeros, List.length_replicate,
      add_zero, hpow, ← mul_assoc, Nat.mul_div_cancel _ (Nat.pos_of_neZero _)]
  · have hpow : 10 ^ frac.length = 10 ^ (frac.length - 7) * 10 ^ 7 := by
      rw [← pow_add, Nat.sub_add_cancel hge]
    have hdrop : ((frac.drop 7).map fun c ↦ c.toNat - '0'.toNat).length = frac.length - 7 := by
      rw [List.length_map, List.length_drop]
    rw [Nat.sub_eq_zero_of_le hge, List.replicate_zero, List.append_nil, hpow,
      Nat.mul_div_mul_right _ _ (Nat.pos_of_neZero _)]
    have htail : Digits (frac.drop 7) := fun c hc ↦ hfrac c (List.mem_of_mem_drop hc)
    have hleading := value_append_div (b := 10) (by decide)
      ((frac.take 7).map fun c ↦ c.toNat - '0'.toNat) (digitValue_lt htail)
    rw [← List.map_append, List.take_append_drop, hdrop] at hleading
    exact hleading.symm

theorem digits_eq (hne : s ≠ []) (hs : Digits s) : JsNumber.digits 10 s = some (bigInt s) := by
  have hall : s.all (fun c ↦ (hexDigit c).any (· < 10)) = true :=
    List.all_eq_true.mpr fun c hc ↦ JsNumber.hexDigit_any_of_isDigit (hs c hc)
  have hfold : s.foldl (fun n c ↦ 10 * n + (hexDigit c).getD 0) 0 = bigInt s := by
    rw [bigInt, ← foldl_eq_value, List.foldl_map]
    refine List.foldl_ext _ _ _ fun n c hc ↦ ?_
    rw [JsNumber.hexDigit_of_isDigit (hs c hc), Option.getD_some]
  rw [JsNumber.digits, if_pos ⟨hne, hall⟩, hfold]

theorem digitsOrNone_eq (hs : Digits s) : JsNumber.digitsOrNone s = some (bigInt s) := by
  rw [JsNumber.digitsOrNone]
  split_ifs with hnil
  · rw [hnil]; rfl
  · exact digits_eq hnil hs

theorem decimal_written (hne : whole ≠ []) (hwhole : Digits whole) (hfrac : Digits frac) :
    JsNumber.decimal (written whole frac) =
      some ((bigInt whole : ℚ) + bigInt frac / 10 ^ frac.length) := by
  have hplain : ∀ c ∈ written whole frac, (c ≠ 'e' && c ≠ 'E') = true := by
    intro c hc
    rcases mem_written hwhole hfrac hc with hdigit | rfl
    · simp [digit_ne (d := 'e') (by decide) hdigit, digit_ne (d := 'E') (by decide) hdigit]
    · decide
  obtain ⟨htake, hdrop⟩ := takeWhile_written (p := (· ≠ '.'))
    (fun c hc ↦ decide_eq_true (digit_ne (by decide) hc)) (by decide) hwhole frac
  have hrest : (if frac = [] then [] else '.' :: frac).drop 1 = frac := by
    split_ifs with hnil
    · rw [hnil, List.drop_nil]
    · rw [List.drop_succ_cons, List.drop_zero]
  rw [JsNumber.decimal]
  simp only [List.takeWhile_eq_self_iff.mpr hplain, List.dropWhile_eq_nil_iff.mpr hplain, htake,
    hdrop, hrest, hne, false_and, if_false, digitsOrNone_eq hwhole, digitsOrNone_eq hfrac,
    JsNumber.exponent]
  simp

theorem ofString_written {xlm : String} (hne : whole ≠ []) (hwhole : Digits whole)
    (hfrac : Digits frac) (htext : (trim xlm).toList = written whole frac) :
    JsNumber.ofString xlm = some ((bigInt whole : ℚ) + bigInt frac / 10 ^ frac.length) := by
  have hmark : ∀ c d rest, written whole frac = c :: d :: rest → d.isDigit = true ∨ d = '.' := by
    intro c d rest heq
    refine mem_written hwhole hfrac ?_
    rw [heq]
    exact List.mem_cons_of_mem _ List.mem_cons_self
  obtain ⟨c, rest, hcons⟩ := List.exists_cons_of_ne_nil hne
  have hfirst : written whole frac = c :: (rest ++ if frac = [] then [] else '.' :: frac) := by
    rw [written, hcons, List.cons_append]
  have hsigned : JsNumber.signed JsNumber.decimal (written whole frac) =
      JsNumber.decimal (written whole frac) := by
    rw [hfirst]
    exact JsNumber.signed_of_isDigit (hwhole c (hcons ▸ List.mem_cons_self))
  unfold JsNumber.ofString
  rw [htext]
  split
  · next heq =>
    rw [hfirst] at heq
    cases heq
  all_goals first
    | next heq => exact absurd (hmark _ _ _ heq) (by decide)
    | rw [hsigned, decimal_written hne hwhole hfrac]

end Text

/-- **Stroops are rounded down.** -/
theorem toStroops_eq_floor {xlm : String} {n : ℕ} (h : toStroops xlm = .ok n) :
    ∃ x, JsNumber.ofString xlm = some x ∧ (n : ℤ) = ⌊x * 10 ^ 7⌋ := by
  obtain ⟨whole, frac, hne, hwhole, hfrac, htext, rfl⟩ := toStroops_eq_ok.mp h
  refine ⟨_, ofString_written hne hwhole hfrac htext, ?_⟩
  have hscale : ((bigInt whole : ℚ) + bigInt frac / 10 ^ frac.length) * 10 ^ 7 =
      ((bigInt whole * stroopsPerXlm : ℕ) : ℚ) +
        ((bigInt frac * 10 ^ 7 : ℕ) : ℚ) / ((10 ^ frac.length : ℕ) : ℚ) := by
    rw [stroopsPerXlm]
    push_cast
    ring
  rw [hscale, Int.floor_natCast_add, Rat.floor_natCast_div_natCast, bigInt_padFraction hfrac]
  push_cast
  rfl

/-! ## Writing stroops -/

theorem bigInt_eq_ofDigitChars (s : List Char) : bigInt s = Nat.ofDigitChars 10 s 0 := by
  rw [bigInt, ← foldl_eq_value, List.foldl_map]
  rfl

theorem bigInt_toDigits (n : ℕ) : bigInt (Nat.toDigits 10 n) = n := by
  rw [bigInt_eq_ofDigitChars, Nat.ofDigitChars_ten_toDigits]

theorem digits_fixedWidth (w n : ℕ) : Digits (FixedWidth.digits w n) := by
  induction w generalizing n with
  | zero => simp [Digits, FixedWidth.digits]
  | succ w ih =>
    intro c hc
    rcases List.mem_append.mp hc with hc | hc
    · exact ih (n / 10) c hc
    · obtain rfl := List.mem_singleton.mp hc
      rw [Nat.isDigit_digitChar]
      exact decide_eq_true (Nat.mod_lt n Nat.succ_pos')

theorem bigInt_fixedWidth (w n : ℕ) : bigInt (FixedWidth.digits w n) = n % 10 ^ w := by
  have hdigit : ∀ d < 10, bigInt [Nat.digitChar d] = d := by decide
  induction w generalizing n with
  | zero => rw [pow_zero, Nat.mod_one]; rfl
  | succ w ih =>
    rw [FixedWidth.digits, bigInt_append, ih, hdigit _ (Nat.mod_lt n Nat.succ_pos'),
      List.length_singleton, pow_one, pow_succ' 10, Nat.mod_mul]
    ring

/-- The text of an amount that is not negative. -/
theorem toList_fromStroops (n : ℕ) : (fromStroops n).toList =
    written (Nat.toDigits 10 (n / stroopsPerXlm)) (FixedWidth.digits 7 (n % stroopsPerXlm)) := by
  have hfrac : FixedWidth.digits 7 (n % stroopsPerXlm) ≠ [] := by
    rw [← List.length_pos_iff, FixedWidth.length_digits]
    exact Nat.succ_pos 6
  have hpadded : (Calendar.padded 7 (n % stroopsPerXlm)).toList =
      FixedWidth.digits 7 (n % stroopsPerXlm) :=
    FixedWidth.toList_padded (by decide) (Nat.mod_lt n (by decide))
  have hwhole : (toString (n / stroopsPerXlm)).toList = Nat.toDigits 10 (n / stroopsPerXlm) :=
    Nat.toList_repr
  rw [fromStroops, if_neg (Int.not_lt.mpr (Int.natCast_nonneg n)), Int.natAbs_natCast,
    String.toList_append, String.toList_append, String.toList_append, hpadded, hwhole, written,
    if_neg hfrac]
  simp

theorem trim_of_plain {s : String} (h : ∀ c ∈ s.toList, isWhiteSpace c = false) : trim s = s := by
  have hdrop : ∀ l : List Char, (∀ c ∈ l, isWhiteSpace c = false) →
      l.dropWhile isWhiteSpace = l := by
    intro l hl
    cases l with
    | nil => rfl
    | cons c l => exact List.dropWhile_cons_of_neg (by simp [hl c List.mem_cons_self])
  rw [trim, hdrop _ h, hdrop _ fun c hc ↦ h c (List.mem_reverse.mp hc), List.reverse_reverse,
    String.ofList_toList]

/-- **Stroops are written and read back.** -/
theorem toStroops_fromStroops (n : ℕ) : toStroops (fromStroops n) = .ok n := by
  have hwhole : Digits (Nat.toDigits 10 (n / stroopsPerXlm)) :=
    fun c hc ↦ Nat.isDigit_of_mem_toDigits (by decide) (by decide) hc
  have hfrac := digits_fixedWidth 7 (n % stroopsPerXlm)
  have hplain : ∀ c ∈ (fromStroops n).toList, isWhiteSpace c = false := by
    intro c hc
    rw [toList_fromStroops] at hc
    rcases mem_written hwhole hfrac hc with hdigit | rfl
    · exact JsNumber.not_isWhiteSpace_of_isDigit hdigit
    · decide
  refine toStroops_eq_ok.mpr ⟨_, _, Nat.toDigits_ne_nil, hwhole, hfrac, ?_, ?_⟩
  · rw [trim_of_plain hplain, toList_fromStroops]
  · have hmod : n % stroopsPerXlm % 10 ^ 7 = n % stroopsPerXlm := Nat.mod_mod n _
    rw [bigInt_padFraction hfrac, bigInt_toDigits, FixedWidth.length_digits,
      Nat.mul_div_cancel _ (Nat.pos_of_neZero _), bigInt_fixedWidth, hmod, Nat.div_add_mod']

/-! ## Fees are floors -/

section Fees

variable {amount bps rate : ℤ} {surgeMultiplierBps : Option ℤ}

/-- The fee at a rate that has no bounds but zero. -/
def share (rate amount : ℤ) : ℤ := max (amount * rate / bpsDivisor) 0

/-- The quotient, which is rounded towards zero, is the floor unless it is negative; then the fee
is raised to zero. -/
theorem max_tdiv_zero (a : ℤ) : max (a.tdiv bpsDivisor) 0 = max (a / bpsDivisor) 0 := by
  rcases Int.le_total 0 a with ha | ha
  · rw [Int.tdiv_eq_ediv_of_nonneg ha]
  · have htdiv : a.tdiv bpsDivisor ≤ 0 := by
      rw [← Int.neg_neg a, Int.neg_tdiv]
      exact Int.neg_nonpos_of_nonneg (Int.tdiv_nonneg (Int.neg_nonneg_of_nonpos ha) (by decide))
    have hediv : a / bpsDivisor ≤ 0 := Int.ediv_nonpos_of_nonpos_of_neg ha (by decide)
    rw [max_eq_right htdiv, max_eq_right hediv]

theorem calcFee_eq_share (hbps : 0 ≤ bps) : calcFee amount bps (unclamped surgeMultiplierBps) =
    .ok (share (effectiveBps bps (unclamped surgeMultiplierBps)) amount) := by
  rw [calcFee, if_neg (Int.not_lt.mpr hbps), share, ← max_tdiv_zero]
  rfl

theorem share_eq_floor (rate amount : ℤ) :
    share rate amount = max ⌊(amount * rate : ℚ) / 10000⌋ 0 := by
  have hfloor := Rat.floor_intCast_div_natCast (amount * rate) bpsDivisor
  rw [share, ← hfloor, bpsDivisor]
  push_cast
  norm_num

theorem share_of_nonneg (hrate : 0 ≤ rate) (hamount : 0 ≤ amount) :
    share rate amount = amount * rate / bpsDivisor :=
  max_eq_left (Int.ediv_nonneg (Int.mul_nonneg hamount hrate) (by decide))

theorem share_of_neg (hrate : rate < 0) (hamount : 0 ≤ amount) : share rate amount = 0 :=
  max_eq_right (Int.ediv_nonpos_of_nonpos_of_neg
    (Int.mul_nonpos_of_nonneg_of_nonpos hamount hrate.le) (by decide))

theorem share_mono {a b : ℤ} (ha : 0 ≤ a) (hab : a ≤ b) : share rate a ≤ share rate b := by
  rcases lt_or_ge rate 0 with hrate | hrate
  · rw [share_of_neg hrate ha, share_of_neg hrate (ha.trans hab)]
  · rw [share_of_nonneg hrate ha, share_of_nonneg hrate (ha.trans hab)]
    exact Int.ediv_le_ediv (by decide) (Int.mul_le_mul_of_nonneg_right hab hrate)

theorem share_add_le {a b : ℤ} (ha : 0 ≤ a) (hb : 0 ≤ b) :
    share rate a + share rate b ≤ share rate (a + b) := by
  rcases lt_or_ge rate 0 with hrate | hrate
  · rw [share_of_neg hrate ha, share_of_neg hrate hb, share_of_neg hrate (Int.add_nonneg ha hb)]
    rfl
  · rw [share_of_nonneg hrate ha, share_of_nonneg hrate hb,
      share_of_nonneg hrate (Int.add_nonneg ha hb)]
    refine Int.le_ediv_of_mul_le (by decide) ?_
    have hleft := Int.ediv_mul_le (a * rate) (b := bpsDivisor) (by decide)
    have hright := Int.ediv_mul_le (b * rate) (b := bpsDivisor) (by decide)
    calc (a * rate / bpsDivisor + b * rate / bpsDivisor) * bpsDivisor
        = a * rate / bpsDivisor * bpsDivisor + b * rate / bpsDivisor * bpsDivisor := Int.add_mul ..
      _ ≤ a * rate + b * rate := Int.add_le_add hleft hright
      _ = (a + b) * rate := (Int.add_mul ..).symm

/-- Splitting an amount does not raise the fee. -/
theorem sum_share_le {parts : List ℤ} (hparts : ∀ a ∈ parts, 0 ≤ a) :
    (parts.map (share rate)).sum ≤ share rate parts.sum := by
  induction parts with
  | nil => exact le_max_right _ _
  | cons a parts ih =>
    have ha := hparts a List.mem_cons_self
    have hrest : ∀ b ∈ parts, 0 ≤ b := fun b hb ↦ hparts b (List.mem_cons_of_mem _ hb)
    rw [List.map_cons, List.sum_cons, List.sum_cons]
    calc share rate a + (parts.map (share rate)).sum
        ≤ share rate a + share rate parts.sum := Int.add_le_add_left (ih hrest) _
      _ ≤ share rate (a + parts.sum) := share_add_le ha (List.sum_nonneg hrest)

end Fees

/-- **Money.** Stroops are the floor of what the text says, they are read back as they are written,
and more is never fewer stroops. A fee without bounds is the floor of its share, or nothing at a
negative rate; it does not fall when the amount rises, nor rise when the amount is split. -/
theorem money_laws :
    (∀ xlm n, toStroops xlm = .ok n →
      ∃ x, JsNumber.ofString xlm = some x ∧ (n : ℤ) = ⌊x * 10 ^ 7⌋) ∧
    (∀ n : ℕ, toStroops (fromStroops n) = .ok n) ∧
    (∀ xlm xlm' m n x y, toStroops xlm = .ok m → toStroops xlm' = .ok n →
      JsNumber.ofString xlm = some x → JsNumber.ofString xlm' = some y → x ≤ y → m ≤ n) ∧
    (∀ amount bps surge, 0 < amount → 0 ≤ bps → calcFee amount bps (unclamped surge) =
      .ok (max ⌊(amount * effectiveBps bps (unclamped surge) : ℚ) / 10000⌋ 0)) ∧
    (∀ amount amount' bps surge fee fee', 0 < amount → 0 ≤ bps → amount ≤ amount' →
      calcFee amount bps (unclamped surge) = .ok fee →
      calcFee amount' bps (unclamped surge) = .ok fee' → fee ≤ fee') ∧
    ∀ (parts fees : List ℤ) bps surge fee, (∀ a ∈ parts, 0 < a) → 0 ≤ bps →
      parts.map (calcFee · bps (unclamped surge)) = fees.map .ok →
      calcFee parts.sum bps (unclamped surge) = .ok fee → fees.sum ≤ fee := by
  refine ⟨fun xlm n ↦ toStroops_eq_floor, toStroops_fromStroops, ?_, ?_, ?_, ?_⟩
  · intro xlm xlm' m n x y hm hn hx hy hxy
    obtain ⟨x', hx', hmx⟩ := toStroops_eq_floor hm
    obtain ⟨y', hy', hny⟩ := toStroops_eq_floor hn
    obtain rfl : x = x' := Option.some.inj (hx.symm.trans hx')
    obtain rfl : y = y' := Option.some.inj (hy.symm.trans hy')
    have hle : (m : ℤ) ≤ n := by
      rw [hmx, hny]
      exact Int.floor_le_floor (mul_le_mul_of_nonneg_right hxy (by norm_num))
    exact_mod_cast hle
  · intro amount bps surge _ hbps
    rw [calcFee_eq_share hbps, share_eq_floor]
  · intro amount amount' bps surge fee fee' hamount hbps hle hfee hfee'
    rw [calcFee_eq_share hbps, Except.ok.injEq] at hfee hfee'
    rw [← hfee, ← hfee']
    exact share_mono hamount.le hle
  · intro parts fees bps surge fee hparts hbps hfees hfee
    have hshares : parts.map (share (effectiveBps bps (unclamped surge))) = fees := by
      have hok : Function.Injective (Except.ok : ℤ → Except AppError ℤ) := fun _ _ ↦ Except.ok.inj
      refine hok.list_map ?_
      rw [← hfees, List.map_map]
      exact List.map_congr_left fun a _ ↦ (calcFee_eq_share hbps).symm
    rw [calcFee_eq_share hbps, Except.ok.injEq] at hfee
    rw [← hshares, ← hfee]
    exact sum_share_le fun a ha ↦ (hparts a ha).le

/-- A negative multiplier makes a negative rate, at which the fee is not the floor. -/
theorem negative_surge : effectiveBps 1 (unclamped (some (-10000))) = -1 ∧
    calcFee 1 1 (unclamped (some (-10000))) = .ok 0 ∧
      calcFee 1 1 (unclamped (some (-10000))) ≠
        .ok ⌊((1 : ℤ) * effectiveBps 1 (unclamped (some (-10000))) : ℚ) / 10000⌋ := by
  have hrate : effectiveBps 1 (unclamped (some (-10000))) = -1 := by decide
  have hfee : calcFee 1 1 (unclamped (some (-10000))) = .ok 0 := by rfl
  refine ⟨hrate, hfee, ?_⟩
  rw [hfee, hrate]
  norm_num

end StellarDonations.Money
