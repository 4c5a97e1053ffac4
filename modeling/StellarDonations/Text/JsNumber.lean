import Mathlib.Data.List.TakeWhile
import Mathlib.Data.Rat.Defs
import StellarDonations.Text.JsString

/-!
# Numbers in text

`Number(s)` as far as the program uses it: the finite numbers, as exact rationals. Whatever is `NaN`
or infinite is nothing here.
-/

namespace JsNumber

open JsString

/-- The value of a list of digits; there is none of the empty list. -/
def digits (radix : ℕ) (s : List Char) : Option ℕ :=
  if s ≠ [] ∧ s.all (fun c ↦ (hexDigit c).any (· < radix)) then
    some (s.foldl (fun n c ↦ radix * n + (hexDigit c).getD 0) 0)
  else none

def digitsOrNone (s : List Char) : Option ℕ := if s = [] then some 0 else digits 10 s

def signed {α : Type} [Neg α] (f : List Char → Option α) : List Char → Option α
  | '-' :: rest => (f rest).map fun x ↦ -x
  | '+' :: rest => f rest
  | s => f s

def exponent : List Char → Option ℤ
  | [] => some 0
  | _ :: rest => signed (fun s ↦ (digits 10 s).map fun n ↦ (n : ℤ)) rest

def decimal (s : List Char) : Option ℚ := do
  let mantissa := s.takeWhile fun c ↦ c ≠ 'e' && c ≠ 'E'
  let whole := mantissa.takeWhile (· ≠ '.')
  let fraction := (mantissa.dropWhile (· ≠ '.')).drop 1
  if whole = [] ∧ fraction = [] then none
  let w ← digitsOrNone whole
  let f ← digitsOrNone fraction
  let e ← exponent (s.dropWhile fun c ↦ c ≠ 'e' && c ≠ 'E')
  return ((w : ℚ) + (f : ℚ) / 10 ^ fraction.length) * (10 : ℚ) ^ e

/-- `Number(s)`, when it is finite. -/
def ofString (s : String) : Option ℚ :=
  match (trim s).toList with
  | [] => some 0
  | '0' :: 'x' :: rest | '0' :: 'X' :: rest => (digits 16 rest).map fun n ↦ (n : ℚ)
  | '0' :: 'o' :: rest | '0' :: 'O' :: rest => (digits 8 rest).map fun n ↦ (n : ℚ)
  | '0' :: 'b' :: rest | '0' :: 'B' :: rest => (digits 2 rest).map fun n ↦ (n : ℚ)
  | text => signed decimal text

/-- The number at the start of a text, in the given radix. -/
def leading (radix : ℕ) (s : List Char) : Option ℕ :=
  digits radix (s.takeWhile fun c ↦ (hexDigit c).any (· < radix))

/-- The number at the start of a text, whose prefix may say that it is hexadecimal. -/
def leadingInt : List Char → Option ℤ
  | '0' :: 'x' :: rest | '0' :: 'X' :: rest => (leading 16 rest).map fun n ↦ (n : ℤ)
  | text => (leading 10 text).map fun n ↦ (n : ℤ)

/-- `parseInt(s)`; there is none where it is `NaN`. -/
def parseInt (s : String) : Option ℤ := signed leadingInt (s.toList.dropWhile isWhiteSpace)

def bigInt (s : String) : Option ℤ :=
  match (trim s).toList with
  | [] => some 0
  | '0' :: 'x' :: rest | '0' :: 'X' :: rest => (digits 16 rest).map fun n ↦ (n : ℤ)
  | '0' :: 'o' :: rest | '0' :: 'O' :: rest => (digits 8 rest).map fun n ↦ (n : ℤ)
  | '0' :: 'b' :: rest | '0' :: 'B' :: rest => (digits 2 rest).map fun n ↦ (n : ℤ)
  | text => signed (fun s ↦ (digits 10 s).map fun n ↦ (n : ℤ)) text

/-! ## Numbers written out -/

theorem hexDigit_of_isDigit {c : Char} (h : c.isDigit = true) :
    hexDigit c = some (c.toNat - '0'.toNat) := by
  have hrange : '0' ≤ c ∧ c ≤ '9' := by
    obtain ⟨hlow, hhigh⟩ := Bool.and_eq_true_iff.mp h
    exact ⟨of_decide_eq_true hlow, of_decide_eq_true hhigh⟩
  rw [hexDigit, if_pos hrange]

theorem hexDigit_any_of_isDigit {c : Char} (h : c.isDigit = true) :
    (hexDigit c).any (· < 10) = true := by
  have hhigh : c.toNat ≤ '9'.toNat := of_decide_eq_true (Bool.and_eq_true_iff.mp h).2
  have hnine : '9'.toNat = 57 := rfl
  have hzero : '0'.toNat = 48 := rfl
  rw [hexDigit_of_isDigit h, Option.any_some, decide_eq_true_iff]
  omega

theorem leading_toDigits (n : ℕ) : leading 10 (Nat.toDigits 10 n) = some n := by
  have hdigit : ∀ c ∈ Nat.toDigits 10 n, c.isDigit = true :=
    fun c hc ↦ Nat.isDigit_of_mem_toDigits (by decide) (by decide) hc
  have hall : ∀ c ∈ Nat.toDigits 10 n, (hexDigit c).any (· < 10) = true :=
    fun c hc ↦ hexDigit_any_of_isDigit (hdigit c hc)
  have hvalue : (Nat.toDigits 10 n).foldl (fun m c ↦ 10 * m + (hexDigit c).getD 0) 0 = n := by
    calc (Nat.toDigits 10 n).foldl (fun m c ↦ 10 * m + (hexDigit c).getD 0) 0
        = (Nat.toDigits 10 n).foldl (fun m c ↦ 10 * m + (c.toNat - '0'.toNat)) 0 := by
          refine List.foldl_ext _ _ _ fun m c hc ↦ ?_
          rw [hexDigit_of_isDigit (hdigit c hc)]
          rfl
      _ = n := Nat.ofDigitChars_ten_toDigits
  rw [leading, List.takeWhile_eq_self_iff.mpr hall, digits,
    if_pos ⟨Nat.toDigits_ne_nil, List.all_eq_true.mpr hall⟩, hvalue]

theorem signed_of_isDigit {α : Type} [Neg α] {f : List Char → Option α} {c : Char}
    {rest : List Char} (h : c.isDigit = true) : signed f (c :: rest) = f (c :: rest) := by
  rw [signed]
  · rintro rest' heq
    cases heq
    cases h
  · rintro rest' heq
    cases heq
    cases h

theorem leadingInt_of_isDigit {s : List Char} (h : ∀ c ∈ s, c.isDigit = true) :
    leadingInt s = (leading 10 s).map fun n ↦ (n : ℤ) := by
  rw [leadingInt]
  · rintro rest rfl
    exact absurd (h 'x' (by simp)) (by decide)
  · rintro rest rfl
    exact absurd (h 'X' (by simp)) (by decide)

theorem not_isWhiteSpace_of_isDigit {c : Char} (h : c.isDigit = true) : isWhiteSpace c = false := by
  obtain ⟨hlow, hhigh⟩ := Bool.and_eq_true_iff.mp h
  have hlow' : '0'.toNat ≤ c.toNat := of_decide_eq_true hlow
  have hhigh' : c.toNat ≤ '9'.toNat := of_decide_eq_true hhigh
  have hnine : '9'.toNat = 57 := rfl
  have hzero : '0'.toNat = 48 := rfl
  simp only [isWhiteSpace, Bool.or_eq_false_iff, Bool.and_eq_false_iff, decide_eq_false_iff_not]
  omega

/-- `parseInt` reads a number as it is printed. -/
theorem parseInt_repr (n : ℕ) : parseInt (Nat.repr n) = some (n : ℤ) := by
  have hdigit : ∀ c ∈ Nat.toDigits 10 n, c.isDigit = true :=
    fun c hc ↦ Nat.isDigit_of_mem_toDigits (by decide) (by decide) hc
  rw [parseInt, Nat.toList_repr]
  cases htext : Nat.toDigits 10 n with
  | nil => exact absurd htext Nat.toDigits_ne_nil
  | cons c rest =>
    have hc : c.isDigit = true := hdigit c (by rw [htext]; exact List.mem_cons_self)
    rw [List.dropWhile_cons_of_neg (by simp [not_isWhiteSpace_of_isDigit hc]), signed_of_isDigit hc,
      ← htext, leadingInt_of_isDigit hdigit, leading_toDigits]
    rfl

theorem parseInt_toString (n : ℤ) : parseInt (toString n) = some n := by
  cases n with
  | ofNat n => exact parseInt_repr n
  | negSucc n =>
    have hdigit : ∀ c ∈ Nat.toDigits 10 (n + 1), c.isDigit = true :=
      fun c hc ↦ Nat.isDigit_of_mem_toDigits (by decide) (by decide) hc
    have htext : (toString (Int.negSucc n)).toList = '-' :: Nat.toDigits 10 (n + 1) := by
      rw [← Nat.toList_repr]
      exact String.toList_append
    rw [parseInt, htext, List.dropWhile_cons_of_neg (by decide), signed,
      leadingInt_of_isDigit hdigit,
      leading_toDigits]
    rfl

theorem trim_of_isDigit {s : String} (h : ∀ c ∈ s.toList, c.isDigit = true) : trim s = s := by
  have hspace : ∀ l : List Char, (∀ c ∈ l, c.isDigit = true) → l.dropWhile isWhiteSpace = l := by
    intro l hl
    cases l with
    | nil => rfl
    | cons c rest =>
      exact List.dropWhile_cons_of_neg
        (by simp [not_isWhiteSpace_of_isDigit (hl c List.mem_cons_self)])
  rw [trim, hspace _ h, hspace _ fun c hc ↦ h c (List.mem_reverse.mp hc), List.reverse_reverse,
    String.ofList_toList]

theorem ofString_repr (n : ℕ) : ofString (Nat.repr n) = some (n : ℚ) := by
  have hdigit : ∀ c ∈ Nat.toDigits 10 n, c.isDigit = true :=
    fun c hc ↦ Nat.isDigit_of_mem_toDigits (by decide) (by decide) hc
  have hmantissa : ∀ c ∈ Nat.toDigits 10 n, (c ≠ 'e' && c ≠ 'E') = true := by
    rintro c hc
    have hc' := hdigit c hc
    by_contra hne
    rcases (by simpa [imp_iff_or_not] using hne : c = 'E' ∨ c = 'e') with rfl | rfl <;> cases hc'
  have hpoint : ∀ c ∈ Nat.toDigits 10 n, (decide (c ≠ '.')) = true := by
    intro c hc
    refine decide_eq_true ?_
    rintro rfl
    cases hdigit _ hc
  have hdecimal : decimal (Nat.toDigits 10 n) = some (n : ℚ) := by
    have hdigits : digitsOrNone (Nat.toDigits 10 n) = some n := by
      have hleading := leading_toDigits n
      rw [leading, List.takeWhile_eq_self_iff.mpr fun c hc ↦ hexDigit_any_of_isDigit (hdigit c hc)]
        at hleading
      rw [digitsOrNone, if_neg Nat.toDigits_ne_nil, hleading]
    simp only [decimal, List.takeWhile_eq_self_iff.mpr hmantissa,
      List.dropWhile_eq_nil_iff.mpr hmantissa, List.takeWhile_eq_self_iff.mpr hpoint,
      List.dropWhile_eq_nil_iff.mpr hpoint, hdigits]
    simp [digitsOrNone, exponent, Nat.toDigits_ne_nil, Rat.div_def, Rat.zero_mul]
  have htext : (trim (Nat.repr n)).toList = Nat.toDigits 10 n := by
    rw [trim_of_isDigit (by rwa [Nat.toList_repr]), Nat.toList_repr]
  rw [ofString, htext]
  cases hdigits : Nat.toDigits 10 n with
  | nil => exact absurd hdigits Nat.toDigits_ne_nil
  | cons c rest =>
    have hmark : ∀ d ∈ rest, d.isDigit = true := fun d hd ↦
      hdigit d (by rw [hdigits]; exact List.mem_cons_of_mem _ hd)
    split
    · next heq => cases heq
    · next heq => cases heq; cases hmark 'x' List.mem_cons_self
    · next heq => cases heq; cases hmark 'X' List.mem_cons_self
    · next heq => cases heq; cases hmark 'o' List.mem_cons_self
    · next heq => cases heq; cases hmark 'O' List.mem_cons_self
    · next heq => cases heq; cases hmark 'b' List.mem_cons_self
    · next heq => cases heq; cases hmark 'B' List.mem_cons_self
    · rw [signed_of_isDigit (hdigit c (by rw [hdigits]; exact List.mem_cons_self)), ← hdigits]
      exact hdecimal

theorem toString_injective {m n : ℤ} (h : toString m = toString n) : m = n := by
  have hparse := parseInt_toString m
  rw [h, parseInt_toString] at hparse
  exact (Option.some.inj hparse).symm

end JsNumber
