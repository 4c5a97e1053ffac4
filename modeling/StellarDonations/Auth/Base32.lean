import Mathlib.Data.List.DropRight
import Mathlib.Data.Rat.Floor
import Mathlib.Tactic.Linarith
import StellarDonations.Numeric.Regroup
import StellarDonations.Text.JsString

/-!
# Base32 secrets

`TOTPService`'s `base32Encode` and `base32Decode`. Both keep the bits that wait in a number that
the language shifts as a word of 32 bits and that is never masked, so its high bits are what is left
of digits that have long gone out. Only the low bits that wait are read.
-/

namespace StellarDonations.Base32

open Regroup

def base32Alphabet : List Char := "ABCDEFGHIJKLMNOPQRSTUVWXYZ234567".toList

/-- A number of a loop, with how many of its low bits wait, and what has been put out. -/
structure State (α : Type) where
  bits : ℕ
  value : BitVec 32
  output : List α

/-! ## Encoding -/

/-- `BASE32_ALPHABET[i]`. -/
def letter (i : BitVec 32) : Char := base32Alphabet.getD i.toNat 'A'

/-- The inner loop of `base32Encode`. -/
def emitLetters (s : State Char) : State Char :=
  if 5 ≤ s.bits then
    emitLetters { s with
      bits := s.bits - 5
      output := s.output ++ [letter ((s.value >>> (s.bits - 5)) &&& 31)] }
  else s
termination_by s.bits

/-- The body of the loop of `base32Encode`. -/
def encodeByte (s : State Char) (b : UInt8) : State Char :=
  emitLetters { s with
    bits := s.bits + 8
    value := (s.value <<< 8) ||| BitVec.ofNat 32 b.toNat }

def base32Encode (buf : List UInt8) : String :=
  let s := buf.foldl encodeByte ⟨0, 0, []⟩
  String.ofList <|
    if 0 < s.bits then s.output ++ [letter ((s.value <<< (5 - s.bits)) &&& 31)] else s.output

/-! ## Decoding -/

/-- What `toUpperCase` makes of a character, as far as the letters of the alphabet can tell: the
long s, the dotless i and the letters whose upper case has several characters become such letters
too. -/
def upperChars (c : Char) : List Char :=
  match c.toNat with
  | 0xDF => ['S', 'S']
  | 0x131 => ['I']
  | 0x149 => ['N']
  | 0x17F => ['S']
  | 0x1F0 => ['J']
  | 0x1E96 => ['H']
  | 0x1E97 => ['T']
  | 0x1E98 => ['W']
  | 0x1E99 => ['Y']
  | 0x1E9A => ['A']
  | 0xFB00 => ['F', 'F']
  | 0xFB01 => ['F', 'I']
  | 0xFB02 => ['F', 'L']
  | 0xFB03 => ['F', 'F', 'I']
  | 0xFB04 => ['F', 'F', 'L']
  | 0xFB05 | 0xFB06 => ['S', 'T']
  | _ => [c.toUpper]

/-- `str.toUpperCase().replace(/=+$/, '').replace(/\\s/g, '')`. -/
def normalize (str : String) : List Char :=
  let upper := str.toList.flatMap upperChars
  (upper.rdropWhile (· = '=')).filter fun c ↦ !JsString.isWhiteSpace c

/-- The body of the loop of `base32Decode`; characters outside of the alphabet are skipped. -/
def decodeChar (s : State UInt8) (c : Char) : State UInt8 :=
  match base32Alphabet.idxOf? c with
  | none => s
  | some idx =>
    let value := (s.value <<< 5) ||| BitVec.ofNat 32 idx
    let bits := s.bits + 5
    if 8 ≤ bits then
      { bits := bits - 8
        value := value
        output := s.output ++ [UInt8.ofNat ((value >>> (bits - 8)) &&& 0xff).toNat] }
    else { s with bits := bits, value := value }

def base32Decode (str : String) : List UInt8 := ((normalize str).foldl decodeChar ⟨0, 0, []⟩).output

/-! ## Letters and digits -/

def letterAt (d : ℕ) : Char := base32Alphabet.getD d 'A'

theorem mask_five (x : BitVec 32) : (x &&& 31).toNat = x.toNat % 2 ^ 5 := by
  rw [BitVec.toNat_and]
  exact Nat.and_two_pow_sub_one_eq_mod x.toNat 5

theorem mask_eight (x : BitVec 32) : (x &&& 0xff).toNat = x.toNat % 2 ^ 8 := by
  rw [BitVec.toNat_and]
  exact Nat.and_two_pow_sub_one_eq_mod x.toNat 8

theorem letter_mask (x : BitVec 32) : letter (x &&& 31) = letterAt (x.toNat % 2 ^ 5) := by
  rw [letter, letterAt, mask_five]

theorem idxOf?_letterAt : ∀ d < 2 ^ 5, base32Alphabet.idxOf? (letterAt d) = some d := by decide

theorem plain_letterAt : ∀ d < 2 ^ 5, upperChars (letterAt d) = [letterAt d] ∧
    letterAt d ≠ '=' ∧ JsString.isWhiteSpace (letterAt d) = false := by
  decide

theorem normalize_letters {digits : List ℕ} (hdigits : ∀ d ∈ digits, d < 2 ^ 5) :
    normalize (String.ofList (digits.map letterAt)) = digits.map letterAt := by
  have hupper : (digits.map letterAt).flatMap upperChars = digits.map letterAt := by
    rw [List.flatMap_map]
    calc digits.flatMap (fun d ↦ upperChars (letterAt d))
        = digits.flatMap (fun d ↦ [letterAt d]) :=
          List.flatMap_congr fun d hd ↦ (plain_letterAt d (hdigits d hd)).1
      _ = digits.map letterAt := List.flatMap_pure_eq_map letterAt digits
  have hpadding : (digits.map letterAt).rdropWhile (· = '=') = digits.map letterAt := by
    rw [List.rdropWhile_eq_self_iff]
    intro hne hlast
    obtain ⟨d, hd, heq⟩ := List.mem_map.mp (List.getLast_mem hne)
    refine (plain_letterAt d (hdigits d hd)).2.1 ?_
    rw [heq]
    exact of_decide_eq_true hlast
  rw [normalize, String.toList_ofList, hupper, hpadding, List.filter_eq_self]
  intro c hc
  obtain ⟨d, hd, rfl⟩ := List.mem_map.mp hc
  rw [(plain_letterAt d (hdigits d hd)).2.2, Bool.not_false]

/-! ## The loops -/

def bytes (buf : List UInt8) : List ℕ := buf.map UInt8.toNat

theorem bytes_lt {buf : List UInt8} : ∀ d ∈ bytes buf, d < 2 ^ 8 := by
  intro d hd
  obtain ⟨b, -, rfl⟩ := List.mem_map.mp hd
  exact b.toNat_lt

theorem bytes_injective : Function.Injective bytes :=
  List.map_injective_iff.mpr fun _ _ ↦ UInt8.toNat_inj.mp

/-- The letters that are out and the low bits of the number regroup the bytes read so far. -/
def Encodes (input : List ℕ) (s : State Char) : Prop :=
  ∃ digits, s.output = digits.map letterAt ∧
    Regrouped 8 5 input digits s.bits (s.value.toNat % 2 ^ s.bits)

/-- The bytes that are out and the low bits of the number regroup the digits read so far. -/
def Decodes (digits : List ℕ) (s : State UInt8) : Prop :=
  Regrouped 5 8 digits (bytes s.output) s.bits (s.value.toNat % 2 ^ s.bits)

theorem encodes_emitLetters {input : List ℕ} {s : State Char} (h : Encodes input s) :
    Encodes input (emitLetters s) ∧ (emitLetters s).bits < 5 := by
  fun_induction emitLetters s with
  | case1 s hbits ih =>
    refine ih ?_
    obtain ⟨digits, houtput, hregrouped⟩ := h
    refine ⟨digits ++ [s.value.toNat % 2 ^ s.bits / 2 ^ (s.bits - 5)], ?_, ?_⟩
    · dsimp only
      rw [houtput, letter_mask, waiting_emit rfl hbits, List.map_append, List.map_singleton]
    · dsimp only
      rw [waiting_rest rfl]
      exact hregrouped.emit hbits
  | case2 s hbits => exact ⟨h, Nat.lt_of_not_le hbits⟩

theorem encodes_encodeByte {input : List ℕ} {s : State Char} (h : Encodes input s)
    (hbits : s.bits < 5) (b : UInt8) :
    Encodes (input ++ [b.toNat]) (encodeByte s b) ∧ (encodeByte s b).bits < 5 := by
  obtain ⟨digits, houtput, hregrouped⟩ := h
  refine encodes_emitLetters ⟨digits, houtput, ?_⟩
  dsimp only
  rw [waiting_shift rfl (by omega) b.toNat_lt]
  exact hregrouped.push b.toNat_lt

theorem encodes_foldl (buf : List UInt8) :
    Encodes (bytes buf) (buf.foldl encodeByte ⟨0, 0, []⟩) ∧
      (buf.foldl encodeByte ⟨0, 0, []⟩).bits < 5 := by
  induction buf using List.reverseRecOn with
  | nil => exact ⟨⟨[], rfl, regrouped_nil 8 5⟩, by decide⟩
  | append_singleton buf b ih =>
    rw [List.foldl_append, List.foldl_cons, List.foldl_nil, bytes, List.map_append]
    exact encodes_encodeByte ih.1 ih.2 b

theorem decodes_decodeChar {digits : List ℕ} {s : State UInt8} (h : Decodes digits s)
    (hbits : s.bits < 8) {d : ℕ} (hd : d < 2 ^ 5) :
    Decodes (digits ++ [d]) (decodeChar s (letterAt d)) ∧
      (decodeChar s (letterAt d)).bits < 8 := by
  have hpush := h.push hd
  rw [← waiting_shift rfl (by omega) hd] at hpush
  simp only [decodeChar, idxOf?_letterAt d hd]
  split_ifs with hfull
  · refine ⟨?_, by dsimp only; omega⟩
    have hemit := hpush.emit hfull
    rw [Decodes]
    dsimp only
    rw [waiting_rest rfl, bytes, List.map_append, List.map_singleton, UInt8.toNat_ofNat',
      mask_eight, Nat.mod_mod, waiting_emit rfl hfull]
    exact hemit
  · exact ⟨hpush, Nat.lt_of_not_le hfull⟩

theorem decodes_foldl {digits : List ℕ} (hdigits : ∀ d ∈ digits, d < 2 ^ 5) :
    Decodes digits ((digits.map letterAt).foldl decodeChar ⟨0, 0, []⟩) ∧
      ((digits.map letterAt).foldl decodeChar ⟨0, 0, []⟩).bits < 8 := by
  induction digits using List.reverseRecOn with
  | nil => exact ⟨regrouped_nil 5 8, by decide⟩
  | append_singleton digits d ih =>
    obtain ⟨h, hbits⟩ := ih fun d' hd' ↦ hdigits d' (List.mem_append_left _ hd')
    rw [List.map_append, List.foldl_append]
    exact decodes_decodeChar h hbits (hdigits d (List.mem_append_right _ List.mem_cons_self))

/-- What `base32Encode` puts out: the letters of digits that regroup the bytes, the last one filled
up with zeros. -/
theorem base32Encode_eq (buf : List UInt8) : ∃ digits padding,
    base32Encode buf = String.ofList (digits.map letterAt) ∧ (∀ d ∈ digits, d < 2 ^ 5) ∧
      padding < 5 ∧ 5 * digits.length = 8 * (bytes buf).length + padding ∧
        Positional.value (2 ^ 5) digits = Positional.value (2 ^ 8) (bytes buf) * 2 ^ padding := by
  obtain ⟨⟨digits, houtput, h⟩, hbits⟩ := encodes_foldl buf
  rw [base32Encode]
  generalize buf.foldl encodeByte ⟨0, 0, []⟩ = s at houtput h hbits ⊢
  have htotal := h.total
  split_ifs with hpos
  · refine ⟨digits ++ [s.value.toNat % 2 ^ s.bits * 2 ^ (5 - s.bits)], 5 - s.bits, ?_, ?_,
      by omega, ?_, h.pad hbits⟩
    · have hlast : (s.value <<< (5 - s.bits)).toNat % 2 ^ (s.bits + (5 - s.bits)) = _ :=
        waiting_shiftLeft rfl (by omega)
      rw [Nat.add_sub_cancel' hbits.le] at hlast
      rw [houtput, letter_mask, hlast, List.map_append, List.map_singleton]
    · intro d hd
      rcases List.mem_append.mp hd with hd | hd
      · exact h.digits d hd
      · obtain rfl := List.mem_singleton.mp hd
        exact h.pad_lt hbits
    · rw [List.length_append, List.length_singleton]
      omega
  · have hzero : s.bits = 0 := Nat.eq_zero_of_not_pos hpos
    refine ⟨digits, 0, by rw [houtput], h.digits, by omega, by omega, ?_⟩
    have hsame := h.same
    rw [hzero, pow_zero, Nat.mod_one] at hsame
    rw [hsame, pow_zero, mul_one, mul_one, add_zero]

/-- **Base32.** Decoding restores what was encoded, and there is a letter for every five bits that
are begun. -/
theorem base32_roundtrip (buf : List UInt8) : base32Decode (base32Encode buf) = buf ∧
    ((base32Encode buf).length : ℤ) = ⌈(8 * buf.length : ℚ) / 5⌉ := by
  obtain ⟨digits, padding, hencode, hdigits, hpadding, hlength, hvalue⟩ := base32Encode_eq buf
  rw [hencode]
  constructor
  · obtain ⟨h, hbits⟩ := decodes_foldl hdigits
    rw [base32Decode, normalize_letters hdigits]
    exact bytes_injective (h.roundtrip hbits (by omega) bytes_lt hlength hvalue)
  · have hbytes : (bytes buf).length = buf.length := List.length_map _
    rw [hbytes] at hlength
    have hlength' : (5 * digits.length : ℚ) = 8 * buf.length + padding := by exact_mod_cast hlength
    have hpadding' : (padding : ℚ) < 5 := by exact_mod_cast hpadding
    rw [String.length_ofList, List.length_map, eq_comm, Int.ceil_eq_iff]
    have hnonneg : (0 : ℚ) ≤ padding := Nat.cast_nonneg padding
    constructor
    · rw [lt_div_iff₀ (by norm_num)]
      push_cast
      linarith
    · rw [div_le_iff₀ (by norm_num)]
      push_cast
      linarith

end StellarDonations.Base32
