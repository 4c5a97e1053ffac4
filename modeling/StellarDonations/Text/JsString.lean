import Mathlib.Data.List.Basic

/-!
# String operations of the scripting language

The parts of `String.prototype` the program relies on, over Lean strings. `trim` removes the white
space and line terminators of the language, which are more than the ASCII ones. `toLowerCase` is
used only to compare with ASCII words: it lowers the ASCII letters and the Kelvin sign, the one
other character whose lower case is an ASCII letter, and leaves all other characters alone.
-/

namespace JsString

/-- The white space and line terminators that `trim` removes. -/
def isWhiteSpace (c : Char) : Bool :=
  let n := c.toNat
  (0x09 ≤ n && n ≤ 0x0D) || n = 0x20 || n = 0xA0 || n = 0x1680 || (0x2000 ≤ n && n ≤ 0x200A) ||
    n = 0x2028 || n = 0x2029 || n = 0x202F || n = 0x205F || n = 0x3000 || n = 0xFEFF

def trim (s : String) : String :=
  String.ofList (((s.toList.dropWhile isWhiteSpace).reverse.dropWhile isWhiteSpace).reverse)

/-- The lower case of one character, as far as comparisons with ASCII words can tell. -/
def lowerChar (c : Char) : Char := if c.toNat = 0x212A then 'k' else c.toLower

def toLowerCase (s : String) : String := String.ofList (s.toList.map lowerChar)

/-- A string that is neither `undefined`, `null` nor empty: the values the language calls truthy. -/
def truthy : Option String → Bool
  | none => false
  | some s => s ≠ ""

/-- `a || b` on strings. -/
def orElse (a : Option String) (b : String) : String :=
  match a with
  | none => b
  | some s => if s = "" then b else s

/-- `a || null` on strings: the empty string is dropped. -/
def orNull (a : Option String) : Option String := a.filter (· ≠ "")

def hexDigit (c : Char) : Option ℕ :=
  if '0' ≤ c ∧ c ≤ '9' then some (c.toNat - '0'.toNat)
  else if 'a' ≤ c ∧ c ≤ 'f' then some (c.toNat - 'a'.toNat + 10)
  else if 'A' ≤ c ∧ c ≤ 'F' then some (c.toNat - 'A'.toNat + 10)
  else none

/-- The bytes of pairs of hexadecimal digits, up to the first pair that is not one. -/
def hexBytes : List Char → List ℕ
  | a :: b :: rest =>
    match hexDigit a, hexDigit b with
    | some x, some y => (16 * x + y) :: hexBytes rest
    | _, _ => []
  | _ => []

/-- `Buffer.from(s, 'hex')`. -/
def bufferFromHex (s : String) : List ℕ := hexBytes s.toList

/-- `buffer.toString('hex')`. -/
def toHex (bytes : List UInt8) : String :=
  String.ofList (bytes.flatMap fun b ↦
    [Nat.digitChar (b.toNat / 16), Nat.digitChar (b.toNat % 16)])

def charUnits (c : Char) : List ℕ :=
  if c.toNat < 0x10000 then [c.toNat]
  else [0xD800 + (c.toNat - 0x10000) / 0x400, 0xDC00 + (c.toNat - 0x10000) % 0x400]

/-- The code units of a string, by which `<` and `sort` compare. -/
def codeUnits (s : String) : List ℕ := s.toList.flatMap charUnits

/-- The units of a character tell where they end: only the first unit of a pair is a high
surrogate. -/
theorem charUnits_append_injective {c d : Char} {s t : List ℕ}
    (h : charUnits c ++ s = charUnits d ++ t) : c = d ∧ s = t := by
  have hc : c.toNat < 0xD800 ∨ 0xDFFF < c.toNat ∧ c.toNat < 0x110000 := c.valid
  have hd : d.toNat < 0xD800 ∨ 0xDFFF < d.toNat ∧ d.toNat < 0x110000 := d.valid
  rw [← Char.toNat_inj]
  rw [charUnits, charUnits] at h
  split_ifs at h <;> simp only [List.cons_append, List.nil_append, List.cons.injEq] at h
  · exact h
  · omega
  · omega
  · exact ⟨by omega, h.2.2⟩

theorem charUnits_ne_nil (c : Char) : charUnits c ≠ [] := by
  rw [charUnits]
  split_ifs <;> exact List.cons_ne_nil _ _

theorem flatMap_charUnits_injective : Function.Injective (List.flatMap charUnits) := by
  intro s t h
  induction s generalizing t with
  | nil =>
    cases t with
    | nil => rfl
    | cons d t => exact absurd h.symm (by simp [charUnits_ne_nil])
  | cons c s ih =>
    cases t with
    | nil => exact absurd h (by simp [charUnits_ne_nil])
    | cons d t =>
      rw [List.flatMap_cons, List.flatMap_cons] at h
      obtain ⟨rfl, hst⟩ := charUnits_append_injective h
      rw [ih hst]

theorem codeUnits_injective : Function.Injective codeUnits :=
  flatMap_charUnits_injective.comp fun _ _ ↦ String.toList_inj.mp

@[simp] theorem length_toHex (bytes : List UInt8) : (toHex bytes).length = 2 * bytes.length := by
  rw [toHex, String.length_ofList, List.length_flatMap]
  simp [Nat.mul_comm]

theorem length_le_utf8ByteSize (s : String) : s.length ≤ s.utf8ByteSize := by
  rw [← String.ofList_toList (s := s)]
  induction s.toList with
  | nil => exact Nat.zero_le _
  | cons c l ih =>
    rw [String.length_ofList] at ih ⊢
    rw [String.ofList_cons, String.utf8ByteSize_append, String.utf8ByteSize_singleton,
      List.length_cons]
    have hc := c.utf8Size_pos
    omega

@[simp] theorem orNull_none : orNull none = none := rfl

theorem orNull_orNull (a : Option String) : orNull (orNull a) = orNull a := by
  rw [orNull, orNull, Option.filter_filter]
  simp

theorem orNull_eq_some {a : Option String} {s : String} :
    orNull a = some s ↔ a = some s ∧ s ≠ "" := by
  simp [orNull, Option.filter_eq_some_iff]

end JsString
