import Mathlib.Data.List.Basic
import Mathlib.Data.List.TakeWhile

/-!
# Buffers

What `Buffer` does with the encodings `utf8` and `base64url`. Bytes are written in groups of three
as four letters each; letters are read in groups of four, whatever is not one is skipped, and
padding ends the text. Both are functions of the six-bit digits that the letters stand for, and what
was written is read back (`ofBase64_toBase64url`, `ofUtf8_toUtf8`).
-/

namespace Buffer

/-! ## Base64 -/

/-- The letters of `base64url`. -/
def alphabet : List Char :=
  "ABCDEFGHIJKLMNOPQRSTUVWXYZabcdefghijklmnopqrstuvwxyz0123456789-_".toList

def letter (d : ℕ) : Char := alphabet.getD d 'A'

/-- The digit of a letter, of either alphabet. -/
def digit? (c : Char) : Option ℕ :=
  if c = '+' then some 62 else if c = '/' then some 63 else alphabet.idxOf? c

/-- The digits of bytes, with the last one filled up with zeros. -/
def toDigits : List UInt8 → List ℕ
  | a :: b :: c :: bytes =>
    let n := (a.toNat * 256 + b.toNat) * 256 + c.toNat
    n / 262144 :: n / 4096 % 64 :: n / 64 % 64 :: n % 64 :: toDigits bytes
  | [a, b] =>
    let n := (a.toNat * 256 + b.toNat) * 4
    [n / 4096, n / 64 % 64, n % 64]
  | [a] =>
    let n := a.toNat * 16
    [n / 64, n % 64]
  | [] => []

/-- The bytes of digits, without what does not fill a byte. -/
def ofDigits : List ℕ → List UInt8
  | a :: b :: c :: d :: digits =>
    let n := ((a * 64 + b) * 64 + c) * 64 + d
    .ofNat (n / 65536) :: .ofNat (n / 256 % 256) :: .ofNat (n % 256) :: ofDigits digits
  | [a, b, c] =>
    let n := (a * 64 + b) * 64 + c
    [.ofNat (n / 1024), .ofNat (n / 4 % 256)]
  | [a, b] => [.ofNat ((a * 64 + b) / 16)]
  | _ => []

/-- `buffer.toString('base64url')`. -/
def toBase64url (bytes : List UInt8) : String := String.ofList ((toDigits bytes).map letter)

/-- `Buffer.from(text, 'base64url')`. -/
def ofBase64 (text : String) : List UInt8 :=
  ofDigits ((text.toList.takeWhile (· ≠ '=')).filterMap digit?)

theorem toDigits_lt : ∀ (bytes : List UInt8), ∀ d ∈ toDigits bytes, d < 64 := by
  intro bytes
  fun_induction toDigits bytes with
  | case1 a b c bytes n ih =>
    have ha := a.toNat_lt
    have hb := b.toNat_lt
    have hc := c.toNat_lt
    intro d hd
    simp only [List.mem_cons] at hd
    rcases hd with rfl | rfl | rfl | rfl | hd
    · omega
    · omega
    · omega
    · omega
    · exact ih d hd
  | case2 a b n =>
    have ha := a.toNat_lt
    have hb := b.toNat_lt
    intro d hd
    simp only [List.mem_cons, List.not_mem_nil, or_false] at hd
    omega
  | case3 a n =>
    have ha := a.toNat_lt
    intro d hd
    simp only [List.mem_cons, List.not_mem_nil, or_false] at hd
    omega
  | case4 => exact nofun

theorem ofNat_eq {a : UInt8} {n : ℕ} (h : n = a.toNat) : UInt8.ofNat n = a := by
  rw [h, UInt8.ofNat_toNat]

theorem ofDigits_toDigits (bytes : List UInt8) : ofDigits (toDigits bytes) = bytes := by
  fun_induction toDigits bytes with
  | case1 a b c bytes n ih =>
    have ha := a.toNat_lt
    have hb := b.toNat_lt
    have hc := c.toNat_lt
    rw [ofDigits, ih, ofNat_eq (a := a) (by omega), ofNat_eq (a := b) (by omega),
      ofNat_eq (a := c) (by omega)]
  | case2 a b n =>
    have ha := a.toNat_lt
    have hb := b.toNat_lt
    rw [ofDigits, ofNat_eq (a := a) (by omega), ofNat_eq (a := b) (by omega)]
  | case3 a n =>
    have ha := a.toNat_lt
    rw [ofDigits, ofNat_eq (a := a) (by omega)]
  | case4 => rfl

theorem digit?_letter : ∀ d < 64, digit? (letter d) = some d ∧ letter d ≠ '=' := by
  decide +kernel

/-- **Bytes are read back** from their letters. -/
theorem ofBase64_toBase64url (bytes : List UInt8) : ofBase64 (toBase64url bytes) = bytes := by
  have hlt := toDigits_lt bytes
  have hpadding : ((toDigits bytes).map letter).takeWhile (· ≠ '=') =
      (toDigits bytes).map letter := by
    rw [List.takeWhile_eq_self_iff]
    intro c hc
    obtain ⟨d, hd, rfl⟩ := List.mem_map.mp hc
    exact decide_eq_true (digit?_letter d (hlt d hd)).2
  have hdigits : ((toDigits bytes).map letter).filterMap digit? = toDigits bytes := by
    rw [List.filterMap_map]
    refine Eq.trans ?_ List.filterMap_some
    exact List.filterMap_congr fun d hd ↦ (digit?_letter d (hlt d hd)).1
  rw [ofBase64, toBase64url, String.toList_ofList, hpadding, hdigits, ofDigits_toDigits]

theorem toBase64url_ne_empty {bytes : List UInt8} (h : bytes ≠ []) : toBase64url bytes ≠ "" := by
  intro hempty
  have hread := ofBase64_toBase64url bytes
  rw [hempty] at hread
  exact h hread.symm

/-! ## UTF-8 -/

/-- What a decoder has read of a character: how many bytes are still to come, the bounds of the next
one, and the number so far. -/
structure Pending where
  needed : ℕ
  lower : ℕ
  upper : ℕ
  codePoint : ℕ

def Pending.none : Pending := ⟨0, 0x80, 0xbf, 0⟩

def replacement : Char := Char.ofNat 0xfffd

/-- The first byte of a character: a whole character, or what is to come. -/
def firstByte (b : ℕ) : List Char × Pending :=
  if b < 0x80 then ([Char.ofNat b], .none)
  else if 0xc2 ≤ b ∧ b ≤ 0xdf then ([], ⟨1, 0x80, 0xbf, b - 0xc0⟩)
  else if 0xe0 ≤ b ∧ b ≤ 0xef then
    ([], ⟨2, if b = 0xe0 then 0xa0 else 0x80, if b = 0xed then 0x9f else 0xbf, b - 0xe0⟩)
  else if 0xf0 ≤ b ∧ b ≤ 0xf4 then
    ([], ⟨3, if b = 0xf0 then 0x90 else 0x80, if b = 0xf4 then 0x8f else 0xbf, b - 0xf0⟩)
  else ([replacement], .none)

/-- The next byte. A byte that does not go on with a character begins the next one. -/
def nextByte (p : Pending) (b : ℕ) : List Char × Pending :=
  if p.needed = 0 then firstByte b
  else if p.lower ≤ b ∧ b ≤ p.upper then
    let codePoint := p.codePoint * 64 + (b - 0x80)
    if p.needed = 1 then ([Char.ofNat codePoint], .none)
    else ([], ⟨p.needed - 1, 0x80, 0xbf, codePoint⟩)
  else (replacement :: (firstByte b).1, (firstByte b).2)

/-- Decode bytes, with the replacement character for those that are in no character. -/
def decodeBytes : Pending → List UInt8 → List Char
  | p, [] => if p.needed = 0 then [] else [replacement]
  | p, b :: bytes => (nextByte p b.toNat).1 ++ decodeBytes (nextByte p b.toNat).2 bytes

/-- `Buffer.from(s, 'utf8')`. -/
def toUtf8 (s : String) : List UInt8 := s.toByteArray.data.toList

/-- `buffer.toString('utf8')`. -/
def ofUtf8 (bytes : List UInt8) : String :=
  match (ByteArray.mk bytes.toArray).utf8Decode? with
  | some chars => String.ofList chars.toList
  | none => String.ofList (decodeBytes .none bytes)

/-- **Text is read back** from its bytes. -/
theorem ofUtf8_toUtf8 (s : String) : ofUtf8 (toUtf8 s) = s := by
  have hbytes : ByteArray.mk (toUtf8 s).toArray = s.toByteArray := rfl
  rw [ofUtf8, hbytes, ← String.utf8Encode_toList, List.utf8Decode?_utf8Encode]
  exact String.ofList_toList

theorem ofUtf8_nil : ofUtf8 [] = "" := ofUtf8_toUtf8 ""

theorem toUtf8_ne_nil {s : String} (h : s ≠ "") : toUtf8 s ≠ [] := by
  intro hnil
  have hread := ofUtf8_toUtf8 s
  rw [hnil] at hread
  exact h (hread.symm.trans ofUtf8_nil)

end Buffer
