import Mathlib.Data.List.TakeWhile
import StellarDonations.Auth.IpAllowlist
import StellarDonations.Numeric.Positional

/-!
# The addresses that texts stand for

The number of a textual IPv4 or IPv6 address, in every spelling that `isIPv4` and `isIPv6` accept
(zone identifiers apart). An IPv6 address has many: eight groups of 16 bits, each with up to three
leading zeros and in either letter case, a run of zero groups left out, and the last two groups as
an IPv4 address.
-/

namespace StellarDonations.IpText

open JsString IpAllowlist Positional

/-! ## Values -/

/-- The number of a text of decimal digits. -/
def decimal (s : List Char) : ℕ := value 10 (s.map fun c ↦ c.toNat - '0'.toNat)

/-- The number of a text of hexadecimal digits. -/
def hexadecimal (s : List Char) : ℕ := value 16 (s.map fun c ↦ (hexDigit c).getD 0)

/-- The four numbers of an IPv4 address. -/
def octets (s : List Char) : List ℕ := (s.splitOn '.').map decimal

def ipv4Value (s : List Char) : ℕ := value 256 (octets s)

/-- The 16-bit groups of one field of an IPv6 address. -/
def fieldGroups (field : List Char) : List ℕ :=
  if isIPv4 field then [ipv4Value field / 2 ^ 16, ipv4Value field % 2 ^ 16] else [hexadecimal field]

def sideGroups (side : List Char) : List ℕ := (splitGroups side).flatMap fieldGroups

/-- The eight groups of an IPv6 address. -/
def groups (s : List Char) : List ℕ :=
  match splitDoubleColon s with
  | [left, right] =>
    let missing := 8 - (sideGroups left).length - (sideGroups right).length
    sideGroups left ++ List.replicate missing 0 ++ sideGroups right
  | _ => sideGroups s

def ipv6Value (s : List Char) : ℕ := value (2 ^ 16) (groups s)

def IsIPv6 (s : List Char) : Prop := isIPv6 s = true ∧ '%' ∉ s

/-- A number lies in a range of numbers of `width` bits if it has the leading bits of the
network. -/
def InRange (width net bits v : ℕ) : Prop := v / 2 ^ (width - bits) = net / 2 ^ (width - bits)

instance (width net bits v : ℕ) : Decidable (InRange width net bits v) :=
  inferInstanceAs (Decidable (_ = _))

/-! ## IPv4 -/

theorem isDigit_of_isOctet {o : List Char} (h : isOctet o = true) : ∀ c ∈ o, c.isDigit = true := by
  unfold isOctet at h
  split at h
  · cases h
  · exact fun c hc ↦ by rw [List.mem_singleton.mp hc]; rfl
  · cases h
  · rw [Bool.and_eq_true, Bool.and_eq_true] at h
    exact List.all_eq_true.mp h.1.2

theorem decimal_eq_foldl (s : List Char) :
    decimal s = s.foldl (fun n c ↦ 10 * n + (c.toNat - '0'.toNat)) 0 := by
  rw [decimal, ← foldl_eq_value, List.foldl_map]

theorem decimal_lt_of_isOctet {o : List Char} (h : isOctet o = true) : decimal o < 256 := by
  rw [decimal_eq_foldl]
  unfold isOctet at h
  split at h
  · cases h
  · decide
  · cases h
  · rw [Bool.and_eq_true] at h
    exact Nat.lt_succ_of_le (of_decide_eq_true h.2)

theorem toNat_of_isDigit {c : Char} (h : c.isDigit = true) : 48 ≤ c.toNat ∧ c.toNat ≤ 57 := by
  rw [Char.isDigit_iff_toNat] at h
  exact h

theorem hexDigit_of_isDigit {c : Char} (h : c.isDigit = true) :
    hexDigit c = some (c.toNat - '0'.toNat) :=
  if_pos (toNat_of_isDigit h)

theorem parseDigits_of_digits {s : List Char} (hs : ∀ c ∈ s, c.isDigit = true) (hne : s ≠ []) :
    parseDigits 10 s = some (decimal s) := by
  have hall : ∀ c ∈ s, (hexDigit c).any (· < 10) = true := by
    intro c hc
    have hle := toNat_of_isDigit (hs c hc)
    have hzero : '0'.toNat = 48 := rfl
    rw [hexDigit_of_isDigit (hs c hc), Option.any_some, decide_eq_true_iff]
    omega
  have hvalue : s.foldl (fun n c ↦ 10 * n + (hexDigit c).getD 0) 0 = decimal s := by
    rw [decimal_eq_foldl]
    refine List.foldl_ext _ _ _ fun n c hc ↦ ?_
    rw [hexDigit_of_isDigit (hs c hc)]
    rfl
  simp only [parseDigits, List.takeWhile_eq_self_iff.mpr hall, if_neg hne, hvalue]

theorem parseInt_of_digits {s : List Char} (hs : ∀ c ∈ s, c.isDigit = true) (hne : s ≠ []) :
    parseInt s = some (decimal s : ℤ) := by
  have hparse := parseDigits_of_digits hs hne
  cases s with
  | nil => exact absurd rfl hne
  | cons c s =>
    have hc := hs c List.mem_cons_self
    have hspace : isWhiteSpace c = false := by
      have hle := toNat_of_isDigit hc
      simp only [isWhiteSpace]
      grind
    rw [parseInt, List.dropWhile_cons, hspace, if_neg Bool.false_ne_true]
    split
    case h_1 rest heq =>
      obtain ⟨rfl, -⟩ := List.cons.inj heq
      cases hc
    case h_2 rest heq =>
      obtain ⟨rfl, -⟩ := List.cons.inj heq
      cases hc
    · rw [hparse]
      rfl

theorem ne_nil_of_isOctet {o : List Char} (h : isOctet o = true) : o ≠ [] := by
  rintro rfl
  cases h

theorem length_of_isOctet {o : List Char} (h : isOctet o = true) : o.length ≤ 3 := by
  unfold isOctet at h
  split at h
  · cases h
  · decide
  · cases h
  · rw [Bool.and_eq_true, Bool.and_eq_true] at h
    exact of_decide_eq_true h.1.1

theorem isIPv4_iff {s : List Char} :
    isIPv4 s = true ↔ (s.splitOn '.').length = 4 ∧ ∀ o ∈ s.splitOn '.', isOctet o = true := by
  rw [isIPv4, Bool.and_eq_true, decide_eq_true_iff, List.all_eq_true]

theorem length_octets {s : List Char} (h : isIPv4 s = true) : (octets s).length = 4 := by
  rw [octets, List.length_map]
  exact (isIPv4_iff.mp h).1

theorem octets_lt {s : List Char} (h : isIPv4 s = true) : ∀ d ∈ octets s, d < 256 := by
  intro d hd
  obtain ⟨o, ho, rfl⟩ := List.mem_map.mp hd
  exact decimal_lt_of_isOctet ((isIPv4_iff.mp h).2 o ho)

theorem ipv4Value_lt {s : List Char} (h : isIPv4 s = true) : ipv4Value s < 2 ^ 32 := by
  have hlt := value_lt (by decide) (octets_lt h)
  rw [length_octets h] at hlt
  exact hlt

theorem foldl_octets {f : ℕ → List Char → ℕ} {s : List Char} (h : isIPv4 s = true)
    (hf : ∀ acc o, acc < 256 ^ 3 → isOctet o = true → f acc o = 256 * acc + decimal o) :
    (s.splitOn '.').foldl f 0 = ipv4Value s := by
  have key : ∀ (fields : List (List Char)) (k acc : ℕ), k + fields.length = 4 → acc < 256 ^ k →
      (∀ o ∈ fields, isOctet o = true) →
      fields.foldl f acc = (fields.map decimal).foldl (fun n d ↦ 256 * n + d) acc := by
    intro fields
    induction fields with
    | nil => exact fun _ _ _ _ _ ↦ rfl
    | cons o fields ih =>
      intro k acc hlen hacc hfields
      obtain ⟨ho, hfields⟩ := List.forall_mem_cons.mp hfields
      rw [List.length_cons] at hlen
      have hk : acc < 256 ^ 3 := hacc.trans_le (Nat.pow_le_pow_right (by decide) (by omega))
      have hd := decimal_lt_of_isOctet ho
      have hnext : 256 * acc + decimal o < 256 ^ (k + 1) := by
        rw [pow_succ]
        omega
      rw [List.foldl_cons, hf acc o hk ho, List.map_cons, List.foldl_cons]
      exact ih (k + 1) _ (by omega) hnext hfields
  obtain ⟨hlen, hoctets⟩ := isIPv4_iff.mp h
  rw [key (s.splitOn '.') 0 0 (by omega) (by decide) hoctets, foldl_eq_value]
  rfl

theorem mem_splitOn {c sep : Char} {s : List Char} (h : c ∈ s) :
    c = sep ∨ ∃ f ∈ s.splitOn sep, c ∈ f := by
  induction s with
  | nil => cases h
  | cons d s ih =>
    rw [List.splitOn_cons_eq_if_modifyHead]
    by_cases hd : d = sep
    · rw [if_pos (beq_iff_eq.mpr hd)]
      rcases List.mem_cons.mp h with rfl | h
      · exact Or.inl hd
      · exact (ih h).imp_right fun ⟨f, hf, hc⟩ ↦ ⟨f, List.mem_cons_of_mem _ hf, hc⟩
    · rw [if_neg (beq_eq_false_iff_ne.mpr hd ▸ Bool.false_ne_true)]
      obtain ⟨f, fields, hfields⟩ := List.exists_cons_of_ne_nil (List.splitOn_ne_nil sep s)
      rw [hfields] at ih ⊢
      rw [List.modifyHead_cons]
      rcases List.mem_cons.mp h with rfl | h
      · exact Or.inr ⟨c :: f, List.mem_cons_self, List.mem_cons_self⟩
      · rcases ih h with hc | ⟨g, hg, hc⟩
        · exact Or.inl hc
        · rcases List.mem_cons.mp hg with rfl | hg
          · exact Or.inr ⟨d :: g, List.mem_cons_self, List.mem_cons_of_mem d hc⟩
          · exact Or.inr ⟨g, List.mem_cons_of_mem _ hg, hc⟩

theorem mem_of_isIPv4 {s : List Char} (h : isIPv4 s = true) {c : Char} (hc : c ∈ s) :
    c.isDigit = true ∨ c = '.' := by
  have hsplit : c = '.' ∨ ∃ o ∈ s.splitOn '.', c ∈ o := mem_splitOn hc
  rcases hsplit with hdot | ⟨o, ho, hc⟩
  · exact Or.inr hdot
  · exact Or.inl (isDigit_of_isOctet ((isIPv4_iff.mp h).2 o ho) c hc)

theorem dot_mem_of_isIPv4 {s : List Char} (h : isIPv4 s = true) : '.' ∈ s := by
  by_contra hdot
  have hlen := (isIPv4_iff.mp h).1
  rw [List.splitOn_eq_singleton hdot] at hlen
  cases hlen

theorem colon_notMem_of_isIPv4 {s : List Char} (h : isIPv4 s = true) : ':' ∉ s := by
  intro hc
  rcases mem_of_isIPv4 h hc with hdigit | hdot
  · cases hdigit
  · cases hdot

/-! ## Fields of an IPv6 address -/

theorem isHexGroup_iff {g : List Char} : isHexGroup g = true ↔
    0 < g.length ∧ g.length ≤ 4 ∧ ∀ c ∈ g, (hexDigit c).isSome = true := by
  rw [isHexGroup, Bool.and_eq_true, Bool.and_eq_true, decide_eq_true_iff, decide_eq_true_iff,
    List.all_eq_true, and_assoc]

theorem hexDigit_lt {c : Char} {n : ℕ} (h : hexDigit c = some n) : n < 16 := by
  rw [hexDigit] at h
  split at h
  case isTrue hc =>
    obtain rfl := Option.some.inj h
    have hle : c.toNat ≤ '9'.toNat := hc.2
    have hnine : '9'.toNat = 57 := rfl
    have hzero : '0'.toNat = 48 := rfl
    omega
  · split at h
    case isTrue hc =>
      obtain rfl := Option.some.inj h
      have hle : c.toNat ≤ 'f'.toNat := hc.2
      have hf : 'f'.toNat = 102 := rfl
      have ha : 'a'.toNat = 97 := rfl
      omega
    · split at h
      case isTrue hc =>
        obtain rfl := Option.some.inj h
        have hle : c.toNat ≤ 'F'.toNat := hc.2
        have hf : 'F'.toNat = 70 := rfl
        have ha : 'A'.toNat = 65 := rfl
        omega
      · cases h

theorem hexValue_lt {s : List Char} : ∀ d ∈ s.map (fun c ↦ (hexDigit c).getD 0), d < 16 := by
  intro d hd
  obtain ⟨c, -, rfl⟩ := List.mem_map.mp hd
  cases hc : hexDigit c with
  | none => exact Nat.succ_pos _
  | some n => exact hexDigit_lt hc

theorem hexadecimal_lt (s : List Char) : hexadecimal s < 16 ^ s.length := by
  have h := value_lt (by decide) (hexValue_lt (s := s))
  rw [List.length_map] at h
  exact h

theorem hexadecimal_lt_of_isHexGroup {g : List Char} (h : isHexGroup g = true) :
    hexadecimal g < 2 ^ 16 :=
  (hexadecimal_lt g).trans_le (Nat.pow_le_pow_right (by decide) (isHexGroup_iff.mp h).2.1)

theorem notMem_of_isHexGroup {g : List Char} (h : isHexGroup g = true) {c : Char}
    (hc : hexDigit c = none) : c ∉ g := by
  intro hmem
  have hsome := (isHexGroup_iff.mp h).2.2 c hmem
  rw [hc] at hsome
  cases hsome

theorem fieldGroups_of_isHexGroup {g : List Char} (h : isHexGroup g = true) :
    fieldGroups g = [hexadecimal g] :=
  if_neg fun hg ↦ notMem_of_isHexGroup h rfl (dot_mem_of_isIPv4 hg)

theorem flatMap_fieldGroups {fields : List (List Char)}
    (h : ∀ f ∈ fields, isHexGroup f = true) :
    fields.flatMap fieldGroups = fields.map hexadecimal := by
  induction fields with
  | nil => rfl
  | cons f fields ih =>
    rw [List.forall_mem_cons] at h
    rw [List.flatMap_cons, fieldGroups_of_isHexGroup h.1, ih h.2]
    rfl

theorem fields_of_groupWidth {fields : List (List Char)} {n : ℕ}
    (h : groupWidth fields = some n) :
    (∀ f ∈ fields, isHexGroup f = true) ∧ n = fields.length ∨
      ∃ init q, fields = init ++ [q] ∧ (∀ f ∈ init, isHexGroup f = true) ∧ isIPv4 q = true ∧
        n = init.length + 2 := by
  induction fields using List.reverseRecOn with
  | nil => exact Or.inl ⟨List.forall_mem_nil _, (Option.some.inj h).symm⟩
  | append_singleton init last _ =>
    rw [groupWidth, List.getLast?_concat] at h
    simp only [List.dropLast_concat, List.length_append, List.length_singleton] at h
    split at h
    case isTrue hinit =>
      rw [List.all_eq_true] at hinit
      split at h
      case isTrue hlast =>
        refine Or.inl ⟨fun f hf ↦ ?_, ?_⟩
        · rcases List.mem_append.mp hf with hf | hf
          · exact hinit f hf
          · exact List.mem_singleton.mp hf ▸ hlast
        · rw [List.length_append, List.length_singleton]
          exact (Option.some.inj h).symm
      case isFalse hlast =>
        split at h
        case isTrue hquad =>
          exact Or.inr ⟨init, last, rfl, hinit, hquad, (Option.some.inj h).symm⟩
        · cases h
    · cases h

theorem groups_of_groupWidth {fields : List (List Char)} {n : ℕ}
    (h : groupWidth fields = some n) :
    (fields.flatMap fieldGroups).length = n ∧ ∀ g ∈ fields.flatMap fieldGroups, g < 2 ^ 16 := by
  have hhex : ∀ {fields : List (List Char)}, (∀ f ∈ fields, isHexGroup f = true) →
      ∀ g ∈ fields.map hexadecimal, g < 2 ^ 16 := by
    intro fields hfields g hg
    obtain ⟨f, hf, rfl⟩ := List.mem_map.mp hg
    exact hexadecimal_lt_of_isHexGroup (hfields f hf)
  rcases fields_of_groupWidth h with ⟨hfields, rfl⟩ | ⟨init, q, rfl, hinit, hq, rfl⟩
  · rw [flatMap_fieldGroups hfields, List.length_map]
    exact ⟨rfl, hhex hfields⟩
  · have hlast : [q].flatMap fieldGroups = [ipv4Value q / 2 ^ 16, ipv4Value q % 2 ^ 16] := by
      rw [List.flatMap_singleton, fieldGroups, if_pos hq]
    rw [List.flatMap_append, flatMap_fieldGroups hinit, hlast, List.length_append, List.length_map]
    refine ⟨rfl, fun g hg ↦ ?_⟩
    rcases List.mem_append.mp hg with hg | hg
    · exact hhex hinit g hg
    · have hlt := ipv4Value_lt hq
      simp only [List.mem_cons, List.not_mem_nil, or_false] at hg
      omega

/-! ## The sides of an IPv6 address -/

theorem splitDoubleColon_ne_nil (s : List Char) : splitDoubleColon s ≠ [] := by
  fun_induction splitDoubleColon s <;> exact List.cons_ne_nil _ _

theorem intercalate_splitDoubleColon (s : List Char) :
    [':', ':'].intercalate (splitDoubleColon s) = s := by
  fun_induction splitDoubleColon s with
  | case1 rest ih =>
    rw [List.intercalate_cons_of_ne_nil (splitDoubleColon_ne_nil rest), ih]
    rfl
  | case2 c rest _ head tail heq ih =>
    rw [List.intercalate_cons_cons_left]
    rw [heq] at ih
    rw [ih]
  | case3 c rest _ heq ih => exact absurd heq (splitDoubleColon_ne_nil rest)
  | case4 => rfl

/-- How an IPv6 address is made: of all groups, or of two sides with zero groups between them. -/
theorem sides_of_isIPv6 {s : List Char} (h : IsIPv6 s) :
    splitDoubleColon s = [s] ∧ groupWidth (splitGroups s) = some 8 ∨
      ∃ left right w, splitDoubleColon s = [left, right] ∧ s = left ++ ':' :: ':' :: right ∧
        (∀ f ∈ splitGroups left, isHexGroup f = true) ∧
        groupWidth (splitGroups right) = some w ∧ (splitGroups left).length + w ≤ 7 := by
  obtain ⟨hs, hzone⟩ := h
  have htake : s.takeWhile (· ≠ '%') = s :=
    List.takeWhile_eq_self_iff.mpr fun c hc ↦ decide_eq_true fun heq ↦ hzone (heq ▸ hc)
  have hjoin := intercalate_splitDoubleColon s
  rw [isIPv6, htake, Bool.and_eq_true] at hs
  obtain ⟨-, hs⟩ := hs
  split at hs
  case h_1 all heq =>
    rw [heq, List.intercalate_singleton] at hjoin
    subst hjoin
    exact Or.inl ⟨heq, of_decide_eq_true hs⟩
  case h_2 left right heq =>
    rw [heq, List.intercalate_cons_cons, List.intercalate_singleton, List.append_assoc] at hjoin
    rw [Bool.and_eq_true, List.all_eq_true, Option.any_eq_true] at hs
    obtain ⟨hleft, w, hw, hle⟩ := hs
    exact Or.inr ⟨left, right, w, heq, hjoin.symm, hleft, hw, of_decide_eq_true hle⟩
  · cases hs

theorem length_groups {s : List Char} (h : IsIPv6 s) :
    (groups s).length = 8 ∧ ∀ g ∈ groups s, g < 2 ^ 16 := by
  rcases sides_of_isIPv6 h with ⟨heq, hw⟩ | ⟨left, right, w, heq, -, hleft, hw, hle⟩
  · rw [groups, heq]
    exact groups_of_groupWidth hw
  · obtain ⟨hlen, hlt⟩ := groups_of_groupWidth hw
    have hlenLeft : (sideGroups left).length = (splitGroups left).length := by
      rw [sideGroups, flatMap_fieldGroups hleft, List.length_map]
    have hltLeft : ∀ g ∈ sideGroups left, g < 2 ^ 16 := by
      intro g hg
      rw [sideGroups, flatMap_fieldGroups hleft] at hg
      obtain ⟨f, hf, rfl⟩ := List.mem_map.mp hg
      exact hexadecimal_lt_of_isHexGroup (hleft f hf)
    rw [groups, heq]
    have hlenRight : (sideGroups right).length = w := hlen
    constructor
    · simp only [List.length_append, List.length_replicate]
      omega
    · intro g hg
      simp only [List.mem_append, List.mem_replicate] at hg
      rcases hg with (hg | ⟨-, rfl⟩) | hg
      · exact hltLeft g hg
      · exact Nat.two_pow_pos 16
      · exact hlt g hg

theorem hexDigit_isSome_of_isDigit {c : Char} (h : c.isDigit = true) :
    (hexDigit c).isSome = true := by
  have hrange : '0' ≤ c ∧ c ≤ '9' := toNat_of_isDigit h
  rw [hexDigit, if_pos hrange]
  rfl

theorem mem_of_groupWidth {side : List Char} {w : ℕ} (h : groupWidth (splitGroups side) = some w)
    {c : Char} (hc : c ∈ side) : (hexDigit c).isSome = true ∨ c = ':' ∨ c = '.' := by
  have hne : side ≠ [] := List.ne_nil_of_mem hc
  have hfield : c = ':' ∨ ∃ f ∈ splitGroups side, c ∈ f := by
    rw [splitGroups, if_neg hne]
    exact mem_splitOn hc
  rcases hfield with hcolon | ⟨f, hf, hc⟩
  · exact Or.inr (Or.inl hcolon)
  · rcases fields_of_groupWidth h with ⟨hfields, -⟩ | ⟨init, q, heq, hinit, hq, -⟩
    · exact Or.inl ((isHexGroup_iff.mp (hfields f hf)).2.2 c hc)
    · rw [heq] at hf
      rcases List.mem_append.mp hf with hf | hf
      · exact Or.inl ((isHexGroup_iff.mp (hinit f hf)).2.2 c hc)
      · rw [List.mem_singleton.mp hf] at hc
        exact (mem_of_isIPv4 hq hc).imp hexDigit_isSome_of_isDigit Or.inr

theorem mem_of_isIPv6 {s : List Char} (h : IsIPv6 s) {c : Char} (hc : c ∈ s) :
    (hexDigit c).isSome = true ∨ c = ':' ∨ c = '.' := by
  rcases sides_of_isIPv6 h with ⟨-, hw⟩ | ⟨left, right, w, -, rfl, hleft, hw, -⟩
  · exact mem_of_groupWidth hw hc
  · simp only [List.mem_append, List.mem_cons] at hc
    rcases hc with hc | rfl | rfl | hc
    · have hfield : c = ':' ∨ ∃ f ∈ splitGroups left, c ∈ f := by
        rw [splitGroups, if_neg (List.ne_nil_of_mem hc)]
        exact mem_splitOn hc
      rcases hfield with hcolon | ⟨f, hf, hc⟩
      · exact Or.inr (Or.inl hcolon)
      · exact Or.inl ((isHexGroup_iff.mp (hleft f hf)).2.2 c hc)
    · exact Or.inr (Or.inl rfl)
    · exact Or.inr (Or.inl rfl)
    · exact mem_of_groupWidth hw hc

/-- The first two fields and groups of an IPv6 address. -/
inductive Heads (s : List Char) : Prop where
  | zeros (rest : List Char) (gs : List ℕ) (hs : s = ':' :: ':' :: rest) (hg : groups s = 0 :: gs)
  | one (f rest : List Char) (gs : List ℕ) (hf : isHexGroup f = true)
    (hs : s = f ++ ':' :: ':' :: rest) (hg : groups s = hexadecimal f :: 0 :: gs)
  | two (f f' rest : List Char) (gs : List ℕ) (hf : isHexGroup f = true)
    (hf' : isHexGroup f' = true) (hs : s = f ++ ':' :: (f' ++ ':' :: rest))
    (hg : groups s = hexadecimal f :: hexadecimal f' :: gs)

theorem heads_of_isIPv6 {s : List Char} (h : IsIPv6 s) : Heads s := by
  rcases sides_of_isIPv6 h with ⟨heq, hw⟩ | ⟨left, right, w, heq, hs, hleft, hw, hle⟩
  · have hgroups : groups s = (splitGroups s).flatMap fieldGroups := by
      rw [groups, heq, sideGroups]
    have hne : s ≠ [] := by
      rintro rfl
      cases hw
    have hjoin : [':'].intercalate (splitGroups s) = s := by
      rw [splitGroups, if_neg hne, List.intercalate_splitOn]
    obtain ⟨f, f', f'', more, hfields, hf, hf'⟩ : ∃ f f' f'' more,
        splitGroups s = f :: f' :: f'' :: more ∧ isHexGroup f = true ∧ isHexGroup f' = true := by
      generalize splitGroups s = fields at hw
      rcases fields_of_groupWidth hw with ⟨hfields, hlen⟩ | ⟨init, q, rfl, hinit, -, hlen⟩
      · match fields, hfields, hlen with
        | f :: f' :: f'' :: more, hfields, _ =>
          exact ⟨f, f', f'', more, rfl, hfields f (by simp), hfields f' (by simp)⟩
      · match init, hinit, hlen with
        | f :: f' :: f'' :: more, hinit, _ =>
          exact ⟨f, f', f'', more ++ [q], rfl, hinit f (by simp), hinit f' (by simp)⟩
    rw [hfields, List.intercalate_cons_cons, List.intercalate_cons_cons] at hjoin
    rw [hfields, List.flatMap_cons, List.flatMap_cons, fieldGroups_of_isHexGroup hf,
      fieldGroups_of_isHexGroup hf'] at hgroups
    refine .two f f' ([':'].intercalate (f'' :: more)) _ hf hf' ?_ hgroups
    rw [← hjoin, List.append_assoc, List.append_assoc]
    rfl
  · have hgroups : groups s = (splitGroups left).map hexadecimal ++
        (List.replicate (8 - (splitGroups left).length - w) 0 ++ sideGroups right) := by
      have hlen : (sideGroups right).length = w := (groups_of_groupWidth hw).1
      rw [groups, heq]
      simp only [sideGroups, flatMap_fieldGroups hleft, List.length_map,
        List.append_assoc] at hlen ⊢
      rw [hlen]
    obtain ⟨n, hn⟩ : ∃ n, 8 - (splitGroups left).length - w = n + 1 :=
      ⟨7 - (splitGroups left).length - w, by omega⟩
    rw [hn, List.replicate_succ] at hgroups
    by_cases hne : left = []
    · subst hne
      exact .zeros right _ hs hgroups
    · have hjoin : [':'].intercalate (splitGroups left) = left := by
        rw [splitGroups, if_neg hne, List.intercalate_splitOn]
      match hfields : splitGroups left with
      | [] =>
        rw [hfields] at hjoin
        exact absurd hjoin.symm hne
      | [f] =>
        rw [hfields] at hleft hgroups
        rw [hfields, List.intercalate_singleton] at hjoin
        rw [← hjoin] at hs
        exact .one f right _ (hleft f (List.mem_singleton_self f)) hs hgroups
      | f :: f' :: more =>
        rw [hfields] at hleft hgroups
        rw [hfields, List.intercalate_cons_cons] at hjoin
        obtain ⟨rest, hrest⟩ : ∃ rest, [':'].intercalate (f' :: more) ++ ':' :: ':' :: right =
            f' ++ ':' :: rest := by
          cases more with
          | nil => exact ⟨':' :: right, by rw [List.intercalate_singleton]⟩
          | cons f'' more =>
            rw [List.intercalate_cons_cons, List.append_assoc, List.append_assoc]
            exact ⟨_, rfl⟩
        refine .two f f' rest _ (hleft f (by simp)) (hleft f' (by simp)) ?_ hgroups
        rw [hs, ← hjoin, List.append_assoc, List.append_assoc, hrest]
        rfl

theorem ipv6Value_div_first {s : List Char} (h : IsIPv6 s) {g : ℕ} {gs : List ℕ}
    (hg : groups s = g :: gs) : ipv6Value s / 2 ^ 112 = g := by
  obtain ⟨hlen, hlt⟩ := length_groups h
  rw [hg] at hlen hlt
  have hgs : gs.length = 7 := by simpa using hlen
  have hdiv := value_append_div (b := 2 ^ 16) (by decide) [g] (m := gs)
    fun d hd ↦ hlt d (List.mem_cons_of_mem g hd)
  rw [hgs, ← pow_mul, value_singleton] at hdiv
  rw [ipv6Value, hg]
  exact hdiv

theorem ipv6Value_div_second {s : List Char} (h : IsIPv6 s) {g g' : ℕ} {gs : List ℕ}
    (hg : groups s = g :: g' :: gs) : ipv6Value s / 2 ^ 96 = g * 2 ^ 16 + g' := by
  obtain ⟨hlen, hlt⟩ := length_groups h
  rw [hg] at hlen hlt
  have hgs : gs.length = 6 := by simpa using hlen
  have hdiv := value_append_div (b := 2 ^ 16) (by decide) [g, g'] (m := gs)
    fun d hd ↦ hlt d (List.mem_cons_of_mem g (List.mem_cons_of_mem g' hd))
  rw [hgs, ← pow_mul, value_cons, value_singleton, List.length_singleton, pow_one] at hdiv
  rw [ipv6Value, hg]
  exact hdiv

theorem splitDoubleColon_mapped {q : List Char} (h : IsIPv6 ("::ffff:".toList ++ q)) :
    splitDoubleColon ("::ffff:".toList ++ q) = [[], "ffff".toList ++ ':' :: q] := by
  have hfirst : splitDoubleColon ("::ffff:".toList ++ q) =
      [] :: splitDoubleColon ("ffff".toList ++ ':' :: q) := rfl
  have hjoin := intercalate_splitDoubleColon ("ffff".toList ++ ':' :: q)
  rcases sides_of_isIPv6 h with ⟨heq, -⟩ | ⟨left, right, w, heq, -, -, -, -⟩
  · rw [hfirst] at heq
    exact absurd (List.cons.inj heq).2 (splitDoubleColon_ne_nil _)
  · rw [hfirst] at heq
    rw [(List.cons.inj heq).2, List.intercalate_singleton] at hjoin
    rw [hfirst, (List.cons.inj heq).2, hjoin]

theorem splitGroups_mapped {q : List Char} (hcolon : ':' ∉ q) :
    splitGroups ("ffff".toList ++ ':' :: q) = ["ffff".toList, q] := by
  rw [splitGroups, if_neg (by simp), List.splitOn_append_cons_self_of_not_mem (by decide),
    List.splitOn_eq_singleton hcolon]

theorem ipv6Value_mapped {q : List Char} (h : IsIPv6 ("::ffff:".toList ++ q))
    (hq : isIPv4 q = true) : ipv6Value ("::ffff:".toList ++ q) = 0xffff * 2 ^ 32 + ipv4Value q := by
  have hcolon := colon_notMem_of_isIPv4 hq
  have hright : sideGroups ("ffff".toList ++ ':' :: q) =
      [0xffff, ipv4Value q / 2 ^ 16, ipv4Value q % 2 ^ 16] := by
    have hffff : fieldGroups "ffff".toList = [0xffff] := by decide
    rw [sideGroups, splitGroups_mapped hcolon, List.flatMap_cons, hffff, List.flatMap_singleton,
      fieldGroups,
      if_pos hq]
    rfl
  have hgroups : groups ("::ffff:".toList ++ q) =
      [0, 0, 0, 0, 0, 0xffff, ipv4Value q / 2 ^ 16, ipv4Value q % 2 ^ 16] := by
    rw [groups, splitDoubleColon_mapped h]
    simp only [hright]
    rfl
  have hlt := ipv4Value_lt hq
  rw [ipv6Value, hgroups]
  simp only [value_cons, value_nil, List.length_cons, List.length_nil]
  omega

/-! ## Letter case -/

theorem ofNat_of_lt_or_le (c : Char) : (∃ n < 128, c = Char.ofNat n) ∨ 128 ≤ c.toNat := by
  rcases Nat.lt_or_ge c.toNat 128 with h | h
  · exact Or.inl ⟨c.toNat, h, (Char.ofNat_toNat c).symm⟩
  · exact Or.inr h

theorem lowerChar_of_le {c : Char} (h : 128 ≤ c.toNat) : lowerChar c = c ∨ lowerChar c = 'k' := by
  rw [lowerChar]
  split
  · exact Or.inr rfl
  · refine Or.inl (dif_neg fun hupper ↦ ?_)
    have hle : c.toNat ≤ 'Z'.toNat := hupper.2
    exact absurd (h.trans hle) (by decide)

theorem hexDigit_of_le {c : Char} (h : 128 ≤ c.toNat) : hexDigit c = none := by
  have hrange : ∀ {hi : Char}, hi.toNat < 128 → ¬c ≤ hi :=
    fun hhi hle ↦ absurd (h.trans (show c.toNat ≤ _ from hle)) (Nat.not_le.mpr hhi)
  rw [hexDigit, if_neg fun hc ↦ hrange (by decide) hc.2, if_neg fun hc ↦ hrange (by decide) hc.2,
    if_neg fun hc ↦ hrange (by decide) hc.2]

theorem hexDigit_lowerChar (c : Char) : hexDigit (lowerChar c) = hexDigit c := by
  have hascii : ∀ n < 128, hexDigit (lowerChar (Char.ofNat n)) = hexDigit (Char.ofNat n) := by
    decide
  rcases ofNat_of_lt_or_le c with ⟨n, hn, rfl⟩ | h
  · exact hascii n hn
  · rcases lowerChar_of_le h with heq | heq
    · rw [heq]
    · rw [heq, hexDigit_of_le h]
      rfl

theorem lowerChar_eq_or (c : Char) : lowerChar c = c ∨ 'a'.toNat ≤ (lowerChar c).toNat := by
  have hascii : ∀ n < 128, lowerChar (Char.ofNat n) = Char.ofNat n ∨
      'a'.toNat ≤ (lowerChar (Char.ofNat n)).toNat := by
    decide
  rcases ofNat_of_lt_or_le c with ⟨n, hn, rfl⟩ | h
  · exact hascii n hn
  · exact (lowerChar_of_le h).imp_right fun heq ↦ by rw [heq]; decide

/-- Separators and digits stay and nothing becomes one. -/
theorem lowerChar_eq_iff {c d : Char} (hd : d.toNat < 'a'.toNat) (hfix : lowerChar d = d) :
    lowerChar c = d ↔ c = d := by
  constructor
  · intro h
    rcases lowerChar_eq_or c with heq | hle
    · exact heq.symm.trans h
    · rw [h] at hle
      exact absurd hle (Nat.not_le.mpr hd)
  · rintro rfl
    exact hfix

def lower (s : List Char) : List Char := s.map lowerChar

theorem lowerChar_lowerChar (c : Char) : lowerChar (lowerChar c) = lowerChar c := by
  have hascii : ∀ n < 128, lowerChar (lowerChar (Char.ofNat n)) = lowerChar (Char.ofNat n) := by
    decide
  rcases ofNat_of_lt_or_le c with ⟨n, hn, rfl⟩ | h
  · exact hascii n hn
  · rcases lowerChar_of_le h with heq | heq
    · rw [heq, heq]
    · rw [heq]
      decide

theorem eq_digitChar {c : Char} (hhex : (hexDigit c).isSome = true) (hlower : lowerChar c = c) :
    c = Nat.digitChar ((hexDigit c).getD 0) := by
  have hascii : ∀ n < 128, (hexDigit (Char.ofNat n)).isSome = true →
      lowerChar (Char.ofNat n) = Char.ofNat n →
      Char.ofNat n = Nat.digitChar ((hexDigit (Char.ofNat n)).getD 0) := by
    decide
  rcases ofNat_of_lt_or_le c with ⟨n, hn, rfl⟩ | h
  · exact hascii n hn hhex hlower
  · rw [hexDigit_of_le h] at hhex
    cases hhex

theorem map_splitOn {f : Char → Char} {sep : Char} (hf : ∀ c, f c = sep ↔ c = sep)
    (s : List Char) : (s.map f).splitOn sep = (s.splitOn sep).map (List.map f) := by
  induction s with
  | nil => rfl
  | cons c s ih =>
    rw [List.map_cons, List.splitOn_cons_eq_if_modifyHead, List.splitOn_cons_eq_if_modifyHead, ih]
    by_cases hc : c = sep
    · rw [if_pos (beq_iff_eq.mpr hc), if_pos (beq_iff_eq.mpr ((hf c).mpr hc))]
      rfl
    · have hc' : ¬f c = sep := fun h ↦ hc ((hf c).mp h)
      rw [if_neg (fun h ↦ hc (beq_iff_eq.mp h)), if_neg (fun h ↦ hc' (beq_iff_eq.mp h))]
      cases s.splitOn sep with
      | nil => rfl
      | cons head tail => rfl

theorem lowerChar_colon (c : Char) : lowerChar c = ':' ↔ c = ':' :=
  lowerChar_eq_iff (by decide) (by decide)

theorem splitDoubleColon_lower (s : List Char) :
    splitDoubleColon (lower s) = (splitDoubleColon s).map lower := by
  fun_induction splitDoubleColon s with
  | case1 rest ih =>
    change splitDoubleColon (lowerChar ':' :: lowerChar ':' :: lower rest) = _
    rw [(lowerChar_colon ':').mpr rfl, splitDoubleColon, ih]
    rfl
  | case2 c rest hc head tail heq ih =>
    have hnot : ∀ rest', lowerChar c = ':' → lower rest = ':' :: rest' → False := by
      intro rest' hcolon hrest
      obtain ⟨d, rest'', rfl, hd, -⟩ := List.map_eq_cons_iff.mp hrest
      exact hc rest'' ((lowerChar_colon c).mp hcolon) (by rw [(lowerChar_colon d).mp hd])
    change splitDoubleColon (lowerChar c :: lower rest) = _
    rw [splitDoubleColon, ih, heq]
    · rfl
    · exact hnot
  | case3 c rest _ heq ih => exact absurd heq (splitDoubleColon_ne_nil rest)
  | case4 => rfl

theorem splitGroups_lower (s : List Char) : splitGroups (lower s) = (splitGroups s).map lower := by
  rw [splitGroups, splitGroups]
  by_cases hs : s = []
  · rw [if_pos hs, hs]
    rfl
  · have hs' : lower s ≠ [] := fun h ↦ hs (List.map_eq_nil_iff.mp h)
    rw [if_neg hs, if_neg hs']
    exact map_splitOn lowerChar_colon s

theorem lower_of_isIPv4 {s : List Char} (h : isIPv4 s = true) : lower s = s := by
  have hascii : ∀ n < 128, (Char.ofNat n).isDigit = true →
      lowerChar (Char.ofNat n) = Char.ofNat n := by
    decide
  refine (List.map_congr_left fun c hc ↦ ?_).trans (List.map_id s)
  rcases mem_of_isIPv4 h hc with hdigit | rfl
  · rcases ofNat_of_lt_or_le c with ⟨n, hn, rfl⟩ | hle
    · exact hascii n hn hdigit
    · exact absurd (hle.trans (toNat_of_isDigit hdigit).2) (by decide)
  · decide

theorem isIPv4_lower (s : List Char) : isIPv4 (lower s) = isIPv4 s := by
  rw [Bool.eq_iff_iff]
  constructor
  · intro h
    have heq : lower s = s := by
      refine (List.map_congr_left fun c hc ↦ ?_).trans (List.map_id s)
      refine (lowerChar_eq_or c).resolve_right fun hle ↦ ?_
      rcases mem_of_isIPv4 h (List.mem_map_of_mem hc) with hdigit | hdot
      · exact absurd (hle.trans (toNat_of_isDigit hdigit).2) (by decide)
      · rw [hdot] at hle
        exact absurd hle (by decide)
    rw [heq] at h
    exact h
  · intro h
    rw [lower_of_isIPv4 h]
    exact h

theorem hexadecimal_lower (s : List Char) : hexadecimal (lower s) = hexadecimal s := by
  rw [hexadecimal, lower, List.map_map]
  exact congrArg (value 16) (List.map_congr_left fun c _ ↦ by
    rw [Function.comp_apply, hexDigit_lowerChar])

theorem isHexGroup_lower (s : List Char) : isHexGroup (lower s) = isHexGroup s := by
  rw [isHexGroup, isHexGroup, lower, List.length_map, List.all_map]
  refine congrArg _ (congrArg s.all (funext fun c ↦ ?_))
  rw [Function.comp_apply, hexDigit_lowerChar]

theorem groupWidth_lower (fields : List (List Char)) :
    groupWidth (fields.map lower) = groupWidth fields := by
  have hall : (fields.map lower).dropLast.all isHexGroup = fields.dropLast.all isHexGroup := by
    rw [← List.map_dropLast, List.all_map]
    exact congrArg fields.dropLast.all (funext isHexGroup_lower)
  rw [groupWidth, groupWidth, List.getLast?_map, hall, List.length_map]
  cases fields.getLast? with
  | none => rfl
  | some last => simp only [Option.map_some, isHexGroup_lower, isIPv4_lower]

theorem sideGroups_lower (side : List Char) : sideGroups (lower side) = sideGroups side := by
  rw [sideGroups, splitGroups_lower, List.flatMap_map, sideGroups]
  refine List.flatMap_congr fun f _ ↦ ?_
  rw [fieldGroups, fieldGroups, isIPv4_lower, hexadecimal_lower]
  split
  case isTrue h => rw [lower_of_isIPv4 h]
  · rfl

theorem lowerChar_of_mem_lower (s : List Char) : ∀ c ∈ lower s, lowerChar c = c := by
  intro c hc
  obtain ⟨d, -, rfl⟩ := List.mem_map.mp hc
  exact lowerChar_lowerChar d

theorem groups_lower (s : List Char) : groups (lower s) = groups s := by
  rw [groups, splitDoubleColon_lower, groups]
  match splitDoubleColon s with
  | [left, right] => simp only [List.map_cons, List.map_nil, sideGroups_lower]
  | [] | [_] | _ :: _ :: _ :: _ => exact sideGroups_lower s

theorem ipv6Value_lower (s : List Char) : ipv6Value (lower s) = ipv6Value s := by
  rw [ipv6Value, groups_lower, ipv6Value]

theorem IsIPv6.lower {s : List Char} (h : IsIPv6 s) : IsIPv6 (lower s) := by
  have hzone : '%' ∉ IpText.lower s := by
    intro hc
    obtain ⟨c, hc, heq⟩ := List.mem_map.mp hc
    exact h.2 ((lowerChar_eq_iff (by decide) (by decide)).mp heq ▸ hc)
  have htake : ∀ {t : List Char}, '%' ∉ t → t.takeWhile (· ≠ '%') = t ∧
      t.dropWhile (· ≠ '%') = [] := by
    intro t ht
    have hall : ∀ c ∈ t, decide (c ≠ '%') = true := fun c hc ↦
      decide_eq_true fun heq ↦ ht (heq ▸ hc)
    exact ⟨List.takeWhile_eq_self_iff.mpr hall, List.dropWhile_eq_nil_iff.mpr hall⟩
  refine ⟨?_, hzone⟩
  have hs := h.1
  rw [isIPv6, (htake h.2).1, (htake h.2).2] at hs
  rw [isIPv6, (htake hzone).1, (htake hzone).2, splitDoubleColon_lower]
  match splitDoubleColon s, hs with
  | [all], hs =>
    simpa only [List.map_cons, List.map_nil, splitGroups_lower, groupWidth_lower] using hs
  | [left, right], hs =>
    simpa only [List.map_cons, List.map_nil, splitGroups_lower, groupWidth_lower, List.all_map,
      List.length_map, Function.comp_def, isHexGroup_lower] using hs

end StellarDonations.IpText
