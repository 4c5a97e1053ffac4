import StellarDonations.Auth.IpText

/-!
# What an IP allowlist admits

`isIpAllowed` against the addresses themselves. Ranges are compared by numbers and IPv4 addresses
have one spelling, but an exact entry for an IPv6 address admits only the spelling it is given in.
A range is compared right where its texts are read right: an IPv4-mapped address is recognized as
such in the form `::ffff:` with a dotted quad only, a dotted quad behind anything else is taken for
one hexadecimal group, and of a range of mapped addresses the last 32 bits of the prefix are meant.

So the verdict is right where an entry that is read right admits the client in its own spelling or
by its range, and otherwise only where the misread ranges happen to make up for it
(`isIpAllowed_exact_iff`).
-/

namespace StellarDonations.IpMatching

open JsString IpAllowlist IpText Positional

/-! ## Addresses and entries -/

inductive Address where
  | v4 (n : ℕ)
  | v6 (n : ℕ)
  deriving DecidableEq

def IsAddress (s : List Char) : Prop := isIPv4 s = true ∨ IsIPv6 s

/-- The number is that of an IPv4-mapped address. -/
def Mapped (v : ℕ) : Prop := v / 2 ^ 32 = 0xffff

instance (v : ℕ) : Decidable (Mapped v) := inferInstanceAs (Decidable (_ = _))

/-- The address of a text; one that is IPv4-mapped counts as its IPv4 address. -/
def address (s : List Char) : Address :=
  if isIPv4 s then .v4 (ipv4Value s)
  else if Mapped (ipv6Value s) then .v4 (ipv6Value s % 2 ^ 32)
  else .v6 (ipv6Value s)

/-- An address lies in the range `net/bits`; a mapped range of prefix `96 + p` counts as the IPv4
range of prefix `p`. -/
def InCidr (net : List Char) (bits : ℕ) (a : Address) : Prop :=
  match a with
  | .v4 n =>
    if isIPv4 net then InRange 32 (ipv4Value net) bits n
    else Mapped (ipv6Value net) ∧ 96 ≤ bits ∧ InRange 32 (ipv6Value net % 2 ^ 32) (bits - 96) n
  | .v6 n => isIPv4 net = false ∧ ¬(Mapped (ipv6Value net) ∧ 96 ≤ bits) ∧
      InRange 128 (ipv6Value net) bits n

def IsNumber (s : List Char) : Prop := s ≠ [] ∧ ∀ c ∈ s, c.isDigit = true

def IsEntry (entry : List Char) : Prop :=
  match entry.splitOn '/' with
  | [a] => IsAddress a
  | [net, bits] => IsAddress net ∧ IsNumber bits ∧ decimal bits ≤ if isIPv4 net then 32 else 128
  | _ => False

/-- The address is that of the entry or lies in its range. -/
def Admits (entry client : List Char) : Prop :=
  match entry.splitOn '/' with
  | [a] => address a = address client
  | [net, bits] => InCidr net (decimal bits) (address client)
  | _ => False

/-! ## Texts that are read right -/

/-- The address is written `::ffff:` and a dotted quad. -/
def IsMappedText (s : List Char) : Prop := ∃ q, afterMapped s = some q ∧ isIPv4 q = true

/-- An IPv4 address, also behind `::ffff:`, or an IPv6 address without a dotted quad that is not
mapped. -/
def Plain (s : List Char) : Prop :=
  isIPv4 s = true ∨ IsMappedText s ∨ '.' ∉ s ∧ ¬Mapped (ipv6Value s)

/-- A range of such addresses; the prefix of a mapped range goes into the quad. -/
def PlainRange (entry : List Char) : Prop :=
  match entry.splitOn '/' with
  | [net, bits] => Plain net ∧ (IsMappedText net → 96 < decimal bits)
  | _ => False

/-- An exact entry, or a range that is read right, for a client that is. -/
def ReadRight (entry client : List Char) : Prop := '/' ∈ entry → Plain client ∧ PlainRange entry

/-- The entry admits the client by its range, or in its own spelling. -/
def Seen (entry client : List Char) : Prop :=
  Admits entry client ∧ ('/' ∈ entry ∨ normalizeIp entry = normalizeIp client)

/-! ## What is read -/

/-- What is read of a field: of a dotted quad the first octet, as a hexadecimal number. -/
def readGroup (g : List Char) : ℕ := hexadecimal (g.takeWhile (· ≠ '.'))

/-- The number that is read of an IPv6 address. A dotted quad counts as one group, so without a
`::` there is a zero group too many at the end. -/
def readValue (s : List Char) : ℕ :=
  let left := splitGroups ((splitDoubleColon s)[0]?.getD [])
  let right := splitGroups ((splitDoubleColon s)[1]?.getD [])
  value (2 ^ 16) (left.map readGroup ++ List.replicate (8 - left.length - right.length) 0 ++
    right.map readGroup)

/-- The prefix that is read of an IPv4 range: shift counts are taken modulo 32. -/
def readPrefix (bits : ℕ) : ℕ := if bits = 0 then 0 else (bits - 1) % 32 + 1

/-- The client lies in the range `net/bits`, as the texts are read. -/
def ReadIn (net : List Char) (bits : ℕ) (client : List Char) : Prop :=
  if isIPv4 (normalizeIp client) then
    isIPv4 (normalizeIp net) = true ∧
      InRange 32 (ipv4Value (normalizeIp net)) (readPrefix bits) (ipv4Value (normalizeIp client))
  else isIPv4 (normalizeIp net) = false ∧ InRange 128 (readValue net) bits (readValue client)

/-- The entry is a range that takes the client in, as the texts are read. -/
def TakesIn (entry client : List Char) : Prop :=
  match entry.splitOn '/' with
  | [net, bits] => ReadIn net (decimal bits) client
  | _ => False

/-- The list admits the client exactly if one of its entries does. -/
def Exact (clientIp : String) (allowedIps : List String) : Prop :=
  ∃ b, isIpAllowed (some clientIp) (some allowedIps) = .ok b ∧
    (b = true ↔ ∃ entry ∈ allowedIps, Admits entry.toList clientIp.toList)

/-! ## Normal forms -/

/-- What a plain text is reduced to, and the address it stands for. -/
inductive Reduced (s : List Char) : Prop where
  | v4 (h : isIPv4 (normalizeIp s) = true) (hs : address s = .v4 (ipv4Value (normalizeIp s)))
  | v6 (h : normalizeIp s = s) (hs : address s = .v6 (ipv6Value s)) (h6 : IsIPv6 s) (hdot : '.' ∉ s)

theorem normalizeIp_of_afterMapped {s q : List Char} (h : afterMapped s = some q)
    (hq : isIPv4 q = true) : normalizeIp s = q := by
  obtain ⟨hlen, hoctets⟩ := isIPv4_iff.mp hq
  have hall : (q.splitOn '.').all (fun f ↦ f ≠ [] && f.all Char.isDigit) = true := by
    rw [List.all_eq_true]
    intro o ho
    rw [Bool.and_eq_true, decide_eq_true_iff, List.all_eq_true]
    exact ⟨ne_nil_of_isOctet (hoctets o ho), isDigit_of_isOctet (hoctets o ho)⟩
  simp only [normalizeIp, h, hlen, hall, decide_true, Bool.and_self, if_true]

theorem normalizeIp_of_dot {s : List Char} (h : '.' ∉ s) : normalizeIp s = s := by
  rw [normalizeIp]
  cases hafter : afterMapped s with
  | none => rfl
  | some rest =>
    have hrest : '.' ∉ rest := by
      rw [afterMapped] at hafter
      split at hafter
      · obtain rfl := Option.some.inj hafter
        exact fun hmem ↦ h (List.mem_of_mem_drop hmem)
      · cases hafter
    simp only [List.splitOn_eq_singleton hrest, List.length_singleton]
    rfl

theorem afterMapped_of_isIPv4 {s : List Char} (h : isIPv4 s = true) : afterMapped s = none := by
  have hascii : ∀ n < 128, (Char.ofNat n).isDigit = true → (Char.ofNat n).toLower ≠ ':' := by
    decide
  refine if_neg fun heq ↦ ?_
  cases s with
  | nil => cases heq
  | cons c s =>
    have hc : c.toLower = ':' := (List.cons.inj heq).1
    rcases mem_of_isIPv4 h List.mem_cons_self with hdigit | rfl
    · rcases ofNat_of_lt_or_le c with ⟨n, hn, rfl⟩ | hle
      · exact hascii n hn hdigit hc
      · exact absurd (hle.trans (toNat_of_isDigit hdigit).2) (by decide)
    · cases hc

theorem normalizeIp_of_isIPv4 {s : List Char} (h : isIPv4 s = true) : normalizeIp s = s := by
  rw [normalizeIp, afterMapped_of_isIPv4 h]

theorem lower_of_afterMapped {s q : List Char} (h : afterMapped s = some q) :
    lower s = "::ffff:".toList ++ lower q := by
  rw [afterMapped] at h
  split at h
  case isTrue heq =>
    have htake : (s.take 7).map lowerChar = "::ffff:".toList := by
      rw [← heq]
      refine List.map_congr_left fun c hc ↦ ?_
      have hmem : c.toLower ∈ "::ffff:".toList := heq ▸ List.mem_map_of_mem hc
      refine if_neg fun hkelvin ↦ ?_
      obtain rfl : Char.ofNat 0x212A = c := hkelvin ▸ Char.ofNat_toNat c
      exact absurd hmem (by decide)
    obtain rfl := Option.some.inj h
    rw [lower, lower, ← htake, ← List.map_append, List.take_append_drop]
  · cases h

theorem isIPv4_of_afterMapped {s q : List Char} (hs : IsIPv6 s) (h : afterMapped s = some q)
    (hcolon : ':' ∉ q) (hdot : '.' ∈ q) : isIPv4 q = true := by
  have hmapped := hs.lower
  rw [lower_of_afterMapped h] at hmapped
  have hcolon' : ':' ∉ lower q := by
    intro hmem
    obtain ⟨c, hc, heq⟩ := List.mem_map.mp hmem
    exact hcolon ((lowerChar_colon c).mp heq ▸ hc)
  have hdot' : '.' ∈ lower q := by
    have hfix : lowerChar '.' = '.' := by decide
    exact hfix ▸ List.mem_map_of_mem hdot
  rw [← isIPv4_lower]
  have hwidth : ∃ w, groupWidth ["ffff".toList, lower q] = some w := by
    rw [← splitGroups_mapped hcolon']
    have hsplit := splitDoubleColon_mapped hmapped
    rcases sides_of_isIPv6 hmapped with ⟨heq, -⟩ | ⟨left, right, w, heq, -, -, hw, -⟩
    · cases hsplit.symm.trans heq
    · obtain ⟨-, hright⟩ := List.cons.inj (hsplit.symm.trans heq)
      exact ⟨w, (List.cons.inj hright).1 ▸ hw⟩
  obtain ⟨w, hw⟩ := hwidth
  rcases fields_of_groupWidth hw with ⟨hfields, -⟩ | ⟨init, last, heq, -, hlast, -⟩
  · exact absurd hdot' (notMem_of_isHexGroup (hfields _ (by simp)) rfl)
  · have hlast' : (init ++ [last]).getLast? = some (lower q) := heq ▸ rfl
    rw [List.getLast?_concat] at hlast'
    rw [← Option.some.inj hlast']
    exact hlast

/-- What an address is reduced to: an IPv4 address, or itself. -/
theorem normalForm {s : List Char} (h : IsAddress s) :
    isIPv4 (normalizeIp s) = true ∨ normalizeIp s = s ∧ IsIPv6 s ∧ isIPv4 s = false := by
  cases h4 : isIPv4 s with
  | true => exact .inl (by rw [normalizeIp_of_isIPv4 h4, h4])
  | false =>
    have h6 : IsIPv6 s := h.resolve_left (by rw [h4]; exact Bool.false_ne_true)
    by_cases hsame : normalizeIp s = s
    · exact .inr ⟨hsame, h6, rfl⟩
    · left
      unfold normalizeIp at hsame ⊢
      cases hafter : afterMapped s with
      | none =>
        rw [hafter] at hsame
        exact absurd rfl hsame
      | some rest =>
        rw [hafter] at hsame
        simp only at hsame ⊢
        split at hsame
        case isFalse => exact absurd rfl hsame
        case isTrue hfields =>
          rw [if_pos hfields]
          rw [Bool.and_eq_true, decide_eq_true_iff, List.all_eq_true] at hfields
          have hdot : '.' ∈ rest := by
            by_contra hdot
            have hlen := hfields.1
            rw [List.splitOn_eq_singleton hdot] at hlen
            cases hlen
          refine isIPv4_of_afterMapped h6 hafter (fun hmem ↦ ?_) hdot
          -- all its fields are digits
          have hsplit : ':' = '.' ∨ ∃ f ∈ rest.splitOn '.', ':' ∈ f := mem_splitOn hmem
          rcases hsplit with heq | ⟨f, hf, hc⟩
          · cases heq
          · have hdigits := hfields.2 f hf
            rw [Bool.and_eq_true, List.all_eq_true] at hdigits
            cases hdigits.2 ':' hc

theorem reduced_of_plain {s : List Char} (h : IsAddress s) (hplain : Plain s) : Reduced s := by
  by_cases h4 : isIPv4 s = true
  · refine .v4 (by rw [normalizeIp_of_isIPv4 h4]; exact h4) ?_
    rw [address, if_pos h4, normalizeIp_of_isIPv4 h4]
  · have h6 : IsIPv6 s := h.resolve_left h4
    rcases hplain with hplain | ⟨q, hq, hq4⟩ | ⟨hdot, hmapped⟩
    · exact absurd hplain h4
    · have hnorm := normalizeIp_of_afterMapped hq hq4
      have hlower : lower s = "::ffff:".toList ++ q := by
        rw [lower_of_afterMapped hq, lower_of_isIPv4 hq4]
      have hvalue : ipv6Value s = 0xffff * 2 ^ 32 + ipv4Value q := by
        have h6' := h6.lower
        rw [hlower] at h6'
        rw [← ipv6Value_lower, hlower, ipv6Value_mapped h6' hq4]
      have hlt := ipv4Value_lt hq4
      have hmapped : Mapped (ipv6Value s) := by
        rw [Mapped, hvalue]
        omega
      refine .v4 (hnorm ▸ hq4) ?_
      rw [address, if_neg h4, if_pos hmapped, hnorm, hvalue]
      exact congrArg Address.v4 (by omega)
    · refine .v6 (normalizeIp_of_dot hdot) ?_ h6 hdot
      rw [address, if_neg h4, if_neg hmapped]

/-! ## Numbers and masks -/

theorem ipv4ToInt_eq {s : List Char} (h : isIPv4 s = true) : ipv4ToInt s = ipv4Value s := by
  refine foldl_octets h fun acc o hacc ho ↦ ?_
  have hd := decimal_lt_of_isOctet ho
  have hmod : acc * 256 % 2 ^ 32 = 2 ^ 8 * acc := by omega
  rw [parseDigits_of_digits (isDigit_of_isOctet ho) (ne_nil_of_isOctet ho), hmod]
  exact (Nat.two_pow_add_eq_or_of_lt (i := 8) hd acc).symm

def IsField (f : List Char) : Prop := isHexGroup f = true ∨ isIPv4 f = true

theorem takeWhile_hexDigit {f : List Char} (h : ∀ c ∈ f, (hexDigit c).isSome = true ∨ c = '.') :
    f.takeWhile (fun c ↦ (hexDigit c).any (· < 16)) = f.takeWhile (· ≠ '.') := by
  induction f with
  | nil => rfl
  | cons c f ih =>
    obtain ⟨hc, hf⟩ := List.forall_mem_cons.mp h
    have heq : (hexDigit c).any (· < 16) = decide (c ≠ '.') := by
      rcases hc with hc | rfl
      · obtain ⟨n, hn⟩ := Option.isSome_iff_exists.mp hc
        have hne : c ≠ '.' := by
          rintro rfl
          cases hc
        rw [hn, Option.any_some, decide_eq_true (hexDigit_lt hn), decide_eq_true hne]
      · rfl
    rw [List.takeWhile_cons, List.takeWhile_cons, heq, ih hf]

theorem mem_of_isField {f : List Char} (h : IsField f) :
    ∀ c ∈ f, (hexDigit c).isSome = true ∨ c = '.' := by
  intro c hc
  rcases h with h | h
  · exact .inl ((isHexGroup_iff.mp h).2.2 c hc)
  · exact (mem_of_isIPv4 h hc).imp_left hexDigit_isSome_of_isDigit

theorem takeWhile_of_isHexGroup {g : List Char} (h : isHexGroup g = true) :
    g.takeWhile (· ≠ '.') = g :=
  List.takeWhile_eq_self_iff.mpr fun _ hc ↦ decide_eq_true fun heq ↦
    notMem_of_isHexGroup h (c := '.') rfl (heq ▸ hc)

theorem takeWhile_of_isIPv4 {q : List Char} (h : isIPv4 q = true) :
    ∃ o, isOctet o = true ∧ q.takeWhile (· ≠ '.') = o := by
  obtain ⟨hlen, hoctets⟩ := isIPv4_iff.mp h
  match hsplit : q.splitOn '.' with
  | [] | [_] =>
    rw [hsplit] at hlen
    cases hlen
  | o :: o' :: more =>
    rw [hsplit] at hoctets
    have ho := hoctets o List.mem_cons_self
    refine ⟨o, ho, ?_⟩
    have hjoin : ['.'].intercalate (q.splitOn '.') = q := List.intercalate_splitOn '.'
    rw [hsplit, List.intercalate_cons_cons] at hjoin
    have hdot : ∀ c ∈ o, decide (c ≠ '.') = true := by
      intro c hc
      refine decide_eq_true ?_
      rintro rfl
      cases isDigit_of_isOctet ho '.' hc
    rw [← hjoin, List.append_assoc, List.takeWhile_append_of_pos hdot]
    exact List.append_nil o

theorem readGroup_of_isHexGroup {g : List Char} (h : isHexGroup g = true) :
    readGroup g = hexadecimal g := by
  rw [readGroup, takeWhile_of_isHexGroup h]

theorem takeWhile_of_isField {f : List Char} (h : IsField f) :
    f.takeWhile (· ≠ '.') ≠ [] ∧ (f.takeWhile (· ≠ '.')).length ≤ 4 := by
  rcases h with h | h
  · rw [takeWhile_of_isHexGroup h]
    obtain ⟨hpos, hle, -⟩ := isHexGroup_iff.mp h
    exact ⟨List.ne_nil_of_length_pos hpos, hle⟩
  · obtain ⟨o, ho, heq⟩ := takeWhile_of_isIPv4 h
    rw [heq]
    exact ⟨ne_nil_of_isOctet ho, (length_of_isOctet ho).trans (by decide)⟩

theorem readGroup_lt {f : List Char} (h : IsField f) : readGroup f < 2 ^ 16 :=
  (hexadecimal_lt _).trans_le (Nat.pow_le_pow_right (by decide) (takeWhile_of_isField h).2)

theorem parseDigits_of_isField {f : List Char} (h : IsField f) :
    parseDigits 16 f = some (readGroup f) := by
  have hvalue : ∀ t : List Char,
      t.foldl (fun n c ↦ 16 * n + (hexDigit c).getD 0) 0 = hexadecimal t := by
    intro t
    rw [hexadecimal, ← foldl_eq_value, List.foldl_map]
  simp only [parseDigits, takeWhile_hexDigit (mem_of_isField h),
    if_neg (takeWhile_of_isField h).1, hvalue, readGroup]

theorem isHexGroup_zero : isHexGroup ['0'] = true := by decide

theorem mem_of_mem_splitOn {c sep : Char} {s f : List Char} (hf : f ∈ s.splitOn sep)
    (hc : c ∈ f) : c ∈ s := by
  induction s generalizing f with
  | nil =>
    rw [List.mem_singleton.mp hf] at hc
    cases hc
  | cons d s ih =>
    rw [List.splitOn_cons_eq_if_modifyHead] at hf
    split at hf
    · rcases List.mem_cons.mp hf with rfl | hf
      · cases hc
      · exact List.mem_cons_of_mem d (ih hf hc)
    · obtain ⟨g, fields, hfields⟩ := List.exists_cons_of_ne_nil (List.splitOn_ne_nil sep s)
      rw [hfields] at ih hf
      rcases List.mem_cons.mp hf with rfl | hf
      · rcases List.mem_cons.mp hc with rfl | hc
        · exact List.mem_cons_self
        · exact List.mem_cons_of_mem d (ih List.mem_cons_self hc)
      · exact List.mem_cons_of_mem d (ih (List.mem_cons_of_mem g hf) hc)

theorem mem_of_mem_splitGroups {c : Char} {side f : List Char} (hf : f ∈ splitGroups side)
    (hc : c ∈ f) : c ∈ side := by
  rw [splitGroups] at hf
  split at hf
  · cases hf
  · exact mem_of_mem_splitOn hf hc

theorem isHexGroup_of_groupWidth {side : List Char} {w : ℕ} (hdot : '.' ∉ side)
    (h : groupWidth (splitGroups side) = some w) :
    (∀ f ∈ splitGroups side, isHexGroup f = true) ∧ w = (splitGroups side).length := by
  rcases fields_of_groupWidth h with hfields | ⟨init, q, heq, -, hq, -⟩
  · exact hfields
  · have hmem : q ∈ splitGroups side := by
      rw [heq]
      exact List.mem_append_right init (List.mem_singleton_self q)
    exact absurd (mem_of_mem_splitGroups hmem (dot_mem_of_isIPv4 hq)) hdot

theorem isField_of_groupWidth {fields : List (List Char)} {w : ℕ} (h : groupWidth fields = some w) :
    (∀ f ∈ fields, IsField f) ∧ fields.length ≤ w := by
  rcases fields_of_groupWidth h with ⟨hfields, rfl⟩ | ⟨init, q, rfl, hinit, hq, rfl⟩
  · exact ⟨fun f hf ↦ .inl (hfields f hf), le_rfl⟩
  · refine ⟨fun f hf ↦ ?_, ?_⟩
    · rcases List.mem_append.mp hf with hf | hf
      · exact .inl (hinit f hf)
      · exact .inr (List.mem_singleton.mp hf ▸ hq)
    · rw [List.length_append, List.length_singleton]
      omega

theorem fields_of_isIPv6 {s : List Char} (h : IsIPv6 s) {left right : List (List Char)}
    (hleft : left = splitGroups ((splitDoubleColon s)[0]?.getD []))
    (hright : right = splitGroups ((splitDoubleColon s)[1]?.getD [])) :
    left.length + right.length ≤ 8 ∧ (∀ f ∈ left, IsField f) ∧ ∀ f ∈ right, IsField f := by
  rcases sides_of_isIPv6 h with ⟨heq, hw⟩ | ⟨l, r, w, heq, -, hl, hw, hle⟩
  · rw [heq] at hleft hright
    subst hleft hright
    obtain ⟨hfields, hlen⟩ := isField_of_groupWidth hw
    exact ⟨hlen, hfields, nofun⟩
  · rw [heq] at hleft hright
    subst hleft hright
    obtain ⟨hfields, hlen⟩ := isField_of_groupWidth hw
    refine ⟨?_, fun f hf ↦ .inl (hl f hf), hfields⟩
    have hlen' : (splitGroups r).length ≤ w := hlen
    change (splitGroups l).length + (splitGroups r).length ≤ 8
    omega

theorem foldlM_groups {fields : List (List Char)} (h : ∀ f ∈ fields, IsField f) :
    (fields.foldlM (fun acc g ↦
      match parseDigits 16 (if g = [] then ['0'] else g) with
      | some n => .ok (acc * 2 ^ 16 ||| n)
      | none => .error (rangeError
          "The number NaN cannot be converted to a BigInt because it is not an integer")) 0 :
        Except AppError ℕ) = .ok (value (2 ^ 16) (fields.map readGroup)) := by
  rw [← foldl_eq_value, List.foldl_map]
  generalize (0 : ℕ) = acc
  induction fields generalizing acc with
  | nil => rfl
  | cons g fields ih =>
    obtain ⟨hg, hfields⟩ := List.forall_mem_cons.mp h
    have hne : g ≠ [] := by
      rintro rfl
      exact (takeWhile_of_isField hg).1 rfl
    have hor : acc * 2 ^ 16 ||| readGroup g = 2 ^ 16 * acc + readGroup g := by
      rw [mul_comm]
      exact (Nat.two_pow_add_eq_or_of_lt (readGroup_lt hg) acc).symm
    rw [List.foldlM_cons, if_neg hne, parseDigits_of_isField hg, List.foldl_cons]
    simp only [hor]
    exact ih hfields _

theorem readGroup_zero : readGroup ['0'] = 0 := by decide

theorem ipv6ToBigInt_eq {s : List Char} (h : IsIPv6 s) :
    ipv6ToBigInt s = .ok (readValue s) ∧ readValue s < 2 ^ 128 := by
  rw [ipv6ToBigInt, readValue]
  generalize hleft : splitGroups ((splitDoubleColon s)[0]?.getD []) = left
  generalize hright : splitGroups ((splitDoubleColon s)[1]?.getD []) = right
  obtain ⟨hlen, hl, hr⟩ := fields_of_isIPv6 h hleft.symm hright.symm
  have hfields : ∀ f ∈ left ++ List.replicate (8 - left.length - right.length) ['0'] ++ right,
      IsField f := by
    intro f hf
    rcases List.mem_append.mp hf with hf | hf
    · rcases List.mem_append.mp hf with hf | hf
      · exact hl f hf
      · exact .inl (List.eq_of_mem_replicate hf ▸ isHexGroup_zero)
    · exact hr f hf
  have hmap : left.map readGroup ++ List.replicate (8 - left.length - right.length) 0 ++
      right.map readGroup =
        (left ++ List.replicate (8 - left.length - right.length) ['0'] ++ right).map readGroup := by
    rw [List.map_append, List.map_append, List.map_replicate, readGroup_zero]
  simp only [hmap]
  rw [if_neg (Nat.not_lt.mpr hlen)]
  refine ⟨foldlM_groups hfields, ?_⟩
  have hlength : (left ++ List.replicate (8 - left.length - right.length) ['0'] ++
      right).length = 8 := by
    rw [List.length_append, List.length_append, List.length_replicate]
    omega
  have hlt := value_lt (b := 2 ^ 16) (by decide) (List.forall_mem_map.mpr fun f hf ↦
    readGroup_lt (hfields f hf))
  rw [List.length_map, hlength, ← pow_mul] at hlt
  exact hlt

theorem map_readGroup {fields : List (List Char)} (h : ∀ f ∈ fields, isHexGroup f = true) :
    fields.map readGroup = fields.map hexadecimal :=
  List.map_congr_left fun f hf ↦ readGroup_of_isHexGroup (h f hf)

theorem readValue_eq {s : List Char} (h : IsIPv6 s) (hdot : '.' ∉ s) :
    readValue s = ipv6Value s := by
  rcases sides_of_isIPv6 h with ⟨heq, hw⟩ | ⟨left, right, w, heq, rfl, hleft, hw, hle⟩
  · obtain ⟨hfields, hlen⟩ := isHexGroup_of_groupWidth hdot hw
    have hnil : splitGroups [] = [] := rfl
    rw [readValue, ipv6Value, groups, heq]
    simp only [List.getElem?_cons_zero, Option.getD_some, List.getElem?_cons_succ,
      List.getElem?_nil, Option.getD_none, hnil, List.length_nil, ← hlen, sideGroups,
      map_readGroup hfields, flatMap_fieldGroups hfields, List.map_nil, List.append_nil,
      Nat.reduceSub, List.replicate_zero]
  · have hdotRight : '.' ∉ right :=
      fun hmem ↦ hdot (List.mem_append_right _
        (List.mem_cons_of_mem _ (List.mem_cons_of_mem _ hmem)))
    obtain ⟨hright, rfl⟩ := isHexGroup_of_groupWidth hdotRight hw
    rw [readValue, ipv6Value, groups, heq]
    simp only [List.getElem?_cons_zero, Option.getD_some, List.getElem?_cons_succ, sideGroups,
      map_readGroup hleft, map_readGroup hright, flatMap_fieldGroups hleft,
      flatMap_fieldGroups hright, List.length_map]

/-! ## Ranges -/

theorem ipv4Mask_iff {bits net v : ℕ} (hnet : net < 2 ^ 32) (hv : v < 2 ^ 32) :
    v &&& ipv4Mask (some (bits : ℤ)) = net &&& ipv4Mask (some (bits : ℤ)) ↔
      InRange 32 net (readPrefix bits) v := by
  rw [readPrefix]
  by_cases hzero : bits = 0
  · subst hzero
    have hv' : v / 2 ^ (32 - 0) = 0 := Nat.div_eq_of_lt hv
    have hnet' : net / 2 ^ (32 - 0) = 0 := Nat.div_eq_of_lt hnet
    rw [if_pos rfl, InRange, hv', hnet']
    exact iff_of_true ((Nat.and_zero v).trans (Nat.and_zero net).symm) rfl
  · have hshift : ((32 - (bits : ℤ)) % 32).toNat = 32 - ((bits - 1) % 32 + 1) := by omega
    have hmask : ipv4Mask (some (bits : ℤ)) = 2 ^ 32 - 2 ^ (32 - ((bits - 1) % 32 + 1)) := by
      rw [ipv4Mask, hshift]
      exact fun h ↦ hzero (Int.natCast_eq_zero.mp h)
    rw [hmask, if_neg hzero, InRange]
    exact and_mask_eq_iff (Nat.sub_le 32 _) hv hnet

theorem ipv6Mask_iff {bits net v : ℕ} (hle : bits ≤ 128) (hnet : net < 2 ^ 128) (hv : v < 2 ^ 128) :
    ∃ mask, ipv6Mask (some (bits : ℤ)) = .ok mask ∧
      (v &&& mask = net &&& mask ↔ InRange 128 net bits v) := by
  rw [ipv6Mask]
  by_cases hzero : (bits : ℤ) = 0
  · obtain rfl : bits = 0 := by omega
    refine ⟨0, if_pos hzero, ?_⟩
    have hv' : v / 2 ^ (128 - 0) = 0 := Nat.div_eq_of_lt hv
    have hnet' : net / 2 ^ (128 - 0) = 0 := Nat.div_eq_of_lt hnet
    rw [InRange, hv', hnet', Nat.and_zero, Nat.and_zero]
  · have hshift : (128 - (bits : ℤ)).toNat = 128 - bits := by omega
    refine ⟨2 ^ 128 - 2 ^ (128 - bits), ?_, and_mask_eq_iff (Nat.sub_le 128 bits) hv hnet⟩
    rw [if_neg hzero, if_neg (by omega), hshift]

theorem notMem_of_isAddress {s : List Char} (h : IsAddress s) {c : Char}
    (hc : hexDigit c = none) (hcolon : c ≠ ':') (hdot : c ≠ '.') : c ∉ s := by
  intro hmem
  rcases h with h | h
  · rcases mem_of_isIPv4 h hmem with hdigit | heq
    · have hsome := hexDigit_isSome_of_isDigit hdigit
      rw [hc] at hsome
      cases hsome
    · exact hdot heq
  · rcases mem_of_isIPv6 h hmem with hsome | heq | heq
    · rw [hc] at hsome
      cases hsome
    · exact hcolon heq
    · exact hdot heq

theorem not_isIPv6_of_isIPv4 {s : List Char} (h : isIPv4 s = true) : isIPv6 s = false := by
  rw [← Bool.not_eq_true]
  intro h6
  have hzone : '%' ∉ s := by
    intro hmem
    rcases mem_of_isIPv4 h hmem with hdigit | hdot
    · cases hdigit
    · cases hdot
  have hcolon := colon_notMem_of_isIPv4 h
  rcases sides_of_isIPv6 ⟨h6, hzone⟩ with ⟨-, hw⟩ | ⟨left, right, w, -, rfl, -⟩
  · have hne : s ≠ [] := List.ne_nil_of_mem (dot_mem_of_isIPv4 h)
    rw [splitGroups, if_neg hne, List.splitOn_eq_singleton hcolon] at hw
    rcases fields_of_groupWidth hw with ⟨-, hlen⟩ | ⟨init, q, heq, -, -, hlen⟩
    · cases hlen
    · have hinit : init.length = 0 := by
        have hlen' := congrArg List.length heq
        rw [List.length_append] at hlen'
        simp only [List.length_singleton] at hlen'
        omega
      omega
  · exact hcolon (List.mem_append_right left List.mem_cons_self)

theorem normalizeIp_normalizeIp {s : List Char} (h : IsAddress s) :
    normalizeIp (normalizeIp s) = normalizeIp s := by
  rcases normalForm h with h | ⟨h, -, -⟩
  · exact normalizeIp_of_isIPv4 h
  · rw [h, h]

theorem isAddress_normalizeIp {s : List Char} (h : IsAddress s) : IsAddress (normalizeIp s) := by
  rcases normalForm h with h | ⟨h, h6, -⟩
  · exact .inl h
  · rw [h]
    exact .inr h6

theorem isInCidr_readIn {client net bits : List Char} (hclient : IsAddress client)
    (hnet : IsAddress net) (hbits : IsNumber bits) (hle : decimal bits ≤ 128) :
    ∃ b, isInCidr (normalizeIp client) (normalizeIp net ++ '/' :: bits) = .ok b ∧
      (b = true ↔ ReadIn net (decimal bits) client) := by
  have hslash : '/' ∉ bits := fun hmem ↦ by cases hbits.2 '/' hmem
  have hsplit : (normalizeIp net ++ '/' :: bits).splitOn '/' = [normalizeIp net, bits] := by
    rw [List.splitOn_append_cons_self_of_not_mem
        (notMem_of_isAddress (isAddress_normalizeIp hnet) rfl (by decide) (by decide)),
      List.splitOn_eq_singleton hslash]
  rw [isInCidr, hsplit, ReadIn]
  simp only [List.getElem?_cons_zero, Option.getD_some, List.getElem?_cons_succ, Option.bind_some,
    parseInt_of_digits hbits.2 hbits.1, normalizeIp_normalizeIp hclient,
    normalizeIp_normalizeIp hnet]
  rcases normalForm hclient with hc | ⟨hc, hc6, hc4⟩
  · rw [hc, if_pos rfl, Bool.and_true]
    rcases normalForm hnet with hn | ⟨hn, hn6, hn4⟩
    · rw [hn, if_pos rfl, ipv4ToInt_eq hn, ipv4ToInt_eq hc]
      refine ⟨_, rfl, ?_⟩
      rw [decide_eq_true_iff, and_iff_right rfl]
      exact ipv4Mask_iff (ipv4Value_lt hn) (ipv4Value_lt hc)
    · rw [hn, hn4, if_neg Bool.false_ne_true, not_isIPv6_of_isIPv4 hc, Bool.and_false,
        if_neg Bool.false_ne_true]
      exact ⟨false, rfl, iff_of_false Bool.false_ne_true fun h ↦ Bool.false_ne_true h.1⟩
  · rw [hc, hc4, if_neg Bool.false_ne_true, Bool.and_false, if_neg Bool.false_ne_true]
    rcases normalForm hnet with hn | ⟨hn, hn6, hn4⟩
    · rw [hn, not_isIPv6_of_isIPv4 hn, Bool.false_and, if_neg Bool.false_ne_true]
      exact ⟨false, rfl, iff_of_false Bool.false_ne_true fun h ↦ Bool.false_ne_true h.1.symm⟩
    · obtain ⟨hcread, hclt⟩ := ipv6ToBigInt_eq hc6
      obtain ⟨hnread, hnlt⟩ := ipv6ToBigInt_eq hn6
      obtain ⟨mask, hmask, hiff⟩ := ipv6Mask_iff hle hnlt hclt
      rw [hn, hn4, hn6.1, hc6.1, Bool.and_self, if_pos rfl, hmask, hcread, hnread]
      refine ⟨_, rfl, ?_⟩
      rw [decide_eq_true_iff, hiff, and_iff_right rfl]

theorem isMappedText_of_normalizeIp {s : List Char} (h : isIPv4 (normalizeIp s) = true)
    (hs : isIPv4 s = false) : IsMappedText s := by
  have hne : normalizeIp s ≠ s := by
    intro heq
    rw [heq, hs] at h
    cases h
  unfold normalizeIp at h hne
  cases hafter : afterMapped s with
  | none =>
    rw [hafter] at hne
    exact absurd rfl hne
  | some rest =>
    rw [hafter] at h hne
    simp only at h hne
    split at h
    · exact ⟨rest, hafter, h⟩
    case isFalse hfields => exact absurd (if_neg hfields) hne

theorem address_eq_v4 {s : List Char} {n : ℕ} (hs : isIPv4 s = false) (h : address s = .v4 n) :
    Mapped (ipv6Value s) ∧ ipv6Value s % 2 ^ 32 = n := by
  rw [address, hs, if_neg Bool.false_ne_true] at h
  split at h
  case isTrue hmapped => exact ⟨hmapped, Address.v4.inj h⟩
  · cases h

theorem address_eq_v6 {s : List Char} {n : ℕ} (h : address s = .v6 n) :
    isIPv4 s = false ∧ ¬Mapped (ipv6Value s) := by
  rw [address] at h
  split at h
  · cases h
  case isFalse h4 =>
    split at h
    · cases h
    case isFalse hmapped => exact ⟨Bool.eq_false_iff.mpr h4, hmapped⟩

theorem plain_of_normalizeIp {s : List Char} (h : isIPv4 (normalizeIp s) = true) : Plain s := by
  cases hs : isIPv4 s with
  | true => exact .inl hs
  | false => exact .inr (.inl (isMappedText_of_normalizeIp h hs))

/-- A range takes in what lies in it, where the texts are read right. -/
theorem readIn_iff_inCidr {client net : List Char} {bits : ℕ} (hclient : Reduced client)
    (hnet : Reduced net) (hplain : IsMappedText net → 96 < bits)
    (hle : bits ≤ if isIPv4 net then 32 else 128) :
    ReadIn net bits client ↔ InCidr net bits (address client) := by
  rw [ReadIn]
  rcases hnet with ⟨hn, hnaddr⟩ | ⟨hn, hnaddr, hn6, hndot⟩
  · rcases hclient with ⟨hc, hcaddr⟩ | ⟨hc, hcaddr, hc6, hcdot⟩
    · rw [hc, if_pos rfl, hn, and_iff_right rfl, hcaddr, InCidr, readPrefix]
      cases h4 : isIPv4 net with
      | true =>
        rw [h4, if_pos rfl] at hle
        have hread : (if bits = 0 then 0 else (bits - 1) % 32 + 1) = bits := by
          split_ifs <;> omega
        rw [if_pos rfl, normalizeIp_of_isIPv4 h4, hread]
      | false =>
        rw [h4, if_neg Bool.false_ne_true] at hle
        have hlow := hplain (isMappedText_of_normalizeIp hn h4)
        obtain ⟨hmapped, hvalue⟩ := address_eq_v4 h4 hnaddr
        have hread : (if bits = 0 then 0 else (bits - 1) % 32 + 1) = bits - 96 := by
          split_ifs <;> omega
        rw [if_neg Bool.false_ne_true, and_iff_right hmapped, and_iff_right hlow.le, hvalue, hread]
    · -- an IPv6 client and an IPv4 range
      rw [hc, (address_eq_v6 hcaddr).1, if_neg Bool.false_ne_true, hn, hcaddr]
      refine iff_of_false (fun h ↦ Bool.false_ne_true h.1.symm) ?_
      rintro ⟨h4, hrange, -⟩
      exact hrange ⟨(address_eq_v4 h4 hnaddr).1, (hplain (isMappedText_of_normalizeIp hn h4)).le⟩
  · obtain ⟨hn4, hnmapped⟩ := address_eq_v6 hnaddr
    rcases hclient with ⟨hc, hcaddr⟩ | ⟨hc, hcaddr, hc6, hcdot⟩
    · -- an IPv4 client and an IPv6 range
      rw [hc, if_pos rfl, hn, hn4, hcaddr, InCidr, hn4, if_neg Bool.false_ne_true]
      exact iff_of_false (fun h ↦ Bool.false_ne_true h.1) fun h ↦ hnmapped h.1
    · rw [hc, (address_eq_v6 hcaddr).1, if_neg Bool.false_ne_true, hn, hn4, and_iff_right rfl,
        readValue_eq hn6 hndot, readValue_eq hc6 hcdot, hcaddr, InCidr, and_iff_right hn4,
        and_iff_right fun h ↦ hnmapped h.1]

/-! ## Lists -/

theorem address_eq_of_normalizeIp_eq {s t : List Char} (hs : IsAddress s) (ht : IsAddress t)
    (h : normalizeIp s = normalizeIp t) : address s = address t := by
  have hv4 : ∀ {u : List Char}, IsAddress u → isIPv4 (normalizeIp u) = true →
      address u = .v4 (ipv4Value (normalizeIp u)) := by
    intro u hu hu4
    rcases reduced_of_plain hu (plain_of_normalizeIp hu4) with ⟨-, haddr⟩ | ⟨hsame, haddr, -, -⟩
    · exact haddr
    · rw [hsame, (address_eq_v6 haddr).1] at hu4
      cases hu4
  cases h4 : isIPv4 (normalizeIp s) with
  | true => rw [hv4 hs h4, hv4 ht (h ▸ h4), h]
  | false =>
    have hself : ∀ {u : List Char}, IsAddress u → isIPv4 (normalizeIp u) = false →
        normalizeIp u = u := by
      intro u hu hu4
      rcases normalForm hu with hu' | ⟨hsame, -, -⟩
      · cases hu4.symm.trans hu'
      · exact hsame
    rw [← hself hs h4, ← hself ht (h ▸ h4), h]

theorem two_le_length_splitOn {c : Char} {s : List Char} (h : c ∈ s) :
    2 ≤ (s.splitOn c).length := by
  obtain ⟨pre, post, rfl⟩ := List.append_of_mem h
  have hpre := List.length_pos_of_ne_nil (List.splitOn_ne_nil c pre)
  have hpost := List.length_pos_of_ne_nil (List.splitOn_ne_nil c post)
  rw [List.splitOn_append_cons_self, List.length_append]
  omega

/-- What the program makes of an entry: an exact one admits what is spelled like it, a range what
it takes in. -/
theorem entryAllows_iff {client entry : List Char} (hclient : IsAddress client)
    (hentry : IsEntry entry) :
    ∃ b, entryAllows (normalizeIp client) entry = .ok b ∧
      (b = true ↔ '/' ∉ entry ∧ normalizeIp entry = normalizeIp client ∨ TakesIn entry client) := by
  rw [IsEntry] at hentry
  rw [entryAllows, TakesIn]
  by_cases hslash : '/' ∈ entry
  · have hlen := two_le_length_splitOn hslash
    rw [if_pos hslash]
    match hsplit : entry.splitOn '/' with
    | [net, bits] =>
      rw [hsplit] at hentry
      obtain ⟨haddress, hbits, hle⟩ := hentry
      have hle' : decimal bits ≤ 128 := hle.trans (by split_ifs <;> decide)
      obtain ⟨b, hb, hiff⟩ := isInCidr_readIn hclient haddress hbits hle'
      refine ⟨b, hb, hiff.trans ?_⟩
      rw [or_iff_right fun h ↦ h.1 hslash]
    | [] | [_] =>
      rw [hsplit] at hlen
      simp only [List.length_cons, List.length_nil] at hlen
      omega
    | _ :: _ :: _ :: _ =>
      rw [hsplit] at hentry
      exact hentry.elim
  · rw [List.splitOn_eq_singleton hslash]
    refine ⟨_, if_neg hslash, ?_⟩
    rw [decide_eq_true_iff, and_iff_right hslash]
    exact (or_iff_left id).symm

theorem takesIn_iff_seen {client entry : List Char} (hclient : IsAddress client)
    (hentry : IsEntry entry) (hright : ReadRight entry client) :
    '/' ∉ entry ∧ normalizeIp entry = normalizeIp client ∨ TakesIn entry client ↔
      Seen entry client := by
  rw [IsEntry] at hentry
  rw [TakesIn, Seen, Admits]
  by_cases hslash : '/' ∈ entry
  · obtain ⟨hplain, hrange⟩ := hright hslash
    rw [PlainRange] at hrange
    rw [or_iff_right fun h ↦ h.1 hslash]
    match hsplit : entry.splitOn '/' with
    | [net, bits] =>
      rw [hsplit] at hentry hrange
      obtain ⟨haddress, -, hle⟩ := hentry
      have hiff := readIn_iff_inCidr (reduced_of_plain hclient hplain)
        (reduced_of_plain haddress hrange.1) hrange.2 hle
      refine hiff.trans ?_
      rw [and_iff_left (.inl hslash)]
    | [] | [_] | _ :: _ :: _ :: _ =>
      rw [hsplit] at hrange
      exact hrange.elim
  · rw [List.splitOn_eq_singleton hslash] at hentry ⊢
    simp only [hslash, not_false_eq_true, true_and, or_false, false_or]
    exact (and_iff_right_of_imp fun h ↦ address_eq_of_normalizeIp_eq hentry hclient h).symm

theorem takesIn_of_not_readRight {client entry : List Char} (h : ¬ReadRight entry client) :
    '/' ∉ entry ∧ normalizeIp entry = normalizeIp client ∨ TakesIn entry client ↔
      TakesIn entry client :=
  or_iff_right fun hexact ↦ h fun hslash ↦ absurd hslash hexact.1

theorem anyAllows_iff {client : List Char} (hclient : IsAddress client) {entries : List String}
    (hentries : ∀ e ∈ entries, IsEntry e.toList) :
    ∃ b, anyAllows (normalizeIp client) entries = .ok b ∧
      (b = true ↔ ∃ e ∈ entries, '/' ∉ e.toList ∧ normalizeIp e.toList = normalizeIp client ∨
        TakesIn e.toList client) := by
  induction entries with
  | nil => exact ⟨false, rfl, by simp⟩
  | cons e entries ih =>
    obtain ⟨hentry, hrest⟩ := List.forall_mem_cons.mp hentries
    obtain ⟨b, hb, hiff⟩ := entryAllows_iff hclient hentry
    obtain ⟨b', hb', hiff'⟩ := ih hrest
    rw [anyAllows, hb]
    cases b with
    | true => exact ⟨true, rfl, iff_of_true rfl ⟨e, List.mem_cons_self, hiff.mp rfl⟩⟩
    | false =>
      refine ⟨b', hb', hiff'.trans ?_⟩
      have hnot := mt hiff.mpr Bool.false_ne_true
      rw [List.exists_mem_cons_iff, or_iff_right hnot]

theorem ne_empty_of_isAddress {s : String} (h : IsAddress s.toList) : s ≠ "" := by
  rintro rfl
  rcases h with h | ⟨h, -⟩
  · exact absurd h (by decide)
  · exact absurd h (by decide)

theorem isIpAllowed_eq {clientIp : String} {allowedIps : List String}
    (hclient : IsAddress clientIp.toList) (hne : allowedIps ≠ [])
    (hentries : ∀ e ∈ allowedIps, IsEntry e.toList) :
    ∃ b, isIpAllowed (some clientIp) (some allowedIps) = .ok b ∧
      (b = true ↔
        (∃ e ∈ allowedIps, ReadRight e.toList clientIp.toList ∧ Seen e.toList clientIp.toList) ∨
        ∃ e ∈ allowedIps, ¬ReadRight e.toList clientIp.toList ∧
          TakesIn e.toList clientIp.toList) := by
  obtain ⟨b, hb, hiff⟩ := anyAllows_iff hclient hentries
  have hallowed : isIpAllowed (some clientIp) (some allowedIps) = .ok b := by
    obtain ⟨e, entries, rfl⟩ := List.exists_cons_of_ne_nil hne
    exact (if_neg (ne_empty_of_isAddress hclient)).trans hb
  refine ⟨b, hallowed, hiff.trans ⟨?_, ?_⟩⟩
  · rintro ⟨e, he, htaken⟩
    by_cases hright : ReadRight e.toList clientIp.toList
    · exact .inl ⟨e, he, hright, (takesIn_iff_seen hclient (hentries e he) hright).mp htaken⟩
    · exact .inr ⟨e, he, hright, (takesIn_of_not_readRight hright).mp htaken⟩
  · rintro (⟨e, he, hright, hseen⟩ | ⟨e, he, hright, htakes⟩)
    · exact ⟨e, he, (takesIn_iff_seen hclient (hentries e he) hright).mpr hseen⟩
    · exact ⟨e, he, .inr htakes⟩

/-- **When an allowlist is exact.** An entry that is read right admits the client, by its range or
in the client's spelling; or the misread ranges take the client in exactly if the list admits it. -/
theorem isIpAllowed_exact_iff {clientIp : String} {allowedIps : List String}
    (hclient : IsAddress clientIp.toList) (hne : allowedIps ≠ [])
    (hentries : ∀ e ∈ allowedIps, IsEntry e.toList) :
    Exact clientIp allowedIps ↔
      (∃ e ∈ allowedIps, ReadRight e.toList clientIp.toList ∧ Seen e.toList clientIp.toList) ∨
      ((∃ e ∈ allowedIps, ¬ReadRight e.toList clientIp.toList ∧ TakesIn e.toList clientIp.toList) ↔
        ∃ e ∈ allowedIps, Admits e.toList clientIp.toList) := by
  obtain ⟨b, hb, hiff⟩ := isIpAllowed_eq hclient hne hentries
  have hexact : Exact clientIp allowedIps ↔
      (b = true ↔ ∃ e ∈ allowedIps, Admits e.toList clientIp.toList) := by
    refine ⟨?_, fun h ↦ ⟨b, hb, h⟩⟩
    rintro ⟨b', hb', hiff'⟩
    obtain rfl : b = b' := Except.ok.inj (hb.symm.trans hb')
    exact hiff'
  rw [hexact, hiff]
  by_cases hseen : ∃ e ∈ allowedIps, ReadRight e.toList clientIp.toList ∧
      Seen e.toList clientIp.toList
  · obtain ⟨e, he, -, hadmits, -⟩ := id hseen
    exact iff_of_true (iff_of_true (.inl hseen) ⟨e, he, hadmits⟩) (.inl hseen)
  · rw [or_iff_right hseen, or_iff_right hseen]

/-- A range and, behind it, another spelling of an IPv4 address. -/
theorem exact_in_range : Exact "10.1.2.3" ["10.0.0.0/8", "::ffff:102:304"] := by
  have hentry : "10.0.0.0/8".toList.splitOn '/' = ["10.0.0.0".toList, "8".toList] := by decide
  have hother : "::ffff:102:304".toList.splitOn '/' = ["::ffff:102:304".toList] := by decide
  refine (isIpAllowed_exact_iff (.inl (by decide)) (List.cons_ne_nil _ _) ?_).mpr (.inl ?_)
  · rw [List.forall_mem_cons, List.forall_mem_singleton, IsEntry, hentry, IsEntry, hother]
    have hdigits : ∀ c ∈ "8".toList, c.isDigit = true := List.all_eq_true.mp (by decide)
    exact ⟨⟨.inl (by decide), ⟨by decide, hdigits⟩, by decide⟩, .inr ⟨by decide, by decide⟩⟩
  · refine ⟨_, List.mem_cons_self, fun _ ↦ ⟨.inl (by decide), ?_⟩, ?_, .inl (by decide)⟩
    · rw [PlainRange, hentry]
      refine ⟨.inl (by decide), ?_⟩
      rintro ⟨q, hq, -⟩
      cases hq
    · rw [Admits, hentry]
      change InCidr "10.0.0.0".toList (decimal "8".toList) (address "10.1.2.3".toList)
      rw [address, if_pos (by decide), InCidr, if_pos (by decide)]
      decide

/-- An IPv6 address on the list in upper case is denied in lower case. -/
theorem upper_case_entry_denies :
    ¬∀ (clientIp : String) (allowedIps : List String), IsAddress clientIp.toList →
      allowedIps ≠ [] → (∀ e ∈ allowedIps, IsEntry e.toList) → Exact clientIp allowedIps := by
  intro h
  have hsplit : "2001:DB8::1".toList.splitOn '/' = ["2001:DB8::1".toList] := by decide
  have hentries : ∀ e ∈ ["2001:DB8::1"], IsEntry e.toList := by
    intro e he
    obtain rfl := List.mem_singleton.mp he
    rw [IsEntry, hsplit]
    exact Or.inr ⟨by decide, by decide⟩
  obtain ⟨b, hb, hiff⟩ := h "2001:db8::1" ["2001:DB8::1"] (Or.inr ⟨by decide, by decide⟩)
    (List.cons_ne_nil _ _) hentries
  have hdenied : isIpAllowed (some "2001:db8::1") (some ["2001:DB8::1"]) = .ok false := by rfl
  obtain rfl : false = b := Except.ok.inj (hdenied.symm.trans hb)
  refine Bool.false_ne_true (hiff.mpr ⟨_, List.mem_singleton_self _, ?_⟩)
  have hvalue : ipv6Value "2001:DB8::1".toList = ipv6Value "2001:db8::1".toList := by decide
  rw [Admits, hsplit]
  change address "2001:DB8::1".toList = address "2001:db8::1".toList
  rw [address, address, if_neg (by decide), if_neg (by decide), if_neg (by decide),
    if_neg (by decide), hvalue]

end StellarDonations.IpMatching
