import Mathlib.Tactic.IntervalCases
import StellarDonations.Auth.IpText

/-!
# Filtering addresses of outbound requests

`isBlockedIPv4` and `isBlockedIPv6`. An IPv4 address is blocked exactly if it lies in one of the
listed ranges. An IPv6 address is looked at as text, so one range is found by a test of how its
addresses begin. Each test and its range concern the same few addresses, apart from those of the
other tests and ranges; so the filter is exact on an address where every test says what the number
says, and that is a matter of how the address is spelled (`blocks_iff`).
-/

namespace StellarDonations.SsrfFilter

open JsString IpAllowlist IpText Positional

/-! ## IPv4 -/

def blockedIpv4Cidrs : List (String × ℕ) :=
  [("0.0.0.0", 8), ("10.0.0.0", 8), ("100.64.0.0", 10), ("127.0.0.0", 8), ("169.254.0.0", 16),
    ("172.16.0.0", 12), ("192.0.0.0", 24), ("192.168.0.0", 16), ("198.18.0.0", 15),
    ("198.51.100.0", 24), ("203.0.113.0", 24), ("224.0.0.0", 4), ("240.0.0.0", 4),
    ("255.255.255.255", 32)]

/-- `(acc * 256 + parseInt(oct, 10)) >>> 0`; `NaN` becomes zero. -/
def addOctet (acc : ℕ) (oct : List Char) : ℕ :=
  match parseInt oct with
  | some n => ((acc * 256 + n : ℤ) % 2 ^ 32).toNat
  | none => 0

def ipv4ToInt (ip : List Char) : ℕ := (ip.splitOn '.').foldl addOctet 0

/-- `~((1 << (32 - bits)) - 1) >>> 0`. -/
def maskInt (bits : ℕ) : ℕ := 2 ^ 32 - 1 - (2 ^ ((32 - bits) % 32) - 1)

def isBlockedIPv4 (ip : List Char) : Bool :=
  blockedIpv4Cidrs.any fun (net, bits) ↦
    ipv4ToInt ip &&& maskInt bits = ipv4ToInt net.toList

/-! ## IPv6 -/

/-- The beginnings of unique local, link-local and multicast addresses. -/
def localPrefixes : List String := ["fc", "fd", "fe8", "fe9", "fea", "feb", "ff"]

def startsWith (normalized : List Char) (p : String) : Bool := p.toList.isPrefixOf normalized

/-- `s.replace(/^\[|\]$/g, '')`. -/
def stripBrackets (s : List Char) : List Char :=
  let s := if s.head? = some '[' then s.tail else s
  if s.getLast? = some ']' then s.dropLast else s

def isBlockedIPv6 (ip : List Char) : Bool :=
  let normalized := stripBrackets (lower ip)
  if normalized = "::1".toList || normalized = "::".toList ||
      localPrefixes.any (startsWith normalized) || startsWith normalized "2001:db8:" ||
      startsWith normalized "2001:10:" || startsWith normalized "64:ff9b:" then true
  else if startsWith normalized "::ffff:" then
    let ipv4Part := normalized.drop 7
    if isIPv4 ipv4Part then isBlockedIPv4 ipv4Part else false
  else false

/-! ## Hosts -/

/-- The loop over the addresses of a host, up to the first one that is blocked. -/
def checkAddresses (hostname : String) : List (String × ℕ) → Except String Unit
  | [] => .ok ()
  | (address, family) :: rest =>
    if family = 4 ∧ isBlockedIPv4 address.toList then
      .error ("SSRF: hostname " ++ hostname ++ " resolves to blocked IPv4 " ++ address)
    else if family = 6 ∧ isBlockedIPv6 address.toList then
      .error ("SSRF: hostname " ++ hostname ++ " resolves to blocked IPv6 " ++ address)
    else checkAddresses hostname rest

/-- `assertSafeHost`, with the addresses and families that the resolver gives. -/
def assertSafeHost (lookup : String → Except String (List (String × ℕ))) (hostname : String) :
    Except String Unit :=
  if isIPv4 hostname.toList then
    if isBlockedIPv4 hostname.toList then .error ("SSRF: blocked IPv4 address: " ++ hostname)
    else .ok ()
  else if isIPv6 hostname.toList then
    if isBlockedIPv6 hostname.toList then .error ("SSRF: blocked IPv6 address: " ++ hostname)
    else .ok ()
  else
    match lookup hostname with
    | .error message =>
      .error ("SSRF: DNS resolution failed for " ++ hostname ++ ": " ++ message)
    | .ok addresses => checkAddresses hostname addresses

/-! ## The ranges as numbers -/

def BlockedIPv4 (v : ℕ) : Prop :=
  ∃ r ∈ blockedIpv4Cidrs, InRange 32 (ipv4Value r.1.toList) r.2 v

/-- What an IPv6 address is blocked for. -/
inductive Kind where
  | unspecified
  | loopback
  | internal
  | documentation
  | orchid
  | translation
  | mapped

def InNet (net : String) (bits v : ℕ) : Prop := InRange 128 (ipv6Value net.toList) bits v

def Kind.Range (v : ℕ) : Kind → Prop
  | unspecified => InNet "::" 128 v
  | loopback => InNet "::1" 128 v
  | internal => InNet "fc00::" 7 v ∨ InNet "fe80::" 10 v ∨ InNet "ff00::" 8 v
  | documentation => InNet "2001:db8::" 32 v
  | orchid => InNet "2001:10::" 28 v
  | translation => InNet "64:ff9b::" 96 v
  | mapped => InNet "::ffff:0:0" 96 v ∧ BlockedIPv4 (v % 2 ^ 32)

/-- The number of an IPv6 address lies in a range that is blocked. -/
def BlockedIPv6 (v : ℕ) : Prop := ∃ k : Kind, k.Range v

/-- The test, on the text in lower case. -/
def Kind.Test (t : List Char) : Kind → Prop
  | unspecified => t = "::".toList
  | loopback => t = "::1".toList
  | internal => ∃ p ∈ localPrefixes, startsWith t p = true
  | documentation => startsWith t "2001:db8:" = true
  | orchid => startsWith t "2001:10:" = true
  | translation => startsWith t "64:ff9b:" = true
  | mapped => startsWith t "::ffff:" = true ∧ isIPv4 (t.drop 7) = true ∧
      isBlockedIPv4 (t.drop 7) = true

/-- The spellings in which an address is seen for what it is: what is in a range is spelled as the
test of the range has it, and what only looks like it is not. -/
structure Recognized (s : List Char) : Prop where
  unspecified : Kind.unspecified.Range (ipv6Value s) → lower s = "::".toList
  loopback : Kind.loopback.Range (ipv6Value s) → lower s = "::1".toList
  internal : Kind.internal.Test (lower s) → ((lower s).takeWhile (· ≠ ':')).length = 4
  documentation : Kind.documentation.Range (ipv6Value s) → startsWith (lower s) "2001:db8:" = true
  orchid : Kind.orchid.Range (ipv6Value s) → startsWith (lower s) "2001:10:" = true
  translation : Kind.translation.Range (ipv6Value s) ↔ startsWith (lower s) "64:ff9b:" = true
  mapped : Kind.mapped.Range (ipv6Value s) → startsWith (lower s) "::ffff:" = true ∧
    isIPv4 ((lower s).drop 7) = true

/-! ## IPv4 addresses -/

theorem ipv4ToInt_eq {ip : List Char} (h : isIPv4 ip = true) : ipv4ToInt ip = ipv4Value ip := by
  refine foldl_octets h fun acc o hacc ho ↦ ?_
  have hd := decimal_lt_of_isOctet ho
  rw [addOctet, parseInt_of_digits (isDigit_of_isOctet ho) (ne_nil_of_isOctet ho)]
  simp only
  omega

theorem maskInt_eq {bits : ℕ} (hpos : 0 < bits) (hle : bits ≤ 32) :
    maskInt bits = 2 ^ 32 - 2 ^ (32 - bits) := by
  have hmod : (32 - bits) % 32 = 32 - bits := Nat.mod_eq_of_lt (by omega)
  have hone : 1 ≤ 2 ^ (32 - bits) := Nat.one_le_two_pow
  rw [maskInt, hmod]
  omega

theorem blockedIpv4Cidrs_spec : ∀ r ∈ blockedIpv4Cidrs, isIPv4 r.1.toList = true ∧
    0 < r.2 ∧ r.2 ≤ 32 ∧
    ipv4Value r.1.toList / 2 ^ (32 - r.2) * 2 ^ (32 - r.2) = ipv4Value r.1.toList := by
  decide

/-- **An IPv4 address is blocked exactly if it lies in a listed range.** -/
theorem isBlockedIPv4_iff {ip : List Char} (h : isIPv4 ip = true) :
    isBlockedIPv4 ip = true ↔ BlockedIPv4 (ipv4Value ip) := by
  rw [isBlockedIPv4, List.any_eq_true]
  refine exists_congr fun r ↦ and_congr_right fun hr ↦ ?_
  obtain ⟨hnet, hpos, hle, hlow⟩ := blockedIpv4Cidrs_spec r hr
  rw [decide_eq_true_iff, ipv4ToInt_eq h, ipv4ToInt_eq hnet, maskInt_eq hpos hle,
    and_mask (Nat.sub_le 32 r.2) (ipv4Value_lt h), InRange]
  constructor
  · intro heq
    rw [← heq, Nat.mul_div_cancel _ (Nat.two_pow_pos _)]
  · intro heq
    rw [heq, hlow]

/-! ## Few addresses for each kind -/

/-- The addresses that a test and its range concern. -/
def Kind.Class (v : ℕ) : Kind → Prop
  | unspecified => v = 0
  | loopback => v = 1
  | internal => 0xfc ≤ v / 2 ^ 112 ∧ v / 2 ^ 112 ≠ 0x2001
  | documentation => v / 2 ^ 96 = 0x20010db8
  | orchid => v / 2 ^ 100 = 0x2001001
  | translation => v / 2 ^ 112 = 0x64
  | mapped => v / 2 ^ 32 = 0xffff

theorem Kind.Class.unique {v : ℕ} {k k' : Kind} (h : k.Class v) (h' : k'.Class v) : k = k' := by
  cases k <;> cases k' <;> first | rfl | (simp only [Kind.Class] at h h'; omega)

theorem inNet_iff {net : String} {bits v n : ℕ} (hn : ipv6Value net.toList = n) :
    InNet net bits v ↔ v / 2 ^ (128 - bits) = n / 2 ^ (128 - bits) := by
  rw [InNet, InRange, hn]

theorem Kind.Range.class {v : ℕ} {k : Kind} (h : k.Range v) : k.Class v := by
  cases k with
  | unspecified =>
    have h := (inNet_iff (n := 0) (by decide)).mp h
    simp only [Kind.Class]
    omega
  | loopback =>
    have h := (inNet_iff (n := 1) (by decide)).mp h
    simp only [Kind.Class]
    omega
  | internal =>
    simp only [Kind.Class]
    rcases h with h | h | h
    · have h := (inNet_iff (n := 0xfc00 * 2 ^ 112) (by decide)).mp h
      omega
    · have h := (inNet_iff (n := 0xfe80 * 2 ^ 112) (by decide)).mp h
      omega
    · have h := (inNet_iff (n := 0xff00 * 2 ^ 112) (by decide)).mp h
      omega
  | documentation =>
    have h := (inNet_iff (n := 0x20010db8 * 2 ^ 96) (by decide)).mp h
    simp only [Kind.Class]
    omega
  | orchid =>
    have h := (inNet_iff (n := 0x20010010 * 2 ^ 96) (by decide)).mp h
    simp only [Kind.Class]
    omega
  | translation =>
    have h := (inNet_iff (n := 0x64ff9b * 2 ^ 96) (by decide)).mp h
    simp only [Kind.Class]
    omega
  | mapped =>
    have h := (inNet_iff (n := 0xffff * 2 ^ 32) (by decide)).mp h.1
    simp only [Kind.Class]
    omega

/-! ## What the tests find -/

theorem startsWith_iff {t : List Char} {p : String} :
    startsWith t p = true ↔ p.toList <+: t :=
  List.isPrefixOf_iff_prefix

theorem prefix_of_append_cons {α : Type} {p f rest : List α} {c : α} (hc : c ∉ p)
    (h : p <+: f ++ c :: rest) : p <+: f := by
  induction p generalizing f with
  | nil => exact List.nil_prefix
  | cons a p ih =>
    cases f with
    | nil => exact absurd (List.cons_prefix_cons.mp h).1 fun heq ↦ hc (heq ▸ List.mem_cons_self)
    | cons b f =>
      obtain ⟨rfl, htail⟩ := List.cons_prefix_cons.mp h
      exact (List.prefix_cons_inj a).mpr (ih (fun hmem ↦ hc (List.mem_cons_of_mem a hmem)) htail)

theorem field_eq_of_prefix {α : Type} {a b f rest : List α} {c : α} (ha : c ∉ a) (hf : c ∉ f)
    (h : a ++ c :: b <+: f ++ c :: rest) : a = f ∧ b <+: rest := by
  induction a generalizing f with
  | nil =>
    cases f with
    | nil => exact ⟨rfl, (List.cons_prefix_cons.mp h).2⟩
    | cons d f =>
      exact absurd (List.cons_prefix_cons.mp h).1 fun heq ↦ hf (heq ▸ List.mem_cons_self)
  | cons d a ih =>
    cases f with
    | nil => exact absurd (List.cons_prefix_cons.mp h).1 fun heq ↦ ha (heq ▸ List.mem_cons_self)
    | cons e f =>
      obtain ⟨rfl, htail⟩ := List.cons_prefix_cons.mp h
      obtain ⟨rfl, hrest⟩ := ih (fun hmem ↦ ha (List.mem_cons_of_mem d hmem))
        (fun hmem ↦ hf (List.mem_cons_of_mem d hmem)) htail
      exact ⟨rfl, hrest⟩

theorem colon_notMem {g : List Char} (h : isHexGroup g = true) : ':' ∉ g :=
  notMem_of_isHexGroup h rfl

theorem fields_of_startsWith {t a b : List Char} (ht : IsIPv6 t) (ha : ':' ∉ a) (hb : ':' ∉ b)
    (hne : a ≠ [] ∧ b ≠ []) (h : a ++ ':' :: (b ++ [':']) <+: t) :
    ipv6Value t / 2 ^ 96 = hexadecimal a * 2 ^ 16 + hexadecimal b := by
  rcases heads_of_isIPv6 ht with ⟨rest, gs, rfl, hg⟩ | ⟨f, rest, gs, hf, rfl, hg⟩ |
    ⟨f, f', rest, gs, hf, hf', rfl, hg⟩
  · obtain ⟨rfl, -⟩ := field_eq_of_prefix (f := []) ha List.not_mem_nil h
    exact absurd rfl hne.1
  · obtain ⟨rfl, hrest⟩ := field_eq_of_prefix ha (colon_notMem hf) h
    obtain ⟨rfl, -⟩ := field_eq_of_prefix (f := []) hb List.not_mem_nil hrest
    exact absurd rfl hne.2
  · obtain ⟨rfl, hrest⟩ := field_eq_of_prefix ha (colon_notMem hf) h
    obtain ⟨rfl, -⟩ := field_eq_of_prefix hb (colon_notMem hf') hrest
    exact ipv6Value_div_second ht hg

theorem exists_first {t : List Char} (ht : IsIPv6 t) (hzeros : t.head? ≠ some ':') :
    ∃ f, isHexGroup f = true ∧ f ++ [':'] <+: t ∧ ipv6Value t / 2 ^ 112 = hexadecimal f := by
  rcases heads_of_isIPv6 ht with ⟨rest, gs, rfl, hg⟩ | ⟨f, rest, gs, hf, rfl, hg⟩ |
    ⟨f, f', rest, gs, hf, hf', rfl, hg⟩
  · exact absurd rfl hzeros
  · exact ⟨f, hf, by simp, ipv6Value_div_first ht hg⟩
  · exact ⟨f, hf, by simp, ipv6Value_div_first ht hg⟩

theorem takeWhile_of_first {t f : List Char} (hf : isHexGroup f = true) (h : f ++ [':'] <+: t) :
    t.takeWhile (· ≠ ':') = f := by
  obtain ⟨rest, rfl⟩ := h
  have hall : ∀ c ∈ f, decide (c ≠ ':') = true :=
    fun c hc ↦ decide_eq_true fun heq ↦ colon_notMem hf (heq ▸ hc)
  rw [List.append_assoc, List.takeWhile_append_of_pos hall]
  exact List.append_nil f

theorem localPrefixes_spec : ∀ p ∈ localPrefixes, ':' ∉ p.toList ∧
    (p.toList.length = 2 ∧ hexadecimal p.toList ∈ [0xfc, 0xfd, 0xff] ∨
      p.toList.length = 3 ∧ hexadecimal p.toList ∈ [0xfe8, 0xfe9, 0xfea, 0xfeb]) := by
  decide

theorem hexadecimal_append (a b : List Char) :
    hexadecimal (a ++ b) = hexadecimal a * 16 ^ b.length + hexadecimal b := by
  rw [hexadecimal, List.map_append, value_append, List.length_map]
  rfl

theorem internal_range_iff {v : ℕ} : Kind.internal.Range v ↔
    v / 2 ^ 112 / 2 ^ 9 = 0x7e ∨ v / 2 ^ 112 / 2 ^ 6 = 0x3fa ∨ v / 2 ^ 112 / 2 ^ 8 = 0xff := by
  rw [Kind.Range, inNet_iff (n := 0xfc00 * 2 ^ 112) (by decide),
    inNet_iff (n := 0xfe80 * 2 ^ 112) (by decide), inNet_iff (n := 0xff00 * 2 ^ 112) (by decide)]
  omega

theorem local_value {h n y : ℕ} (hy : y < 16 ^ n)
    (hh : n ≤ 2 ∧ h ∈ [0xfc, 0xfd, 0xff] ∨ n ≤ 1 ∧ h ∈ [0xfe8, 0xfe9, 0xfea, 0xfeb]) :
    (0xfc ≤ h * 16 ^ n + y ∧ h * 16 ^ n + y ≠ 0x2001) ∧
      (0x1000 ≤ h * 16 ^ n → (h * 16 ^ n + y) / 2 ^ 9 = 0x7e ∨
        (h * 16 ^ n + y) / 2 ^ 6 = 0x3fa ∨ (h * 16 ^ n + y) / 2 ^ 8 = 0xff) := by
  simp only [List.mem_cons, List.not_mem_nil, or_false] at hh
  rcases hh with ⟨hn, hh⟩ | ⟨hn, hh⟩
  · interval_cases n <;> omega
  · interval_cases n <;> omega

theorem internal_of_test {t : List Char} (ht : IsIPv6 t) (h : Kind.internal.Test t) :
    Kind.internal.Class (ipv6Value t) ∧
      ((t.takeWhile (· ≠ ':')).length = 4 → Kind.internal.Range (ipv6Value t)) := by
  obtain ⟨p, hp, hstart⟩ := h
  obtain ⟨hcolon, hvalue⟩ := localPrefixes_spec p hp
  rw [startsWith_iff] at hstart
  have hzeros : t.head? ≠ some ':' := by
    intro hhead
    obtain ⟨rest, rfl⟩ := hstart
    cases hp : p.toList with
    | nil =>
      rw [hp] at hvalue
      simp at hvalue
    | cons c cs =>
      rw [hp] at hhead hcolon
      exact hcolon (Option.some.inj hhead ▸ List.mem_cons_self)
  obtain ⟨f, hf, hfirst, hdiv⟩ := exists_first ht hzeros
  obtain ⟨x, rfl⟩ : p.toList <+: f := by
    obtain ⟨rest, rfl⟩ := hfirst
    rw [List.append_assoc] at hstart
    exact prefix_of_append_cons hcolon hstart
  rw [takeWhile_of_first hf hfirst]
  have hlen := (isHexGroup_iff.mp hf).2.1
  rw [List.length_append] at hlen ⊢
  rw [hexadecimal_append] at hdiv
  obtain ⟨hclass, hrange⟩ := local_value (h := hexadecimal p.toList) (hexadecimal_lt x) <| by
    rcases hvalue with ⟨hlen', hmem⟩ | ⟨hlen', hmem⟩
    · exact Or.inl ⟨by omega, hmem⟩
    · exact Or.inr ⟨by omega, hmem⟩
  rw [← hdiv] at hclass hrange
  refine ⟨hclass, fun hfour ↦ internal_range_iff.mpr (hrange ?_)⟩
  simp only [List.mem_cons, List.not_mem_nil, or_false] at hvalue
  rcases hvalue with ⟨hlen', hmem⟩ | ⟨hlen', hmem⟩
  · have hx : x.length = 2 := by omega
    rw [hx]
    omega
  · have hx : x.length = 1 := by omega
    rw [hx]
    omega

theorem localPrefixes_two : ∀ n ∈ [12, 13, 15], ∃ p ∈ localPrefixes,
    p.toList = [Nat.digitChar 15, Nat.digitChar n] := by
  decide

theorem localPrefixes_three : ∀ n ∈ [8, 9, 10, 11], ∃ p ∈ localPrefixes,
    p.toList = [Nat.digitChar 15, Nat.digitChar 14, Nat.digitChar n] := by
  decide

theorem first_eq_zero {t : List Char} (ht : IsIPv6 t) (h : t.head? = some ':') :
    ipv6Value t / 2 ^ 112 = 0 := by
  have hfield : ∀ {f rest : List Char}, isHexGroup f = true → (f ++ rest).head? = some ':' →
      False := by
    intro f rest hf hhead
    cases f with
    | nil => cases hf
    | cons c f => exact colon_notMem hf (Option.some.inj hhead ▸ List.mem_cons_self)
  rcases heads_of_isIPv6 ht with ⟨rest, gs, rfl, hg⟩ | ⟨f, rest, gs, hf, rfl, -⟩ |
    ⟨f, f', rest, gs, hf, hf', rfl, -⟩
  · exact ipv6Value_div_first ht hg
  · exact (hfield hf h).elim
  · exact (hfield hf h).elim

theorem test_of_internal {t : List Char} (ht : IsIPv6 t) (hlower : ∀ c ∈ t, lowerChar c = c)
    (h : Kind.internal.Range (ipv6Value t)) :
    Kind.internal.Test t ∧ (t.takeWhile (· ≠ ':')).length = 4 := by
  have hrange := internal_range_iff.mp h
  have hzeros : t.head? ≠ some ':' := by
    intro hhead
    rw [first_eq_zero ht hhead] at hrange
    omega
  obtain ⟨f, hf, hfirst, hdiv⟩ := exists_first ht hzeros
  rw [hdiv] at hrange
  rw [takeWhile_of_first hf hfirst]
  obtain ⟨hpos, hle, hhex⟩ := isHexGroup_iff.mp hf
  have hlen : f.length = 4 := by
    by_contra hne
    have hlt : hexadecimal f < 16 ^ 3 :=
      (hexadecimal_lt f).trans_le (Nat.pow_le_pow_right (by decide) (by omega))
    omega
  refine ⟨?_, hlen⟩
  obtain ⟨rest, rfl⟩ := hfirst
  match f, hlen with
  | [a, b, c, d], _ =>
    have hdigit : ∀ x ∈ [a, b, c, d], x = Nat.digitChar ((hexDigit x).getD 0) :=
      fun x hx ↦ eq_digitChar (hhex x hx) (hlower x (by simp only [List.mem_append]; tauto))
    have hvalue : hexadecimal [a, b, c, d] = (hexDigit a).getD 0 * 16 ^ 3 +
        ((hexDigit b).getD 0 * 16 ^ 2 + ((hexDigit c).getD 0 * 16 + (hexDigit d).getD 0)) := by
      simp only [hexadecimal, List.map_cons, List.map_nil, value_cons, value_nil, List.length_cons,
        List.length_nil]
      omega
    have hlt := hexValue_lt (s := [a, b, c, d])
    simp only [List.map_cons, List.map_nil, List.forall_mem_cons, List.not_mem_nil] at hlt
    obtain ⟨ha, hb, hc, hd, -⟩ := hlt
    rw [hvalue] at hrange
    have hcases : (hexDigit a).getD 0 = 15 ∧ ((hexDigit b).getD 0 ∈ [12, 13, 15] ∨
        (hexDigit b).getD 0 = 14 ∧ (hexDigit c).getD 0 ∈ [8, 9, 10, 11]) := by
      simp only [List.mem_cons, List.not_mem_nil, or_false]
      omega
    have htest : ∀ p ∈ localPrefixes, p.toList <+: [a, b, c, d] →
        Kind.internal.Test ([a, b, c, d] ++ [':'] ++ rest) := by
      intro p hp hpre
      refine ⟨p, hp, startsWith_iff.mpr (hpre.trans ?_)⟩
      rw [List.append_assoc]
      exact List.prefix_append _ _
    rw [List.forall_mem_cons, List.forall_mem_cons, List.forall_mem_cons] at hdigit
    obtain ⟨hda, hdb, hdc, -⟩ := hdigit
    rw [hcases.1] at hda
    rcases hcases.2 with hb | ⟨hb, hc⟩
    · obtain ⟨p, hp, heq⟩ := localPrefixes_two _ hb
      exact htest p hp ⟨[c, d], by rw [heq, ← hda, ← hdb]; rfl⟩
    · obtain ⟨p, hp, heq⟩ := localPrefixes_three _ hc
      rw [hb] at hdb
      exact htest p hp ⟨[d], by rw [heq, ← hda, ← hdb, ← hdc]; rfl⟩

theorem Kind.Test.class {t : List Char} (ht : IsIPv6 t) {k : Kind} (h : k.Test t) :
    k.Class (ipv6Value t) := by
  cases k with
  | unspecified =>
    obtain rfl : t = "::".toList := h
    exact (by decide : ipv6Value "::".toList = 0)
  | loopback =>
    obtain rfl : t = "::1".toList := h
    exact (by decide : ipv6Value "::1".toList = 1)
  | internal => exact (internal_of_test ht h).1
  | documentation =>
    have hdiv := fields_of_startsWith (a := "2001".toList) (b := "db8".toList) ht (by decide)
      (by decide) (by decide) (startsWith_iff.mp h)
    exact hdiv.trans (by decide)
  | orchid =>
    have hdiv := fields_of_startsWith (a := "2001".toList) (b := "10".toList) ht (by decide)
      (by decide) (by decide) (startsWith_iff.mp h)
    have hdiv := hdiv.trans (by decide : _ = 0x20010010)
    simp only [Kind.Class]
    omega
  | translation =>
    have hdiv := fields_of_startsWith (a := "64".toList) (b := "ff9b".toList) ht (by decide)
      (by decide) (by decide) (startsWith_iff.mp h)
    have hdiv := hdiv.trans (by decide : _ = 0x64ff9b)
    simp only [Kind.Class]
    omega
  | mapped =>
    obtain ⟨hstart, hq, -⟩ := h
    obtain ⟨q, rfl⟩ := startsWith_iff.mp hstart
    have hvalue := ipv6Value_mapped ht hq
    have hlt := ipv4Value_lt (s := q) hq
    rw [hvalue]
    simp only [Kind.Class]
    omega

/-- The test for IPv4 addresses written as IPv6 ones is exact on what it looks at. -/
theorem mapped_range_iff {t : List Char} (ht : IsIPv6 t) (hstart : startsWith t "::ffff:" = true)
    (hq : isIPv4 (t.drop 7) = true) :
    Kind.mapped.Range (ipv6Value t) ↔ isBlockedIPv4 (t.drop 7) = true := by
  obtain ⟨q, rfl⟩ := startsWith_iff.mp hstart
  have hq : isIPv4 q = true := hq
  have hlt := ipv4Value_lt hq
  have hnet : InNet "::ffff:0:0" 96 (0xffff * 2 ^ 32 + ipv4Value q) := by
    rw [inNet_iff (n := 0xffff * 2 ^ 32) (by decide)]
    omega
  have hmod : (0xffff * 2 ^ 32 + ipv4Value q) % 2 ^ 32 = ipv4Value q := by omega
  rw [ipv6Value_mapped ht hq, Kind.Range, hmod]
  exact (and_iff_right hnet).trans (isBlockedIPv4_iff hq).symm

/-! ## The filter -/

theorem stripBrackets_of_isIPv6 {t : List Char} (ht : IsIPv6 t) : stripBrackets t = t := by
  have hnot : ∀ {c : Char}, (hexDigit c).isSome = false → c ≠ ':' → c ≠ '.' → c ∉ t := by
    intro c hhex hcolon hdot hmem
    rcases mem_of_isIPv6 ht hmem with h | h | h
    · rw [hhex] at h
      cases h
    · exact hcolon h
    · exact hdot h
  have hopen : t.head? ≠ some '[' :=
    fun h ↦ hnot (by decide) (by decide) (by decide) (List.mem_of_mem_head? h)
  have hclose : t.getLast? ≠ some ']' :=
    fun h ↦ hnot (by decide) (by decide) (by decide) (List.mem_of_mem_getLast? h)
  rw [stripBrackets, if_neg hopen]
  exact if_neg hclose

theorem isBlockedIPv6_iff {s : List Char} (hs : IsIPv6 s) :
    isBlockedIPv6 s = true ↔ ∃ k : Kind, k.Test (lower s) := by
  rw [isBlockedIPv6, stripBrackets_of_isIPv6 hs.lower]
  simp only
  split
  case isTrue hlisted =>
    simp only [Bool.or_eq_true, decide_eq_true_iff, List.any_eq_true] at hlisted
    refine iff_of_true rfl ?_
    rcases hlisted with ((((h | h) | h) | h) | h) | h
    · exact ⟨.loopback, h⟩
    · exact ⟨.unspecified, h⟩
    · exact ⟨.internal, h⟩
    · exact ⟨.documentation, h⟩
    · exact ⟨.orchid, h⟩
    · exact ⟨.translation, h⟩
  case isFalse hlisted =>
    simp only [Bool.or_eq_true, decide_eq_true_iff, List.any_eq_true, not_or] at hlisted
    obtain ⟨⟨⟨⟨⟨hloopback, hunspecified⟩, hinternal⟩, hdocumentation⟩, horchid⟩, htranslation⟩ :=
      hlisted
    trans Kind.mapped.Test (lower s)
    · rw [Kind.Test]
      by_cases hstart : startsWith (lower s) "::ffff:" = true
      · by_cases hq : isIPv4 ((lower s).drop 7) = true
        · rw [if_pos hstart, if_pos hq, and_iff_right hstart, and_iff_right hq]
        · rw [if_pos hstart, if_neg hq]
          exact iff_of_false Bool.false_ne_true fun h ↦ hq h.2.1
      · rw [if_neg hstart]
        exact iff_of_false Bool.false_ne_true fun h ↦ hstart h.1
    · refine ⟨fun h ↦ ⟨.mapped, h⟩, ?_⟩
      rintro ⟨k, hk⟩
      cases k with
      | unspecified => exact absurd hk hunspecified
      | loopback => exact absurd hk hloopback
      | internal => exact absurd hk hinternal
      | documentation => exact absurd hk hdocumentation
      | orchid => exact absurd hk horchid
      | translation => exact absurd hk htranslation
      | mapped => exact hk

theorem exists_iff_exists_iff {ι : Type} {T R C : ι → Prop} (hT : ∀ k, T k → C k)
    (hR : ∀ k, R k → C k) (hC : ∀ k k', C k → C k' → k = k') :
    ((∃ k, T k) ↔ ∃ k, R k) ↔ ∀ k, T k ↔ R k := by
  constructor
  · intro h k
    constructor
    · intro hk
      obtain ⟨k', hk'⟩ := h.mp ⟨k, hk⟩
      rw [hC k k' (hT k hk) (hR k' hk')]
      exact hk'
    · intro hk
      obtain ⟨k', hk'⟩ := h.mpr ⟨k, hk⟩
      rw [hC k k' (hR k hk) (hT k' hk')]
      exact hk'
  · exact fun h ↦ exists_congr h

theorem range_of_test {t : List Char} (ht : IsIPv6 t) {k : Kind} (hk : k.Test t)
    (hinternal : k = .internal → (t.takeWhile (· ≠ ':')).length = 4)
    (htranslation : k = .translation → Kind.translation.Range (ipv6Value t)) :
    k.Range (ipv6Value t) := by
  have hclass := hk.class ht
  cases k with
  | unspecified =>
    rw [Kind.Range, inNet_iff (n := 0) (by decide), show ipv6Value t = 0 from hclass]
  | loopback =>
    rw [Kind.Range, inNet_iff (n := 1) (by decide), show ipv6Value t = 1 from hclass]
  | internal => exact (internal_of_test ht hk).2 (hinternal rfl)
  | documentation =>
    have hvalue : ipv6Value t / 2 ^ 96 = 0x20010db8 := hclass
    rw [Kind.Range, inNet_iff (n := 0x20010db8 * 2 ^ 96) (by decide)]
    omega
  | orchid =>
    have hvalue : ipv6Value t / 2 ^ 100 = 0x2001001 := hclass
    rw [Kind.Range, inNet_iff (n := 0x20010010 * 2 ^ 96) (by decide)]
    omega
  | translation => exact htranslation rfl
  | mapped => exact (mapped_range_iff ht hk.1 hk.2.1).mpr hk.2.2

/-- On addresses that are spelled to be recognized each test says what the number says. -/
theorem recognized_iff {s : List Char} (hs : IsIPv6 s) :
    Recognized s ↔ ∀ k : Kind, k.Test (lower s) ↔ k.Range (ipv6Value s) := by
  have hvalue := ipv6Value_lower s
  constructor
  · intro h k
    constructor
    · intro hk
      rw [← hvalue]
      refine range_of_test hs.lower hk ?_ ?_
      · rintro rfl
        exact h.internal hk
      · rintro rfl
        rw [hvalue]
        exact h.translation.mpr hk
    · intro hk
      cases k with
      | unspecified => exact h.unspecified hk
      | loopback => exact h.loopback hk
      | internal =>
        rw [← hvalue] at hk
        exact (test_of_internal hs.lower (lowerChar_of_mem_lower s) hk).1
      | documentation => exact h.documentation hk
      | orchid => exact h.orchid hk
      | translation => exact h.translation.mp hk
      | mapped =>
        obtain ⟨hstart, hq⟩ := h.mapped hk
        rw [← hvalue] at hk
        exact ⟨hstart, hq, (mapped_range_iff hs.lower hstart hq).mp hk⟩
  · intro h
    refine ⟨(h .unspecified).mpr, (h .loopback).mpr, fun hk ↦ ?_, (h .documentation).mpr,
      (h .orchid).mpr, (h .translation).symm, fun hk ↦ ?_⟩
    · have hrange := (h .internal).mp hk
      rw [← hvalue] at hrange
      exact (test_of_internal hs.lower (lowerChar_of_mem_lower s) hrange).2
    · obtain ⟨hstart, hq, -⟩ := (h .mapped).mpr hk
      exact ⟨hstart, hq⟩

/-- **The filter of IPv4 addresses is exact; that of IPv6 addresses is where these are spelled to
be recognized.** -/
theorem blocks_iff (ip : List Char) :
    (isIPv4 ip = true → (isBlockedIPv4 ip = true ↔ BlockedIPv4 (ipv4Value ip))) ∧
      (IsIPv6 ip → ((isBlockedIPv6 ip = true ↔ BlockedIPv6 (ipv6Value ip)) ↔ Recognized ip)) := by
  refine ⟨fun h ↦ isBlockedIPv4_iff h, fun h ↦ ?_⟩
  have hclass : ∀ k : Kind, k.Test (lower ip) → k.Class (ipv6Value ip) := by
    intro k hk
    rw [← ipv6Value_lower]
    exact hk.class h.lower
  rw [isBlockedIPv6_iff h, recognized_iff h]
  exact exists_iff_exists_iff hclass (fun k hk ↦ hk.class) fun k k' hk hk' ↦ hk.unique hk'

theorem blocks_iff_at_local :
    (isBlockedIPv4 "10.1.2.3".toList = true ↔ BlockedIPv4 (ipv4Value "10.1.2.3".toList)) ∧
      ((isBlockedIPv6 "fe80::1".toList = true ↔ BlockedIPv6 (ipv6Value "fe80::1".toList)) ↔
        Recognized "fe80::1".toList) :=
  ⟨(blocks_iff _).1 (by decide), (blocks_iff _).2 ⟨by decide, by decide⟩⟩

/-- The loopback address is not blocked when all its groups are written. -/
theorem loopback_in_full_not_blocked :
    ¬((∀ ip, isIPv4 ip = true → (isBlockedIPv4 ip = true ↔ BlockedIPv4 (ipv4Value ip))) ∧
      ∀ ip, IsIPv6 ip → (isBlockedIPv6 ip = true ↔ BlockedIPv6 (ipv6Value ip))) := by
  rintro ⟨-, h⟩
  have hrange : InRange 128 (ipv6Value "::1".toList) 128
      (ipv6Value "0:0:0:0:0:0:0:1".toList) := by decide
  have hblocked := (h "0:0:0:0:0:0:0:1".toList ⟨by decide, by decide⟩).mpr ⟨.loopback, hrange⟩
  exact absurd hblocked (by decide)

/-! ## Accepted hosts -/

theorem checkAddresses_ok_iff {hostname : String} {addresses : List (String × ℕ)} :
    checkAddresses hostname addresses = .ok () ↔
      ∀ a ∈ addresses, ¬(a.2 = 4 ∧ isBlockedIPv4 a.1.toList = true) ∧
        ¬(a.2 = 6 ∧ isBlockedIPv6 a.1.toList = true) := by
  induction addresses with
  | nil => exact iff_of_true rfl (List.forall_mem_nil _)
  | cons a rest ih =>
    rw [checkAddresses, List.forall_mem_cons, ← ih]
    split
    case isTrue h => exact iff_of_false (fun heq ↦ nomatch heq) fun hnot ↦ hnot.1.1 h
    case isFalse h4 =>
      split
      case isTrue h => exact iff_of_false (fun heq ↦ nomatch heq) fun hnot ↦ hnot.1.2 h
      case isFalse h6 => exact (and_iff_right ⟨h4, h6⟩).symm

/-- No IPv4 address of an accepted host lies in a listed range. -/
theorem not_blockedIPv4_of_safe {lookup : String → Except String (List (String × ℕ))}
    {hostname : String} (h : assertSafeHost lookup hostname = .ok ()) {v : String}
    (hv : isIPv4 v.toList = true)
    (hhost : hostname = v ∨ isIPv4 hostname.toList = false ∧ isIPv6 hostname.toList = false ∧
      ∃ addresses, lookup hostname = .ok addresses ∧ (v, 4) ∈ addresses) :
    ¬BlockedIPv4 (ipv4Value v.toList) := by
  rw [← isBlockedIPv4_iff hv]
  intro hblocked
  rw [assertSafeHost] at h
  rcases hhost with rfl | ⟨h4, h6, addresses, hlookup, hmem⟩
  · rw [if_pos hv, if_pos hblocked] at h
    cases h
  · rw [h4, h6, if_neg Bool.false_ne_true, if_neg Bool.false_ne_true, hlookup] at h
    exact (checkAddresses_ok_iff.mp h (v, 4) hmem).1 ⟨rfl, hblocked⟩

theorem not_blockedIPv4_of_safe_at : ¬BlockedIPv4 (ipv4Value "8.8.8.8".toList) :=
  @not_blockedIPv4_of_safe (fun _ ↦ .ok [("8.8.8.8", 4)]) "dns.example" rfl "8.8.8.8" (by decide)
    (.inr ⟨by decide, by decide, _, rfl, List.mem_singleton_self _⟩)

end StellarDonations.SsrfFilter
