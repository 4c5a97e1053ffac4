import Mathlib.Algebra.Group.Nat.Defs
import Mathlib.Data.Int.Notation
import StellarDonations.Errors
import StellarDonations.Text.JsString

/-!
# IP allowlists

`isIpAllowed`: whether a client address is one of a key's addresses or lies in one of its ranges.
Addresses are compared as text, ranges by the numbers the addresses stand for; an IPv4 address
written as an IPv6 one is first reduced to its IPv4 form.
-/

namespace StellarDonations.IpAllowlist

open JsString

/-! ## Address syntax -/

/-- A decimal number from `0` to `255` without leading zeros. -/
def isOctet (s : List Char) : Bool :=
  match s with
  | [] => false
  | ['0'] => true
  | '0' :: _ => false
  | _ => s.length ≤ 3 && s.all Char.isDigit &&
      decide (s.foldl (fun n c ↦ 10 * n + (c.toNat - '0'.toNat)) 0 ≤ 255)

def isIPv4 (s : List Char) : Bool :=
  let octets := s.splitOn '.'
  octets.length = 4 && octets.all isOctet

/-- `s.split('::')`. -/
def splitDoubleColon : List Char → List (List Char)
  | ':' :: ':' :: rest => [] :: splitDoubleColon rest
  | c :: rest =>
    match splitDoubleColon rest with
    | head :: tail => (c :: head) :: tail
    | [] => [[c]]
  | [] => [[]]

def isHexGroup (s : List Char) : Bool :=
  0 < s.length && s.length ≤ 4 && s.all fun c ↦ (hexDigit c).isSome

/-- The number of 16-bit groups a list of fields stands for: the last one may be an IPv4 address. -/
def groupWidth (fields : List (List Char)) : Option ℕ :=
  match fields.getLast? with
  | none => some 0
  | some last =>
    if fields.dropLast.all isHexGroup then
      if isHexGroup last then some fields.length
      else if isIPv4 last then some (fields.length + 1)
      else none
    else none

def splitGroups (s : List Char) : List (List Char) := if s = [] then [] else s.splitOn ':'

/-- A zone identifier, with the percent sign that starts it. -/
def isZone : List Char → Bool
  | [] => true
  | _ :: zone => zone ≠ [] && zone.all fun c ↦ c.isAlphanum || c = '-' || c = '.' || c = ':'

def isIPv6 (s : List Char) : Bool :=
  isZone (s.dropWhile (· ≠ '%')) &&
    match splitDoubleColon (s.takeWhile (· ≠ '%')) with
    | [all] => groupWidth (splitGroups all) = some 8
    | [left, right] =>
      -- only the last field of the address may be an IPv4 address
      (splitGroups left).all isHexGroup &&
        (groupWidth (splitGroups right)).any fun w ↦ (splitGroups left).length + w ≤ 7
    | _ => false

/-! ## Addresses as numbers -/

/-- The text after `::ffff:`, in any letter case. -/
def afterMapped (s : List Char) : Option (List Char) :=
  if (s.take 7).map Char.toLower = "::ffff:".toList then some (s.drop 7) else none

def normalizeIp (ip : List Char) : List Char :=
  match afterMapped ip with
  | some rest =>
    let fields := rest.splitOn '.'
    if fields.length = 4 && fields.all fun f ↦ f ≠ [] && f.all Char.isDigit then rest else ip
  | none => ip

/-- The number a prefix of digits stands for, or nothing for `NaN`. -/
def parseDigits (radix : ℕ) (s : List Char) : Option ℕ :=
  let digits := s.takeWhile fun c ↦ (hexDigit c).any (· < radix)
  if digits = [] then none
  else some (digits.foldl (fun n c ↦ radix * n + (hexDigit c).getD 0) 0)

def parseInt (s : List Char) : Option ℤ :=
  match s.dropWhile isWhiteSpace with
  | '-' :: rest => (parseDigits 10 rest).map fun n ↦ -(n : ℤ)
  | '+' :: rest => (parseDigits 10 rest).map fun n ↦ (n : ℤ)
  | rest => (parseDigits 10 rest).map fun n ↦ (n : ℤ)

def ipv4ToInt (ip : List Char) : ℕ :=
  (ip.splitOn '.').foldl (fun acc octet ↦ acc * 256 % 2 ^ 32 ||| (parseDigits 10 octet).getD 0) 0

/-- The engine's error for a number that is not an integer or not a length. -/
def rangeError (message : String) : AppError := ⟨.rangeError, none, message⟩

def ipv6ToBigInt (ip : List Char) : Except AppError ℕ :=
  let halves := splitDoubleColon ip
  let left := splitGroups (halves[0]?.getD [])
  let right := splitGroups (halves[1]?.getD [])
  if 8 < left.length + right.length then .error (rangeError "Invalid array length")
  else
    let middle := List.replicate (8 - left.length - right.length) ['0']
    (left ++ middle ++ right).foldlM (fun acc g ↦
      match parseDigits 16 (if g = [] then ['0'] else g) with
      | some n => .ok (acc * 2 ^ 16 ||| n)
      | none => .error (rangeError
          "The number NaN cannot be converted to a BigInt because it is not an integer")) 0

/-- The mask of an IPv4 prefix; shift counts are taken modulo 32. -/
def ipv4Mask : Option ℤ → ℕ
  | some 0 => 0
  | some prefixLength => 2 ^ 32 - 2 ^ ((32 - prefixLength) % 32).toNat
  | none => 2 ^ 32 - 1

/-- The mask of an IPv6 prefix; a negative shift count shifts the other way. -/
def ipv6Mask : Option ℤ → Except AppError ℕ
  | some prefixLength =>
    if prefixLength = 0 then .ok 0
    else if 128 < prefixLength then .ok (2 ^ 128 - 1)
    else .ok (2 ^ 128 - 2 ^ (128 - prefixLength).toNat)
  | none => .error (rangeError
      "The number NaN cannot be converted to a BigInt because it is not an integer")

def isInCidr (clientIp cidr : List Char) : Except AppError Bool :=
  let parts := cidr.splitOn '/'
  let prefixLength := (parts[1]?).bind parseInt
  let client := normalizeIp clientIp
  let network := normalizeIp (parts[0]?.getD [])
  if isIPv4 network && isIPv4 client then
    .ok (ipv4ToInt client &&& ipv4Mask prefixLength = ipv4ToInt network &&& ipv4Mask prefixLength)
  else if isIPv6 network && isIPv6 client then do
    let mask ← ipv6Mask prefixLength
    let c ← ipv6ToBigInt client
    let n ← ipv6ToBigInt network
    return c &&& mask = n &&& mask
  else .ok false

def entryAllows (client entry : List Char) : Except AppError Bool :=
  if '/' ∈ entry then
    let parts := entry.splitOn '/'
    isInCidr client (normalizeIp (parts[0]?.getD []) ++ '/' :: (parts[1]?.getD []))
  else .ok (normalizeIp entry = client)

def anyAllows (client : List Char) : List String → Except AppError Bool
  | [] => .ok false
  | entry :: rest => do
    if ← entryAllows client entry.toList then return true
    anyAllows client rest

/-- `isIpAllowed`. An absent or empty list permits everyone; an unknown client passes no list. -/
def isIpAllowed (clientIp : Option String) (allowedIps : Option (List String)) :
    Except AppError Bool :=
  match allowedIps with
  | none | some [] => .ok true
  | some entries =>
    match clientIp with
    | none => .ok false
    | some ip => if ip = "" then .ok false else anyAllows (normalizeIp ip.toList) entries

theorem isIpAllowed_empty {clientIp : Option String} {allowedIps : Option (List String)}
    (h : allowedIps = none ∨ allowedIps = some []) :
    isIpAllowed clientIp allowedIps = .ok true := by
  rcases h with rfl | rfl <;> rfl

theorem isIpAllowed_unknown {allowedIps : Option (List String)}
    (h : isIpAllowed none allowedIps = .ok true) : allowedIps = none ∨ allowedIps = some [] := by
  match allowedIps with
  | none => exact .inl rfl
  | some [] => exact .inr rfl
  | some (_ :: _) => cases h

end StellarDonations.IpAllowlist
