import Mathlib.Data.Rat.Floor
import StellarDonations.Errors
import StellarDonations.Text.JsNumber

/-!
# Signed requests

`requestSigner.verify` and the nonce store. A signature covers the method, the path, a timestamp and
the body; it is accepted within five minutes of its timestamp. A nonce is remembered for as long,
and the oldest ones are dropped when there are too many.
-/

namespace StellarDonations.RequestSigning

open JsString

/-- The digests of the platform, as hexadecimal text. -/
structure Digests where
  /-- `crypto.createHash('sha256').update(text).digest('hex')`. -/
  sha256Hex : String → String
  /-- `crypto.createHmac('sha256', key).update(text).digest('hex')`. -/
  hmacHex : String → String → String

def signatureMaxAgeMs : ℤ := 5 * 60 * 1000

/-- What `verify` returns. -/
inductive Verification where
  | valid
  | invalid (reason : String)
  deriving DecidableEq, Repr

def buildCanonicalString (method path timestamp bodyHash : String) : String :=
  String.ofList (method.toList.map Char.toUpper) ++ "\n" ++ path ++ "\n" ++ timestamp ++ "\n"
    ++ bodyHash

/-- The comparison of the digests: bytes that the signature lacks count as zero. -/
def matchesDigest (expected signature : String) : Bool :=
  let expectedBytes := bufferFromHex expected
  let actualBytes := bufferFromHex signature
  signature.length = expected.length &&
    (List.range expectedBytes.length).all fun i ↦ expectedBytes.getD i 0 = actualBytes.getD i 0

/-- The timestamp is neither too old nor too far in the future. -/
def isFresh (seconds : ℚ) (nowMs : ℤ) : Bool :=
  let age := (nowMs : ℚ) - seconds * 1000
  !(decide ((signatureMaxAgeMs : ℚ) < age) || decide (age < -30000))

/-- `verify`. A key without a secret is refused by the platform. -/
def verify (dg : Digests) (secret : Option String) (method path : String)
    (timestamp signature : Option String) (body : String) (nowMs : ℤ) :
    Except AppError Verification :=
  match timestamp.filter (· ≠ ""), signature.filter (· ≠ "") with
  | some timestamp, some signature =>
    match JsNumber.ofString timestamp with
    | none => .ok (.invalid "Invalid X-Timestamp value")
    | some seconds =>
      if !isFresh seconds nowMs then
        .ok (.invalid "Request timestamp expired or too far in the future")
      else match secret with
        | none => .error (.wrongType "The \"key\" argument must be of type string")
        | some secret =>
          let canonical := buildCanonicalString method path timestamp (dg.sha256Hex body)
          if matchesDigest (dg.hmacHex secret canonical) signature then .ok .valid
          else .ok (.invalid "Signature mismatch")
  | _, _ => .ok (.invalid "Missing X-Timestamp or X-Signature header")

/-! ## Nonces -/

/-- The nonces in the order they were stored, with the time each expires at. -/
abbrev Nonces := List (String × ℤ)

/-- The nonce is stored and has not expired. -/
def seen (nonces : Nonces) (nonce : String) (now : ℤ) : Bool :=
  (nonces.find? (·.1 = nonce)).any fun entry ↦ now < entry.2

/-- The part of `NonceStore.check` that records a nonce and evicts the oldest ones. -/
def store (nonces : Nonces) (maxSize : ℕ) (nonce : String) (now : ℤ) : Nonces :=
  let stored := nonces.filter (·.1 ≠ nonce) ++ [(nonce, now + signatureMaxAgeMs)]
  stored.drop (stored.length - maxSize)

end StellarDonations.RequestSigning
