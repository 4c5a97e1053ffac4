import Mathlib.Data.Rat.Defs
import StellarDonations.Errors

/-!
# Payments

What the services hand to the Stellar network and what they get back. The network itself is outside
the program: a submission is answered with a result or with a thrown error, and the answer is part
of the environment of a run.
-/

namespace StellarDonations.Stellar

/-- A normalized asset: `native`, or a code with its issuer. -/
structure Asset where
  isNative : Bool
  code : String
  issuer : Option String
  deriving DecidableEq, Repr

def Asset.native : Asset := ⟨true, "XLM", none⟩

def getAssetKey (a : Asset) : String :=
  if a.isNative then "native" else a.code ++ ":" ++ a.issuer.getD "null"

def isSameAsset (left right : Asset) : Bool := getAssetKey left = getAssetKey right

structure PaymentResult where
  transactionId : String
  ledger : ℕ
  /-- The latest ledger, when the network reports it. -/
  currentLedger : Option ℕ
  /-- The fee in stroops, when the network reports it. -/
  fee : Option ℚ
  deriving DecidableEq

/-- The answer to a submission: the promise resolves or rejects. -/
abbrev Answer := Except AppError PaymentResult

/-- The arguments of `sendDonation`. -/
structure Payment where
  sourceSecret : String
  destinationPublic : Option String
  amount : ℚ
  memo : String
  asset : Asset
  validAfter : ℤ
  validBefore : ℤ
  deriving DecidableEq

structure PaymentEnv where
  now : ℤ
  /-- The error of the SQL statement, should it fail. -/
  dbError : Option AppError
  /-- The result of the payment, with its hash. -/
  answer : Except AppError (Option String)
  /-- The payment succeeded although the call threw. -/
  lost : Bool

def PaymentEnv.paid (env : PaymentEnv) : Bool := env.answer.isOk || env.lost

theorem PaymentEnv.answer_ne_ok {env : PaymentEnv} (h : env.paid = false) {hash : Option String} :
    env.answer ≠ .ok hash := by
  intro hok
  rw [PaymentEnv.paid, hok] at h
  cases h

end StellarDonations.Stellar
