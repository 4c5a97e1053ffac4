import StellarDonations.Errors
import StellarDonations.Text.JsString

/-!
# Users

The rows of `users` that custodial services read, and the two lookups of `DonationService`.
-/

namespace StellarDonations

open JsString

structure User where
  id : ℕ
  publicKey : String
  encryptedSecret : Option String
  deriving DecidableEq

def getUserById (users : List User) (userId : ℕ) (userType : String) : Except AppError User :=
  match users.find? (·.id = userId) with
  | some user => .ok user
  | none => .error (.notFound .userNotFound (userType ++ " not found"))

def validateSenderSecret (sender : User) : Except AppError String :=
  match orNull sender.encryptedSecret with
  | some encrypted => .ok encrypted
  | none => .error (.validationWith .missingSecretKey "Sender has no secret key configured")

end StellarDonations
