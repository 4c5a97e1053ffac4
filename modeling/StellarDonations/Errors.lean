import Mathlib.Data.Nat.Notation

/-!
# Errors

The error classes of the services and the codes they carry. A thrown value is data: its class, its
code when it has one, and its message. Codes that are not in the table of structured codes are
reported with the numeric code of an internal error.
-/

namespace StellarDonations

/-- The classes of the values the services throw. -/
inductive ErrorClass where
  | error
  | referenceError
  | typeError
  | rangeError
  | syntaxError
  | databaseError
  | validationError
  | notFoundError
  | businessLogicError
  | duplicateError
  | conflictError
  deriving DecidableEq, Repr

/-- The error codes the modelled functions use. -/
inductive ErrorCode where
  | validationError
  | invalidRequest
  | invalidAmount
  | missingRequiredField
  | unauthorized
  | notFound
  | donationNotFound
  | userNotFound
  | duplicateDonation
  | resourceConflict
  | transactionFailed
  | invalidStateTransition
  | donationApprovalExpired
  | donationAlreadyApprovedBySigner
  | recipientAccountNotFound
  | insufficientBalanceAfterReserve
  | missingSecretKey
  | databaseError
  | transactionNotFound
  | feeBumpMaxAttempts
  | feeBumpExceedsCap
  | feeBumpInvalidState
  | feeBumpNoEnvelope
  | feeBumpFailed
  -- codes given as plain strings
  | transactionExpired
  | memoCollision
  | refundWindowExpired
  | sorobanInvocationFailed
  | invalidAmountType
  | invalidAmountPrecision
  | amountTooLow
  | amountBelowMinimum
  | amountExceedsMaximum
  | dailyLimitExceeded
  | other (code : String)
  deriving DecidableEq, Repr

structure AppError where
  name : ErrorClass
  errorCode : Option ErrorCode
  message : String
  deriving DecidableEq, Repr

namespace AppError

/-- `new Error(message)`. -/
def plain (message : String) : AppError := ⟨.error, none, message⟩

/-- `new ValidationError(message)`. -/
def validation (message : String) : AppError := ⟨.validationError, some .validationError, message⟩

/-- `new ValidationError(message, details, errorCode)`. -/
def validationWith (code : ErrorCode) (message : String) : AppError :=
  ⟨.validationError, some code, message⟩

/-- `new NotFoundError(message, errorCode)`. -/
def notFound (code : ErrorCode) (message : String) : AppError :=
  ⟨.notFoundError, some code, message⟩

/-- `new BusinessLogicError(code, message)`. -/
def businessLogic (code : ErrorCode) (message : String) : AppError :=
  ⟨.businessLogicError, some code, message⟩

/-- `new DuplicateError(message, errorCode)`. -/
def duplicate (code : ErrorCode) (message : String) : AppError :=
  ⟨.duplicateError, some code, message⟩

/-- `new ConflictError(message)`. -/
def conflict (message : String) : AppError := ⟨.conflictError, some .resourceConflict, message⟩

/-- The error of the database for a violated `UNIQUE` constraint. -/
def uniqueViolation : AppError := .duplicate .duplicateDonation
  "Duplicate donation detected - this transaction has already been processed"

def wrongType (message : String) : AppError := ⟨.typeError, none, message⟩

/-- The engine's error for a text that `BigInt` does not take. -/
def notBigInt (text : String) : AppError :=
  ⟨.syntaxError, none, "Cannot convert " ++ text ++ " to a BigInt"⟩

/-- The engine's error for an identifier that no enclosing scope declares. -/
def undeclared (identifier : String) : AppError :=
  ⟨.referenceError, none, identifier ++ " is not defined"⟩

end AppError

end StellarDonations
