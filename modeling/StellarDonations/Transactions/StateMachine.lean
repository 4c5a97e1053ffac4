import StellarDonations.Errors
import StellarDonations.Text.JsString

/-!
# The transaction state machine

`utils/transactionStateMachine.js`: the states a transaction record can be in, the names callers
may use for them, and the transitions between them. A record's status is a string, because not
every writer goes through this module; the state machine is what `Transaction.updateStatus` checks
a status against.
-/

namespace StellarDonations.Transactions

open JsString

/-! ## States and their names -/

inductive TransactionState where
  | pending
  | queued
  | submitted
  | pendingConfirmation
  | confirmed
  | failed
  | expired
  deriving DecidableEq, Repr

namespace TransactionState

def name : TransactionState → String
  | pending => "pending"
  | queued => "queued"
  | submitted => "submitted"
  | pendingConfirmation => "pending_confirmation"
  | confirmed => "confirmed"
  | failed => "failed"
  | expired => "expired"

/-- `Object.values(TRANSACTION_STATES)`. -/
def all : List TransactionState :=
  [pending, queued, submitted, pendingConfirmation, confirmed, failed, expired]

def ofName (s : String) : Option TransactionState := all.find? (·.name = s)

theorem name_injective : Function.Injective name := by
  intro s t h
  cases s <;> cases t <;> first | rfl | exact absurd h (by decide)

theorem ofName_eq_some {s : String} {t : TransactionState} : ofName s = some t ↔ t.name = s := by
  constructor
  · intro h
    simpa using List.find?_some h
  · rintro rfl
    cases t <;> decide

end TransactionState

/-- `TRANSACTION_STATES` as the object it is: its own properties with their values. -/
def transactionStates : List (String × TransactionState) :=
  [("PENDING", .pending), ("QUEUED", .queued), ("SUBMITTED", .submitted),
    ("PENDING_CONFIRMATION", .pendingConfirmation), ("CONFIRMED", .confirmed),
    ("FAILED", .failed), ("EXPIRED", .expired)]

/-- `TRANSACTION_STATES[key]`: `undefined` when the object has no such property. -/
def transactionStates.get (key : String) : Option String :=
  (transactionStates.lookup key).map TransactionState.name

def legacyStateAliases : List (String × TransactionState) :=
  [("completed", .confirmed), ("cancelled", .failed)]

/-- `normalizeState`: a missing state is `pending`, the rest is lowered and trimmed and its legacy
alias resolved. -/
def normalizeState (state : Option String) : String :=
  if truthy state then
    let normalized := trim (toLowerCase (state.getD ""))
    match legacyStateAliases.lookup normalized with
    | some s => s.name
    | none => normalized
  else TransactionState.pending.name

def isValidState (state : String) : Bool := (TransactionState.ofName state).isSome

theorem isValidState_iff {state : String} :
    isValidState state = true ↔ ∃ s : TransactionState, s.name = state := by
  rw [isValidState, Option.isSome_iff_exists]
  exact exists_congr fun s ↦ TransactionState.ofName_eq_some

@[simp] theorem isValidState_name (s : TransactionState) : isValidState s.name = true :=
  isValidState_iff.mpr ⟨s, rfl⟩

def invalidStateMessage (context state : String) : String :=
  "Invalid transaction " ++ context ++ ": \"" ++ state ++ "\". Valid states: "
    ++ ", ".intercalate (TransactionState.all.map TransactionState.name)

/-- `assertValidState`, which hands the state on that the string names. -/
def assertValidState (state context : String) : Except AppError TransactionState :=
  match TransactionState.ofName state with
  | some s => .ok s
  | none => .error (.validationWith .invalidRequest (invalidStateMessage context state))

theorem assertValidState_eq_ok {state context : String} {s : TransactionState} :
    assertValidState state context = .ok s ↔ s.name = state := by
  rw [← TransactionState.ofName_eq_some, assertValidState]
  cases TransactionState.ofName state <;> simp

/-! ## Transitions -/

def validTransitions : TransactionState → List TransactionState
  | .pending => [.queued, .submitted, .pendingConfirmation, .confirmed, .failed]
  | .queued => [.submitted, .failed]
  | .submitted => [.pendingConfirmation, .confirmed, .failed]
  | .pendingConfirmation => [.confirmed, .failed]
  | .confirmed => [.failed]
  | .failed => []
  | .expired => []

/-- `canTransition`: staying in a state is always allowed. -/
def canTransition (fromState toState : TransactionState) : Bool :=
  fromState = toState || toState ∈ validTransitions fromState

def assertValidTransition (fromState toState : TransactionState) : Except AppError Unit :=
  if canTransition fromState toState then .ok ()
  else .error (.businessLogic .invalidStateTransition
    ("Invalid transaction state transition: " ++ fromState.name ++ " → " ++ toState.name))

end StellarDonations.Transactions
