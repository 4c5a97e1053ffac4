import StellarDonations.Concurrency.Interleaving
import StellarDonations.Donations.Validation
import StellarDonations.Users

/-!
# Batches of donations

`DonationService.processBatch`: the donations of a batch are grouped by donor and the groups run
concurrently. A group first checks all its donations one by one. Then those that have passed are
paid in one transaction, or, when that throws, one by one; at the end each is recorded.

Every donation of a group is checked against the records, and none of the group is recorded before
the last check, so the checks do not see each other. And a payment that throws counts as not made,
although the network may have made it. What must hold of a batch is `Right`; it holds in every run
in which the donations that are accepted fit the limit together and payments that throw are not
made.
-/

namespace StellarDonations.Batch

open Concurrency Donations JsString Stellar Transactions

/-! ## Donations and the environment -/

structure Donation where
  /-- The number that `parseFloat` reads in the amount, when it is finite. -/
  amount : Option ℚ
  currency : Option String := none
  donor : Option String
  recipient : Option String
  memo : Option String := none
  idempotencyKey : Option String := none
  campaignId : Option ℕ := none

/-- A thrown value, as far as results tell about it. The error classes of the program set no
`code`. -/
structure Thrown where
  code : Option String := none
  message : String
  deriving DecidableEq

structure Services where
  config : Config
  sanitizeIdentifier : String → String
  /-- It leaves the name of the donor that is not named alone. -/
  sanitize_anonymous : sanitizeIdentifier "Anonymous" = "Anonymous"
  validateAndSanitizeMemo : Option String → Except AppError String
  toUpperCase : String → String
  /-- `SELECT * FROM users WHERE id = ?`. -/
  findUser : String → Option User
  decrypt : String → Except Thrown String

structure Env where
  now : ℕ
  /-- The first and last millisecond of the current day. -/
  day : ℕ × ℕ
  uuid : String
  convertToXLM : Except Thrown (Option ℚ)
  /-- The lookup of a user fails. -/
  lookupFails : Bool := false
  /-- The answer to a submission. -/
  answer : Except Thrown PaymentResult
  /-- The payments, by the index of their donation, that were made although the submission
  threw. -/
  applied : ℕ → Bool := fun _ ↦ false
  /-- The donation that goes on, when the group has fallen back. -/
  task : ℕ := 0

/-- A donation that has passed the checks. -/
structure Prepared where
  index : ℕ
  donation : Donation
  sanitizedDonor : String
  sanitizedRecipient : String
  xlmAmount : ℚ
  memo : String

/-- An entry of `results`. -/
inductive Outcome where
  | success (data : Record)
  | failure (code message : String) (fallback : Bool)

/-- `success`. -/
def Outcome.isSuccess : Outcome → Bool
  | success _ => true
  | failure .. => false

/-- The store and the results, with the donations accepted and the payments that the network has
made. -/
structure Shared where
  store : Store
  results : List (ℕ × Outcome) := []
  accepted : List Prepared := []
  payments : List Prepared := []

/-! ## The checks -/

section Checks

variable (svc : Services)

def groupKey (d : Donation) : String := orElse d.donor "Anonymous"

def sanitizedDonor (d : Donation) : String :=
  match orNull d.donor with
  | some donor => svc.sanitizeIdentifier donor
  | none => "Anonymous"

def normalizedCurrency (d : Donation) : String := svc.toUpperCase (orElse d.currency "XLM")

def xlmAmount (d : Donation) (env : Env) : Except Thrown (Option ℚ) :=
  if normalizedCurrency svc d ≠ "XLM" then env.convertToXLM else .ok d.amount

/-- `validateDonationAmount`, also of what is not a finite number. -/
def validateDonationAmount (store : Store) (amount : Option ℚ) (donor : String) (day : ℕ × ℕ) :
    Except AppError ℚ :=
  match amount with
  | none => .error (.validationWith .invalidAmountType "Amount must be a valid finite number")
  | some x => (svc.config.validateDonationAmount store x donor day).map fun _ ↦ x

def thrown {α : Type} (r : Except AppError α) : Except Thrown α :=
  r.mapError fun e ↦ { message := e.message }

def prepare (store : Store) (index : ℕ) (d : Donation) (env : Env) : Except Thrown Prepared := do
  let amount ← xlmAmount svc d env
  let xlm ← thrown (validateDonationAmount svc store amount (sanitizedDonor svc d) env.day)
  let memo ← thrown (svc.validateAndSanitizeMemo d.memo)
  return {
    index
    donation := d
    sanitizedDonor := sanitizedDonor svc d
    sanitizedRecipient := (d.recipient.map svc.sanitizeIdentifier).getD ""
    xlmAmount := xlm
    memo }

end Checks

/-! ## Paying and recording -/

/-- The language prints the number without an exponent, which `toStroops` does not read. -/
def IsPlain (x : ℚ) : Prop := 1 / 10 ^ 6 ≤ x ∧ x < 10 ^ 21

instance decidableIsPlain : DecidablePred IsPlain := fun _ ↦ inferInstanceAs (Decidable (_ ∧ _))

/-- The argument of `Transaction.create`. -/
def draft (svc : Services) (p : Prepared) (result : Option PaymentResult) : Draft :=
  let converted := normalizedCurrency svc p.donation ≠ "XLM"
  { amount := p.xlmAmount
    originalAmount := if converted then p.donation.amount else none
    originalCurrency := if converted then some (normalizedCurrency svc p.donation) else none
    donor := some p.sanitizedDonor
    recipient := some p.sanitizedRecipient
    memo := p.memo
    idempotencyKey := p.donation.idempotencyKey
    analyticsFee := some (calculateAnalyticsFee p.xlmAmount)
    analyticsFeePercentage := some 2
    stellarTxId := result.map (·.transactionId)
    stellarLedger := result.map (·.ledger) }

/-- `calculateAnalyticsFee` and `Transaction.create`. -/
def record (svc : Services) (store : Store) (p : Prepared) (result : Option PaymentResult)
    (env : Env) : Except Thrown (Store × Record) :=
  if IsPlain p.xlmAmount then thrown (store.create (draft svc p result) env.uuid env.now)
  else .error { message := "Invalid XLM amount: " ++ svc.config.showNumber p.xlmAmount }

/-- `getUserById(…).catch(() => null)`, with the encrypted secret when there is one. -/
def lookupSecret (svc : Services) (donor : String) (env : Env) : Option String :=
  if env.lookupFails then none
  else (svc.findUser donor).bind fun user ↦ orNull user.encryptedSecret

/-- The donor has an account that the service can sign for. -/
def hasSecret (svc : Services) (donor : String) : Bool :=
  ((svc.findUser donor).bind fun user ↦ orNull user.encryptedSecret).isSome

/-- Where a donation is suspended after its group has fallen back. -/
inductive Individual where
  | lookingUp (p : Prepared)
  | sending (p : Prepared)
  /-- On `processBatchDonationFollowUp`. -/
  | followingUp (p : Prepared) (transaction : Record)

inductive Group where
  | validating (prepared : List Prepared) (rest : List (ℕ × Donation))
  | lookingUp (prepared : List Prepared)
  /-- On `sendBatchDonations`. -/
  | sending (prepared : List Prepared)
  /-- On `processBatchDonationFollowUp`, after the donations were paid together. -/
  | followingUp (result : PaymentResult) (p : Prepared) (transaction : Record)
      (rest : List Prepared)
  | fallingBack (tasks : List Individual)
  | ended
  /-- The group threw, and `processBatch` with it. -/
  | rejected (e : Thrown)

/-- `results[index] = …`. -/
def Shared.report (sh : Shared) (index : ℕ) (o : Outcome) : Shared :=
  { sh with results := sh.results ++ [(index, o)] }

def Shared.pay (sh : Shared) (ps : List Prepared) : Shared :=
  { sh with payments := sh.payments ++ ps }

/-- The result of a donation whose check threw. -/
def checkFailed (e : Thrown) : Outcome :=
  .failure (orElse e.code "VALIDATION_ERROR") e.message false

/-- The result of a donation that threw after the group had fallen back. -/
def fallbackFailed (e : Thrown) : Outcome :=
  .failure (orElse e.code "TRANSACTION_FAILED") e.message true

/-- What follows the checks, when they are done. -/
def afterChecks (prepared : List Prepared) : List (ℕ × Donation) → Group
  | [] => if prepared.isEmpty then .ended else .lookingUp prepared
  | rest => .validating prepared rest

def fallBack (prepared : List Prepared) : Group := .fallingBack (prepared.map .lookingUp)

/-- The loop over the donations that were paid together. -/
def recordNext (svc : Services) (sh : Shared) (result : PaymentResult) (env : Env) :
    List Prepared → Shared × Group
  | [] => (sh, .ended)
  | p :: rest =>
    match record svc sh.store p (some result) env with
    | .ok (store, transaction) => ({ sh with store }, .followingUp result p transaction rest)
    | .error e => (sh, .rejected e)

/-- The record of a donation after the group has fallen back. -/
def recordIndividual (svc : Services) (sh : Shared) (p : Prepared) (result : Option PaymentResult)
    (env : Env) : Shared × Option Individual :=
  match record svc sh.store p result env with
  | .ok (store, transaction) => ({ sh with store }, some (.followingUp p transaction))
  | .error e => (sh.report p.index (fallbackFailed e), none)

/-- Resume a donation after its group has fallen back. -/
def resumeIndividual (svc : Services) (sh : Shared) (env : Env) :
    Individual → Shared × Option Individual
  | .lookingUp p =>
    match lookupSecret svc p.sanitizedDonor env with
    | none => recordIndividual svc sh p none env
    | some encrypted =>
      match svc.decrypt encrypted with
      | .ok _ => (sh, some (.sending p))
      | .error e => (sh.report p.index (fallbackFailed e), none)
  | .sending p =>
    match env.answer with
    | .ok result => recordIndividual svc (sh.pay [p]) p (some result) env
    | .error e =>
      ((sh.pay (if env.applied p.index then [p] else [])).report p.index (fallbackFailed e), none)
  | .followingUp p transaction => (sh.report p.index (.success transaction), none)

def resume (svc : Services) (sh : Shared) (g : Group) (env : Env) : Shared × Group :=
  match g with
  | .validating prepared [] => (sh, afterChecks prepared [])
  | .validating prepared ((index, d) :: rest) =>
    match prepare svc sh.store index d env with
    | .ok p => ({ sh with accepted := sh.accepted ++ [p] }, afterChecks (prepared ++ [p]) rest)
    | .error e => (sh.report index (checkFailed e), afterChecks prepared rest)
  | .lookingUp prepared =>
    match prepared.head?.bind fun p ↦ lookupSecret svc p.sanitizedDonor env with
    | none => (sh, fallBack prepared)
    | some encrypted =>
      match svc.decrypt encrypted with
      | .ok _ => (sh, .sending prepared)
      | .error _ => (sh, fallBack prepared)
  | .sending prepared =>
    match env.answer with
    | .ok result => recordNext svc (sh.pay prepared) result env prepared
    | .error _ => (sh.pay (prepared.filter fun p ↦ env.applied p.index), fallBack prepared)
  | .followingUp result p transaction rest =>
    recordNext svc (sh.report p.index (.success transaction)) result env rest
  | .fallingBack tasks =>
    match tasks[env.task]? with
    | none => (sh, g)
    | some task =>
      match resumeIndividual svc sh env task with
      | (sh', some task') => (sh', .fallingBack (tasks.set env.task task'))
      | (sh', none) => (sh', .fallingBack (tasks.eraseIdx env.task))
  | .ended | .rejected _ => (sh, g)

/-! ## Runs -/

/-- The services, the donations of the batch, and the store and the day when it begins. -/
structure System where
  svc : Services
  donations : List Donation
  store : Store
  /-- The first and last millisecond of the day. -/
  day : ℕ × ℕ

/-- The groups, by their keys, and what they share. -/
abbrev State := Calls String Shared Group

/-- What can happen: a group goes on, or others change the store. -/
inductive Action where
  | resume (key : String) (env : Env)
  | others (store : Store)

variable (sys : System)

def System.group (key : String) : List (ℕ × Donation) :=
  (sys.donations.zipIdx.filter fun d ↦ groupKey d.1 = key).map fun d ↦ (d.2, d.1)

/-- All groups are made, and none has begun. -/
def System.start : State where
  shared := { store := sys.store }
  call key := afterChecks [] (sys.group key)

def step (s : State) : Action → State
  | .resume key env => Calls.step (resume sys.svc) s (key, env)
  | .others store => { s with shared := { s.shared with store } }

/-! ## What must hold -/

def Named (donor : String) : Prop := donor ≠ "" ∧ donor ≠ "Anonymous"

instance decidableNamed : DecidablePred Named := fun _ ↦ inferInstanceAs (Decidable (_ ∧ _))

def amountOf (ps : List Prepared) (donor : String) : ℚ :=
  ((ps.filter (·.sanitizedDonor = donor)).map (·.xlmAmount)).sum

/-- What the donor has given on the day before the batch. -/
def System.earlier (donor : String) : ℚ :=
  sys.store.getDailyTotalByDonor donor sys.day.1 sys.day.2

/-- The resumptions a donation takes at most after its group has fallen back. -/
def Individual.work : Individual → ℕ
  | lookingUp _ => 3
  | sending _ => 2
  | followingUp .. => 1

/-- The resumptions a group takes at most. -/
def Group.work : Group → ℕ
  | validating prepared rest => 3 * prepared.length + 4 * rest.length + 3
  | lookingUp prepared => 3 * prepared.length + 2
  | sending prepared => 3 * prepared.length + 1
  | followingUp _ _ _ rest => rest.length + 1
  | fallingBack tasks => (tasks.map (·.work)).sum
  | ended | rejected _ => 0

/-- The group can be resumed: when it has fallen back, by a donation that is not done. -/
def Group.Awaits (env : Env) : Group → Prop
  | fallingBack tasks => env.task < tasks.length
  | validating .. | lookingUp _ | sending _ | followingUp .. => True
  | ended | rejected _ => False

def Finished (s : State) : Prop := ∀ key, (s.call key).work = 0

structure Right (s : State) : Prop where
  /-- What a named donor pays fits the limit of the day. -/
  limit : ∀ p ∈ s.shared.payments, Named p.sanitizedDonor →
    sys.svc.config.maxDailyPerDonor ≠ 0 →
    sys.earlier p.sanitizedDonor + amountOf s.shared.payments p.sanitizedDonor ≤
      sys.svc.config.maxDailyPerDonor
  /-- No index gets two results, -/
  results_le : ∀ i, (s.shared.results.map (·.1)).count i ≤ 1
  /-- at the end each has got one, -/
  results_eq : Finished s → ∀ i < sys.donations.length, (s.shared.results.map (·.1)).count i = 1
  /-- the batch does not throw, -/
  alive : ∀ key e, s.call key ≠ .rejected e
  /-- and every resumption of a group brings its end nearer. -/
  progress : ∀ key env, (s.call key).Awaits env →
    ((step sys s (.resume key env)).call key).work < (s.call key).work
  /-- No donation is paid twice. -/
  paid_le : ∀ i, (s.shared.payments.map (·.index)).count i ≤ 1
  /-- Success is reported of the donations that are paid or need no payment. -/
  reported : ∀ r ∈ s.shared.results, r.2.isSuccess = true ↔
    (∃ p ∈ s.shared.payments, p.index = r.1) ∨
      ∃ p ∈ s.shared.accepted, p.index = r.1 ∧ hasSecret sys.svc p.sanitizedDonor = false

/-- The donation fits the limit of its donor together with those accepted before. -/
def Fits (sh : Shared) (p : Prepared) : Prop :=
  Named p.sanitizedDonor → hasSecret sys.svc p.sanitizedDonor = true →
    sys.svc.config.maxDailyPerDonor ≠ 0 →
    sys.earlier p.sanitizedDonor + (amountOf sh.accepted p.sanitizedDonor + p.xlmAmount) ≤
      sys.svc.config.maxDailyPerDonor

/-- The store does not know of all that the donor has given on the day, when the donation is
checked. -/
def Behind (sh : Shared) (env : Env) (p : Prepared) : Prop :=
  sh.store.getDailyTotalByDonor p.sanitizedDonor env.day.1 env.day.2 <
    sys.earlier p.sanitizedDonor + amountOf sh.accepted p.sanitizedDonor

/-- A submission that throws has made no payment. -/
def Env.Reliable (env : Env) (ps : List Prepared) : Prop :=
  ∀ e, env.answer = .error e → ∀ p ∈ ps, env.applied p.index = false

/-- The condition on the resumption of a donation: a payment that throws is not made, and the user
of a donor with a secret is found. -/
def Individual.Guarded (env : Env) : Individual → Prop
  | lookingUp p => env.lookupFails = true → hasSecret sys.svc p.sanitizedDonor = false
  | sending p => env.Reliable [p]
  | followingUp .. => True

/-- The condition on the resumption of a group: the amount of a donation that is accepted is printed
without an exponent, and fits the limit where the check cannot tell. -/
def Group.Guarded (sh : Shared) (env : Env) : Group → Prop
  | validating _ ((index, d) :: _) => ∀ p, prepare sys.svc sh.store index d env = .ok p →
      IsPlain p.xlmAmount ∧ (Behind sys sh env p → Fits sys sh p)
  | sending prepared => env.Reliable prepared
  | fallingBack tasks => ∀ task ∈ tasks[env.task]?, task.Guarded sys env
  | validating _ [] | lookingUp _ | followingUp .. | ended | rejected _ => True

def Action.Guarded (s : State) : Action → Prop
  | resume key env => (s.call key).Guarded sys s.shared env
  | others _ => True

end StellarDonations.Batch
