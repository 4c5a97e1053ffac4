import Mathlib.Data.List.MinMax
import Mathlib.Data.Rat.Defs
import StellarDonations.Concurrency.Interleaving
import StellarDonations.Text.Json
import StellarDonations.Transactions.StateMachine

/-!
# The donation queue

`createQueuedDonation` writes donations into the queue, and `processBatch` is meant to submit them.
A call of `processBatch` is suspended on every SQL statement and on every submission.

Two things keep it from submitting anything. The module reads `circuitBreaker` from
`utils/circuitBreaker`, which exports only `CircuitBreaker` and `STATES`, so that the first
statement of a batch throws. And the row of a donation has no `data`, which is where the loop looks
for the payment. With a breaker and the data in place a batch would pay and then mark, and nothing
would keep two of them from paying for the same row.
-/

namespace StellarDonations.Queue

open Concurrency JsString Transactions

/-! ## The table -/

structure DonationRow where
  id : ℕ
  status : TransactionState
  amount : ℚ
  currency : String
  donor : Option String
  recipient : String
  memo : Option String
  sourceAsset : Option String
  sourceAmount : Option ℚ
  notes : Option String
  tags : Option String
  anonymous : ℕ
  encryptMemo : ℕ
  campaignId : Option ℕ
  queuedAt : ℕ
  queueAttempts : ℕ
  lastQueueError : Option String
  createdAt : ℕ
  updatedAt : ℕ
  /-- The columns that `createQueuedDonation` does not set. -/
  data : Option String
  stellarTxId : Option String
  deletedAt : Option ℕ
  deriving DecidableEq

/-- The functions of the language that read and write JSON. -/
structure Config where
  parse : String → Except AppError (Json ℚ)
  stringify : Json ℚ → String

/-- `module.exports` of `utils/circuitBreaker`. -/
def circuitBreakerExports : List String := ["CircuitBreaker", "STATES"]

/-! ## `createQueuedDonation` -/

/-- A donation as it is passed on when the network cannot be reached. -/
structure Donation where
  amount : ℚ
  currency : Option String
  donor : Option String
  recipient : String
  memo : Option String
  sourceAsset : Option (Json ℚ)
  sourceAmount : Option ℚ
  notes : Option String
  tags : Option (Json ℚ)
  anonymous : Bool
  encryptMemo : Bool
  campaignId : Option ℕ
  createdAt : Option ℕ

/-- What `createQueuedDonation` returns. -/
structure Created where
  id : ℕ
  status : TransactionState
  amount : ℚ
  recipient : String
  deriving DecidableEq

def nextId (rows : List DonationRow) : ℕ := (rows.map (·.id)).foldr max 0 + 1

def queuedRow (cfg : Config) (donation : Donation) (reason : String) (now id : ℕ) :
    DonationRow where
  id := id
  status := .queued
  amount := donation.amount
  currency := orElse donation.currency "XLM"
  donor := orNull donation.donor
  recipient := donation.recipient
  memo := orNull donation.memo
  sourceAsset := donation.sourceAsset.map cfg.stringify
  sourceAmount := donation.sourceAmount.filter (· ≠ 0)
  notes := orNull donation.notes
  tags := donation.tags.map cfg.stringify
  anonymous := donation.anonymous.toNat
  encryptMemo := donation.encryptMemo.toNat
  campaignId := donation.campaignId.filter (· ≠ 0)
  queuedAt := now
  queueAttempts := 0
  lastQueueError := some reason
  createdAt := (donation.createdAt.filter (· ≠ 0)).getD now
  updatedAt := now
  data := none
  stellarTxId := none
  deletedAt := none

/-- `createQueuedDonation`, with the error of its statement, should it fail. -/
def createQueuedDonation (cfg : Config) (rows : List DonationRow) (donation : Donation)
    (reason : Option String) (now : ℕ) (dbError : Option AppError) :
    Except AppError (List DonationRow × Created) :=
  match dbError with
  | some e => .error e
  | none =>
    let reason := reason.getD "Horizon API unreachable"
    .ok (rows ++ [queuedRow cfg donation reason now (nextId rows)],
      ⟨nextId rows, .queued, donation.amount, donation.recipient⟩)

/-! ## `processBatch` -/

def maxQueueAttempts : ℕ := 10

def defaultBatchSize : ℕ := 50

structure Selected where
  id : ℕ
  data : Option String
  queueAttempts : ℕ
  memo : Option String
  deriving DecidableEq

/-- What is submitted. A field that the data do not have is `undefined`. -/
structure Payment where
  sourceAccount : Option (Json ℚ)
  amount : Option (Json ℚ)
  destination : Option (Json ℚ)
  asset : Option (Json ℚ)
  memo : Option String
  fee : Option (Json ℚ)

def property (k : String) : Json ℚ → Except AppError (Option (Json ℚ))
  | .null => .error (.wrongType ("Cannot read properties of null (reading '" ++ k ++ "')"))
  | .obj fields => .ok ((fields.find? (·.1 = k)).map (·.2))
  | _ => .ok none

def paymentOf (cfg : Config) (row : Selected) : Except AppError Payment := do
  let donationData ← row.data.elim (pure Json.null) cfg.parse
  return {
    sourceAccount := ← property "sourceAccount" donationData
    amount := ← property "amount" donationData
    destination := ← property "destination" donationData
    asset := ← property "asset" donationData
    memo := row.memo
    fee := ← property "fee" donationData }

structure Tally where
  processed : ℕ
  succeeded : ℕ
  failed : ℕ
  deriving DecidableEq

inductive Call where
  | start (batchSize : Option ℕ)
  | select (batchSize : ℕ)
  | submit (row : Selected) (payment : Payment) (rest : List Selected) (tally : Tally)
  | markSubmitted (row : Selected) (hash : String) (rest : List Selected) (tally : Tally)
  | recordError (row : Selected) (message : String) (rest : List Selected) (tally : Tally)
  | markFailed (row : Selected) (message : String) (rest : List Selected) (tally : Tally)
  | returned (tally : Tally)
  | threw (e : AppError)

inductive Submission where
  | accepted (hash : String)
  | rejected (e : AppError)
  /-- An error is reported, but the payment is made. -/
  | lost (e : AppError)

structure Env where
  now : ℕ
  /-- The error of the statement, should it fail. -/
  dbError : Option AppError
  breakerOpen : Bool
  submission : Submission

/-- The table, and the donations whose submissions succeeded. -/
structure Shared where
  rows : List DonationRow
  submissions : List (ℕ × Payment)

namespace Shared

def selection (sh : Shared) (batchSize : ℕ) : List Selected :=
  (((sh.rows.filter fun r ↦ r.status = .queued ∧ r.queueAttempts < maxQueueAttempts ∧
    r.deletedAt = none).insertionSort (·.queuedAt ≤ ·.queuedAt)).take batchSize).map
      fun r ↦ ⟨r.id, r.data, r.queueAttempts, r.memo⟩

/-- `UPDATE donations … WHERE id = ?`. -/
def update (sh : Shared) (id : ℕ) (f : DonationRow → DonationRow) : Shared :=
  { sh with rows := sh.rows.map fun r ↦ if r.id = id then f r else r }

end Shared

/-- The loop, up to the next submission or statement. -/
def nextRow (cfg : Config) (tally : Tally) : List Selected → Call
  | [] => .returned tally
  | row :: rest =>
    match paymentOf cfg row with
    | .ok payment => .submit row payment rest tally
    | .error e => .recordError row e.message rest tally

/-- The batch has got as far as the end of a failed row. -/
def Tally.fail (tally : Tally) : Tally := { tally with failed := tally.failed + 1 }

def Tally.succeed (tally : Tally) : Tally := { tally with succeeded := tally.succeeded + 1 }

/-- Resume a call, the module `utils/circuitBreaker` exporting the names. -/
def resume (exports : List String) (cfg : Config) (sh : Shared) (c : Call) (env : Env) :
    Shared × Call :=
  match c with
  | .start batchSize =>
    if "circuitBreaker" ∈ exports then
      (sh, if env.breakerOpen then .returned ⟨0, 0, 0⟩
        else .select (batchSize.getD defaultBatchSize))
    else (sh, .threw (.wrongType "Cannot read properties of undefined (reading 'isOpen')"))
  | .select batchSize =>
    match env.dbError with
    | some e => (sh, .threw e)
    | none =>
      (sh, nextRow cfg ⟨(sh.selection batchSize).length, 0, 0⟩ (sh.selection batchSize))
  | .submit row payment rest tally =>
    match env.submission with
    | .accepted hash =>
      ({ sh with submissions := sh.submissions ++ [(row.id, payment)] },
        .markSubmitted row hash rest tally)
    | .rejected e => (sh, .recordError row e.message rest tally)
    | .lost e =>
      ({ sh with submissions := sh.submissions ++ [(row.id, payment)] },
        .recordError row e.message rest tally)
  | .markSubmitted row hash rest tally =>
    match env.dbError with
    | some e => (sh, .recordError row e.message rest tally)
    | none =>
      (sh.update row.id fun r ↦
        { r with
          status := .submitted
          stellarTxId := some hash
          queueAttempts := r.queueAttempts + 1
          lastQueueError := none
          updatedAt := env.now },
        nextRow cfg tally.succeed rest)
  | .recordError row message rest tally =>
    match env.dbError with
    | some e => (sh, .threw e)
    | none =>
      (sh.update row.id fun r ↦
        { r with
          queueAttempts := r.queueAttempts + 1
          lastQueueError := some message
          updatedAt := env.now },
        if row.queueAttempts + 1 ≥ maxQueueAttempts then .markFailed row message rest tally
        else nextRow cfg tally.fail rest)
  | .markFailed row message rest tally =>
    match env.dbError with
    | some e => (sh, .threw e)
    | none =>
      (sh.update row.id fun r ↦
        { r with
          status := .failed
          lastQueueError := some ("Queue processing failed after " ++ toString maxQueueAttempts ++
            " attempts: " ++ message)
          updatedAt := env.now },
        nextRow cfg tally.fail rest)
  | .returned _ | .threw _ => (sh, c)

def start {ι : Type*} (rows : List DonationRow) (batchSize : ι → Option ℕ) :
    Calls ι Shared Call where
  shared := ⟨rows, []⟩
  call i := .start (batchSize i)

/-! ## At most once -/

/-- The donation that a call has submitted and not yet marked. -/
def Call.owes : Call → Option ℕ
  | .markSubmitted row _ _ _ => some row.id
  | _ => none

/-- The donations whose submissions succeeded, as often as they did. -/
def Shared.submitted (sh : Shared) : List ℕ := sh.submissions.map (·.1)

section Once

variable {ι : Type*}

/-- Every donation is submitted at most once. One that was submitted has not failed, and is queued
only while the call that submitted it still has to mark it. -/
structure OnceOnly (s : Calls ι Shared Call) : Prop where
  once : ∀ id, s.shared.submitted.count id ≤ 1
  failed : ∀ row ∈ s.shared.rows, row.status = .failed → row.id ∉ s.shared.submitted
  queued : ∀ row ∈ s.shared.rows, row.status = .queued → row.id ∈ s.shared.submitted →
    ∃ i, row.id ∈ (s.call i).owes

/-- Nothing has been submitted, and every call is about to throw, or has thrown. -/
structure Stuck (s : Calls ι Shared Call) : Prop where
  submissions : s.shared.submissions = []
  calls : ∀ i, (∃ n, s.call i = .start n) ∨ ∃ e, s.call i = .threw e

theorem Stuck.onceOnly {s : Calls ι Shared Call} (hs : Stuck s) : OnceOnly s := by
  have hnone : s.shared.submitted = [] := by rw [Shared.submitted, hs.submissions, List.map_nil]
  constructor
  case once =>
    intro id
    rw [hnone]
    exact Nat.zero_le 1
  case failed =>
    intro row _ _
    rw [hnone]
    exact List.not_mem_nil
  case queued =>
    intro row _ _ hmem
    rw [hnone] at hmem
    cases hmem

variable [DecidableEq ι]

/-- `circuitBreaker` is not exported, and reading a property of it throws. -/
theorem Stuck.step {cfg : Config} {s : Calls ι Shared Call} (hs : Stuck s) (a : ι × Env) :
    Stuck (Calls.step (resume circuitBreakerExports cfg) s a) := by
  obtain ⟨i, env⟩ := a
  have hresume : (resume circuitBreakerExports cfg s.shared (s.call i) env).1 = s.shared ∧
      ∃ e, (resume circuitBreakerExports cfg s.shared (s.call i) env).2 = .threw e := by
    rcases hs.calls i with ⟨n, hcall⟩ | ⟨e, hcall⟩
    · rw [hcall]
      exact ⟨rfl, _, rfl⟩
    · rw [hcall]
      exact ⟨rfl, e, rfl⟩
  constructor
  · rw [Calls.step_shared, hresume.1]
    exact hs.submissions
  · intro j
    by_cases hj : j = i
    · subst hj
      rw [Calls.step_call_self]
      exact .inr hresume.2
    · rw [Calls.step_call_of_ne s env hj]
      exact hs.calls j

/-- **At most once.** With the exports that `utils/circuitBreaker` has, no run of `processBatch`
submits anything, whatever is in the queue and however its calls overlap and fail. -/
theorem processBatch_onceOnly (cfg : Config) (rows : List DonationRow)
    (batchSize : ι → Option ℕ) (as : List (ι × Env)) :
    Always (Calls.step (resume circuitBreakerExports cfg)) OnceOnly (start rows batchSize) as := by
  refine (always_of_step (fun s a (hs : Stuck s) ↦ hs.step a) ?_ as).mono fun s hs ↦ hs.onceOnly
  exact ⟨rfl, fun i ↦ .inl ⟨batchSize i, rfl⟩⟩

end Once

/-! ## The round trip -/

structure Payment.Carries (p : Payment) (donation : Donation) : Prop where
  destination : p.destination = some (.str donation.recipient)
  amount : p.amount = some (.num donation.amount)
  asset : p.asset = some (.str (orElse donation.currency "XLM"))
  memo : p.memo = orNull donation.memo

def DonationRow.selected (r : DonationRow) : Selected := ⟨r.id, r.data, r.queueAttempts, r.memo⟩

/-- A batch that reaches the row submits the payment that was asked for. -/
def RoundTrips (cfg : Config) (donation : Donation) (r : DonationRow) : Prop :=
  ∃ p : Payment, paymentOf cfg r.selected = .ok p ∧ p.Carries donation

theorem paymentOf_of_data_eq_none (cfg : Config) {row : Selected} (h : row.data = none) :
    paymentOf cfg row =
      .error (.wrongType "Cannot read properties of null (reading 'sourceAccount')") := by
  rw [paymentOf, h]
  rfl

def Blank (id : ℕ) (rows : List Selected) : Prop := ∀ row ∈ rows, row.id = id → row.data = none

/-- The call does not submit the donation, nor will it. -/
def Call.Passes (id : ℕ) : Call → Prop
  | .submit row _ rest _ => row.id ≠ id ∧ Blank id rest
  | .markSubmitted _ _ rest _ | .recordError _ _ rest _ | .markFailed _ _ rest _ => Blank id rest
  | _ => True

/-- The rows of the donation have no data, and nobody submits it. -/
structure Passed {ι : Type*} (id : ℕ) (s : Calls ι Shared Call) : Prop where
  data : ∀ r ∈ s.shared.rows, r.id = id → r.data = none
  calls : ∀ i, (s.call i).Passes id
  submissions : id ∉ s.shared.submitted

section RoundTrip

variable {id : ℕ} {cfg : Config} {sh : Shared}

theorem passes_nextRow (tally : Tally) {rows : List Selected} (h : Blank id rows) :
    (nextRow cfg tally rows).Passes id := by
  cases rows with
  | nil => trivial
  | cons row rest =>
    have hrest : Blank id rest := fun r hr ↦ h r (List.mem_cons_of_mem row hr)
    rw [nextRow]
    split
    · next payment hpayment =>
      -- a row of the donation has no payment to submit
      refine ⟨?_, hrest⟩
      rintro rfl
      cases (paymentOf_of_data_eq_none cfg (h row List.mem_cons_self rfl)).symm.trans hpayment
    · exact hrest

theorem blank_selection (h : ∀ r ∈ sh.rows, r.id = id → r.data = none) (batchSize : ℕ) :
    Blank id (sh.selection batchSize) := by
  intro row hrow hid
  obtain ⟨r, hr, rfl⟩ := List.mem_map.mp hrow
  have hsorted := (List.mem_insertionSort _).mp (List.mem_of_mem_take hr)
  exact h r (List.mem_of_mem_filter hsorted) hid

theorem data_update (h : ∀ r ∈ sh.rows, r.id = id → r.data = none) (k : ℕ)
    {f : DonationRow → DonationRow} (hid : ∀ r, (f r).id = r.id)
    (hdata : ∀ r, (f r).data = r.data) : ∀ r ∈ (sh.update k f).rows, r.id = id → r.data = none := by
  intro r hr hrid
  obtain ⟨r', hr', rfl⟩ := List.mem_map.mp hr
  split_ifs at hrid ⊢
  · exact (hdata r').trans (h r' hr' ((hid r').symm.trans hrid))
  · exact h r' hr' hrid

/-- A call that passes the donation goes on so. -/
theorem passes_resume (exports : List String) (cfg : Config) {c : Call} (env : Env)
    (h : ∀ r ∈ sh.rows, r.id = id → r.data = none) (hc : c.Passes id) :
    (∀ r ∈ (resume exports cfg sh c env).1.rows, r.id = id → r.data = none) ∧
      (resume exports cfg sh c env).2.Passes id ∧
        (id ∉ sh.submitted → id ∉ (resume exports cfg sh c env).1.submitted) := by
  cases c with
  | start batchSize =>
    rw [resume]
    split_ifs
    · exact ⟨h, trivial, fun hn ↦ hn⟩
    · exact ⟨h, trivial, fun hn ↦ hn⟩
    · exact ⟨h, trivial, fun hn ↦ hn⟩
  | select batchSize =>
    rw [resume]
    split
    · exact ⟨h, trivial, fun hn ↦ hn⟩
    · exact ⟨h, passes_nextRow _ (blank_selection h batchSize), fun hn ↦ hn⟩
  | submit row payment rest tally =>
    obtain ⟨hid, hrest⟩ := hc
    have hother (hn : id ∉ sh.submitted) : id ∉ ({ sh with
        submissions := sh.submissions ++ [(row.id, payment)] } : Shared).submitted := by
      intro hmem
      rw [Shared.submitted, List.map_append] at hmem
      rcases List.mem_append.mp hmem with hmem | hmem
      · exact hn hmem
      · exact hid (List.mem_singleton.mp hmem).symm
    rw [resume]
    split
    · exact ⟨h, hrest, hother⟩
    · exact ⟨h, hrest, fun hn ↦ hn⟩
    · exact ⟨h, hrest, hother⟩
  | markSubmitted row hash rest tally =>
    rw [resume]
    split
    · exact ⟨h, hc, fun hn ↦ hn⟩
    · exact ⟨data_update h _ (fun _ ↦ rfl) fun _ ↦ rfl, passes_nextRow _ hc, fun hn ↦ hn⟩
  | recordError row message rest tally =>
    rw [resume]
    split
    · exact ⟨h, trivial, fun hn ↦ hn⟩
    · refine ⟨data_update h _ (fun _ ↦ rfl) fun _ ↦ rfl, ?_, fun hn ↦ hn⟩
      split_ifs
      · exact hc
      · exact passes_nextRow _ hc
  | markFailed row message rest tally =>
    rw [resume]
    split
    · exact ⟨h, trivial, fun hn ↦ hn⟩
    · exact ⟨data_update h _ (fun _ ↦ rfl) fun _ ↦ rfl, passes_nextRow _ hc, fun hn ↦ hn⟩
  | returned | threw => exact ⟨h, trivial, fun hn ↦ hn⟩

theorem Passed.step {ι : Type*} [DecidableEq ι] (exports : List String)
    {s : Calls ι Shared Call} (hs : Passed id s) (a : ι × Env) :
    Passed id (Calls.step (resume exports cfg) s a) := by
  obtain ⟨i, env⟩ := a
  obtain ⟨hdata, hself, hsubmitted⟩ := passes_resume exports cfg env hs.data (hs.calls i)
  refine ⟨hdata, ?_, hsubmitted hs.submissions⟩
  exact Calls.forall_step (P := fun (_ : Shared) (c : Call) ↦ c.Passes id) hs.calls hself
    fun _ hc ↦ hc

theorem data_of_createQueuedDonation {rows rows' : List DonationRow} {donation : Donation}
    {reason : Option String} {now : ℕ} {dbError : Option AppError} {created : Created}
    (h : createQueuedDonation cfg rows donation reason now dbError = .ok (rows', created)) :
    ∀ r ∈ rows', r.id = created.id → r.data = none := by
  cases dbError with
  | some e => cases h
  | none =>
    cases h
    intro r hr hid
    rcases List.mem_append.mp hr with hr | hr
    · have hmem : r.id ∈ rows.map (·.id) := List.mem_map_of_mem hr
      exact absurd hid (Nat.lt_succ_of_le (List.le_max_of_le' 0 hmem le_rfl)).ne
    · rw [List.mem_singleton.mp hr]
      rfl

/-- **No round trip.** After a donation has been accepted, in every run of `processBatch` and
whatever `utils/circuitBreaker` exports, its row stands for no payment, and none is submitted. -/
theorem queued_donation_never_submitted {ι : Type*} [DecidableEq ι] (exports : List String)
    (rows rows' : List DonationRow) (donation : Donation) (reason : Option String) (now : ℕ)
    (dbError : Option AppError) (created : Created)
    (haccepted : createQueuedDonation cfg rows donation reason now dbError = .ok (rows', created))
    (batchSize : ι → Option ℕ) (as : List (ι × Env)) :
    Always (Calls.step (resume exports cfg))
      (fun s ↦ (∀ r ∈ s.shared.rows, r.id = created.id → ¬RoundTrips cfg donation r) ∧
        created.id ∉ s.shared.submitted)
      (start rows' batchSize) as := by
  refine (always_of_step (fun s a (hs : Passed created.id s) ↦ hs.step exports a) ?_ as).mono
    fun s hs ↦ ⟨fun r hr hid ⟨p, hp, _⟩ ↦ ?_, hs.submissions⟩
  · exact ⟨data_of_createQueuedDonation haccepted, fun _ ↦ trivial, List.not_mem_nil⟩
  · cases (paymentOf_of_data_eq_none cfg (hs.data r hr hid)).symm.trans hp

end RoundTrip

section Examples

def fiveLumens : Donation where
  amount := 5
  currency := none
  donor := none
  recipient := "GRECIPIENT"
  memo := some "thanks"
  sourceAsset := none
  sourceAmount := none
  notes := none
  tags := none
  anonymous := false
  encryptMemo := false
  campaignId := none
  createdAt := none

/-- No text is a value; the rows of the examples have none. -/
def noJson : Config := ⟨fun _ ↦ .error (.plain "Unexpected token"), fun _ ↦ ""⟩

/-- The first donation of the queue is accepted, and its row stands for no payment. -/
theorem queued_donation_lost :
    ∃ rows' created, createQueuedDonation noJson [] fiveLumens none 1000 none =
      .ok (rows', created) ∧ ∃ r ∈ rows', r.id = created.id ∧ ¬RoundTrips noJson fiveLumens r := by
  refine ⟨_, _, rfl, _, List.mem_singleton.mpr rfl, rfl, ?_⟩
  rintro ⟨p, hp, -⟩
  cases (paymentOf_of_data_eq_none noJson rfl).symm.trans hp

/-- A working breaker does not help. -/
theorem queued_donation_never_submitted_at :
    Always (Calls.step (resume ["circuitBreaker"] noJson))
      (fun s ↦ (∀ r ∈ s.shared.rows, r.id = 1 → ¬RoundTrips noJson fiveLumens r) ∧
        1 ∉ s.shared.submitted)
      (start [queuedRow noJson fiveLumens "Horizon API unreachable" 1000 1] fun _ : Fin 1 ↦ none)
      (List.replicate 4 (0, ⟨2000, none, false, .accepted "hash"⟩)) :=
  queued_donation_never_submitted ["circuitBreaker"] [] _ fiveLumens none 1000 none
    ⟨1, .queued, 5, "GRECIPIENT"⟩ rfl _ _

def readableRow : DonationRow :=
  { queuedRow noJson fiveLumens "Horizon API unreachable" 1000 1 with data := some "\x7b\x7d" }

/-- With a working breaker, and the data in place, two overlapping batches submit a row twice. -/
example :
    (run (Calls.step (resume ["circuitBreaker"] ⟨fun _ ↦ .ok (.obj []), fun _ ↦ ""⟩))
      (start [readableRow] fun _ : Fin 2 ↦ none)
      ([0, 0, 1, 1, 0, 1].map (·, ⟨2000, none, false, .accepted "hash"⟩))).shared.submitted =
      [1, 1] := by
  decide

end Examples

end StellarDonations.Queue
