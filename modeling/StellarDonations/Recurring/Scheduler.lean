import StellarDonations.Concurrency.InFlight
import StellarDonations.Concurrency.PayOnce
import StellarDonations.Recurring.LeaderElection
import StellarDonations.Recurring.Schedule
import StellarDonations.Users

/-!
# The recurring donation scheduler

`RecurringDonationScheduler`: every tick of every instance that holds the lease reads the schedules
that are due and executes each of them, up to three times until an attempt succeeds. An attempt
looks for a transaction with the key of the occurrence, pays when there is none, records the
transaction under the key, and advances the schedule to its next date.

Two mechanisms keep an occurrence from being paid twice. Within an instance the set
`executingSchedules` allows one execution of a schedule at a time (`exclusive_step`). Between
attempts and between instances there is only the key: it is recorded by a statement of its own after
the payment, so an attempt that fails or stops there leaves a payment that the next attempt does not
see, and two instances can look before either records. When neither happens, every occurrence is
paid at most once (`once_step`).
-/

namespace StellarDonations.Recurring

open Concurrency JsString LeaderElection

/-! ## The state -/

/-- A due schedule as the query joins it with its two users. -/
structure Due where
  schedule : Schedule
  donorPublicKey : String
  recipientPublicKey : String
  deriving DecidableEq

/-- An execution of a schedule by an instance. -/
structure Job where
  node : ℕ
  due : Due
  deriving DecidableEq

/-- The columns of `transactions` that an execution writes. -/
structure TransactionRow where
  senderId : ℕ
  receiverId : ℕ
  amount : ℤ
  memo : String
  timestamp : ℤ
  deriving DecidableEq

/-- A payment that succeeded, with the occurrence it was made for. -/
structure Payment where
  scheduleId : ℕ
  nextExecutionDate : ℤ
  donorId : ℕ
  recipientId : ℕ
  deriving DecidableEq

/-- What a payment is looked up and recorded under. -/
def Payment.key (p : Payment) : String × ℕ × ℕ :=
  (occurrenceKey p.scheduleId p.nextExecutionDate, p.donorId, p.recipientId)

/-- The database, the sets of the instances, the executions launched and not begun, and the payments
that succeeded. An instance that is restarted counts as a new one. -/
structure Shared where
  schedules : List Schedule
  users : List User
  transactions : List TransactionRow
  lock : Option Lock
  executing : ℕ → List ℕ
  queue : List Job
  payments : List Payment

namespace Shared

def dueSchedules (sh : Shared) (now : ℤ) : List Due :=
  sh.schedules.filterMap fun s ↦
    if s.status = .active ∧ s.nextExecutionDate ≤ now then
      (sh.users.find? (·.id = s.donorId)).bind fun donor ↦
        (sh.users.find? (·.id = s.recipientId)).map fun recipient ↦
          ⟨s, donor.publicKey, recipient.publicKey⟩
    else none

/-- `UPDATE recurring_donations SET … WHERE id = ?`. -/
def updateSchedule (sh : Shared) (id : ℕ) (f : Schedule → Schedule) : Shared :=
  { sh with schedules := sh.schedules.map fun s ↦ if s.id = id then f s else s }

/-- The `SELECT` of the idempotency guard. -/
def findExecution (sh : Shared) (s : Schedule) : Option TransactionRow :=
  sh.transactions.find? fun r ↦
    r.memo = idempotencyKey s && r.senderId = s.donorId && r.receiverId = s.recipientId

/-- `executingSchedules.add` together with the launch of the execution. -/
def launchOne (node : ℕ) (sh : Shared) (d : Due) : Shared :=
  if d.schedule.id ∈ sh.executing node then sh
  else { sh with
    executing := Function.update sh.executing node (d.schedule.id :: sh.executing node)
    queue := sh.queue ++ [⟨node, d⟩] }

/-- Launch the due schedules that the instance is not executing. -/
def launch (sh : Shared) (node : ℕ) (due : List Due) : Shared :=
  (due.filter fun d ↦ d.schedule.id ∉ sh.executing node).foldl (launchOne node) sh

/-- `executingSchedules.delete`. -/
def deleteExecuting (sh : Shared) (j : Job) : Shared :=
  { sh with
    executing := Function.update sh.executing j.node
      ((sh.executing j.node).filter (· ≠ j.due.schedule.id)) }

end Shared

structure Env where
  now : ℤ
  /-- The error of the SQL statement, should it fail. -/
  dbError : Option AppError
  /-- `networkStatusService.isHealthy()`. -/
  healthy : Bool
  /-- The result of `sendPayment`. -/
  answer : Except AppError (Option String)
  /-- The payment succeeded although `sendPayment` threw. -/
  lost : Bool
  /-- What an idle worker begins: a tick of an instance, or an execution from the queue. -/
  start : ℕ ⊕ ℕ

/-- What a worker is suspended on: a tick, or an execution with its attempt number. -/
inductive Call where
  | idle
  | acquireLease (node : ℕ)
  | readHolder (node : ℕ)
  | queryDue (node : ℕ) (now : ℤ)
  | launch (node : ℕ) (due : List Due)
  | lookup (j : Job) (attempt : ℕ)
  | sendPayment (j : Job) (attempt : ℕ)
  | insert (j : Job) (attempt : ℕ) (hash : Option String)
  | advance (j : Job) (attempt : ℕ) (hash : Option String) (executedAt nextDate : ℤ)
  | logSuccess (j : Job)
  | logFailure (j : Job) (attempt : ℕ) (e : AppError)
  | sleep (j : Job) (attempt : ℕ)
  | recordFailure (j : Job) (e : AppError)
  | logFinalFailure (j : Job)
  | notify (j : Job)
  | readStatus (j : Job)
  | applyCancellation (j : Job)

/-- The identity each instance uses for the lease: host name and process id. -/
structure Cluster where
  instanceId : ℕ → String

def checkInterval : ℤ := 60000

def maxRetries : ℕ := 3

/-! ## The steps -/

/-- A tick that may run: the network is checked, then the due schedules are read. -/
def beginTick (node : ℕ) (env : Env) : Call :=
  if env.healthy then .queryDue node env.now else .idle

/-- What follows a payment or a recorded execution: the next date. -/
def beginAdvance (j : Job) (attempt : ℕ) (hash : Option String) (now : ℤ) : Call :=
  match calculateNextExecutionDate now j.due.schedule.frequency
      j.due.schedule.customIntervalDays with
  | .ok nextDate => .advance j attempt hash now nextDate
  | .error e => .logFailure j attempt e

/-- The end of an execution: its name is free again, then a deferred cancellation is applied. -/
def finish (sh : Shared) (j : Job) : Shared × Call := (sh.deleteExecuting j, .readStatus j)

def transactionRow (s : Schedule) (now : ℤ) : TransactionRow where
  senderId := s.donorId
  receiverId := s.recipientId
  amount := amountStroops s.amount
  memo := idempotencyKey s
  timestamp := now

def paymentFor (s : Schedule) : Payment where
  scheduleId := s.id
  nextExecutionDate := s.nextExecutionDate
  donorId := s.donorId
  recipientId := s.recipientId

def advanced (executed : Schedule) (executedAt nextDate : ℤ) (row : Schedule) : Schedule :=
  let newCount := executed.executionCount + 1
  let maxReached := executed.maxExecutions.any fun m ↦ m ≠ 0 && decide (m ≤ newCount)
  { row with
    lastExecutionDate := some executedAt
    nextExecutionDate := nextDate
    executionCount := newCount
    failureCount := 0
    lastFailureReason := none
    status := if maxReached then .completed else .active }

/-- The row after all attempts have failed. -/
def failed (executed : Schedule) (e : AppError) (row : Schedule) : Schedule :=
  { row with failureCount := executed.failureCount + 1, lastFailureReason := some e.message }

/-- Resume a worker: it executes the statement it is suspended on and runs to its next `await`.
`logExecution` catches its own errors and changes nothing else. -/
def resume (cl : Cluster) (sh : Shared) : Call → Env → Shared × Call
  | .idle, env =>
    match env.start with
    | .inl node => (sh, .acquireLease node)
    | .inr k =>
      match sh.queue[k]? with
      | some j => ({ sh with queue := sh.queue.eraseIdx k }, .lookup j 1)
      | none => (sh, .idle)
  | .acquireLease node, env =>
    match env.dbError with
    | some _ => (sh, beginTick node env)
    | none => ({ sh with
        lock := some (upsert (cl.instanceId node) (checkInterval * 2) env.now sh.lock) },
        .readHolder node)
  | .readHolder node, env =>
    if isLeader (cl.instanceId node) sh.lock env.dbError then (sh, beginTick node env)
    else (sh, .idle)
  | .queryDue node now, env =>
    match env.dbError with
    | some _ => (sh, .idle)
    | none => (sh, .launch node (sh.dueSchedules now))
  | .launch node due, _ => (sh.launch node due, .idle)
  | .lookup j attempt, env =>
    match env.dbError, sh.findExecution j.due.schedule with
    | some e, _ => (sh, .logFailure j attempt e)
    | none, some _ => (sh, beginAdvance j attempt none env.now)
    | none, none => (sh, .sendPayment j attempt)
  | .sendPayment j attempt, env =>
    match env.answer with
    | .ok hash =>
      ({ sh with payments := paymentFor j.due.schedule :: sh.payments }, .insert j attempt hash)
    | .error e =>
      (if env.lost then { sh with payments := paymentFor j.due.schedule :: sh.payments } else sh,
        .logFailure j attempt e)
  | .insert j attempt hash, env =>
    match env.dbError with
    | some e => (sh, .logFailure j attempt e)
    | none => ({ sh with
        transactions := sh.transactions ++ [transactionRow j.due.schedule env.now] },
        beginAdvance j attempt hash env.now)
  | .advance j attempt _ executedAt nextDate, env =>
    match env.dbError with
    | some e => (sh, .logFailure j attempt e)
    | none => (sh.updateSchedule j.due.schedule.id (advanced j.due.schedule executedAt nextDate),
        .logSuccess j)
  | .logSuccess j, _ => finish sh j
  | .logFailure j attempt e, _ =>
    if attempt < maxRetries then (sh, .sleep j attempt) else (sh, .recordFailure j e)
  | .sleep j attempt, _ => (sh, .lookup j (attempt + 1))
  | .recordFailure j e, env =>
    match env.dbError with
    | some _ => (sh, .logFinalFailure j)
    | none => (sh.updateSchedule j.due.schedule.id (failed j.due.schedule e), .logFinalFailure j)
  | .logFinalFailure j, _ =>
    if truthy j.due.schedule.webhookUrl then (sh, .notify j) else finish sh j
  | .notify j, _ => finish sh j
  | .readStatus j, env =>
    match env.dbError, sh.schedules.find? (·.id = j.due.schedule.id) with
    | none, some row =>
      if row.status = .pendingCancellation then (sh, .applyCancellation j) else (sh, .idle)
    | _, _ => (sh, .idle)
  | .applyCancellation j, env =>
    match env.dbError with
    | some _ => (sh, .idle)
    | none => (sh.updateSchedule j.due.schedule.id fun row ↦ { row with status := .cancelled },
      .idle)

def step (cl : Cluster) {ι : Type*} [DecidableEq ι] :
    Calls ι Shared Call → ι × Env → Calls ι Shared Call :=
  Calls.step (resume cl)

/-! ## What must hold -/

/-- At most one payment has succeeded for each occurrence of each schedule. -/
def PaidOnce {ι : Type*} (s : Calls ι Shared Call) : Prop :=
  ∀ scheduleId nextExecutionDate, (s.shared.payments.countP fun p ↦
    p.scheduleId = scheduleId && p.nextExecutionDate = nextExecutionDate) ≤ 1

/-- What an execution is looked up and recorded under. -/
def executionKey (s : Schedule) : String × ℕ × ℕ := (idempotencyKey s, s.donorId, s.recipientId)

/-- The worker, on another instance than `node`, has looked for the key in vain and has not recorded
it. A worker that has stopped there remains so. -/
def Call.InsideElsewhere (key : String × ℕ × ℕ) (node : ℕ) : Call → Prop
  | .sendPayment j _ | .insert j _ _ => executionKey j.due.schedule = key ∧ j.node ≠ node
  | _ => False

instance decidableInsideElsewhere (key : String × ℕ × ℕ) (node : ℕ) :
    DecidablePred (Call.InsideElsewhere key node)
  | .sendPayment j _ | .insert j _ _ =>
    inferInstanceAs (Decidable (executionKey j.due.schedule = key ∧ j.node ≠ node))
  | .idle | .acquireLease _ | .readHolder _ | .queryDue .. | .launch .. | .lookup .. | .advance ..
  | .logSuccess _ | .logFailure .. | .sleep .. | .recordFailure .. | .logFinalFailure _ | .notify _
  | .readStatus _ | .applyCancellation _ => inferInstanceAs (Decidable False)

/-- The condition on a worker. It looks for a key in vain only while no worker of another instance
is between its own look and its record; a payment that succeeds is not reported as failed; and the
`INSERT` that follows a payment does not fail. -/
def Call.Guarded (sh : Shared) (elsewhere : String × ℕ × ℕ → ℕ → Prop) (env : Env) : Call → Prop
  | .lookup j _ => env.dbError = none → sh.findExecution j.due.schedule = none →
      elsewhere (executionKey j.due.schedule) j.node
  | .sendPayment _ _ => env.lost = true → env.answer.isOk = true
  | .insert _ _ _ => env.dbError = none
  | _ => True

instance decidableCallGuarded (sh : Shared) (elsewhere : String × ℕ × ℕ → ℕ → Prop)
    [∀ key node, Decidable (elsewhere key node)] (env : Env) :
    DecidablePred (Call.Guarded sh elsewhere env)
  | .lookup j _ => inferInstanceAs (Decidable (env.dbError = none →
      sh.findExecution j.due.schedule = none → elsewhere (executionKey j.due.schedule) j.node))
  | .sendPayment _ _ => inferInstanceAs (Decidable (env.lost = true → env.answer.isOk = true))
  | .insert _ _ _ => inferInstanceAs (Decidable (env.dbError = none))
  | .idle | .acquireLease _ | .readHolder _ | .queryDue .. | .launch .. | .advance ..
  | .logSuccess _ | .logFailure .. | .sleep .. | .recordFailure .. | .logFinalFailure _
  | .notify _ | .readStatus _ | .applyCancellation _ => inferInstanceAs (Decidable True)

/-- The condition on a step: the resumed worker is `Guarded`. -/
def Guarded {ι : Type*} (s : Calls ι Shared Call) (a : ι × Env) : Prop :=
  (s.call a.1).Guarded s.shared
    (fun key node ↦ Alone (Call.InsideElsewhere key node) s.call a.1) a.2

instance decidableGuarded {ι : Type*} [Fintype ι] [DecidableEq ι] (s : Calls ι Shared Call)
    (a : ι × Env) : Decidable (Guarded s a) :=
  inferInstanceAs (Decidable ((s.call a.1).Guarded s.shared
    (fun key node ↦ Alone (Call.InsideElsewhere key node) s.call a.1) a.2))

/-! ## One execution of a schedule at a time in each instance -/

/-- The instance and the schedule of an execution. -/
def Job.name (j : Job) : ℕ × ℕ := (j.node, j.due.schedule.id)

/-- The execution a worker runs, from its launch until `executingSchedules.delete`. -/
def Call.job : Call → Option Job
  | .lookup j _ | .sendPayment j _ | .insert j _ _ | .advance j _ _ _ _ | .logSuccess j
  | .logFailure j _ _ | .sleep j _ | .recordFailure j _ | .logFinalFailure j | .notify j => some j
  | _ => none

/-- The names in flight, with the workers that hold them. -/
def inFlight {ι : Type*} (sh : Shared) (holder : ι → Option (ℕ × ℕ)) :
    InFlight.State ι (ℕ × ℕ) where
  claimed name := name.2 ∈ sh.executing name.1
  queue := sh.queue.map Job.name
  holder := holder

def holders {ι : Type*} (s : Calls ι Shared Call) (i : ι) : Option (ℕ × ℕ) :=
  (s.call i).job.map Job.name

section InFlight

variable {ι : Type*} [DecidableEq ι] {cl : Cluster}

theorem holders_step (s : Calls ι Shared Call) (i : ι) (env : Env) :
    holders (step cl s (i, env)) = Function.update (holders s) i
      ((resume cl s.shared (s.call i) env).2.job.map Job.name) := by
  funext j
  rw [holders, step, Calls.step_call]
  rcases eq_or_ne j i with rfl | hj
  · rw [Function.update_self, Function.update_self]
  · rw [Function.update_of_ne hj, Function.update_of_ne hj, holders]

omit [DecidableEq ι] in
theorem holders_eq {s : Calls ι Shared Call} {i : ι} {c : Call} (hcall : s.call i = c) :
    holders s i = c.job.map Job.name := by
  rw [holders, hcall]

theorem update_holders_self {s : Calls ι Shared Call} {i : ι} {c : Call} (hcall : s.call i = c) :
    Function.update (holders s) i (c.job.map Job.name) = holders s := by
  rw [← holders_eq hcall]
  exact Function.update_eq_self i (holders s)

/-- Launching claims the name, unless it is claimed. -/
theorem exclusive_launchOne {sh : Shared} {holder : ι → Option (ℕ × ℕ)} (i : ι)
    (h : InFlight.Exclusive (inFlight sh holder)) (node : ℕ) (d : Due) :
    InFlight.Exclusive (inFlight (sh.launchOne node d) holder) := by
  rw [Shared.launchOne]
  split_ifs with hmem
  · exact h
  · have hclaim := h.step (InFlight.Step.claim (i := i) (node, d.schedule.id) hmem)
    have hstate : inFlight { sh with
          executing := Function.update sh.executing node (d.schedule.id :: sh.executing node)
          queue := sh.queue ++ [⟨node, d⟩] } holder
        = { inFlight sh holder with
            claimed := fun k' ↦ k' = (node, d.schedule.id) ∨ (inFlight sh holder).claimed k'
            queue := (inFlight sh holder).queue ++ [(node, d.schedule.id)] } := by
      simp only [inFlight, List.map_append, List.map_cons, List.map_nil, Job.name]
      congr 1
      funext name
      obtain ⟨n, id⟩ := name
      rcases eq_or_ne n node with rfl | hn
      · simp
      · simp [hn]
    rw [hstate]
    exact hclaim

theorem exclusive_launch {sh : Shared} {holder : ι → Option (ℕ × ℕ)} (i : ι)
    (h : InFlight.Exclusive (inFlight sh holder)) (node : ℕ) (due : List Due) :
    InFlight.Exclusive (inFlight (sh.launch node due) holder) := by
  rw [Shared.launch]
  generalize due.filter _ = ds
  induction ds generalizing sh with
  | nil => exact h
  | cons d ds ih => exact ih (exclusive_launchOne i h node d)

theorem job_beginTick (node : ℕ) (env : Env) : (beginTick node env).job = none := by
  rw [beginTick]
  split_ifs <;> rfl

theorem job_beginAdvance (j : Job) (attempt : ℕ) (hash : Option String) (now : ℤ) :
    (beginAdvance j attempt hash now).job = some j := by
  rw [beginAdvance]
  split <;> rfl

/-- The workers that begin or end an execution, or launch some. -/
def Call.moves : Call → Bool
  | .idle | .launch .. | .logSuccess _ | .logFinalFailure _ | .notify _ => true
  | _ => false

theorem resume_keeps_job (cl : Cluster) (sh : Shared) {c : Call} (hc : c.moves = false)
    (env : Env) :
    (resume cl sh c env).1.executing = sh.executing ∧ (resume cl sh c env).1.queue = sh.queue ∧
      (resume cl sh c env).2.job = c.job := by
  cases c with
  | idle | launch | logSuccess | logFinalFailure | notify => cases hc
  | acquireLease node =>
    rw [resume]
    split
    · exact ⟨rfl, rfl, job_beginTick node env⟩
    · exact ⟨rfl, rfl, rfl⟩
  | readHolder node =>
    rw [resume]
    split_ifs
    · exact ⟨rfl, rfl, job_beginTick node env⟩
    · exact ⟨rfl, rfl, rfl⟩
  | lookup j attempt =>
    rw [resume]
    split
    · exact ⟨rfl, rfl, rfl⟩
    · exact ⟨rfl, rfl, job_beginAdvance ..⟩
    · exact ⟨rfl, rfl, rfl⟩
  | sendPayment j attempt =>
    rw [resume]
    split
    · exact ⟨rfl, rfl, rfl⟩
    · cases env.lost <;> exact ⟨rfl, rfl, rfl⟩
  | insert j attempt hash =>
    rw [resume]
    split
    · exact ⟨rfl, rfl, rfl⟩
    · exact ⟨rfl, rfl, job_beginAdvance ..⟩
  | logFailure j attempt e =>
    rw [resume]
    split_ifs <;> exact ⟨rfl, rfl, rfl⟩
  | readStatus j =>
    rw [resume]
    split
    · split_ifs <;> exact ⟨rfl, rfl, rfl⟩
    · exact ⟨rfl, rfl, rfl⟩
  | queryDue | advance | recordFailure | applyCancellation =>
    rw [resume]
    split <;> exact ⟨rfl, rfl, rfl⟩
  | sleep j attempt => exact ⟨rfl, rfl, rfl⟩

theorem queue_split {queue : List Job} {k : ℕ} {j : Job} (h : queue[k]? = some j) :
    ∃ before after, queue = before ++ j :: after ∧ queue.eraseIdx k = before ++ after := by
  obtain ⟨hk, hj⟩ := List.getElem?_eq_some_iff.mp h
  refine ⟨queue.take k, queue.drop (k + 1), ?_, List.eraseIdx_eq_take_drop_succ queue k⟩
  rw [← hj, List.getElem_cons_drop, List.take_append_drop]

def Exclusive (s : Calls ι Shared Call) : Prop := InFlight.Exclusive (inFlight s.shared (holders s))

theorem exclusive_finish {s : Calls ι Shared Call} (h : Exclusive s) {i : ι} {j : Job}
    (hjob : (s.call i).job = some j) :
    InFlight.Exclusive
      (inFlight (s.shared.deleteExecuting j) (Function.update (holders s) i none)) := by
  have hholder : (inFlight s.shared (holders s)).holder i = some j.name :=
    congrArg (Option.map Job.name) hjob
  have hrelease := InFlight.Exclusive.step h (InFlight.Step.release j.name hholder)
  have hstate : inFlight (s.shared.deleteExecuting j) (Function.update (holders s) i none)
      = { inFlight s.shared (holders s) with
          claimed := fun k' ↦ k' ≠ j.name ∧ (inFlight s.shared (holders s)).claimed k'
          holder := Function.update (inFlight s.shared (holders s)).holder i none } := by
    simp only [inFlight, Shared.deleteExecuting, Job.name]
    congr 1
    funext name
    obtain ⟨n, id⟩ := name
    rcases eq_or_ne n j.node with rfl | hn
    · simp [and_comm]
    · simp [hn]
  rw [hstate]
  exact hrelease

/-- **Every step keeps the executions of an instance apart**, whatever fails. -/
theorem exclusive_step (s : Calls ι Shared Call) (a : ι × Env) (h : Exclusive s) :
    Exclusive (step cl s a) := by
  obtain ⟨i, env⟩ := a
  rw [Exclusive, holders_step, step, Calls.step_shared]
  by_cases hmoves : (s.call i).moves = false
  · obtain ⟨hexec, hqueue, hjob⟩ := resume_keeps_job cl s.shared hmoves env
    rw [hjob, update_holders_self rfl, inFlight, hexec, hqueue]
    exact h
  cases hcall : s.call i with
  | idle =>
    have hself : Function.update (holders s) i none = holders s := update_holders_self hcall
    rw [resume]
    split
    · exact hself.symm ▸ h
    · next k _ =>
      split
      · next j hj =>
        obtain ⟨before, after, hqueue, herase⟩ := queue_split hj
        have hnames : (inFlight s.shared (holders s)).queue
            = before.map Job.name ++ j.name :: after.map Job.name := by
          rw [inFlight, hqueue, List.map_append, List.map_cons]
        have htake := InFlight.Exclusive.step h
          (InFlight.Step.take j.name (before.map Job.name) (after.map Job.name)
            (holders_eq hcall) hnames)
        have hstate : inFlight { s.shared with queue := s.shared.queue.eraseIdx k }
            (Function.update (holders s) i (some j.name))
            = { inFlight s.shared (holders s) with
                queue := before.map Job.name ++ after.map Job.name
                holder := Function.update (inFlight s.shared (holders s)).holder i
                  (some j.name) } := by
          simp only [inFlight, herase, List.map_append]
        exact hstate.symm ▸ htake
      · exact hself.symm ▸ h
  | launch node due =>
    have hself : Function.update (holders s) i none = holders s := update_holders_self hcall
    rw [resume]
    exact hself.symm ▸ exclusive_launch i h node due
  | logSuccess j => exact exclusive_finish h (by rw [hcall]; rfl)
  | notify j => exact exclusive_finish h (by rw [hcall]; rfl)
  | logFinalFailure j =>
    rw [resume]
    split_ifs
    · have hself : Function.update (holders s) i (some j.name) = holders s :=
        update_holders_self hcall
      exact hself.symm ▸ h
    · exact exclusive_finish h (by rw [hcall]; rfl)
  | acquireLease | readHolder | queryDue | lookup | sendPayment | insert | advance | logFailure
  | sleep | recordFailure | readStatus | applyCancellation =>
    rw [hcall] at hmoves
    exact absurd rfl hmoves

end InFlight

/-! ## The protocol of the key -/

section Protocol

variable {ι : Type*}

def recorded (sh : Shared) (key : String × ℕ × ℕ) : Prop :=
  ∃ r ∈ sh.transactions, (r.memo, r.senderId, r.receiverId) = key

def live (sh : Shared) (key : String × ℕ × ℕ) : ℤ :=
  sh.payments.countP fun p ↦ p.key = key

def Call.phase : Call → PayOnce.Phase (String × ℕ × ℕ)
  | .sendPayment j _ => .looked (executionKey j.due.schedule)
  | .insert j _ _ => .acted (executionKey j.due.schedule)
  | _ => .outside

def abstraction (s : Calls ι Shared Call) : PayOnce.State ι (String × ℕ × ℕ) where
  recorded := recorded s.shared
  live := live s.shared
  phase i := (s.call i).phase

theorem phase_beginTick (node : ℕ) (env : Env) : (beginTick node env).phase = .outside := by
  rw [beginTick]
  split_ifs <;> rfl

theorem phase_beginAdvance (j : Job) (attempt : ℕ) (hash : Option String) (now : ℤ) :
    (beginAdvance j attempt hash now).phase = .outside := by
  rw [beginAdvance]
  split <;> rfl

/-- The workers that are neither at the lookup nor between it and the record. -/
def Call.plain : Call → Bool
  | .lookup .. | .sendPayment .. | .insert .. => false
  | _ => true

theorem launch_keeps (sh : Shared) (node : ℕ) (due : List Due) :
    (sh.launch node due).transactions = sh.transactions ∧
      (sh.launch node due).payments = sh.payments ∧
      (sh.launch node due).schedules = sh.schedules := by
  rw [Shared.launch]
  generalize due.filter _ = ds
  induction ds generalizing sh with
  | nil => exact ⟨rfl, rfl, rfl⟩
  | cons d ds ih =>
    obtain ⟨htx, hpay, hsched⟩ := ih (sh.launchOne node d)
    have hone : (sh.launchOne node d).transactions = sh.transactions ∧
        (sh.launchOne node d).payments = sh.payments ∧
        (sh.launchOne node d).schedules = sh.schedules := by
      rw [Shared.launchOne]
      split_ifs <;> exact ⟨rfl, rfl, rfl⟩
    exact ⟨htx.trans hone.1, hpay.trans hone.2.1, hsched.trans hone.2.2⟩

theorem resume_plain (cl : Cluster) (sh : Shared) {c : Call} (hc : c.plain = true) (env : Env) :
    (resume cl sh c env).1.transactions = sh.transactions ∧
      (resume cl sh c env).1.payments = sh.payments ∧
      (resume cl sh c env).2.phase = .outside := by
  cases c with
  | lookup | sendPayment | insert => cases hc
  | idle =>
    rw [resume]
    split
    · exact ⟨rfl, rfl, rfl⟩
    · split <;> exact ⟨rfl, rfl, rfl⟩
  | acquireLease node =>
    rw [resume]
    split
    · exact ⟨rfl, rfl, phase_beginTick node env⟩
    · exact ⟨rfl, rfl, rfl⟩
  | readHolder node =>
    rw [resume]
    split_ifs
    · exact ⟨rfl, rfl, phase_beginTick node env⟩
    · exact ⟨rfl, rfl, rfl⟩
  | launch node due =>
    obtain ⟨htx, hpay, -⟩ := launch_keeps sh node due
    exact ⟨htx, hpay, rfl⟩
  | logFailure | logFinalFailure =>
    rw [resume]
    split_ifs <;> exact ⟨rfl, rfl, rfl⟩
  | readStatus j =>
    rw [resume]
    split
    · split_ifs <;> exact ⟨rfl, rfl, rfl⟩
    · exact ⟨rfl, rfl, rfl⟩
  | queryDue | advance | recordFailure | applyCancellation =>
    rw [resume]
    split <;> exact ⟨rfl, rfl, rfl⟩
  | logSuccess | sleep | notify => exact ⟨rfl, rfl, rfl⟩

theorem not_recorded_of_miss {sh : Shared} {sc : Schedule} (h : sh.findExecution sc = none) :
    ¬recorded sh (executionKey sc) := by
  rintro ⟨r, hr, hkey⟩
  obtain ⟨hmemo, hparties⟩ := Prod.mk.inj hkey
  obtain ⟨hsender, hreceiver⟩ := Prod.mk.inj hparties
  have hnone := List.find?_eq_none.mp h r hr
  simp [hmemo, hsender, hreceiver] at hnone

theorem recorded_append (sh : Shared) (sc : Schedule) (now : ℤ) :
    recorded { sh with transactions := sh.transactions ++ [transactionRow sc now] }
      = fun key ↦ key = executionKey sc ∨ recorded sh key := by
  funext key
  simp only [recorded, List.mem_append, List.mem_singleton, or_and_right, exists_or, exists_eq_left]
  rw [or_comm]
  exact congrArg (· ∨ _) (propext eq_comm)

theorem live_pay (sh : Shared) (sc : Schedule) :
    live { sh with payments := paymentFor sc :: sh.payments }
      = Function.update (live sh) (executionKey sc) (live sh (executionKey sc) + 1) := by
  have hself : (paymentFor sc).key = executionKey sc := rfl
  funext key
  rw [live, List.countP_cons, hself]
  rcases eq_or_ne key (executionKey sc) with rfl | hkey
  · rw [Function.update_self, live]
    simp
  · rw [Function.update_of_ne hkey, live]
    simp [hkey.symm]

theorem job_of_inside {c : Call} {key : String × ℕ × ℕ} (h : c.phase.Inside key) :
    ∃ j, c.job = some j ∧ executionKey j.due.schedule = key ∧
      ∀ node, j.node ≠ node → c.InsideElsewhere key node := by
  cases c with
  | sendPayment j attempt =>
    have hkey : executionKey j.due.schedule = key := h
    exact ⟨j, rfl, hkey, fun node hnode ↦ ⟨hkey, hnode⟩⟩
  | insert j attempt hash =>
    have hkey : executionKey j.due.schedule = key := h
    exact ⟨j, rfl, hkey, fun node hnode ↦ ⟨hkey, hnode⟩⟩
  | idle | acquireLease | readHolder | queryDue | launch | lookup | advance | logSuccess
  | logFailure | sleep | recordFailure | logFinalFailure | notify | readStatus
  | applyCancellation =>
    exact absurd h (PayOnce.inside_outside key)

variable [DecidableEq ι] {cl : Cluster} {s : Calls ι Shared Call} {i : ι} {env : Env}

omit [DecidableEq ι] in
/-- No other instance is inside, and this instance runs the schedule once: nobody is inside. -/
theorem alone_of_elsewhere {j : Job} (hexcl : Exclusive s) (hjob : (s.call i).job = some j)
    (helse : Alone (Call.InsideElsewhere (executionKey j.due.schedule) j.node) s.call i) :
    Alone (PayOnce.Phase.Inside (executionKey j.due.schedule)) (abstraction s).phase i := by
  intro i' hi' hinside
  obtain ⟨j', hjob', hkey, hnode⟩ := job_of_inside hinside
  have hsame : j'.node = j.node := by
    by_contra hne
    exact helse i' hi' (hnode j.node hne)
  have hid : j'.due.schedule.id = j.due.schedule.id := id_eq_of_idempotencyKey (Prod.mk.inj hkey).1
  have hname : j'.name = j.name := Prod.ext hsame hid
  refine hi' (hexcl.alone i' i j.name ?_ (congrArg (Option.map Job.name) hjob))
  rw [← hname]
  exact congrArg (Option.map Job.name) hjob'

theorem abstraction_step (s : Calls ι Shared Call) (i : ι) (env : Env) :
    abstraction (step cl s (i, env)) =
      { recorded := recorded (resume cl s.shared (s.call i) env).1
        live := live (resume cl s.shared (s.call i) env).1
        phase := Function.update (abstraction s).phase i
          (resume cl s.shared (s.call i) env).2.phase } := by
  rw [abstraction, step, Calls.step_shared, Calls.step_call]
  congr 1
  exact Function.comp_update Call.phase s.call i _

theorem once_leave {c : Call} (h : PayOnce.Once (abstraction s))
    (hphase : ∀ key, (s.call i).phase ≠ .acted key)
    (hresume : resume cl s.shared (s.call i) env = (s.shared, c)) (hout : c.phase = .outside) :
    PayOnce.Once (abstraction (step cl s (i, env))) := by
  rw [abstraction_step, hresume, hout]
  exact h.step (PayOnce.Step.leave hphase)

theorem once_step_plain (h : PayOnce.Once (abstraction s)) (hc : (s.call i).plain = true) :
    PayOnce.Once (abstraction (step cl s (i, env))) := by
  obtain ⟨htx, hpay, hout⟩ := resume_plain cl s.shared hc env
  have hrec : recorded (resume cl s.shared (s.call i) env).1 = recorded s.shared := by
    funext key
    rw [recorded, recorded, htx]
  have hlive : live (resume cl s.shared (s.call i) env).1 = live s.shared := by
    funext key
    rw [live, live, hpay]
  rw [abstraction_step, hrec, hlive, hout]
  refine h.step (PayOnce.Step.leave fun key hkey ↦ ?_)
  have hkey : (s.call i).phase = .acted key := hkey
  cases hcall : s.call i <;> rw [hcall] at hkey hc <;> cases hc <;> cases hkey

theorem once_step_lookup {j : Job} {attempt : ℕ} (h : PayOnce.Once (abstraction s))
    (hexcl : Exclusive s) (hcall : s.call i = .lookup j attempt) (hguard : Guarded s (i, env)) :
    PayOnce.Once (abstraction (step cl s (i, env))) := by
  have hout : (s.call i).phase = .outside := by
    rw [hcall]
    rfl
  have hnot : ∀ key, (s.call i).phase ≠ .acted key := by
    intro key hkey
    rw [hout] at hkey
    cases hkey
  cases herr : env.dbError with
  | some e =>
    exact once_leave h hnot (c := .logFailure j attempt e) (by simp only [hcall, resume, herr]) rfl
  | none =>
    cases hfind : s.shared.findExecution j.due.schedule with
    | some row =>
      exact once_leave h hnot (c := beginAdvance j attempt none env.now)
        (by simp only [hcall, resume, herr, hfind]) (phase_beginAdvance ..)
    | none =>
      have helse : Alone (Call.InsideElsewhere (executionKey j.due.schedule) j.node) s.call i := by
        simp only [Guarded, Call.Guarded, hcall] at hguard
        exact hguard herr hfind
      have hresume : resume cl s.shared (s.call i) env = (s.shared, .sendPayment j attempt) := by
        simp only [hcall, resume, herr, hfind]
      rw [abstraction_step, hresume]
      exact h.step (PayOnce.Step.look (executionKey j.due.schedule) (not_recorded_of_miss hfind)
        (alone_of_elsewhere hexcl (by rw [hcall]; rfl) helse) hout)

theorem once_step_sendPayment {j : Job} {attempt : ℕ} (h : PayOnce.Once (abstraction s))
    (hcall : s.call i = .sendPayment j attempt) (hguard : Guarded s (i, env)) :
    PayOnce.Once (abstraction (step cl s (i, env))) := by
  have hlooked : (s.call i).phase = .looked (executionKey j.due.schedule) := by
    rw [hcall]
    rfl
  cases hanswer : env.answer with
  | ok hash =>
    have hresume : resume cl s.shared (s.call i) env
        = ({ s.shared with payments := paymentFor j.due.schedule :: s.shared.payments },
          .insert j attempt hash) := by
      rw [hcall, resume, hanswer]
    rw [abstraction_step, hresume, live_pay]
    exact h.step (PayOnce.Step.act (executionKey j.due.schedule) hlooked)
  | error e =>
    have hlost : env.lost = false := by
      simp only [Guarded, Call.Guarded, hcall, hanswer] at hguard
      cases hl : env.lost with
      | false => rfl
      | true => exact absurd (hguard hl) Bool.false_ne_true
    refine once_leave h (c := .logFailure j attempt e) (fun key hkey ↦ ?_) ?_ rfl
    · rw [hlooked] at hkey
      cases hkey
    · simp only [hcall, resume, hanswer, hlost, Bool.false_eq_true, if_false]

theorem once_step_insert {j : Job} {attempt : ℕ} {hash : Option String}
    (h : PayOnce.Once (abstraction s)) (hcall : s.call i = .insert j attempt hash)
    (hguard : Guarded s (i, env)) : PayOnce.Once (abstraction (step cl s (i, env))) := by
  have herr : env.dbError = none := by
    simpa only [Guarded, Call.Guarded, hcall] using hguard
  have hacted : (s.call i).phase = .acted (executionKey j.due.schedule) := by
    rw [hcall]
    rfl
  have hresume : resume cl s.shared (s.call i) env
      = ({ s.shared with
            transactions := s.shared.transactions ++ [transactionRow j.due.schedule env.now] },
          beginAdvance j attempt hash env.now) := by
    rw [hcall, resume, herr]
  rw [abstraction_step, hresume, recorded_append, phase_beginAdvance]
  exact h.step (PayOnce.Step.record (executionKey j.due.schedule) hacted)

theorem once_step (s : Calls ι Shared Call) (a : ι × Env) (h : PayOnce.Once (abstraction s))
    (hexcl : Exclusive s) (hguard : Guarded s a) : PayOnce.Once (abstraction (step cl s a)) := by
  obtain ⟨i, env⟩ := a
  cases hcall : s.call i with
  | lookup j attempt => exact once_step_lookup h hexcl hcall hguard
  | sendPayment j attempt => exact once_step_sendPayment h hcall hguard
  | insert j attempt hash => exact once_step_insert h hcall hguard
  | idle | acquireLease | readHolder | queryDue | launch | advance | logSuccess | logFailure | sleep
  | recordFailure | logFinalFailure | notify | readStatus | applyCancellation =>
    exact once_step_plain h (by rw [hcall]; rfl)

end Protocol

/-! ## The columns that never change

No statement of the scheduler writes a schedule's donor or recipient, so all executions of one
occurrence use one key. -/

/-- The donor and the recipient of each schedule. -/
def Shared.parties (sh : Shared) : List (ℕ × ℕ × ℕ) :=
  sh.schedules.map fun s ↦ (s.id, s.donorId, s.recipientId)

/-- The schedule has the parties of the table. -/
def Shared.Lists (sh : Shared) (s : Schedule) : Prop :=
  (s.id, s.donorId, s.recipientId) ∈ sh.parties

theorem lists_of_mem {sh : Shared} {s : Schedule} (h : s ∈ sh.schedules) : sh.Lists s :=
  List.mem_map.mpr ⟨s, h, rfl⟩

theorem parties_updateSchedule (sh : Shared) (id : ℕ) {f : Schedule → Schedule}
    (hf : ∀ s, ((f s).id, (f s).donorId, (f s).recipientId) = (s.id, s.donorId, s.recipientId)) :
    (sh.updateSchedule id f).parties = sh.parties := by
  rw [Shared.parties, Shared.parties, Shared.updateSchedule, List.map_map]
  refine List.map_congr_left fun s _ ↦ ?_
  rw [Function.comp_apply]
  split_ifs
  · exact hf s
  · rfl

theorem parties_resume (cl : Cluster) (sh : Shared) (c : Call) (env : Env) :
    (resume cl sh c env).1.parties = sh.parties := by
  cases c with
  | idle =>
    rw [resume]
    split
    · rfl
    · split <;> rfl
  | launch node due =>
    obtain ⟨-, -, hsched⟩ := launch_keeps sh node due
    rw [Shared.parties, Shared.parties, resume, hsched]
  | sendPayment j attempt =>
    rw [resume]
    split
    · rfl
    · cases env.lost <;> rfl
  | advance j attempt hash executedAt nextDate =>
    rw [resume]
    split
    · rfl
    · exact parties_updateSchedule sh _ fun _ ↦ rfl
  | recordFailure j e =>
    rw [resume]
    split
    · rfl
    · exact parties_updateSchedule sh _ fun _ ↦ rfl
  | applyCancellation j =>
    rw [resume]
    split
    · rfl
    · exact parties_updateSchedule sh _ fun _ ↦ rfl
  | readStatus j =>
    rw [resume]
    split
    · split_ifs <;> rfl
    · rfl
  | logFailure | logFinalFailure | readHolder =>
    rw [resume]
    split_ifs <;> rfl
  | acquireLease | queryDue | lookup | insert =>
    rw [resume]
    split <;> rfl
  | logSuccess | sleep | notify => rfl

/-- The schedules a tick has read and is about to launch. -/
def Call.launching : Call → List Due
  | .launch _ due => due
  | _ => []

theorem launching_beginTick (node : ℕ) (env : Env) : (beginTick node env).launching = [] := by
  rw [beginTick]
  split_ifs <;> rfl

theorem launching_beginAdvance (j : Job) (attempt : ℕ) (hash : Option String) (now : ℤ) :
    (beginAdvance j attempt hash now).launching = [] := by
  rw [beginAdvance]
  split <;> rfl

section Lists

variable {cl : Cluster} {sh : Shared} {c : Call} {env : Env}

theorem mem_launching_resume {d : Due} (h : d ∈ (resume cl sh c env).2.launching) :
    d.schedule ∈ sh.schedules := by
  cases c with
  | queryDue node now =>
    rw [resume] at h
    split at h
    · cases h
    · obtain ⟨sc, hsc, hd⟩ := List.mem_filterMap.mp h
      split_ifs at hd
      obtain ⟨donor, -, hd⟩ := Option.bind_eq_some_iff.mp hd
      obtain ⟨recipient, -, rfl⟩ := Option.map_eq_some_iff.mp hd
      exact hsc
  | idle =>
    rw [resume] at h
    split at h
    · cases h
    · split at h <;> cases h
  | acquireLease node =>
    rw [resume] at h
    split at h
    · rw [launching_beginTick] at h
      cases h
    · cases h
  | readHolder node =>
    rw [resume] at h
    split_ifs at h
    · rw [launching_beginTick] at h
      cases h
    · cases h
  | lookup j attempt =>
    rw [resume] at h
    split at h
    · cases h
    · rw [launching_beginAdvance] at h
      cases h
    · cases h
  | insert j attempt hash =>
    rw [resume] at h
    split at h
    · cases h
    · rw [launching_beginAdvance] at h
      cases h
  | sendPayment | advance | recordFailure | applyCancellation =>
    rw [resume] at h
    split at h <;> cases h
  | logFailure | logFinalFailure =>
    rw [resume] at h
    split_ifs at h <;> cases h
  | readStatus j =>
    rw [resume] at h
    split at h
    · split_ifs at h <;> cases h
    · cases h
  | launch | logSuccess | sleep | notify => cases h

theorem job_resume {j : Job} (h : (resume cl sh c env).2.job = some j) :
    c.job = some j ∨ j ∈ sh.queue := by
  by_cases hmoves : c.moves = false
  · rw [(resume_keeps_job cl sh hmoves env).2.2] at h
    exact .inl h
  cases c with
  | idle =>
    rw [resume] at h
    split at h
    · cases h
    · split at h
      · next hj =>
        cases h
        exact .inr (List.mem_of_getElem? hj)
      · cases h
  | launch | logSuccess | notify => cases h
  | logFinalFailure j =>
    rw [resume] at h
    split_ifs at h
    · exact .inl h
    · cases h
  | acquireLease | readHolder | queryDue | lookup | sendPayment | insert | advance | logFailure
  | sleep | recordFailure | readStatus | applyCancellation => exact absurd rfl hmoves

theorem mem_queue_launch {node : ℕ} {due : List Due} {j : Job}
    (h : j ∈ (sh.launch node due).queue) :
    j ∈ sh.queue ∨ j.due ∈ due := by
  have hsub : ∀ d ∈ due.filter fun d ↦ d.schedule.id ∉ sh.executing node, d ∈ due :=
    fun d hd ↦ List.mem_of_mem_filter hd
  rw [Shared.launch] at h
  generalize due.filter _ = ds at h hsub
  induction ds generalizing sh with
  | nil => exact .inl h
  | cons d ds ih =>
    rcases ih h (fun d' hd' ↦ hsub d' (List.mem_cons_of_mem d hd')) with hj | hj
    · rw [Shared.launchOne] at hj
      split_ifs at hj
      · exact .inl hj
      · rcases List.mem_append.mp hj with hj | hj
        · exact .inl hj
        · rw [List.mem_singleton.mp hj]
          exact .inr (hsub d List.mem_cons_self)
    · exact .inr hj

theorem mem_queue_resume {j : Job} (h : j ∈ (resume cl sh c env).1.queue) :
    j ∈ sh.queue ∨ j.due ∈ c.launching := by
  by_cases hmoves : c.moves = false
  · rw [(resume_keeps_job cl sh hmoves env).2.1] at h
    exact .inl h
  cases c with
  | idle =>
    rw [resume] at h
    split at h
    · exact .inl h
    · split at h
      · exact .inl (List.mem_of_mem_eraseIdx h)
      · exact .inl h
  | launch node due => exact mem_queue_launch h
  | logSuccess | notify => exact .inl h
  | logFinalFailure j =>
    rw [resume] at h
    split_ifs at h <;> exact .inl h
  | acquireLease | readHolder | queryDue | lookup | sendPayment | insert | advance | logFailure
  | sleep | recordFailure | readStatus | applyCancellation => exact absurd rfl hmoves

theorem mem_payments_resume {p : Payment} (h : p ∈ (resume cl sh c env).1.payments) :
    p ∈ sh.payments ∨ ∃ j, c.job = some j ∧ p = paymentFor j.due.schedule := by
  by_cases hplain : c.plain = true
  · rw [(resume_plain cl sh hplain env).2.1] at h
    exact .inl h
  cases c with
  | sendPayment j attempt =>
    have hcons : p ∈ paymentFor j.due.schedule :: sh.payments := by
      rw [resume] at h
      split at h
      · exact h
      · cases hlost : env.lost with
        | true => simpa [hlost] using h
        | false =>
          have hp : p ∈ sh.payments := by simpa [hlost] using h
          exact List.mem_cons_of_mem _ hp
    rcases List.mem_cons.mp hcons with hp | hp
    · exact .inr ⟨j, rfl, hp⟩
    · exact .inl hp
  | lookup | insert =>
    rw [resume] at h
    split at h <;> exact .inl h
  | idle | acquireLease | readHolder | queryDue | launch | advance | logSuccess | logFailure | sleep
  | recordFailure | logFinalFailure | notify | readStatus | applyCancellation =>
    exact absurd rfl hplain

end Lists

/-! ## Runs -/

section Runs

variable {ι : Type*}

/-- What a worker is about to launch and what it executes have the parties of the table. -/
def Listed (sh : Shared) (c : Call) : Prop :=
  (∀ d ∈ c.launching, sh.Lists d.schedule) ∧ ∀ j, c.job = some j → sh.Lists j.due.schedule

structure Orderly (s : Calls ι Shared Call) : Prop where
  exclusive : Exclusive s
  once : PayOnce.Once (abstraction s)
  nodup : (s.shared.parties.map Prod.fst).Nodup
  listed : ∀ i, Listed s.shared (s.call i)
  queued : ∀ j ∈ s.shared.queue, s.shared.Lists j.due.schedule
  paid : ∀ p ∈ s.shared.payments, (p.scheduleId, p.donorId, p.recipientId) ∈ s.shared.parties

/-- All payments of one occurrence were made under one key, so there is at most one. -/
theorem Orderly.paidOnce {s : Calls ι Shared Call} (h : Orderly s) : PaidOnce s := by
  intro id date
  rcases Nat.eq_zero_or_pos (s.shared.payments.countP fun p ↦
    p.scheduleId = id && p.nextExecutionDate = date) with hzero | hpos
  · rw [hzero]
    exact Nat.zero_le 1
  obtain ⟨p, hp, hoccurrence⟩ := List.countP_pos_iff.mp hpos
  obtain ⟨hid, hdate⟩ : p.scheduleId = id ∧ p.nextExecutionDate = date := by
    simpa using hoccurrence
  have hkey : ∀ q ∈ s.shared.payments,
      (decide (q.scheduleId = id) && decide (q.nextExecutionDate = date)) = true →
        decide (q.key = p.key) = true := by
    intro q hq hqo
    obtain ⟨hqid, hqdate⟩ : q.scheduleId = id ∧ q.nextExecutionDate = date := by simpa using hqo
    have hparties := List.inj_on_of_nodup_map h.nodup (h.paid q hq) (h.paid p hp)
      (hqid.trans hid.symm)
    obtain ⟨-, hparties⟩ := Prod.mk.inj hparties
    obtain ⟨hdonor, hrecipient⟩ := Prod.mk.inj hparties
    refine decide_eq_true ?_
    rw [Payment.key, Payment.key, hqid, hqdate, hid, hdate, hdonor, hrecipient]
  have hle : (s.shared.payments.countP fun p ↦ p.scheduleId = id && p.nextExecutionDate = date)
      ≤ s.shared.payments.countP fun q ↦ q.key = p.key := List.countP_mono_left hkey
  have hone : live s.shared p.key ≤ 1 := h.once.le_one p.key
  rw [live] at hone
  omega

variable [DecidableEq ι] {cl : Cluster}

theorem orderly_step (s : Calls ι Shared Call) (a : ι × Env) (h : Orderly s)
    (hguard : Guarded s a) :
    Orderly (step cl s a) := by
  have hexcl : Exclusive (step cl s a) := exclusive_step s a h.exclusive
  have honce : PayOnce.Once (abstraction (step cl s a)) := once_step s a h.once h.exclusive hguard
  obtain ⟨i, env⟩ := a
  have hparties := parties_resume cl s.shared (s.call i) env
  have hlists : ∀ sc, s.shared.Lists sc → (resume cl s.shared (s.call i) env).1.Lists sc := by
    intro sc hsc
    rw [Shared.Lists, hparties]
    exact hsc
  refine ⟨hexcl, honce, ?_, Calls.forall_step h.listed ⟨fun d hd ↦ ?_, fun j hj ↦ ?_⟩
    fun c hc ↦ ⟨fun d hd ↦ hlists _ (hc.1 d hd), fun j hj ↦ hlists _ (hc.2 j hj)⟩,
    fun j hj ↦ hlists _ ?_, fun p hp ↦ ?_⟩
  · rw [step, Calls.step_shared, hparties]
    exact h.nodup
  · exact hlists _ (lists_of_mem (mem_launching_resume hd))
  · refine hlists _ ?_
    rcases job_resume hj with hj | hj
    · exact (h.listed i).2 j hj
    · exact h.queued j hj
  · rcases mem_queue_resume hj with hj | hj
    · exact h.queued j hj
    · exact (h.listed i).1 j.due hj
  · rw [step, Calls.step_shared, hparties]
    rcases mem_payments_resume hp with hp | ⟨j, hj, rfl⟩
    · exact h.paid p hp
    · exact (h.listed i).2 j hj

/-- A cluster before its first tick: distinct schedules, nothing launched and nothing paid. -/
structure Fresh (sh : Shared) : Prop where
  nodup : (sh.schedules.map (·.id)).Nodup
  queue : sh.queue = []
  payments : sh.payments = []

/-- Workers that have nothing to do yet. -/
def initial (sh : Shared) : Calls ι Shared Call := ⟨sh, fun _ ↦ .idle⟩

omit [DecidableEq ι] in
theorem orderly_initial {sh : Shared} (h : Fresh sh) :
    Orderly (initial sh : Calls ι Shared Call) := by
  refine ⟨InFlight.exclusive_initial ?_ fun i ↦ rfl,
    PayOnce.once_initial (fun i ↦ rfl) fun key ↦ ?_,
    ?_, fun i ↦ ⟨fun d hd ↦ absurd hd List.not_mem_nil, fun j hj ↦ by cases hj⟩, fun j hj ↦ ?_,
    fun p hp ↦ ?_⟩
  · simp only [inFlight, initial, h.queue, List.map_nil]
  · simp only [abstraction, initial, live, h.payments, List.countP_nil, Nat.cast_zero, le_refl]
  · rw [initial, Shared.parties, List.map_map]
    exact h.nodup
  · have hmem : j ∈ sh.queue := hj
    rw [h.queue] at hmem
    cases hmem
  · have hmem : p ∈ sh.payments := hp
    rw [h.payments] at hmem
    cases hmem

/-- **Recurring donations are paid once.** In every run of any workers on any instances, with any
failures, in which an instance looks for an occurrence in vain only while no other instance is
between its own look and its record, and the record of every payment is made, at most one payment
succeeds for each occurrence of each schedule. -/
theorem recurring_paid_once_per_occurrence (cl : Cluster) {sh : Shared} (hsh : Fresh sh)
    (as : List (ι × Env)) (hguard : Along (step cl) Guarded (initial sh) as) :
    Always (step cl) PaidOnce (initial sh) as :=
  (hguard.always orderly_step (orderly_initial hsh)).mono fun _ h ↦ h.paidOnce

end Runs

section Examples

def plainCluster : Cluster := ⟨fun node ↦ "host-" ++ toString node⟩

/-- A daily donation of 5 XLM, due on 29 February 2024. -/
def dailySchedule : Schedule where
  id := 1
  donorId := 2
  recipientId := 3
  amount := 5
  frequency := "daily"
  nextExecutionDate := 1709164800000
  executionCount := 0
  lastExecutionDate := none
  maxExecutions := none
  customIntervalDays := none
  webhookUrl := none
  failureCount := 0
  lastFailureReason := none
  status := .active

def oneSchedule : Shared where
  schedules := [dailySchedule]
  users := [⟨2, "GDONOR", none⟩, ⟨3, "GRECIPIENT", none⟩]
  transactions := []
  lock := none
  executing _ := []
  queue := []
  payments := []

theorem fresh_oneSchedule : Fresh oneSchedule := ⟨List.nodup_singleton 1, rfl, rfl⟩

def okEnv (start : ℕ ⊕ ℕ) : Env := ⟨1709164860000, none, true, .ok (some "hash"), false, start⟩

def failedEnv : Env :=
  { okEnv (.inl 0) with dbError := some ⟨.databaseError, some .databaseError, "SQLITE_BUSY"⟩ }

def tick : List (Fin 2 × Env) := List.replicate 5 (0, okEnv (.inl 0))

/-- The execution up to the payment, a failed `INSERT`, and the next attempt up to its payment. -/
def insertFails : List (Fin 2 × Env) :=
  tick ++ List.replicate 3 (1, okEnv (.inr 0)) ++ [(1, failedEnv)]
    ++ List.replicate 4 (1, okEnv (.inr 0))

/-- An `INSERT` that fails after the payment makes the next attempt pay again. -/
theorem recurring_retry_pays_again : Fresh oneSchedule ∧
    ¬Always (step plainCluster) PaidOnce (initial oneSchedule) insertFails := by
  refine ⟨fresh_oneSchedule, fun h ↦ ?_⟩
  have hpaid : (run (step plainCluster) (initial oneSchedule) insertFails).shared.payments
      = [⟨1, 1709164800000, 2, 3⟩, ⟨1, 1709164800000, 2, 3⟩] := by
    decide
  have honce := h.last 1 1709164800000
  rw [hpaid] at honce
  exact absurd honce (by decide)

/-- The schedule is executed, and a second tick finds nothing due. -/
theorem recurring_paid_once_undisturbed :
    Always (step plainCluster) PaidOnce (initial oneSchedule)
      (tick ++ List.replicate 7 (1, okEnv (.inr 0)) ++ tick) :=
  recurring_paid_once_per_occurrence plainCluster fresh_oneSchedule _ (by decide)

end Examples

end StellarDonations.Recurring
