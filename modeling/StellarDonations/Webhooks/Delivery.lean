import Mathlib.Data.List.Perm.Basic
import StellarDonations.Concurrency.Run
import StellarDonations.Storage.Table

/-!
# Delivering events to webhooks

`WebhookService`: an event is posted to every active webhook that subscribes to it, three times at
most; then it waits in `webhook_retries` for a pass of `processRetryQueue`, which posts it again,
and after five passes it goes to `webhook_dead_letters`, from where it may be replayed.

Each routine is a task that stops at every statement and every post, and the tasks are interleaved
in any way. An event is let go in three places: a failed post that makes the webhook inactive
returns as if it had succeeded, a pass has removed the entry of a webhook that it then finds
inactive or removed, and a replay removes the dead letter. Every event is accounted for exactly as
long as what is let go there has been received or is still somewhere else.
-/

namespace StellarDonations.Webhooks

open Concurrency Storage

/-! ## Tables -/

/-- The columns of `webhooks` that the deliveries read and write. -/
structure Webhook where
  /-- The text of the list of events. -/
  events : Option String
  isActive : ℤ := 1
  consecutiveFailures : ℕ := 0
  ownerEmail : Option String := none

/-- What is delivered to one webhook. The deliveries are numbered. -/
structure Item (π : Type) where
  webhookId : ℕ
  event : String
  payload : π
  delivery : ℕ

/-- A row of `webhook_retries`. -/
structure Retry (π : Type) extends Item π where
  attempt : ℕ
  nextRetryAt : ℤ
  lastError : Option String

structure DeadLetter (π : Type) extends Item π where
  attempts : ℕ
  lastError : Option String

/-- A row of `webhook_delivery_history`, by the outcome it reports. -/
inductive HistoryRow (π : Type) where
  | success (webhookId : ℕ) (attempt statusCode : ℕ)
  | failed (item : Item π) (attempt : ℕ) (errorMessage : Option String)

/-- The database, and the deliveries that an endpoint has answered with success. -/
structure Shared (π : Type) where
  webhooks : Table Webhook
  retries : Table (Retry π) := default
  deadLetters : Table (DeadLetter π) := default
  history : List (HistoryRow π) := []
  received : List ℕ := []

def maxRetries : ℕ := 3

def maxConsecutiveFailures : ℕ := 5

def retryMaxAttempts : ℕ := 5

def retryDelaysMs : List ℤ :=
  [60 * 1000, 5 * 60 * 1000, 30 * 60 * 1000, 2 * 60 * 60 * 1000, 24 * 60 * 60 * 1000]

/-- `LIKE`, which does not tell the cases of the ASCII letters. -/
def like : List Char → List Char → Bool
  | [], t => t.isEmpty
  | '%' :: p, t => t.tails.any (like p)
  | a :: p, c :: t => (a = '_' || a.toLower = c.toLower) && like p t
  | _ :: _, [] => false

/-- `is_active = 1 AND (events IS NULL OR events LIKE ?)`. -/
def isInterested (event : String) (w : Webhook) : Bool :=
  w.isActive = 1 && match w.events with
    | none => true
    | some events => like ('%' :: event.toList ++ ['%']) events.toList

/-! ## Tasks -/

/-- What a task posts: an event, with the `attempt` that is given to `scheduleRetry` when it cannot
be delivered, or the event of `flushPending`, whose errors are dropped. -/
inductive Job (π : Type) where
  | event (item : Item π) (retryAttempt : ℕ)
  | flush (webhookId : ℕ)

/-- What a task does after a delivery or after `scheduleRetry`. -/
inductive Continuation (π : Type) where
  | finish
  /-- A pass goes on with the rest of the entries that were due. -/
  | entries (due : List (ℕ × Retry π))
  | removeDeadLetter (id : ℕ)

/-- Where `_deliverWithRetry` is suspended. -/
inductive Progress where
  /-- On `_httpPost`. -/
  | posting (attempt : ℕ)
  | loggingSuccess (attempt statusCode : ℕ)
  | resetting
  /-- On the `UPDATE` that makes the webhook inactive. -/
  | disabling (failures : ℕ)
  | counting (failures attempt : ℕ) (error : String)
  /-- On the timer before the next attempt. -/
  | waiting (attempt : ℕ)

/-- Where `scheduleRetry` is suspended. -/
inductive Stage where
  | logging
  | storing
  | notifying

/-- A task, suspended on a statement, a post or a timer. -/
inductive Task (π : Type) where
  /-- In `_deliverWithRetry`, with its copy of the webhook. -/
  | attempting (job : Job π) (webhook : ℕ × Webhook) (k : Continuation π) (progress : Progress)
  /-- In `scheduleRetry`. -/
  | scheduling (item : Item π) (attempt : ℕ) (lastError : Option String) (k : Continuation π)
      (stage : Stage)
  /-- A pass, on the `DELETE` of an entry. -/
  | dequeuing (entry : ℕ × Retry π) (due : List (ℕ × Retry π))
  /-- A pass, on the `SELECT` of the webhook of an entry that it has removed. -/
  | lookingUp (entry : ℕ × Retry π) (due : List (ℕ × Retry π))
  /-- A replay, on the `DELETE` of the dead letter. -/
  | removing (id : ℕ)
  | done

inductive Outcome where
  | answered (statusCode : ℕ)
  | rejected (message : String)
  /-- Nothing is posted: the secret cannot be decrypted. -/
  | unsigned (message : String)

/-- What the environment answers to a task. -/
structure Env where
  outcome : Outcome
  now : ℤ

variable {π : Type}

def Continuation.task : Continuation π → Task π
  | .finish | .entries [] => .done
  | .entries (entry :: due) => .dequeuing entry due
  | .removeDeadLetter id => .removing id

/-- `result.delivered`. -/
def isDelivered (statusCode : ℕ) : Bool := 200 ≤ statusCode && statusCode < 300

/-- An error that leaves `_deliverWithRetry`. -/
def Job.throws (job : Job π) (k : Continuation π) (message : String) : Task π :=
  match job with
  | .event item retryAttempt => .scheduling item retryAttempt (some message) k .logging
  | .flush _ => k.task

def Job.fails (job : Job π) (webhook : ℕ × Webhook) (k : Continuation π) (attempt : ℕ)
    (message : String) : Task π :=
  let failures := webhook.2.consecutiveFailures + 1
  if maxConsecutiveFailures ≤ failures then .attempting job webhook k (.disabling failures)
  else .attempting job webhook k (.counting failures attempt message)

def Job.delivery : Job π → Option ℕ
  | .event item _ => some item.delivery
  | .flush _ => none

def Shared.updateWebhook (sh : Shared π) (id : ℕ) (f : Webhook → Webhook) : Shared π :=
  { sh with webhooks := sh.webhooks.update (fun r ↦ r.1 = id) f }

/-- `_deliverWithRetry`, to its next suspension. -/
def resumeDelivery (sh : Shared π) (job : Job π) (webhook : ℕ × Webhook) (k : Continuation π)
    (env : Env) : Progress → Shared π × Task π
  | .posting attempt =>
    match env.outcome with
    | .answered statusCode =>
      if isDelivered statusCode then
        ({ sh with received := sh.received ++ job.delivery.toList },
          .attempting job webhook k (.loggingSuccess attempt statusCode))
      else
        (sh, job.fails webhook k attempt
          ("Webhook endpoint responded with HTTP " ++ toString statusCode))
    | .rejected message => (sh, job.fails webhook k attempt message)
    | .unsigned message => (sh, job.throws k message)
  | .loggingSuccess attempt statusCode =>
    ({ sh with history := sh.history ++ [.success webhook.1 (attempt + 1) statusCode] },
      .attempting job webhook k .resetting)
  | .resetting => (sh.updateWebhook webhook.1 ({ · with consecutiveFailures := 0 }), k.task)
  | .disabling failures =>
    (sh.updateWebhook webhook.1 ({ · with isActive := 0, consecutiveFailures := failures }), k.task)
  | .counting failures attempt message =>
    let webhook' := (webhook.1, { webhook.2 with consecutiveFailures := failures })
    (sh.updateWebhook webhook.1 ({ · with consecutiveFailures := failures }),
      if attempt < maxRetries - 1 then .attempting job webhook' k (.waiting attempt)
      else job.throws k message)
  | .waiting attempt => (sh, .attempting job webhook k (.posting (attempt + 1)))

/-- `scheduleRetry`, to its next suspension. -/
def resumeScheduling (sh : Shared π) (item : Item π) (attempt : ℕ) (lastError : Option String)
    (k : Continuation π) (env : Env) : Stage → Shared π × Task π
  | .logging =>
    ({ sh with history := sh.history ++ [.failed item (attempt + 1) lastError] },
      .scheduling item attempt lastError k .storing)
  | .storing =>
    if retryMaxAttempts ≤ attempt then
      ({ sh with deadLetters := sh.deadLetters.insert ⟨item, attempt, lastError⟩ },
        .scheduling item attempt lastError k .notifying)
    else
      let nextRetryAt := env.now + retryDelaysMs.getD attempt 0
      ({ sh with retries := sh.retries.insert ⟨item, attempt, nextRetryAt, lastError⟩ }, k.task)
  | .notifying => (sh, k.task)

def resumeTask (sh : Shared π) (env : Env) : Task π → Shared π × Task π
  | .attempting job webhook k progress => resumeDelivery sh job webhook k env progress
  | .scheduling item attempt lastError k stage =>
    resumeScheduling sh item attempt lastError k env stage
  | .dequeuing entry due =>
    ({ sh with retries := sh.retries.delete fun r ↦ r.1 = entry.1 }, .lookingUp entry due)
  | .lookingUp entry due =>
    match sh.webhooks.get entry.2.webhookId with
    | some w =>
      if w.isActive ≠ 0 then
        (sh, .attempting (.event entry.2.toItem (entry.2.attempt + 1)) (entry.2.webhookId, w)
          (.entries due) (.posting 0))
      else (sh, (Continuation.entries due).task)
    | none => (sh, (Continuation.entries due).task)
  | .removing id => ({ sh with deadLetters := sh.deadLetters.delete fun r ↦ r.1 = id }, .done)
  | .done => (sh, .done)

/-! ## The service -/

/-- The database, the tasks, and the number of deliveries that have been asked for. -/
structure State (π : Type) where
  shared : Shared π
  tasks : List (Task π) := []
  issued : ℕ := 0

/-- What happens to the service: a call of one of its routines, up to its first statement included,
the statements of `register`, `remove` and the administrators' switch, or a task that goes on. -/
inductive Action (π : Type) where
  | deliver (event : String) (payload : π)
  | processRetryQueue (now : ℤ)
  | replayDeadLetter (id : ℕ)
  | flushPending
  | register (webhook : Webhook)
  | remove (id : ℕ)
  | setActive (id : ℕ) (isActive : ℤ)
  | resume (i : ℕ) (env : Env)

/-- The tasks that `deliver` starts, with deliveries numbered from `first`. -/
def deliverTasks (event : String) (payload : π) (first : ℕ) :
    List (ℕ × Webhook) → List (Task π)
  | [] => []
  | w :: ws =>
    .attempting (.event ⟨w.1, event, payload, first⟩ 0) w .finish (.posting 0) ::
      deliverTasks event payload (first + 1) ws

def deliver (s : State π) (event : String) (payload : π) : State π :=
  let interested := s.shared.webhooks.rows.filter fun r ↦ isInterested event r.2
  { s with
    tasks := s.tasks ++ deliverTasks event payload s.issued interested
    issued := s.issued + interested.length }

def processRetryQueue (s : State π) (now : ℤ) : State π :=
  let due := (s.shared.retries.rows.filter fun r ↦ r.2.nextRetryAt ≤ now).mergeSort
    fun a b ↦ a.2.nextRetryAt ≤ b.2.nextRetryAt
  { s with tasks := s.tasks ++ [(Continuation.entries due).task] }

def replayDeadLetter (s : State π) (id : ℕ) : State π :=
  match s.shared.deadLetters.get id with
  | some entry =>
    { s with
      tasks := s.tasks ++ [.scheduling entry.toItem 0 none (.removeDeadLetter id) .logging] }
  | none => s

def flushPending (s : State π) : State π :=
  let pending := s.shared.webhooks.rows.filter fun r ↦
    r.2.isActive = 1 && 0 < r.2.consecutiveFailures
  { s with
    tasks := s.tasks ++ pending.map fun w ↦ .attempting (.flush w.1) w .finish (.posting 0) }

def step (s : State π) : Action π → State π
  | .deliver event payload => deliver s event payload
  | .processRetryQueue now => processRetryQueue s now
  | .replayDeadLetter id => replayDeadLetter s id
  | .flushPending => flushPending s
  | .register webhook =>
    { s with shared := { s.shared with webhooks := s.shared.webhooks.insert webhook } }
  | .remove id =>
    { s with shared := { s.shared with webhooks := s.shared.webhooks.delete fun r ↦ r.1 = id } }
  | .setActive id isActive => { s with shared := s.shared.updateWebhook id ({ · with isActive }) }
  | .resume i env =>
    match s.tasks[i]? with
    | some task =>
      let (shared, task') := resumeTask s.shared env task
      { s with shared, tasks := s.tasks.set i task' }
    | none => s

/-- As the service starts, with nothing to deliver. -/
def start (webhooks : Table Webhook) : State π := { shared := { webhooks } }

/-! ## Where a delivery is -/

/-- The task is about to post the event of a delivery, or to put it into a table. -/
def Task.Holds (d : ℕ) : Task π → Prop
  | .attempting job _ _ (.posting _) | .attempting job _ _ (.counting ..)
  | .attempting job _ _ (.waiting _) => job.delivery = some d
  | .scheduling item _ _ _ .logging | .scheduling item _ _ _ .storing => item.delivery = d
  | .lookingUp entry _ => entry.2.delivery = d
  | _ => False

instance (d : ℕ) : ∀ task : Task π, Decidable (task.Holds d)
  | .attempting job _ _ (.posting _) | .attempting job _ _ (.counting ..)
  | .attempting job _ _ (.waiting _) => inferInstanceAs (Decidable (job.delivery = some d))
  | .scheduling item _ _ _ .logging | .scheduling item _ _ _ .storing =>
    inferInstanceAs (Decidable (item.delivery = d))
  | .lookingUp entry _ => inferInstanceAs (Decidable (entry.2.delivery = d))
  | .attempting _ _ _ (.loggingSuccess ..) | .attempting _ _ _ .resetting
  | .attempting _ _ _ (.disabling _) | .scheduling _ _ _ _ .notifying | .dequeuing ..
  | .removing _ | .done => inferInstanceAs (Decidable False)

/-- The event has been received, or sits in one of the two tables. -/
def Stored (sh : Shared π) (d : ℕ) : Prop :=
  d ∈ sh.received ∨ (∃ r ∈ sh.retries.rows, r.2.delivery = d) ∨
    ∃ r ∈ sh.deadLetters.rows, r.2.delivery = d

instance (sh : Shared π) (d : ℕ) : Decidable (Stored sh d) :=
  inferInstanceAs (Decidable (_ ∨ (∃ r ∈ sh.retries.rows, r.2.delivery = d) ∨
    ∃ r ∈ sh.deadLetters.rows, r.2.delivery = d))

/-- The event has been received, is being attempted, or sits in one of the two tables. -/
def Accounted (s : State π) (d : ℕ) : Prop :=
  Stored s.shared d ∨ ∃ task ∈ s.tasks, task.Holds d

instance (s : State π) (d : ℕ) : Decidable (Accounted s d) :=
  inferInstanceAs (Decidable (_ ∨ ∃ task ∈ s.tasks, task.Holds d))

def NoneLost (s : State π) : Prop := ∀ d < s.issued, Accounted s d

instance (s : State π) : Decidable (NoneLost s) :=
  inferInstanceAs (Decidable (∀ d < s.issued, Accounted s d))

/-- A post that is not answered with success. -/
def Outcome.Fails : Outcome → Prop
  | .answered statusCode => ¬isDelivered statusCode
  | .rejected _ => True
  | .unsigned _ => False

/-- The task lets the event of a delivery go: a failed post makes the webhook inactive, the webhook
of an entry is inactive or there is none, or a dead letter is removed. -/
def LetsGo (sh : Shared π) (env : Env) (d : ℕ) : Task π → Prop
  | .attempting job webhook _ (.posting _) =>
    job.delivery = some d ∧ env.outcome.Fails ∧
      maxConsecutiveFailures ≤ webhook.2.consecutiveFailures + 1
  | .lookingUp entry _ =>
    entry.2.delivery = d ∧ ∀ w, sh.webhooks.get entry.2.webhookId = some w → w.isActive = 0
  | .removing id => ∃ r ∈ sh.deadLetters.rows, r.1 = id ∧ r.2.delivery = d
  | _ => False

/-- The dead letter that a replay is about to remove. -/
def Task.Removes (id : ℕ) : Task π → Prop
  | .removing id' => id = id'
  | _ => False

/-- The event has been received, or is left in one of the two tables. -/
def Left (sh : Shared π) (task : Task π) (d : ℕ) : Prop :=
  d ∈ sh.received ∨ (∃ r ∈ sh.retries.rows, r.2.delivery = d) ∨
    ∃ r ∈ sh.deadLetters.rows, ¬task.Removes r.1 ∧ r.2.delivery = d

/-- What a task lets go has been received, or is still somewhere else. -/
def Careful (s : State π) : Action π → Prop
  | .resume i env =>
    ∀ task, s.tasks[i]? = some task → ∀ d < s.issued, LetsGo s.shared env d task →
      Left s.shared task d ∨ ∃ task' ∈ s.tasks.eraseIdx i, task'.Holds d
  | _ => True

/-! ## One task -/

variable {s : State π} {sh : Shared π} {env : Env} {d : ℕ} {task : Task π} {k : Continuation π}
  {job : Job π} {webhook : ℕ × Webhook}

theorem Continuation.not_holds_task : ¬k.task.Holds d := by
  rcases k with _ | (_ | ⟨entry, due⟩) | deadLetterId <;> exact id

theorem Job.holds_throws (h : job.delivery = some d) {message : String} :
    (job.throws k message).Holds d := by
  cases job with
  | event item retryAttempt => exact Option.some_inj.mp h
  | flush webhookId => cases h

/-- A failed post keeps the event as long as the webhook remains active. -/
theorem Job.holds_fails_iff {attempt : ℕ} {message : String} :
    (job.fails webhook k attempt message).Holds d ↔ job.delivery = some d ∧
      ¬maxConsecutiveFailures ≤ webhook.2.consecutiveFailures + 1 := by
  rw [Job.fails]
  split_ifs with hlimit
  · exact iff_of_false id fun h ↦ h.2 hlimit
  · exact (and_iff_left hlimit).symm

theorem stored_append_received (l : List ℕ) (h : Stored sh d ∨ d ∈ l) :
    Stored { sh with received := sh.received ++ l } d := by
  rcases h with (h | h) | h
  · exact .inl (List.mem_append_left l h)
  · exact .inr h
  · exact .inl (List.mem_append_right sh.received h)

/-- **A delivery** keeps its event until it is received, unless the webhook becomes inactive. -/
theorem kept_resumeDelivery {progress : Progress}
    (hgo : ¬LetsGo sh env d (.attempting job webhook k progress))
    (h : Stored sh d ∨ (Task.attempting job webhook k progress).Holds d) :
    Stored (resumeDelivery sh job webhook k env progress).1 d ∨
      (resumeDelivery sh job webhook k env progress).2.Holds d := by
  cases progress with
  | posting attempt =>
    -- a post that fails hands the event on, unless the webhook becomes inactive
    have hfails : env.outcome.Fails → ∀ message,
        Stored sh d ∨ (job.fails webhook k attempt message).Holds d := by
      intro houtcome message
      refine h.imp_right fun hd ↦ Job.holds_fails_iff.mpr ⟨hd, fun hlimit ↦ ?_⟩
      exact hgo ⟨hd, houtcome, hlimit⟩
    rw [resumeDelivery]
    split
    · rename_i statusCode hanswered
      split_ifs with hdelivered
      · refine .inl (stored_append_received _ (h.imp_right fun hd ↦ ?_))
        rw [Option.mem_toList]
        exact hd
      · exact hfails (hanswered ▸ hdelivered) _
    · rename_i message hrejected
      exact hfails (hrejected ▸ trivial) message
    · exact h.imp_right fun hd ↦ Job.holds_throws hd
  | loggingSuccess attempt statusCode => exact .inl (h.resolve_right id)
  | resetting => exact .inl (h.resolve_right id)
  | disabling failures => exact .inl (h.resolve_right id)
  | counting failures attempt message =>
    rw [resumeDelivery]
    refine h.imp_right fun hd ↦ ?_
    dsimp only
    split_ifs
    · exact hd
    · exact Job.holds_throws hd
  | waiting attempt => exact h

/-- **`scheduleRetry`** keeps the event until it is in one of the tables. -/
theorem kept_resumeScheduling {item : Item π} {attempt : ℕ} {lastError : Option String}
    {stage : Stage} (h : Stored sh d ∨ (Task.scheduling item attempt lastError k stage).Holds d) :
    Stored (resumeScheduling sh item attempt lastError k env stage).1 d ∨
      (resumeScheduling sh item attempt lastError k env stage).2.Holds d := by
  cases stage with
  | logging => exact h
  | storing =>
    left
    rw [resumeScheduling]
    split_ifs
    · rcases h with (h | h | ⟨r, hr, hd⟩) | h
      · exact .inl h
      · exact .inr (.inl h)
      · exact .inr (.inr ⟨r, Table.mem_insert.mpr (.inl hr), hd⟩)
      · exact .inr (.inr ⟨_, Table.mem_insert.mpr (.inr rfl), h⟩)
    · rcases h with (h | ⟨r, hr, hd⟩ | h) | h
      · exact .inl h
      · exact .inr (.inl ⟨r, Table.mem_insert.mpr (.inl hr), hd⟩)
      · exact .inr (.inr h)
      · exact .inr (.inl ⟨_, Table.mem_insert.mpr (.inr rfl), h⟩)
  | notifying => exact .inl (h.resolve_right id)

/-! ## The entries of a pass -/

/-- The entries that a pass goes on to. -/
def Continuation.due : Continuation π → List (ℕ × Retry π)
  | .entries due => due
  | _ => []

/-- The entries that a task has read and not yet removed. -/
def Task.due : Task π → List (ℕ × Retry π)
  | .attempting _ _ k _ | .scheduling _ _ _ k _ => k.due
  | .dequeuing entry due => entry :: due
  | .lookingUp _ due => due
  | _ => []

theorem Continuation.due_task : k.task.due = k.due := by
  rcases k with _ | (_ | ⟨entry, due⟩) | deadLetterId <;> rfl

theorem Job.due_throws {message : String} : (job.throws k message).due = k.due := by
  cases job with
  | event item retryAttempt => rfl
  | flush webhookId => exact Continuation.due_task

theorem Job.due_fails {attempt : ℕ} {message : String} :
    (job.fails webhook k attempt message).due = k.due := by
  rw [Job.fails]
  split_ifs <;> rfl

theorem due_resumeDelivery {progress : Progress} :
    (resumeDelivery sh job webhook k env progress).2.due = k.due := by
  cases progress with
  | posting attempt =>
    rw [resumeDelivery]
    split
    · split_ifs
      · rfl
      · exact Job.due_fails
    · exact Job.due_fails
    · exact Job.due_throws
  | loggingSuccess | waiting => rfl
  | resetting | disabling => exact Continuation.due_task
  | counting failures attempt message =>
    rw [resumeDelivery]
    dsimp only
    split_ifs
    · rfl
    · exact Job.due_throws

theorem due_resumeScheduling {item : Item π} {attempt : ℕ} {lastError : Option String}
    {stage : Stage} : (resumeScheduling sh item attempt lastError k env stage).2.due = k.due := by
  cases stage with
  | logging => rfl
  | storing =>
    rw [resumeScheduling]
    split_ifs
    · rfl
    · exact Continuation.due_task
  | notifying => exact Continuation.due_task

theorem mem_due_of_resumeTask {e : ℕ × Retry π} (h : e ∈ (resumeTask sh env task).2.due) :
    e ∈ task.due := by
  cases task with
  | attempting job webhook k progress =>
    rw [resumeTask, due_resumeDelivery] at h
    exact h
  | scheduling item attempt lastError k stage =>
    rw [resumeTask, due_resumeScheduling] at h
    exact h
  | dequeuing entry due => exact List.mem_cons_of_mem entry h
  | lookingUp entry due =>
    rw [resumeTask] at h
    split at h
    · split_ifs at h
      · exact h
      · rwa [Continuation.due_task] at h
    · rwa [Continuation.due_task] at h
  | removing | done => exact h

theorem retries_resumeDelivery {progress : Progress} :
    (resumeDelivery sh job webhook k env progress).1.retries = sh.retries := by
  cases progress with
  | posting attempt =>
    rw [resumeDelivery]
    split
    · split_ifs <;> rfl
    · rfl
    · rfl
  | loggingSuccess | resetting | disabling | counting | waiting => rfl

theorem known_resumeTask {e : ℕ × Retry π} (h : sh.retries.Known e) (task : Task π) :
    (resumeTask sh env task).1.retries.Known e := by
  cases task with
  | attempting job webhook k progress =>
    rw [resumeTask, retries_resumeDelivery]
    exact h
  | scheduling item attempt lastError k stage =>
    cases stage with
    | logging | notifying => exact h
    | storing =>
      rw [resumeTask, resumeScheduling]
      split_ifs
      · exact h
      · exact h.insert _
  | dequeuing => exact h.delete
  | lookingUp entry due =>
    rw [resumeTask]
    split
    · split_ifs <;> exact h
    · exact h
  | removing | done => exact h

/-- **One task** that does not let the event go. -/
theorem kept_resumeTask (hknown : ∀ e ∈ task.due, sh.retries.Known e)
    (hgo : ¬LetsGo sh env d task) (h : Stored sh d ∨ task.Holds d) :
    Stored (resumeTask sh env task).1 d ∨ (resumeTask sh env task).2.Holds d := by
  cases task with
  | attempting job webhook k progress => exact kept_resumeDelivery hgo h
  | scheduling item attempt lastError k stage => exact kept_resumeScheduling h
  | dequeuing entry due =>
    rcases h with (h | ⟨r, hr, hd⟩ | h) | h
    · exact .inl (.inl h)
    · by_cases hkey : r.1 = entry.1
      · -- the row that is removed is the entry that was read
        obtain rfl := (hknown entry List.mem_cons_self).2 r hr hkey
        exact .inr hd
      · exact .inl (.inr (.inl ⟨r, Table.mem_delete.mpr ⟨hr, by simpa using hkey⟩, hd⟩))
    · exact .inl (.inr (.inr h))
    · cases h
  | lookingUp entry due =>
    rw [resumeTask]
    split
    · rename_i w hw
      split_ifs with hactive
      · exact h.imp_right fun hd ↦ congrArg some hd
      · refine h.imp_right fun hd ↦ absurd ⟨hd, fun w' hw' ↦ ?_⟩ hgo
        rw [← Option.some_inj.mp (hw.symm.trans hw')]
        exact not_not.mp hactive
    · rename_i hnone
      refine h.imp_right fun hd ↦ absurd ⟨hd, fun w hw ↦ ?_⟩ hgo
      exact nomatch hnone.symm.trans hw
  | removing id =>
    rcases h with (h | h | ⟨r, hr, hd⟩) | h
    · exact .inl (.inl h)
    · exact .inl (.inr (.inl h))
    · have hkey : r.1 ≠ id := fun hkey ↦ hgo ⟨r, hr, hkey, hd⟩
      exact .inl (.inr (.inr ⟨r, Table.mem_delete.mpr ⟨hr, by simpa using hkey⟩, hd⟩))
    · cases h
  | done => exact h

theorem left_iff_stored (h : ∀ id, ¬task.Removes id) : Left sh task d ↔ Stored sh d := by
  simp only [Left, Stored, h, not_false_iff, true_and]

/-- **One task** that lets the event go leaves it where else it is. -/
theorem resumeTask_of_letsGo (h : LetsGo sh env d task) :
    Stored (resumeTask sh env task).1 d ∨ (resumeTask sh env task).2.Holds d ↔
      Left sh task d := by
  cases task with
  | attempting job webhook k progress =>
    cases progress with
    | posting attempt =>
      obtain ⟨-, houtcome, hlimit⟩ := h
      -- after the last failure the task disables the webhook, and drops the event
      have hfails : ∀ message, ¬(job.fails webhook k attempt message).Holds d :=
        fun message hholds ↦ (Job.holds_fails_iff.mp hholds).2 hlimit
      rw [left_iff_stored fun _ ↦ id, resumeTask, resumeDelivery]
      split
      · rename_i statusCode hanswered
        rw [hanswered] at houtcome
        rw [if_neg houtcome]
        exact or_iff_left (hfails _)
      · exact or_iff_left (hfails _)
      · rename_i message hunsigned
        rw [hunsigned] at houtcome
        cases houtcome
    | loggingSuccess | resetting | disabling | counting | waiting => cases h
  | lookingUp entry due =>
    obtain ⟨-, hinactive⟩ := h
    rw [left_iff_stored fun _ ↦ id, resumeTask]
    split
    · rename_i w hw
      rw [if_neg (not_not.mpr (hinactive w hw))]
      exact or_iff_left Continuation.not_holds_task
    · exact or_iff_left Continuation.not_holds_task
  | removing id =>
    refine (or_iff_left fun hholds ↦ hholds).trans ?_
    simp only [resumeTask, Stored, Left, Table.mem_delete, Task.Removes, decide_eq_true_iff,
      and_assoc]
  | scheduling | dequeuing | done => cases h

/-! ## The service -/

/-- The entries that the passes have read are the entries of the table, while they are there. -/
def Sound (s : State π) : Prop :=
  ∀ task ∈ s.tasks, ∀ e ∈ task.due, s.shared.retries.Known e

theorem holds_iff_of_getElem? {i : ℕ} (h : s.tasks[i]? = some task) :
    (∃ t ∈ s.tasks, t.Holds d) ↔ task.Holds d ∨ ∃ t ∈ s.tasks.eraseIdx i, t.Holds d := by
  obtain ⟨hi, rfl⟩ := List.getElem?_eq_some_iff.mp h
  simp only [← (List.getElem_cons_eraseIdx_perm hi).mem_iff, List.exists_mem_cons_iff]

theorem holds_iff_of_set {i : ℕ} (h : s.tasks[i]? = some task) (task' : Task π) :
    (∃ t ∈ s.tasks.set i task', t.Holds d) ↔
      task'.Holds d ∨ ∃ t ∈ s.tasks.eraseIdx i, t.Holds d := by
  obtain ⟨hi, -⟩ := List.getElem?_eq_some_iff.mp h
  simp only [(List.set_perm_cons_eraseIdx hi task').mem_iff, List.exists_mem_cons_iff]

/-- Each webhook that is interested has its own delivery. -/
theorem holds_deliverTasks {event : String} {payload : π} {first : ℕ} {ws : List (ℕ × Webhook)}
    (hfirst : first ≤ d) (hlast : d < first + ws.length) :
    ∃ task ∈ deliverTasks event payload first ws, task.Holds d := by
  induction ws generalizing first with
  | nil => exact absurd hlast (Nat.not_lt.mpr hfirst)
  | cons w ws ih =>
    rw [deliverTasks]
    rcases hfirst.eq_or_lt with rfl | hlt
    · exact ⟨_, List.mem_cons_self, rfl⟩
    · rw [List.length_cons] at hlast
      obtain ⟨task, htask, hholds⟩ := ih hlt (by omega)
      exact ⟨task, List.mem_cons_of_mem _ htask, hholds⟩

theorem due_deliverTasks {event : String} {payload : π} {first : ℕ} {ws : List (ℕ × Webhook)} :
    ∀ task ∈ deliverTasks event payload first ws, task.due = [] := by
  induction ws generalizing first with
  | nil => exact fun task htask ↦ nomatch htask
  | cons w ws ih =>
    intro task htask
    rcases List.mem_cons.mp htask with rfl | htask
    · rfl
    · exact ih task htask

theorem Accounted.append (h : Accounted s d) (tasks : List (Task π)) (issued : ℕ) :
    Accounted { s with tasks := s.tasks ++ tasks, issued } d := by
  refine h.imp_right ?_
  rintro ⟨task, htask, hholds⟩
  exact ⟨task, List.mem_append_left tasks htask, hholds⟩

theorem Sound.append (h : Sound s) {tasks : List (Task π)} (issued : ℕ)
    (hnew : ∀ task ∈ tasks, ∀ e ∈ task.due, s.shared.retries.Known e) :
    Sound { s with tasks := s.tasks ++ tasks, issued } := by
  intro task htask
  rcases List.mem_append.mp htask with htask | htask
  · exact h task htask
  · exact hnew task htask

theorem Sound.resume (h : Sound s) {i : ℕ} (hi : s.tasks[i]? = some task) :
    Sound { s with
      shared := (resumeTask s.shared env task).1
      tasks := s.tasks.set i (resumeTask s.shared env task).2 } := by
  intro task' htask' e he
  rcases List.mem_or_eq_of_mem_set htask' with htask' | rfl
  · exact known_resumeTask (h task' htask' e he) task
  · exact known_resumeTask (h task (List.mem_of_getElem? hi) e (mem_due_of_resumeTask he)) task

/-- **One action** keeps track of what the passes have read. -/
theorem Sound.step (h : Sound s) (a : Action π) : Sound (step s a) := by
  cases a with
  | deliver event payload =>
    refine h.append _ fun task htask e he ↦ ?_
    rw [due_deliverTasks task htask] at he
    cases he
  | processRetryQueue now =>
    refine h.append _ fun task htask e he ↦ ?_
    rw [List.mem_singleton.mp htask, Continuation.due_task] at he
    exact Table.known_of_mem (List.mem_filter.mp (List.mem_mergeSort.mp he)).1
  | replayDeadLetter id =>
    rw [Webhooks.step, replayDeadLetter]
    split
    · refine h.append _ fun task htask e he ↦ ?_
      rw [List.mem_singleton.mp htask] at he
      cases he
    · exact h
  | flushPending =>
    refine h.append _ fun task htask e he ↦ ?_
    obtain ⟨w, -, rfl⟩ := List.mem_map.mp htask
    cases he
  | register | remove | setActive => exact h
  | resume i env =>
    rw [Webhooks.step]
    split
    · rename_i task hi
      exact h.resume hi
    · exact h

/-- A task that is resumed keeps a delivery accounted for exactly when what it lets go is not the
last of it. -/
theorem Sound.accounted_resume_iff (h : Sound s) {i : ℕ} (hi : s.tasks[i]? = some task)
    (hd : Accounted s d) :
    Accounted { s with
        shared := (resumeTask s.shared env task).1
        tasks := s.tasks.set i (resumeTask s.shared env task).2 } d ↔
      (LetsGo s.shared env d task →
        Left s.shared task d ∨ ∃ task' ∈ s.tasks.eraseIdx i, task'.Holds d) := by
  rw [Accounted, holds_iff_of_set hi, ← or_assoc]
  rw [Accounted, holds_iff_of_getElem? hi, ← or_assoc] at hd
  by_cases hgo : LetsGo s.shared env d task
  · rw [resumeTask_of_letsGo hgo]
    exact (imp_iff_right hgo).symm
  · refine iff_of_true (hd.imp_left fun hd ↦ ?_) fun hgo' ↦ absurd hgo' hgo
    exact kept_resumeTask (h task (List.mem_of_getElem? hi)) hgo hd

/-- **One action** loses no event exactly when what it lets go is not the last of it. -/
theorem Sound.noneLost_step_iff (h : Sound s) (hs : NoneLost s) (a : Action π) :
    NoneLost (Webhooks.step s a) ↔ Careful s a := by
  cases a with
  | deliver event payload =>
    refine iff_of_true (fun d hd ↦ ?_) trivial
    by_cases hissued : d < s.issued
    · exact (hs d hissued).append _ _
    · obtain ⟨task, htask, hholds⟩ := holds_deliverTasks (Nat.not_lt.mp hissued) hd
      exact .inr ⟨task, List.mem_append_right s.tasks htask, hholds⟩
  | processRetryQueue now => exact iff_of_true (fun d hd ↦ (hs d hd).append _ _) trivial
  | replayDeadLetter id =>
    refine iff_of_true ?_ trivial
    rw [Webhooks.step, replayDeadLetter]
    split
    · exact fun d hd ↦ (hs d hd).append _ _
    · exact hs
  | flushPending => exact iff_of_true (fun d hd ↦ (hs d hd).append _ _) trivial
  | register | remove | setActive => exact iff_of_true hs trivial
  | resume i env =>
    rw [Webhooks.step, Careful]
    cases hi : s.tasks[i]? with
    | none => exact iff_of_true hs fun task htask ↦ nomatch htask
    | some task =>
      refine (forall₂_congr fun d hd ↦ h.accounted_resume_iff hi (hs d hd)).trans ?_
      exact ⟨fun hcareful task' htask' ↦ Option.some_inj.mp htask' ▸ hcareful,
        fun hcareful ↦ hcareful task rfl⟩

/-- **Events are never lost** in exactly the runs that let nothing go that is not received, being
attempted, queued or dead-lettered elsewhere. -/
theorem events_kept_iff (webhooks : Table Webhook) (as : List (Action π)) :
    Always step NoneLost (start webhooks) as ↔ Along step Careful (start webhooks) as := by
  have hstart : NoneLost (start webhooks : State π) := fun d hd ↦ absurd hd (Nat.not_lt_zero d)
  refine always_iff_along (I := fun s ↦ NoneLost s ∧ Sound s) (fun s hs ↦ hs.1) ?_ ?_
    ⟨hstart, fun task htask ↦ nomatch htask⟩ as
  · exact fun s a hs hcareful ↦ ⟨(hs.2.noneLost_step_iff hs.1 a).mpr hcareful, hs.2.step a⟩
  · exact fun s a hs hcareless hkept ↦ hcareless ((hs.2.noneLost_step_iff hs.1 a).mp hkept)

def failingWebhook : Webhook :=
  { events := some "[\"donation.created\"]", consecutiveFailures := 4 }

/-- The fifth failure in a row makes the webhook inactive, and the event is gone. -/
theorem event_lost :
    ¬Always step NoneLost (start (default : Table Webhook) : State Unit)
      [.register failingWebhook, .deliver "donation.created" (), .resume 0 ⟨.answered 500, 0⟩,
        .resume 0 ⟨.answered 500, 0⟩] := by
  decide

end StellarDonations.Webhooks
