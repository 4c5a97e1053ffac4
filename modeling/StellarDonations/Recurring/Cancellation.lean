import StellarDonations.Recurring.Scheduler

/-!
# Cancelling a recurring donation

A schedule is cancelled by an `UPDATE` of its row: by the route of recurring donations, or through
the subscription it belongs to. A third route, for streams, first asks the scheduler whether the
schedule is being executed, and if so defers the cancellation to the end of the execution.

The scheduler writes the same column. An execution that succeeds sets the status to `active` or
`completed`, whatever the row holds by then, and a tick launches what it has read as due, whatever
has happened to the row since. A cancellation that reaches the row while an execution, a launch or a
deferral is on its way can therefore be undone. When none is, the cancellation is final
(`settled_step`): the row is never due again, so nothing that could overwrite it is started.
-/

namespace StellarDonations.Recurring

open Concurrency JsString

/-! ## The state -/

inductive SubscriptionStatus where
  | active
  | cancelled
  deriving DecidableEq, Repr

/-- A row of `donor_subscriptions`. -/
structure Subscription where
  id : ℕ
  donorId : ℕ
  tierId : ℕ
  recurringDonationId : Option ℕ
  status : SubscriptionStatus
  createdAt : ℤ
  cancelledAt : Option ℤ
  deriving DecidableEq

/-- A row of `subscription_tiers`. -/
structure Tier where
  id : ℕ
  name : String
  amount : ℚ
  interval : String
  deriving DecidableEq

structure FormattedSubscription where
  subscription : Subscription
  tierName : String
  tierAmount : ℚ
  tierInterval : String
  deriving DecidableEq

/-- The scheduler's state with the tables of subscriptions. Two records are kept beside it: the
schedules a cancellation has reached, and the executions (by instance and schedule) that were
launched after that. -/
structure Board where
  db : Shared
  subscriptions : List Subscription
  tiers : List Tier
  cancelled : List ℕ
  late : List (ℕ × ℕ)

namespace Board

def getSubscriptionById (b : Board) (id : ℕ) : Except AppError FormattedSubscription :=
  let row := (b.subscriptions.find? (·.id = id)).bind fun ds ↦
    (b.tiers.find? (·.id = ds.tierId)).map fun st ↦
      (⟨ds, st.name, st.amount, st.interval⟩ : FormattedSubscription)
  match row with
  | some row => .ok row
  | none => .error (.notFound .notFound "Subscription not found")

/-- `UPDATE recurring_donations SET status = ? WHERE id = ?`. -/
def setStatus (b : Board) (id : ℕ) (status : ScheduleStatus) : Board :=
  { b with db := b.db.updateSchedule id fun row ↦ { row with status } }

/-- The `UPDATE` of a cancellation, which the board records. -/
def cancel (b : Board) (id : ℕ) : Board :=
  { b.setStatus id .cancelled with cancelled := id :: b.cancelled }

/-- `UPDATE donor_subscriptions SET status = 'cancelled', cancelledAt = CURRENT_TIMESTAMP`. -/
def cancelSubscriptionRow (b : Board) (id : ℕ) (now : ℤ) : Board :=
  { b with
    subscriptions := b.subscriptions.map fun ds ↦
      if ds.id = id then { ds with status := .cancelled, cancelledAt := some now } else ds }

/-- The executions that a worker launches although their schedule is cancelled. -/
def lateStarts (b : Board) : Call → List (ℕ × ℕ)
  | .launch node due =>
    ((due.filter fun d ↦ d.schedule.id ∉ b.db.executing node).filter
      fun d ↦ d.schedule.id ∈ b.cancelled).map fun d ↦ (node, d.schedule.id)
  | _ => []

end Board

/-! ## The calls -/

inductive CancelRequest where
  /-- `DELETE /donations/recurring/:id`. -/
  | schedule (id : ℕ)
  /-- `cancelSubscription`. -/
  | subscription (id : ℕ)
  /-- `DELETE /stream/schedules/:id`, in the process of an instance of the scheduler. -/
  | stream (id node : ℕ) (isAdmin : Bool) (userPublicKey : Option String)

inductive CancelReply where
  | done (cancellationStatus : Option String) (message : String)
  | refused (status : ℕ) (error : String)
  | subscription (row : FormattedSubscription)
  | failed (e : AppError)

/-- A worker of the scheduler, or the statement that a request is suspended on. -/
inductive Activity where
  | worker (c : Call)
  | findSchedule (id : ℕ)
  | cancelSchedule (id : ℕ)
  | findSubscription (id : ℕ)
  | cancelSubscriptionRow (id : ℕ) (recurringDonationId : Option ℕ)
  | cancelLinked (id recurringDonationId : ℕ)
  | readSubscription (id : ℕ)
  | findOwned (id node : ℕ) (isAdmin : Bool) (userPublicKey : Option String)
  | defer (id : ℕ)
  | cancelOwned (id : ℕ)
  | replied (reply : CancelReply)

structure CancelEnv where
  env : Env
  request : Option CancelRequest

def CancelRequest.start : CancelRequest → Activity
  | schedule id => .findSchedule id
  | subscription id => .findSubscription id
  | stream id node isAdmin userPublicKey => .findOwned id node isAdmin userPublicKey

def Board.resumeWorker (cl : Cluster) (b : Board) (c : Call) (env : Env) : Board × Activity :=
  ({ b with db := (resume cl b.db c env).1, late := b.lateStarts c ++ b.late },
    .worker (resume cl b.db c env).2)

/-- After the `SELECT` of `DELETE /donations/recurring/:id`. -/
def checkSchedule (id : ℕ) : Option Schedule → Activity
  | none => .replied (.refused 404 "Schedule not found")
  | some row =>
    if row.status = .cancelled then .replied (.refused 409 "Schedule is already cancelled")
    else .cancelSchedule id

/-- After the `SELECT` of `DELETE /stream/schedules/:id`: the owner or an administrator may cancel,
and a schedule that the instance is executing is cancelled later. -/
def checkOwned (db : Shared) (id node : ℕ) (isAdmin : Bool) (userPublicKey : Option String) :
    Activity :=
  let donor := (db.schedules.find? (·.id = id)).bind fun rd ↦ db.users.find? (·.id = rd.donorId)
  match donor with
  | none => .replied (.refused 404 "Schedule not found")
  | some donor =>
    if !isAdmin && userPublicKey ≠ some donor.publicKey then
      .replied (.refused 403 ("You do not have permission to cancel this schedule. "
        ++ "Only the schedule owner or an admin can cancel it."))
    else if id ∈ db.executing node then .defer id
    else .cancelOwned id

/-- Resume a worker or a request, up to its next `await`. -/
def resumeActivity (cl : Cluster) (b : Board) : Activity → CancelEnv → Board × Activity
  | .worker .idle, ⟨env, request⟩ =>
    match request with
    | some request => (b, request.start)
    | none => b.resumeWorker cl .idle env
  | .worker c, ⟨env, _⟩ => b.resumeWorker cl c env
  | .findSchedule id, ⟨env, _⟩ =>
    match env.dbError with
    | some e => (b, .replied (.failed e))
    | none => (b, checkSchedule id (b.db.schedules.find? (·.id = id)))
  | .cancelSchedule id, ⟨env, _⟩ =>
    match env.dbError with
    | some e => (b, .replied (.failed e))
    | none => (b.cancel id,
        .replied (.done none "Recurring donation schedule cancelled successfully"))
  | .findSubscription id, ⟨env, _⟩ =>
    match env.dbError, b.subscriptions.find? (·.id = id) with
    | some e, _ => (b, .replied (.failed e))
    | none, none => (b, .replied (.failed (.notFound .notFound "Subscription not found")))
    | none, some sub => (b, .cancelSubscriptionRow id sub.recurringDonationId)
  | .cancelSubscriptionRow id recurringDonationId, ⟨env, _⟩ =>
    match env.dbError with
    | some e => (b, .replied (.failed e))
    | none =>
      (b.cancelSubscriptionRow id env.now,
        match recurringDonationId with
        -- the id `0` is falsy
        | some (n + 1) => .cancelLinked id (n + 1)
        | _ => .readSubscription id)
  | .cancelLinked id recurringDonationId, ⟨env, _⟩ =>
    match env.dbError with
    | some e => (b, .replied (.failed e))
    | none => (b.cancel recurringDonationId, .readSubscription id)
  | .readSubscription id, ⟨env, _⟩ =>
    match env.dbError, b.getSubscriptionById id with
    | some e, _ => (b, .replied (.failed e))
    | none, .error e => (b, .replied (.failed e))
    | none, .ok row => (b, .replied (.subscription row))
  | .findOwned id node isAdmin userPublicKey, ⟨env, _⟩ =>
    match env.dbError with
    | some e => (b, .replied (.failed e))
    | none => (b, checkOwned b.db id node isAdmin userPublicKey)
  | .defer id, ⟨env, _⟩ =>
    match env.dbError with
    | some e => (b, .replied (.failed e))
    | none => (b.setStatus id .pendingCancellation,
        .replied (.done (some "deferred") ("Schedule is currently executing. "
          ++ "Cancellation will take effect after the current execution completes.")))
  | .cancelOwned id, ⟨env, _⟩ =>
    match env.dbError with
    | some e => (b, .replied (.failed e))
    | none => (b.setStatus id .cancelled,
        .replied (.done (some "immediate") "Recurring donation schedule cancelled successfully"))
  | .replied reply, _ => (b, .replied reply)

def cancelStep (cl : Cluster) {ι : Type*} [DecidableEq ι] :
    Calls ι Board Activity → ι × CancelEnv → Calls ι Board Activity :=
  Calls.step (resumeActivity cl)

/-! ## What must hold -/

/-- A schedule that a cancellation has reached is cancelled, and no execution launched after the
cancellation has submitted a payment. -/
structure CancellationFinal {ι : Type*} (s : Calls ι Board Activity) : Prop where
  status : ∀ row ∈ s.shared.db.schedules, row.id ∈ s.shared.cancelled → row.status = .cancelled
  unpaid : ∀ i j attempt, s.call i = .worker (.sendPayment j attempt) → j.name ∉ s.shared.late

/-- The worker may still set the status of the schedule: it is about to launch it, or runs an
execution of it that has an attempt left. -/
def Call.mayAdvance (id : ℕ) : Call → Bool
  | .launch _ due => due.any (·.schedule.id = id)
  | .lookup j _ | .sendPayment j _ | .insert j _ _ | .advance j _ _ _ _ | .sleep j _ =>
    j.due.schedule.id = id
  | .logFailure j attempt _ => decide (attempt < maxRetries) && j.due.schedule.id = id
  | _ => false

/-- The worker or request may still set the status of the schedule to something else than
`cancelled`. -/
def Activity.mayOverwrite (id : ℕ) : Activity → Bool
  | .worker c => c.mayAdvance id
  | .defer id' => id' = id
  | _ => false

/-- Nothing under way may overwrite the status of the schedule. -/
def Undisturbed {ι : Type*} (s : Calls ι Board Activity) (id : ℕ) : Prop :=
  (∀ i, (s.call i).mayOverwrite id = false) ∧ ∀ j ∈ s.shared.db.queue, j.due.schedule.id ≠ id

/-- The condition on a call: the `UPDATE` of a cancellation reaches a schedule that nothing under
way may overwrite, and no cancellation is deferred of a schedule that is cancelled already. -/
def Activity.Timely {ι : Type*} (s : Calls ι Board Activity) (env : Env) : Activity → Prop
  | .cancelSchedule id | .cancelLinked _ id => env.dbError = none → Undisturbed s id
  | .findOwned id node _ _ => id ∈ s.shared.cancelled → id ∉ s.shared.db.executing node
  | _ => True

/-- The condition on a step: the resumed call is `Timely`. -/
def Timely {ι : Type*} (s : Calls ι Board Activity) (a : ι × CancelEnv) : Prop :=
  (s.call a.1).Timely s a.2.env

section Decidable

variable {ι : Type*} [Fintype ι] (s : Calls ι Board Activity)

instance decidableUndisturbed (id : ℕ) : Decidable (Undisturbed s id) :=
  inferInstanceAs (Decidable ((∀ i, (s.call i).mayOverwrite id = false) ∧
    ∀ j ∈ s.shared.db.queue, j.due.schedule.id ≠ id))

instance decidableActivityTimely (env : Env) : DecidablePred (Activity.Timely s env)
  | .cancelSchedule id | .cancelLinked _ id =>
    inferInstanceAs (Decidable (env.dbError = none → Undisturbed s id))
  | .findOwned id node _ _ =>
    inferInstanceAs (Decidable (id ∈ s.shared.cancelled → id ∉ s.shared.db.executing node))
  | .worker _ | .findSchedule _ | .findSubscription _ | .cancelSubscriptionRow ..
  | .readSubscription _ | .defer _ | .cancelOwned _ | .replied _ => inferInstanceAs (Decidable True)

instance decidableTimely (a : ι × CancelEnv) : Decidable (Timely s a) :=
  decidableActivityTimely s a.2.env (s.call a.1)

end Decidable

/-! ## What a step of the scheduler does to a schedule -/

section Worker

variable {cl : Cluster} {sh : Shared} {c : Call} {env : Env}

theorem mem_updateSchedule {id : ℕ} {f : Schedule → Schedule} {row' : Schedule}
    (h : row' ∈ (sh.updateSchedule id f).schedules) :
    ∃ row ∈ sh.schedules, row' = row ∨ row.id = id ∧ row' = f row := by
  obtain ⟨row, hrow, rfl⟩ := List.mem_map.mp h
  refine ⟨row, hrow, ?_⟩
  split_ifs with hid
  · exact .inr ⟨hid, rfl⟩
  · exact .inl rfl

theorem mem_schedules_resume {row' : Schedule} (h : row' ∈ (resume cl sh c env).1.schedules) :
    ∃ row ∈ sh.schedules, row'.id = row.id ∧
      (row'.status = row.status ∨ row'.status = .cancelled ∨ c.mayAdvance row.id = true) := by
  have hsame : row' ∈ sh.schedules → ∃ row ∈ sh.schedules, row'.id = row.id ∧
      (row'.status = row.status ∨ row'.status = .cancelled ∨ c.mayAdvance row.id = true) :=
    fun hrow ↦ ⟨row', hrow, rfl, .inl rfl⟩
  cases c with
  | idle =>
    rw [resume] at h
    split at h
    · exact hsame h
    · split at h <;> exact hsame h
  | launch node due =>
    obtain ⟨-, -, hsched⟩ := launch_keeps sh node due
    rw [resume, hsched] at h
    exact hsame h
  | sendPayment j attempt =>
    rw [resume] at h
    split at h
    · exact hsame h
    · cases hlost : env.lost <;> simp only [hlost] at h <;> exact hsame h
  | advance j attempt hash executedAt nextDate =>
    rw [resume] at h
    split at h
    · exact hsame h
    · obtain ⟨row, hrow, rfl | ⟨hid, rfl⟩⟩ := mem_updateSchedule h
      · exact hsame hrow
      · exact ⟨row, hrow, rfl, .inr (.inr (decide_eq_true hid.symm))⟩
  | recordFailure j e =>
    rw [resume] at h
    split at h
    · exact hsame h
    · obtain ⟨row, hrow, rfl | ⟨-, rfl⟩⟩ := mem_updateSchedule h
      · exact hsame hrow
      · exact ⟨row, hrow, rfl, .inl rfl⟩
  | applyCancellation j =>
    rw [resume] at h
    split at h
    · exact hsame h
    · obtain ⟨row, hrow, rfl | ⟨-, rfl⟩⟩ := mem_updateSchedule h
      · exact hsame hrow
      · exact ⟨row, hrow, rfl, .inr (.inl rfl)⟩
  | readHolder | logFailure | logFinalFailure =>
    rw [resume] at h
    split_ifs at h <;> exact hsame h
  | readStatus j =>
    rw [resume] at h
    split at h
    · split_ifs at h <;> exact hsame h
    · exact hsame h
  | acquireLease | queryDue | lookup | insert =>
    rw [resume] at h
    split at h <;> exact hsame h
  | logSuccess | sleep | notify => exact hsame h

theorem mayAdvance_beginTick (id node : ℕ) (env : Env) :
    (beginTick node env).mayAdvance id = false := by
  rw [beginTick]
  split_ifs <;> rfl

theorem mayAdvance_beginAdvance {id : ℕ} {j : Job} {attempt : ℕ} {hash : Option String} {now : ℤ}
    (h : (beginAdvance j attempt hash now).mayAdvance id = true) : j.due.schedule.id = id := by
  rw [beginAdvance] at h
  split at h
  · exact of_decide_eq_true h
  · exact of_decide_eq_true (Bool.and_eq_true_iff.mp h).2

theorem active_of_mem_dueSchedules {now : ℤ} {d : Due} (h : d ∈ sh.dueSchedules now) :
    d.schedule ∈ sh.schedules ∧ d.schedule.status = .active := by
  obtain ⟨row, hrow, hd⟩ := List.mem_filterMap.mp h
  split_ifs at hd with hdue
  obtain ⟨donor, -, hd⟩ := Option.bind_eq_some_iff.mp hd
  obtain ⟨recipient, -, rfl⟩ := Option.map_eq_some_iff.mp hd
  exact ⟨hrow, hdue.1⟩

theorem mayAdvance_resume {id : ℕ} (h : (resume cl sh c env).2.mayAdvance id = true) :
    c.mayAdvance id = true ∨ (∃ j ∈ sh.queue, j.due.schedule.id = id) ∨
      ∃ row ∈ sh.schedules, row.id = id ∧ row.status = .active := by
  cases c with
  | idle =>
    rw [resume] at h
    split at h
    · cases h
    · split at h
      · next j hj => exact .inr (.inl ⟨j, List.mem_of_getElem? hj, of_decide_eq_true h⟩)
      · cases h
  | acquireLease node =>
    rw [resume] at h
    split at h
    · rw [mayAdvance_beginTick] at h
      cases h
    · cases h
  | readHolder node =>
    rw [resume] at h
    split_ifs at h
    · rw [mayAdvance_beginTick] at h
      cases h
    · cases h
  | queryDue node now =>
    rw [resume] at h
    split at h
    · cases h
    · obtain ⟨d, hd, hid⟩ := List.any_eq_true.mp h
      obtain ⟨hrow, hactive⟩ := active_of_mem_dueSchedules hd
      exact .inr (.inr ⟨d.schedule, hrow, of_decide_eq_true hid, hactive⟩)
  | lookup j attempt =>
    rw [resume] at h
    refine .inl (decide_eq_true ?_)
    split at h
    · exact of_decide_eq_true (Bool.and_eq_true_iff.mp h).2
    · exact mayAdvance_beginAdvance h
    · exact of_decide_eq_true h
  | sendPayment j attempt =>
    rw [resume] at h
    refine .inl (decide_eq_true ?_)
    split at h
    · exact of_decide_eq_true h
    · exact of_decide_eq_true (Bool.and_eq_true_iff.mp h).2
  | insert j attempt hash =>
    rw [resume] at h
    refine .inl (decide_eq_true ?_)
    split at h
    · exact of_decide_eq_true (Bool.and_eq_true_iff.mp h).2
    · exact mayAdvance_beginAdvance h
  | advance j attempt hash executedAt nextDate =>
    rw [resume] at h
    refine .inl (decide_eq_true ?_)
    split at h
    · exact of_decide_eq_true (Bool.and_eq_true_iff.mp h).2
    · cases h
  | logFailure j attempt e =>
    rw [resume] at h
    split_ifs at h with hattempt
    · exact .inl (Bool.and_eq_true_iff.mpr ⟨decide_eq_true hattempt, h⟩)
    · cases h
  | sleep j attempt => exact .inl h
  | recordFailure =>
    rw [resume] at h
    split at h <;> cases h
  | logFinalFailure j =>
    rw [resume] at h
    split_ifs at h <;> cases h
  | readStatus j =>
    rw [resume] at h
    split at h
    · split_ifs at h <;> cases h
    · cases h
  | applyCancellation j =>
    rw [resume] at h
    split at h <;> cases h
  | launch | logSuccess | notify => cases h

theorem mayAdvance_of_mem_launching {d : Due} (h : d ∈ c.launching) :
    c.mayAdvance d.schedule.id = true := by
  cases c with
  | launch node due => exact List.any_eq_true.mpr ⟨d, h, decide_eq_true rfl⟩
  | idle | acquireLease | readHolder | queryDue | lookup | sendPayment | insert | advance
  | logSuccess | logFailure | sleep | recordFailure | logFinalFailure | notify | readStatus
  | applyCancellation => cases h

end Worker

/-! ## Runs -/

section Runs

variable {ι : Type*}

structure Settled (s : Calls ι Board Activity) : Prop where
  status : ∀ row ∈ s.shared.db.schedules, row.id ∈ s.shared.cancelled → row.status = .cancelled
  undisturbed : ∀ id ∈ s.shared.cancelled, Undisturbed s id
  late : s.shared.late = []

theorem Settled.cancellationFinal {s : Calls ι Board Activity} (h : Settled s) :
    CancellationFinal s := by
  refine ⟨h.status, fun i j attempt _ ↦ ?_⟩
  rw [h.late]
  exact List.not_mem_nil

theorem lateStarts_eq_nil {b : Board} {c : Call}
    (h : ∀ id ∈ b.cancelled, c.mayAdvance id = false) : b.lateStarts c = [] := by
  cases c with
  | launch node due =>
    rw [Board.lateStarts, List.map_eq_nil_iff, List.filter_eq_nil_iff]
    intro d hd hcancelled
    have hmay : (Call.launch node due).mayAdvance d.schedule.id = true :=
      mayAdvance_of_mem_launching (List.mem_of_mem_filter hd)
    rw [h _ (of_decide_eq_true hcancelled)] at hmay
    cases hmay
  | idle | acquireLease | readHolder | queryDue | lookup | sendPayment | insert | advance
  | logSuccess | logFailure | sleep | recordFailure | logFinalFailure | notify | readStatus
  | applyCancellation => rfl

variable [DecidableEq ι] {cl : Cluster}

/-- How a step keeps the invariant: the rows of cancelled schedules are cancelled afterwards, the
resumed call may not overwrite them, and the queue holds none of them. -/
theorem Settled.update {s : Calls ι Board Activity} (h : Settled s) (i : ι) {b : Board}
    {x : Activity}
    (hstatus : ∀ row ∈ b.db.schedules, row.id ∈ b.cancelled → row.status = .cancelled)
    (hothers : ∀ id ∈ b.cancelled, id ∉ s.shared.cancelled → Undisturbed s id)
    (hself : ∀ id ∈ b.cancelled, x.mayOverwrite id = false)
    (hqueue : ∀ id ∈ b.cancelled, ∀ j ∈ b.db.queue, j.due.schedule.id ≠ id)
    (hlate : b.late = []) :
    Settled (⟨b, Function.update s.call i x⟩ : Calls ι Board Activity) := by
  refine ⟨hstatus, fun id hid ↦ ⟨fun k ↦ ?_, hqueue id hid⟩, hlate⟩
  rcases eq_or_ne k i with rfl | hk
  · simpa only [Function.update_self] using hself id hid
  · simp only [Function.update_of_ne hk]
    by_cases hold : id ∈ s.shared.cancelled
    · exact (h.undisturbed id hold).1 k
    · exact (hothers id hid hold).1 k

theorem Settled.stay {s : Calls ι Board Activity} (h : Settled s) (i : ι) {x : Activity}
    (hself : ∀ id ∈ s.shared.cancelled, x.mayOverwrite id = false) :
    Settled (⟨s.shared, Function.update s.call i x⟩ : Calls ι Board Activity) :=
  h.update i h.status (fun _ hid hnot ↦ absurd hid hnot) hself
    (fun id hid ↦ (h.undisturbed id hid).2) h.late

/-- A step of the scheduler: a cancelled schedule is not due, so nothing comes to advance it. -/
theorem Settled.worker {s : Calls ι Board Activity} (h : Settled s) {i : ι} {c : Call}
    (hcall : s.call i = .worker c) (env : Env) :
    Settled (⟨(s.shared.resumeWorker cl c env).1,
      Function.update s.call i (s.shared.resumeWorker cl c env).2⟩ : Calls ι Board Activity) := by
  have hmay : ∀ id ∈ s.shared.cancelled, c.mayAdvance id = false := by
    intro id hid
    have hi := (h.undisturbed id hid).1 i
    rwa [hcall] at hi
  refine h.update i (fun row' hrow' hid ↦ ?_) (fun id hid hnot ↦ absurd hid hnot) (fun id hid ↦ ?_)
    (fun id hid j hj ↦ ?_) ?_
  · obtain ⟨row, hrow, hsame, hstatus⟩ := mem_schedules_resume hrow'
    rw [hsame] at hid
    rcases hstatus with hstatus | hstatus | hadvance
    · exact hstatus.trans (h.status row hrow hid)
    · exact hstatus
    · rw [hmay row.id hid] at hadvance
      cases hadvance
  · refine eq_false_of_ne_true fun hnew ↦ ?_
    rcases mayAdvance_resume hnew with hold | ⟨j, hj, heq⟩ | ⟨row, hrow, rfl, hactive⟩
    · rw [hmay id hid] at hold
      cases hold
    · exact (h.undisturbed id hid).2 j hj heq
    · rw [h.status row hrow hid] at hactive
      cases hactive
  · rcases mem_queue_resume hj with hj | hlaunch
    · exact (h.undisturbed id hid).2 j hj
    · rintro rfl
      have := mayAdvance_of_mem_launching hlaunch
      rw [hmay _ hid] at this
      cases this
  · rw [Board.resumeWorker, lateStarts_eq_nil hmay, h.late]
    rfl

theorem Settled.cancel {s : Calls ι Board Activity} (h : Settled s) (i : ι) {id : ℕ}
    (hquiet : Undisturbed s id) {x : Activity} (hself : ∀ id, x.mayOverwrite id = false) :
    Settled (⟨s.shared.cancel id, Function.update s.call i x⟩ : Calls ι Board Activity) := by
  have hall : ∀ id' ∈ (s.shared.cancel id).cancelled, Undisturbed s id' := by
    intro id' hid'
    rcases List.mem_cons.mp hid' with rfl | hold
    · exact hquiet
    · exact h.undisturbed id' hold
  refine h.update i (fun row' hrow' hid ↦ ?_) (fun id' hid' _ ↦ hall id' hid')
    (fun id' _ ↦ hself id') (fun id' hid' ↦ (hall id' hid').2) h.late
  obtain ⟨row, hrow, rfl⟩ := List.mem_map.mp hrow'
  split_ifs at hid ⊢ with heq
  · rfl
  · rcases List.mem_cons.mp hid with hnew | hold
    · exact absurd hnew heq
    · exact h.status row hrow hold

theorem Settled.setStatus {s : Calls ι Board Activity} (h : Settled s) (i : ι) {id : ℕ}
    {status : ScheduleStatus} (hstatus : id ∈ s.shared.cancelled → status = .cancelled)
    {x : Activity} (hself : ∀ id, x.mayOverwrite id = false) :
    Settled (⟨s.shared.setStatus id status, Function.update s.call i x⟩ :
      Calls ι Board Activity) := by
  refine h.update i (fun row' hrow' hid ↦ ?_) (fun id hid hnot ↦ absurd hid hnot)
    (fun id' _ ↦ hself id') (fun id' hid ↦ (h.undisturbed id' hid).2) h.late
  obtain ⟨row, hrow, rfl⟩ := List.mem_map.mp hrow'
  split_ifs at hid ⊢ with heq
  · exact hstatus (heq ▸ hid)
  · exact h.status row hrow hid

theorem mayOverwrite_start (request : CancelRequest) (id : ℕ) :
    request.start.mayOverwrite id = false := by
  cases request <;> rfl

theorem mayOverwrite_checkSchedule (id : ℕ) (row : Option Schedule) (id' : ℕ) :
    (checkSchedule id row).mayOverwrite id' = false := by
  cases row with
  | none => rfl
  | some row =>
    rw [checkSchedule]
    split_ifs <;> rfl

/-- A deferral is chosen for a schedule that the instance is executing. -/
theorem executing_of_mayOverwrite {db : Shared} {id node : ℕ} {isAdmin : Bool}
    {userPublicKey : Option String} {id' : ℕ}
    (h : (checkOwned db id node isAdmin userPublicKey).mayOverwrite id' = true) :
    id' = id ∧ id ∈ db.executing node := by
  simp only [checkOwned] at h
  split at h
  · cases h
  · split_ifs at h with hforbidden hexecuting
    · cases h
    · exact ⟨(of_decide_eq_true h).symm, hexecuting⟩
    · cases h

theorem settled_step (s : Calls ι Board Activity) (a : ι × CancelEnv) (h : Settled s)
    (htimely : Timely s a) : Settled (cancelStep cl s a) := by
  obtain ⟨i, env, request⟩ := a
  simp only [Timely] at htimely
  rw [cancelStep, Calls.step]
  have hplain : ∀ {x : Activity}, (∀ id, x.mayOverwrite id = false) →
      Settled (⟨s.shared, Function.update s.call i x⟩ : Calls ι Board Activity) :=
    fun hself ↦ h.stay i fun id _ ↦ hself id
  cases hcall : s.call i with
  | worker c =>
    cases c with
    | idle =>
      cases request with
      | none => exact h.worker hcall env
      | some request => exact hplain (mayOverwrite_start request)
    | acquireLease | readHolder | queryDue | launch | lookup | sendPayment | insert | advance
    | logSuccess | logFailure | sleep | recordFailure | logFinalFailure | notify | readStatus
    | applyCancellation => exact h.worker hcall env
  | findSchedule id =>
    simp only [resumeActivity]
    split
    · exact hplain fun _ ↦ rfl
    · exact hplain (mayOverwrite_checkSchedule id _)
  | cancelSchedule id =>
    simp only [resumeActivity]
    rw [hcall] at htimely
    split
    · exact hplain fun _ ↦ rfl
    · next hok => exact h.cancel i (htimely hok) fun _ ↦ rfl
  | findSubscription id =>
    simp only [resumeActivity]
    split <;> exact hplain fun _ ↦ rfl
  | cancelSubscriptionRow id recurringDonationId =>
    simp only [resumeActivity]
    split
    · exact hplain fun _ ↦ rfl
    · have hrow : Settled (⟨s.shared.cancelSubscriptionRow id env.now, s.call⟩ :
          Calls ι Board Activity) := ⟨h.status, h.undisturbed, h.late⟩
      refine hrow.stay i fun id' _ ↦ ?_
      split <;> rfl
  | cancelLinked id recurringDonationId =>
    simp only [resumeActivity]
    rw [hcall] at htimely
    split
    · exact hplain fun _ ↦ rfl
    · next hok => exact h.cancel i (htimely hok) fun _ ↦ rfl
  | readSubscription id =>
    simp only [resumeActivity]
    split <;> exact hplain fun _ ↦ rfl
  | findOwned id node isAdmin userPublicKey =>
    simp only [resumeActivity]
    rw [hcall] at htimely
    split
    · exact hplain fun _ ↦ rfl
    · refine h.stay i fun id' hid' ↦ eq_false_of_ne_true fun hdefer ↦ ?_
      obtain ⟨rfl, hexecuting⟩ := executing_of_mayOverwrite hdefer
      exact htimely hid' hexecuting
  | defer id =>
    simp only [resumeActivity]
    split
    · exact hplain fun _ ↦ rfl
    · refine h.setStatus i (fun hid ↦ ?_) fun _ ↦ rfl
      -- a deferral under way is one of the calls that the cancellation has waited for
      have hdefer := (h.undisturbed id hid).1 i
      rw [hcall, Activity.mayOverwrite] at hdefer
      exact absurd rfl (of_decide_eq_false hdefer)
  | cancelOwned id =>
    simp only [resumeActivity]
    split
    · exact hplain fun _ ↦ rfl
    · exact h.setStatus i (fun _ ↦ rfl) fun _ ↦ rfl
  | replied reply => exact hplain fun _ ↦ rfl

/-- Nothing has been cancelled, and every worker is free. -/
def uncancelled (db : Shared) (subscriptions : List Subscription) (tiers : List Tier) :
    Calls ι Board Activity :=
  ⟨⟨db, subscriptions, tiers, [], []⟩, fun _ ↦ .worker .idle⟩

omit [DecidableEq ι] in
theorem settled_uncancelled (db : Shared) (subscriptions : List Subscription) (tiers : List Tier) :
    Settled (uncancelled db subscriptions tiers : Calls ι Board Activity) :=
  ⟨fun _ _ hid ↦ absurd hid List.not_mem_nil, fun _ hid ↦ absurd hid List.not_mem_nil, rfl⟩

/-- **Cancellation is final.** In every run of any workers and requests, with any failures, in which
the `UPDATE` of a cancellation reaches a schedule only while no launch, attempt or deferral that may
overwrite its status is under way, and no cancellation is deferred of a schedule that is cancelled,
a cancelled schedule stays cancelled and no execution launched after that submits a payment. -/
theorem cancellation_final (cl : Cluster) (db : Shared) (subscriptions : List Subscription)
    (tiers : List Tier) (as : List (ι × CancelEnv))
    (htimely : Along (cancelStep cl) Timely (uncancelled db subscriptions tiers) as) :
    Always (cancelStep cl) CancellationFinal (uncancelled db subscriptions tiers) as :=
  (htimely.always settled_step (settled_uncancelled db subscriptions tiers)).mono
    fun _ h ↦ h.cancellationFinal

end Runs

/-! ## Fixed runs -/

section CancellationExamples

def goOn (start : ℕ ⊕ ℕ) : CancelEnv := ⟨okEnv start, none⟩

def cancelOne : CancelEnv := ⟨okEnv (.inl 0), some (.schedule 1)⟩

/-- The tables of `oneSchedule`, no subscription, and three workers. -/
def oneCancellable : Calls (Fin 3) Board Activity := uncancelled oneSchedule [] []

def launchOne : List (Fin 3 × CancelEnv) := List.replicate 5 (0, goOn (.inl 0))

/-- The execution pays and records, the schedule is cancelled, and the execution advances it. -/
def cancelDuringExecution : List (Fin 3 × CancelEnv) :=
  launchOne ++ List.replicate 4 (1, goOn (.inr 0)) ++ List.replicate 3 (2, cancelOne)
    ++ [(1, goOn (.inr 0))]

/-- An execution in flight makes a cancelled schedule active again. -/
theorem cancelled_schedule_made_active :
    ¬Always (cancelStep plainCluster) CancellationFinal oneCancellable cancelDuringExecution := by
  intro h
  have hrows : (run (cancelStep plainCluster) oneCancellable
      cancelDuringExecution).shared.db.schedules.map (fun row ↦ (row.id, row.status))
        = [(1, .active)] := by
    decide
  have hcancelled : (run (cancelStep plainCluster) oneCancellable
      cancelDuringExecution).shared.cancelled = [1] := by
    decide
  have hmem : (1, ScheduleStatus.active) ∈ (run (cancelStep plainCluster) oneCancellable
      cancelDuringExecution).shared.db.schedules.map fun row ↦ (row.id, row.status) := by
    rw [hrows]
    exact List.mem_singleton_self _
  obtain ⟨row, hrow, heq⟩ := List.mem_map.mp hmem
  obtain ⟨hid, hactive⟩ := Prod.mk.inj heq
  have hstatus := h.last.status row hrow (by rw [hcancelled, hid]; exact List.mem_singleton_self 1)
  rw [hactive] at hstatus
  cases hstatus

/-- The schedule is executed, then cancelled, and a further tick leaves it alone. -/
theorem cancellation_final_after_execution :
    Always (cancelStep plainCluster) CancellationFinal oneCancellable
      (launchOne ++ List.replicate 7 (1, goOn (.inr 0)) ++ List.replicate 3 (2, cancelOne)
        ++ launchOne) :=
  cancellation_final plainCluster oneSchedule [] [] _ (by decide)

end CancellationExamples

end StellarDonations.Recurring
