import StellarDonations.Concurrency.Interleaving
import StellarDonations.Concurrency.TimedLock
import StellarDonations.Errors

/-!
# The account lock of the sequence manager

`_acquireLock` and `_releaseLock` of `SequenceManager`. The lock of an account is a row of
`sequence_locks` that expires. `_acquireLock` inserts the row; when there is one already it reads
when that one expires, and takes it over if it has. `_releaseLock` deletes the row of the account.

Nothing ties the row that is taken over to the row that was read, nor the row that is deleted to the
one that was inserted. The lock is exclusive in every run whose takeovers find the row that was read
unchanged, and whose releases come before the expiry of what they release
(`account_lock_exclusive`): the row that was read had expired, or the call would have been refused.
-/

namespace StellarDonations.AccountLock

open Concurrency

/-- A row of `sequence_locks`, where `account_address` is unique. -/
structure LockRow where
  lockedBy : String
  lockedAt : ℕ
  expiresAt : ℕ
  deriving DecidableEq

abbrev Locks := String → Option LockRow

/-- The arguments of a call, and the instance that makes it. -/
structure Args where
  instanceId : String
  accountAddress : String
  deriving DecidableEq

structure Shared where
  locks : Locks
  now : ℕ

inductive Call where
  /-- `_acquireLock` has not been called. -/
  | waiting (a : Args)
  | insert (a : Args) (now : ℕ)
  | select (a : Args) (now : ℕ)
  | takeOver (a : Args) (now : ℕ) (existingLock : Option LockRow)
  /-- `_acquireLock` has returned `true`. -/
  | holding (a : Args) (expiresAt : ℕ)
  /-- `_releaseLock` has been called. -/
  | delete (a : Args) (expiresAt : ℕ)
  /-- `_acquireLock` has returned `false`. -/
  | refused
  | released
  | threw (e : AppError)
  deriving DecidableEq

/-- The time that passes before a step, and the error of its statement, should it fail. -/
structure Env where
  elapsed : ℕ
  dbError : Option AppError
  deriving DecidableEq

/-! ## The steps -/

def lockRow (lockTimeoutMs : ℕ) (a : Args) (now : ℕ) : LockRow :=
  ⟨a.instanceId, now, now + lockTimeoutMs⟩

/-- Execute the statement a call is suspended on. -/
def execute (lockTimeoutMs : ℕ) (sh : Shared) (c : Call) (dbError : Option AppError) :
    Shared × Call :=
  match c, dbError with
  | .waiting a, _ => (sh, .insert a sh.now)
  | .insert a now, none =>
    if (sh.locks a.accountAddress).isSome then (sh, .select a now)
    else
      ({ sh with
          locks := Function.update sh.locks a.accountAddress (some (lockRow lockTimeoutMs a now)) },
        .holding a (now + lockTimeoutMs))
  -- whatever the error of the `INSERT` is, it is taken for a lock that exists
  | .insert a now, some _ => (sh, .select a now)
  | .select a now, none =>
    if (sh.locks a.accountAddress).any fun row ↦ now < row.expiresAt then (sh, .refused)
    else (sh, .takeOver a now (sh.locks a.accountAddress))
  | .takeOver a now _, none =>
    ({ sh with
        locks := Function.update sh.locks a.accountAddress
          ((sh.locks a.accountAddress).map fun _ ↦ lockRow lockTimeoutMs a now) },
      .holding a (now + lockTimeoutMs))
  | .holding a e, _ => (sh, .delete a e)
  | .delete a _, none =>
    ({ sh with locks := Function.update sh.locks a.accountAddress none }, .released)
  | .refused, _ | .released, _ | .threw _, _ => (sh, c)
  | .select _ _, some e | .takeOver _ _ _, some e | .delete _ _, some e => (sh, .threw e)

def Shared.wait (sh : Shared) (elapsed : ℕ) : Shared := { sh with now := sh.now + elapsed }

def resume (lockTimeoutMs : ℕ) (sh : Shared) (c : Call) (env : Env) : Shared × Call :=
  execute lockTimeoutMs (sh.wait env.elapsed) c env.dbError

/-! ## What must hold -/

def Call.lock : Call → Option (String × ℕ)
  | .holding a e | .delete a e => some (a.accountAddress, e)
  | _ => none

/-- There is no row for the account, or it has expired. -/
def Shared.Free (sh : Shared) (account : String) : Prop :=
  ∀ row ∈ sh.locks account, row.expiresAt ≤ sh.now

instance (sh : Shared) (account : String) : Decidable (sh.Free account) :=
  inferInstanceAs (Decidable (∀ row ∈ sh.locks account, _))

section Runs

variable {ι : Type*}

/-- The call has an unexpired lock on the account: it has obtained it and not released it yet. -/
def Holds (s : Calls ι Shared Call) (i : ι) (account : String) : Prop :=
  ∃ e, (s.call i).lock = some (account, e) ∧ s.shared.now < e

def Exclusive (s : Calls ι Shared Call) : Prop :=
  ∀ i j account, Holds s i account → Holds s j account → i = j

/-- The condition on a step: a takeover has read a row, and finds it as it was; a lock is released
before it has expired, or while nobody has an unexpired one. -/
def Call.Guarded (sh : Shared) (dbError : Option AppError) : Call → Prop
  | .takeOver a _ existingLock =>
    dbError = none → existingLock.isSome ∧ sh.locks a.accountAddress = existingLock
  | .delete a e => dbError = none → sh.now < e ∨ sh.Free a.accountAddress
  | _ => True

instance (sh : Shared) (dbError : Option AppError) : ∀ c : Call, Decidable (c.Guarded sh dbError)
  | .takeOver _ _ _ => inferInstanceAs (Decidable (_ → _ ∧ _))
  | .delete _ _ => inferInstanceAs (Decidable (_ → _ ∨ _))
  | .waiting _ | .insert _ _ | .select _ _ | .holding _ _ | .refused | .released | .threw _ =>
    inferInstanceAs (Decidable True)

/-- The statement is executed at the end of the time that passes. -/
def Guarded (s : Calls ι Shared Call) (a : ι × Env) : Prop :=
  (s.call a.1).Guarded (s.shared.wait a.2.elapsed) a.2.dbError

instance (s : Calls ι Shared Call) (a : ι × Env) : Decidable (Guarded s a) :=
  inferInstanceAs (Decidable (Call.Guarded _ _ _))

/-! ## The lock as one that expires -/

def Shared.expiry (sh : Shared) (account : String) : Option ℕ :=
  (sh.locks account).map (·.expiresAt)

/-- The system, as a table of entries with holders. -/
def view (sh : Shared) (call : ι → Call) : TimedLock.State ι String where
  now := sh.now
  entry := sh.expiry
  holder i := (call i).lock

theorem free_view {sh : Shared} {call : ι → Call} {account : String} (h : sh.Free account) :
    (view sh call).Free account := by
  intro e he
  obtain ⟨row, hrow, rfl⟩ := Option.mem_map.mp he
  exact h row hrow

theorem expiry_update (sh : Shared) (account : String) (row : Option LockRow) :
    Shared.expiry { sh with locks := Function.update sh.locks account row } =
      Function.update sh.expiry account (row.map (·.expiresAt)) := by
  funext account'
  exact Function.apply_update (fun _ (r : Option LockRow) ↦ r.map (·.expiresAt)) sh.locks account
    row account'

variable [DecidableEq ι]

theorem view_update (sh : Shared) (call : ι → Call) (i : ι) (c : Call) :
    view sh (Function.update call i c) =
      ⟨sh.now, sh.expiry, Function.update (fun j ↦ (call j).lock) i c.lock⟩ := by
  refine congrArg (TimedLock.State.mk sh.now sh.expiry) (funext fun j ↦ ?_)
  exact Function.apply_update (fun _ (c : Call) ↦ c.lock) call i c j

theorem step_leave (sh : Shared) (call : ι → Call) (i : ι) {c : Call} (hc : c.lock = none) :
    TimedLock.Step i (view sh call) (view sh (Function.update call i c)) := by
  rw [view_update, hc]
  exact .leave

theorem step_keep (sh : Shared) (call : ι → Call) (i : ι) {c : Call} (hc : c.lock = (call i).lock) :
    TimedLock.Step i (view sh call) (view sh (Function.update call i c)) := by
  rw [view_update, hc, Function.update_eq_self]
  exact .stay

theorem step_grant {sh : Shared} (call : ι → Call) (i : ι) {a : Args}
    (hfree : sh.Free a.accountAddress) (row : LockRow) :
    TimedLock.Step i (view sh call)
      (view { sh with locks := Function.update sh.locks a.accountAddress (some row) }
        (Function.update call i (.holding a row.expiresAt))) := by
  rw [view_update, expiry_update]
  exact .grant a.accountAddress row.expiresAt (free_view hfree)

/-- What a call knows of the time: it has read it before, and the row it is about to take over had
expired by then. -/
def Call.Stale (now : ℕ) : Call → Prop
  | .insert _ t | .select _ t => t ≤ now
  | .takeOver _ t existingLock => t ≤ now ∧ ∀ row ∈ existingLock, row.expiresAt ≤ t
  | _ => True

omit [DecidableEq ι] in
theorem now_execute (lockTimeoutMs : ℕ) (sh : Shared) (c : Call) (dbError : Option AppError) :
    (execute lockTimeoutMs sh c dbError).1.now = sh.now := by
  cases c with
  | insert a now =>
    cases dbError with
    | some e => rfl
    | none =>
      rw [execute]
      split_ifs <;> rfl
  | select a now =>
    cases dbError with
    | some e => rfl
    | none =>
      rw [execute]
      split_ifs <;> rfl
  | takeOver | delete => cases dbError <;> rfl
  | waiting | holding | refused | released | threw => rfl

omit [DecidableEq ι] in
theorem Call.Stale.wait {now now' : ℕ} (hle : now ≤ now') {c : Call} (h : c.Stale now) :
    c.Stale now' := by
  cases c with
  | insert | select => exact Nat.le_trans h hle
  | takeOver => exact ⟨Nat.le_trans h.1 hle, h.2⟩
  | waiting | holding | delete | refused | released | threw => trivial

omit [DecidableEq ι] in
/-- **What the refusal is for**: a row that is taken over had expired when it was read. -/
theorem stale_execute (lockTimeoutMs : ℕ) {sh : Shared} {c : Call} (dbError : Option AppError)
    (h : c.Stale sh.now) : (execute lockTimeoutMs sh c dbError).2.Stale sh.now := by
  cases c with
  | waiting a => exact Nat.le_refl _
  | insert a now =>
    cases dbError with
    | some e => exact h
    | none =>
      rw [execute]
      split_ifs
      · exact h
      · trivial
  | select a now =>
    cases dbError with
    | some e => trivial
    | none =>
      rw [execute]
      split_ifs with hlive
      · trivial
      · refine ⟨h, fun row hrow ↦ Nat.not_lt.mp fun hlt ↦ hlive ?_⟩
        rw [Option.mem_def.mp hrow, Option.any_some]
        exact decide_eq_true hlt
  | takeOver | delete => cases dbError <;> trivial
  | holding | refused | released | threw => trivial

/-- **One statement** is a step of the library's lock. -/
theorem step_execute (lockTimeoutMs : ℕ) {sh : Shared} {call : ι → Call} {i : ι}
    {dbError : Option AppError} (hguarded : (call i).Guarded sh dbError)
    (hstale : (call i).Stale sh.now) :
    TimedLock.Step i (view sh call)
      (view (execute lockTimeoutMs sh (call i) dbError).1
        (Function.update call i (execute lockTimeoutMs sh (call i) dbError).2)) := by
  cases hc : call i with
  | waiting a => exact step_leave sh call i rfl
  | insert a now =>
    cases dbError with
    | some e => exact step_leave sh call i rfl
    | none =>
      rw [execute]
      split_ifs with hrow
      · exact step_leave sh call i rfl
      · refine step_grant call i (fun row hsome ↦ absurd ?_ hrow) _
        rw [Option.mem_def.mp hsome]
        rfl
  | select a now =>
    cases dbError with
    | some e => exact step_leave sh call i rfl
    | none =>
      rw [execute]
      split_ifs
      · exact step_leave sh call i rfl
      · exact step_leave sh call i rfl
  | takeOver a now existingLock =>
    cases dbError with
    | some e => exact step_leave sh call i rfl
    | none =>
      rw [hc] at hguarded hstale
      obtain ⟨hsome, rfl⟩ := hguarded rfl
      obtain ⟨row, hrow⟩ := Option.isSome_iff_exists.mp hsome
      rw [execute, hrow]
      exact step_grant call i (fun row hrow ↦ (hstale.2 row hrow).trans hstale.1) _
  | holding a e => exact step_keep sh call i (by rw [hc]; rfl)
  | delete a e =>
    cases dbError with
    | some e => exact step_leave sh call i rfl
    | none =>
      rw [hc] at hguarded
      rw [execute, view_update, expiry_update]
      refine .giveBack a.accountAddress e (congrArg Call.lock hc) ?_
      exact (hguarded rfl).imp_right free_view
  | refused | released | threw => exact step_leave sh call i rfl

/-! ## Runs -/

structure Sound (s : Calls ι Shared Call) : Prop where
  exclusive : TimedLock.Exclusive (view s.shared s.call)
  stale : ∀ i, (s.call i).Stale s.shared.now

theorem Sound.step {lockTimeoutMs : ℕ} {s : Calls ι Shared Call} {a : ι × Env} (h : Sound s)
    (hguarded : Guarded s a) : Sound (Calls.step (resume lockTimeoutMs) s a) := by
  have hle : s.shared.now ≤ (s.shared.wait a.2.elapsed).now := Nat.le_add_right _ _
  have hstale : ∀ i, (s.call i).Stale (s.shared.wait a.2.elapsed).now :=
    fun i ↦ (h.stale i).wait hle
  have hnow : (Calls.step (resume lockTimeoutMs) s a).shared.now
      = (s.shared.wait a.2.elapsed).now := by
    rw [Calls.step_shared, resume]
    exact now_execute ..
  constructor
  · have hwait : TimedLock.Exclusive (view (s.shared.wait a.2.elapsed) s.call) :=
      h.exclusive.tick hle
    exact hwait.step (step_execute lockTimeoutMs hguarded (hstale a.1))
  · intro i
    rw [hnow]
    rcases eq_or_ne i a.1 with rfl | hi
    · have hself : (Calls.step (resume lockTimeoutMs) s a).call a.1
          = (resume lockTimeoutMs s.shared (s.call a.1) a.2).2 := Calls.step_call_self ..
      rw [hself]
      exact stale_execute lockTimeoutMs a.2.dbError (hstale a.1)
    · have hother : (Calls.step (resume lockTimeoutMs) s a).call i = s.call i :=
        Calls.step_call_of_ne s a.2 hi
      rw [hother]
      exact hstale i

/-- **The account lock is exclusive** in every run of guarded steps, from any table. -/
theorem account_lock_exclusive (lockTimeoutMs : ℕ) (sh : Shared) (args : ι → Args)
    {as : List (ι × Env)}
    (hguarded : Along (Calls.step (resume lockTimeoutMs)) Guarded
      ⟨sh, fun i ↦ .waiting (args i)⟩ as) :
    Always (Calls.step (resume lockTimeoutMs)) Exclusive ⟨sh, fun i ↦ .waiting (args i)⟩ as := by
  refine (hguarded.always (P := Sound) (fun s a hs ha ↦ hs.step ha) ?_).mono
    fun s hs ↦ hs.exclusive.alone
  exact ⟨TimedLock.exclusive_initial fun i ↦ rfl, fun i ↦ trivial⟩

end Runs

section Examples

def threeInstances (i : Fin 3) : Args := ⟨"instance-" ++ toString i.val, "G"⟩

/-- A table with a lock on `G` that expires after ten milliseconds. -/
def oldLock : Shared := ⟨fun account ↦ if account = "G" then some ⟨"gone", 0, 10⟩ else none, 0⟩

def atOnce (i : Fin 3) : Fin 3 × Env := (i, ⟨0, none⟩)

def later (i : Fin 3) (elapsed : ℕ) : Fin 3 × Env := (i, ⟨elapsed, none⟩)

/-- Two calls find the lock expired before either takes it over. -/
def bothTakeOver : List (Fin 3 × Env) :=
  [later 0 10, atOnce 0, atOnce 0, atOnce 1, atOnce 1, atOnce 1, atOnce 0, atOnce 1]

/-- A call releases its lock when it has expired and been taken over, and a third call gets it. -/
def lateRelease : List (Fin 3 × Env) :=
  [later 0 10, atOnce 0, atOnce 0, atOnce 0, later 1 30000, atOnce 1, atOnce 1, atOnce 1,
    atOnce 0, atOnce 0, atOnce 2, atOnce 2]

theorem account_locked_twice :
    ¬Always (Calls.step (resume 30000)) Exclusive ⟨oldLock, fun i ↦ .waiting (threeInstances i)⟩
        bothTakeOver ∧
      ¬Always (Calls.step (resume 30000)) Exclusive ⟨oldLock, fun i ↦ .waiting (threeInstances i)⟩
        lateRelease := by
  constructor
  · intro h
    exact absurd (h.last 0 1 "G" ⟨30010, by decide, by decide⟩ ⟨30010, by decide, by decide⟩)
      (by decide)
  · intro h
    exact absurd (h.last 1 2 "G" ⟨60010, by decide, by decide⟩ ⟨60010, by decide, by decide⟩)
      (by decide)

/-- A takeover, while another call is refused, and a release in time. -/
theorem account_lock_exclusive_at :
    Always (Calls.step (resume 30000)) Exclusive ⟨oldLock, fun i ↦ .waiting (threeInstances i)⟩
      [later 0 10, atOnce 0, atOnce 0, atOnce 0, atOnce 1, atOnce 1, atOnce 1, atOnce 0,
        later 0 1000, atOnce 2, atOnce 2] :=
  account_lock_exclusive 30000 oldLock threeInstances (by decide)

end Examples

end StellarDonations.AccountLock
