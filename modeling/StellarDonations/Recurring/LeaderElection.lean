import Mathlib.Data.Int.Notation
import Mathlib.Tactic.SplitIfs
import StellarDonations.Errors

/-!
# Leader election

`LeaderElection`: a row of `scheduler_locks` names the instance that may run a background job and
until when. `acquireLease` is two statements: an upsert that takes the row over when it has expired
or is the caller's own, and a read that tells the caller whether it holds the row now. A statement
that fails counts as success, so that a job runs rather than not.
-/

namespace StellarDonations.LeaderElection

/-- The row of one job in `scheduler_locks`. Times are in milliseconds. -/
structure Lock where
  holderId : String
  acquiredAt : ℤ
  expiresAt : ℤ
  deriving DecidableEq

/-- The upsert of `acquireLease`. -/
def upsert (instanceId : String) (ttlMs now : ℤ) : Option Lock → Lock
  | none => ⟨instanceId, now, now + ttlMs⟩
  | some lock =>
    if lock.expiresAt < now ∨ lock.holderId = instanceId then ⟨instanceId, now, now + ttlMs⟩
    else lock

/-- The `ON CONFLICT` clause as it is written, column by column. The database evaluates the columns
on the right before it assigns any. -/
def upsertColumns (instanceId : String) (ttlMs now : ℤ) : Option Lock → Lock
  | none => ⟨instanceId, now, now + ttlMs⟩
  | some lock =>
    { holderId :=
        if lock.expiresAt < now ∨ lock.holderId = instanceId then instanceId else lock.holderId
      acquiredAt :=
        if lock.expiresAt < now ∨ lock.holderId = instanceId then now else lock.acquiredAt
      expiresAt :=
        if lock.expiresAt < now ∨ lock.holderId = instanceId then now + ttlMs
        else lock.expiresAt }

theorem upsertColumns_eq_upsert (instanceId : String) (ttlMs now : ℤ) (lock : Option Lock) :
    upsertColumns instanceId ttlMs now lock = upsert instanceId ttlMs now lock := by
  cases lock with
  | none => rfl
  | some lock =>
    rw [upsertColumns, upsert]
    split_ifs <;> rfl

/-- The row is taken over when it is free, expired or the caller's own, and else it stays. -/
theorem upsertColumns_cases (instanceId : String) (ttlMs now : ℤ) (lock : Option Lock) :
    (upsertColumns instanceId ttlMs now lock = ⟨instanceId, now, now + ttlMs⟩ ∧
      ∀ l, lock = some l → l.expiresAt < now ∨ l.holderId = instanceId) ∨
    ∃ l, lock = some l ∧ now ≤ l.expiresAt ∧ l.holderId ≠ instanceId ∧
      upsertColumns instanceId ttlMs now lock = l := by
  rw [upsertColumns_eq_upsert]
  cases lock with
  | none => exact .inl ⟨rfl, fun l hl ↦ by cases hl⟩
  | some lock =>
    by_cases hfree : lock.expiresAt < now ∨ lock.holderId = instanceId
    · refine .inl ⟨if_pos hfree, fun l hl ↦ ?_⟩
      obtain rfl := Option.some.inj hl
      exact hfree
    · obtain ⟨hlive, hother⟩ := not_or.mp hfree
      exact .inr ⟨lock, rfl, Int.not_lt.mp hlive, hother, if_neg hfree⟩

/-- What `acquireLease` returns after its read. -/
def isLeader (instanceId : String) (lock : Option Lock) (dbError : Option AppError) : Bool :=
  match dbError, lock with
  | some _, _ => true
  | none, some lock => lock.holderId = instanceId
  | none, none => false

end StellarDonations.LeaderElection
