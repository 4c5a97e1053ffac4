import Mathlib.Logic.Function.Basic
import StellarDonations.Concurrency.Interleaving
import StellarDonations.Recurring.LeaderElection

/-!
# Leases under interleavings

Any number of instances call `acquireLease` and `releaseLease` on one job. A call reads the clock
when it starts and executes its statements later, so a lease may be written with a time that has
passed. Since the clock does not go back, a lease that had expired at the time of the call has also
expired when the row is taken over, and no live lease of another instance is touched
(`leases_exclusive`).
-/

namespace StellarDonations.LeaderElection

open Concurrency

/-! ## Calls -/

/-- The row of the job, the time, and for the record the expiry of the lease that each instance was
last granted and has not released. -/
structure Shared where
  lock : Option Lock
  clock : ℤ
  granted : String → Option ℤ

inductive Request where
  | acquireLease (ttlMs : ℤ)
  | releaseLease
  deriving DecidableEq

/-- The time, and the call that arrives. -/
structure Env where
  now : ℤ
  instanceId : String
  request : Request
  deriving DecidableEq

inductive Call where
  | idle
  | upsert (instanceId : String) (ttlMs now : ℤ)
  | readBack (instanceId : String)
  | delete (instanceId : String)
  | acquired (isLeader : Bool)
  | released
  deriving DecidableEq

/-- The statement of a call before its first `await`. -/
def Request.start (instanceId : String) (now : ℤ) : Request → Call
  | .acquireLease ttlMs => .upsert instanceId ttlMs now
  | .releaseLease => .delete instanceId

namespace Shared

/-- The upsert of `acquireLease`: the caller has a lease when the row is its own afterwards. -/
def upsert (sh : Shared) (instanceId : String) (ttlMs now : ℤ) : Shared :=
  let lock := upsertColumns instanceId ttlMs now sh.lock
  { sh with
    lock := some lock
    granted :=
      if lock.holderId = instanceId then Function.update sh.granted instanceId (some lock.expiresAt)
      else sh.granted }

/-- `DELETE FROM scheduler_locks WHERE name = ? AND holder_id = ?`. -/
def delete (sh : Shared) (instanceId : String) : Shared :=
  { sh with
    lock := sh.lock.filter (·.holderId ≠ instanceId)
    granted := Function.update sh.granted instanceId none }

/-- The instance was granted a lease that has not expired at the time. -/
def Holds (sh : Shared) (instanceId : String) (time : ℤ) : Prop :=
  ∃ expiresAt, sh.granted instanceId = some expiresAt ∧ time ≤ expiresAt

end Shared

section Entered

variable {sh : Shared}

/-- A lease that has not expired is in the table. -/
def Shared.Entered (sh : Shared) : Prop := ∀ i e, sh.granted i = some e → sh.clock ≤ e →
  ∃ lock, sh.lock = some lock ∧ lock.holderId = i ∧ lock.expiresAt = e

theorem Shared.Entered.tick (h : sh.Entered) {now : ℤ} (hnow : sh.clock ≤ now) :
    Shared.Entered { sh with clock := now } :=
  fun i e he hlive ↦ h i e he (hnow.trans hlive)

theorem Shared.Entered.upsert (h : sh.Entered) {instanceId : String} {ttlMs now : ℤ}
    (hnow : now ≤ sh.clock) : (sh.upsert instanceId ttlMs now).Entered := by
  intro i e he hlive
  obtain ⟨htaken, hfree⟩ | ⟨l, hl, -, hother, hkept⟩ :=
    upsertColumns_cases instanceId ttlMs now sh.lock
  · simp only [Shared.upsert, htaken, if_true] at he ⊢
    rcases eq_or_ne i instanceId with rfl | hne
    · rw [Function.update_self] at he
      exact ⟨_, rfl, rfl, Option.some.inj he⟩
    · rw [Function.update_of_ne hne] at he
      obtain ⟨l, hl, rfl, rfl⟩ := h i e he hlive
      rcases hfree l hl with hexpired | hown
      · exact absurd (hexpired.trans_le hnow) (Int.not_lt.mpr hlive)
      · exact absurd hown hne
  · simp only [Shared.upsert, hkept, if_neg hother] at he ⊢
    rw [← hl]
    exact h i e he hlive

/-- An instance releases only its own lease. -/
theorem Shared.Entered.delete (h : sh.Entered) (instanceId : String) :
    (sh.delete instanceId).Entered := by
  intro i e he hlive
  rcases eq_or_ne i instanceId with rfl | hne
  · simp only [Shared.delete, Function.update_self, reduceCtorEq] at he
  · simp only [Shared.delete, Function.update_of_ne hne] at he ⊢
    obtain ⟨l, hl, rfl, rfl⟩ := h i e he hlive
    refine ⟨l, ?_, rfl, rfl⟩
    rw [hl, Option.filter_some, if_pos (decide_eq_true hne)]

end Entered

/-- Resume a call: it executes its statement and runs to its next `await`. All statements
succeed. -/
def resume (sh : Shared) (c : Call) (env : Env) : Shared × Call :=
  let sh := { sh with clock := env.now }
  match c with
  | .idle => (sh, env.request.start env.instanceId env.now)
  | .upsert instanceId ttlMs now => (sh.upsert instanceId ttlMs now, .readBack instanceId)
  | .readBack instanceId => (sh, .acquired (isLeader instanceId sh.lock none))
  | .delete instanceId => (sh.delete instanceId, .released)
  | .acquired b => (sh, .acquired b)
  | .released => (sh, .released)

/-- The time a call writes is not later. -/
def Call.StartedBefore (time : ℤ) (c : Call) : Prop :=
  ∀ instanceId ttlMs now, c = .upsert instanceId ttlMs now → now ≤ time

def Call.instance? : Call → Option String
  | .upsert instanceId _ _ | .delete instanceId => some instanceId
  | _ => none

section Runs

variable {ι : Type*} [DecidableEq ι]

def step : Calls ι Shared Call → ι × Env → Calls ι Shared Call := Calls.step resume

/-- A row, which its holder was granted, and calls that have not begun. -/
def initial (lock : Option Lock) (clock : ℤ) : Calls ι Shared Call where
  shared := ⟨lock, clock, fun i ↦
    (lock.filter (·.holderId = i)).map (·.expiresAt)⟩
  call := fun _ ↦ .idle

def Forward (s : Calls ι Shared Call) (a : ι × Env) : Prop := s.shared.clock ≤ a.2.now

instance decidableForward (s : Calls ι Shared Call) (a : ι × Env) : Decidable (Forward s a) :=
  inferInstanceAs (Decidable (_ ≤ _))

/-- When an upsert leaves an instance as the holder, no other holds a lease that has not expired;
and a lease that has not expired is left alone by the statements of other instances. -/
structure LawfulStep (s : Calls ι Shared Call) (a : ι × Env) : Prop where
  exclusive : ∀ instanceId ttlMs now lock, s.call a.1 = .upsert instanceId ttlMs now →
    (step s a).shared.lock = some lock → lock.holderId = instanceId →
      ∀ other, other ≠ instanceId → ¬(step s a).shared.Holds other a.2.now
  kept : ∀ lock, s.shared.lock = some lock → a.2.now ≤ lock.expiresAt →
    (s.call a.1).instance? ≠ some lock.holderId → (step s a).shared.lock = some lock

structure Consistent (s : Calls ι Shared Call) : Prop where
  entered : s.shared.Entered
  past : ∀ i, (s.call i).StartedBefore s.shared.clock

omit [DecidableEq ι] in
theorem consistent_initial (lock : Option Lock) (clock : ℤ) :
    Consistent (initial lock clock : Calls ι Shared Call) := by
  refine ⟨fun i e he _ ↦ ?_, fun j instanceId ttlMs now h ↦ ?_⟩
  · obtain ⟨l, hl, rfl⟩ := Option.map_eq_some_iff.mp he
    obtain ⟨hlock, hholder⟩ := Option.filter_eq_some_iff.mp hl
    exact ⟨l, hlock, of_decide_eq_true hholder, rfl⟩
  · cases h

theorem consistent_step {s : Calls ι Shared Call} {a : ι × Env} (h : Consistent s)
    (hclock : Forward s a) : Consistent (step s a) := by
  obtain ⟨i, env⟩ := a
  have htick := h.entered.tick hclock
  have hnow : (resume s.shared (s.call i) env).1.clock = env.now := by
    cases s.call i <;> rfl
  refine ⟨?_, Calls.forall_step
    (P := fun (sh : Shared) (c : Call) ↦ c.StartedBefore sh.clock) h.past ?_ ?_⟩
  · rw [step, Calls.step_shared]
    cases hcall : s.call i with
    | upsert instanceId ttlMs now =>
      exact htick.upsert ((h.past i instanceId ttlMs now hcall).trans hclock)
    | delete instanceId => exact htick.delete instanceId
    | idle | readBack | acquired | released => exact htick
  · intro instanceId ttlMs now hnext
    rw [hnow]
    cases hcall : s.call i with
    | idle =>
      rw [hcall] at hnext
      cases hrequest : env.request with
      | acquireLease ttlMs' =>
        simp only [resume, hrequest, Request.start, Call.upsert.injEq] at hnext
        obtain ⟨-, -, rfl⟩ := hnext
        exact le_rfl
      | releaseLease =>
        simp only [resume, hrequest, Request.start, reduceCtorEq] at hnext
    | upsert | delete | readBack | acquired | released =>
      rw [hcall] at hnext
      cases hnext
  · intro c hc instanceId ttlMs now hupsert
    rw [hnow]
    exact (hc instanceId ttlMs now hupsert).trans hclock

theorem lawfulStep {s : Calls ι Shared Call} {a : ι × Env} (h : Consistent s)
    (hclock : Forward s a) : LawfulStep s a := by
  obtain ⟨i, env⟩ := a
  constructor
  · intro instanceId ttlMs now lock hcall hlock hholder other hother
    rintro ⟨e, he, hlive⟩
    -- a live lease of the other instance would be in the row, which is the caller's
    have hnow : (step s (i, env)).shared.clock = env.now := by
      rw [step, Calls.step_shared]
      cases s.call i <;> rfl
    obtain ⟨l, hl, hlholder, -⟩ := (consistent_step h hclock).entered other e he (hnow ▸ hlive)
    obtain rfl : lock = l := Option.some.inj (hlock.symm.trans hl)
    exact hother (hlholder.symm.trans hholder)
  · intro lock hlock hlive hinstance
    rw [step, Calls.step_shared]
    dsimp only at hlive hinstance ⊢
    cases hcall : s.call i with
    | upsert instanceId ttlMs now =>
      rw [hcall] at hinstance
      have hpast : now ≤ env.now := (h.past i instanceId ttlMs now hcall).trans hclock
      obtain ⟨-, hfree⟩ | ⟨l, hl, -, -, hkept⟩ :=
        upsertColumns_cases instanceId ttlMs now s.shared.lock
      · rcases hfree lock hlock with hexpired | hown
        · omega
        · exact absurd (congrArg some hown.symm) hinstance
      · obtain rfl : lock = l := Option.some.inj (hlock.symm.trans hl)
        exact congrArg some hkept
    | delete instanceId =>
      rw [hcall] at hinstance
      have hother : lock.holderId ≠ instanceId := fun heq ↦ hinstance (congrArg some heq.symm)
      change s.shared.lock.filter (·.holderId ≠ instanceId) = some lock
      rw [hlock, Option.filter_some, if_pos (decide_eq_true hother)]
    | idle | readBack | acquired | released => exact hlock

/-- **Leases are exclusive.** In every interleaving, with any times to live, in which the clock does
not go back: whenever an upsert leaves an instance as the holder, no other instance holds a lease
that has not expired, and no statement of one instance changes or deletes a lease of another that
has not expired. -/
theorem leases_exclusive (lock : Option Lock) (clock : ℤ) (as : List (ι × Env))
    (hclock : Along step Forward (initial lock clock) as) :
    Along step LawfulStep (initial lock clock) as := by
  have hconsistent := hclock.always (fun _ _ ↦ consistent_step) (consistent_initial lock clock)
  exact hclock.of_always (fun _ _ ↦ lawfulStep) hconsistent

/-- Two instances: the second gets the lease when that of the first has expired. -/
theorem leases_exclusive_takeover :
    Along step LawfulStep (initial none 0 : Calls (Fin 2) Shared Call)
      [(0, ⟨0, "a", .acquireLease 10⟩), (1, ⟨5, "b", .acquireLease 10⟩),
        (0, ⟨6, "a", .releaseLease⟩),
        (0, ⟨7, "a", .releaseLease⟩), (1, ⟨11, "b", .releaseLease⟩)] :=
  leases_exclusive none 0 _ (by decide)

end Runs

end StellarDonations.LeaderElection
