import Mathlib.Algebra.BigOperators.Group.Finset.Basic
import Mathlib.Data.Fintype.Basic
import StellarDonations.Concurrency.Run

/-!
# Calls interleaved at their suspension points

A family of calls shares a state `σ`. Each call has a local state in `ℓ`, which records the
statement the call is suspended on together with the values it still holds. Resuming call `i`
executes that statement against the shared state and runs the call up to its next suspension
point; the other calls do not move. An action names the call that is resumed and what its
environment answers, so an arbitrary list of actions is an arbitrary interleaving.

The rules below are the three ways an interleaving is reasoned about: a property of the shared
state and each call separately, mutual exclusion of a section of the code, and a quantity summed
over all calls.
-/

namespace Concurrency

variable {ι σ ℓ ε : Type*}

/-- A shared state together with the local state of every call. -/
structure Calls (ι σ ℓ : Type*) where
  /-- The state all calls read and write. -/
  shared : σ
  /-- What each call is suspended on. -/
  call : ι → ℓ

namespace Calls

variable [DecidableEq ι] {resume : σ → ℓ → ε → σ × ℓ}

/-- Resume one call with the environment's answer; no other call moves. -/
def step (resume : σ → ℓ → ε → σ × ℓ) (s : Calls ι σ ℓ) (a : ι × ε) : Calls ι σ ℓ where
  shared := (resume s.shared (s.call a.1) a.2).1
  call := Function.update s.call a.1 (resume s.shared (s.call a.1) a.2).2

@[simp] theorem step_shared (s : Calls ι σ ℓ) (a : ι × ε) :
    (step resume s a).shared = (resume s.shared (s.call a.1) a.2).1 := rfl

theorem step_call (s : Calls ι σ ℓ) (a : ι × ε) :
    (step resume s a).call = Function.update s.call a.1 (resume s.shared (s.call a.1) a.2).2 := rfl

@[simp] theorem step_call_self (s : Calls ι σ ℓ) (i : ι) (e : ε) :
    (step resume s (i, e)).call i = (resume s.shared (s.call i) e).2 := by
  rw [step_call, Function.update_self]

theorem step_call_of_ne (s : Calls ι σ ℓ) {i j : ι} (e : ε) (h : j ≠ i) :
    (step resume s (i, e)).call j = s.call j := by
  rw [step_call, Function.update_of_ne h]

/-- A property of the shared state and one call is preserved for all calls when the resumed call
re-establishes it and its effect on the shared state does not disturb the others. -/
theorem forall_step {P : σ → ℓ → Prop} {s : Calls ι σ ℓ} {i : ι} {e : ε}
    (h : ∀ j, P s.shared (s.call j))
    (hself : P (resume s.shared (s.call i) e).1 (resume s.shared (s.call i) e).2)
    (hother : ∀ x, P s.shared x → P (resume s.shared (s.call i) e).1 x) :
    ∀ j, P (step resume s (i, e)).shared ((step resume s (i, e)).call j) := by
  intro j
  by_cases hj : j = i
  · subst hj
    rw [step_call_self]
    exact hself
  · rw [step_call_of_ne s e hj]
    exact hother _ (h j)

/-- A symmetric relation between any two calls is preserved when the resumed call stays related to
every other one. -/
theorem forall_ne_step {R : ℓ → ℓ → Prop} (hsymm : ∀ x y, R x y → R y x) {s : Calls ι σ ℓ} {i : ι}
    {e : ε} (h : ∀ j k, j ≠ k → R (s.call j) (s.call k))
    (hself : ∀ j, j ≠ i → R (resume s.shared (s.call i) e).2 (s.call j)) :
    ∀ j k, j ≠ k → R ((step resume s (i, e)).call j) ((step resume s (i, e)).call k) := by
  intro j k hne
  by_cases hj : j = i
  · subst hj
    rw [step_call_self, step_call_of_ne s e hne.symm]
    exact hself k hne.symm
  · rw [step_call_of_ne s e hj]
    by_cases hk : k = i
    · subst hk
      rw [step_call_self]
      exact hsymm _ _ (hself j hj)
    · rw [step_call_of_ne s e hk]
      exact h j k hne

end Calls

/-! ## Mutual exclusion -/

/-- At most one call is inside the section `In`. -/
def AtMostOne (In : ℓ → Prop) (c : ι → ℓ) : Prop :=
  ∀ i j, In (c i) → In (c j) → i = j

/-- No call other than `i` is inside the section `In`. -/
def Alone (In : ℓ → Prop) (c : ι → ℓ) (i : ι) : Prop :=
  ∀ j, j ≠ i → ¬In (c j)

instance decidableAlone [Fintype ι] [DecidableEq ι] {In : ℓ → Prop} [DecidablePred In]
    (c : ι → ℓ) (i : ι) : Decidable (Alone In c i) :=
  inferInstanceAs (Decidable (∀ j, j ≠ i → ¬In (c j)))

/-- Exclusion survives a step of call `i` when `i` is inside afterwards only if it was inside
already or entered while every other call was outside. -/
theorem AtMostOne.update [DecidableEq ι] {In : ℓ → Prop} {c : ι → ℓ} {i : ι} {x : ℓ}
    (h : AtMostOne In c) (henter : In x → In (c i) ∨ Alone In c i) :
    AtMostOne In (Function.update c i x) := by
  -- once `i` is inside after the step, any other call inside contradicts one of the two ways in
  have key : ∀ j, j ≠ i → In x → ¬In (c j) := by
    intro j hj hx hcj
    rcases henter hx with hi | hi
    · exact hj (h j i hcj hi)
    · exact hi j hj hcj
  intro j k hj hk
  rcases eq_or_ne j i with rfl | hji <;> rcases eq_or_ne k j with rfl | hkj
  · rfl
  · rw [Function.update_self] at hj
    rw [Function.update_of_ne hkj] at hk
    exact absurd hk (key k hkj hj)
  · rfl
  · rw [Function.update_of_ne hji] at hj
    rcases eq_or_ne k i with rfl | hki
    · rw [Function.update_self] at hk
      exact absurd hj (key j hji hk)
    · rw [Function.update_of_ne hki] at hk
      exact h j k hj hk

/-! ## Quantities summed over the calls -/

/-- Moving one call changes a sum over all calls by that call's own contribution, which may depend
on the call's name. -/
theorem sum_update_apply_add [DecidableEq ι] [Fintype ι] {M : Type*} [AddCommMonoid M]
    (f : ι → ℓ → M) (c : ι → ℓ) (i : ι) (x : ℓ) :
    ∑ j, f j (Function.update c i x j) + f i (c i) = ∑ j, f j (c j) + f i x := by
  have hrest : ∑ j ∈ Finset.univ.erase i, f j (Function.update c i x j)
      = ∑ j ∈ Finset.univ.erase i, f j (c j) := by
    refine Finset.sum_congr rfl fun j hj ↦ ?_
    rw [Function.update_of_ne (Finset.ne_of_mem_erase hj)]
  rw [← Finset.add_sum_erase Finset.univ (fun j ↦ f j (Function.update c i x j))
      (Finset.mem_univ i), ← Finset.add_sum_erase Finset.univ (fun j ↦ f j (c j))
      (Finset.mem_univ i), hrest, Function.update_self]
  rw [add_comm (f i x), add_right_comm, add_comm (f i (c i))]

theorem sum_update_add [DecidableEq ι] [Fintype ι] {M : Type*} [AddCommMonoid M] (f : ℓ → M)
    (c : ι → ℓ) (i : ι) (x : ℓ) :
    ∑ j, f (Function.update c i x j) + f (c i) = ∑ j, f (c j) + f x :=
  sum_update_apply_add (fun _ ↦ f) c i x

end Concurrency
