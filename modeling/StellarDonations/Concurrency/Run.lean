import Mathlib.Algebra.GroupWithZero.Nat
import Mathlib.Data.List.Infix

/-!
# Runs of a deterministic machine

A machine is a total function `step : σ → α → σ`: the state it is in and the action taken next
determine the state reached. Everything the environment decides (which call is resumed, what the
network answers, what the clock shows) is part of the action, so a run is a list of actions.

Two predicates speak about a whole run. `Along step C s as` says that every action of the run
meets `C` in the state it is taken in; `Always step P s as` says that `P` holds of every state the
run passes through, the first and the last included. The rule `Along.always` is the only way
invariants are lifted from one step to a run.
-/

namespace Concurrency

variable {σ α : Type*} {step : σ → α → σ} {C D : σ → α → Prop} {P Q : σ → Prop}

/-- Runs of two calls name them by the literals of `Fin 2`, and those of three by `Fin 3`. -/
instance neZeroTwo : NeZero 2 := ⟨by decide⟩

instance neZeroThree : NeZero 3 := ⟨by decide⟩

/-! ## The state reached -/

/-- The state reached from `s` by the actions `as`, taken from left to right. -/
def run (step : σ → α → σ) (s : σ) (as : List α) : σ := as.foldl step s

@[simp] theorem run_nil (s : σ) : run step s [] = s := rfl

@[simp] theorem run_cons (s : σ) (a : α) (as : List α) :
    run step s (a :: as) = run step (step s a) as := rfl

theorem run_append (s : σ) (as bs : List α) :
    run step s (as ++ bs) = run step (run step s as) bs := List.foldl_append

theorem run_concat (s : σ) (as : List α) (a : α) :
    run step s (as ++ [a]) = step (run step s as) a := run_append s as [a]

/-! ## Conditions on the steps of a run -/

/-- Every action of the run meets `C` in the state it is taken in. -/
def Along (step : σ → α → σ) (C : σ → α → Prop) : σ → List α → Prop
  | _, [] => True
  | s, a :: as => C s a ∧ Along step C (step s a) as

instance decidableAlong [∀ s a, Decidable (C s a)] :
    ∀ (s : σ) (as : List α), Decidable (Along step C s as)
  | _, [] => inferInstanceAs (Decidable True)
  | s, a :: as =>
    have := decidableAlong (step s a) as
    inferInstanceAs (Decidable (C s a ∧ Along step C (step s a) as))

@[simp] theorem along_nil (s : σ) : Along step C s [] := trivial

@[simp] theorem along_cons (s : σ) (a : α) (as : List α) :
    Along step C s (a :: as) ↔ C s a ∧ Along step C (step s a) as := Iff.rfl

theorem along_of_forall_mem {as : List α} (h : ∀ a ∈ as, ∀ s, C s a) (s : σ) :
    Along step C s as := by
  induction as generalizing s with
  | nil => trivial
  | cons a as ih =>
    refine ⟨h a List.mem_cons_self s, ih (fun a' ha' ↦ ?_) (step s a)⟩
    exact h a' (List.mem_cons_of_mem a ha')

theorem Along.and {s : σ} {as : List α} (hC : Along step C s as) (hD : Along step D s as) :
    Along step (fun s a ↦ C s a ∧ D s a) s as := by
  induction as generalizing s with
  | nil => trivial
  | cons a as ih => exact ⟨⟨hC.1, hD.1⟩, ih hC.2 hD.2⟩

theorem along_and (s : σ) (as : List α) :
    Along step (fun s a ↦ C s a ∧ D s a) s as ↔ Along step C s as ∧ Along step D s as := by
  refine ⟨fun h ↦ ?_, fun h ↦ h.1.and h.2⟩
  induction as generalizing s with
  | nil => exact ⟨trivial, trivial⟩
  | cons a as ih =>
    obtain ⟨hC, hD⟩ := ih (step s a) h.2
    exact ⟨⟨h.1.1, hC⟩, h.1.2, hD⟩

/-! ## Properties of the states of a run -/

/-- `P` holds of every state the run passes through. -/
def Always (step : σ → α → σ) (P : σ → Prop) : σ → List α → Prop
  | s, [] => P s
  | s, a :: as => P s ∧ Always step P (step s a) as

instance decidableAlways [∀ s, Decidable (P s)] :
    ∀ (s : σ) (as : List α), Decidable (Always step P s as)
  | s, [] => inferInstanceAs (Decidable (P s))
  | s, a :: as =>
    have := decidableAlways (step s a) as
    inferInstanceAs (Decidable (P s ∧ Always step P (step s a) as))

@[simp] theorem always_nil (s : σ) : Always step P s [] ↔ P s := Iff.rfl

@[simp] theorem always_cons (s : σ) (a : α) (as : List α) :
    Always step P s (a :: as) ↔ P s ∧ Always step P (step s a) as := Iff.rfl

/-- `Always` is a statement about every prefix of the run. -/
theorem always_iff_forall_prefixes (s : σ) (as : List α) :
    Always step P s as ↔ ∀ pre, pre <+: as → P (run step s pre) := by
  induction as generalizing s with
  | nil => simp [List.prefix_nil]
  | cons a as ih =>
    rw [always_cons, ih]
    constructor
    · rintro ⟨hs, h⟩ pre hpre
      rcases List.prefix_cons_iff.mp hpre with rfl | ⟨rest, rfl, hrest⟩
      · exact hs
      · exact h rest hrest
    · intro h
      refine ⟨h [] (List.nil_prefix), fun pre hpre ↦ ?_⟩
      exact h (a :: pre) ((List.prefix_cons_inj a).mpr hpre)

theorem always_iff_along_next (s : σ) (as : List α) :
    Always step P s as ↔ P s ∧ Along step (fun s a ↦ P (step s a)) s as := by
  induction as generalizing s with
  | nil => exact (iff_of_eq (and_true _)).symm
  | cons a as ih => rw [always_cons, along_cons, ih (step s a)]

theorem Always.last {s : σ} {as : List α} (h : Always step P s as) : P (run step s as) :=
  (always_iff_forall_prefixes s as).mp h as (List.prefix_refl as)

theorem Always.mono (hPQ : ∀ s, P s → Q s) {s : σ} {as : List α} (h : Always step P s as) :
    Always step Q s as :=
  (always_iff_forall_prefixes s as).mpr fun pre hpre ↦ hPQ _
    ((always_iff_forall_prefixes s as).mp h pre hpre)

/-! ## The invariant rule -/

/-- **The invariant rule.** A property that holds at the start and that every step meeting `C`
preserves holds in every state of every run whose steps all meet `C`. -/
theorem Along.always (hstep : ∀ s a, P s → C s a → P (step s a)) {s : σ} {as : List α}
    (hC : Along step C s as) (hs : P s) : Always step P s as := by
  induction as generalizing s with
  | nil => exact hs
  | cons a as ih => exact ⟨hs, ih hC.2 (hstep s a hs hC.1)⟩

/-- The unconditional form, for invariants that every step preserves. -/
theorem always_of_step (hstep : ∀ s a, P s → P (step s a)) {s : σ} (hs : P s) (as : List α) :
    Always step P s as := by
  induction as generalizing s with
  | nil => exact hs
  | cons a as ih => exact ⟨hs, ih (hstep s a hs)⟩

/-- What holds of every state of a run strengthens a condition on its steps. -/
theorem Along.of_always (h : ∀ s a, P s → C s a → D s a) {s : σ} {as : List α}
    (hC : Along step C s as) (hP : Always step P s as) : Along step D s as := by
  induction as generalizing s with
  | nil => trivial
  | cons a as ih => exact ⟨h s a hP.1 hC.1, ih hC.2 hP.2⟩

/-- Two conditions that agree wherever `I` holds, which the steps meeting them preserve, hold along
the same runs. -/
theorem along_congr {I : σ → Prop} (hiff : ∀ s a, I s → (C s a ↔ D s a))
    (hstep : ∀ s a, I s → C s a → I (step s a)) {s : σ} (hs : I s) (as : List α) :
    Along step C s as ↔ Along step D s as := by
  induction as generalizing s with
  | nil => exact Iff.rfl
  | cons a as ih =>
    rw [along_cons, along_cons, ← hiff s a hs]
    exact and_congr_right fun hC ↦ ih (hstep s a hs hC)

/-- **The exact condition.** When `I` implies `P`, survives every step meeting `C`, and every
other step taken from it breaks `P`, a run satisfies `P` throughout exactly when all its steps
meet `C`. -/
theorem always_iff_along {I : σ → Prop} (hI : ∀ s, I s → P s)
    (hstep : ∀ s a, I s → C s a → I (step s a)) (hbreak : ∀ s a, I s → ¬C s a → ¬P (step s a))
    {s : σ} (hs : I s) (as : List α) : Always step P s as ↔ Along step C s as := by
  induction as generalizing s with
  | nil => simpa using hI s hs
  | cons a as ih =>
    rw [always_cons, along_cons]
    by_cases hC : C s a
    · rw [ih (hstep s a hs hC)]
      exact and_congr_left' (iff_of_true (hI s hs) hC)
    · refine iff_of_false (fun h ↦ ?_) (fun h ↦ hC h.1)
      exact hbreak s a hs hC ((always_iff_forall_prefixes _ as).mp h.2 [] List.nil_prefix)

end Concurrency
