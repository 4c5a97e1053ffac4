import Mathlib.Data.List.Nodup
import StellarDonations.Concurrency.Interleaving

/-!
# Names claimed while a job is in flight

A set of names keeps a job from being run twice at the same time: a job is queued only under a name
that is not claimed, which claims it; a worker takes it from the queue; when the worker is done it
releases the name. Jobs that are done are forgotten, so a name can be claimed again later.

`Exclusive` is the invariant: whoever has a name, a worker or the queue, has it alone.
-/

namespace Concurrency.InFlight

variable {ι κ : Type*} [DecidableEq ι]

/-- The claimed names, the names of the queued jobs, and the name each worker is working under. -/
structure State (ι κ : Type*) where
  claimed : κ → Prop
  queue : List κ
  holder : ι → Option κ

/-- What a step of worker `i` may do. -/
inductive Step (i : ι) (s : State ι κ) : State ι κ → Prop
  /-- Nothing happens that concerns the names. -/
  | stay : Step i s s
  /-- A job is queued under a name that was free. -/
  | claim (k : κ) (hfree : ¬s.claimed k) :
      Step i s { s with claimed := fun k' ↦ k' = k ∨ s.claimed k', queue := s.queue ++ [k] }
  /-- An idle worker takes a job from the queue. -/
  | take (k : κ) (before after : List κ) (hidle : s.holder i = none)
      (hqueue : s.queue = before ++ k :: after) :
      Step i s { s with queue := before ++ after, holder := Function.update s.holder i (some k) }
  /-- A worker is done. -/
  | release (k : κ) (hholder : s.holder i = some k) :
      Step i s { s with
        claimed := fun k' ↦ k' ≠ k ∧ s.claimed k'
        holder := Function.update s.holder i none }

structure Exclusive (s : State ι κ) : Prop where
  held : ∀ i k, s.holder i = some k → s.claimed k
  queued : ∀ k ∈ s.queue, s.claimed k
  apart : ∀ i k, s.holder i = some k → k ∉ s.queue
  alone : ∀ i j k, s.holder i = some k → s.holder j = some k → i = j
  nodup : s.queue.Nodup

section Preservation

variable {s : State ι κ} {i : ι} {k : κ}

omit [DecidableEq ι] in
theorem Exclusive.claim (h : Exclusive s) (hfree : ¬s.claimed k) :
    Exclusive { s with claimed := fun k' ↦ k' = k ∨ s.claimed k', queue := s.queue ++ [k] } := by
  refine ⟨fun j k' hj ↦ .inr (h.held j k' hj), fun k' hk' ↦ ?_, fun j k' hj hk' ↦ ?_, h.alone, ?_⟩
  · rcases List.mem_append.mp hk' with hk' | hk'
    · exact .inr (h.queued k' hk')
    · exact .inl (List.mem_singleton.mp hk')
  · rcases List.mem_append.mp hk' with hk' | hk'
    · exact h.apart j k' hj hk'
    · rw [List.mem_singleton.mp hk'] at hj
      exact hfree (h.held j k hj)
  · refine List.nodup_append.mpr ⟨h.nodup, List.nodup_singleton k, fun a ha b hb ↦ ?_⟩
    rintro rfl
    rw [List.mem_singleton.mp hb] at ha
    exact hfree (h.queued k ha)

theorem holder_take {holder : ι → Option κ} {j : ι} {k' : κ}
    (h : Function.update holder i (some k) j = some k') :
    (j = i ∧ k' = k) ∨ holder j = some k' := by
  rcases eq_or_ne j i with rfl | hji
  · rw [Function.update_self] at h
    exact .inl ⟨rfl, (Option.some.inj h).symm⟩
  · rw [Function.update_of_ne hji] at h
    exact .inr h

theorem Exclusive.take (h : Exclusive s) {before after : List κ}
    (hqueue : s.queue = before ++ k :: after) :
    Exclusive { s with
      queue := before ++ after
      holder := Function.update s.holder i (some k) } := by
  have hk : k ∈ s.queue := by
    rw [hqueue]
    exact List.mem_append_right _ List.mem_cons_self
  have hsub : ∀ k' ∈ before ++ after, k' ∈ s.queue := by
    intro k' hk'
    rw [hqueue]
    rcases List.mem_append.mp hk' with hk' | hk'
    · exact List.mem_append_left _ hk'
    · exact List.mem_append_right _ (List.mem_cons_of_mem _ hk')
  have hnodup := h.nodup
  rw [hqueue, List.nodup_middle, List.nodup_cons] at hnodup
  refine ⟨fun j k' hj ↦ ?_, fun k' hk' ↦ h.queued k' (hsub k' hk'), fun j k' hj hk' ↦ ?_,
    fun j j' k' hj hj' ↦ ?_, hnodup.2⟩
  · rcases holder_take hj with ⟨-, rfl⟩ | hj
    · exact h.queued k' hk
    · exact h.held j k' hj
  · rcases holder_take hj with ⟨-, rfl⟩ | hj
    · exact hnodup.1 hk'
    · exact h.apart j k' hj (hsub k' hk')
  · rcases holder_take hj with ⟨rfl, rfl⟩ | hold
    · rcases holder_take hj' with ⟨hj, -⟩ | hold'
      · exact hj.symm
      · exact absurd hk (h.apart j' k' hold')
    · rcases holder_take hj' with ⟨-, rfl⟩ | hold'
      · exact absurd hk (h.apart j k' hold)
      · exact h.alone j j' k' hold hold'

theorem Exclusive.holder_release (h : Exclusive s) (hholder : s.holder i = some k) {j : ι} {k' : κ}
    (hj : Function.update s.holder i none j = some k') : k' ≠ k ∧ s.holder j = some k' := by
  rcases eq_or_ne j i with rfl | hji
  · rw [Function.update_self] at hj
    cases hj
  · rw [Function.update_of_ne hji] at hj
    refine ⟨?_, hj⟩
    rintro rfl
    exact hji (h.alone j i k' hj hholder)

theorem Exclusive.release (h : Exclusive s) (hholder : s.holder i = some k) :
    Exclusive { s with
      claimed := fun k' ↦ k' ≠ k ∧ s.claimed k'
      holder := Function.update s.holder i none } := by
  refine ⟨fun j k' hj ↦ ?_, fun k' hk' ↦ ⟨?_, h.queued k' hk'⟩, fun j k' hj ↦ ?_,
    fun j j' k' hj hj' ↦ ?_, h.nodup⟩
  · obtain ⟨hne, hj⟩ := h.holder_release hholder hj
    exact ⟨hne, h.held j k' hj⟩
  · rintro rfl
    exact h.apart i k' hholder hk'
  · exact h.apart j k' (h.holder_release hholder hj).2
  · exact h.alone j j' k' (h.holder_release hholder hj).2 (h.holder_release hholder hj').2

/-- **Every step keeps the invariant.** -/
theorem Exclusive.step {s' : State ι κ} (h : Exclusive s) (hstep : Step i s s') : Exclusive s' := by
  cases hstep with
  | stay => exact h
  | claim k hfree => exact h.claim hfree
  | take k before after hidle hqueue => exact h.take hqueue
  | release k hholder => exact h.release hholder

end Preservation

omit [DecidableEq ι] in
theorem exclusive_initial {s : State ι κ} (hqueue : s.queue = [])
    (hholder : ∀ i, s.holder i = none) :
    Exclusive s := by
  refine ⟨fun i k hi ↦ ?_, fun k hk ↦ ?_, fun i k hi ↦ ?_, fun i j k hi ↦ ?_, ?_⟩
  · rw [hholder i] at hi
    cases hi
  · rw [hqueue] at hk
    cases hk
  · rw [hholder i] at hi
    cases hi
  · rw [hholder i] at hi
    cases hi
  · rw [hqueue]
    exact List.nodup_nil

end Concurrency.InFlight
