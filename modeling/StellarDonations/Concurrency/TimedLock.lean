import Mathlib.Logic.Function.Basic
import Mathlib.Data.Nat.Init

/-!
# Locks that expire

A lock is an entry in a table, under the name of what is locked, with the time it expires at. A
holder remembers the name and the time it was granted; once that time has passed its lock counts no
longer, although the entry and the holder may still be there.

The entry says nothing about who made it. So a lock may be granted only while there is no entry for
the name that has not expired, and an entry may be removed only by a holder whose own lock has not
expired, or when it has expired itself. Under these two rules no two locks on one name are live at
the same time (`Exclusive.step`).
-/

namespace Concurrency.TimedLock

variable {ι κ : Type*}

/-- The time, the expiry of each entry, and the lock each holder was granted. -/
structure State (ι κ : Type*) where
  now : ℕ
  entry : κ → Option ℕ
  holder : ι → Option (κ × ℕ)

namespace State

/-- No entry for the name, or an expired one. -/
def Free (s : State ι κ) (k : κ) : Prop := ∀ e ∈ s.entry k, e ≤ s.now

/-- The holder has a lock on the name that has not expired. -/
def Live (s : State ι κ) (i : ι) (k : κ) : Prop := ∃ e, s.holder i = some (k, e) ∧ s.now < e

end State

variable [DecidableEq ι] [DecidableEq κ]

/-- What a step of holder `i` may do. -/
inductive Step (i : ι) (s : State ι κ) : State ι κ → Prop
  /-- Nothing happens that concerns the locks. -/
  | stay : Step i s s
  /-- A lock is granted on a name that is free. -/
  | grant (k : κ) (e : ℕ) (hfree : s.Free k) :
      Step i s { s with
        entry := Function.update s.entry k (some e)
        holder := Function.update s.holder i (some (k, e)) }
  /-- The entry is removed, by a holder whose lock is live or when there is no live lock. -/
  | giveBack (k : κ) (e : ℕ) (hi : s.holder i = some (k, e)) (hown : s.now < e ∨ s.Free k) :
      Step i s { s with
        entry := Function.update s.entry k none
        holder := Function.update s.holder i none }
  /-- The holder leaves and the entry stays. -/
  | leave : Step i s { s with holder := Function.update s.holder i none }

structure Exclusive (s : State ι κ) : Prop where
  entered : ∀ i k e, s.holder i = some (k, e) → s.now < e → s.entry k = some e
  alone : ∀ i j k, s.Live i k → s.Live j k → i = j

omit [DecidableEq ι] [DecidableEq κ] in
theorem Exclusive.not_live {s : State ι κ} (h : Exclusive s) {k : κ} (hfree : s.Free k) (i : ι) :
    ¬s.Live i k := by
  rintro ⟨e, hi, he⟩
  exact absurd (hfree e (h.entered i k e hi he)) (Nat.not_le.mpr he)

omit [DecidableEq ι] [DecidableEq κ] in
theorem Exclusive.tick {s : State ι κ} (h : Exclusive s) {t : ℕ} (ht : s.now ≤ t) :
    Exclusive { s with now := t } := by
  have hlive : ∀ i k, State.Live { s with now := t } i k → s.Live i k :=
    fun i k ⟨e, hi, he⟩ ↦ ⟨e, hi, Nat.lt_of_le_of_lt ht he⟩
  exact ⟨fun i k e hi he ↦ h.entered i k e hi (Nat.lt_of_le_of_lt ht he),
    fun i j k hi hj ↦ h.alone i j k (hlive i k hi) (hlive j k hj)⟩

omit [DecidableEq κ] in
theorem holder_leave {holder : ι → Option (κ × ℕ)} {i j : ι} {l : κ × ℕ}
    (h : Function.update holder i none j = some l) : j ≠ i ∧ holder j = some l := by
  rcases eq_or_ne j i with rfl | hji
  · rw [Function.update_self] at h
    cases h
  · rw [Function.update_of_ne hji] at h
    exact ⟨hji, h⟩

omit [DecidableEq κ] in
theorem Exclusive.leave {s : State ι κ} (h : Exclusive s) (i : ι) :
    Exclusive { s with holder := Function.update s.holder i none } := by
  have hlive : ∀ j k, State.Live { s with holder := Function.update s.holder i none } j k →
      s.Live j k := fun j k ⟨e, hj, he⟩ ↦ ⟨e, (holder_leave hj).2, he⟩
  exact ⟨fun j k e hj he ↦ h.entered j k e (holder_leave hj).2 he,
    fun j j' k hj hj' ↦ h.alone j j' k (hlive j k hj) (hlive j' k hj')⟩

theorem Exclusive.giveBack {s : State ι κ} (h : Exclusive s) {i : ι} {k : κ} {e : ℕ}
    (hi : s.holder i = some (k, e)) (hown : s.now < e ∨ s.Free k) :
    Exclusive { s with
      entry := Function.update s.entry k none
      holder := Function.update s.holder i none } := by
  have hleft := h.leave i
  refine ⟨fun j k' e' hj he' ↦ ?_, hleft.alone⟩
  obtain ⟨hji, hj'⟩ := holder_leave hj
  -- a live lock of another holder on the same name would have been live before
  have hk : k' ≠ k := by
    rintro rfl
    rcases hown with hown | hfree
    · exact hji (h.alone j i k' ⟨e', hj', he'⟩ ⟨e, hi, hown⟩)
    · exact h.not_live hfree j ⟨e', hj', he'⟩
  exact (Function.update_of_ne hk _ _).trans (h.entered j k' e' hj' he')

theorem Exclusive.grant {s : State ι κ} (h : Exclusive s) (i : ι) {k : κ} (e : ℕ)
    (hfree : s.Free k) :
    Exclusive { s with
      entry := Function.update s.entry k (some e)
      holder := Function.update s.holder i (some (k, e)) } := by
  have hnew : ∀ j l, Function.update s.holder i (some (k, e)) j = some l →
      (j = i ∧ l = (k, e)) ∨ s.holder j = some l := by
    intro j l hj
    rcases eq_or_ne j i with rfl | hji
    · rw [Function.update_self] at hj
      exact .inl ⟨rfl, (Option.some.inj hj).symm⟩
    · rw [Function.update_of_ne hji] at hj
      exact .inr hj
  refine ⟨fun j k' e' hj he' ↦ ?_, fun j j' k' ⟨e₁, hj, he₁⟩ ⟨e₂, hj', he₂⟩ ↦ ?_⟩
  · rcases hnew j _ hj with ⟨-, heq⟩ | hold
    · obtain ⟨rfl, rfl⟩ := Prod.mk.inj heq
      exact Function.update_self ..
    · have hk : k' ≠ k := by
        rintro rfl
        exact h.not_live hfree j ⟨e', hold, he'⟩
      exact (Function.update_of_ne hk _ _).trans (h.entered j k' e' hold he')
  · rcases hnew j _ hj with ⟨rfl, heq⟩ | hold
    · rcases hnew j' _ hj' with ⟨rfl, -⟩ | hold'
      · rfl
      · obtain ⟨rfl, -⟩ := Prod.mk.inj heq
        exact absurd ⟨e₂, hold', he₂⟩ (h.not_live hfree j')
    · rcases hnew j' _ hj' with ⟨rfl, heq⟩ | hold'
      · obtain ⟨rfl, -⟩ := Prod.mk.inj heq
        exact absurd ⟨e₁, hold, he₁⟩ (h.not_live hfree j)
      · exact h.alone j j' k' ⟨e₁, hold, he₁⟩ ⟨e₂, hold', he₂⟩

/-- **Every step keeps the invariant.** -/
theorem Exclusive.step {s s' : State ι κ} {i : ι} (h : Exclusive s) (hstep : Step i s s') :
    Exclusive s' := by
  cases hstep with
  | stay => exact h
  | grant k e hfree => exact h.grant i e hfree
  | giveBack k e hi hown => exact h.giveBack hi hown
  | leave => exact h.leave i

omit [DecidableEq ι] [DecidableEq κ] in
theorem exclusive_initial {s : State ι κ} (hholder : ∀ i, s.holder i = none) : Exclusive s := by
  refine ⟨fun i k e hi ↦ ?_, fun i j k ⟨e, hi, _⟩ ↦ ?_⟩
  · rw [hholder i] at hi
    cases hi
  · rw [hholder i] at hi
    cases hi

end Concurrency.TimedLock
