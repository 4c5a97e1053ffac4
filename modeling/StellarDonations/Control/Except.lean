import Mathlib.Logic.Basic

/-!
# Inverting computations that may throw

A sequence of checks written in the `Except` monad succeeds exactly when each of its steps does.
These lemmas take such a sequence apart from left to right.
-/

namespace Except

universe u v

variable {ε : Type u} {α β : Type v}

theorem bind_eq_ok {x : Except ε α} {f : α → Except ε β} {b : β} :
    (x >>= f) = .ok b ↔ ∃ a, x = .ok a ∧ f a = .ok b := by
  cases x with
  | error e => exact iff_of_false (by rintro ⟨⟩) (by rintro ⟨a, ⟨⟩, -⟩)
  | ok a => exact ⟨fun h ↦ ⟨a, rfl, h⟩, fun ⟨_, ha, h⟩ ↦ by cases ha; exact h⟩

theorem bind_const_eq_ok {β : Type} {x : Except ε Unit} {y : Except ε β} {b : β} :
    (x >>= fun _ ↦ y) = .ok b ↔ x = .ok () ∧ y = .ok b := by
  rw [bind_eq_ok]
  exact ⟨fun ⟨_, hx, hy⟩ ↦ ⟨hx, hy⟩, fun ⟨hx, hy⟩ ↦ ⟨(), hx, hy⟩⟩

theorem map_eq_ok {x : Except ε α} {f : α → β} {b : β} :
    x.map f = .ok b ↔ ∃ a, x = .ok a ∧ f a = b := by
  cases x with
  | error e => exact iff_of_false (by rintro ⟨⟩) (by rintro ⟨a, ⟨⟩, -⟩)
  | ok a => exact ⟨fun h ↦ ⟨a, rfl, Except.ok.inj h⟩, fun ⟨_, ha, h⟩ ↦ by cases ha; rw [← h]; rfl⟩

theorem pure_eq_ok {a b : α} : (pure a : Except ε α) = .ok b ↔ a = b :=
  ⟨fun h ↦ by cases h; rfl, fun h ↦ by rw [h]; rfl⟩

theorem guard_eq_ok {p : Prop} [Decidable p] {a b : α} {e : ε} :
    (if p then Except.ok a else .error e) = .ok b ↔ p ∧ a = b := by
  by_cases hp : p <;> simp [hp]

theorem guard_not_eq_ok {p : Prop} [Decidable p] {x : Except ε α} {b : α} {e : ε} :
    (if p then .error e else x) = .ok b ↔ ¬p ∧ x = .ok b := by
  by_cases hp : p <;> simp [hp]

theorem toOption_eq_some {x : Except ε α} {a : α} : x.toOption = some a ↔ x = .ok a := by
  cases x <;> simp [Except.toOption]

theorem toOption_eq_none {x : Except ε α} : x.toOption = none ↔ ∃ e, x = .error e := by
  cases x <;> simp [Except.toOption]

end Except
