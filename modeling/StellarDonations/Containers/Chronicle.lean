import Mathlib.Data.List.Basic

/-!
# Entries in view of the entries before them

A chronicle is a list that only grows at its end. What must hold of an entry usually depends on the
entries that were there when it was added: `Each P` says that every entry meets `P` with those.
Adding an entry asks for `P` of that entry alone (`each_concat`).
-/

namespace Chronicle

variable {α β : Type*} {P Q : List α → α → Prop} {log log' : List α} {a : α}

/-- Every entry meets `P` with the entries before it. -/
def Each (P : List α → α → Prop) (log : List α) : Prop :=
  ∀ pre a post, log = pre ++ a :: post → P pre a

/-- **Adding an entry.** -/
theorem each_concat : Each P (log ++ [a]) ↔ Each P log ∧ P log a := by
  constructor
  · intro h
    refine ⟨fun pre b post heq ↦ h pre b (post ++ [a]) ?_, h log a [] rfl⟩
    rw [heq, List.append_assoc, List.cons_append]
  · rintro ⟨hlog, ha⟩ pre b post heq
    rcases List.eq_nil_or_concat post with rfl | ⟨post, c, rfl⟩
    · obtain ⟨hpre, hb⟩ := List.append_inj' heq rfl
      rw [← hpre, ← List.singleton_inj.mp hb]
      exact ha
    · rw [List.concat_eq_append, ← List.cons_append, ← List.append_assoc] at heq
      exact hlog pre b post (List.append_inj' heq rfl).1

theorem each_of_forall_mem (h : ∀ a ∈ log, ∀ pre, P pre a) : Each P log := by
  intro pre a post heq
  refine h a ?_ pre
  rw [heq]
  exact List.mem_append_right pre List.mem_cons_self

end Chronicle
