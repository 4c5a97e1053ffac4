import Mathlib.Data.List.Basic

/-!
# Lists whose entries are replaced

What is in a list after the entry at one index was replaced: the new entry, and all others.
-/

namespace Slots

variable {α : Type*} {l : List α} {n : ℕ} {a old new : α}

theorem mem_set_of_ne (hmem : a ∈ l) (hget : l[n]? = some old) (hne : a ≠ old) :
    a ∈ l.set n new := by
  obtain ⟨m, hm⟩ := List.mem_iff_getElem?.mp hmem
  have hmn : n ≠ m := by
    rintro rfl
    exact hne (Option.some.inj (hm.symm.trans hget))
  exact List.mem_iff_getElem?.mpr ⟨m, by rw [List.getElem?_set_ne hmn, hm]⟩

theorem mem_set_self (hget : l[n]? = some old) : new ∈ l.set n new := by
  obtain ⟨hn, -⟩ := List.getElem?_eq_some_iff.mp hget
  exact List.mem_set hn new

end Slots
