import Mathlib.Data.List.Nodup

/-!
# Leases

Resources are leased to holders. The table of the leases that have not been given back is exclusive
when no resource occurs twice in it, which stays so as long as only resources that nobody holds are
granted.
-/

namespace Concurrency

variable {ι κ : Type*}

/-- A resource in the hands of a holder. -/
structure Lease (ι κ : Type*) where
  holder : ι
  resource : κ
  deriving DecidableEq

namespace Lease

def Held (ls : List (Lease ι κ)) (r : κ) : Prop := ∃ l ∈ ls, l.resource = r

/-- Every resource is leased to at most one holder. -/
def Exclusive (ls : List (Lease ι κ)) : Prop := (ls.map (·.resource)).Nodup

instance decidableExclusive [DecidableEq κ] (ls : List (Lease ι κ)) : Decidable (Exclusive ls) :=
  inferInstanceAs (Decidable (List.Nodup _))

def giveBack [DecidableEq ι] [DecidableEq κ] (ls : List (Lease ι κ)) (l : Lease ι κ) :
    List (Lease ι κ) := ls.filter (· ≠ l)

variable {ls : List (Lease ι κ)} {l : Lease ι κ} {r r' : κ}

theorem not_held_nil : ¬Held ([] : List (Lease ι κ)) r := fun ⟨_, hl, _⟩ ↦ nomatch hl

theorem exclusive_nil : Exclusive ([] : List (Lease ι κ)) := List.nodup_nil

theorem held_grant {i : ι} : Held (ls ++ [⟨i, r⟩]) r' ↔ Held ls r' ∨ r = r' := by
  constructor
  · rintro ⟨l, hl, rfl⟩
    rcases List.mem_append.mp hl with hl | hl
    · exact .inl ⟨l, hl, rfl⟩
    · exact .inr (congrArg Lease.resource (List.mem_singleton.mp hl)).symm
  · rintro (⟨l, hl, rfl⟩ | rfl)
    · exact ⟨l, List.mem_append_left _ hl, rfl⟩
    · exact ⟨⟨i, r⟩, List.mem_append_right _ (List.mem_singleton.mpr rfl), rfl⟩

theorem Exclusive.grant (h : Exclusive ls) (i : ι) (hr : ¬Held ls r) :
    Exclusive (ls ++ [⟨i, r⟩]) := by
  rw [Exclusive, List.map_append]
  refine List.Nodup.append h (List.nodup_singleton r) fun r' hr' hmem ↦ hr ?_
  obtain ⟨l, hl, rfl⟩ := List.mem_map.mp hr'
  exact ⟨l, hl, List.mem_singleton.mp hmem⟩

section GiveBack

variable [DecidableEq ι] [DecidableEq κ]

theorem mem_giveBack {l' : Lease ι κ} : l' ∈ giveBack ls l ↔ l' ∈ ls ∧ l' ≠ l := by
  rw [giveBack, List.mem_filter, decide_eq_true_iff]

theorem Held.of_giveBack (h : Held (giveBack ls l) r) : Held ls r := by
  obtain ⟨l', hl', hr⟩ := h
  exact ⟨l', (mem_giveBack.mp hl').1, hr⟩

theorem Exclusive.giveBack (h : Exclusive ls) (l : Lease ι κ) : Exclusive (giveBack ls l) :=
  List.Nodup.sublist (List.Sublist.map _ List.filter_sublist) h

theorem Exclusive.not_held_giveBack (h : Exclusive ls) (hl : l ∈ ls) :
    ¬Held (Lease.giveBack ls l) l.resource := by
  rintro ⟨l', hl', hr⟩
  obtain ⟨hmem, hne⟩ := mem_giveBack.mp hl'
  exact hne (List.inj_on_of_nodup_map h hmem hl hr)

end GiveBack

end Lease

end Concurrency
