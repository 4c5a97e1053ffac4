import Mathlib.Data.List.Sort

/-!
# Sorting with a comparison function

What a sort makes of a comparison function is settled only where the function is consistent on the
entries. Elsewhere nothing more is known than that the entries stay.
-/

universe u

namespace Comparator

variable {α : Type u}

theorem pairwise_insertionSort_of_mem (r : α → α → Prop) [DecidableRel r] {l : List α}
    (htotal : ∀ a ∈ l, ∀ b ∈ l, r a b ∨ r b a)
    (htrans : ∀ a ∈ l, ∀ b ∈ l, ∀ c ∈ l, r a b → r b c → r a c) :
    (l.insertionSort r).Pairwise r := by
  let r' : {a // a ∈ l} → {a // a ∈ l} → Prop := fun a b ↦ r a b
  have : Std.Total r' := ⟨fun a b ↦ htotal a a.2 b b.2⟩
  have : IsTrans _ r' := ⟨fun a b c ↦ htrans a a.2 b b.2 c c.2⟩
  have hsort : (l.attach.insertionSort r').map Subtype.val = l.insertionSort r := by
    rw [List.map_insertionSort r' r Subtype.val l.attach fun _ _ _ _ ↦ Iff.rfl,
      List.attach_map_subtype_val]
  rw [← hsort, List.pairwise_map]
  exact List.pairwise_insertionSort r' _

/-- The comparison function is that of an order on the entries of the list. -/
structure Consistent (compare : α → α → ℤ) (l : List α) : Prop where
  neg_iff : ∀ a ∈ l, ∀ b ∈ l, compare a b < 0 ↔ 0 < compare b a
  trans : ∀ a ∈ l, ∀ b ∈ l, ∀ c ∈ l, compare a b ≤ 0 → compare b c ≤ 0 → compare a c ≤ 0

theorem Consistent.total {compare : α → α → ℤ} {l : List α} (h : Consistent compare l) {a b : α}
    (ha : a ∈ l) (hb : b ∈ l) : compare a b ≤ 0 ∨ compare b a ≤ 0 := by
  rcases le_or_gt (compare a b) 0 with hle | hgt
  · exact .inl hle
  · exact .inr ((h.neg_iff b hb a ha).mpr hgt).le

structure ArraySort (α : Type u) where
  sort : (α → α → ℤ) → List α → List α
  perm : ∀ compare l, (sort compare l).Perm l
  pairwise : ∀ compare l, Consistent compare l →
    (sort compare l).Pairwise fun a b ↦ compare a b ≤ 0

def insertion : ArraySort α where
  sort compare l := l.insertionSort fun a b ↦ compare a b ≤ 0
  perm _ l := List.perm_insertionSort _ l
  pairwise _ _ h := pairwise_insertionSort_of_mem _ (fun _ ha _ hb ↦ h.total ha hb) h.trans

end Comparator
