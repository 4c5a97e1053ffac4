import Mathlib.Data.Set.Basic
import StellarDonations.Concurrency.Interleaving

/-!
# Pay, then mark

Items are waiting to be paid. A worker takes up some of them, those that it reads as waiting, pays
them one by one and marks each as paid afterwards, by a statement of its own; between the payment
and the statement it owes the mark. A worker that stops there owes it for good.

## What the invariant needs

Taking an item up and owing its mark are not visible in the marks, so nothing in the protocol keeps
a second worker from taking up the same item. `Sound` needs of a worker that what it takes up waits,
which is its own check, and that it is `Free`: nobody else has it in line, and nobody owes a mark
for it. From there on the worker may pay, mark and close what it has in line without looking at the
marks again. No item is then paid twice, and the marks tell the truth.
-/

namespace Concurrency.PayThenMark

variable {ι κ : Type*}

/-- What is stored about an item. An item that does not exist is closed. -/
inductive Mark where
  | waiting
  | paid
  | closed
  deriving DecidableEq

/-- The marks, how many times each item has been paid, and for each worker the items it has taken up
and not yet dealt with and those whose marks it owes. -/
structure State (ι κ : Type*) where
  mark : κ → Mark
  payments : κ → ℕ
  line : ι → Set κ
  owed : ι → Set κ

namespace State

/-- Nobody owes a mark for the item, and no other worker than `i` has it in line. -/
def Free (s : State ι κ) (i : ι) (k : κ) : Prop :=
  (∀ j, k ∉ s.owed j) ∧ ∀ j, j ≠ i → k ∉ s.line j

/-- An item is free for a worker that owes nothing itself, when no other worker has the item in line
or owes its mark. -/
theorem Free.of_alone {γ : Type*} {s : State ι κ} {call : ι → γ} {i : ι} {k : κ} {p : γ → Prop}
    (h : Alone p call i) (hmine : k ∉ s.owed i) (hline : ∀ j, k ∈ s.line j → p (call j))
    (howed : ∀ j, k ∈ s.owed j → p (call j)) : s.Free i k := by
  refine ⟨fun j hj ↦ ?_, fun j hji hj ↦ h j hji (hline j hj)⟩
  rcases eq_or_ne j i with rfl | hji
  · exact hmine hj
  · exact h j hji (howed j hj)

variable [DecidableEq ι]

/-- The state after a step of worker `i`. -/
def next (s : State ι κ) (i : ι) (mark : κ → Mark) (payments : κ → ℕ) (line owed : Set κ) :
    State ι κ where
  mark := mark
  payments := payments
  line := Function.update s.line i line
  owed := Function.update s.owed i owed

variable {s : State ι κ} {i j : ι} {mark : κ → Mark} {payments : κ → ℕ} {line owed : Set κ} {k : κ}

theorem mem_line_next :
    k ∈ (s.next i mark payments line owed).line j ↔
      j = i ∧ k ∈ line ∨ j ≠ i ∧ k ∈ s.line j := by
  rcases eq_or_ne j i with rfl | hj
  · simp [next]
  · simp [next, hj]

theorem mem_owed_next :
    k ∈ (s.next i mark payments line owed).owed j ↔
      j = i ∧ k ∈ owed ∨ j ≠ i ∧ k ∈ s.owed j := by
  rcases eq_or_ne j i with rfl | hj
  · simp [next]
  · simp [next, hj]

/-- A step that leaves less in line and owes no more than before frees what was free. -/
theorem Free.next (h : s.Free j k) (hline : k ∈ line → j = i ∨ k ∈ s.line i)
    (howed : k ∈ owed → k ∈ s.owed i) : (s.next i mark payments line owed).Free j k := by
  refine ⟨fun l hl ↦ ?_, fun l hlj hl ↦ ?_⟩
  · rcases mem_owed_next.mp hl with ⟨rfl, hk⟩ | ⟨-, hk⟩
    · exact h.1 l (howed hk)
    · exact h.1 l hk
  · rcases mem_line_next.mp hl with ⟨rfl, hk⟩ | ⟨-, hk⟩
    · rcases hline hk with rfl | hk'
      · exact hlj rfl
      · exact h.2 l hlj hk'
    · exact h.2 l hlj hk

end State

structure Sound (s : State ι κ) : Prop where
  once : ∀ k, s.payments k ≤ 1
  paid : ∀ k, s.mark k = .paid → s.payments k = 1
  closed : ∀ k, s.mark k = .closed → s.payments k = 0
  owed : ∀ i, ∀ k ∈ s.owed i, s.payments k = 1
  /-- An item that waits has been paid only when its mark is owed. -/
  waiting : ∀ k, s.mark k = .waiting → (∀ i, k ∉ s.owed i) → s.payments k = 0
  /-- What a worker has in line waits, and is in nobody else's hands. -/
  line : ∀ i, ∀ k ∈ s.line i, s.mark k = .waiting ∧ s.Free i k

theorem sound_initial {s : State ι κ} (hmark : ∀ k, s.mark k ≠ .paid)
    (hpayments : ∀ k, s.payments k = 0) (hline : ∀ i, s.line i = ∅) (howed : ∀ i, s.owed i = ∅) :
    Sound s := by
  refine ⟨fun k ↦ ?_, fun k hk ↦ absurd hk (hmark k), fun k _ ↦ hpayments k, fun i k hk ↦ ?_,
    fun k _ _ ↦ hpayments k, fun i k hk ↦ ?_⟩
  · rw [hpayments k]
    exact Nat.zero_le 1
  · rw [howed i] at hk
    exact absurd hk (Set.notMem_empty k)
  · rw [hline i] at hk
    exact absurd hk (Set.notMem_empty k)

theorem Sound.unpaid {s : State ι κ} (h : Sound s) {i : ι} {k : κ} (hk : k ∈ s.line i) :
    s.payments k = 0 :=
  h.waiting k (h.line i k hk).1 (h.line i k hk).2.1

variable [DecidableEq ι]

theorem Sound.owed_next {s : State ι κ} (h : Sound s) {i j : ι} {mark : κ → Mark}
    {line owes : Set κ} (hless : owes ⊆ s.owed i) {k : κ}
    (hk : k ∈ (s.next i mark s.payments line owes).owed j) : s.payments k = 1 := by
  rcases State.mem_owed_next.mp hk with ⟨rfl, hin⟩ | ⟨-, hin⟩
  · exact h.owed j k (hless hin)
  · exact h.owed j k hin

theorem not_owed_of_next {s : State ι κ} {i : ι} {mark : κ → Mark} {payments : κ → ℕ}
    {line owes : Set κ} {k : κ} (howed : ∀ j, k ∉ (s.next i mark payments line owes).owed j)
    (hgone : k ∈ s.owed i → k ∈ owes) (j : ι) : k ∉ s.owed j := by
  intro hj
  rcases eq_or_ne j i with rfl | hji
  · exact howed j (State.mem_owed_next.mpr (.inl ⟨rfl, hgone hj⟩))
  · exact howed j (State.mem_owed_next.mpr (.inr ⟨hji, hj⟩))

/-- **Taking up.** A worker goes on with what it had in line, or takes up items that wait and are
free. It may drop any of them. -/
theorem Sound.take {s : State ι κ} (h : Sound s) (i : ι) {line : Set κ}
    (hline : ∀ k ∈ line, k ∈ s.line i ∨ s.mark k = .waiting ∧ s.Free i k) :
    Sound (s.next i s.mark s.payments line (s.owed i)) := by
  have hmine : ∀ k ∈ line, s.mark k = .waiting ∧ s.Free i k := fun k hk ↦
    (hline k hk).elim (h.line i k) id
  refine ⟨h.once, h.paid, h.closed, fun j k hk ↦ h.owed_next subset_rfl hk,
    fun k hk howed ↦ h.waiting k hk (not_owed_of_next howed id), fun j k hk ↦ ?_⟩
  rcases State.mem_line_next.mp hk with ⟨rfl, hin⟩ | ⟨hji, hin⟩
  · exact ⟨(hmine k hin).1, (hmine k hin).2.next (fun _ ↦ .inl rfl) id⟩
  · refine ⟨(h.line j k hin).1, (h.line j k hin).2.next (fun hki ↦ ?_) id⟩
    exact absurd hin ((hmine k hki).2.2 j hji)

theorem Sound.appear {s : State ι κ} (h : Sound s) {i : ι} {mark : κ → Mark}
    (hmark : ∀ k, mark k = s.mark k ∨ s.mark k = .closed ∧ mark k = .waiting) :
    Sound (s.next i mark s.payments (s.line i) (s.owed i)) := by
  refine ⟨h.once, fun k hk ↦ ?_, fun k hk ↦ ?_, fun j k hk ↦ h.owed_next subset_rfl hk,
    fun k hk howed ↦ ?_, fun j k hk ↦ ?_⟩
  · rcases hmark k with hsame | ⟨-, hnew⟩
    · exact h.paid k (hsame.symm.trans hk)
    · exact absurd (hnew.symm.trans hk) (by decide)
  · rcases hmark k with hsame | ⟨-, hnew⟩
    · exact h.closed k (hsame.symm.trans hk)
    · exact absurd (hnew.symm.trans hk) (by decide)
  · rcases hmark k with hsame | ⟨hold, -⟩
    · exact h.waiting k (hsame.symm.trans hk) (not_owed_of_next howed id)
    · exact h.closed k hold
  · have hj : k ∈ s.line j := by
      rcases State.mem_line_next.mp hk with ⟨rfl, hin⟩ | ⟨-, hin⟩
      · exact hin
      · exact hin
    obtain ⟨hwaiting, hfree⟩ := h.line j k hj
    refine ⟨?_, hfree.next .inr id⟩
    rcases hmark k with hsame | ⟨-, hnew⟩
    · exact hsame.trans hwaiting
    · exact hnew

/-- **Closing.** Items that wait and are free may be closed; the worker has them in line no more. -/
theorem Sound.close {s : State ι κ} (h : Sound s) (i : ι) {mark : κ → Mark} {line : Set κ}
    (hline : line ⊆ s.line i)
    (hmark : ∀ k, mark k = s.mark k ∨
      (s.mark k = .waiting ∧ s.Free i k ∧ k ∉ line) ∧ mark k = .closed) :
    Sound (s.next i mark s.payments line (s.owed i)) := by
  refine ⟨h.once, fun k hk ↦ ?_, fun k hk ↦ ?_, fun j k hk ↦ h.owed_next subset_rfl hk,
    fun k hk howed ↦ ?_, fun j k hk ↦ ?_⟩
  · rcases hmark k with hsame | ⟨-, hnew⟩
    · exact h.paid k (hsame.symm.trans hk)
    · exact absurd (hnew.symm.trans hk) (by decide)
  · rcases hmark k with hsame | ⟨⟨hwaiting, hfree, -⟩, -⟩
    · exact h.closed k (hsame.symm.trans hk)
    · exact h.waiting k hwaiting hfree.1
  · rcases hmark k with hsame | ⟨-, hnew⟩
    · exact h.waiting k (hsame.symm.trans hk) (not_owed_of_next howed id)
    · exact absurd (hnew.symm.trans hk) (by decide)
  · -- what is in line somewhere has not been closed
    have hj : k ∈ s.line j ∧ mark k = s.mark k := by
      rcases State.mem_line_next.mp hk with ⟨rfl, hin⟩ | ⟨hji, hin⟩
      · exact ⟨hline hin, (hmark k).resolve_right fun hnew ↦ hnew.1.2.2 hin⟩
      · exact ⟨hin, (hmark k).resolve_right fun hnew ↦ hnew.1.2.1.2 j hji hin⟩
    obtain ⟨hwaiting, hfree⟩ := h.line j k hj.1
    exact ⟨hj.2.trans hwaiting, hfree.next (fun hki ↦ .inr (hline hki)) id⟩

/-- **Paying.** A worker pays items that it has in line, each once, and then owes their marks. -/
theorem Sound.pay {s : State ι κ} (h : Sound s) (i : ι) {K line : Set κ} {payments : κ → ℕ}
    (hK : K ⊆ s.line i) (hline : line ⊆ s.line i \ K)
    (hnew : ∀ k ∈ K, payments k = s.payments k + 1)
    (hold : ∀ k ∉ K, payments k = s.payments k) :
    Sound (s.next i s.mark payments line (K ∪ s.owed i)) := by
  have hone : ∀ k ∈ K, payments k = 1 := by
    intro k hk
    rw [hnew k hk, h.unpaid (hK hk)]
  have hwaits : ∀ k ∈ K, s.mark k = .waiting := fun k hk ↦ (h.line i k (hK hk)).1
  refine ⟨fun k ↦ ?_, fun k hk ↦ ?_, fun k hk ↦ ?_, fun j k hk ↦ ?_, fun k hk howed ↦ ?_,
    fun j k hk ↦ ?_⟩
  · by_cases hkK : k ∈ K
    · exact (hone k hkK).le
    · exact (hold k hkK).le.trans (h.once k)
  · by_cases hkK : k ∈ K
    · exact hone k hkK
    · exact (hold k hkK).trans (h.paid k hk)
  · have hkK : k ∉ K := fun hkK ↦ absurd ((hwaits k hkK).symm.trans hk) (by decide)
    exact (hold k hkK).trans (h.closed k hk)
  · by_cases hkK : k ∈ K
    · exact hone k hkK
    · refine (hold k hkK).trans ?_
      rcases State.mem_owed_next.mp hk with ⟨rfl, hin⟩ | ⟨-, hin⟩
      · exact h.owed j k (hin.resolve_left hkK)
      · exact h.owed j k hin
  · have hkK : k ∉ K := fun hkK ↦ howed i (State.mem_owed_next.mpr (.inl ⟨rfl, .inl hkK⟩))
    exact (hold k hkK).trans (h.waiting k hk (not_owed_of_next howed .inr))
  · -- what is still in line, here or elsewhere, is none of the items that were paid
    have hj : k ∈ s.line j ∧ k ∉ K := by
      rcases State.mem_line_next.mp hk with ⟨rfl, hin⟩ | ⟨hji, hin⟩
      · exact hline hin
      · exact ⟨hin, fun hkK ↦ (h.line i k (hK hkK)).2.2 j hji hin⟩
    obtain ⟨hwaiting, hfree⟩ := h.line j k hj.1
    exact ⟨hwaiting, hfree.next (fun hki ↦ .inr (hline hki).1) fun hki ↦ hki.resolve_left hj.2⟩

theorem Sound.payOne [DecidableEq κ] {s : State ι κ} (h : Sound s) {i : ι} {k : κ} {line : Set κ}
    {payments : κ → ℕ} (hk : k ∈ s.line i) (hline : ∀ l ∈ line, l ∈ s.line i ∧ l ≠ k)
    (hpayments : ∀ l, payments l = s.payments l + if k = l then 1 else 0) :
    Sound (s.next i s.mark payments line ({k} ∪ s.owed i)) := by
  refine h.pay i (fun l hl ↦ ?_) hline (fun l hl ↦ ?_) fun l hl ↦ ?_
  · rw [Set.mem_singleton_iff.mp hl]
    exact hk
  · rw [hpayments, if_pos (Set.mem_singleton_iff.mp hl).symm]
  · rw [hpayments, if_neg fun heq ↦ hl heq.symm]
    rfl

/-- **Marking.** A worker marks items it owes a mark for, and owes less afterwards; what it owes no
longer does not wait any more. -/
theorem Sound.mark {s : State ι κ} (h : Sound s) (i : ι) {mark : κ → Mark} {line owes : Set κ}
    (hline : line ⊆ s.line i) (hmark : ∀ k, mark k = s.mark k ∨ k ∈ s.owed i ∧ mark k = .paid)
    (hless : owes ⊆ s.owed i) (hgone : ∀ k ∈ s.owed i, k ∉ owes → mark k ≠ .waiting) :
    Sound (s.next i mark s.payments line owes) := by
  refine ⟨h.once, fun k hk ↦ ?_, fun k hk ↦ ?_, fun j k hk ↦ h.owed_next hless hk,
    fun k hk howed ↦ ?_, fun j k hk ↦ ?_⟩
  · rcases hmark k with hsame | ⟨howed, -⟩
    · exact h.paid k (hsame.symm.trans hk)
    · exact h.owed i k howed
  · rcases hmark k with hsame | ⟨-, hnew⟩
    · exact h.closed k (hsame.symm.trans hk)
    · exact absurd (hnew.symm.trans hk) (by decide)
  · have hold : s.mark k = .waiting := by
      rcases hmark k with hsame | ⟨-, hnew⟩
      · exact hsame.symm.trans hk
      · exact absurd (hnew.symm.trans hk) (by decide)
    refine h.waiting k hold (not_owed_of_next howed fun hi ↦ ?_)
    by_contra hnot
    exact hgone k hi hnot hk
  · have hj : k ∈ s.line j := by
      rcases State.mem_line_next.mp hk with ⟨rfl, hin⟩ | ⟨-, hin⟩
      · exact hline hin
      · exact hin
    obtain ⟨hwaiting, hfree⟩ := h.line j k hj
    refine ⟨?_, hfree.next (fun hki ↦ .inr (hline hki)) fun hki ↦ hless hki⟩
    rcases hmark k with hsame | ⟨howed, -⟩
    · exact hsame.trans hwaiting
    · exact absurd howed (hfree.1 i)

end Concurrency.PayThenMark
