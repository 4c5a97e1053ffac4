import Mathlib.Algebra.Order.Ring.Int
import StellarDonations.Concurrency.Interleaving

/-!
# Look up, act, record

A common way to do something once per key: look for a record of it, act when there is none, and
record it. Several workers follow this protocol at the same time. For each key a worker is outside,
has looked and found no record, or has acted and not recorded it yet; `live` counts the actions that
were not undone.

Nothing in the protocol itself keeps two workers from looking before either records. The invariant
`Once` needs two things of every step: a worker looks in vain for a key only while no other worker
is between its look and its record, and a worker that has acted goes outside only by recording or by
undoing the action. Under these every key is acted on at most once (`Once.step`).
-/

namespace Concurrency.PayOnce

variable {ι κ : Type*} [DecidableEq ι] [DecidableEq κ]

/-- How far a worker has got, and for which key. -/
inductive Phase (κ : Type*) where
  | outside
  | looked (k : κ)
  | acted (k : κ)

/-- The worker is between its look for `k` and its record of `k`. -/
def Phase.Inside (k : κ) : Phase κ → Prop
  | .outside => False
  | .looked k' => k' = k
  | .acted k' => k' = k

instance decidableInside (k : κ) : DecidablePred (Phase.Inside k)
  | .outside => inferInstanceAs (Decidable False)
  | .looked k' => inferInstanceAs (Decidable (k' = k))
  | .acted k' => inferInstanceAs (Decidable (k' = k))

omit [DecidableEq κ] in
@[simp] theorem inside_outside (k : κ) : ¬(Phase.outside : Phase κ).Inside k := id

omit [DecidableEq κ] in
@[simp] theorem inside_looked {k k' : κ} : (Phase.looked k').Inside k ↔ k' = k := Iff.rfl

/-- What is recorded, how many actions are live for each key, and the phase of every worker. -/
structure State (ι κ : Type*) where
  recorded : κ → Prop
  live : κ → ℤ
  phase : ι → Phase κ

/-- What a step of worker `i` may do. -/
inductive Step (i : ι) (s : State ι κ) : State ι κ → Prop
  /-- A worker that has not acted moves outside, or stays there. -/
  | leave (h : ∀ k, s.phase i ≠ .acted k) :
      Step i s { s with phase := Function.update s.phase i .outside }
  /-- Nothing happens that concerns the protocol. -/
  | stay : Step i s s
  /-- The look is in vain, and no other worker is inside. -/
  | look (k : κ) (hrec : ¬s.recorded k) (halone : Alone (Phase.Inside k) s.phase i)
      (hout : s.phase i = .outside) :
      Step i s { s with phase := Function.update s.phase i (.looked k) }
  /-- The worker acts. -/
  | act (k : κ) (h : s.phase i = .looked k) :
      Step i s { s with
        live := Function.update s.live k (s.live k + 1)
        phase := Function.update s.phase i (.acted k) }
  | undo (k : κ) (h : s.phase i = .acted k) :
      Step i s { s with
        live := Function.update s.live k (s.live k - 1)
        phase := Function.update s.phase i .outside }
  | record (k : κ) (h : s.phase i = .acted k) :
      Step i s { s with
        recorded := fun k' ↦ k' = k ∨ s.recorded k'
        phase := Function.update s.phase i .outside }

structure Once (s : State ι κ) : Prop where
  /-- At most one worker is inside for each key. -/
  alone : ∀ k, AtMostOne (Phase.Inside k) s.phase
  /-- No worker is inside for a recorded key. -/
  settled : ∀ k, s.recorded k → ∀ i, ¬(s.phase i).Inside k
  le_one : ∀ k, s.live k ≤ 1
  /-- A live action is recorded, or its worker is about to record it. -/
  due : ∀ k, ¬s.recorded k → (∀ i, s.phase i ≠ .acted k) → s.live k ≤ 0

omit [DecidableEq ι] [DecidableEq κ] in
theorem Once.live_le_zero {s : State ι κ} (h : Once s) {i : ι} {k : κ}
    (hi : s.phase i = .looked k) :
    s.live k ≤ 0 := by
  have hin : (s.phase i).Inside k := by rw [hi]; exact rfl
  refine h.due k (fun hrec ↦ h.settled k hrec i hin) fun j hj ↦ ?_
  have hjn : (s.phase j).Inside k := by rw [hj]; exact rfl
  obtain rfl := h.alone k i j hin hjn
  rw [hi] at hj
  cases hj

section Moves

variable {phase : ι → Phase κ} {i : ι} {p : Phase κ} {k : κ}

omit [DecidableEq κ] in
theorem not_inside_update (h : ∀ j, ¬(phase j).Inside k) (hp : ¬p.Inside k) :
    ∀ j, ¬(Function.update phase i p j).Inside k :=
  (Function.forall_update_iff phase fun _ p ↦ ¬p.Inside k).mpr ⟨hp, fun j _ ↦ h j⟩

omit [DecidableEq κ] in
theorem ne_acted_of_update (h : ∀ j, Function.update phase i p j ≠ .acted k)
    (hi : phase i ≠ .acted k)
    (j : ι) : phase j ≠ .acted k := by
  rcases eq_or_ne j i with rfl | hj
  · exact hi
  · intro hacted
    refine h j ?_
    rw [Function.update_of_ne hj, hacted]

end Moves

section Preservation

variable {s : State ι κ} {i : ι}

omit [DecidableEq κ] in
theorem Once.outside (h : Once s) (i : ι) :
    (∀ k, AtMostOne (Phase.Inside k) (Function.update s.phase i .outside)) ∧
      ∀ k, s.recorded k → ∀ j, ¬(Function.update s.phase i .outside j).Inside k :=
  ⟨fun k ↦ (h.alone k).update fun hin ↦ absurd hin (inside_outside k),
    fun k hrec ↦ not_inside_update (h.settled k hrec) (inside_outside k)⟩

omit [DecidableEq κ] in
theorem Once.leave (h : Once s) (hacted : ∀ k, s.phase i ≠ .acted k) :
    Once { s with phase := Function.update s.phase i .outside } := by
  obtain ⟨halone, hsettled⟩ := h.outside i
  refine ⟨halone, hsettled, h.le_one, fun k hrec hj ↦ ?_⟩
  exact h.due k hrec (ne_acted_of_update hj (hacted k))

omit [DecidableEq κ] in
theorem Once.look {k : κ} (h : Once s) (hrec : ¬s.recorded k)
    (halone : Alone (Phase.Inside k) s.phase i) (hout : s.phase i = .outside) :
    Once { s with phase := Function.update s.phase i (.looked k) } := by
  refine ⟨fun k' ↦ (h.alone k').update fun hin ↦ ?_, fun k' hrec' ↦ ?_, h.le_one,
    fun k' hrec' hj ↦ ?_⟩
  · obtain rfl := inside_looked.mp hin
    exact .inr halone
  · refine not_inside_update (h.settled k' hrec') fun hin ↦ ?_
    obtain rfl := inside_looked.mp hin
    exact hrec hrec'
  · refine h.due k' hrec' (ne_acted_of_update hj ?_)
    rw [hout]
    rintro ⟨⟩

theorem Once.act {k : κ} (h : Once s) (hlooked : s.phase i = .looked k) :
    Once { s with
      live := Function.update s.live k (s.live k + 1)
      phase := Function.update s.phase i (.acted k) } := by
  have hzero := h.live_le_zero hlooked
  have hin : ∀ k', (Phase.acted k).Inside k' → (s.phase i).Inside k' := by
    intro k' hk'
    rw [hlooked]
    exact hk'
  refine ⟨fun k' ↦ (h.alone k').update fun hk' ↦ .inl (hin k' hk'), fun k' hrec ↦ ?_,
    fun k' ↦ ?_, fun k' hrec hj ↦ ?_⟩
  · exact not_inside_update (h.settled k' hrec) fun hk' ↦ h.settled k' hrec i (hin k' hk')
  · dsimp only
    rcases eq_or_ne k' k with rfl | hk
    · rw [Function.update_self]
      omega
    · rw [Function.update_of_ne hk]
      exact h.le_one k'
  · dsimp only at hj ⊢
    rcases eq_or_ne k' k with rfl | hk
    · exact absurd (Function.update_self i _ s.phase) (hj i)
    · rw [Function.update_of_ne hk]
      refine h.due k' hrec (ne_acted_of_update hj ?_)
      rw [hlooked]
      rintro ⟨⟩

theorem Once.undo {k : κ} (h : Once s) (hacted : s.phase i = .acted k) :
    Once { s with
      live := Function.update s.live k (s.live k - 1)
      phase := Function.update s.phase i .outside } := by
  obtain ⟨halone, hsettled⟩ := h.outside i
  have hle := h.le_one k
  refine ⟨halone, hsettled, fun k' ↦ ?_, fun k' hrec hj ↦ ?_⟩
  · dsimp only
    rcases eq_or_ne k' k with rfl | hk
    · rw [Function.update_self]
      omega
    · rw [Function.update_of_ne hk]
      exact h.le_one k'
  · dsimp only at hj ⊢
    rcases eq_or_ne k' k with rfl | hk
    · rw [Function.update_self]
      omega
    · rw [Function.update_of_ne hk]
      refine h.due k' hrec (ne_acted_of_update hj ?_)
      rw [hacted]
      exact fun hk' ↦ hk (Phase.acted.inj hk').symm

omit [DecidableEq κ] in
theorem Once.record {k : κ} (h : Once s) (hacted : s.phase i = .acted k) :
    Once { s with
      recorded := fun k' ↦ k' = k ∨ s.recorded k'
      phase := Function.update s.phase i .outside } := by
  obtain ⟨halone, hsettled⟩ := h.outside i
  refine ⟨halone, fun k' hrec j ↦ ?_, h.le_one, fun k' hrec hj ↦ ?_⟩
  · dsimp only
    rcases hrec with rfl | hrec
    · rcases eq_or_ne j i with rfl | hji
      · rw [Function.update_self]
        exact inside_outside k'
      -- the worker that records was the only one inside
      · rw [Function.update_of_ne hji]
        intro hin
        exact hji (h.alone k' j i hin (by rw [hacted]; exact rfl))
    · exact hsettled k' hrec j
  · dsimp only at hrec hj
    refine h.due k' (fun hk' ↦ hrec (.inr hk')) (ne_acted_of_update hj ?_)
    rw [hacted]
    exact fun hk' ↦ hrec (.inl (Phase.acted.inj hk').symm)

/-- **Every step keeps the invariant.** -/
theorem Once.step {s' : State ι κ} (h : Once s) (hstep : Step i s s') : Once s' := by
  cases hstep with
  | stay => exact h
  | leave hacted => exact h.leave hacted
  | look k hrec halone hout => exact h.look hrec halone hout
  | act k hlooked => exact h.act hlooked
  | undo k hacted => exact h.undo hacted
  | record k hacted => exact h.record hacted

end Preservation

omit [DecidableEq ι] [DecidableEq κ] in
theorem once_initial {s : State ι κ} (hphase : ∀ i, s.phase i = .outside)
    (hlive : ∀ k, s.live k ≤ 0) : Once s where
  alone k i j hi _ := by
    rw [hphase i] at hi
    exact absurd hi (inside_outside k)
  settled k _ i := by
    rw [hphase i]
    exact inside_outside k
  le_one k := (hlive k).trans Int.one_nonneg
  due k _ _ := hlive k

end Concurrency.PayOnce
