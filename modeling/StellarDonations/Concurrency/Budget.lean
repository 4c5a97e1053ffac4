import Mathlib.Algebra.Order.Monoid.Defs
import StellarDonations.Concurrency.Interleaving

/-!
# Check a budget, spend, book

Workers share a budget for every period. A worker checks that the total of the current period
leaves room for an amount, spends it in that period or a later one, and books it. Several workers
follow this protocol at the same time: a worker is outside, cleared to spend an amount, or has spent
it and not yet booked it.

Nothing in the protocol itself keeps two workers from being cleared for the same room. What
`Within` needs is that a worker is cleared only while no other one is between its check and its
booking, and that the total it is checked against has everything in it that was spent. Under these
the total of no period exceeds the limit, even when a worker is cleared in one period and spends in
the next.
-/

namespace Concurrency.Budget

variable {ι δ α : Type*} [DecidableEq ι] [LinearOrder δ] [AddCommMonoid α] [PartialOrder α]
  [IsOrderedAddMonoid α]

inductive Phase (δ α : Type*) where
  | outside
  /-- Cleared to spend an amount, in the given period at the earliest. -/
  | cleared (amount : α) (since : δ)
  | spent

/-- The worker is between its check and its booking. -/
def Phase.Inside : Phase δ α → Prop
  | .outside => False
  | .cleared _ _ | .spent => True

instance decidableInside : DecidablePred (Phase.Inside : Phase δ α → Prop)
  | .outside => inferInstanceAs (Decidable False)
  | .cleared _ _ | .spent => inferInstanceAs (Decidable True)

/-- The current period, what is spent in each, and the phase of every worker. -/
structure State (ι δ α : Type*) where
  now : δ
  total : δ → α
  phase : ι → Phase δ α

structure Within (limit : α) (s : State ι δ α) : Prop where
  unspent : ∀ d, s.now < d → s.total d = 0
  nonneg : ∀ d, 0 ≤ s.total d
  le_limit : ∀ d, s.total d ≤ limit
  /-- A cleared worker has room in every period it may spend in. -/
  room : ∀ i a since, s.phase i = .cleared a since →
    since ≤ s.now ∧ 0 ≤ a ∧ ∀ d, since ≤ d → s.total d + a ≤ limit
  alone : AtMostOne Phase.Inside s.phase

section Preservation

variable {limit : α} {s : State ι δ α} {i : ι}

omit [IsOrderedAddMonoid α] in
theorem Within.room_update (h : Within limit s) {p : Phase δ α}
    (hp : ∀ a since, p = .cleared a since →
      since ≤ s.now ∧ 0 ≤ a ∧ ∀ d, since ≤ d → s.total d + a ≤ limit) :
    ∀ j a since, Function.update s.phase i p j = .cleared a since →
      since ≤ s.now ∧ 0 ≤ a ∧ ∀ d, since ≤ d → s.total d + a ≤ limit := by
  intro j a since hj
  rcases eq_or_ne j i with rfl | hji
  · rw [Function.update_self] at hj
    exact hp a since hj
  · rw [Function.update_of_ne hji] at hj
    exact h.room j a since hj

omit [DecidableEq ι] [IsOrderedAddMonoid α] in
theorem Within.tick (h : Within limit s) {t : δ} (ht : s.now ≤ t) :
    Within limit { s with now := t } := by
  refine ⟨fun d hd ↦ h.unspent d (ht.trans_lt hd), h.nonneg, h.le_limit, fun j a since hj ↦ ?_,
    h.alone⟩
  obtain ⟨hsince, hroom⟩ := h.room j a since hj
  exact ⟨hsince.trans ht, hroom⟩

omit [IsOrderedAddMonoid α] in
theorem Within.leave (h : Within limit s) (i : ι) :
    Within limit { s with phase := Function.update s.phase i .outside } := by
  refine ⟨h.unspent, h.nonneg, h.le_limit, h.room_update fun a since hp ↦ ?_,
    h.alone.update False.elim⟩
  cases hp

theorem Within.clear (h : Within limit s) {a : α} (ha : 0 ≤ a)
    (hroom : s.total s.now + a ≤ limit) (halone : Alone Phase.Inside s.phase i) :
    Within limit { s with phase := Function.update s.phase i (.cleared a s.now) } := by
  refine ⟨h.unspent, h.nonneg, h.le_limit, h.room_update fun b since hp ↦ ?_,
    h.alone.update fun _ ↦ Or.inr halone⟩
  cases hp
  refine ⟨le_rfl, ha, fun d hd ↦ ?_⟩
  rcases hd.eq_or_lt with rfl | hlt
  · exact hroom
  -- in a later period nothing is spent yet
  · calc s.total d + a = 0 + a := by rw [h.unspent d hlt]
      _ ≤ s.total s.now + a := add_le_add_left (h.nonneg s.now) a
      _ ≤ limit := hroom

omit [IsOrderedAddMonoid α] in
theorem Within.hold (h : Within limit s) {a : α} {since t : δ}
    (hi : s.phase i = .cleared a since) (hsince : since ≤ t) (ht : t ≤ s.now) :
    Within limit { s with phase := Function.update s.phase i (.cleared a t) } := by
  obtain ⟨-, ha, hroom⟩ := h.room i a since hi
  have hin : (s.phase i).Inside := by
    rw [hi]
    trivial
  refine ⟨h.unspent, h.nonneg, h.le_limit, h.room_update fun b u hp ↦ ?_,
    h.alone.update fun _ ↦ Or.inl hin⟩
  cases hp
  exact ⟨ht, ha, fun d hd ↦ hroom d (hsince.trans hd)⟩

theorem Within.spend (h : Within limit s) {a : α} {since t : δ}
    (hi : s.phase i = .cleared a since) (hsince : since ≤ t) (ht : t ≤ s.now) :
    Within limit { s with
      total := Function.update s.total t (s.total t + a)
      phase := Function.update s.phase i .spent } := by
  obtain ⟨-, ha, hroom⟩ := h.room i a since hi
  have hin : (s.phase i).Inside := by
    rw [hi]
    trivial
  refine ⟨fun d hd ↦ ?_, fun d ↦ ?_, fun d ↦ ?_, fun j b u hj ↦ ?_,
    h.alone.update fun _ ↦ Or.inl hin⟩
  · dsimp only
    rw [Function.update_of_ne (ht.trans_lt hd).ne']
    exact h.unspent d hd
  · dsimp only
    rcases eq_or_ne d t with rfl | hd
    · rw [Function.update_self]
      exact add_nonneg (h.nonneg d) ha
    · rw [Function.update_of_ne hd]
      exact h.nonneg d
  · dsimp only
    rcases eq_or_ne d t with rfl | hd
    · rw [Function.update_self]
      exact hroom d hsince
    · rw [Function.update_of_ne hd]
      exact h.le_limit d
  -- no other worker is inside, so none is cleared
  · dsimp only at hj
    rcases eq_or_ne j i with rfl | hji
    · rw [Function.update_self] at hj
      cases hj
    · rw [Function.update_of_ne hji] at hj
      refine absurd (h.alone j i ?_ hin) hji
      rw [hj]
      trivial

end Preservation

omit [DecidableEq ι] [IsOrderedAddMonoid α] in
theorem within_initial {limit : α} {s : State ι δ α} (hphase : ∀ i, s.phase i = .outside)
    (hunspent : ∀ d, s.now < d → s.total d = 0) (hnonneg : ∀ d, 0 ≤ s.total d)
    (hle : ∀ d, s.total d ≤ limit) : Within limit s where
  unspent := hunspent
  nonneg := hnonneg
  le_limit := hle
  room i a since hi := by
    rw [hphase i] at hi
    cases hi
  alone i j hi _ := by
    rw [hphase i] at hi
    exact hi.elim

end Concurrency.Budget
