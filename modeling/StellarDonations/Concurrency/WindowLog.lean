import StellarDonations.Concurrency.Interleaving
import StellarDonations.Containers.SlidingWindow

/-!
# Check a log, act, enter it

Workers share a log of times and may act at most `n` times in any window of length `W`. A worker
checks that the log has fewer than `n` entries, acts some time later, and enters the time at which
it gets to the log. Entries that are a window old are purged. Several workers follow this protocol
at the same time: a worker is outside, cleared to act, or has acted and not yet made its entry.

Nothing in the protocol itself keeps two workers from being cleared by the same entries. What
`Within` needs is that a worker is cleared only while no other one is between its check and its
entry, and that whoever has acted makes its entry. Under these the acts are sparse, although an act
is older than its entry.
-/

namespace Concurrency.WindowLog

open SlidingWindow

variable {ι τ : Type*} [AddCommMonoid τ] [LinearOrder τ]

inductive Phase (τ : Type*) where
  | outside
  /-- Cleared to act, at the given time at the earliest. -/
  | cleared (since : τ)
  | acted
  deriving DecidableEq

/-- The worker is between its check and its entry. -/
def Phase.Inside (p : Phase τ) : Prop := p ≠ .outside

instance decidableInside : DecidablePred (Phase.Inside : Phase τ → Prop) :=
  fun p ↦ inferInstanceAs (Decidable (p ≠ .outside))

/-- The current time, the acts, the log, and the phase of every worker. -/
structure State (ι τ : Type*) where
  now : τ
  acts : List τ
  log : List τ
  phase : ι → Phase τ

variable [DecidableEq ι]

/-- A worker that is cleared finds fewer than `n` acts that are not a window old. -/
def Phase.MayAct (n : ℕ) (W now : τ) (acts : List τ) : Phase τ → Prop
  | .cleared since => since ≤ now ∧ recent W since acts < n
  | .outside | .acted => True

structure Within (n : ℕ) (W : τ) (s : State ι τ) : Prop where
  sparse : Sparse n W s.acts
  past : ∀ t ∈ s.acts, t ≤ s.now
  /-- The log is never longer than `n`, and shorter while an entry is to come. -/
  bounded : s.log.length ≤ n
  short : ∀ i, (s.phase i).Inside → s.log.length < n
  /-- Of the acts that are not a window old, at most one is not in the log, and only while a worker
  has its entry to make. -/
  covered : ∀ u, s.now ≤ u → recent W u s.acts ≤ recent W u s.log + 1
  quiet : (∀ i, s.phase i ≠ .acted) → ∀ u, s.now ≤ u → recent W u s.acts ≤ recent W u s.log
  room : ∀ i, (s.phase i).MayAct n W s.now s.acts
  alone : AtMostOne Phase.Inside s.phase

section Preservation

variable {n : ℕ} {W : τ} {s : State ι τ} {i : ι}

omit [DecidableEq ι] in
theorem Phase.MayAct.later {p : Phase τ} {now now' : τ} {acts : List τ}
    (h : p.MayAct n W now acts) (hle : now ≤ now') : p.MayAct n W now' acts := by
  cases p with
  | cleared since => exact ⟨h.1.trans hle, h.2⟩
  | outside | acted => trivial

omit [DecidableEq ι] in
theorem Within.tick (h : Within n W s) {t : τ} (ht : s.now ≤ t) :
    Within n W { s with now := t } where
  sparse := h.sparse
  past u hu := (h.past u hu).trans ht
  bounded := h.bounded
  short := h.short
  covered u hu := h.covered u (ht.trans hu)
  quiet hquiet u hu := h.quiet hquiet u (ht.trans hu)
  room j := (h.room j).later ht
  alone := h.alone

omit [AddCommMonoid τ] [LinearOrder τ] in
theorem forall_update {P : Phase τ → Prop} {p : Phase τ} (hself : P p)
    (hother : ∀ j, j ≠ i → P (s.phase j)) : ∀ j, P (Function.update s.phase i p j) :=
  (Function.forall_update_iff s.phase fun _ ↦ P).mpr ⟨hself, hother⟩

omit [AddCommMonoid τ] [LinearOrder τ] in
theorem forall_ne_acted {p : Phase τ} (hi : s.phase i ≠ .acted)
    (h : ∀ j, Function.update s.phase i p j ≠ .acted) (j : ι) : s.phase j ≠ .acted := by
  rcases eq_or_ne j i with rfl | hji
  · exact hi
  · rw [← Function.update_of_ne hji p s.phase]
    exact h j

omit [AddCommMonoid τ] [LinearOrder τ] [DecidableEq ι] in
theorem inside_of_cleared {since : τ} (h : s.phase i = .cleared since) : (s.phase i).Inside := by
  rw [h]
  nofun

omit [AddCommMonoid τ] [LinearOrder τ] [DecidableEq ι] in
theorem inside_of_acted (h : s.phase i = .acted) : (s.phase i).Inside := by
  rw [h]
  nofun

theorem Within.leave (h : Within n W s) (hi : s.phase i ≠ .acted) :
    Within n W { s with phase := Function.update s.phase i .outside } where
  sparse := h.sparse
  past := h.past
  bounded := h.bounded
  short := forall_update (P := fun p ↦ p.Inside → _) (absurd rfl) fun j _ ↦ h.short j
  covered := h.covered
  quiet hquiet := h.quiet (forall_ne_acted hi hquiet)
  room := forall_update (P := Phase.MayAct n W s.now s.acts) trivial fun j _ ↦ h.room j
  alone := h.alone.update fun hin ↦ absurd rfl hin

omit [DecidableEq ι] in
theorem recent_filter {t u : τ} (h : t ≤ u) (ts : List τ) :
    recent W u (ts.filter (t < · + W)) = recent W u ts := by
  rw [recent, List.countP_filter, recent]
  refine List.countP_congr fun r _ ↦ ?_
  simp only [Bool.and_eq_true, decide_eq_true_eq, and_iff_left_iff_imp]
  exact h.trans_lt

omit [DecidableEq ι] in
theorem Within.purge (h : Within n W s) {t : τ} (ht : t ≤ s.now) :
    Within n W { s with log := s.log.filter (t < · + W) } where
  sparse := h.sparse
  past := h.past
  bounded := (List.length_filter_le _ _).trans h.bounded
  short i hi := (List.length_filter_le _ _).trans_lt (h.short i hi)
  covered u hu := by
    rw [recent_filter (ht.trans hu)]
    exact h.covered u hu
  quiet hquiet u hu := by
    rw [recent_filter (ht.trans hu)]
    exact h.quiet hquiet u hu
  room := h.room
  alone := h.alone

theorem recent_le_length (W u : τ) (ts : List τ) : recent W u ts ≤ ts.length :=
  List.countP_le_length

/-- With no entry to come, the acts that are not a window old are in the log, so there is room for
another one. -/
theorem Within.clear (h : Within n W s) (hi : s.phase i = .outside) (hroom : s.log.length < n)
    (halone : Alone Phase.Inside s.phase i) :
    Within n W { s with phase := Function.update s.phase i (.cleared s.now) } := by
  have hquiet : ∀ j, s.phase j ≠ .acted := by
    intro j hj
    rcases eq_or_ne j i with rfl | hji
    · rw [hi] at hj
      cases hj
    · exact halone j hji (inside_of_acted hj)
  refine ⟨h.sparse, h.past, h.bounded, ?_, h.covered, fun _ ↦ h.quiet hquiet, ?_,
    h.alone.update fun _ ↦ .inr halone⟩
  · exact forall_update (P := fun p ↦ p.Inside → _) (fun _ ↦ hroom) fun j _ ↦ h.short j
  · refine forall_update (P := Phase.MayAct n W s.now s.acts) ?_ fun j _ ↦ h.room j
    refine ⟨le_rfl, (h.quiet hquiet s.now le_rfl).trans_lt ?_⟩
    exact (recent_le_length W s.now s.log).trans_lt hroom

omit [DecidableEq ι] in
theorem Within.mayAct (h : Within n W s) {since t : τ} (hi : s.phase i = .cleared since)
    (hsince : since ≤ t) : recent W t s.acts < n := by
  have hroom := h.room i
  rw [hi] at hroom
  exact (recent_anti hsince).trans_lt hroom.2

theorem Within.hold (h : Within n W s) {since t : τ} (hi : s.phase i = .cleared since)
    (hsince : since ≤ t) (ht : t ≤ s.now) :
    Within n W { s with phase := Function.update s.phase i (.cleared t) } := by
  have hin := inside_of_cleared hi
  have hne : s.phase i ≠ .acted := by
    rw [hi]
    nofun
  refine ⟨h.sparse, h.past, h.bounded, ?_, h.covered, fun hquiet ↦ ?_, ?_,
    h.alone.update fun _ ↦ .inl hin⟩
  · exact forall_update (P := fun p ↦ p.Inside → _) (fun _ ↦ h.short i hin) fun j _ ↦ h.short j
  · exact h.quiet (forall_ne_acted hne hquiet)
  · exact forall_update (P := Phase.MayAct n W s.now s.acts) ⟨ht, h.mayAct hi hsince⟩
      fun j _ ↦ h.room j

variable [IsOrderedCancelAddMonoid τ]

theorem Within.act (h : Within n W s) {since t : τ} (hi : s.phase i = .cleared since)
    (hsince : since ≤ t) (ht : t ≤ s.now) :
    Within n W { s with
      acts := s.acts ++ [t]
      phase := Function.update s.phase i .acted } := by
  have hin := inside_of_cleared hi
  have hquiet : ∀ j, s.phase j ≠ .acted := by
    intro j hj
    have hji : j = i := h.alone j i (inside_of_acted hj) hin
    rw [hji, hi] at hj
    cases hj
  refine ⟨h.sparse.concat (h.mayAct hi hsince), ?_, h.bounded, ?_, fun u hu ↦ ?_,
    fun hnone ↦ ?_, ?_, h.alone.update fun _ ↦ .inl hin⟩
  · intro u hu
    rcases List.mem_append.mp hu with hu | hu
    · exact h.past u hu
    · rwa [List.mem_singleton.mp hu]
  · exact forall_update (P := fun p ↦ p.Inside → _) (fun _ ↦ h.short i hin) fun j _ ↦ h.short j
  · rw [recent_concat]
    refine Nat.add_le_add (h.quiet hquiet u hu) ?_
    split_ifs
    · exact le_rfl
    · exact Nat.zero_le 1
  · exact absurd (Function.update_self ..) (hnone i)
  · -- no other worker is inside, so none is cleared
    refine forall_update (P := Phase.MayAct n W s.now _) trivial fun j hji ↦ ?_
    cases hj : s.phase j with
    | cleared u => exact absurd (h.alone j i (inside_of_cleared hj) hin) hji
    | outside | acted => trivial

theorem Within.enter (h : Within n W s) (hi : s.phase i = .acted) :
    Within n W { s with
      log := s.log ++ [s.now]
      phase := Function.update s.phase i .outside } := by
  have hin := inside_of_acted hi
  have hout : ∀ j, j ≠ i → ¬(s.phase j).Inside := fun j hji hj ↦ hji (h.alone j i hj hin)
  have hcovered : ∀ u, s.now ≤ u → recent W u s.acts ≤ recent W u (s.log ++ [s.now]) := by
    intro u hu
    rw [recent_concat]
    split_ifs with hnew
    · exact h.covered u hu
    · have hnone : recent W u s.acts = 0 := by
        refine List.countP_eq_zero.mpr fun t ht hold ↦ hnew ?_
        rw [decide_eq_true_eq] at hold
        exact hold.trans_le (add_le_add_left (h.past t ht) W)
      rw [hnone]
      exact Nat.zero_le _
  refine ⟨h.sparse, h.past, ?_, ?_, fun u hu ↦ (hcovered u hu).trans (Nat.le_succ _),
    fun _ ↦ hcovered, ?_, h.alone.update fun hin ↦ absurd rfl hin⟩
  · rw [List.length_append, List.length_singleton]
    exact h.short i hin
  · exact forall_update (P := fun p ↦ p.Inside → _) (absurd rfl)
      fun j hji hj ↦ absurd hj (hout j hji)
  · exact forall_update (P := Phase.MayAct n W s.now s.acts) trivial fun j _ ↦ h.room j

end Preservation

omit [DecidableEq ι] in
theorem within_initial {n : ℕ} {W : τ} {s : State ι τ} (hacts : s.acts = []) (hlog : s.log = [])
    (hphase : ∀ i, s.phase i = .outside) : Within n W s where
  sparse := hacts ▸ sparse_nil
  past := by
    rw [hacts]
    nofun
  bounded := by
    rw [hlog]
    exact Nat.zero_le n
  short i hi := absurd (hphase i) hi
  covered u _ := by
    rw [hacts]
    exact Nat.zero_le _
  quiet _ u _ := by
    rw [hacts]
    exact Nat.zero_le _
  room i := by
    rw [hphase i]
    trivial
  alone i j hi _ := absurd (hphase i) hi

end Concurrency.WindowLog
