import Mathlib.Data.Finset.Max
import Mathlib.Data.List.Sort
import StellarDonations.Crowdfunding.Escrow

/-!
# Milestones of a keep-what-you-raise campaign

`CrowdfundingService.checkAndReleaseMilestones` is called with the amount raised so far. It reads
the pending milestones whose target has been reached, and for each of them pays a share of the
target to the recipient and marks it as verified. A payment or a mark that fails is logged, and the
loop goes on with the next milestone.

Two things can go wrong. The mark is a statement of its own after the payment, so an overlapping or
later call may find a milestone pending that another one is about to pay or has paid
(`PayThenMark`). And each share is taken of the milestone's own target, not of what was raised since
the one before: the shares of all milestones up to a target may add up to more than the target. When
they do not, what is released stays within what was raised (`sum_le_of_covered`).
-/

namespace StellarDonations.Crowdfunding.Milestones

open Concurrency JsString

/-! ## The state -/

/-- What does not change about a row of `campaign_milestones`. -/
@[ext]
structure Milestone where
  id : ℕ
  title : String
  targetAmount : ℚ
  releasePercentage : Option ℚ
  target_pos : 0 < targetAmount
  percentage_mem : ∀ p ∈ releasePercentage, 1 ≤ p ∧ p ≤ 100

namespace Milestone

instance : DecidableEq Milestone := fun _ _ ↦ decidable_of_iff _ Milestone.ext_iff.symm

/-- `milestone.release_percentage || 100`. -/
def percentage (m : Milestone) : ℚ := m.releasePercentage.getD 100

def releaseAmount (m : Milestone) : ℚ := m.targetAmount * m.percentage / 100

theorem releaseAmount_nonneg (m : Milestone) : 0 ≤ m.releaseAmount := by
  have hpercentage : 0 ≤ m.percentage := by
    rw [percentage]
    cases h : m.releasePercentage with
    | none => decide
    | some p => exact le_trans (by decide) (m.percentage_mem p h).1
  exact div_nonneg (mul_nonneg m.target_pos.le hpercentage) (by decide)

end Milestone

inductive MilestoneStatus where
  | pending
  | verified
  | other (status : String)
  deriving DecidableEq

structure MilestoneRow where
  milestone : Milestone
  status : MilestoneStatus
  verifiedAt : Option ℤ
  verifiedBy : Option String
  fundReleaseTx : Option String
  deriving DecidableEq

/-- A payment to the recipient that succeeded. -/
structure Release where
  milestone : Milestone
  destinationPublic : String
  memo : String
  deriving DecidableEq

/-- The campaign, its milestones, what has been released, and the amounts that calls were made
with. -/
structure Shared where
  campaign : Option Campaign
  milestones : List MilestoneRow
  releases : List Release
  passed : List ℚ

namespace Shared

/-- How many times a milestone has been released. -/
def released (sh : Shared) (id : ℕ) : ℕ := sh.releases.countP (·.milestone.id = id)

def total (sh : Shared) : ℚ := (sh.releases.map (·.milestone.releaseAmount)).sum

def Pending (sh : Shared) (id : ℕ) : Prop :=
  ∃ row ∈ sh.milestones, row.milestone.id = id ∧ row.status = .pending

instance decidablePending (sh : Shared) (id : ℕ) : Decidable (sh.Pending id) :=
  inferInstanceAs (Decidable (∃ row ∈ sh.milestones, row.milestone.id = id ∧ row.status = .pending))

/-- The `SELECT` of the pending milestones that have been reached, by target. -/
def reached (sh : Shared) (currentAmount : ℚ) : List Milestone :=
  (((sh.milestones.filter fun row ↦ row.status = .pending).map (·.milestone)).filter
    fun m ↦ m.targetAmount ≤ currentAmount).insertionSort fun a b ↦ a.targetAmount ≤ b.targetAmount

/-- `UPDATE campaign_milestones SET status = 'verified' … WHERE id = ?`. -/
def verify (sh : Shared) (id : ℕ) (now : ℤ) (txHash : Option String) : Shared :=
  { sh with
    milestones := sh.milestones.map fun row ↦
      if row.milestone.id = id then
        { row with
          status := .verified
          verifiedAt := some now
          verifiedBy := some "auto_release"
          fundReleaseTx := txHash }
      else row }

def release (sh : Shared) (r : Release) : Shared := { sh with releases := r :: sh.releases }

end Shared

/-! ## The calls -/

structure Env extends Stellar.PaymentEnv where
  /-- The amount an idle worker is called with. -/
  currentAmount : ℚ

structure ReleasedMilestone where
  milestone : Milestone
  txHash : Option String
  deriving DecidableEq

/-- Where the loop stands: the campaign, the recipient, the milestones in line, the result so far,
and, for the record, the milestones that were paid and not marked. -/
structure Loop where
  campaign : Campaign
  recipient : String
  rest : List Milestone
  result : List ReleasedMilestone
  unmarked : List ℕ

inductive Call where
  | idle
  | findCampaign (currentAmount : ℚ)
  | selectReached (c : Campaign) (currentAmount : ℚ)
  | pay (m : Milestone) (l : Loop)
  | verify (m : Milestone) (txHash : Option String) (l : Loop)
  | deliver (l : Loop)
  | done (result : List ReleasedMilestone) (unmarked : List ℕ)
  | failed (e : AppError)

/-- The milestones a call has paid and not marked. -/
def Call.owes : Call → List ℕ
  | .pay _ l | .deliver l => l.unmarked
  | .verify m _ l => m.id :: l.unmarked
  | .done _ unmarked => unmarked
  | _ => []

def Call.line : Call → List Milestone
  | .pay m l => m :: l.rest
  | .verify _ _ l | .deliver l => l.rest
  | _ => []

def Loop.next (l : Loop) : Call :=
  match l.rest with
  | [] => .done l.result l.unmarked
  | m :: rest => .pay m { l with rest }

def checkCampaign (currentAmount : ℚ) : Option Campaign → Call
  | none => .done [] []
  | some c =>
    if c.fundingModel ≠ .keepWhatYouRaise then .done [] [] else .selectReached c currentAmount

/-- What follows the `SELECT` of the milestones. -/
def beginRelease (acct : EscrowAccount) (c : Campaign) (milestones : List Milestone) : Call :=
  if milestones.isEmpty then .done [] []
  else
    match orNull acct.secret with
    | none => .done [] []
    | some secret =>
      match orNull c.recipientPublicKey with
      | none => .done [] []
      | some recipient =>
        match acct.publicKey secret with
        | .error e => .failed e
        | .ok _ => Loop.next ⟨c, recipient, milestones, [], []⟩

def releaseFor (m : Milestone) (l : Loop) : Release :=
  ⟨m, l.recipient, "milestone:" ++ toString l.campaign.id ++ ":" ++ toString m.id⟩

/-- Resume a call: it executes the statement or payment it is suspended on and runs to its next
`await`. The delivery of the webhook catches its own errors. -/
def resume (acct : EscrowAccount) (sh : Shared) : Call → Env → Shared × Call
  | .idle, env =>
    ({ sh with passed := env.currentAmount :: sh.passed }, .findCampaign env.currentAmount)
  | .findCampaign currentAmount, env =>
    match env.dbError with
    | some e => (sh, .failed e)
    | none => (sh, checkCampaign currentAmount sh.campaign)
  | .selectReached c currentAmount, env =>
    match env.dbError with
    | some e => (sh, .failed e)
    | none => (sh, beginRelease acct c (sh.reached currentAmount))
  | .pay m l, env =>
    let sh' := if env.paid then sh.release (releaseFor m l) else sh
    match env.answer with
    | .ok hash => (sh', .verify m (orNull hash) l)
    | .error _ =>
      (sh', Loop.next { l with unmarked := if env.paid then m.id :: l.unmarked else l.unmarked })
  | .verify m txHash l, env =>
    match env.dbError with
    | some _ => (sh, Loop.next { l with unmarked := m.id :: l.unmarked })
    | none =>
      (sh.verify m.id env.now txHash, .deliver { l with result := l.result ++ [⟨m, txHash⟩] })
  | .deliver l, _ => (sh, l.next)
  | .done result unmarked, _ => (sh, .done result unmarked)
  | .failed e, _ => (sh, .failed e)

def step (acct : EscrowAccount) {ι : Type*} [DecidableEq ι] :
    Calls ι Shared Call → ι × Env → Calls ι Shared Call :=
  Calls.step (resume acct)

/-! ## What must hold -/

/-- No milestone is released twice, and what is released stays within the largest amount that
a call was made with. -/
structure ReleaseSound {ι : Type*} (s : Calls ι Shared Call) : Prop where
  once : ∀ id, s.shared.released id ≤ 1
  bounded : s.shared.total = 0 ∨ ∃ a ∈ s.shared.passed, s.shared.total ≤ a

/-- The call is about to pay the milestone, or has paid it and not marked it. -/
def Call.Handles (id : ℕ) (c : Call) : Prop := id ∈ c.line.map (·.id) ∨ id ∈ c.owes

/-- The condition on a call: when it reads the milestones that are pending and reached, no other
call handles one of them. -/
def Call.Guarded {ι : Type*} (s : Calls ι Shared Call) (i : ι) : Call → Prop
  | .selectReached _ currentAmount =>
    ∀ m ∈ s.shared.reached currentAmount, Alone (Call.Handles m.id) s.call i
  | _ => True

/-- The condition on a step: the resumed call is `Guarded`. -/
def Guarded {ι : Type*} (s : Calls ι Shared Call) (a : ι × Env) : Prop :=
  (s.call a.1).Guarded s a.1

/-- The condition on the milestones: the shares of all milestones up to the target of one of them
add up to no more than that target. -/
def Covered (milestones : List Milestone) : Prop :=
  ∀ m ∈ milestones, ((milestones.filter fun m' ↦ m'.targetAmount ≤ m.targetAmount).map
    Milestone.releaseAmount).sum ≤ m.targetAmount

section Decidable

variable {ι : Type*} [Fintype ι] [DecidableEq ι] (s : Calls ι Shared Call)

instance decidableHandles (id : ℕ) : DecidablePred (Call.Handles id) := fun c ↦
  inferInstanceAs (Decidable (id ∈ c.line.map (·.id) ∨ id ∈ c.owes))

instance decidableCallGuarded (i : ι) : DecidablePred (Call.Guarded s i)
  | .selectReached _ currentAmount => inferInstanceAs (Decidable
      (∀ m ∈ s.shared.reached currentAmount, Alone (Call.Handles m.id) s.call i))
  | .idle | .findCampaign _ | .pay .. | .verify .. | .deliver _ | .done .. | .failed _ =>
    inferInstanceAs (Decidable True)

instance decidableGuarded (a : ι × Env) : Decidable (Guarded s a) :=
  decidableCallGuarded s a.1 (s.call a.1)

instance decidableCovered (milestones : List Milestone) : Decidable (Covered milestones) :=
  inferInstanceAs (Decidable (∀ m ∈ milestones,
    ((milestones.filter fun m' ↦ m'.targetAmount ≤ m.targetAmount).map
      Milestone.releaseAmount).sum ≤ m.targetAmount))

end Decidable

/-! ## Milestones as items to be paid and marked -/

namespace Shared

variable {sh : Shared}

def Verified (sh : Shared) (id : ℕ) : Prop :=
  ∃ row ∈ sh.milestones, row.milestone.id = id ∧ row.status = .verified

instance decidableVerified (sh : Shared) (id : ℕ) : Decidable (sh.Verified id) :=
  inferInstanceAs (Decidable (∃ row ∈ sh.milestones,
    row.milestone.id = id ∧ row.status = .verified))

/-- What the table says about a milestone. -/
def mark (sh : Shared) (id : ℕ) : PayThenMark.Mark :=
  if sh.Pending id then .waiting else if sh.Verified id then .paid else .closed

/-- The milestones of the table, without what changes. -/
def table (sh : Shared) : List Milestone := sh.milestones.map (·.milestone)

theorem mark_eq_waiting {id : ℕ} : sh.mark id = .waiting ↔ sh.Pending id := by
  rw [mark]
  split_ifs with h <;> simp [h]

theorem released_release (sh : Shared) (r : Release) (id : ℕ) :
    (sh.release r).released id = sh.released id + if r.milestone.id = id then 1 else 0 := by
  simp [released, release, List.countP_cons]

theorem table_verify (id : ℕ) (now : ℤ) (txHash : Option String) :
    (sh.verify id now txHash).table = sh.table := by
  rw [table, table, verify, List.map_map]
  refine List.map_congr_left fun row _ ↦ ?_
  rw [Function.comp_apply]
  split_ifs <;> rfl

theorem not_pending_verify (id : ℕ) (now : ℤ) (txHash : Option String) :
    ¬(sh.verify id now txHash).Pending id := by
  rintro ⟨row', hrow', hid, hpending⟩
  obtain ⟨row, -, rfl⟩ := List.mem_map.mp hrow'
  split_ifs at hid hpending with heq
  exact heq hid

theorem mark_verify (sh : Shared) (id : ℕ) (now : ℤ) (txHash : Option String) (k : ℕ) :
    (sh.verify id now txHash).mark k = sh.mark k ∨
      k = id ∧ (sh.verify id now txHash).mark k = .paid := by
  by_cases hk : k = id
  · subst hk
    by_cases hverified : (sh.verify k now txHash).Verified k
    · right
      rw [mark, if_neg (not_pending_verify k now txHash), if_pos hverified]
      exact ⟨rfl, rfl⟩
    · -- there is no such row
      left
      have hnone : ∀ row ∈ sh.milestones, row.milestone.id ≠ k := by
        intro row hrow hid
        refine hverified ⟨_, List.mem_map.mpr ⟨row, hrow, rfl⟩, ?_, ?_⟩
        · rw [if_pos hid]
          exact hid
        · rw [if_pos hid]
      have hpending : ¬sh.Pending k := fun ⟨row, hrow, hid, _⟩ ↦ hnone row hrow hid
      have hbefore : ¬sh.Verified k := fun ⟨row, hrow, hid, _⟩ ↦ hnone row hrow hid
      rw [mark, mark, if_neg (not_pending_verify k now txHash), if_neg hverified, if_neg hpending,
        if_neg hbefore]
  · left
    have hrows : ∀ status, (∃ row ∈ (sh.verify id now txHash).milestones,
        row.milestone.id = k ∧ row.status = status) ↔
          ∃ row ∈ sh.milestones, row.milestone.id = k ∧ row.status = status := by
      intro status
      constructor
      · rintro ⟨row', hrow', hid, hstatus⟩
        obtain ⟨row, hrow, rfl⟩ := List.mem_map.mp hrow'
        split_ifs at hid hstatus with heq
        · exact absurd (hid.symm.trans heq) hk
        · exact ⟨row, hrow, hid, hstatus⟩
      · rintro ⟨row, hrow, hid, hstatus⟩
        refine ⟨row, List.mem_map.mpr ⟨row, hrow, ?_⟩, hid, hstatus⟩
        rw [if_neg fun heq ↦ hk (hid.symm.trans heq)]
    have hpending : (sh.verify id now txHash).Pending k ↔ sh.Pending k := hrows .pending
    have hverified : (sh.verify id now txHash).Verified k ↔ sh.Verified k := hrows .verified
    simp only [mark, hpending, hverified]

theorem mem_reached {currentAmount : ℚ} {m : Milestone} (h : m ∈ sh.reached currentAmount) :
    m ∈ sh.table ∧ sh.Pending m.id ∧ m.targetAmount ≤ currentAmount := by
  rw [reached, List.mem_insertionSort] at h
  obtain ⟨hm, hle⟩ := List.mem_filter.mp h
  obtain ⟨row, hrow, rfl⟩ := List.mem_map.mp hm
  obtain ⟨hmem, hpending⟩ := List.mem_filter.mp hrow
  exact ⟨List.mem_map.mpr ⟨row, hmem, rfl⟩, ⟨row, hmem, rfl, of_decide_eq_true hpending⟩,
    of_decide_eq_true hle⟩

theorem nodup_reached (hnodup : (sh.table.map (·.id)).Nodup) (currentAmount : ℚ) :
    ((sh.reached currentAmount).map (·.id)).Nodup := by
  have hsub : ((((sh.milestones.filter fun row ↦ row.status = .pending).map (·.milestone)).filter
      fun m ↦ m.targetAmount ≤ currentAmount)).Sublist sh.table :=
    List.filter_sublist.trans (List.filter_sublist.map _)
  have hperm := (List.perm_insertionSort (fun a b : Milestone ↦ a.targetAmount ≤ b.targetAmount)
    (((sh.milestones.filter fun row ↦ row.status = .pending).map (·.milestone)).filter
      fun m ↦ m.targetAmount ≤ currentAmount)).map (·.id)
  exact hperm.nodup_iff.mpr (hnodup.sublist (hsub.map _))

end Shared

/-- The milestones as items, with those that the calls have in line and the marks that they owe. -/
def abstraction {ι : Type*} (s : Calls ι Shared Call) : PayThenMark.State ι ℕ where
  mark := s.shared.mark
  payments := s.shared.released
  line := (fun c : Call ↦ { id | id ∈ c.line.map (·.id) }) ∘ s.call
  owed := (fun c : Call ↦ { id | id ∈ c.owes }) ∘ s.call

/-! ## The bound -/

/-- **The shares of distinct milestones stay within the largest of their targets**, when the
milestones are covered. -/
theorem sum_le_of_covered {table released : List Milestone} (hcovered : Covered table)
    (hnodup : released.Nodup) (hsub : released ⊆ table) (hne : released ≠ []) :
    ∃ m ∈ released, (released.map Milestone.releaseAmount).sum ≤ m.targetAmount := by
  obtain ⟨m, hm, hmax⟩ := Finset.exists_max_image released.toFinset Milestone.targetAmount
    (List.toFinset_nonempty_iff released |>.mpr hne)
  have hmem : m ∈ released := List.mem_toFinset.mp hm
  -- all that was released has a target up to the largest one
  have hbelow : released ⊆ table.filter fun m' ↦ m'.targetAmount ≤ m.targetAmount := by
    intro m' hm'
    exact List.mem_filter.mpr
      ⟨hsub hm', decide_eq_true (hmax m' (List.mem_toFinset.mpr hm'))⟩
  obtain ⟨l, hperm, hsublist⟩ := List.subperm_of_subset hnodup hbelow
  refine ⟨m, hmem, ?_⟩
  calc (released.map Milestone.releaseAmount).sum
      = (l.map Milestone.releaseAmount).sum := ((hperm.map _).sum_eq).symm
    _ ≤ ((table.filter fun m' ↦ m'.targetAmount ≤ m.targetAmount).map
          Milestone.releaseAmount).sum := by
        refine (hsublist.map _).sum_le_sum fun x hx ↦ ?_
        obtain ⟨m', -, rfl⟩ := List.mem_map.mp hx
        exact m'.releaseAmount_nonneg
    _ ≤ m.targetAmount := hcovered m (hsub hmem)

/-! ## Runs -/

def Call.amount : Call → Option ℚ
  | .findCampaign currentAmount | .selectReached _ currentAmount => some currentAmount
  | _ => none

def Shared.Reached (sh : Shared) (m : Milestone) : Prop :=
  m ∈ sh.table ∧ ∃ a ∈ sh.passed, m.targetAmount ≤ a

/-- What a call knows: the milestones in line are distinct and reached. -/
structure Prepared (sh : Shared) (c : Call) : Prop where
  nodup : (c.line.map (·.id)).Nodup
  reached : ∀ m ∈ c.line, sh.Reached m
  amount : ∀ a, c.amount = some a → a ∈ sh.passed

theorem prepared_of_line_nil {sh : Shared} {c : Call} (hline : c.line = [])
    (hamount : ∀ a, c.amount = some a → a ∈ sh.passed) : Prepared sh c := by
  constructor
  · rw [hline]
    exact List.nodup_nil
  · simp [hline]
  · exact hamount

theorem owes_next (l : Loop) : l.next.owes = l.unmarked := by
  rw [Loop.next]
  split <;> rfl

theorem line_next (l : Loop) : l.next.line = l.rest := by
  rw [Loop.next]
  split
  · next hrest => exact hrest.symm
  · next hrest => exact hrest.symm

theorem prepared_next {sh : Shared} {l : Loop} (hnodup : (l.rest.map (·.id)).Nodup)
    (hreached : ∀ m ∈ l.rest, sh.Reached m) : Prepared sh l.next := by
  refine ⟨?_, ?_, ?_⟩
  · rw [line_next]
    exact hnodup
  · rw [line_next]
    exact hreached
  · rw [Loop.next]
    split <;> rintro a ⟨⟩

theorem prepared_beginRelease (acct : EscrowAccount) (c : Campaign) {sh : Shared}
    {milestones : List Milestone} (hnodup : (milestones.map (·.id)).Nodup)
    (hreached : ∀ m ∈ milestones, sh.Reached m) :
    Prepared sh (beginRelease acct c milestones) ∧
      (beginRelease acct c milestones).line ⊆ milestones ∧
      (beginRelease acct c milestones).owes = [] := by
  have hdone : ∀ c' : Call, c'.line = [] → c'.amount = none → c'.owes = [] →
      Prepared sh c' ∧ c'.line ⊆ milestones ∧ c'.owes = [] := by
    intro c' hline hamount howes
    refine ⟨prepared_of_line_nil hline fun a ha ↦ ?_, ?_, howes⟩
    · rw [hamount] at ha
      cases ha
    · rw [hline]
      exact List.nil_subset _
  rw [beginRelease]
  split_ifs
  · exact hdone _ rfl rfl rfl
  · split
    · exact hdone _ rfl rfl rfl
    · split
      · exact hdone _ rfl rfl rfl
      · split
        · exact hdone _ rfl rfl rfl
        · refine ⟨prepared_next hnodup hreached, ?_, owes_next _⟩
          rw [line_next]
          exact List.Subset.refl _

section Runs

variable {ι : Type*}

structure Orderly (s : Calls ι Shared Call) : Prop where
  sound : PayThenMark.Sound (abstraction s)
  nodup : (s.shared.table.map (·.id)).Nodup
  covered : Covered s.shared.table
  prepared : ∀ i, Prepared s.shared (s.call i)
  released : ∀ r ∈ s.shared.releases, s.shared.Reached r.milestone

theorem Orderly.releaseSound {s : Calls ι Shared Call} (h : Orderly s) : ReleaseSound s := by
  refine ⟨h.sound.once, ?_⟩
  have hids : ((s.shared.releases.map (·.milestone)).map (·.id)).Nodup := by
    rw [List.map_map, List.nodup_iff_count_le_one]
    intro id
    have honce : s.shared.released id ≤ 1 := h.sound.once id
    rw [Shared.released] at honce
    rw [List.count, List.countP_map]
    exact honce
  have hsub : s.shared.releases.map (·.milestone) ⊆ s.shared.table := by
    intro m hm
    obtain ⟨r, hr, rfl⟩ := List.mem_map.mp hm
    exact (h.released r hr).1
  by_cases hne : s.shared.releases.map (·.milestone) = []
  · left
    rw [Shared.total, List.map_eq_nil_iff.mp hne]
    rfl
  · right
    obtain ⟨m, hm, hle⟩ := sum_le_of_covered h.covered hids.of_map hsub hne
    obtain ⟨r, hr, rfl⟩ := List.mem_map.mp hm
    obtain ⟨-, a, ha, htarget⟩ := h.released r hr
    refine ⟨a, ha, le_trans ?_ htarget⟩
    rw [List.map_map] at hle
    exact hle

variable [DecidableEq ι] {acct : EscrowAccount}

theorem abstraction_update (s : Calls ι Shared Call) (i : ι) (sh : Shared) (c : Call) :
    abstraction (⟨sh, Function.update s.call i c⟩ : Calls ι Shared Call) =
      (abstraction s).next i sh.mark sh.released { id | id ∈ c.line.map (·.id) }
        { id | id ∈ c.owes } := by
  rw [abstraction, Function.comp_update, Function.comp_update]
  rfl

omit [DecidableEq ι] in
theorem Call.Handles.free {s : Calls ι Shared Call} {i : ι} {id : ℕ}
    (h : Alone (Call.Handles id) s.call i) (hown : (s.call i).owes = []) :
    (abstraction s).Free i id :=
  .of_alone h (fun hmem : id ∈ (s.call i).owes ↦ absurd (hown ▸ hmem) List.not_mem_nil)
    (fun _ ↦ .inl) fun _ ↦ .inr

theorem Shared.Reached.mono {sh sh' : Shared} (htable : sh'.table = sh.table)
    (hpassed : sh.passed ⊆ sh'.passed) {m : Milestone} (h : sh.Reached m) : sh'.Reached m := by
  obtain ⟨hm, a, ha, hle⟩ := h
  exact ⟨htable.symm ▸ hm, a, hpassed ha, hle⟩

theorem Prepared.mono {sh sh' : Shared} (htable : sh'.table = sh.table)
    (hpassed : sh.passed ⊆ sh'.passed) {c : Call} (h : Prepared sh c) : Prepared sh' c :=
  ⟨h.nodup, fun m hm ↦ (h.reached m hm).mono htable hpassed, fun a ha ↦ hpassed (h.amount a ha)⟩

/-- How a step keeps the invariant: it keeps the table, forgets no amount, and releases what is
reached. -/
theorem Orderly.update {s : Calls ι Shared Call} (h : Orderly s) (i : ι) {sh : Shared} {c : Call}
    (hsound : PayThenMark.Sound ((abstraction s).next i sh.mark sh.released
      { id | id ∈ c.line.map (·.id) } { id | id ∈ c.owes }))
    (htable : sh.table = s.shared.table) (hpassed : s.shared.passed ⊆ sh.passed)
    (hreleased : ∀ r ∈ sh.releases, r ∈ s.shared.releases ∨ s.shared.Reached r.milestone)
    (hprepared : Prepared sh c) :
    Orderly (⟨sh, Function.update s.call i c⟩ : Calls ι Shared Call) := by
  refine ⟨?_, ?_, ?_, ?_, fun r hr ↦ ?_⟩
  · rw [abstraction_update]
    exact hsound
  · rw [htable]
    exact h.nodup
  · rw [htable]
    exact h.covered
  · exact (Function.forall_update_iff s.call fun _ ↦ Prepared sh).mpr
      ⟨hprepared, fun j _ ↦ (h.prepared j).mono htable hpassed⟩
  · rcases hreleased r hr with hr | hr
    · exact (h.released r hr).mono htable hpassed
    · exact hr.mono htable hpassed

/-- A statement that touches neither milestones nor payments. What it leaves in line was in line, or
is pending and free. -/
theorem Orderly.take {s : Calls ι Shared Call} (h : Orderly s) {i : ι} {c : Call}
    (hline : ∀ m ∈ c.line, m ∈ (s.call i).line ∨
      s.shared.Pending m.id ∧ (abstraction s).Free i m.id)
    (howes : c.owes = (s.call i).owes) (hprepared : Prepared s.shared c) :
    Orderly (⟨s.shared, Function.update s.call i c⟩ : Calls ι Shared Call) := by
  refine h.update i ?_ rfl (fun a ha ↦ ha) (fun r hr ↦ .inl hr) hprepared
  rw [howes]
  refine h.sound.take i fun id hid ↦ ?_
  obtain ⟨m, hm, rfl⟩ := List.mem_map.mp hid
  rcases hline m hm with hin | ⟨hpending, hfree⟩
  · exact .inl (List.mem_map.mpr ⟨m, hin, rfl⟩)
  · exact .inr ⟨Shared.mark_eq_waiting.mpr hpending, hfree⟩

theorem Orderly.quiet {s : Calls ι Shared Call} (h : Orderly s) {i : ι} {c : Call}
    (hline : c.line ⊆ (s.call i).line) (howes : c.owes = (s.call i).owes)
    (hprepared : Prepared s.shared c) :
    Orderly (⟨s.shared, Function.update s.call i c⟩ : Calls ι Shared Call) :=
  h.take (fun _ hm ↦ .inl (hline hm)) howes hprepared

theorem Orderly.release {s : Calls ι Shared Call} (h : Orderly s) {i : ι} {m : Milestone} {l : Loop}
    (hcall : s.call i = .pay m l) {c : Call} (hline : c.line = l.rest)
    (howes : c.owes = m.id :: l.unmarked) (hprepared : Prepared s.shared c) :
    Orderly (⟨s.shared.release (releaseFor m l), Function.update s.call i c⟩ :
      Calls ι Shared Call) := by
  have hown : (s.call i).owes = l.unmarked := by rw [hcall]; rfl
  have hmine : (s.call i).line = m :: l.rest := by rw [hcall]; rfl
  have hprep := h.prepared i
  have hnotin : m.id ∉ l.rest.map (·.id) := by
    have hnodup := hprep.nodup
    rw [hmine] at hnodup
    exact (List.nodup_cons.mp hnodup).1
  have hprepared' : Prepared (s.shared.release (releaseFor m l)) c :=
    ⟨hprepared.nodup, hprepared.reached, hprepared.amount⟩
  refine h.update i ?_ rfl (fun a ha ↦ ha) (fun r hr ↦ ?_) hprepared'
  · have hunion : { id | id ∈ c.owes } = {m.id} ∪ (abstraction s).owed i := by
      ext id
      rw [howes, ← hown]
      exact List.mem_cons
    have hinline : ∀ id ∈ (m :: l.rest).map (·.id), id ∈ (abstraction s).line i := by
      intro id hid
      rwa [← hmine] at hid
    rw [hunion, hline]
    refine h.sound.payOne (hinline m.id List.mem_cons_self) (fun id hid ↦ ⟨?_, ?_⟩)
      (Shared.released_release s.shared (releaseFor m l))
    · exact hinline id (List.mem_cons_of_mem _ hid)
    · rintro rfl
      exact hnotin hid
  · rcases List.mem_cons.mp hr with rfl | hr
    · refine .inr (hprep.reached m ?_)
      rw [hmine]
      exact List.mem_cons_self
    · exact .inl hr

theorem Prepared.rest {sh : Shared} {m : Milestone} {l : Loop} (h : Prepared sh (.pay m l)) :
    (l.rest.map (·.id)).Nodup ∧ ∀ m' ∈ l.rest, sh.Reached m' :=
  ⟨(List.nodup_cons.mp h.nodup).2, fun m' hm' ↦ h.reached m' (List.mem_cons_of_mem m hm')⟩

theorem Orderly.verify {s : Calls ι Shared Call} (h : Orderly s) {i : ι} {m : Milestone}
    {txHash : Option String} {l : Loop} (hcall : s.call i = .verify m txHash l) (now : ℤ) :
    Orderly (⟨s.shared.verify m.id now txHash,
      Function.update s.call i (.deliver { l with result := l.result ++ [⟨m, txHash⟩] })⟩ :
        Calls ι Shared Call) := by
  have hprep := h.prepared i
  rw [hcall] at hprep
  have htable : (s.shared.verify m.id now txHash).table = s.shared.table :=
    Shared.table_verify m.id now txHash
  have hrest : Prepared s.shared (.deliver { l with result := l.result ++ [⟨m, txHash⟩] }) :=
    ⟨hprep.nodup, hprep.reached, by rintro a ⟨⟩⟩
  refine h.update i ?_ htable (fun a ha ↦ ha) (fun r hr ↦ .inl hr)
    (hrest.mono htable fun a ha ↦ ha)
  have howed : ∀ id, id ∈ (abstraction s).owed i ↔ id = m.id ∨ id ∈ l.unmarked := by
    intro id
    have hmem : id ∈ (abstraction s).owed i ↔ id ∈ (s.call i).owes := Iff.rfl
    rw [hmem, hcall]
    exact List.mem_cons
  refine h.sound.mark i (fun id hid ↦ ?_) (fun id ↦ ?_) (fun id hid ↦ (howed id).mpr (.inr hid)) ?_
  · have hmem : id ∈ (abstraction s).line i ↔ id ∈ (s.call i).line.map (·.id) := Iff.rfl
    rw [hmem, hcall]
    exact hid
  · rcases Shared.mark_verify s.shared m.id now txHash id with hsame | ⟨hid, hpaid⟩
    · exact .inl hsame
    · exact .inr ⟨(howed id).mpr (.inl hid), hpaid⟩
  · intro id hid hgone hwaiting
    have heq : id = m.id := ((howed id).mp hid).resolve_right hgone
    subst heq
    exact Shared.not_pending_verify m.id now txHash (Shared.mark_eq_waiting.mp hwaiting)

theorem orderly_step (s : Calls ι Shared Call) (a : ι × Env) (h : Orderly s)
    (hguard : Guarded s a) : Orderly (step acct s a) := by
  obtain ⟨i, env⟩ := a
  simp only [Guarded] at hguard
  rw [step, Calls.step]
  have hprep := h.prepared i
  cases hcall : s.call i with
  | idle =>
    refine h.update i ?_ rfl (fun a ha ↦ List.mem_cons_of_mem _ ha) (fun r hr ↦ .inl hr)
      (prepared_of_line_nil rfl ?_)
    · have howes : (Call.findCampaign env.currentAmount).owes = (s.call i).owes := by
        rw [hcall]
        rfl
      simp only [resume]
      rw [howes]
      exact h.sound.take i fun id hid ↦ absurd hid List.not_mem_nil
    · rintro a ⟨⟩
      exact List.mem_cons_self
  | findCampaign currentAmount =>
    rw [hcall] at hprep
    have hown : (s.call i).owes = [] := by rw [hcall]; rfl
    have hdone : ∀ c : Call, c.line = [] → c.owes = [] → Prepared s.shared c →
        Orderly (⟨s.shared, Function.update s.call i c⟩ : Calls ι Shared Call) := by
      intro c hline howes hprepared
      refine h.quiet ?_ (howes.trans hown.symm) hprepared
      rw [hline]
      exact List.nil_subset _
    simp only [resume]
    split
    · exact hdone _ rfl rfl (prepared_of_line_nil rfl (by rintro a ⟨⟩))
    · rw [checkCampaign.eq_def]
      split
      · exact hdone _ rfl rfl (prepared_of_line_nil rfl (by rintro a ⟨⟩))
      · split_ifs
        · exact hdone _ rfl rfl (prepared_of_line_nil rfl (by rintro a ⟨⟩))
        · exact hdone _ rfl rfl (prepared_of_line_nil rfl hprep.amount)
  | selectReached c currentAmount =>
    rw [hcall] at hprep hguard
    have hown : (s.call i).owes = [] := by rw [hcall]; rfl
    simp only [resume]
    split
    · exact h.quiet (List.nil_subset _) hown.symm (prepared_of_line_nil rfl (by rintro a ⟨⟩))
    · have hreached : ∀ m ∈ s.shared.reached currentAmount, s.shared.Reached m := by
        intro m hm
        obtain ⟨htable, -, hle⟩ := Shared.mem_reached hm
        exact ⟨htable, currentAmount, hprep.amount _ rfl, hle⟩
      obtain ⟨hprepared, hline, howes⟩ := prepared_beginRelease acct c
        (Shared.nodup_reached h.nodup currentAmount) hreached
      refine h.take (fun m hm ↦ .inr ⟨?_, ?_⟩) (howes.trans hown.symm) hprepared
      · exact (Shared.mem_reached (hline hm)).2.1
      · exact Call.Handles.free (hguard m (hline hm)) hown
  | pay m l =>
    rw [hcall] at hprep
    obtain ⟨hnodup, hreached⟩ := hprep.rest
    cases hpaid : env.paid with
    | true =>
      simp only [resume, hpaid, if_true]
      split
      · exact h.release hcall rfl rfl ⟨hnodup, hreached, by rintro a ⟨⟩⟩
      · exact h.release hcall (line_next _) (owes_next _) (prepared_next hnodup hreached)
    | false =>
      simp only [resume, hpaid, Bool.false_eq_true, if_false]
      split
      · next hok => exact absurd hok (Stellar.PaymentEnv.answer_ne_ok hpaid)
      · refine h.quiet ?_ (by rw [hcall, owes_next]; rfl) (prepared_next hnodup hreached)
        rw [line_next, hcall]
        exact List.subset_cons_self m l.rest
  | verify m txHash l =>
    rw [hcall] at hprep
    simp only [resume]
    split
    · refine h.quiet ?_ (by rw [hcall, owes_next]; rfl) (prepared_next hprep.nodup hprep.reached)
      rw [line_next, hcall]
      exact List.Subset.refl _
    · exact h.verify hcall env.now
  | deliver l =>
    rw [hcall] at hprep
    refine h.quiet ?_ (by rw [hcall, resume, owes_next]; rfl)
      (prepared_next hprep.nodup hprep.reached)
    rw [resume, line_next, hcall]
    exact List.Subset.refl _
  | done result unmarked =>
    exact h.quiet (List.nil_subset _) (by rw [hcall]; rfl)
      (prepared_of_line_nil rfl (by rintro a ⟨⟩))
  | failed e =>
    exact h.quiet (List.nil_subset _) (by rw [hcall]; rfl)
      (prepared_of_line_nil rfl (by rintro a ⟨⟩))

/-- A campaign before anything has been released. -/
structure Fresh (sh : Shared) : Prop where
  nodup : (sh.table.map (·.id)).Nodup
  unverified : ∀ row ∈ sh.milestones, row.status ≠ .verified
  releases : sh.releases = []

def initial (sh : Shared) : Calls ι Shared Call := ⟨sh, fun _ ↦ .idle⟩

omit [DecidableEq ι] in
theorem orderly_initial {sh : Shared} (h : Fresh sh) (hcovered : Covered sh.table) :
    Orderly (initial sh : Calls ι Shared Call) := by
  refine ⟨PayThenMark.sound_initial (fun id hpaid ↦ ?_) (fun id ↦ ?_) (fun i ↦ ?_) (fun i ↦ ?_),
    h.nodup, hcovered, fun _ ↦ prepared_of_line_nil rfl (by rintro a ⟨⟩), fun r hr ↦ ?_⟩
  · simp only [abstraction, initial, Shared.mark] at hpaid
    split_ifs at hpaid with hpending hverified
    obtain ⟨row, hrow, -, hstatus⟩ := hverified
    exact h.unverified row hrow hstatus
  · simp only [abstraction, initial, Shared.released, h.releases, List.countP_nil]
  · ext id
    exact iff_of_false List.not_mem_nil (Set.notMem_empty id)
  · ext id
    exact iff_of_false List.not_mem_nil (Set.notMem_empty id)
  · have hmem : r ∈ sh.releases := hr
    rw [h.releases] at hmem
    cases hmem

/-- **Milestones are released once and within what was raised.** For milestones whose shares up to
each target stay within the target, in every run of calls, with any failures, in which a call reads
no milestone that another one is about to pay, or has paid without marking it, no milestone is
released twice and what is released stays within the largest amount passed. -/
theorem milestones_released_once {sh : Shared} (hsh : Fresh sh) (hcovered : Covered sh.table)
    (as : List (ι × Env)) (hguard : Along (step acct) Guarded (initial sh) as) :
    Always (step acct) ReleaseSound (initial sh) as :=
  (hguard.always orderly_step (orderly_initial hsh hcovered)).mono fun _ h ↦ h.releaseSound

end Runs

section Examples

def fullMilestone (id : ℕ) (target : ℚ) (h : 0 < target) : Milestone :=
  ⟨id, "Milestone", target, none, h, by rintro p ⟨⟩⟩

def halfMilestone (id : ℕ) (target : ℚ) (h : 0 < target) : Milestone :=
  ⟨id, "Milestone", target, some 50, h, by rintro p ⟨⟩; decide⟩

def campaignWith (milestones : List Milestone) : Shared where
  campaign := some ⟨1, .keepWhatYouRaise, .active, none, 0, 500, some "GRECIPIENT"⟩
  milestones := milestones.map (⟨·, .pending, none, none, none⟩)
  releases := []
  passed := []

def twoMilestones : Shared :=
  campaignWith [fullMilestone 1 100 (by decide), fullMilestone 2 200 (by decide)]

def oneMilestone : Shared := campaignWith [fullMilestone 1 100 (by decide)]

def releaseEnv (currentAmount : ℚ) : Env := ⟨⟨0, none, .ok (some "hash"), false⟩, currentAmount⟩

/-- One call releases 300 XLM when 200 are raised; and two calls that overlap release a milestone
twice. -/
theorem milestones_overpaid :
    ¬Always (step plainAccount) ReleaseSound (initial twoMilestones)
      (List.replicate 7 ((0 : Fin 2), releaseEnv 200)) ∧
    ¬Always (step plainAccount) ReleaseSound (initial oneMilestone)
      (List.replicate 3 ((0 : Fin 2), releaseEnv 100) ++ List.replicate 4 (1, releaseEnv 100)
        ++ [(0, releaseEnv 100)]) := by
  constructor
  · intro h
    have htotal : (run (step plainAccount) (initial twoMilestones)
        (List.replicate 7 ((0 : Fin 2), releaseEnv 200))).shared.total = 300 := by
      decide +kernel
    have hpassed : (run (step plainAccount) (initial twoMilestones)
        (List.replicate 7 ((0 : Fin 2), releaseEnv 200))).shared.passed = [200] := by
      decide
    have hbound := h.last.bounded
    rw [htotal, hpassed] at hbound
    exact absurd hbound (by decide)
  · intro h
    have htwice : (run (step plainAccount) (initial oneMilestone)
        (List.replicate 3 ((0 : Fin 2), releaseEnv 100) ++ List.replicate 4 (1, releaseEnv 100)
          ++ [(0, releaseEnv 100)])).shared.released 1 = 2 := by
      decide
    have honce := h.last.once 1
    rw [htwice] at honce
    exact absurd honce (by decide)

/-- Two halves are released one after the other. -/
theorem milestones_released_once_undisturbed :
    Always (step plainAccount) ReleaseSound
      (initial (campaignWith [halfMilestone 1 100 (by decide), halfMilestone 2 200 (by decide)]))
      (List.replicate 7 ((0 : Fin 2), releaseEnv 100)
        ++ List.replicate 7 (1, releaseEnv 200)) :=
  milestones_released_once ⟨by decide, by decide, rfl⟩ (by decide +kernel) _ (by decide +kernel)

end Examples

end StellarDonations.Crowdfunding.Milestones
