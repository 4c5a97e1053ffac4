import Mathlib.Algebra.Order.Ring.Rat
import StellarDonations.Concurrency.Run
import StellarDonations.Numeric.Decimal

/-!
# The milestone mask of a campaign

`CampaignMilestoneService.checkMilestones` is called after each contribution. It compares the
percentage raised with four milestones, returns those that were not recorded before, and records
them in a bit mask.

The loop reads the mask once, before the first milestone, and stores for each milestone the mask it
has read with that one bit added. Of several milestones reached by one contribution only the last
is recorded, and the next call returns the others again. The mask is right in every state of a run
exactly when no contribution passes more than one milestone (`always_recorded_iff`).
-/

namespace StellarDonations.CampaignMilestones

open Concurrency Decimal

structure Milestone where
  percent : ℕ
  bitmask : ℕ
  deriving DecidableEq

def milestones : List Milestone := [⟨25, 1⟩, ⟨50, 2⟩, ⟨75, 4⟩, ⟨100, 8⟩]

/-- A row of `campaigns` that is not deleted. -/
structure Campaign where
  id : ℕ
  name : String
  goalAmount : ℚ
  currentAmount : ℚ
  milestonesReached : Option ℕ
  notificationEmail : Option String
  deriving DecidableEq

/-- A milestone as `checkMilestones` returns it. -/
structure Reached where
  campaignId : ℕ
  campaignName : String
  percent : ℕ
  goalAmount : ℚ
  currentAmount : ℚ
  notificationEmail : Option String
  deriving DecidableEq

/-- The data of the event `campaign.milestone_reached`. -/
structure MilestoneEvent where
  campaignId : ℕ
  campaignName : String
  milestonePercent : ℕ
  currentAmount : ℚ
  goalAmount : ℚ
  percentageComplete : ℚ
  deriving DecidableEq

/-! ## The check -/

def Campaign.currentPercent (c : Campaign) : ℚ := c.currentAmount / c.goalAmount * 100

def Campaign.reachedMask (c : Campaign) : ℕ := c.milestonesReached.getD 0

/-- The milestone is reached and not yet recorded. -/
def isNew (reachedMask : ℕ) (currentPercent : ℚ) (m : Milestone) : Bool :=
  m.percent ≤ currentPercent && reachedMask &&& m.bitmask = 0

/-- One round of the loop. The mask that is stored extends the one read before the loop. -/
def checkMilestone (reachedMask : ℕ) (currentPercent : ℚ) (acc : Option ℕ × List Milestone)
    (m : Milestone) : Option ℕ × List Milestone :=
  if isNew reachedMask currentPercent m then (some (reachedMask ||| m.bitmask), acc.2 ++ [m])
  else acc

/-- The entry of `newlyReached` for a milestone. -/
def Campaign.reached (c : Campaign) (m : Milestone) : Reached where
  campaignId := c.id
  campaignName := c.name
  percent := m.percent
  goalAmount := c.goalAmount
  currentAmount := c.currentAmount
  notificationEmail := c.notificationEmail

def Reached.event (r : Reached) : MilestoneEvent where
  campaignId := r.campaignId
  campaignName := r.campaignName
  milestonePercent := r.percent
  currentAmount := r.currentAmount
  goalAmount := r.goalAmount
  percentageComplete := toFixed 2 (r.currentAmount / r.goalAmount * 100)

/-- `checkMilestones`: the row afterwards, what is returned, and the events emitted. -/
def checkMilestones (c : Campaign) : Campaign × List Reached × List MilestoneEvent :=
  if c.goalAmount ≤ 0 then (c, [], [])
  else
    let (mask, newlyReached) :=
      milestones.foldl (checkMilestone c.reachedMask c.currentPercent) (c.milestonesReached, [])
    let result := newlyReached.map c.reached
    ({ c with milestonesReached := mask }, result, result.map Reached.event)

/-! ## What the loop does -/

def newMilestones (reachedMask : ℕ) (currentPercent : ℚ) : List Milestone :=
  milestones.filter (isNew reachedMask currentPercent)

/-- The mask the loop leaves: the one it has read, with the bit of the last new milestone. -/
def recorded (reachedMask : ℕ) (ms : List Milestone) : ℕ :=
  ms.foldl (fun _ m ↦ reachedMask ||| m.bitmask) reachedMask

theorem foldl_checkMilestone (reachedMask : ℕ) (p : ℚ) (ms : List Milestone)
    (mask : Option ℕ) (acc : List Milestone) :
    ms.foldl (checkMilestone reachedMask p) (mask, acc) =
      ((ms.filter (isNew reachedMask p)).foldl (fun _ m ↦ some (reachedMask ||| m.bitmask)) mask,
        acc ++ ms.filter (isNew reachedMask p)) := by
  induction ms generalizing mask acc with
  | nil => rw [List.filter_nil, List.append_nil, List.foldl_nil, List.foldl_nil]
  | cons m ms ih =>
    rw [List.foldl_cons, checkMilestone, List.filter_cons]
    split
    · rw [ih, List.foldl_cons, List.append_assoc, List.singleton_append]
    · exact ih mask acc

theorem getD_foldl_some (reachedMask : ℕ) (ms : List Milestone) {mask : Option ℕ}
    (h : mask.getD 0 = reachedMask) :
    (ms.foldl (fun _ m ↦ some (reachedMask ||| m.bitmask)) mask).getD 0
      = recorded reachedMask ms := by
  rcases List.eq_nil_or_concat ms with rfl | ⟨init, last, rfl⟩
  · exact h
  · rw [List.concat_eq_append, recorded, List.foldl_concat, List.foldl_concat, Option.getD_some]

/-! ## The bits of a percentage -/

def upTo (p : ℚ) : List Milestone := milestones.filter fun m ↦ (m.percent : ℚ) ≤ p

/-- The mask with the bits of some milestones. -/
def maskOf (ms : List Milestone) : ℕ := ms.foldl (fun mask m ↦ mask ||| m.bitmask) 0

/-- The milestones above one percentage and not above another. -/
def between (p q : ℚ) : List Milestone :=
  milestones.filter fun m ↦ (m.percent : ℚ) ≤ q && !decide ((m.percent : ℚ) ≤ p)

/-- Every selection of milestones can be told from its mask. -/
theorem maskOf_and_bitmask : ∀ ms ∈ milestones.sublists, ∀ m ∈ milestones,
    maskOf ms &&& m.bitmask = 0 ↔ m ∉ ms := by
  decide

/-- The loop records what it finds exactly when it finds at most one milestone. -/
theorem recorded_eq_maskOf : ∀ ms ∈ milestones.sublists, ∀ new ∈ milestones.sublists,
    (∀ m ∈ new, m ∉ ms) →
      (recorded (maskOf ms) new = maskOf (milestones.filter fun m ↦ m ∈ ms ∨ m ∈ new) ↔
        new.length ≤ 1) := by
  decide

theorem filter_mem_sublists (f : Milestone → Bool) : milestones.filter f ∈ milestones.sublists :=
  List.mem_sublists.mpr List.filter_sublist

theorem upTo_mem_sublists (p : ℚ) : upTo p ∈ milestones.sublists := filter_mem_sublists _

theorem between_mem_sublists (p q : ℚ) : between p q ∈ milestones.sublists :=
  filter_mem_sublists _

theorem mem_upTo {p : ℚ} {m : Milestone} (hm : m ∈ milestones) :
    m ∈ upTo p ↔ (m.percent : ℚ) ≤ p := by
  rw [upTo, List.mem_filter, decide_eq_true_iff]
  exact and_iff_right hm

theorem mem_between {p q : ℚ} {m : Milestone} (hm : m ∈ milestones) :
    m ∈ between p q ↔ (m.percent : ℚ) ≤ q ∧ ¬(m.percent : ℚ) ≤ p := by
  rw [between, List.mem_filter, Bool.and_eq_true, decide_eq_true_iff, Bool.not_eq_true',
    decide_eq_false_iff_not]
  exact and_iff_right hm

theorem newMilestones_maskOf (p q : ℚ) : newMilestones (maskOf (upTo p)) q = between p q := by
  refine List.filter_congr fun m hm ↦ ?_
  have hbit := (maskOf_and_bitmask _ (upTo_mem_sublists p) m hm).trans
    (mem_upTo hm).not
  rw [isNew, decide_eq_decide.mpr hbit, decide_not]

theorem upTo_max (p q : ℚ) :
    upTo (max p q) = milestones.filter fun m ↦ m ∈ upTo p ∨ m ∈ between p q := by
  refine List.filter_congr fun m hm ↦ decide_eq_decide.mpr ?_
  rw [mem_upTo hm, mem_between hm, le_max_iff]
  tauto

/-- **The mask after one call**, from a mask that was right before. -/
theorem recorded_between (p q : ℚ) :
    recorded (maskOf (upTo p)) (between p q) = maskOf (upTo (max p q)) ↔
      (between p q).length ≤ 1 := by
  rw [upTo_max]
  refine recorded_eq_maskOf _ (upTo_mem_sublists p) _ (between_mem_sublists p q) fun m hm ↦ ?_
  have hmem : m ∈ milestones := List.mem_of_mem_filter hm
  exact fun hin ↦ ((mem_between hmem).mp hm).2 ((mem_upTo hmem).mp hin)

/-! ## Runs -/

/-- The percentage a campaign has raised; without a goal it has raised none. -/
def Campaign.percent (c : Campaign) : ℚ := if c.goalAmount ≤ 0 then 0 else c.currentPercent

/-- `UPDATE campaigns SET current_amount = current_amount + ?`. -/
def Campaign.add (c : Campaign) (amount : ℚ) : Campaign :=
  { c with currentAmount := c.currentAmount + amount }

/-- A campaign, the highest percentage it has had, and the percents of all milestones returned. -/
structure History where
  campaign : Campaign
  peak : ℚ
  returned : List ℕ

/-- A history begins with what the campaign has raised, and the milestones up to it returned. -/
def History.start (c : Campaign) : History := ⟨c, c.percent, (upTo c.percent).map (·.percent)⟩

/-- A contribution, followed by `checkMilestones`. -/
def contribute (h : History) (amount : ℚ) : History :=
  let (c, reached, _) := checkMilestones (h.campaign.add amount)
  ⟨c, max h.peak c.percent, h.returned ++ reached.map (·.percent)⟩

/-- The mask has the bits of the milestones not above the highest percentage, and each of these
milestones has been returned once, no other one ever. -/
structure Recorded (h : History) : Prop where
  mask : h.campaign.reachedMask = maskOf (upTo h.peak)
  once : ∀ m ∈ milestones, h.returned.count m.percent = if (m.percent : ℚ) ≤ h.peak then 1 else 0

/-- The contribution passes at most one milestone. -/
def PassesOne (h : History) (amount : ℚ) : Prop :=
  (between h.peak (h.campaign.add amount).percent).length ≤ 1

instance (h : History) (amount : ℚ) : Decidable (PassesOne h amount) :=
  inferInstanceAs (Decidable (_ ≤ _))

theorem count_map_percent : ∀ ms ∈ milestones.sublists, ∀ m ∈ milestones,
    (ms.map (·.percent)).count m.percent = if m ∈ ms then 1 else 0 := by
  decide

theorem between_zero (p : ℚ) : between p 0 = [] := by
  have hpos : ∀ m ∈ milestones, 0 < m.percent := by decide
  refine List.filter_eq_nil_iff.mpr fun m hm ↦ ?_
  have hnot : ¬(m.percent : ℚ) ≤ 0 := not_le.mpr (Nat.cast_pos.mpr (hpos m hm))
  rw [decide_eq_false hnot, Bool.false_and]
  exact Bool.false_ne_true

/-- **One call**, from a mask that is right up to some percentage. -/
theorem checkMilestones_of_mask {c : Campaign} {p : ℚ} (hmask : c.reachedMask = maskOf (upTo p)) :
    (checkMilestones c).1.reachedMask = recorded (maskOf (upTo p)) (between p c.percent) ∧
      (checkMilestones c).2.1.map (·.percent) = (between p c.percent).map (·.percent) ∧
      (checkMilestones c).1.percent = c.percent := by
  by_cases hgoal : c.goalAmount ≤ 0
  · rw [checkMilestones, if_pos hgoal, Campaign.percent, if_pos hgoal, between_zero]
    exact ⟨hmask, rfl, rfl⟩
  · rw [checkMilestones, if_neg hgoal, Campaign.percent, if_neg hgoal, ← newMilestones_maskOf,
      foldl_checkMilestone, hmask, List.nil_append]
    refine ⟨?_, ?_, ?_⟩
    · exact getD_foldl_some _ _ hmask
    · rw [List.map_map]
      rfl
    · exact if_neg hgoal

/-- One contribution, from a mask that is right. -/
theorem contribute_of_mask {h : History} (hmask : h.campaign.reachedMask = maskOf (upTo h.peak))
    (amount : ℚ) :
    (contribute h amount).peak = max h.peak (h.campaign.add amount).percent ∧
      (contribute h amount).campaign.reachedMask =
        recorded (maskOf (upTo h.peak)) (between h.peak (h.campaign.add amount).percent) ∧
      (contribute h amount).returned = h.returned ++
        (between h.peak (h.campaign.add amount).percent).map (·.percent) := by
  have hadd : (h.campaign.add amount).reachedMask = maskOf (upTo h.peak) := hmask
  obtain ⟨hafter, hreturned, hpercent⟩ := checkMilestones_of_mask hadd
  exact ⟨congrArg (max h.peak) hpercent, hafter, congrArg (h.returned ++ ·) hreturned⟩

theorem Recorded.contribute {h : History} (hrec : Recorded h) {amount : ℚ}
    (hone : PassesOne h amount) : Recorded (contribute h amount) := by
  obtain ⟨hpeak, hmask, hreturned⟩ := contribute_of_mask hrec.mask amount
  refine ⟨?_, fun m hm ↦ ?_⟩
  · rw [hmask, hpeak]
    exact (recorded_between _ _).mpr hone
  · rw [hreturned, hpeak, List.count_append, hrec.once m hm,
      count_map_percent _ (between_mem_sublists _ _) m hm]
    -- returned before, returned now, or above both percentages
    simp only [mem_between hm, le_max_iff]
    by_cases hbefore : (m.percent : ℚ) ≤ h.peak
    · simp [hbefore]
    · simp [hbefore]

/-- **The exact condition.** The record is right throughout a run exactly when no contribution
passes more than one milestone. -/
theorem always_recorded_iff {c : Campaign} (hc : c.reachedMask = maskOf (upTo c.percent))
    (amounts : List ℚ) :
    Always contribute Recorded (.start c) amounts ↔
      Along contribute PassesOne (.start c) amounts := by
  refine always_iff_along (fun h hrec ↦ hrec) (fun h amount hrec hone ↦ hrec.contribute hone)
    (fun h amount hrec hmany hafter ↦ ?_) ⟨hc, fun m hm ↦ ?_⟩ amounts
  · obtain ⟨hpeak, hmask, -⟩ := contribute_of_mask hrec.mask amount
    have hright := hafter.mask
    rw [hmask, hpeak] at hright
    exact hmany ((recorded_between _ _).mp hright)
  · refine (count_map_percent _ (upTo_mem_sublists _) m hm).trans ?_
    exact if_congr (mem_upTo hm) rfl rfl

section Examples

def newCampaign : Campaign := ⟨1, "Well", 100, 0, none, none⟩

/-- Of the two milestones that 60 XLM pass only the second is recorded. -/
theorem sixty_at_once : newCampaign.reachedMask = maskOf (upTo newCampaign.percent) ∧
    ¬Always contribute Recorded (.start newCampaign) [60] := by
  refine ⟨by decide +kernel, fun h ↦ ?_⟩
  exact absurd h.last.mask (by decide +kernel)

/-- Four steps of 25 XLM. -/
theorem always_recorded_iff_at :
    Always contribute Recorded (.start newCampaign) [25, 25, 25, 25] :=
  (always_recorded_iff (by decide +kernel) _).mpr (by decide +kernel)

end Examples

end StellarDonations.CampaignMilestones
