import Mathlib.Tactic.Ring
import StellarDonations.Concurrency.Interleaving
import StellarDonations.Numeric.Binary64

/-!
# Contributions to a campaign

`DonationService.processCampaignContribution` is called after each donation to a campaign. It adds
the amount to the campaign, reads the campaign back, records the milestones that are reached and
not yet recorded, announces each of them by an event and a webhook, and closes the campaign when
its goal is reached. The calls for one campaign are modelled, with every `await` a suspension
point.

The amount is added by one statement, so no contribution is lost; a contribution that finds the
campaign closed is ignored on purpose. The amounts are doubles, and each sum is rounded to one; that
keeps the amount from going down, which is all that the milestones need. A milestone is announced at
least once, whatever the order of the calls (`Pursued`), and exactly once when no call reads the
campaign while another one has read it and has not recorded its milestones (`Exact`).
-/

namespace StellarDonations.CampaignContribution

open Concurrency

/-! ## The tables -/

inductive CampaignStatus where
  | active
  | closed
  | other (status : String)
  deriving DecidableEq

structure Campaign where
  id : ℕ
  name : String
  goalAmount : Binary64
  /-- The column is declared `CHECK(goal_amount > 0)`. -/
  goal_pos : 0 < goalAmount
  currentAmount : Binary64
  status : CampaignStatus
  /-- `none` is `NULL`, or a text that is not an array. -/
  notifiedMilestones : Option (List ℚ)

/-- What the event and the webhook of a milestone carry. -/
structure MilestoneData where
  campaignId : ℕ
  campaignName : String
  milestonePercentage : ℤ
  currentAmount : Binary64
  goalAmount : Binary64
  progressPercentage : ℤ
  deriving DecidableEq

structure GoalReachedData where
  campaignId : ℕ
  campaignName : String
  goalAmount : Binary64
  finalAmount : Binary64
  deriving DecidableEq

/-- The row of the campaign, the milestones emitted and delivered, and the goals reached. -/
structure Db where
  campaign : Option Campaign
  events : List MilestoneData
  webhooks : List MilestoneData
  goalEvents : List GoalReachedData
  goalWebhooks : List GoalReachedData

def Db.updateCampaign (db : Db) (f : Campaign → Campaign) : Db :=
  { db with campaign := db.campaign.map f }

/-! ## Milestones -/

def milestones : List ℚ := [1 / 4, 1 / 2, 3 / 4, 1]

def checkMilestones (totalRaised goalAmount : Binary64) : List ℚ :=
  let currentProgress := totalRaised / goalAmount
  milestones.filter fun m ↦ m ≤ currentProgress.val

/-- `Math.round`. -/
def mathRound (x : ℚ) : ℤ := ⌊x + 1 / 2⌋

/-- `Math.round(milestone * 100)`. -/
def percentage (milestone : ℚ) : ℤ := mathRound (milestone * 100)

namespace Campaign

def getNotifiedMilestones (c : Campaign) : List ℚ := c.notifiedMilestones.getD []

def newMilestones (c : Campaign) : List ℚ :=
  (checkMilestones c.currentAmount c.goalAmount).filter fun m ↦ m ∉ c.getNotifiedMilestones

def updatedNotified (c : Campaign) : List ℚ := c.getNotifiedMilestones ++ c.newMilestones

def milestoneData (c : Campaign) (milestone : ℚ) : MilestoneData where
  campaignId := c.id
  campaignName := c.name
  milestonePercentage := percentage milestone
  currentAmount := c.currentAmount
  goalAmount := c.goalAmount
  progressPercentage := mathRound (c.currentAmount / c.goalAmount * 100).val

def goalReachedData (c : Campaign) : GoalReachedData where
  campaignId := c.id
  campaignName := c.name
  goalAmount := c.goalAmount
  finalAmount := c.currentAmount

/-- `current_amount = current_amount + ?`. -/
def add (c : Campaign) (amount : Binary64) : Campaign :=
  { c with currentAmount := c.currentAmount + amount }

def setNotified (c : Campaign) (notified : List ℚ) : Campaign :=
  { c with notifiedMilestones := some notified }

def close (c : Campaign) : Campaign := { c with status := .closed }

end Campaign

/-! ## The calls -/

/-- What `processCampaignContribution` is suspended on, with the row it has read. -/
inductive Call where
  /-- The `UPDATE` of `current_amount`. -/
  | contribute (amount : Binary64)
  /-- The `SELECT` of the campaign. -/
  | select
  /-- The `UPDATE` of `notified_milestones`. -/
  | record (campaign : Campaign)
  /-- The webhook of a milestone, with those still to deliver. -/
  | deliver (campaign : Campaign) (milestone : ℚ) (rest : List ℚ)
  /-- The `UPDATE` of the status. -/
  | close (campaign : Campaign)
  /-- The webhook of the goal. -/
  | deliverGoal (campaign : Campaign)
  /-- Returned. -/
  | done
  /-- Returned without an effect: there is no active campaign. -/
  | ignored
  /-- The first statement has thrown. -/
  | rejected
  /-- The `SELECT` has thrown. -/
  | failed

structure Env where
  dbError : Bool

def checkGoal (campaign : Campaign) : Call :=
  if campaign.goalAmount ≤ campaign.currentAmount ∧ campaign.status = .active then .close campaign
  else .done

def deliverNext (campaign : Campaign) : List ℚ → Call
  | [] => checkGoal campaign
  | milestone :: rest => .deliver campaign milestone rest

/-- Resume a call: execute the statement it is suspended on and run it up to the next one. -/
def resume (db : Db) (c : Call) (env : Env) : Db × Call :=
  match c with
  | .contribute amount =>
    if env.dbError then (db, .rejected)
    else if db.campaign.any (·.status = .active) then
      (db.updateCampaign (·.add amount), .select)
    else (db, .ignored)
  | .select =>
    if env.dbError then (db, .failed)
    else match db.campaign with
      | none => (db, .done)
      | some campaign =>
        if campaign.newMilestones = [] then (db, checkGoal campaign) else (db, .record campaign)
  | .record campaign =>
    -- when the `UPDATE` fails the milestones are announced all the same
    let db := if env.dbError then db
      else db.updateCampaign (·.setNotified campaign.updatedNotified)
    ({ db with events := db.events ++ campaign.newMilestones.map campaign.milestoneData },
      deliverNext campaign campaign.newMilestones)
  | .deliver campaign milestone rest =>
    ({ db with webhooks := db.webhooks ++ [campaign.milestoneData milestone] },
      deliverNext campaign rest)
  | .close campaign =>
    if env.dbError then (db, .done)
    else
      let db := db.updateCampaign Campaign.close
      ({ db with goalEvents := db.goalEvents ++ [campaign.goalReachedData] },
        .deliverGoal campaign)
  | .deliverGoal campaign =>
    ({ db with goalWebhooks := db.goalWebhooks ++ [campaign.goalReachedData] }, .done)
  | .done => (db, .done)
  | .ignored => (db, .ignored)
  | .rejected => (db, .rejected)
  | .failed => (db, .failed)

variable {ι : Type*}

/-- The database and all calls for the campaign. -/
abbrev State (ι : Type*) := Calls ι Db Call

def step [DecidableEq ι] (s : State ι) (a : ι × Env) : State ι := s.step resume a

def start (c : Campaign) (amount : ι → Binary64) : State ι :=
  ⟨⟨some c, [], [], [], []⟩, fun i ↦ .contribute (amount i)⟩

/-! ## The milestones of a campaign -/

/-- The campaign has raised the share of its goal that the milestone names. -/
def Campaign.Reached (c : Campaign) (m : ℚ) : Prop := m ≤ (c.currentAmount / c.goalAmount).val

instance (c : Campaign) (m : ℚ) : Decidable (c.Reached m) := inferInstanceAs (Decidable (_ ≤ _))

theorem nodup_milestones : milestones.Nodup := by decide +kernel

theorem percentage_inj : ∀ m ∈ milestones, ∀ n ∈ milestones,
    percentage n = percentage m ↔ n = m := by
  decide +kernel

namespace Campaign

variable {c d : Campaign} {m : ℚ}

theorem mem_newMilestones :
    m ∈ c.newMilestones ↔ m ∈ milestones ∧ c.Reached m ∧ m ∉ c.getNotifiedMilestones := by
  rw [newMilestones, checkMilestones, List.mem_filter, List.mem_filter, decide_eq_true_iff,
    decide_eq_true_iff, and_assoc]
  rfl

theorem nodup_newMilestones (c : Campaign) : c.newMilestones.Nodup := by
  rw [newMilestones, checkMilestones]
  exact (nodup_milestones.filter _).filter _

theorem mem_updatedNotified :
    m ∈ c.updatedNotified ↔ m ∈ c.getNotifiedMilestones ∨ m ∈ c.newMilestones :=
  List.mem_append

theorem Reached.mono (h : c.Reached m) (hgoal : d.goalAmount = c.goalAmount)
    (hamount : c.currentAmount ≤ d.currentAmount) : d.Reached m := by
  rw [Reached, hgoal]
  exact h.trans (Binary64.le_def.mp (Binary64.div_le_div_of_pos hamount c.goal_pos))

end Campaign

/-! ## Counting announcements -/

/-- How often a milestone is among some announcements. -/
def announced (m : ℚ) (l : List MilestoneData) : ℕ :=
  l.countP fun d ↦ d.milestonePercentage = percentage m

theorem announced_append (m : ℚ) (l l' : List MilestoneData) :
    announced m (l ++ l') = announced m l + announced m l' := List.countP_append

theorem announced_map {m : ℚ} (hm : m ∈ milestones) (c : Campaign) (ms : List ℚ)
    (hms : ∀ n ∈ ms, n ∈ milestones) : announced m (ms.map c.milestoneData) = ms.count m := by
  rw [announced, List.countP_map, List.count]
  refine List.countP_congr fun n hn ↦ ?_
  rw [Function.comp_apply, decide_eq_true_iff, beq_iff_eq]
  exact percentage_inj m hm n (hms n hn)

theorem announced_newMilestones {m : ℚ} (hm : m ∈ milestones) (c : Campaign) :
    announced m (c.newMilestones.map c.milestoneData) = if m ∈ c.newMilestones then 1 else 0 := by
  rw [announced_map hm c _ fun n hn ↦ (Campaign.mem_newMilestones.mp hn).1]
  exact c.nodup_newMilestones.count

/-! ## What a step does -/

namespace Call

def counted : Call → Bool
  | .contribute _ | .ignored | .rejected => false
  | .select | .record _ | .deliver _ _ _ | .close _ | .deliverGoal _ | .done | .failed => true

/-- The call is about to read the campaign. -/
def Reading : Call → Prop
  | .select => True
  | _ => False

/-- The call has read the campaign and not yet recorded its milestones. -/
def Recording : Call → Prop
  | .record _ => True
  | _ => False

/-- The call will still read whether the milestone is reached, or announce it. -/
def Due (m : ℚ) : Call → Prop
  | .select => True
  | .record campaign => m ∈ campaign.newMilestones
  | _ => False

/-- The milestones that are emitted and not yet delivered. -/
def undelivered : Call → List ℚ
  | .deliver _ milestone rest => milestone :: rest
  | _ => []

/-- The call has nothing to do with the amounts and the milestones. -/
def Idle : Call → Prop
  | .close _ | .deliverGoal _ | .done | .ignored | .rejected | .failed => True
  | .contribute _ | .select | .record _ | .deliver _ _ _ => False

def Returned : Call → Prop
  | .done | .ignored | .rejected | .failed => True
  | _ => False

instance : DecidablePred Reading
  | .select => isTrue trivial
  | .contribute _ | .record _ | .deliver _ _ _ | .close _ | .deliverGoal _ | .done | .ignored
  | .rejected | .failed => isFalse id

instance : DecidablePred Recording
  | .record _ => isTrue trivial
  | .contribute _ | .select | .deliver _ _ _ | .close _ | .deliverGoal _ | .done | .ignored
  | .rejected | .failed => isFalse id

instance : DecidablePred Returned
  | .done | .ignored | .rejected | .failed => isTrue trivial
  | .contribute _ | .select | .record _ | .deliver _ _ _ | .close _ | .deliverGoal _ => isFalse id

end Call

theorem idle_checkGoal (c : Campaign) : (checkGoal c).Idle := by
  rw [checkGoal]
  split <;> trivial

theorem counted_checkGoal (c : Campaign) : (checkGoal c).counted = true := by
  rw [checkGoal]
  split <;> rfl

theorem counted_deliverNext (c : Campaign) (ms : List ℚ) : (deliverNext c ms).counted = true := by
  cases ms with
  | nil => exact counted_checkGoal c
  | cons m rest => rfl

theorem Call.Idle.undelivered {x : Call} (h : x.Idle) : x.undelivered = [] := by
  cases x <;> first | rfl | exact h.elim

theorem Call.Idle.not_due {x : Call} (h : x.Idle) (m : ℚ) : ¬x.Due m := by
  cases x <;> first | exact id | exact h.elim

theorem Call.Idle.not_recording {x : Call} (h : x.Idle) : ¬x.Recording := by
  cases x <;> first | exact id | exact h.elim

theorem not_recording_deliverNext (c : Campaign) (ms : List ℚ) :
    ¬(deliverNext c ms).Recording := by
  cases ms with
  | nil => exact (idle_checkGoal c).not_recording
  | cons m rest => exact id

theorem Call.ne_record {x : Call} (h : ¬x.Recording) (campaign : Campaign) :
    x ≠ .record campaign := by
  intro hx
  rw [hx] at h
  exact h trivial

theorem Call.Returned.idle {x : Call} (h : x.Returned) : x.Idle := by
  cases x with
  | contribute | select | record | deliver | close | deliverGoal => exact h.elim
  | done | ignored | rejected | failed => trivial

theorem undelivered_deliverNext (c : Campaign) (ms : List ℚ) :
    (deliverNext c ms).undelivered = ms := by
  cases ms with
  | nil => exact (idle_checkGoal c).undelivered
  | cons m rest => rfl

/-- A step that leaves the amounts and the milestones alone. -/
structure Idles (row : Campaign) (db : Db) (x : Call) (env : Env) (db' : Db) (x' : Call) :
    Prop where
  campaign : ∃ status, (status = row.status ∨ status = .closed) ∧
    db'.campaign = some { row with status := status }
  events : db'.events = db.events
  webhooks : db'.webhooks = db.webhooks
  before : x.Idle ∨ (∃ amount, x = .contribute amount) ∨ x = .select ∧ env.dbError = true
  after : x'.Idle
  counted : x'.counted = x.counted
  ignored : x' = .ignored → x = .ignored ∨ row.status ≠ .active

theorem idles_of_eq {row : Campaign} {db : Db} (hrow : db.campaign = some row) {x : Call}
    {env : Env} (hx : x.Idle) : Idles row db x env db x :=
  ⟨⟨row.status, Or.inl rfl, hrow⟩, rfl, rfl, Or.inl hx, hx, rfl, Or.inl⟩

/-- **What a step does**: it adds an amount, reads the campaign, records and emits milestones,
delivers one, or does nothing to them. -/
theorem resume_cases {db : Db} {row : Campaign} (hrow : db.campaign = some row) (x : Call)
    (env : Env) :
    (∃ amount, x = .contribute amount ∧ row.status = .active ∧
      resume db x env = ({ db with campaign := some (row.add amount) }, .select)) ∨
    (x = .select ∧
      resume db x env =
        (db, if row.newMilestones = [] then checkGoal row else .record row)) ∨
    (∃ campaign row', x = .record campaign ∧
      (env.dbError = true ∧ row' = row ∨ row' = row.setNotified campaign.updatedNotified) ∧
      resume db x env = ({ db with campaign := some row',
                                   events := db.events ++
                                     campaign.newMilestones.map campaign.milestoneData },
        deliverNext campaign campaign.newMilestones)) ∨
    (∃ campaign m rest, x = .deliver campaign m rest ∧
      resume db x env = ({ db with webhooks := db.webhooks ++ [campaign.milestoneData m] },
        deliverNext campaign rest)) ∨
    Idles row db x env (resume db x env).1 (resume db x env).2 := by
  cases x with
  | contribute amount =>
    rw [resume]
    by_cases herror : env.dbError
    · rw [if_pos herror]
      refine Or.inr (Or.inr (Or.inr (Or.inr
        ⟨⟨_, Or.inl rfl, hrow⟩, rfl, rfl, ?_, trivial, rfl, ?_⟩)))
      · exact Or.inr (Or.inl ⟨amount, rfl⟩)
      · intro h
        cases h
    · rw [if_neg herror, hrow, Option.any_some]
      by_cases hactive : row.status = .active
      · rw [if_pos (decide_eq_true hactive), Db.updateCampaign, hrow]
        exact Or.inl ⟨amount, rfl, hactive, rfl⟩
      · rw [if_neg (fun h ↦ hactive (of_decide_eq_true h))]
        refine Or.inr (Or.inr (Or.inr (Or.inr
          ⟨⟨_, Or.inl rfl, hrow⟩, rfl, rfl, ?_, trivial, rfl, fun _ ↦ Or.inr hactive⟩)))
        exact Or.inr (Or.inl ⟨amount, rfl⟩)
  | select =>
    rw [resume]
    by_cases herror : env.dbError
    · rw [if_pos herror]
      refine Or.inr (Or.inr (Or.inr (Or.inr
        ⟨⟨_, Or.inl rfl, hrow⟩, rfl, rfl, ?_, trivial, rfl, ?_⟩)))
      · exact Or.inr (Or.inr ⟨rfl, herror⟩)
      · intro h
        cases h
    · rw [if_neg herror, hrow]
      refine Or.inr (Or.inl ⟨rfl, ?_⟩)
      rw [apply_ite (Prod.mk db)]
  | record campaign =>
    refine Or.inr (Or.inr (Or.inl ?_))
    rw [resume]
    by_cases herror : env.dbError
    · refine ⟨campaign, row, rfl, Or.inl ⟨herror, rfl⟩, ?_⟩
      rw [if_pos herror, hrow]
    · refine ⟨campaign, _, rfl, Or.inr rfl, ?_⟩
      rw [if_neg herror, Db.updateCampaign, hrow]
      rfl
  | deliver campaign m rest => exact Or.inr (Or.inr (Or.inr (Or.inl ⟨campaign, m, rest, rfl, rfl⟩)))
  | close campaign =>
    refine Or.inr (Or.inr (Or.inr (Or.inr ?_)))
    rw [resume]
    split
    · refine ⟨⟨_, Or.inl rfl, hrow⟩, rfl, rfl, Or.inl trivial, trivial, rfl, ?_⟩
      intro h
      cases h
    · refine ⟨⟨.closed, Or.inr rfl, ?_⟩, rfl, rfl, Or.inl trivial, trivial, rfl, ?_⟩
      · rw [Db.updateCampaign, hrow]
        rfl
      · intro h
        cases h
  | deliverGoal campaign =>
    refine Or.inr (Or.inr (Or.inr (Or.inr
      ⟨⟨_, Or.inl rfl, hrow⟩, rfl, rfl, Or.inl trivial, trivial, rfl, ?_⟩)))
    intro h
    cases h
  | done => exact Or.inr (Or.inr (Or.inr (Or.inr (idles_of_eq hrow trivial))))
  | ignored => exact Or.inr (Or.inr (Or.inr (Or.inr (idles_of_eq hrow trivial))))
  | rejected => exact Or.inr (Or.inr (Or.inr (Or.inr (idles_of_eq hrow trivial))))
  | failed => exact Or.inr (Or.inr (Or.inr (Or.inr (idles_of_eq hrow trivial))))

/-! ## The amount -/

section Runs

variable [DecidableEq ι]

/-- `current_amount` after some amounts have been added, one after the other. -/
def Campaign.raised (c : Campaign) (amounts : List Binary64) : Binary64 :=
  amounts.foldl (· + ·) c.currentAmount

/-- What the amounts of a campaign add up to. -/
structure Counted (c : Campaign) (amount : ι → Binary64) (s : State ι) (row : Campaign) :
    Prop where
  total : ∃ order : List ι, order.Nodup ∧ (∀ i, i ∈ order ↔ (s.call i).counted = true) ∧
    row.currentAmount = c.raised (order.map amount)
  waiting : ∀ i a, s.call i = .contribute a → a = amount i
  ignored : ∀ i, s.call i = .ignored → row.status ≠ .active

theorem Call.ne_of_counted {x : Call} (h : x.counted = true) :
    (∀ a, x ≠ .contribute a) ∧ x ≠ .ignored := by
  refine ⟨fun a hx ↦ ?_, fun hx ↦ ?_⟩
  · rw [hx] at h
    cases h
  · rw [hx] at h
    cases h

/-- The step adds the amount of the call that it resumes, or nothing. -/
def Adds (amount : ι → Binary64) (s : State ι) (i : ι) (env : Env) (row row' : Campaign) : Prop :=
  (resume s.shared (s.call i) env).2.counted = (s.call i).counted ∧
      row'.currentAmount = row.currentAmount ∨
    (s.call i).counted = false ∧ (resume s.shared (s.call i) env).2.counted = true ∧
      row'.currentAmount = row.currentAmount + amount i

theorem Counted.total_of_adds {c : Campaign} {amount : ι → Binary64} {s : State ι}
    {row row' : Campaign} (h : Counted c amount s row) {i : ι} {env : Env}
    (hadds : Adds amount s i env row row') :
    ∃ order : List ι, order.Nodup ∧
      (∀ j, j ∈ order ↔ ((step s (i, env)).call j).counted = true) ∧
      row'.currentAmount = c.raised (order.map amount) := by
  obtain ⟨order, hnodup, hmem, htotal⟩ := h.total
  rcases hadds with ⟨hcounted, hamount⟩ | ⟨hbefore, hafter, hamount⟩
  · refine ⟨order, hnodup, fun j ↦ ?_, hamount.trans htotal⟩
    rcases eq_or_ne j i with rfl | hji
    · rw [step, Calls.step_call_self, hcounted, hmem]
    · rw [step, Calls.step_call_of_ne s env hji, hmem]
  · have hnot : i ∉ order := by
      rw [hmem, hbefore]
      exact Bool.false_ne_true
    refine ⟨order ++ [i], List.nodup_append.mpr ⟨hnodup, List.nodup_singleton i, ?_⟩, fun j ↦ ?_,
      ?_⟩
    · rintro j hj _ hi rfl
      exact hnot (List.mem_singleton.mp hi ▸ hj)
    · rw [List.mem_append, List.mem_singleton]
      rcases eq_or_ne j i with rfl | hji
      · rw [step, Calls.step_call_self, hafter]
        exact iff_of_true (.inr rfl) rfl
      · rw [step, Calls.step_call_of_ne s env hji, hmem, or_iff_left hji]
    · rw [hamount, htotal, Campaign.raised, Campaign.raised, List.map_append, List.foldl_append]
      rfl

theorem Counted.of_step {c : Campaign} {amount : ι → Binary64} {s : State ι}
    {row row' : Campaign} (h : Counted c amount s row) {i : ι} {env : Env}
    (hadds : Adds amount s i env row row')
    (hstatus : row'.status = row.status ∨ row'.status = .closed)
    (hwaiting : ∀ a, (resume s.shared (s.call i) env).2 ≠ .contribute a)
    (hignored : (resume s.shared (s.call i) env).2 = .ignored →
      s.call i = .ignored ∨ row.status ≠ .active) :
    Counted c amount (step s (i, env)) row' := by
  have hinactive : row.status ≠ .active → row'.status ≠ .active := by
    intro hrow
    rcases hstatus with hstatus | hstatus
    · rwa [hstatus]
    · rw [hstatus]
      exact CampaignStatus.noConfusion
  refine ⟨h.total_of_adds hadds, fun j a hj ↦ ?_, fun j hj ↦ hinactive ?_⟩
  · rcases eq_or_ne j i with rfl | hji
    · rw [step, Calls.step_call_self] at hj
      exact absurd hj (hwaiting a)
    · rw [step, Calls.step_call_of_ne s env hji] at hj
      exact h.waiting j a hj
  · rcases eq_or_ne j i with rfl | hji
    · rw [step, Calls.step_call_self] at hj
      exact (hignored hj).elim (h.ignored j) id
    · rw [step, Calls.step_call_of_ne s env hji] at hj
      exact h.ignored j hj

theorem Counted.of_counted {c : Campaign} {amount : ι → Binary64} {s : State ι}
    {row row' : Campaign} (h : Counted c amount s row) {i : ι} {env : Env}
    (hbefore : (s.call i).counted = true)
    (hafter : (resume s.shared (s.call i) env).2.counted = true)
    (hamount : row'.currentAmount = row.currentAmount) (hstatus : row'.status = row.status) :
    Counted c amount (step s (i, env)) row' := by
  obtain ⟨hwaiting, hignored⟩ := Call.ne_of_counted hafter
  exact h.of_step (.inl ⟨hafter.trans hbefore.symm, hamount⟩) (Or.inl hstatus) hwaiting
    fun hx ↦ absurd hx hignored

/-- **The amount after one step.** -/
theorem Counted.next {c : Campaign} {amount : ι → Binary64} {s : State ι} {row : Campaign}
    (hrow : s.shared.campaign = some row) (h : Counted c amount s row) (a : ι × Env) :
    ∃ row', (step s a).shared.campaign = some row' ∧ Counted c amount (step s a) row' := by
  obtain ⟨i, env⟩ := a
  have hshared : (step s (i, env)).shared = (resume s.shared (s.call i) env).1 := rfl
  rcases resume_cases hrow (s.call i) env with
    ⟨a, hx, hactive, hres⟩ | ⟨hx, hres⟩ | ⟨campaign, row', hx, hrow', hres⟩ |
    ⟨campaign, m, rest, hx, hres⟩ | hidle
  · refine ⟨row.add a, by rw [hshared, hres], h.of_step (.inr ⟨?_, ?_, ?_⟩) (Or.inl rfl) ?_ ?_⟩
    · rw [hx]
      rfl
    · rw [hres]
      rfl
    · rw [h.waiting i a hx]
      rfl
    · rw [hres]
      exact (Call.ne_of_counted rfl).1
    · rw [hres]
      exact fun hx ↦ absurd hx (Call.ne_of_counted rfl).2
  · refine ⟨row, by rw [hshared, hres, hrow], h.of_counted ?_ ?_ rfl rfl⟩
    · rw [hx]
      rfl
    · rw [hres]
      split_ifs
      · exact counted_checkGoal row
      · rfl
  · have hsame : row'.currentAmount = row.currentAmount ∧ row'.status = row.status := by
      rcases hrow' with ⟨-, rfl⟩ | rfl <;> exact ⟨rfl, rfl⟩
    refine ⟨row', by rw [hshared, hres], h.of_counted ?_ ?_ hsame.1 hsame.2⟩
    · rw [hx]
      rfl
    · rw [hres]
      exact counted_deliverNext _ _
  · refine ⟨row, by rw [hshared, hres, hrow], h.of_counted ?_ ?_ rfl rfl⟩
    · rw [hx]
      rfl
    · rw [hres]
      exact counted_deliverNext _ _
  · obtain ⟨status, hstatus, hcampaign⟩ := hidle.campaign
    refine ⟨_, hcampaign, h.of_step (.inl ⟨hidle.counted, rfl⟩) hstatus ?_ hidle.ignored⟩
    intro a hx
    have hafter := hidle.after
    rw [hx] at hafter
    exact hafter

/-! ## Delivery -/

/-- Each milestone that was emitted is delivered, or on its way. -/
structure Delivering [Fintype ι] (s : State ι) : Prop where
  genuine : ∀ i, ∀ m ∈ (s.call i).undelivered, m ∈ milestones
  balance : ∀ m ∈ milestones,
    announced m s.shared.webhooks + ∑ i, (s.call i).undelivered.count m
      = announced m s.shared.events

/-- The balance after a step, from what the step emits, delivers and leaves undelivered. -/
theorem Delivering.of_step [Fintype ι] {s : State ι} (h : Delivering s) {i : ι} {env : Env}
    (hsub : ∀ m ∈ (resume s.shared (s.call i) env).2.undelivered,
      m ∈ milestones)
    (hbalance : ∀ m ∈ milestones,
      announced m (resume s.shared (s.call i) env).1.webhooks
          + (resume s.shared (s.call i) env).2.undelivered.count m
          + announced m s.shared.events
        = announced m s.shared.webhooks + (s.call i).undelivered.count m
          + announced m (resume s.shared (s.call i) env).1.events) :
    Delivering (step s (i, env)) := by
  refine ⟨fun j ↦ ?_, fun m hm ↦ ?_⟩
  · rcases eq_or_ne j i with rfl | hji
    · rwa [step, Calls.step_call_self]
    · rw [step, Calls.step_call_of_ne s env hji]
      exact h.genuine j
  · have hsum := sum_update_add (fun x : Call ↦ x.undelivered.count m) s.call i
      (resume s.shared (s.call i) env).2
    have hbefore := h.balance m hm
    have hself := hbalance m hm
    change announced m (resume s.shared (s.call i) env).1.webhooks
        + ∑ j, (Function.update s.call i (resume s.shared (s.call i) env).2 j).undelivered.count m
      = announced m (resume s.shared (s.call i) env).1.events
    omega

/-- **Delivery after one step.** -/
theorem Delivering.next [Fintype ι] {s : State ι} {row : Campaign}
    (hrow : s.shared.campaign = some row) (h : Delivering s) (a : ι × Env) :
    Delivering (step s a) := by
  obtain ⟨i, env⟩ := a
  rcases resume_cases hrow (s.call i) env with
    ⟨a, hx, hactive, hres⟩ | ⟨hx, hres⟩ | ⟨campaign, row', hx, hrow', hres⟩ |
    ⟨campaign, m, rest, hx, hres⟩ | hidle
  · refine h.of_step ?_ fun m hm ↦ ?_
    · rw [hres]
      exact fun m hm ↦ absurd hm List.not_mem_nil
    · rw [hres, hx]
      rfl
  · have hnone : (resume s.shared (s.call i) env).2.undelivered = [] := by
      rw [hres]
      split_ifs
      · exact (idle_checkGoal row).undelivered
      · rfl
    refine h.of_step ?_ fun m hm ↦ ?_
    · rw [hnone]
      exact fun m hm ↦ absurd hm List.not_mem_nil
    · rw [hnone, hres, hx]
      rfl
  · have hsub : ∀ m ∈ campaign.newMilestones, m ∈ milestones :=
      fun m hm ↦ (Campaign.mem_newMilestones.mp hm).1
    have hold : (s.call i).undelivered = [] := by rw [hx]; rfl
    refine h.of_step ?_ fun m hm ↦ ?_
    · rwa [hres, undelivered_deliverNext]
    · rw [hold, List.count_nil, hres, undelivered_deliverNext, announced_append,
        announced_map hm campaign _ hsub]
      ring
  · have hold : (s.call i).undelivered = m :: rest := by rw [hx]; rfl
    have hsub : ∀ n ∈ m :: rest, n ∈ milestones := by
      rw [← hold]
      exact h.genuine i
    refine h.of_step ?_ fun n hn ↦ ?_
    · rw [hres, undelivered_deliverNext]
      exact fun n hn ↦ hsub n (List.mem_cons_of_mem m hn)
    · have hone := announced_map hn campaign [m] fun k hk ↦
        hsub k (List.mem_cons.mpr (Or.inl (List.mem_singleton.mp hk)))
      have hcount : (m :: rest).count n = [m].count n + rest.count n := by
        rw [← List.count_append, List.singleton_append]
      rw [List.map_singleton] at hone
      rw [hold, hcount, hres, undelivered_deliverNext, announced_append, hone]
      ring
  · have hold : (s.call i).undelivered = [] := by
      rcases hidle.before with hx | ⟨a, hx⟩ | ⟨hx, -⟩
      · exact hx.undelivered
      · rw [hx]
        rfl
      · rw [hx]
        rfl
    refine h.of_step ?_ fun m hm ↦ ?_
    · rw [hidle.after.undelivered]
      exact fun m hm ↦ absurd hm List.not_mem_nil
    · rw [hidle.after.undelivered, hold, hidle.webhooks, hidle.events]

/-! ## No milestone is dropped -/

/-- The milestone was recorded when the run began, or has been emitted since. -/
def Known (c : Campaign) (db : Db) (m : ℚ) : Prop :=
  m ∈ c.getNotifiedMilestones ∨ 0 < announced m db.events

/-- The database answers the `SELECT`. -/
def Reads (s : State ι) (a : ι × Env) : Prop := (s.call a.1).Reading → a.2.dbError = false

/-- What is recorded has been announced, and what is reached is announced or will be. -/
structure Pursued (c : Campaign) (s : State ι) (row : Campaign) : Prop where
  stored : ∀ m ∈ milestones, m ∈ row.getNotifiedMilestones → Known c s.shared m
  held : ∀ i campaign, s.call i = .record campaign →
    ∀ m ∈ milestones, m ∈ campaign.getNotifiedMilestones → Known c s.shared m
  reached : (∃ i, (s.call i).counted = true) → ∀ m ∈ milestones, row.Reached m →
    Known c s.shared m ∨ ∃ i, (s.call i).Due m

theorem Known.mono {c : Campaign} {db db' : Db} {m : ℚ} (h : Known c db m)
    (hevents : announced m db.events ≤ announced m db'.events) : Known c db' m :=
  h.imp_right fun hpos ↦ hpos.trans_le hevents

/-- What a step has to show: of the call that is resumed, and of the row. -/
theorem Pursued.of_step {c : Campaign} {s : State ι} {row row' : Campaign} (h : Pursued c s row)
    {i : ι} {env : Env}
    (hevents : ∀ m, announced m s.shared.events
      ≤ announced m (resume s.shared (s.call i) env).1.events)
    (hstored : ∀ m ∈ milestones, m ∈ row'.getNotifiedMilestones →
      Known c (resume s.shared (s.call i) env).1 m)
    (hheld : ∀ campaign, (resume s.shared (s.call i) env).2 = .record campaign →
      ∀ m ∈ milestones, m ∈ campaign.getNotifiedMilestones →
        Known c (resume s.shared (s.call i) env).1 m)
    (hreached : (∃ j, ((step s (i, env)).call j).counted = true) → ∀ m ∈ milestones,
      row'.Reached m → Known c (resume s.shared (s.call i) env).1 m ∨
        (resume s.shared (s.call i) env).2.Due m ∨ ∃ j, j ≠ i ∧ (s.call j).Due m) :
    Pursued c (step s (i, env)) row' := by
  refine ⟨hstored, fun j campaign hj ↦ ?_, fun hcounted m hm hrow ↦ ?_⟩
  · rcases eq_or_ne j i with rfl | hji
    · rw [step, Calls.step_call_self] at hj
      exact hheld campaign hj
    · rw [step, Calls.step_call_of_ne s env hji] at hj
      exact fun m hm hmem ↦ (h.held j campaign hj m hm hmem).mono (hevents m)
  · rcases hreached hcounted m hm hrow with hknown | hdue | ⟨j, hji, hdue⟩
    · exact Or.inl hknown
    · refine Or.inr ⟨i, ?_⟩
      rwa [step, Calls.step_call_self]
    · refine Or.inr ⟨j, ?_⟩
      rwa [step, Calls.step_call_of_ne s env hji]

theorem counted_resume {db : Db} {row : Campaign} (hrow : db.campaign = some row) {x : Call}
    {env : Env} (hx : x.counted = true) : (resume db x env).2.counted = true := by
  rcases resume_cases hrow x env with
    ⟨a, -, -, hres⟩ | ⟨-, hres⟩ | ⟨campaign, row', -, -, hres⟩ |
    ⟨campaign, m, rest, -, hres⟩ | hidle
  · rw [hres]
    rfl
  · rw [hres]
    split_ifs
    · exact counted_checkGoal row
    · rfl
  · rw [hres]
    exact counted_deliverNext _ _
  · rw [hres]
    exact counted_deliverNext _ _
  · rwa [hidle.counted]

theorem exists_counted_of_step {s : State ι} {i : ι} {env : Env}
    (hself : (resume s.shared (s.call i) env).2.counted = true → (s.call i).counted = true)
    (h : ∃ j, ((step s (i, env)).call j).counted = true) : ∃ j, (s.call j).counted = true := by
  obtain ⟨j, hj⟩ := h
  rcases eq_or_ne j i with rfl | hji
  · rw [step, Calls.step_call_self] at hj
    exact ⟨j, hself hj⟩
  · rw [step, Calls.step_call_of_ne s env hji] at hj
    exact ⟨j, hj⟩

theorem exists_counted_step {s : State ι} {row : Campaign} (hrow : s.shared.campaign = some row)
    (i : ι) (env : Env) (h : ∃ j, (s.call j).counted = true) :
    ∃ j, ((step s (i, env)).call j).counted = true := by
  obtain ⟨j, hj⟩ := h
  refine ⟨j, ?_⟩
  rcases eq_or_ne j i with rfl | hji
  · rw [step, Calls.step_call_self]
    exact counted_resume hrow hj
  · rwa [step, Calls.step_call_of_ne s env hji]

theorem Pursued.of_quiet {c : Campaign} {s : State ι} {row row' : Campaign} (h : Pursued c s row)
    {i : ι} {env : Env}
    (hevents : (resume s.shared (s.call i) env).1.events = s.shared.events)
    (hnotified : row'.getNotifiedMilestones = row.getNotifiedMilestones)
    (hreached : ∀ m, row'.Reached m → row.Reached m)
    (hdue : ∀ m, ¬(s.call i).Due m)
    (hrecord : ∀ campaign, (resume s.shared (s.call i) env).2 ≠ .record campaign)
    (hcounted : (resume s.shared (s.call i) env).2.counted = (s.call i).counted) :
    Pursued c (step s (i, env)) row' := by
  have hle : ∀ m, announced m s.shared.events
      ≤ announced m (resume s.shared (s.call i) env).1.events := fun m ↦ by rw [hevents]
  refine h.of_step hle (fun m hm hmem ↦ ?_) (fun campaign hx ↦ absurd hx (hrecord campaign))
    fun hex m hm hrow ↦ ?_
  · rw [hnotified] at hmem
    exact (h.stored m hm hmem).mono (hle m)
  · have hbefore := exists_counted_of_step (fun hx ↦ by rwa [← hcounted]) hex
    rcases h.reached hbefore m hm (hreached m hrow) with hknown | ⟨j, hj⟩
    · exact Or.inl (hknown.mono (hle m))
    · refine Or.inr (Or.inr ⟨j, fun hji ↦ ?_, hj⟩)
      rw [hji] at hj
      exact hdue m hj

/-- The step that reads the row: what is reached is recorded there, or new. -/
theorem Pursued.of_select {c : Campaign} {s : State ι} {row : Campaign} (h : Pursued c s row)
    {i : ι} {env : Env}
    (hres : resume s.shared (s.call i) env =
      (s.shared, if row.newMilestones = [] then checkGoal row else .record row)) :
    Pursued c (step s (i, env)) row := by
  refine h.of_step ?_ ?_ ?_ ?_
  · rw [hres]
    exact fun m ↦ le_rfl
  · rw [hres]
    exact h.stored
  · rw [hres]
    intro campaign hrecord
    split_ifs at hrecord
    · exact absurd hrecord (Call.ne_record (idle_checkGoal row).not_recording campaign)
    · cases hrecord
      exact h.stored
  · rw [hres]
    intro _ m hm hreached
    by_cases hmem : m ∈ row.getNotifiedMilestones
    · exact Or.inl (h.stored m hm hmem)
    · have hnew : m ∈ row.newMilestones := Campaign.mem_newMilestones.mpr ⟨hm, hreached, hmem⟩
      rw [if_neg (List.ne_nil_of_mem hnew)]
      exact Or.inr (Or.inl hnew)

/-- The step that emits the new milestones, whether or not they are stored. -/
theorem Pursued.of_record {c : Campaign} {s : State ι} {row row' campaign : Campaign}
    (h : Pursued c s row) {i : ι} {env : Env} (hx : s.call i = .record campaign)
    (hrow' : env.dbError = true ∧ row' = row ∨ row' = row.setNotified campaign.updatedNotified)
    (hres : resume s.shared (s.call i) env =
      ({ s.shared with campaign := some row',
                       events := s.shared.events ++
                         campaign.newMilestones.map campaign.milestoneData },
        deliverNext campaign campaign.newMilestones)) :
    Pursued c (step s (i, env)) row' := by
  have hemitted : ∀ m, announced m s.shared.events
      ≤ announced m (resume s.shared (s.call i) env).1.events := by
    intro m
    rw [hres, announced_append]
    exact Nat.le_add_right _ _
  have hnew : ∀ m ∈ campaign.newMilestones, Known c (resume s.shared (s.call i) env).1 m := by
    intro m hm
    refine Or.inr ?_
    rw [hres, announced_append, announced_newMilestones (Campaign.mem_newMilestones.mp hm).1,
      if_pos hm]
    exact Nat.succ_pos _
  have hreached : ∀ m, row'.Reached m → row.Reached m := by
    rcases hrow' with ⟨-, rfl⟩ | rfl <;> exact fun m ↦ id
  refine h.of_step hemitted (fun m hm hmem ↦ ?_) ?_ ?_
  · rcases hrow' with ⟨-, rfl⟩ | rfl
    · exact (h.stored m hm hmem).mono (hemitted m)
    · rcases Campaign.mem_updatedNotified.mp hmem with hold | hmem
      · exact (h.held i campaign hx m hm hold).mono (hemitted m)
      · exact hnew m hmem
  · rw [hres]
    exact fun d hd ↦ absurd hd (Call.ne_record (not_recording_deliverNext _ _) d)
  · intro _ m hm hrowm
    have hcounted : (s.call i).counted = true := by rw [hx]; rfl
    rcases h.reached ⟨i, hcounted⟩ m hm (hreached m hrowm) with hknown | ⟨j, hj⟩
    · exact Or.inl (hknown.mono (hemitted m))
    · rcases eq_or_ne j i with rfl | hji
      · rw [hx] at hj
        exact Or.inl (hnew m hj)
      · exact Or.inr (Or.inr ⟨j, hji, hj⟩)

/-- **The pursuit after one step.** -/
theorem Pursued.next {c : Campaign} {s : State ι} {row : Campaign}
    (hrow : s.shared.campaign = some row) (h : Pursued c s row) {a : ι × Env} (hreads : Reads s a) :
    ∃ row', (step s a).shared.campaign = some row' ∧ Pursued c (step s a) row' := by
  obtain ⟨i, env⟩ := a
  have hshared : (step s (i, env)).shared = (resume s.shared (s.call i) env).1 := rfl
  rcases resume_cases hrow (s.call i) env with
    ⟨a, hx, hactive, hres⟩ | ⟨hx, hres⟩ | ⟨campaign, row', hx, hrow', hres⟩ |
    ⟨campaign, m, rest, hx, hres⟩ | hidle
  · -- the call is about to read the campaign
    refine ⟨row.add a, by rw [hshared, hres], h.of_step ?_ ?_ ?_ ?_⟩
    · rw [hres]
      exact fun m ↦ le_rfl
    · rw [hres]
      exact h.stored
    · rw [hres]
      exact fun campaign hrecord ↦ Call.noConfusion hrecord
    · rw [hres]
      exact fun _ m _ _ ↦ Or.inr (Or.inl trivial)
  · exact ⟨row, by rw [hshared, hres, hrow], h.of_select hres⟩
  · exact ⟨row', by rw [hshared, hres], h.of_record hx hrow' hres⟩
  · refine ⟨row, by rw [hshared, hres, hrow], h.of_quiet ?_ rfl (fun m ↦ id) ?_ ?_ ?_⟩
    · rw [hres]
    · rw [hx]
      exact fun m ↦ id
    · rw [hres]
      exact Call.ne_record (not_recording_deliverNext _ _)
    · rw [hres, hx]
      exact counted_deliverNext _ _
  · obtain ⟨status, -, hcampaign⟩ := hidle.campaign
    refine ⟨_, hcampaign, h.of_quiet hidle.events rfl (fun m ↦ id) ?_ ?_ hidle.counted⟩
    · rcases hidle.before with hx | ⟨a, hx⟩ | ⟨hx, herror⟩
      · exact hx.not_due
      · rw [hx]
        exact fun m ↦ id
      · rw [Reads, hx, herror] at hreads
        exact absurd (hreads trivial) Bool.noConfusion
    · exact Call.ne_record hidle.after.not_recording

/-! ## No milestone is announced twice -/

/-- A milestone is reached, was not recorded when the run began, and an amount has been added. -/
def Owed (c : Campaign) (s : State ι) (row : Campaign) (m : ℚ) : Prop :=
  row.Reached m ∧ m ∉ c.getNotifiedMilestones ∧ ∃ i, (s.call i).counted = true

/-- The campaign is read while no other call is about to record its milestones, and what is to be
recorded is stored. -/
def Undisturbed (s : State ι) (a : ι × Env) : Prop :=
  ((s.call a.1).Reading → Alone Call.Recording s.call a.1) ∧
    ((s.call a.1).Reading ∨ (s.call a.1).Recording → a.2.dbError = false)

instance [Fintype ι] (s : State ι) (a : ι × Env) : Decidable (Undisturbed s a) :=
  inferInstanceAs (Decidable ((_ → _) ∧ (_ → _)))

omit [DecidableEq ι] in
theorem Undisturbed.reads {s : State ι} {a : ι × Env} (h : Undisturbed s a) : Reads s a :=
  fun hx ↦ h.2 (Or.inl hx)

/-- What a call has read still holds, but for the amount, which may have grown. -/
def Call.Fits (row : Campaign) : Call → Prop
  | .contribute amount => 0 < amount
  | .record campaign => campaign.getNotifiedMilestones = row.getNotifiedMilestones ∧
      campaign.goalAmount = row.goalAmount ∧ campaign.currentAmount ≤ row.currentAmount
  | _ => True

/-- The announcements agree with what is recorded. -/
structure Exact (c : Campaign) (s : State ι) (row : Campaign) : Prop where
  kept : ∀ m ∈ c.getNotifiedMilestones, m ∈ row.getNotifiedMilestones
  counts : ∀ m ∈ milestones, announced m s.shared.events =
    if m ∈ row.getNotifiedMilestones ∧ m ∉ c.getNotifiedMilestones then 1 else 0
  stored : ∀ m ∈ milestones, m ∈ row.getNotifiedMilestones → m ∉ c.getNotifiedMilestones →
    row.Reached m ∧ ∃ i, (s.call i).counted = true
  fits : ∀ i, (s.call i).Fits row
  alone : AtMostOne Call.Recording s.call

theorem Call.Fits.mono {row row' : Campaign} {x : Call} (h : x.Fits row)
    (hnotified : row'.getNotifiedMilestones = row.getNotifiedMilestones)
    (hgoal : row'.goalAmount = row.goalAmount) (hamount : row.currentAmount ≤ row'.currentAmount) :
    x.Fits row' := by
  cases x with
  | record campaign =>
    obtain ⟨hn, hg, ha⟩ := h
    exact ⟨hn.trans hnotified.symm, hg.trans hgoal.symm, ha.trans hamount⟩
  | contribute amount => exact h
  | select | deliver | close | deliverGoal | done | ignored | rejected | failed => trivial

theorem Call.Idle.fits {x : Call} (h : x.Idle) (row : Campaign) : x.Fits row := by
  cases x with
  | contribute | select | record | deliver => exact h.elim
  | close | deliverGoal | done | ignored | rejected | failed => trivial

theorem fits_deliverNext (c row : Campaign) (ms : List ℚ) : (deliverNext c ms).Fits row := by
  cases ms with
  | nil => exact (idle_checkGoal c).fits row
  | cons m rest => trivial

theorem Exact.of_quiet {c : Campaign} {s : State ι} {row row' : Campaign}
    (hrow : s.shared.campaign = some row) (h : Exact c s row) {i : ι} {env : Env}
    (hevents : (resume s.shared (s.call i) env).1.events = s.shared.events)
    (hnotified : row'.getNotifiedMilestones = row.getNotifiedMilestones)
    (hgoal : row'.goalAmount = row.goalAmount) (hamount : row.currentAmount ≤ row'.currentAmount)
    (hfits : (resume s.shared (s.call i) env).2.Fits row')
    (hrecording : (resume s.shared (s.call i) env).2.Recording → Alone Call.Recording s.call i) :
    Exact c (step s (i, env)) row' := by
  refine ⟨?_, fun m hm ↦ ?_, fun m hm hmem hnot ↦ ?_, fun j ↦ ?_, ?_⟩
  · rw [hnotified]
    exact h.kept
  · rw [hnotified, ← h.counts m hm, ← hevents]
    rfl
  · rw [hnotified] at hmem
    obtain ⟨hreached, hcounted⟩ := h.stored m hm hmem hnot
    exact ⟨hreached.mono hgoal hamount, exists_counted_step hrow i env hcounted⟩
  · rcases eq_or_ne j i with rfl | hji
    · rwa [step, Calls.step_call_self]
    · rw [step, Calls.step_call_of_ne s env hji]
      exact (h.fits j).mono hnotified hgoal hamount
  · exact h.alone.update fun hx ↦ Or.inr (hrecording hx)

theorem Exact.of_record {c : Campaign} {s : State ι} {row campaign : Campaign}
    (h : Exact c s row) {i : ι} {env : Env}
    (hx : s.call i = .record campaign)
    (hres : resume s.shared (s.call i) env =
      ({ s.shared with campaign := some (row.setNotified campaign.updatedNotified),
                       events := s.shared.events ++
                         campaign.newMilestones.map campaign.milestoneData },
        deliverNext campaign campaign.newMilestones)) :
    Exact c (step s (i, env)) (row.setNotified campaign.updatedNotified) := by
  have hfits := h.fits i
  rw [hx] at hfits
  obtain ⟨hnotified, hgoal, hamount⟩ := hfits
  have hmem : ∀ m, m ∈ (row.setNotified campaign.updatedNotified).getNotifiedMilestones ↔
      m ∈ row.getNotifiedMilestones ∨ m ∈ campaign.newMilestones := by
    intro m
    rw [← hnotified]
    exact Campaign.mem_updatedNotified
  have hnew : ∀ m ∈ campaign.newMilestones, m ∉ row.getNotifiedMilestones := by
    intro m hm
    rw [← hnotified]
    exact (Campaign.mem_newMilestones.mp hm).2.2
  have hself : (step s (i, env)).call i = deliverNext campaign campaign.newMilestones := by
    rw [step, Calls.step_call_self, hres]
  have hcounted : ∃ j, ((step s (i, env)).call j).counted = true := by
    refine ⟨i, ?_⟩
    rw [hself]
    exact counted_deliverNext _ _
  refine ⟨fun m hm ↦ ?_, fun m hm ↦ ?_, fun m hm hm' hnot ↦ ⟨?_, hcounted⟩, fun j ↦ ?_, ?_⟩
  · exact (hmem m).mpr (Or.inl (h.kept m hm))
  · have hevents : (step s (i, env)).shared.events = s.shared.events ++
        campaign.newMilestones.map campaign.milestoneData := by
      rw [step, Calls.step_shared, hres]
    rw [hevents, announced_append, announced_newMilestones hm, h.counts m hm]
    by_cases hin : m ∈ campaign.newMilestones
    · -- announced now, and not before
      have hstored := hnew m hin
      have hnot : m ∉ c.getNotifiedMilestones := fun hc ↦ hstored (h.kept m hc)
      rw [if_pos hin, if_neg fun hc ↦ hstored hc.1, if_pos ⟨(hmem m).mpr (Or.inr hin), hnot⟩]
    · rw [if_neg hin, add_zero]
      refine if_congr (and_congr_left' ?_) rfl rfl
      rw [hmem, or_iff_left hin]
  · rcases (hmem m).mp hm' with hold | hin
    · exact (h.stored m hm hold hnot).1
    · have hreached : row.Reached m :=
        (Campaign.mem_newMilestones.mp hin).2.1.mono hgoal.symm hamount
      exact hreached
  · rcases eq_or_ne j i with rfl | hji
    · rw [hself]
      exact fits_deliverNext _ _ _
    · rw [step, Calls.step_call_of_ne s env hji]
      have hj := h.fits j
      generalize hcall : s.call j = x at hj
      cases x with
      | record d =>
        -- only one call is about to record
        refine absurd (h.alone j i ?_ ?_) hji
        · rw [hcall]
          trivial
        · rw [hx]
          trivial
      | contribute amount => exact hj
      | select | deliver | close | deliverGoal | done | ignored | rejected | failed => trivial
  · refine h.alone.update fun hrec ↦ ?_
    rw [hres] at hrec
    exact absurd hrec (not_recording_deliverNext _ _)

/-- **The record after one undisturbed step.** -/
theorem Exact.next {c : Campaign} {s : State ι} {row : Campaign}
    (hrow : s.shared.campaign = some row) (h : Exact c s row) {a : ι × Env}
    (hundisturbed : Undisturbed s a) :
    ∃ row', (step s a).shared.campaign = some row' ∧ Exact c (step s a) row' := by
  obtain ⟨i, env⟩ := a
  have hshared : (step s (i, env)).shared = (resume s.shared (s.call i) env).1 := rfl
  rcases resume_cases hrow (s.call i) env with
    ⟨a, hx, hactive, hres⟩ | ⟨hx, hres⟩ | ⟨campaign, row', hx, hrow', hres⟩ |
    ⟨campaign, m, rest, hx, hres⟩ | hidle
  · have hpos := h.fits i
    rw [hx] at hpos
    have hle : row.currentAmount ≤ (row.add a).currentAmount := Binary64.le_add_of_pos _ hpos
    refine ⟨row.add a, by rw [hshared, hres], h.of_quiet hrow ?_ rfl rfl hle ?_ ?_⟩
    · rw [hres]
    · rw [hres]
      trivial
    · rw [hres]
      exact False.elim
  · rw [Undisturbed, hx] at hundisturbed
    refine ⟨row, by rw [hshared, hres, hrow], h.of_quiet hrow ?_ rfl rfl le_rfl ?_ ?_⟩
    · rw [hres]
    · rw [hres]
      split_ifs
      · exact (idle_checkGoal row).fits row
      · exact ⟨rfl, rfl, le_rfl⟩
    · exact fun _ ↦ hundisturbed.1 trivial
  · rw [Undisturbed, hx] at hundisturbed
    rcases hrow' with ⟨herror, -⟩ | rfl
    · exact absurd (herror.symm.trans (hundisturbed.2 (Or.inr trivial))) Bool.noConfusion
    · exact ⟨_, by rw [hshared, hres], h.of_record hx hres⟩
  · refine ⟨row, by rw [hshared, hres, hrow], h.of_quiet hrow ?_ rfl rfl le_rfl ?_ ?_⟩
    · rw [hres]
    · rw [hres]
      exact fits_deliverNext _ _ _
    · rw [hres]
      exact fun hrec ↦ absurd hrec (not_recording_deliverNext _ _)
  · obtain ⟨status, -, hcampaign⟩ := hidle.campaign
    refine ⟨_, hcampaign, h.of_quiet hrow hidle.events rfl rfl le_rfl ?_ ?_⟩
    · exact hidle.after.fits _
    · exact fun hrec ↦ absurd hrec hidle.after.not_recording

/-! ## Whole runs -/

def Finished (s : State ι) : Prop := ∀ i, (s.call i).Returned

instance [Fintype ι] (s : State ι) : Decidable (Finished s) :=
  inferInstanceAs (Decidable (∀ _, _))

end Runs

theorem counted_start (c : Campaign) (amount : ι → Binary64) :
    Counted c amount (start c amount) c := by
  refine ⟨⟨[], List.nodup_nil, fun i ↦ ?_, rfl⟩, fun i a hi ↦ ?_, fun i hi ↦ Call.noConfusion hi⟩
  · exact iff_of_false List.not_mem_nil Bool.false_ne_true
  · cases hi
    rfl

theorem delivering_start [Fintype ι] (c : Campaign) (amount : ι → Binary64) :
    Delivering (start c amount) := by
  refine ⟨fun i m hm ↦ absurd hm List.not_mem_nil, fun m _ ↦ ?_⟩
  have hnone : ∑ i, ((start c amount).call i).undelivered.count m = 0 :=
    Finset.sum_eq_zero fun i _ ↦ rfl
  rw [hnone]
  rfl

theorem pursued_start (c : Campaign) (amount : ι → Binary64) : Pursued c (start c amount) c := by
  refine ⟨fun m _ hmem ↦ Or.inl hmem, fun i d hi ↦ Call.noConfusion hi, fun hcounted ↦ ?_⟩
  obtain ⟨i, hi⟩ := hcounted
  exact Bool.noConfusion hi

theorem exact_start (c : Campaign) {amount : ι → Binary64} (hpos : ∀ i, 0 < amount i) :
    Exact c (start c amount) c := by
  refine ⟨fun m hm ↦ hm, fun m _ ↦ ?_, fun m _ hmem hnot ↦ absurd hmem hnot, hpos, fun i j hi ↦ ?_⟩
  · exact (if_neg fun h ↦ h.2 h.1).symm
  · exact hi.elim

/-- When all calls have returned, everything emitted is delivered. -/
theorem Delivering.finished [Fintype ι] {s : State ι} (h : Delivering s) (hfinished : Finished s)
    {m : ℚ} (hm : m ∈ milestones) :
    announced m s.shared.webhooks = announced m s.shared.events := by
  have hnone : ∑ i, (s.call i).undelivered.count m = 0 := by
    refine Finset.sum_eq_zero fun i _ ↦ ?_
    rw [(hfinished i).idle.undelivered, List.count_nil]
  rw [← h.balance m hm, hnone, add_zero]

def AtLeastOnce (c : Campaign) (s : State ι) (row : Campaign) : Prop :=
  ∀ m ∈ milestones, Owed c s row m →
    0 < announced m s.shared.events ∧ 0 < announced m s.shared.webhooks

/-- A milestone that is owed is announced once by the end, any other one never. -/
def ExactlyOnce (c : Campaign) (s : State ι) (row : Campaign) : Prop :=
  ∀ m ∈ milestones,
    (Owed c s row m → announced m s.shared.events = 1 ∧ announced m s.shared.webhooks = 1) ∧
    (¬Owed c s row m → announced m s.shared.events = 0 ∧ announced m s.shared.webhooks = 0)

theorem Pursued.atLeastOnce [Fintype ι] {c : Campaign} {s : State ι} {row : Campaign}
    (h : Pursued c s row) (hdelivering : Delivering s) (hfinished : Finished s) :
    AtLeastOnce c s row := by
  intro m hm ⟨hreached, hnot, hcounted⟩
  rw [hdelivering.finished hfinished hm, and_self]
  rcases h.reached hcounted m hm hreached with hknown | ⟨i, hi⟩
  · exact hknown.resolve_left hnot
  · exact absurd hi ((hfinished i).idle.not_due m)

theorem Exact.exactlyOnce [Fintype ι] {c : Campaign} {s : State ι} {row : Campaign}
    (h : Exact c s row) (hpursued : Pursued c s row) (hdelivering : Delivering s)
    (hfinished : Finished s) : ExactlyOnce c s row := by
  intro m hm
  rw [hdelivering.finished hfinished hm, and_self, and_self, h.counts m hm]
  refine ⟨fun howed ↦ ?_, fun howed ↦ if_neg fun ⟨hmem, hnot⟩ ↦ ?_⟩
  · have hpos := (hpursued.atLeastOnce hdelivering hfinished m hm howed).1
    rw [h.counts m hm] at hpos
    by_contra hzero
    rw [if_neg fun hc ↦ hzero (if_pos hc)] at hpos
    exact hpos.false
  · obtain ⟨hreached, hcounted⟩ := h.stored m hm hmem hnot
    exact howed ⟨hreached, hnot, hcounted⟩

/-- **The contributions to a campaign.** In every interleaving the amount is what the campaign had
and all that was added while it was active, one after the other. When all calls have returned, each
milestone that is owed has been announced, and exactly once if the run was undisturbed. -/
theorem contributions_settled [DecidableEq ι] [Fintype ι] (c : Campaign) (amount : ι → Binary64)
    (hpos : ∀ i, 0 < amount i) (as : List (ι × Env)) :
    ∃ row, (run step (start c amount) as).shared.campaign = some row ∧
      Counted c amount (run step (start c amount) as) row ∧
      (Finished (run step (start c amount) as) → Along step Reads (start c amount) as →
        AtLeastOnce c (run step (start c amount) as) row) ∧
      (Finished (run step (start c amount) as) → Along step Undisturbed (start c amount) as →
        ExactlyOnce c (run step (start c amount) as) row) := by
  have hcounted : Always step
      (fun s ↦ (∃ row, s.shared.campaign = some row ∧ Counted c amount s row) ∧ Delivering s)
      (start c amount) as := by
    refine always_of_step (fun s a ⟨⟨row, hrow, h⟩, hdelivering⟩ ↦ ?_)
      ⟨⟨c, rfl, counted_start c amount⟩, delivering_start c amount⟩ as
    exact ⟨h.next hrow a, hdelivering.next hrow a⟩
  have hpursued : Along step Reads (start c amount) as →
      Always step (fun s ↦ ∃ row, s.shared.campaign = some row ∧ Pursued c s row)
        (start c amount) as := by
    refine fun hreads ↦ hreads.always (fun s a ⟨row, hrow, h⟩ hread ↦ ?_)
      ⟨c, rfl, pursued_start c amount⟩
    exact h.next hrow hread
  have hexact : Along step Undisturbed (start c amount) as →
      Always step (fun s ↦ ∃ row, s.shared.campaign = some row ∧ Exact c s row)
        (start c amount) as := by
    refine fun hquiet ↦ hquiet.always (fun s a ⟨row, hrow, h⟩ hstep ↦ ?_)
      ⟨c, rfl, exact_start c hpos⟩
    exact h.next hrow hstep
  obtain ⟨⟨row, hrow, hlast⟩, hdelivering⟩ := hcounted.last
  have hreached : Along step Reads (start c amount) as →
      Pursued c (run step (start c amount) as) row := by
    intro hreads
    obtain ⟨row', hrow', h⟩ := (hpursued hreads).last
    rwa [Option.some.inj (hrow.symm.trans hrow')]
  refine ⟨row, hrow, hlast, fun hfinished hreads ↦ ?_, fun hfinished hquiet ↦ ?_⟩
  · exact (hreached hreads).atLeastOnce hdelivering hfinished
  · have hreads : Along step Reads (start c amount) as :=
      Along.of_always (fun s a _ hstep ↦ hstep.reads) hquiet (hexact hquiet)
    obtain ⟨row', hrow', h⟩ := (hexact hquiet).last
    rw [← Option.some.inj (hrow.symm.trans hrow')] at h
    exact h.exactlyOnce (hreached hreads) hdelivering hfinished

section Examples

theorem hundred_pos : (0 : Binary64) < 100 := by decide +kernel

def newCampaign : Campaign := ⟨1, "Well", 100, hundred_pos, 0, .active, none⟩

def answers : Env := ⟨false⟩

/-- A contribution to the closed campaign is not added; two calls that read the campaign before
either records a milestone both announce it. -/
theorem ignored_and_repeated :
    (let amount : Fin 2 → Binary64 := fun i ↦ if i = 0 then 100 else 50
      let s := run step (start newCampaign amount)
        (List.replicate 9 (0, answers) ++ [(1, answers)])
      Finished s ∧ s.shared.campaign.map (·.currentAmount.val) ≠
        some (newCampaign.currentAmount.val + ∑ i, (amount i).val)) ∧
      let amount : Fin 2 → Binary64 := fun i ↦ if i = 0 then 30 else 5
      let s := run step (start newCampaign amount)
        ([0, 0, 1, 1, 0, 1, 0, 1].map fun i ↦ (i, answers))
      Finished s ∧ announced (1 / 4) s.shared.webhooks = 2 := by
  constructor
  · decide +kernel
  · decide +kernel

/-- Two amounts are added before the campaign is read; three milestones are announced, each of them
once. -/
theorem contributions_settled_at :
    let amount : Fin 2 → Binary64 := fun i ↦ if i = 0 then 30 else 45
    let as := [(0, answers), (1, answers)] ++ List.replicate 5 (0, answers) ++ [(1, answers)]
    ∃ row, (run step (start newCampaign amount) as).shared.campaign = some row ∧
      row.currentAmount = 75 ∧
      ExactlyOnce newCampaign (run step (start newCampaign amount) as) row := by
  intro amount as
  obtain ⟨row, hrow, -, -, honce⟩ :=
    contributions_settled newCampaign amount (by decide +kernel) as
  refine ⟨row, hrow, ?_, honce (by decide +kernel) (by decide +kernel)⟩
  have hamount : (run step (start newCampaign amount) as).shared.campaign.map
      (·.currentAmount) = some 75 := by decide +kernel
  rw [hrow] at hamount
  exact Option.some.inj hamount

end Examples

end StellarDonations.CampaignContribution
