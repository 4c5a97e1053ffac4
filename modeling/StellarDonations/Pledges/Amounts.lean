import StellarDonations.Donations.Money
import StellarDonations.Numeric.Double
import StellarDonations.Pledges.Fulfillment

/-!
# The amounts of pledges

`Pledge.create` stores the amount of a pledge in stroops, and `fulfillSinglePledge` hands the stored
number to the Stellar service, whose amounts are in XLM, through either of the two functions that it
may have. A pledge that is paid was read from the table earlier, and rows keep their ids and their
amounts, so what is submitted for a pledge is what `create` stored for it, in every interleaving of
calls (`Traced`): ten million times the amount (`payment_eq_iff`).
-/

namespace StellarDonations.Pledges

open Concurrency JsString Money

/-! ## Creating pledges -/

/-- The argument of `Pledge.create`; the amount is its `String`. -/
structure NewPledge where
  campaignId : Option ℕ
  donorWalletId : String
  recipientPublicKey : Option String
  recipient : Option String
  amount : String
  conditionType : Option String
  conditionValue : Option String
  expiresAt : Option String

def normalizeConditionType (conditionType : Option String) : Except AppError String :=
  let normalized := trim (orElse conditionType "campaign_goal_percent")
  if normalized ∈ ["campaign_goal_percent", "date", "manual"] then .ok normalized
  else .error (.plain ("Unsupported pledge condition: " ++ conditionType.getD "undefined"))

/-- What the condition of a new pledge must be. -/
def checkCondition (pl : Platform) (args : NewPledge) (normalized : String) :
    Except AppError Unit :=
  if normalized = "campaign_goal_percent" ∧
      ¬(args.conditionValue.elim (some 100) JsNumber.ofString).any fun threshold ↦
        0 < threshold ∧ threshold ≤ 100 then
    .error (.plain "campaign_goal_percent condition requires a value between 1 and 100")
  else if normalized = "date" ∧
      ((orNull args.conditionValue).or (orNull args.expiresAt)).any fun text ↦
        (pl.parseDate text).isNone then
    .error (.plain "date condition requires a valid ISO date")
  else .ok ()

/-- The row that `Pledge.create` inserts. -/
def createRow (pl : Platform) (id : String) (args : NewPledge) : Except AppError Pledge := do
  let amountStroops ← toStroops args.amount
  let normalized ← normalizeConditionType args.conditionType
  checkCondition pl args normalized
  return {
    id := id
    campaignId := args.campaignId
    donorWalletId := args.donorWalletId
    recipientPublicKey := (orNull args.recipientPublicKey).or (orNull args.recipient)
    amount := amountStroops
    status := .pending
    conditionType := some normalized
    conditionValue := if normalized = "manual" then none else args.conditionValue
    conditionStatus := if normalized = "manual" then "manual" else "pending"
    expiresAt := orNull args.expiresAt
    fulfilledAt := none
    webhookSentAt := none }

/-- `Pledge.create`, up to its `INSERT`: ids are primary keys. -/
def create (pl : Platform) (sh : Shared) (id : String) (args : NewPledge) :
    Except AppError Shared := do
  let row ← createRow pl id args
  if id ∈ sh.pledges.map (·.id) then .error (.plain "UNIQUE constraint failed: pledges.id")
  else .ok { sh with pledges := sh.pledges ++ [row] }

/-! ## Payments -/

structure Service where
  hasSendPayment : Bool
  hasSendDonation : Bool

inductive Submission where
  | sendPayment (sourceSecret destinationPublic : String) (amount : ℤ) (memo : String)
  | sendDonation (sourceSecret destinationPublic : String) (amount : ℤ) (memo : String)
  deriving DecidableEq, Repr

def Submission.amount : Submission → ℤ
  | sendPayment _ _ amount _ | sendDonation _ _ amount _ => amount

/-- `pledge.amount`, the number that an `INTEGER` is read as. -/
def Pledge.read (p : Pledge) : ℤ := Double.nearest p.amount

/-- The payment of `fulfillSinglePledge`. -/
def submission (svc : Service) (p : Pledge) (donorSecret recipientPublic : String) :
    Option Submission :=
  if svc.hasSendPayment then
    some (.sendPayment donorSecret recipientPublic p.read ("Pledge fulfillment " ++ p.id))
  else if svc.hasSendDonation then
    some (.sendDonation donorSecret recipientPublic p.read ("Pledge fulfillment " ++ p.id))
  else none

def Call.submits (svc : Service) : Call → Option Submission
  | .pay p donorSecret recipientPublic _ => submission svc p donorSecret recipientPublic
  | _ => none

/-! ## What a call may still pay -/

/-- The pledges left when `fulfillSinglePledge` returns. -/
def Return.toPay : Return → List Pledge
  | single => []
  | loop rest _ _ => rest

def Call.toPay : Call → List Pledge
  | .loopCampaign p rest _ _ | .conditionCampaign p rest _ _ => p :: rest
  | .findCampaign p k | .findRecipient p _ k | .findDonor p _ k | .pay p _ _ k => p :: k.toPay
  | .fulfil _ _ k | .readBack _ k | .deliver _ k | .markSent _ k => k.toPay
  | _ => []

def Request.handed : Request → List Pledge
  | .checkAndFulfillPledge p | .fulfillPledge p => [p]
  | _ => []

section ToPay

variable {pl : Platform} {p : Pledge} {rest : List Pledge} {count : ℕ} {campaignId : Option ℕ}

theorem toPay_nextPledge (pledges : List Pledge) :
    (nextPledge count campaignId pledges).toPay ⊆ pledges := by
  induction pledges with
  | nil => cases campaignId <;> exact List.nil_subset _
  | cons p rest ih =>
    rw [nextPledge]
    split_ifs
    · exact List.Subset.trans ih (List.subset_cons_self p rest)
    · exact List.Subset.refl _

theorem toPay_beginFulfil (k : Return) : (beginFulfil p k).toPay = p :: k.toPay := by
  rw [beginFulfil]
  split <;> rfl

theorem toPay_afterCondition (met : Except AppError Bool) :
    (afterCondition p rest count campaignId met).toPay ⊆ p :: rest := by
  rw [afterCondition.eq_def]
  split
  · exact List.nil_subset _
  · rw [toPay_beginFulfil]
    exact List.Subset.refl _
  · exact List.Subset.trans (toPay_nextPledge rest) (List.subset_cons_self p rest)

theorem toPay_checkPledge (campaign : Option Campaign) (now : ℤ) :
    (checkPledge pl p rest count campaignId campaign now).toPay ⊆ p :: rest := by
  rw [checkPledge]
  split_ifs
  · exact List.Subset.trans (toPay_nextPledge rest) (List.subset_cons_self p rest)
  · rw [toPay_beginFulfil]
    exact List.Subset.refl _
  · exact List.Subset.refl _
  · exact toPay_afterCondition _

theorem toPay_beginPayment (donor : Option User) (recipient : Option String) (k : Return) :
    (beginPayment pl p donor recipient k).toPay ⊆ p :: k.toPay := by
  rw [beginPayment]
  split
  · split_ifs
    · exact List.Subset.refl _
    · exact List.subset_cons_self p k.toPay
  · exact List.subset_cons_self p k.toPay

theorem toPay_success (updated : Option Pledge) (k : Return) :
    (k.success updated).toPay ⊆ k.toPay := by
  cases k with
  | single => exact List.nil_subset _
  | loop rest count campaignId => exact toPay_nextPledge rest

theorem toPay_nextFulfilled (pledges : List Pledge) : (nextFulfilled count pledges).toPay = [] := by
  cases pledges <;> rfl

theorem toPay_nextExpired (pledges : List Pledge) : (nextExpired count pledges).toPay = [] := by
  cases pledges <;> rfl

theorem toPay_start (r : Request) : r.start.toPay ⊆ r.handed := by
  cases r with
  | checkAndFulfillPledge p => exact toPay_nextPledge [p]
  | fulfillPledge p =>
    rw [Request.start]
    split_ifs
    · exact List.nil_subset _
    · rw [toPay_beginFulfil]
      exact List.Subset.refl _
  | checkAndFulfill | fulfillSinglePledge | expireOverdue => exact List.nil_subset _

/-- **Where pledges come from**: a call holds them already, or it reads them from the table, or they
are handed over. -/
theorem toPay_resume (sh : Shared) (c : Call) (env : Env) :
    (resume pl sh c env).2.toPay ⊆ c.toPay ++ (sh.pledges ++ env.request.handed) := by
  have hheld : c.toPay ⊆ c.toPay ++ (sh.pledges ++ env.request.handed) :=
    List.subset_append_left _ _
  have htable : sh.pledges ⊆ c.toPay ++ (sh.pledges ++ env.request.handed) :=
    List.Subset.trans (List.subset_append_left _ _) (List.subset_append_right _ _)
  have hnone : ([] : List Pledge) ⊆ c.toPay ++ (sh.pledges ++ env.request.handed) :=
    List.nil_subset _
  cases c with
  | idle =>
    exact List.Subset.trans (toPay_start env.request)
      (List.Subset.trans (List.subset_append_right _ _) (List.subset_append_right _ _))
  | findPledge id =>
    rw [resume]
    split
    · exact hnone
    · exact hnone
    · next p _ hfind =>
      refine List.Subset.trans (toPay_start (.fulfillPledge p)) (List.Subset.trans ?_ htable)
      intro q hq
      rw [List.mem_singleton.mp hq]
      exact List.mem_of_find?_eq_some hfind
  | selectPending campaignId =>
    rw [resume]
    split
    · exact hnone
    · exact hnone
    · refine List.Subset.trans (toPay_nextPledge _) (List.Subset.trans ?_ htable)
      exact List.filter_subset_self _
  | legacyCampaign campaignId =>
    rw [resume]
    split
    · exact hnone
    · split_ifs
      · exact hnone
      · exact hnone
  | selectPendingAgain campaignId =>
    rw [resume]
    split
    · exact hnone
    · refine List.Subset.trans (toPay_nextPledge _) (List.Subset.trans ?_ htable)
      exact List.filter_subset_self _
  | loopCampaign p rest count campaignId =>
    rw [resume]
    split
    · exact hnone
    · exact List.Subset.trans (toPay_checkPledge _ _) hheld
    · exact List.Subset.trans (toPay_checkPledge _ _) hheld
  | conditionCampaign p rest count campaignId =>
    rw [resume]
    split
    · exact hnone
    · exact List.Subset.trans (toPay_afterCondition _) hheld
  | findCampaign | findRecipient | readBack =>
    rw [resume]
    split <;> first | exact hheld | exact hnone
  | findDonor p recipient k =>
    rw [resume]
    split
    · exact hnone
    · exact List.Subset.trans (toPay_beginPayment _ recipient k) hheld
  | pay p secret recipient k =>
    simp only [resume]
    split
    · exact List.Subset.trans (List.subset_cons_self p k.toPay) hheld
    · exact hnone
  | fulfil p paid k =>
    rw [resume]
    split
    · exact hnone
    · exact hheld
  | deliver p k =>
    rw [resume]
    split_ifs
    · exact hheld
    · exact List.Subset.trans (toPay_success _ k) hheld
  | markSent p k =>
    rw [resume]
    split
    · exact List.Subset.trans (toPay_success _ k) hheld
    · exact List.Subset.trans (toPay_success _ k) hheld
  | selectFulfilled campaignId count =>
    rw [resume]
    split
    · exact hnone
    · exact (toPay_nextFulfilled _).symm ▸ hnone
  | deliverFulfilled p rest count =>
    rw [resume]
    split_ifs
    · exact hnone
    · exact (toPay_nextFulfilled _).symm ▸ hnone
  | markFulfilledSent p rest count =>
    rw [resume]
    split
    · exact (toPay_nextFulfilled _).symm ▸ hnone
    · exact (toPay_nextFulfilled _).symm ▸ hnone
  | expire now =>
    simp only [resume]
    split
    · exact hnone
    · split_ifs
      · exact hnone
      · exact hnone
  | selectExpired now expired =>
    rw [resume]
    split
    · exact hnone
    · exact (toPay_nextExpired _).symm ▸ hnone
  | deliverExpired p rest expired =>
    rw [resume]
    split_ifs
    · exact hnone
    · exact (toPay_nextExpired _).symm ▸ hnone
  | markExpiredSent p rest expired =>
    rw [resume]
    split
    · exact (toPay_nextExpired _).symm ▸ hnone
    · exact (toPay_nextExpired _).symm ▸ hnone
  | returned | counted | failed => exact hnone

end ToPay

/-! ## Runs -/

/-- A new pledge, or a call that is resumed. -/
inductive Action (ι : Type*) where
  | create (id : String) (args : NewPledge)
  | call (i : ι) (env : Env)

def Action.handed {ι : Type*} : Action ι → List Pledge
  | .create _ _ => []
  | .call _ env => env.request.handed

def Pledge.key (p : Pledge) : String × ℤ := (p.id, p.amount)

def Shared.keys (sh : Shared) : List (String × ℤ) := sh.pledges.map Pledge.key

section Runs

variable {ι : Type*} [DecidableEq ι]

/-- The state after `Pledge.create`: nothing has changed when it throws. -/
def created (s : Calls ι Shared Call) : Except AppError Shared → Calls ι Shared Call
  | .ok sh => ⟨sh, s.call⟩
  | .error _ => s

def advance (pl : Platform) (s : Calls ι Shared Call) : Action ι → Calls ι Shared Call
  | .create id args => created s (create pl s.shared id args)
  | .call i env => step pl s (i, env)

/-- A pledge that is handed over has been read from the table at some time before. -/
def HandsRows (pl : Platform) (s : Calls ι Shared Call) (as : List (Action ι)) : Prop :=
  ∀ xs a, xs ++ [a] <+: as → ∀ p ∈ a.handed,
    ∃ ys, ys <+: xs ∧ p ∈ (run (advance pl) s ys).shared.pledges

structure Traced (s : Calls ι Shared Call) : Prop where
  nodup : (s.shared.pledges.map (·.id)).Nodup
  known : ∀ i, ∀ p ∈ (s.call i).toPay, p.key ∈ s.shared.keys

theorem keys_updateWhere (sh : Shared) (cond : Pledge → Bool) {f : Pledge → Pledge}
    (hf : ∀ p, (f p).key = p.key) : (sh.updateWhere cond f).keys = sh.keys := by
  rw [Shared.keys, Shared.updateWhere, List.map_map]
  refine List.map_congr_left fun p _ ↦ ?_
  rw [Function.comp_apply]
  split_ifs
  · exact hf p
  · rfl

theorem keys_resume (pl : Platform) (sh : Shared) (c : Call) (env : Env) :
    (resume pl sh c env).1.keys = sh.keys := by
  have hsent : ∀ id : String, (sh.markWebhookSent id env.now).keys = sh.keys := fun id ↦
    keys_updateWhere sh _ fun _ ↦ rfl
  cases c with
  | pay p secret recipient k =>
    simp only [resume]
    split
    · split_ifs <;> rfl
    · split_ifs <;> rfl
  | fulfil p paid k =>
    rw [resume]
    split
    · rfl
    · exact keys_updateWhere sh _ fun _ ↦ rfl
  | markSent p k =>
    rw [resume]
    split
    · rfl
    · exact hsent p.id
  | markFulfilledSent p rest count =>
    rw [resume]
    split
    · rfl
    · exact hsent p.id
  | markExpiredSent p rest expired =>
    rw [resume]
    split
    · rfl
    · exact hsent p.id
  | expire now =>
    simp only [resume]
    split
    · rfl
    · exact keys_updateWhere sh _ fun _ ↦ rfl
  | _ =>
    simp only [resume]
    repeat' first | rfl | split

theorem fst_key (sh : Shared) : sh.keys.map Prod.fst = sh.pledges.map (·.id) := by
  rw [Shared.keys, List.map_map]
  rfl

theorem create_eq_ok {pl : Platform} {sh sh' : Shared} {id : String} {args : NewPledge}
    (h : create pl sh id args = .ok sh') :
    ∃ n row, toStroops args.amount = .ok n ∧ row.key = (id, (n : ℤ)) ∧
      id ∉ sh.pledges.map (·.id) ∧ sh' = { sh with pledges := sh.pledges ++ [row] } := by
  obtain ⟨row, hrow, h⟩ := Except.bind_eq_ok.mp h
  obtain ⟨n, hn, hrow⟩ := Except.bind_eq_ok.mp hrow
  obtain ⟨normalized, -, hrow⟩ := Except.bind_eq_ok.mp hrow
  obtain ⟨-, -, hrow⟩ := Except.bind_eq_ok.mp hrow
  obtain rfl := Except.ok.inj hrow
  by_cases hmem : id ∈ sh.pledges.map (·.id)
  · rw [if_pos hmem] at h
    cases h
  · rw [if_neg hmem] at h
    exact ⟨n, _, hn, rfl, hmem, (Except.ok.inj h).symm⟩

theorem advance_eq_created (pl : Platform) (s : Calls ι Shared Call) (id : String)
    (args : NewPledge) :
    advance pl s (.create id args) = created s (create pl s.shared id args) := rfl

theorem advance_create (pl : Platform) (s : Calls ι Shared Call) (id : String) (args : NewPledge) :
    advance pl s (.create id args) = s ∨ ∃ row : Pledge, row.id ∉ s.shared.pledges.map (·.id) ∧
      advance pl s (.create id args) =
        ⟨{ s.shared with pledges := s.shared.pledges ++ [row] }, s.call⟩ := by
  rw [advance_eq_created]
  cases hcreate : create pl s.shared id args with
  | error e =>
    left
    rfl
  | ok sh =>
    right
    obtain ⟨n, row, -, hkey, hnew, hsh⟩ := create_eq_ok hcreate
    have hid : row.id = id := congrArg Prod.fst hkey
    refine ⟨row, ?_, ?_⟩
    · rw [hid]
      exact hnew
    · rw [hsh]
      rfl

theorem keys_call (pl : Platform) (s : Calls ι Shared Call) (i : ι) (env : Env) :
    (advance pl s (.call i env)).shared.keys = s.shared.keys :=
  keys_resume pl s.shared (s.call i) env

theorem keys_subset_advance (pl : Platform) (s : Calls ι Shared Call) (a : Action ι) :
    s.shared.keys ⊆ (advance pl s a).shared.keys := by
  cases a with
  | create id args =>
    rcases advance_create pl s id args with hsame | ⟨row, -, hnew⟩
    · rw [hsame]
      exact List.Subset.refl _
    · rw [hnew, Shared.keys, Shared.keys, List.map_append]
      exact List.subset_append_left _ _
  | call i env =>
    rw [keys_call]
    exact List.Subset.refl _

theorem keys_subset_run (pl : Platform) (s : Calls ι Shared Call) (as : List (Action ι)) :
    s.shared.keys ⊆ (run (advance pl) s as).shared.keys := by
  induction as generalizing s with
  | nil => exact List.Subset.refl _
  | cons a as ih => exact List.Subset.trans (keys_subset_advance pl s a) (ih (advance pl s a))

theorem traced_advance {pl : Platform} {s : Calls ι Shared Call} (h : Traced s) {a : Action ι}
    (hhanded : ∀ p ∈ a.handed, p.key ∈ s.shared.keys) : Traced (advance pl s a) := by
  cases a with
  | create id args =>
    have hkeys := keys_subset_advance pl s (.create id args)
    rcases advance_create pl s id args with hsame | ⟨row, hid, hnew⟩
    · rw [hsame]
      exact h
    · rw [hnew] at hkeys ⊢
      refine ⟨?_, fun i p hp ↦ hkeys (h.known i p hp)⟩
      rw [List.map_append, List.map_singleton, ← List.concat_eq_append]
      exact h.nodup.concat hid
  | call i env =>
    refine ⟨?_, fun j p hp ↦ ?_⟩
    · rw [← fst_key, keys_call, fst_key]
      exact h.nodup
    · rw [keys_call]
      by_cases hj : j = i
      · subst hj
        have hcall : (advance pl s (.call j env)).call j = (resume pl s.shared (s.call j) env).2 :=
          Calls.step_call_self s j env
        rw [hcall] at hp
        rcases List.mem_append.mp (toPay_resume s.shared (s.call j) env hp) with hp | hp
        · exact h.known j p hp
        rcases List.mem_append.mp hp with hp | hp
        · exact List.mem_map_of_mem hp
        · exact hhanded p hp
      · have hcall : (advance pl s (.call i env)).call j = s.call j :=
          Calls.step_call_of_ne s env hj
        rw [hcall] at hp
        exact h.known j p hp

theorem HandsRows.of_append {pl : Platform} {s : Calls ι Shared Call} {as bs : List (Action ι)}
    (h : HandsRows pl s (as ++ bs)) : HandsRows pl s as :=
  fun xs a hxs ↦ h xs a (hxs.trans (List.prefix_append as bs))

theorem traced_run {pl : Platform} {s : Calls ι Shared Call} (h : Traced s)
    {as : List (Action ι)} (hrows : HandsRows pl s as) : Traced (run (advance pl) s as) := by
  induction as using List.reverseRecOn with
  | nil => exact h
  | append_singleton as a ih =>
    rw [run_concat]
    refine traced_advance (ih hrows.of_append) fun p hp ↦ ?_
    obtain ⟨ys, ⟨zs, rfl⟩, hrow⟩ := hrows as a (List.prefix_refl _) p hp
    rw [run_append]
    exact keys_subset_run pl _ zs (List.mem_map_of_mem hrow)

omit [DecidableEq ι] in
theorem traced_initial {sh : Shared} (hids : (sh.pledges.map (·.id)).Nodup) :
    Traced (initial sh : Calls ι Shared Call) :=
  ⟨hids, fun _ _ hp ↦ absurd hp List.not_mem_nil⟩

/-- What is paid for a pledge is what was stored when it was created. -/
theorem amount_of_pay {pl : Platform} {sh₀ sh : Shared} (hids : (sh₀.pledges.map (·.id)).Nodup)
    {before after : List (Action ι)} {id : String} {args : NewPledge}
    (hrows : HandsRows pl (initial sh₀) (before ++ .create id args :: after))
    (hcreate : create pl (run (advance pl) (initial sh₀) before).shared id args = .ok sh)
    {i : ι} {p : Pledge} {secret recipient : String} {k : Return}
    (hcall : (run (advance pl) (initial sh₀) (before ++ .create id args :: after)).call i =
      .pay p secret recipient k) (hid : p.id = id) :
    ∃ n, toStroops args.amount = .ok n ∧ p.amount = n := by
  obtain ⟨n, row, hn, hkey, -, hsh⟩ := create_eq_ok hcreate
  have htraced := traced_run (traced_initial hids) hrows
  have hpaid := htraced.known i p (by rw [hcall]; exact List.mem_cons_self)
  have hstored : (id, (n : ℤ)) ∈
      (run (advance pl) (initial sh₀) (before ++ .create id args :: after)).shared.keys := by
    rw [run_append, run_cons]
    refine keys_subset_run pl _ after ?_
    rw [advance_eq_created, hcreate, created, hsh, ← hkey]
    exact List.mem_map_of_mem (List.mem_append_right _ List.mem_cons_self)
  refine ⟨n, hn, ?_⟩
  have hnodup := htraced.nodup
  rw [← fst_key] at hnodup
  have hsame := List.inj_on_of_nodup_map hnodup hpaid hstored hid
  exact congrArg Prod.snd hsame

/-- **Stroops are paid as XLM.** What is submitted for a pledge of a whole number of stroops, by
either function of the Stellar service and in every interleaving of calls, is its amount only when
that is zero. -/
theorem payment_eq_iff {pl : Platform} {svc : Service} {sh₀ sh : Shared}
    (hids : (sh₀.pledges.map (·.id)).Nodup)
    {before after : List (Action ι)} {id : String} {args : NewPledge}
    (hrows : HandsRows pl (initial sh₀) (before ++ .create id args :: after))
    (hcreate : create pl (run (advance pl) (initial sh₀) before).shared id args = .ok sh)
    {a : ℚ} (ha : JsNumber.ofString args.amount = some a) {stroops : ℤ}
    (hwhole : a * 10 ^ 7 = stroops)
    {i : ι} {p : Pledge} {secret recipient : String} {k : Return}
    (hcall : (run (advance pl) (initial sh₀) (before ++ .create id args :: after)).call i =
      .pay p secret recipient k) (hid : p.id = id)
    {payment : Submission} (hpayment : submission svc p secret recipient = some payment) :
    (payment.amount : ℚ) = a ↔ a = 0 := by
  obtain ⟨n, hn, hamount⟩ := amount_of_pay hids hrows hcreate hcall hid
  obtain ⟨x, hx, hfloor⟩ := toStroops_eq_floor hn
  obtain rfl : a = x := Option.some.inj (ha.symm.trans hx)
  rw [hwhole, Int.floor_intCast] at hfloor
  rw [← hfloor, Int.cast_natCast] at hwhole
  have hread : payment.amount = Double.nearestNat n := by
    rw [← Double.nearest_natCast, ← hamount]
    rw [submission] at hpayment
    split_ifs at hpayment
    · rw [← Option.some.inj hpayment]
      rfl
    · rw [← Option.some.inj hpayment]
      rfl
  have hhalf : (n : ℚ) ≤ 2 * Double.nearestNat n := by
    exact_mod_cast Double.le_two_mul_nearestNat n
  rw [hread, Int.cast_natCast]
  constructor
  · intro heq
    have hpos : (0 : ℚ) ≤ n := n.cast_nonneg
    linarith
  · rintro rfl
    have hzero : n = 0 := by
      rw [zero_mul] at hwhole
      exact_mod_cast hwhole.symm
    subst hzero
    rfl

end Runs

section Examples

/-- A pledge of a thousand stroops that an administrator fulfils. -/
def smallPledge : NewPledge where
  campaignId := none
  donorWalletId := "2"
  recipientPublicKey := some "GRECIPIENT"
  recipient := none
  amount := "0.0001000"
  conditionType := some "manual"
  conditionValue := none
  expiresAt := none

def oneDonor : Shared where
  pledges := []
  campaigns := []
  users := [⟨2, "GDONOR", some "encrypted"⟩]
  payments := []

def paySmall : List (Action (Fin 2)) :=
  .create "p9" smallPledge :: List.replicate 3 (.call 0 (fulfilEnv (.fulfillSinglePledge "p9")))

theorem handsRows_paySmall : HandsRows plainPlatform (initial oneDonor) paySmall := by
  intro xs a hxs p hp
  have hnone : ∀ a ∈ paySmall, a.handed = [] := by decide
  have hmem : a ∈ paySmall := hxs.subset (List.mem_append_right _ List.mem_cons_self)
  rw [hnone a hmem] at hp
  cases hp

/-- Of a ten-thousandth of an XLM, a thousand XLM are paid. -/
theorem thousand_paid : ∃ a payment, JsNumber.ofString smallPledge.amount = some a ∧
    ((run (advance plainPlatform) (initial oneDonor) paySmall).call 0).submits ⟨true, true⟩ =
      some payment ∧ a * 10 ^ 7 = (1000 : ℤ) ∧ (payment.amount : ℚ) ≠ a := by
  refine ⟨1 / 10000, .sendPayment "encrypted" "GRECIPIENT" 1000 "Pledge fulfillment p9",
    ?_, ?_, ?_, ?_⟩
  · decide +kernel
  · decide +kernel
  · norm_num
  · norm_num [Submission.amount]

def smallRow : Pledge where
  id := "p9"
  campaignId := none
  donorWalletId := "2"
  recipientPublicKey := some "GRECIPIENT"
  amount := 1000
  status := .pending
  conditionType := some "manual"
  conditionValue := none
  conditionStatus := "manual"
  expiresAt := none
  fulfilledAt := none
  webhookSentAt := none

theorem payment_eq_iff_small :
    ((1000 : ℤ) : ℚ) = 1 / 10000 ↔ (1 / 10000 : ℚ) = 0 := by
  have hcreate : create plainPlatform oneDonor "p9" smallPledge =
      .ok { oneDonor with pledges := [smallRow] } := by rfl
  have hcall : (run (advance plainPlatform) (initial oneDonor) paySmall).call 0 =
      .pay smallRow "encrypted" "GRECIPIENT" .single := by rfl
  have hrows : HandsRows plainPlatform (initial oneDonor)
      ([] ++ .create "p9" smallPledge ::
        List.replicate 3 (.call (0 : Fin 2) (fulfilEnv (.fulfillSinglePledge "p9")))) :=
    handsRows_paySmall
  have hamount : JsNumber.ofString smallPledge.amount = some (1 / 10000) := by decide +kernel
  have hwhole : (1 / 10000 : ℚ) * 10 ^ 7 = (1000 : ℤ) := by norm_num
  have hpayment : submission ⟨true, true⟩ smallRow "encrypted" "GRECIPIENT" =
      some (.sendPayment "encrypted" "GRECIPIENT" 1000 "Pledge fulfillment p9") := rfl
  exact payment_eq_iff (by decide) hrows hcreate hamount hwhole hcall rfl hpayment

end Examples

end StellarDonations.Pledges
