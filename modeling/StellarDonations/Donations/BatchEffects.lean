import Mathlib.Data.List.Perm.Basic
import StellarDonations.Donations.Batch

/-!
# What a step of a batch can do

The donations that a group has still to report are its entries: not yet checked, accepted and not
paid, or settled, which is paid or in no need of a payment. Whatever the group waits for, resuming
it has one of seven effects on the entries, the results and the payments (`Effect`). The invariants
of a batch are about entries, and the effects are all that they need.
-/

namespace StellarDonations.Batch

open Concurrency Donations JsString Stellar Transactions

/-! ## Entries -/

/-- A donation that a group has still to report. -/
inductive Entry where
  | waiting (index : ℕ) (d : Donation)
  | unpaid (p : Prepared)
  | settled (p : Prepared)

def Entry.index : Entry → ℕ
  | waiting index _ => index
  | unpaid p | settled p => p.index

/-- The entry of a donation after its group has fallen back. -/
def Individual.entry : Individual → Entry
  | lookingUp p | sending p => .unpaid p
  | followingUp p _ => .settled p

def Group.entries : Group → List Entry
  | validating prepared rest => prepared.map .unpaid ++ rest.map fun d ↦ .waiting d.1 d.2
  | lookingUp prepared | sending prepared => prepared.map .unpaid
  | followingUp _ p _ rest => .settled p :: rest.map .settled
  | fallingBack tasks => tasks.map (·.entry)
  | ended | rejected _ => []

/-- The donations of a submission under way. -/
def Individual.paying : Individual → List Prepared
  | sending p => [p]
  | lookingUp _ | followingUp .. => []

/-- The donations of the submissions under way. -/
def Group.paying : Group → List Prepared
  | sending prepared => prepared
  | fallingBack tasks => tasks.flatMap (·.paying)
  | validating .. | lookingUp _ | followingUp .. | ended | rejected _ => []

/-! ## Effects -/

section Effect

variable (sys : System)

/-- What a step can do to the shared state and the entries of the group. -/
inductive Effect (sh : Shared) (before : List Entry) (sh' : Shared) (after : List Entry) :
    Prop where
  | quiet (hentries : after.Perm before) (hresults : sh'.results = sh.results)
      (haccepted : sh'.accepted = sh.accepted) (hpayments : sh'.payments = sh.payments)
  | accept {index : ℕ} {d : Donation} {p : Prepared} {rest : List Entry}
      (hbefore : before.Perm (.waiting index d :: rest)) (hafter : after.Perm (.unpaid p :: rest))
      (hindex : p.index = index) (hdonor : p.sanitizedDonor = sanitizedDonor sys.svc d)
      (hplain : IsPlain p.xlmAmount) (hfits : Fits sys sh p) (hresults : sh'.results = sh.results)
      (haccepted : sh'.accepted = sh.accepted ++ [p]) (hpayments : sh'.payments = sh.payments)
  | refuse {index : ℕ} {d : Donation} {o : Outcome} {rest : List Entry}
      (hbefore : before.Perm (.waiting index d :: rest)) (hafter : after.Perm rest)
      (ho : o.isSuccess = false) (hresults : sh'.results = sh.results ++ [(index, o)])
      (haccepted : sh'.accepted = sh.accepted) (hpayments : sh'.payments = sh.payments)
  | pay {ps : List Prepared} {rest : List Entry} (hbefore : before.Perm (ps.map .unpaid ++ rest))
      (hafter : after.Perm (ps.map .settled ++ rest))
      (hsecret : ∀ p ∈ ps, hasSecret sys.svc p.sanitizedDonor = true)
      (hresults : sh'.results = sh.results) (haccepted : sh'.accepted = sh.accepted)
      (hpayments : sh'.payments = sh.payments ++ ps)
  | waive {p : Prepared} {rest : List Entry} (hbefore : before.Perm (.unpaid p :: rest))
      (hafter : after.Perm (.settled p :: rest))
      (hsecret : hasSecret sys.svc p.sanitizedDonor = false) (hresults : sh'.results = sh.results)
      (haccepted : sh'.accepted = sh.accepted) (hpayments : sh'.payments = sh.payments)
  | succeed {p : Prepared} {o : Outcome} {rest : List Entry}
      (hbefore : before.Perm (.settled p :: rest)) (hafter : after.Perm rest)
      (ho : o.isSuccess = true) (hresults : sh'.results = sh.results ++ [(p.index, o)])
      (haccepted : sh'.accepted = sh.accepted) (hpayments : sh'.payments = sh.payments)
  | fail {p : Prepared} {o : Outcome} {rest : List Entry}
      (hbefore : before.Perm (.unpaid p :: rest)) (hafter : after.Perm rest)
      (ho : o.isSuccess = false) (hsecret : hasSecret sys.svc p.sanitizedDonor = true)
      (hresults : sh'.results = sh.results ++ [(p.index, o)])
      (haccepted : sh'.accepted = sh.accepted) (hpayments : sh'.payments = sh.payments)

theorem Effect.frame {sh sh' : Shared} {before after : List Entry}
    (h : Effect sys sh before sh' after) (others : List Entry) :
    Effect sys sh (before ++ others) sh' (after ++ others) := by
  cases h with
  | quiet hentries => exact .quiet (hentries.append_right others) ‹_› ‹_› ‹_›
  | accept hbefore hafter hindex hdonor hplain hfits =>
    exact .accept (hbefore.append_right others) (hafter.append_right others) hindex hdonor hplain
      hfits ‹_› ‹_› ‹_›
  | refuse hbefore hafter ho =>
    exact .refuse (hbefore.append_right others) (hafter.append_right others) ho ‹_› ‹_› ‹_›
  | @pay ps rest hbefore hafter hsecret =>
    have hbefore' := hbefore.append_right others
    have hafter' := hafter.append_right others
    rw [List.append_assoc] at hbefore' hafter'
    exact .pay hbefore' hafter' hsecret ‹_› ‹_› ‹_›
  | waive hbefore hafter hsecret =>
    exact .waive (hbefore.append_right others) (hafter.append_right others) hsecret ‹_› ‹_› ‹_›
  | succeed hbefore hafter ho =>
    exact .succeed (hbefore.append_right others) (hafter.append_right others) ho ‹_› ‹_› ‹_›
  | fail hbefore hafter ho hsecret =>
    exact .fail (hbefore.append_right others) (hafter.append_right others) ho hsecret ‹_› ‹_› ‹_›

/-- The order of the entries does not matter. -/
theorem Effect.perm {sh sh' : Shared} {before before' after after' : List Entry}
    (h : Effect sys sh before sh' after) (hbefore' : before'.Perm before)
    (hafter' : after'.Perm after) : Effect sys sh before' sh' after' := by
  cases h with
  | quiet hentries =>
    exact .quiet (hafter'.trans (hentries.trans hbefore'.symm)) ‹_› ‹_› ‹_›
  | accept hbefore hafter hindex hdonor hplain hfits =>
    exact .accept (hbefore'.trans hbefore) (hafter'.trans hafter) hindex hdonor hplain hfits
      ‹_› ‹_› ‹_›
  | refuse hbefore hafter ho =>
    exact .refuse (hbefore'.trans hbefore) (hafter'.trans hafter) ho ‹_› ‹_› ‹_›
  | pay hbefore hafter hsecret =>
    exact .pay (hbefore'.trans hbefore) (hafter'.trans hafter) hsecret ‹_› ‹_› ‹_›
  | waive hbefore hafter hsecret =>
    exact .waive (hbefore'.trans hbefore) (hafter'.trans hafter) hsecret ‹_› ‹_› ‹_›
  | succeed hbefore hafter ho =>
    exact .succeed (hbefore'.trans hbefore) (hafter'.trans hafter) ho ‹_› ‹_› ‹_›
  | fail hbefore hafter ho hsecret =>
    exact .fail (hbefore'.trans hbefore) (hafter'.trans hafter) ho hsecret ‹_› ‹_› ‹_›

end Effect

/-! ## The functions of the source -/

section Functions

variable {sys : System} {sh : Shared} {env : Env}

theorem prepare_eq_ok {svc : Services} {store : Store} {index : ℕ} {d : Donation} {p : Prepared}
    (h : prepare svc store index d env = .ok p) :
    p.index = index ∧ p.sanitizedDonor = sanitizedDonor svc d := by
  obtain ⟨amount, -, h⟩ := Except.bind_eq_ok.mp h
  obtain ⟨xlm, -, h⟩ := Except.bind_eq_ok.mp h
  obtain ⟨memo, -, h⟩ := Except.bind_eq_ok.mp h
  cases h
  exact ⟨rfl, rfl⟩

theorem total_le_of_prepare {svc : Services} {store : Store} {index : ℕ} {d : Donation}
    {p : Prepared} (h : prepare svc store index d env = .ok p) (hnamed : Named p.sanitizedDonor)
    (hlimit : svc.config.maxDailyPerDonor ≠ 0) :
    store.getDailyTotalByDonor p.sanitizedDonor env.day.1 env.day.2 + p.xlmAmount ≤
      svc.config.maxDailyPerDonor := by
  obtain ⟨amount, -, h⟩ := Except.bind_eq_ok.mp h
  obtain ⟨xlm, hcheck, h⟩ := Except.bind_eq_ok.mp h
  obtain ⟨memo, -, h⟩ := Except.bind_eq_ok.mp h
  cases h
  cases amount with
  | none => cases hcheck
  | some x =>
    cases hvalid : svc.config.validateDonationAmount store x (sanitizedDonor svc d) env.day with
    | error e =>
      rw [validateDonationAmount, hvalid] at hcheck
      cases hcheck
    | ok valid =>
      rw [validateDonationAmount, hvalid] at hcheck
      cases hcheck
      exact Config.total_le_of_validateDonationAmount hvalid hnamed hlimit

theorem fits_of_not_behind {index : ℕ} {d : Donation} {p : Prepared}
    (h : prepare sys.svc sh.store index d env = .ok p) (hknown : ¬Behind sys sh env p) :
    Fits sys sh p := by
  intro hnamed _ hlimit
  have hchecked := total_le_of_prepare h hnamed hlimit
  have htotal := le_of_not_gt hknown
  linarith

theorem sanitizedDonor_eq (svc : Services) (d : Donation) :
    sanitizedDonor svc d = svc.sanitizeIdentifier (groupKey d) := by
  rw [sanitizedDonor, groupKey]
  cases hdonor : d.donor with
  | none => exact svc.sanitize_anonymous.symm
  | some donor =>
    by_cases hempty : donor = ""
    · subst hempty
      exact svc.sanitize_anonymous.symm
    · rw [orNull_eq_some.mpr ⟨rfl, hempty⟩, orElse]
      exact (congrArg svc.sanitizeIdentifier (if_neg hempty)).symm

theorem exists_record (svc : Services) {p : Prepared} (hplain : IsPlain p.xlmAmount) (store : Store)
    (result : Option PaymentResult) (env : Env) :
    ∃ store' transaction, record svc store p result env = .ok (store', transaction) := by
  rw [record, if_pos hplain]
  have hpending : assertValidState (normalizeState none) "status" = .ok .pending :=
    assertValidState_eq_ok.mpr rfl
  rw [Store.create, show (draft svc p result).status = none from rfl, hpending]
  cases hindexed : (orNull (draft svc p result).idempotencyKey).bind store.indexed with
  | some existing => exact ⟨store, existing, rfl⟩
  | none => exact ⟨_, _, rfl⟩

theorem hasSecret_of_lookupSecret {svc : Services} {donor encrypted : String}
    (h : lookupSecret svc donor env = some encrypted) : hasSecret svc donor = true := by
  rw [lookupSecret] at h
  split_ifs at h
  rw [hasSecret, h]
  rfl

/-- A donor whose secret is not found has none, unless the lookup fails. -/
theorem hasSecret_of_lookupSecret_eq_none {svc : Services} {donor : String}
    (h : lookupSecret svc donor env = none)
    (hlookup : env.lookupFails = true → hasSecret svc donor = false) :
    hasSecret svc donor = false := by
  rw [lookupSecret] at h
  split_ifs at h with hfails
  · exact hlookup hfails
  · rw [hasSecret, h]
    rfl

theorem recordNext_spec (sys : System) (sh : Shared) (result : PaymentResult) (env : Env)
    {ps : List Prepared} (hplain : ∀ p ∈ ps, IsPlain p.xlmAmount) :
    ∃ store g, recordNext sys.svc sh result env ps = ({ sh with store }, g) ∧
      g.entries = ps.map .settled ∧ g.paying = [] ∧ (∀ e, g ≠ .rejected e) ∧
      g.work = ps.length := by
  cases ps with
  | nil => exact ⟨sh.store, .ended, rfl, rfl, rfl, nofun, rfl⟩
  | cons p rest =>
    obtain ⟨store, transaction, hrecord⟩ :=
      exists_record sys.svc (hplain p List.mem_cons_self) sh.store (some result) env
    refine ⟨store, .followingUp result p transaction rest, ?_, rfl, rfl, nofun, rfl⟩
    rw [recordNext, hrecord]

theorem recordIndividual_spec (sys : System) (sh : Shared) {p : Prepared}
    (hplain : IsPlain p.xlmAmount) (result : Option PaymentResult) (env : Env) :
    ∃ store transaction, recordIndividual sys.svc sh p result env =
      ({ sh with store }, some (.followingUp p transaction)) := by
  obtain ⟨store, transaction, hrecord⟩ :=
    exists_record sys.svc hplain sh.store result env
  exact ⟨store, transaction, by rw [recordIndividual, hrecord]⟩

/-! ## The effect of a step -/

theorem effect_resumeIndividual (sh : Shared) (env : Env) {task : Individual}
    (hplain : ∀ p, .unpaid p = task.entry → IsPlain p.xlmAmount)
    (hsecret : ∀ p ∈ task.paying, hasSecret sys.svc p.sanitizedDonor = true)
    (hguarded : task.Guarded sys env) :
    ∃ sh' task', resumeIndividual sys.svc sh env task = (sh', task') ∧
      Effect sys sh [task.entry] sh' (task'.toList.map (·.entry)) ∧
      ∀ p ∈ task'.toList.flatMap (·.paying), hasSecret sys.svc p.sanitizedDonor = true := by
  cases task with
  | lookingUp p =>
    rw [resumeIndividual]
    cases hlookup : lookupSecret sys.svc p.sanitizedDonor env with
    | none =>
      obtain ⟨store, transaction, hrecord⟩ :=
        recordIndividual_spec sys sh (hplain p rfl) none env
      refine ⟨_, _, hrecord, ?_, by rintro p ⟨⟩⟩
      exact .waive (.refl _) (.refl _) (hasSecret_of_lookupSecret_eq_none hlookup hguarded)
        rfl rfl rfl
    | some encrypted =>
      have hp := hasSecret_of_lookupSecret hlookup
      dsimp only
      cases sys.svc.decrypt encrypted with
      | ok secret =>
        refine ⟨_, _, rfl, .quiet (.refl _) rfl rfl rfl, fun q hq ↦ ?_⟩
        rw [List.mem_singleton.mp (show q ∈ [p] from hq)]
        exact hp
      | error e =>
        exact ⟨_, _, rfl, .fail (.refl _) (.refl _) rfl hp rfl rfl rfl, by rintro p ⟨⟩⟩
  | sending p =>
    have hp : hasSecret sys.svc p.sanitizedDonor = true := hsecret p List.mem_cons_self
    rw [resumeIndividual]
    cases hanswer : env.answer with
    | ok result =>
      obtain ⟨store, transaction, hrecord⟩ :=
        recordIndividual_spec sys (sh.pay [p]) (hplain p rfl) (some result) env
      refine ⟨_, _, hrecord, ?_, by rintro p ⟨⟩⟩
      have hbefore : [Entry.unpaid p].Perm ([p].map .unpaid ++ []) := .refl _
      refine .pay hbefore (.refl _) (fun q hq ↦ ?_) rfl rfl rfl
      rw [List.mem_singleton.mp hq]
      exact hp
    | error e =>
      have hunpaid : env.applied p.index = false := hguarded e hanswer p List.mem_cons_self
      refine ⟨_, _, rfl, ?_, by rintro p ⟨⟩⟩
      -- a failure is reported, so the payment must not have been made
      refine .fail (.refl _) (.refl _) rfl hp rfl rfl ?_
      simp [Shared.report, Shared.pay, hunpaid]
  | followingUp p transaction =>
    exact ⟨_, _, rfl, .succeed (.refl _) (.refl _) rfl rfl rfl rfl, by rintro p ⟨⟩⟩

theorem afterChecks_spec (prepared : List Prepared) (rest : List (ℕ × Donation)) :
    (afterChecks prepared rest).entries =
        prepared.map .unpaid ++ (rest.map fun d ↦ .waiting d.1 d.2) ∧
      (afterChecks prepared rest).paying = [] ∧ ∀ e, afterChecks prepared rest ≠ .rejected e := by
  cases rest with
  | nil =>
    rw [afterChecks]
    cases prepared with
    | nil => exact ⟨rfl, rfl, nofun⟩
    | cons p prepared =>
      refine ⟨?_, rfl, nofun⟩
      rw [List.map_nil, List.append_nil]
      rfl
  | cons d rest => exact ⟨rfl, rfl, nofun⟩

theorem fallBack_spec (prepared : List Prepared) :
    (fallBack prepared).entries = prepared.map .unpaid ∧ (fallBack prepared).paying = [] := by
  refine ⟨List.map_map, List.flatMap_eq_nil_iff.mpr fun task htask ↦ ?_⟩
  obtain ⟨p, -, rfl⟩ := List.mem_map.mp htask
  rfl

theorem hasSecret_of_paying_eq_nil {g : Group} (h : g.paying = []) :
    ∀ p ∈ g.paying, hasSecret sys.svc p.sanitizedDonor = true := by
  rw [h]
  exact List.forall_mem_nil _

theorem effect_resume {g : Group} (donor : String)
    (hplain : ∀ p, .unpaid p ∈ g.entries ∨ .settled p ∈ g.entries → IsPlain p.xlmAmount)
    (hdonor : ∀ p, .unpaid p ∈ g.entries → p.sanitizedDonor = donor)
    (hsecret : ∀ p ∈ g.paying, hasSecret sys.svc p.sanitizedDonor = true)
    (halive : ∀ e, g ≠ .rejected e) (hguarded : g.Guarded sys sh env) :
    ∃ sh' g', resume sys.svc sh g env = (sh', g') ∧
      Effect sys sh g.entries sh' g'.entries ∧ (∀ e, g' ≠ .rejected e) ∧
      ∀ p ∈ g'.paying, hasSecret sys.svc p.sanitizedDonor = true := by
  cases g with
  | validating prepared rest =>
    cases rest with
    | nil =>
      obtain ⟨hentries, hpaying, hne⟩ := afterChecks_spec prepared []
      refine ⟨_, _, rfl, .quiet ?_ rfl rfl rfl, hne, hasSecret_of_paying_eq_nil hpaying⟩
      rw [hentries]
      exact .refl _
    | cons d rest =>
      obtain ⟨index, d⟩ := d
      have hbefore : (Group.validating prepared ((index, d) :: rest)).entries.Perm
          (.waiting index d :: (prepared.map .unpaid ++ rest.map fun d ↦ .waiting d.1 d.2)) :=
        List.perm_middle
      rw [resume]
      cases hprepare : prepare sys.svc sh.store index d env with
      | ok p =>
        obtain ⟨hentries, hpaying, hne⟩ := afterChecks_spec (prepared ++ [p]) rest
        obtain ⟨hindex, hpdonor⟩ := prepare_eq_ok hprepare
        obtain ⟨hpplain, hbehind⟩ := hguarded p hprepare
        have hpfits : Fits sys sh p :=
          (em (Behind sys sh env p)).elim hbehind (fits_of_not_behind hprepare)
        refine ⟨_, _, rfl, .accept hbefore ?_ hindex hpdonor hpplain hpfits rfl rfl rfl, hne,
          hasSecret_of_paying_eq_nil hpaying⟩
        rw [hentries, List.map_append, List.append_assoc]
        exact List.perm_middle
      | error e =>
        obtain ⟨hentries, hpaying, hne⟩ := afterChecks_spec prepared rest
        refine ⟨_, _, rfl, .refuse hbefore ?_ rfl rfl rfl rfl, hne,
          hasSecret_of_paying_eq_nil hpaying⟩
        rw [hentries]
  | lookingUp prepared =>
    obtain ⟨hentries, hpaying⟩ := fallBack_spec prepared
    have hfallBack : ∃ sh' g', (sh, fallBack prepared) = (sh', g') ∧
        Effect sys sh (prepared.map .unpaid) sh' g'.entries ∧ (∀ e, g' ≠ .rejected e) ∧
        ∀ p ∈ g'.paying, hasSecret sys.svc p.sanitizedDonor = true := by
      refine ⟨_, _, rfl, .quiet ?_ rfl rfl rfl, nofun, hasSecret_of_paying_eq_nil hpaying⟩
      rw [hentries]
    rw [resume]
    cases hlookup : prepared.head?.bind fun p ↦ lookupSecret sys.svc p.sanitizedDonor env with
    | none => exact hfallBack
    | some encrypted =>
      dsimp only
      cases sys.svc.decrypt encrypted with
      | error e => exact hfallBack
      | ok secret =>
        refine ⟨_, _, rfl, .quiet (.refl _) rfl rfl rfl, nofun, fun p hp ↦ ?_⟩
        -- the donor of the first donation is the donor of all of them
        obtain ⟨first, hfirst, hfound⟩ := Option.bind_eq_some_iff.mp hlookup
        have hmem : ∀ q ∈ prepared, q.sanitizedDonor = donor :=
          fun q hq ↦ hdonor q (List.mem_map_of_mem hq)
        rw [hmem p hp, ← hmem first (List.mem_of_head? hfirst)]
        exact hasSecret_of_lookupSecret hfound
  | sending prepared =>
    rw [resume]
    cases hanswer : env.answer with
    | ok result =>
      obtain ⟨store, g', hnext, hentries, hpaying, hne, -⟩ :=
        recordNext_spec sys (sh.pay prepared) result env
          fun p hp ↦ hplain p (.inl (List.mem_map_of_mem hp))
      have hbefore : (prepared.map .unpaid).Perm (prepared.map Entry.unpaid ++ []) := by
        rw [List.append_nil]
      refine ⟨_, _, hnext, .pay hbefore ?_ hsecret rfl rfl rfl, hne,
        hasSecret_of_paying_eq_nil hpaying⟩
      rw [List.append_nil, hentries]
    | error e =>
      obtain ⟨hentries, hpaying⟩ := fallBack_spec prepared
      have hunpaid : prepared.filter (fun p ↦ env.applied p.index) = [] := by
        rw [List.filter_eq_nil_iff]
        intro p hp
        rw [hguarded e hanswer p hp]
        exact Bool.false_ne_true
      refine ⟨_, _, rfl, .quiet ?_ rfl rfl ?_, nofun, hasSecret_of_paying_eq_nil hpaying⟩
      · rw [hentries]
        exact .refl _
      · rw [Shared.pay, hunpaid, List.append_nil]
  | followingUp result p transaction rest =>
    rw [resume]
    obtain ⟨store, g', hnext, hentries, hpaying, hne, -⟩ :=
      recordNext_spec sys (sh.report p.index (.success transaction)) result env
        fun q hq ↦ hplain q (.inr (List.mem_cons_of_mem _ (List.mem_map_of_mem hq)))
    refine ⟨_, _, hnext, .succeed (.refl _) ?_ rfl rfl rfl rfl, hne,
      hasSecret_of_paying_eq_nil hpaying⟩
    rw [hentries]
  | fallingBack tasks =>
    rw [resume]
    cases htask : tasks[env.task]? with
    | none => exact ⟨_, _, rfl, .quiet (.refl _) rfl rfl rfl, nofun, hsecret⟩
    | some task =>
      obtain ⟨hlt, hget⟩ := List.getElem?_eq_some_iff.mp htask
      have hmem : task ∈ tasks := List.mem_of_getElem? htask
      have hsplit : tasks.Perm (task :: tasks.eraseIdx env.task) := by
        rw [← hget]
        exact (List.getElem_cons_eraseIdx_perm hlt).symm
      obtain ⟨sh', task', hresume, heffect, hpaying⟩ :=
        effect_resumeIndividual sh env
          (fun p hp ↦ hplain p (.inl (hp ▸ List.mem_map_of_mem hmem)))
          (fun p hp ↦ hsecret p (List.mem_flatMap.mpr ⟨task, hmem, hp⟩)) (hguarded task htask)
      have hothers : ∀ p ∈ (tasks.eraseIdx env.task).flatMap (·.paying),
          hasSecret sys.svc p.sanitizedDonor = true := by
        intro p hp
        obtain ⟨other, hother, hp⟩ := List.mem_flatMap.mp hp
        exact hsecret p (List.mem_flatMap.mpr ⟨other, List.mem_of_mem_eraseIdx hother, hp⟩)
      have hbefore : (tasks.map (·.entry)).Perm
          ([task.entry] ++ (tasks.eraseIdx env.task).map (·.entry)) := hsplit.map _
      have hframe := heffect.frame _ ((tasks.eraseIdx env.task).map (·.entry))
      dsimp only
      rw [hresume]
      cases task' with
      | none => exact ⟨_, _, rfl, hframe.perm _ hbefore (.refl _), nofun, hothers⟩
      | some task' =>
        have hset : (tasks.set env.task task').Perm (task' :: tasks.eraseIdx env.task) :=
          List.set_perm_cons_eraseIdx hlt task'
        refine ⟨_, _, rfl, hframe.perm _ hbefore (hset.map _), nofun, fun p hp ↦ ?_⟩
        obtain ⟨other, hother, hpother⟩ := List.mem_flatMap.mp hp
        rcases List.mem_cons.mp (hset.subset hother) with rfl | hrest
        · exact hpaying p (List.mem_flatMap.mpr ⟨other, List.mem_cons_self, hpother⟩)
        · exact hothers p (List.mem_flatMap.mpr ⟨other, hrest, hpother⟩)
  | ended => exact ⟨_, _, rfl, .quiet (.refl _) rfl rfl rfl, nofun, hsecret⟩
  | rejected e => exact absurd rfl (halive e)

end Functions

end StellarDonations.Batch
