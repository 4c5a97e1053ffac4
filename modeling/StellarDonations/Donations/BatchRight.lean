import StellarDonations.Donations.BatchRuns

/-!
# Batches are right when their steps are guarded

A group ends: every resumption leaves it less to do. Then each of its donations has a result, and
what the invariant of a run says of the results and the payments is `Right`. Two runs show that
neither half of the guard can be left out.
-/

namespace StellarDonations.Batch

open Concurrency Donations JsString Stellar Transactions

variable {sys : System}

/-! ## Groups end -/

section Work

variable {svc : Services} {sh : Shared} {env : Env}

theorem Individual.work_pos (task : Individual) : 0 < task.work := by
  cases task with
  | lookingUp | sending | followingUp => exact Nat.succ_pos _

theorem Group.entries_eq_nil {g : Group} (h : g.work = 0) : g.entries = [] := by
  cases g with
  | validating | lookingUp | sending | followingUp => cases h
  | fallingBack tasks =>
    cases tasks with
    | nil => rfl
    | cons task tasks =>
      rw [Group.work, List.map_cons, List.sum_cons] at h
      exact absurd (Nat.eq_zero_of_add_eq_zero_right h) task.work_pos.ne'
  | ended | rejected => rfl

theorem afterChecks_work_le (prepared : List Prepared) (rest : List (ℕ × Donation)) :
    (afterChecks prepared rest).work ≤ 3 * prepared.length + 4 * rest.length + 3 := by
  cases rest with
  | nil =>
    rw [afterChecks]
    split_ifs
    · exact Nat.zero_le _
    · exact Nat.add_le_add_left (by decide) _
  | cons d rest => exact le_rfl

theorem fallBack_work (prepared : List Prepared) :
    (fallBack prepared).work = 3 * prepared.length := by
  rw [fallBack, Group.work, List.map_map]
  induction prepared with
  | nil => rfl
  | cons p prepared ih =>
    rw [List.map_cons, List.sum_cons, ih, List.length_cons]
    exact Nat.add_comm 3 _

theorem recordNext_work_le (svc : Services) (sh : Shared) (env : Env) (result : PaymentResult)
    (ps : List Prepared) :
    (recordNext svc sh result env ps).2.work ≤ ps.length := by
  cases ps with
  | nil => exact le_rfl
  | cons p rest =>
    rw [recordNext]
    cases record svc sh.store p (some result) env with
    | ok => exact le_rfl
    | error => exact Nat.zero_le _

/-- Resuming a donation leaves it less to do, or ends it. -/
theorem resumeIndividual_work_lt (svc : Services) (sh : Shared) (env : Env) (task : Individual) :
    (((resumeIndividual svc sh env task).2.toList.map (·.work)).sum) < task.work := by
  have hrecord : ∀ sh p result,
      (((recordIndividual svc sh p result env).2.toList.map (·.work)).sum) ≤ 1 := by
    intro sh p result
    rw [recordIndividual]
    cases record svc sh.store p result env with
    | ok => exact le_rfl
    | error => exact Nat.zero_le _
  cases task with
  | lookingUp p =>
    rw [resumeIndividual]
    cases lookupSecret svc p.sanitizedDonor env with
    | none => exact (hrecord _ _ _).trans_lt (show 1 < 3 by decide)
    | some encrypted =>
      dsimp only
      cases svc.decrypt encrypted with
      | ok => exact Nat.lt_succ_self 2
      | error => exact Nat.succ_pos 2
  | sending p =>
    rw [resumeIndividual]
    cases env.answer with
    | ok result => exact (hrecord _ _ _).trans_lt (Nat.lt_succ_self 1)
    | error => exact Nat.succ_pos 1
  | followingUp => exact Nat.succ_pos 0

/-- **Resuming a group leaves it less to do.** -/
theorem work_resume_lt {g : Group} (h : g.Awaits env) : (resume svc sh g env).2.work < g.work := by
  cases g with
  | validating prepared rest =>
    cases rest with
    | nil =>
      rw [resume, afterChecks]
      split_ifs
      · exact Nat.succ_pos _
      · exact Nat.lt_succ_self _
    | cons d rest =>
      obtain ⟨index, d⟩ := d
      rw [resume]
      cases prepare svc sh.store index d env with
      | ok p =>
        -- the check that is done was one resumption, and three are left for the donation
        have hle := afterChecks_work_le (prepared ++ [p]) rest
        rw [List.length_append, List.length_singleton] at hle
        rw [Group.work, List.length_cons]
        dsimp only
        omega
      | error e =>
        have hle := afterChecks_work_le prepared rest
        rw [Group.work, List.length_cons]
        dsimp only
        omega
  | lookingUp prepared =>
    have hfallBack : (fallBack prepared).work < (Group.lookingUp prepared).work := by
      rw [fallBack_work, Group.work]
      omega
    rw [resume]
    cases prepared.head?.bind fun p ↦ lookupSecret svc p.sanitizedDonor env with
    | none => exact hfallBack
    | some encrypted =>
      dsimp only
      cases svc.decrypt encrypted with
      | ok => exact Nat.lt_succ_self _
      | error => exact hfallBack
  | sending prepared =>
    rw [resume]
    cases env.answer with
    | ok result =>
      have hle := recordNext_work_le svc (sh.pay prepared) env result prepared
      rw [Group.work]
      dsimp only
      omega
    | error e =>
      dsimp only
      rw [fallBack_work, Group.work]
      exact Nat.lt_succ_self _
  | followingUp result p transaction rest =>
    rw [resume]
    exact Nat.lt_succ_of_le (recordNext_work_le svc _ env result rest)
  | fallingBack tasks =>
    have hlt : env.task < tasks.length := h
    have hsplit : (tasks.map (·.work)).sum =
        tasks[env.task].work + ((tasks.eraseIdx env.task).map (·.work)).sum := by
      rw [((List.getElem_cons_eraseIdx_perm hlt).map _).sum_eq.symm]
      rfl
    have hwork := resumeIndividual_work_lt svc sh env tasks[env.task]
    rw [resume, List.getElem?_eq_getElem hlt]
    dsimp only
    rcases hresume : resumeIndividual svc sh env tasks[env.task] with ⟨sh', task' | task'⟩
    · rw [hresume] at hwork
      dsimp only
      rw [Group.work, Group.work, hsplit]
      exact Nat.lt_add_of_pos_left hwork
    · rw [hresume] at hwork
      dsimp only
      rw [Group.work, Group.work, hsplit,
        ((List.set_perm_cons_eraseIdx hlt task').map (·.work)).sum_eq]
      exact Nat.add_lt_add_right hwork _
  | ended | rejected => cases h

end Work

/-! ## The main result -/

section Main

theorem Recorded.amountOf_le {sh : Shared} (h : Recorded sys sh) (donor : String) :
    amountOf sh.payments donor ≤ amountOf sh.accepted donor := by
  have hsubset : sh.payments ⊆ sh.accepted := fun p hp ↦ (h.paid p hp).1
  obtain ⟨ps, hperm, hsub⟩ := List.subperm_of_subset h.payments_nodup.of_map hsubset
  have hpos : ∀ x ∈ (sh.accepted.filter (·.sanitizedDonor = donor)).map (·.xlmAmount), 0 ≤ x := by
    intro x hx
    obtain ⟨p, hp, rfl⟩ := List.mem_map.mp hx
    exact (by positivity : (0 : ℚ) ≤ 1 / 10 ^ 6).trans (h.plain p (List.mem_of_mem_filter hp)).1
  calc amountOf sh.payments donor = amountOf ps donor := ((hperm.filter _).map _).sum_eq.symm
    _ ≤ amountOf sh.accepted donor := ((hsub.filter _).map _).sum_le_sum hpos

theorem Sound.right {s : State} (h : Sound sys s) : Right sys s where
  limit p hp hnamed hlimit := by
    obtain ⟨haccepted, hsecret⟩ := h.recorded.paid p hp
    have hfits := h.recorded.fits p haccepted hnamed hsecret hlimit
    have hle := h.recorded.amountOf_le p.sanitizedDonor
    linarith
  results_le i := by
    cases howner : sys.owner i with
    | some key =>
      have hcount := (h.placed key).count_eq i howner
      rw [Shared.resultCount] at hcount
      omega
    | none =>
      have hnone : i ∉ s.shared.results.map (·.1) := by
        intro hmem
        obtain ⟨r, hr, rfl⟩ := List.mem_map.mp hmem
        exact h.recorded.known r hr howner
      rw [List.count_eq_zero.mpr hnone]
      exact Nat.zero_le 1
  results_eq hfinished i hi := by
    have howner : sys.owner i = some (groupKey sys.donations[i]) := by
      rw [System.owner, List.getElem?_eq_getElem hi]
      rfl
    have hcount := (h.placed _).count_eq i howner
    rwa [Group.entries_eq_nil (hfinished _), List.map_nil, List.count_nil, Nat.zero_add] at hcount
  alive := h.alive
  progress key env hawaits := by
    rw [Batch.step, Calls.step_call_self]
    exact work_resume_lt hawaits
  paid_le i := List.nodup_iff_count_le_one.mp h.recorded.payments_nodup i
  reported := h.recorded.reported

/-- **Batches are right.** In every run in which each step is guarded, whatever the donations, the
interleaving of their groups, and the answers of the network. -/
theorem always_right (sys : System) (as : List Action)
    (hguarded : Along (step sys) (fun s a ↦ a.Guarded sys s) sys.start as) :
    Always (step sys) (Right sys) sys.start as := by
  have hsound : Always (step sys) (Sound sys) sys.start as :=
    hguarded.always (fun _ _ h hC ↦ h.step hC) (sound_start sys)
  exact hsound.mono fun _ h ↦ h.right

end Main

section Examples

instance decidableFits (sys : System) (sh : Shared) (p : Prepared) : Decidable (Fits sys sh p) :=
  inferInstanceAs (Decidable (_ → _ → _ → _))

instance decidableBehind (sys : System) (sh : Shared) (env : Env) (p : Prepared) :
    Decidable (Behind sys sh env p) := inferInstanceAs (Decidable (_ < _))

instance decidableReliable (env : Env) (ps : List Prepared) : Decidable (env.Reliable ps) :=
  match h : env.answer with
  | .ok _ => isTrue fun e he ↦ by rw [h] at he; cases he
  | .error e => decidable_of_iff (∀ p ∈ ps, env.applied p.index = false)
      ⟨fun hps _ _ ↦ hps, fun hreliable ↦ hreliable e h⟩

instance decidableGuardedIndividual (sys : System) (env : Env) :
    ∀ task : Individual, Decidable (task.Guarded sys env)
  | .lookingUp _ => inferInstanceAs (Decidable (_ → _))
  | .sending p => inferInstanceAs (Decidable (env.Reliable [p]))
  | .followingUp .. => isTrue trivial

instance decidableGuardedGroup (sys : System) (sh : Shared) (env : Env) :
    ∀ g : Group, Decidable (g.Guarded sys sh env)
  | .validating _ ((index, d) :: _) =>
    match h : prepare sys.svc sh.store index d env with
    | .ok p => decidable_of_iff (IsPlain p.xlmAmount ∧ (Behind sys sh env p → Fits sys sh p))
        ⟨fun hp p' hp' ↦ by rw [h] at hp'; cases hp'; exact hp, fun hall ↦ hall p h⟩
    | .error e => isTrue fun p hp ↦ by rw [h] at hp; cases hp
  | .sending prepared => inferInstanceAs (Decidable (env.Reliable prepared))
  | .fallingBack tasks =>
    inferInstanceAs (Decidable (∀ task ∈ tasks[env.task]?, task.Guarded sys env))
  | .validating _ [] | .lookingUp _ | .followingUp .. | .ended | .rejected _ => isTrue trivial

instance decidableGuarded (sys : System) (s : State) : ∀ a : Action, Decidable (a.Guarded sys s)
  | .resume key env => inferInstanceAs (Decidable ((s.call key).Guarded sys s.shared env))
  | .others _ => isTrue trivial

/-- Users with a secret, and a limit of 100 XLM a day for every donor. -/
def plainServices : Services where
  config := {
    minAmount := 1 / 100
    maxAmount := 10000
    maxDailyPerDonor := 100
    multisigThresholdXLM := none
    multisigRequiredApprovals := 2
    multisigApprovalWindowMs := 86400000
    showNumber := fun x ↦ toString x }
  sanitizeIdentifier := id
  sanitize_anonymous := rfl
  validateAndSanitizeMemo memo := .ok (memo.getD "")
  toUpperCase := String.toUpper
  findUser donor := some ⟨1, donor, some "secret"⟩
  decrypt := .ok

def batchOf (donations : List Donation) : System :=
  ⟨plainServices, donations, .empty, (0, 86399999)⟩

def sixty : Donation := { amount := some 60, donor := some "1", recipient := some "2" }

def accepting : Env where
  now := 1
  day := (0, 86399999)
  uuid := "tx1"
  convertToXLM := .ok none
  answer := .ok ⟨"hash", 1, none, none⟩

/-- The network makes the payments, and the submission throws. -/
def losing : Env :=
  { accepting with answer := .error { message := "timeout" }, applied := fun _ ↦ true }

/-- One donation runs to its end. -/
theorem always_right_sixty :
    Always (step (batchOf [sixty])) (Right (batchOf [sixty])) (batchOf [sixty]).start
      (List.replicate 4 (.resume "1" accepting)) :=
  always_right _ _ (by decide +kernel)

/-- Two donations of 60 XLM by one donor are paid together, though each was checked against the
limit of 100 XLM; and a donation whose payment was made is paid again when the group falls back. -/
theorem limit_and_payments_exceeded :
    ¬Always (step (batchOf [sixty, sixty])) (Right (batchOf [sixty, sixty]))
        (batchOf [sixty, sixty]).start (List.replicate 4 (.resume "1" accepting)) ∧
      ¬Always (step (batchOf [sixty])) (Right (batchOf [sixty])) (batchOf [sixty]).start
        ([accepting, accepting, losing, accepting, accepting].map (.resume "1")) := by
  constructor
  · intro h
    let s := run (step (batchOf [sixty, sixty])) (batchOf [sixty, sixty]).start
      (List.replicate 4 (.resume "1" accepting))
    have hpaid : "1" ∈ s.shared.payments.map (·.sanitizedDonor) := by decide +kernel
    obtain ⟨p, hp, hdonor⟩ := List.mem_map.mp hpaid
    have hlimit := h.last.limit p hp
    rw [hdonor] at hlimit
    exact absurd (hlimit (by decide) (by decide +kernel)) (by decide +kernel)
  · intro h
    exact absurd (h.last.paid_le 0) (by decide +kernel)

end Examples

end StellarDonations.Batch
