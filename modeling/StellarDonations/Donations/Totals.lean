import StellarDonations.Donations.Custodial
import StellarDonations.Numeric.Double
import StellarDonations.Storage.AmountMigration

/-!
# Donation totals

`DonationTotalsRepository`: the totals and counts per recipient and over all recipients, which every
custodial donation adds to, and which `reconcile` computes anew from `transactions`.

A reconciliation visits the recipients that still have rows, so the totals of a recipient whose last
row was deleted stay. It compares the global total but not the global count. And `ROUND` makes a
double of each sum. Where none of this matters, the totals are right after a reconciliation that
runs without interruption, and a second one corrects nothing (`reconcile_exact_iff`).
-/

namespace StellarDonations.DonationTotals

open Concurrency Stellar
open AmountMigration (castInteger)
open Custodial (Args Services TotalRow TransactionRow)

/-! ## Tables -/

/-- The tables of the service, and the ids of the rows of `transactions` with a `deleted_at`. -/
structure Shared where
  custodial : Custodial.Shared
  deleted : List ℕ

/-- A row of what `reconcile` computes from `transactions`. -/
structure SourceRow where
  recipientId : ℕ
  trueTotal : ℤ
  trueCount : ℕ
  deriving DecidableEq

/-- `CAST(ROUND(…) AS INTEGER)` of a sum of integers: the sum becomes a double, which has nothing to
round. -/
def roundedSum (sum : ℤ) : ℤ := castInteger (Double.nearest sum)

namespace Shared

variable (sh : Shared) (recipientId : ℕ)

def live : List TransactionRow := sh.custodial.transactions.filter (·.id ∉ sh.deleted)

def liveOf : List TransactionRow := sh.live.filter (·.receiverId = recipientId)

/-- The row for a recipient: the total and the count, which are zero without one. -/
def cached : ℤ × ℕ :=
  ((sh.custodial.totals.find? (·.recipientId = recipientId)).map
    fun t ↦ (t.totalStroops, t.donationCount)).getD (0, 0)

def setTotal (row : SourceRow) : Shared :=
  let totals := sh.custodial.totals
  { sh with custodial.totals :=
      if (totals.find? (·.recipientId = row.recipientId)).isSome then
        totals.map fun t ↦ if t.recipientId = row.recipientId then
          { t with totalStroops := row.trueTotal, donationCount := row.trueCount } else t
      else totals ++ [⟨row.recipientId, row.trueTotal, row.trueCount⟩] }

def setGlobal (total : ℤ) (count : ℕ) : Shared :=
  { sh with custodial.globalTotal := (total, count) }

end Shared

def sum (rows : List TransactionRow) : ℤ := (rows.map (·.amount)).sum

/-- The rows of a recipient, summed up. -/
def sourceRow (sh : Shared) (recipientId : ℕ) : SourceRow where
  recipientId := recipientId
  trueTotal := roundedSum (sum (sh.liveOf recipientId))
  trueCount := (sh.liveOf recipientId).length

/-- `SELECT … GROUP BY receiverId`. -/
def sourceRows (sh : Shared) : List SourceRow :=
  (sh.live.map (·.receiverId)).dedup.map (sourceRow sh)

/-! ## Calls -/

inductive Call where
  /-- The SQL transaction of a custodial donation that was paid. -/
  | donation (a : Args) (result : PaymentResult)
  | softDelete (id : ℕ)
  -- the statements of `reconcile`
  | sourceRows
  | existing (row : SourceRow) (rest : List SourceRow) (checked corrected : ℕ)
  | correct (row : SourceRow) (rest : List SourceRow) (checked corrected : ℕ)
  | globalSource (checked corrected : ℕ)
  | globalRow (total : ℤ) (count checked corrected : ℕ)
  | correctGlobal (total : ℤ) (count checked corrected : ℕ)
  | reconciled (checked corrected : ℕ)
  | done
  | threw (e : AppError)
  deriving DecidableEq

/-- The time of a step, and the error of its statement, should it fail. -/
structure Env where
  now : ℕ
  dbError : Option AppError
  deriving DecidableEq

/-- The environment of the SQL transaction. -/
def Env.service (env : Env) : Custodial.Env where
  now := env.now
  limits := .ok ()
  velocity := .ok ()
  reserve := .ok ⟨true, ""⟩
  answer := .error (.plain "")
  insertError := env.dbError
  remaining := .ok (0, 0)

/-- The next turn of the loop over the recipients, or what comes after it. -/
def next (checked corrected : ℕ) : List SourceRow → Call
  | [] => .globalSource checked corrected
  | row :: rest => .existing row rest checked corrected

/-- Resume a call: it executes the statement it is suspended on. -/
def resume (svc : Services) (sh : Shared) (c : Call) (env : Env) : Shared × Call :=
  match c, env.dbError with
  | .donation a result, _ =>
    match Custodial.commit svc sh.custodial a result env.service with
    | .ok (custodial, _) => ({ sh with custodial }, .done)
    | .error e => (sh, .threw e)
  | .done, _ => (sh, .done)
  | .reconciled checked corrected, _ => (sh, .reconciled checked corrected)
  | .threw e, _ => (sh, .threw e)
  | _, some e => (sh, .threw e)
  | .softDelete id, none => ({ sh with deleted := id :: sh.deleted }, .done)
  | .sourceRows, none => (sh, next (sourceRows sh).length 0 (sourceRows sh))
  | .existing row rest checked corrected, none =>
    if sh.cached row.recipientId ≠ (row.trueTotal, row.trueCount) then
      (sh, .correct row rest checked corrected)
    else (sh, next checked corrected rest)
  | .correct row rest checked corrected, none =>
    (sh.setTotal row, next checked (corrected + 1) rest)
  | .globalSource checked corrected, none =>
    (sh, .globalRow (roundedSum (sum sh.live)) sh.live.length checked corrected)
  | .globalRow total count checked corrected, none =>
    if sh.custodial.globalTotal.1 ≠ total then (sh, .correctGlobal total count checked corrected)
    else (sh, .reconciled checked corrected)
  | .correctGlobal total count checked corrected, none =>
    (sh.setGlobal total count, .reconciled checked (corrected + 1))

/-- The state before any call has begun. -/
def start {ι : Type*} (sh : Shared) (call : ι → Call) : Calls ι Shared Call := ⟨sh, call⟩

/-! ## A reconciliation on its own -/

def alone (svc : Services) (x : Shared × Call) (env : Env) : Shared × Call :=
  resume svc x.1 x.2 env

/-- A reconciliation from its first statement to its end, which all succeed. -/
def reconcileAlone (svc : Services) (sh : Shared) : Shared × Call :=
  run (alone svc) (sh, .sourceRows)
    (List.replicate (2 * (sourceRows sh).length + 4) ⟨0, none⟩)

/-! ## What must hold, and when it does -/

/-- The totals and counts are those of the rows that are not deleted. -/
structure Exact (sh : Shared) : Prop where
  recipient : ∀ r, sh.cached r = (sum (sh.liveOf r), (sh.liveOf r).length)
  globalRow : sh.custodial.globalTotal = (sum sh.live, sh.live.length)

structure Reconcilable (sh : Shared) : Prop where
  /-- No recipient without rows has a total or a count. -/
  vanished : ∀ r, sh.liveOf r = [] → sh.cached r = (0, 0)
  /-- The sums survive as doubles. -/
  kept : ∀ r, roundedSum (sum (sh.liveOf r)) = sum (sh.liveOf r)
  globalKept : roundedSum (sum sh.live) = sum sh.live
  /-- The global count is right where the global total is. -/
  globalCount : sh.custodial.globalTotal.1 = sum sh.live →
    sh.custodial.globalTotal.2 = sh.live.length

/-! ## The loop as a fold -/

section Reconcile

variable {svc : Services} {sh : Shared}

/-- One turn of the loop over the recipients. -/
def correct (x : Shared × ℕ) (row : SourceRow) : Shared × ℕ :=
  if x.1.cached row.recipientId ≠ (row.trueTotal, row.trueCount) then (x.1.setTotal row, x.2 + 1)
  else x

def correctGlobal (x : Shared × ℕ) : Shared × ℕ :=
  if x.1.custodial.globalTotal.1 ≠ roundedSum (sum x.1.live) then
    (x.1.setGlobal (roundedSum (sum x.1.live)) x.1.live.length, x.2 + 1)
  else x

/-- A whole reconciliation: the state it leaves and the number of corrections. -/
def reconcile (sh : Shared) : Shared × ℕ :=
  correctGlobal ((sourceRows sh).foldl correct (sh, 0))

theorem run_reconciled (sh : Shared) (checked corrected n : ℕ) (env : Env) :
    run (alone svc) (sh, .reconciled checked corrected) (List.replicate n env) =
      (sh, .reconciled checked corrected) := by
  induction n with
  | zero => rfl
  | succ n ih => rw [List.replicate_succ, run_cons, alone, resume, ih]

theorem run_loop (svc : Services) (rows : List SourceRow) (sh : Shared)
    (checked corrected n now : ℕ) :
    ∃ m, n ≤ m ∧
      run (alone svc) (sh, next checked corrected rows)
          (List.replicate (2 * rows.length + n) ⟨now, none⟩) =
        run (alone svc) ((rows.foldl correct (sh, corrected)).1,
          .globalSource checked (rows.foldl correct (sh, corrected)).2)
          (List.replicate m ⟨now, none⟩) := by
  induction rows generalizing sh corrected n with
  | nil =>
    refine ⟨n, le_rfl, ?_⟩
    rw [List.length_nil, Nat.mul_zero, Nat.zero_add]
    rfl
  | cons row rows ih =>
    rw [List.foldl_cons, correct, next, List.length_cons]
    by_cases h : sh.cached row.recipientId ≠ (row.trueTotal, row.trueCount)
    · obtain ⟨m, hm, hrun⟩ := ih (sh.setTotal row) (corrected + 1) n
      refine ⟨m, hm, ?_⟩
      have hsteps : 2 * (rows.length + 1) + n = 2 * rows.length + n + 1 + 1 := by omega
      rw [if_pos h, ← hrun, hsteps, List.replicate_succ, run_cons, List.replicate_succ, run_cons]
      simp only [alone, resume, if_pos h]
    · obtain ⟨m, hm, hrun⟩ := ih sh corrected (n + 1)
      refine ⟨m, (Nat.le_succ n).trans hm, ?_⟩
      have hsteps : 2 * (rows.length + 1) + n = 2 * rows.length + (n + 1) + 1 := by omega
      rw [if_neg h, ← hrun, hsteps, List.replicate_succ, run_cons]
      simp only [alone, resume, if_neg h]

theorem run_global (sh : Shared) (checked corrected n now : ℕ) :
    run (alone svc) (sh, .globalSource checked corrected) (List.replicate (n + 3) ⟨now, none⟩) =
      ((correctGlobal (sh, corrected)).1,
        .reconciled checked (correctGlobal (sh, corrected)).2) := by
  have hsource : alone svc (sh, .globalSource checked corrected) ⟨now, none⟩ =
      (sh, .globalRow (roundedSum (sum sh.live)) sh.live.length checked corrected) := rfl
  rw [List.replicate_succ, run_cons, List.replicate_succ, run_cons, hsource, correctGlobal]
  by_cases h : sh.custodial.globalTotal.1 ≠ roundedSum (sum sh.live)
  · have hrow : alone svc
        (sh, .globalRow (roundedSum (sum sh.live)) sh.live.length checked corrected) ⟨now, none⟩ =
          (sh, .correctGlobal (roundedSum (sum sh.live)) sh.live.length checked corrected) :=
      if_pos h
    rw [hrow, if_pos h, List.replicate_succ, run_cons]
    exact run_reconciled ..
  · have hrow : alone svc
        (sh, .globalRow (roundedSum (sum sh.live)) sh.live.length checked corrected) ⟨now, none⟩ =
          (sh, .reconciled checked corrected) :=
      if_neg h
    rw [hrow, if_neg h]
    exact run_reconciled ..

/-- **A reconciliation on its own is the fold.** -/
theorem reconcileAlone_eq (svc : Services) (sh : Shared) :
    reconcileAlone svc sh =
      ((reconcile sh).1, .reconciled (sourceRows sh).length (reconcile sh).2) := by
  rw [reconcileAlone, List.replicate_succ, run_cons]
  obtain ⟨m, hm, hloop⟩ := run_loop svc (sourceRows sh) sh (sourceRows sh).length 0 3 0
  obtain ⟨n, rfl⟩ := Nat.exists_eq_add_of_le' hm
  rw [run_global] at hloop
  exact hloop

/-! ## What a reconciliation leaves -/

theorem find?_assign (totals : List TotalRow) (row : SourceRow) (r : ℕ) :
    (totals.map fun t ↦ if t.recipientId = row.recipientId then
        { t with totalStroops := row.trueTotal, donationCount := row.trueCount } else t).find?
          (·.recipientId = r) =
      (totals.find? (·.recipientId = r)).map fun t ↦ if row.recipientId = r then
        { t with totalStroops := row.trueTotal, donationCount := row.trueCount } else t := by
  induction totals with
  | nil => rfl
  | cons t totals ih =>
    rw [List.map_cons, List.find?_cons, List.find?_cons, ih]
    by_cases ht : t.recipientId = row.recipientId
    · by_cases hr : row.recipientId = r <;> simp [ht, hr]
    · by_cases hr : t.recipientId = r
      · subst hr
        simp [ht, Ne.symm ht]
      · simp [ht, hr]

theorem cached_setTotal (sh : Shared) (row : SourceRow) (r : ℕ) :
    (sh.setTotal row).cached r =
      if row.recipientId = r then (row.trueTotal, row.trueCount) else sh.cached r := by
  cases hfind : sh.custodial.totals.find? (·.recipientId = row.recipientId) with
  | some t =>
    have hset : (sh.setTotal row).custodial.totals = sh.custodial.totals.map fun t ↦
        if t.recipientId = row.recipientId then
          { t with totalStroops := row.trueTotal, donationCount := row.trueCount } else t :=
      if_pos (congrArg Option.isSome hfind)
    rw [Shared.cached, hset, find?_assign, Shared.cached]
    split_ifs with hr
    · rw [← hr, hfind]
      rfl
    · rw [Option.map_id']
  | none =>
    have hset : (sh.setTotal row).custodial.totals =
        sh.custodial.totals ++ [⟨row.recipientId, row.trueTotal, row.trueCount⟩] := by
      refine if_neg ?_
      rw [hfind]
      nofun
    rw [Shared.cached, hset, List.find?_append, Shared.cached]
    by_cases hr : row.recipientId = r
    · rw [if_pos hr, ← hr, hfind]
      simp
    · rw [if_neg hr, List.find?_cons_of_neg (by simpa using hr)]
      simp

@[simp] theorem live_setTotal (sh : Shared) (row : SourceRow) : (sh.setTotal row).live = sh.live :=
  rfl

@[simp] theorem globalTotal_setTotal (sh : Shared) (row : SourceRow) :
    (sh.setTotal row).custodial.globalTotal = sh.custodial.globalTotal := rfl

/-- One turn leaves the totals of its recipient as computed. -/
theorem cached_correct (x : Shared × ℕ) (row : SourceRow) (r : ℕ) :
    (correct x row).1.cached r =
      if row.recipientId = r then (row.trueTotal, row.trueCount) else x.1.cached r := by
  rw [correct]
  by_cases h : x.1.cached row.recipientId ≠ (row.trueTotal, row.trueCount)
  · rw [if_pos h]
    exact cached_setTotal ..
  · rw [if_neg h]
    split_ifs with hr
    · rw [← hr]
      exact not_not.mp h
    · rfl

theorem live_correct (x : Shared × ℕ) (row : SourceRow) :
    (correct x row).1.live = x.1.live ∧
      (correct x row).1.custodial.globalTotal = x.1.custodial.globalTotal := by
  rw [correct]
  split_ifs <;> exact ⟨rfl, rfl⟩

theorem live_loop (rows : List SourceRow) (x : Shared × ℕ) :
    (rows.foldl correct x).1.live = x.1.live ∧
      (rows.foldl correct x).1.custodial.globalTotal = x.1.custodial.globalTotal := by
  induction rows generalizing x with
  | nil => exact ⟨rfl, rfl⟩
  | cons row rows ih =>
    rw [List.foldl_cons, (ih _).1, (ih _).2]
    exact live_correct x row

theorem cached_loop_of_forall_ne {rows : List SourceRow} {r : ℕ}
    (h : ∀ row ∈ rows, row.recipientId ≠ r) (x : Shared × ℕ) :
    (rows.foldl correct x).1.cached r = x.1.cached r := by
  induction rows generalizing x with
  | nil => rfl
  | cons row rows ih =>
    rw [List.foldl_cons, ih fun row' hrow' ↦ h row' (List.mem_cons_of_mem _ hrow'), cached_correct,
      if_neg (h row List.mem_cons_self)]

theorem cached_loop_of_mem {rows : List SourceRow} (hnodup : (rows.map (·.recipientId)).Nodup)
    {row : SourceRow} (h : row ∈ rows) (x : Shared × ℕ) :
    (rows.foldl correct x).1.cached row.recipientId = (row.trueTotal, row.trueCount) := by
  induction rows generalizing x with
  | nil => cases h
  | cons row' rows ih =>
    rw [List.map_cons, List.nodup_cons] at hnodup
    rw [List.foldl_cons]
    rcases List.mem_cons.mp h with rfl | h
    · rw [cached_loop_of_forall_ne, cached_correct, if_pos rfl]
      exact fun row'' hrow'' heq ↦ hnodup.1 (List.mem_map.mpr ⟨row'', hrow'', heq⟩)
    · exact ih hnodup.2 h _

/-- Where the totals are as computed, the loop does nothing. -/
theorem loop_of_cached {rows : List SourceRow} {x : Shared × ℕ}
    (h : ∀ row ∈ rows, x.1.cached row.recipientId = (row.trueTotal, row.trueCount)) :
    rows.foldl correct x = x := by
  induction rows with
  | nil => rfl
  | cons row rows ih =>
    have hrow : correct x row = x := if_neg (not_not.mpr (h row List.mem_cons_self))
    rw [List.foldl_cons, hrow]
    exact ih fun row' hrow' ↦ h row' (List.mem_cons_of_mem _ hrow')

theorem liveOf_congr {sh' : Shared} (h : sh'.live = sh.live) (r : ℕ) :
    sh'.liveOf r = sh.liveOf r := by
  rw [Shared.liveOf, h, Shared.liveOf]

theorem sourceRow_congr {sh' : Shared} (h : sh'.live = sh.live) : sourceRow sh' = sourceRow sh := by
  funext r
  rw [sourceRow, sourceRow, liveOf_congr h]

theorem sourceRows_congr {sh' : Shared} (h : sh'.live = sh.live) :
    sourceRows sh' = sourceRows sh := by
  rw [sourceRows, sourceRows, h, sourceRow_congr h]

theorem nodup_sourceRows (sh : Shared) : ((sourceRows sh).map (·.recipientId)).Nodup := by
  have hid : (fun row : SourceRow ↦ row.recipientId) ∘ sourceRow sh = id := rfl
  rw [sourceRows, List.map_map, hid, List.map_id]
  exact List.nodup_dedup _

theorem mem_sourceRows {r : ℕ} (h : sh.liveOf r ≠ []) : sourceRow sh r ∈ sourceRows sh := by
  obtain ⟨tx, htx⟩ := List.exists_mem_of_ne_nil _ h
  obtain ⟨htx, hr⟩ := List.mem_filter.mp htx
  refine List.mem_map_of_mem (List.mem_dedup.mpr (List.mem_map.mpr ⟨tx, htx, ?_⟩))
  exact of_decide_eq_true hr

theorem ne_of_liveOf_eq_nil {r : ℕ} (h : sh.liveOf r = []) :
    ∀ row ∈ sourceRows sh, row.recipientId ≠ r := by
  rintro row hrow rfl
  obtain ⟨r, hr, rfl⟩ := List.mem_map.mp hrow
  obtain ⟨tx, htx, rfl⟩ := List.mem_map.mp (List.mem_dedup.mp hr)
  exact List.filter_eq_nil_iff.mp h tx htx (decide_eq_true rfl)

/-- **The totals after a reconciliation.** -/
theorem cached_reconcile (sh : Shared) (r : ℕ) :
    (reconcile sh).1.cached r =
      if sh.liveOf r = [] then sh.cached r
      else (roundedSum (sum (sh.liveOf r)), (sh.liveOf r).length) := by
  have hglobal : ∀ x : Shared × ℕ, (correctGlobal x).1.cached r = x.1.cached r := by
    intro x
    rw [correctGlobal]
    split_ifs <;> rfl
  rw [reconcile, hglobal]
  split_ifs with h
  · exact cached_loop_of_forall_ne (ne_of_liveOf_eq_nil h) _
  · exact cached_loop_of_mem (nodup_sourceRows sh) (mem_sourceRows h) _

theorem live_reconcile (sh : Shared) : (reconcile sh).1.live = sh.live := by
  have hglobal : ∀ x : Shared × ℕ, (correctGlobal x).1.live = x.1.live := by
    intro x
    rw [correctGlobal]
    split_ifs <;> rfl
  rw [reconcile, hglobal, (live_loop ..).1]

theorem globalTotal_reconcile (sh : Shared) :
    (reconcile sh).1.custodial.globalTotal =
      if sh.custodial.globalTotal.1 = roundedSum (sum sh.live) then sh.custodial.globalTotal
      else (roundedSum (sum sh.live), sh.live.length) := by
  obtain ⟨hlive, hglobal⟩ := live_loop (sourceRows sh) (sh, 0)
  rw [reconcile, correctGlobal, hlive, hglobal]
  by_cases h : sh.custodial.globalTotal.1 = roundedSum (sum sh.live)
  · rw [if_neg (not_not.mpr h), if_pos h, hglobal]
  · rw [if_pos h, if_neg h]
    rfl

/-- A second reconciliation finds the totals as it computes them. -/
theorem reconcile_reconcile (sh : Shared) :
    reconcile (reconcile sh).1 = ((reconcile sh).1, 0) := by
  have hlive := live_reconcile sh
  have hloop : (sourceRows (reconcile sh).1).foldl correct ((reconcile sh).1, 0) =
      ((reconcile sh).1, 0) := by
    rw [sourceRows_congr hlive]
    refine loop_of_cached fun row hrow ↦ ?_
    obtain ⟨r, -, rfl⟩ := List.mem_map.mp hrow
    have hne : sh.liveOf r ≠ [] := fun h ↦ ne_of_liveOf_eq_nil h _ hrow rfl
    exact (cached_reconcile sh r).trans (if_neg hne)
  have hglobal : (reconcile sh).1.custodial.globalTotal.1 =
      roundedSum (sum (reconcile sh).1.live) := by
    rw [globalTotal_reconcile, hlive]
    split_ifs with h
    · exact h
    · rfl
  rw [reconcile, hloop]
  exact if_neg (not_not.mpr hglobal)

theorem cached_reconcile_eq_iff (sh : Shared) (r : ℕ) :
    (reconcile sh).1.cached r = (sum (sh.liveOf r), (sh.liveOf r).length) ↔
      (sh.liveOf r = [] → sh.cached r = (0, 0)) ∧
        roundedSum (sum (sh.liveOf r)) = sum (sh.liveOf r) := by
  rw [cached_reconcile]
  split_ifs with h
  · rw [h]
    exact ⟨fun heq ↦ ⟨fun _ ↦ heq, by decide⟩, fun heq ↦ heq.1 rfl⟩
  · rw [Prod.mk.injEq]
    exact ⟨fun heq ↦ ⟨fun hnil ↦ absurd hnil h, heq.1⟩, fun heq ↦ ⟨heq.2, rfl⟩⟩

theorem globalTotal_reconcile_eq_iff (sh : Shared) :
    (reconcile sh).1.custodial.globalTotal = (sum sh.live, sh.live.length) ↔
      roundedSum (sum sh.live) = sum sh.live ∧
        (sh.custodial.globalTotal.1 = sum sh.live →
          sh.custodial.globalTotal.2 = sh.live.length) := by
  rw [globalTotal_reconcile]
  split_ifs with h
  · rw [Prod.ext_iff]
    refine ⟨fun ⟨htotal, hcount⟩ ↦ ⟨h.symm.trans htotal, fun _ ↦ hcount⟩, fun ⟨hkept, hcount⟩ ↦ ?_⟩
    exact ⟨h.trans hkept, hcount (h.trans hkept)⟩
  · rw [Prod.mk.injEq]
    refine ⟨fun ⟨hkept, _⟩ ↦ ⟨hkept, fun htotal ↦ absurd (htotal.trans hkept.symm) h⟩, ?_⟩
    exact fun ⟨hkept, _⟩ ↦ ⟨hkept, rfl⟩

/-- What a reconciliation makes right, and when. -/
theorem exact_reconcile_iff (sh : Shared) : Exact (reconcile sh).1 ↔ Reconcilable sh := by
  have hlive := live_reconcile sh
  constructor
  · intro h
    have hrecipient : ∀ r, (sh.liveOf r = [] → sh.cached r = (0, 0)) ∧
        roundedSum (sum (sh.liveOf r)) = sum (sh.liveOf r) := by
      intro r
      rw [← cached_reconcile_eq_iff, ← liveOf_congr hlive]
      exact h.recipient r
    have hglobal := h.globalRow
    rw [hlive, globalTotal_reconcile_eq_iff] at hglobal
    exact ⟨fun r ↦ (hrecipient r).1, fun r ↦ (hrecipient r).2, hglobal.1, hglobal.2⟩
  · intro h
    refine ⟨fun r ↦ ?_, ?_⟩
    · rw [liveOf_congr hlive]
      exact (cached_reconcile_eq_iff sh r).mpr ⟨h.vanished r, h.kept r⟩
    · rw [hlive]
      exact (globalTotal_reconcile_eq_iff sh).mpr ⟨h.globalKept, h.globalCount⟩

end Reconcile

/-- **The totals are exact after a reconciliation**, one that nothing else overlaps, after any run
of donations, deletions and reconciliations, exactly when the reconciliation finds what it makes
right; a second one corrects nothing. -/
theorem reconcile_exact_iff {ι : Type*} [DecidableEq ι] (svc : Services) (sh : Shared)
    (call : ι → Call) (as : List (ι × Env)) :
    let s := run (Calls.step (resume svc)) (start sh call) as
    let sh₁ := (reconcileAlone svc s.shared).1
    (Exact sh₁ ∧ ∃ checked, reconcileAlone svc sh₁ = (sh₁, .reconciled checked 0)) ↔
      Reconcilable s.shared := by
  intro s sh₁
  have hsh₁ : sh₁ = (reconcile s.shared).1 := congrArg Prod.fst (reconcileAlone_eq svc s.shared)
  have hsecond : reconcileAlone svc sh₁ = (sh₁, .reconciled (sourceRows sh₁).length 0) := by
    rw [reconcileAlone_eq, hsh₁, reconcile_reconcile]
  rw [and_iff_left ⟨_, hsecond⟩, hsh₁]
  exact exact_reconcile_iff s.shared

section Examples

def donatedAndDeleted : Bool → Call
  | false => .donation Custodial.fiveXlm ⟨"t1", 7, some 8, none⟩
  | true => .softDelete 1

/-- The totals of a recipient without rows stay. -/
theorem vanished_recipient_keeps_total :
    ¬Exact (reconcileAlone Custodial.plainServices
      (run (Calls.step (resume Custodial.plainServices))
        (start ⟨Custodial.twoUsers, []⟩ donatedAndDeleted)
        [(false, ⟨0, none⟩), (true, ⟨1, none⟩)]).shared).1 := by
  intro h
  exact absurd (h.recipient 2) (by decide +kernel)

end Examples

end StellarDonations.DonationTotals
