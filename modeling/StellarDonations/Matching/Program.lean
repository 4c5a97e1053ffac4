import Mathlib.Algebra.BigOperators.Group.List.Basic
import StellarDonations.Concurrency.Interleaving
import StellarDonations.Numeric.Decimal

/-!
# Matching programs

`MatchingProgramService.processMatchingDonation`: when a donation arrives, every applicable program
contributes a match up to what the program has left. A call reads the active programs once, then
walks through them; for each it decrements the program's remaining amount, records the match and,
when nothing is left, marks the program exhausted and notifies the sponsor.

Every SQL statement is a suspension point. The amounts of a match are computed from the program row
as it was read at the start of the call, and the decrement writes an absolute value computed from
that row, so a call that overlaps another one on the same program can overwrite its decrement. What
holds in general is `balanced_step`: a decrement computed from the current row keeps the program's
books in balance, provided the cap is a whole number of stroops so that rounding loses nothing.
The row recording the match has a foreign key into `transactions`; when it is violated the call
fails after the decrement, and the amount is taken from the program but never granted.
-/

namespace StellarDonations.Matching

open Concurrency Decimal

/-! ## Tables -/

inductive ProgramStatus where
  | active
  | paused
  | exhausted
  | inactive
  deriving DecidableEq, Repr

/-- A row of `matching_programs`. -/
structure Program where
  id : ℕ
  sponsorWalletId : String
  matchRatio : ℚ
  maxMatchAmount : ℚ
  remainingMatchAmount : ℚ
  campaignId : Option ℕ
  status : ProgramStatus
  createdAt : ℕ
  deriving DecidableEq

structure MatchingDonation where
  id : ℕ
  matchingProgramId : ℕ
  originalDonationId : String
  matchedAmount : ℚ
  deriving DecidableEq

/-- The payload of the `matching_program.exhausted` webhook. -/
structure ExhaustedEvent where
  programId : ℕ
  sponsorWalletId : String
  maxMatchAmount : ℚ
  campaignId : Option ℕ
  deriving DecidableEq

/-- The part of the database the service reads and writes, and the webhooks it has sent. -/
structure Db where
  /-- The ids of the `transactions` rows, which `original_donation_id` references. -/
  transactionIds : List String
  programs : List Program
  matchingDonations : List MatchingDonation
  webhooks : List ExhaustedEvent

namespace Db

/-- The active programs with funds left that satisfy `p`, oldest first. -/
def activePrograms (db : Db) (p : Program → Bool) : List Program :=
  (db.programs.filter fun q ↦
      q.status = .active && decide (0 < q.remainingMatchAmount) && p q).mergeSort
    fun q r ↦ q.createdAt ≤ r.createdAt

def getActiveForCampaign (db : Db) (campaignId : ℕ) : List Program :=
  db.activePrograms fun q ↦ q.campaignId = some campaignId

def getActiveGlobal (db : Db) : List Program :=
  db.activePrograms fun q ↦ q.campaignId = none

/-- `UPDATE matching_programs SET … WHERE id = ?`. -/
def updateProgram (db : Db) (id : ℕ) (f : Program → Program) : Db :=
  { db with programs := db.programs.map fun q ↦ if q.id = id then f q else q }

def nextMatchingDonationId (db : Db) : ℕ := (db.matchingDonations.map (·.id)).foldl max 0 + 1

def insertMatchingDonation (db : Db) (row : MatchingDonation) : Db :=
  { db with matchingDonations := db.matchingDonations ++ [row] }

def recorded (db : Db) (programId : ℕ) : ℚ :=
  ((db.matchingDonations.filter (·.matchingProgramId = programId)).map (·.matchedAmount)).sum

end Db

/-! ## The service -/

/-- The argument of `processMatchingDonation`. -/
structure Donation where
  id : String
  amount : ℚ
  campaignId : Option ℕ
  deriving DecidableEq

/-- One entry of the array `processMatchingDonation` returns. -/
structure MatchingRecord where
  id : ℕ
  matchingProgramId : ℕ
  originalDonationId : String
  matchedAmount : ℚ
  sponsorWalletId : String
  deriving DecidableEq

/-- `Math.min(amount * match_ratio, remaining_match_amount)`, from the row as it was read. -/
def matchAmount (d : Donation) (p : Program) : ℚ :=
  min (d.amount * p.matchRatio) p.remainingMatchAmount

/-- The match rounded to Stellar precision. -/
def finalMatchAmount (d : Donation) (p : Program) : ℚ := toFixed 7 (matchAmount d p)

def newRemaining (d : Donation) (p : Program) : ℚ :=
  toFixed 7 (p.remainingMatchAmount - finalMatchAmount d p)

/-- A match about to be granted: the loop skips a program whose match is not positive. -/
structure Grant where
  donation : Donation
  program : Program
  pos : 0 < matchAmount donation program

namespace Grant

variable (g : Grant)

def amount : ℚ := finalMatchAmount g.donation g.program

def row (id : ℕ) : MatchingDonation where
  id := id
  matchingProgramId := g.program.id
  originalDonationId := g.donation.id
  matchedAmount := g.amount

def record (id : ℕ) : MatchingRecord where
  id := id
  matchingProgramId := g.program.id
  originalDonationId := g.donation.id
  matchedAmount := g.amount
  sponsorWalletId := g.program.sponsorWalletId

end Grant

/-- What a call of `processMatchingDonation` is suspended on, with the programs still to visit and
the records created so far. -/
inductive Call where
  | start (d : Donation)
  | queryCampaign (d : Donation) (campaignId : ℕ)
  | queryGlobal (d : Donation) (programs : List Program)
  /-- The `UPDATE` of the remaining amount. -/
  | decrement (g : Grant) (rest : List Program) (records : List MatchingRecord)
  /-- The `INSERT` of the matching donation. -/
  | insert (g : Grant) (rest : List Program) (records : List MatchingRecord)
  /-- The `UPDATE` of `markExhausted`. -/
  | markExhausted (g : Grant) (rest : List Program) (records : List MatchingRecord)
  /-- The read-back of `markExhausted`, followed by the webhook. -/
  | notify (g : Grant) (rest : List Program) (records : List MatchingRecord)
  /-- Returned. -/
  | done (records : List MatchingRecord)
  /-- Rejected with a foreign-key violation. -/
  | failed

/-- The loop body up to the next statement: programs without funds and matches that are not
positive are skipped. -/
def nextProgram (d : Donation) : List Program → List MatchingRecord → Call
  | [], records => .done records
  | p :: rest, records =>
    if p.remainingMatchAmount ≤ 0 then nextProgram d rest records
    else if h : 0 < matchAmount d p then .decrement ⟨d, p, h⟩ rest records
    else nextProgram d rest records

/-- Resume a call: execute the statement it is suspended on and run it up to the next one. -/
def resume (db : Db) (c : Call) (_ : Unit) : Db × Call :=
  match c with
  | .start d =>
    -- a campaign id of `0` is falsy in the source
    if d.campaignId.getD 0 = 0 then (db, .queryGlobal d [])
    else (db, .queryCampaign d (d.campaignId.getD 0))
  | .queryCampaign d campaignId => (db, .queryGlobal d (db.getActiveForCampaign campaignId))
  | .queryGlobal d programs => (db, nextProgram d (programs ++ db.getActiveGlobal) [])
  | .decrement g rest records =>
    (db.updateProgram g.program.id fun q ↦
        { q with remainingMatchAmount := newRemaining g.donation g.program },
      .insert g rest records)
  | .insert g rest records =>
    if g.donation.id ∈ db.transactionIds then
      let id := db.nextMatchingDonationId
      (db.insertMatchingDonation (g.row id),
        if newRemaining g.donation g.program ≤ 0 then
          .markExhausted g rest (records ++ [g.record id])
        else nextProgram g.donation rest (records ++ [g.record id]))
    else (db, .failed)
  | .markExhausted g rest records =>
    (db.updateProgram g.program.id fun q ↦ { q with status := .exhausted },
      .notify g rest records)
  | .notify g rest records =>
    -- a failed read-back or delivery is logged and swallowed
    let db := match db.programs.find? (·.id = g.program.id) with
      | some q => { db with webhooks := db.webhooks ++
          [⟨g.program.id, q.sponsorWalletId, q.maxMatchAmount, q.campaignId⟩] }
      | none => db
    (db, nextProgram g.donation rest records)
  | .done records => (db, .done records)
  | .failed => (db, .failed)

def step {ι : Type*} [DecidableEq ι] (s : Calls ι Db Call) (a : ι × Unit) : Calls ι Db Call :=
  s.step resume a

/-! ## What a step does to the books -/

/-- The amount a call has taken from a program and is about to record. -/
def Call.inFlight (programId : ℕ) : Call → ℚ
  | .insert g _ _ => if g.program.id = programId then g.amount else 0
  | _ => 0

@[simp] theorem inFlight_nextProgram (d : Donation) (pid : ℕ) (ps : List Program)
    (records : List MatchingRecord) : (nextProgram d ps records).inFlight pid = 0 := by
  induction ps with
  | nil => rfl
  | cons p ps ih =>
    rw [nextProgram]
    split_ifs
    · exact ih
    · rfl
    · exact ih

@[simp] theorem recorded_updateProgram (db : Db) (id pid : ℕ) (f : Program → Program) :
    (db.updateProgram id f).recorded pid = db.recorded pid := rfl

theorem recorded_insertMatchingDonation (db : Db) (row : MatchingDonation) (pid : ℕ) :
    (db.insertMatchingDonation row).recorded pid
      = db.recorded pid + if row.matchingProgramId = pid then row.matchedAmount else 0 := by
  rw [Db.recorded, Db.recorded, Db.insertMatchingDonation, List.filter_append, List.map_append,
    List.sum_append]
  by_cases h : row.matchingProgramId = pid <;> simp [h]

/-- The columns no statement of the service writes: a program's id and its cap. -/
def Db.caps (db : Db) : List (ℕ × ℚ) := db.programs.map fun q ↦ (q.id, q.maxMatchAmount)

theorem caps_updateProgram (db : Db) (id : ℕ) {f : Program → Program}
    (hf : ∀ q, ((f q).id, (f q).maxMatchAmount) = (q.id, q.maxMatchAmount)) :
    (db.updateProgram id f).caps = db.caps := by
  rw [Db.caps, Db.caps, Db.updateProgram, List.map_map]
  refine List.map_congr_left fun q _ ↦ ?_
  rw [Function.comp_apply]
  split_ifs
  · exact hf q
  · rfl

theorem caps_resume (db : Db) (c : Call) : (resume db c ()).1.caps = db.caps := by
  cases c with
  | start d => rw [resume]; split_ifs <;> rfl
  | queryCampaign d campaignId => rfl
  | queryGlobal d ps => rfl
  | decrement g rest records => exact caps_updateProgram db _ fun _ ↦ rfl
  | insert g rest records => rw [resume]; split_ifs <;> rfl
  | markExhausted g rest records => exact caps_updateProgram db _ fun _ ↦ rfl
  | notify g rest records => rw [resume]; split <;> rfl
  | done records => rfl
  | failed => rfl

/-- The program rows a call has read and still holds. -/
def Call.snapshots : Call → List Program
  | .queryGlobal _ ps => ps
  | .decrement g rest _ | .insert g rest _ | .markExhausted g rest _ | .notify g rest _ =>
    g.program :: rest
  | .start _ | .queryCampaign _ _ | .done _ | .failed => []

theorem mem_of_mem_snapshots_nextProgram {d : Donation} {p : Program} {ps : List Program}
    {records : List MatchingRecord} (h : p ∈ (nextProgram d ps records).snapshots) : p ∈ ps := by
  induction ps with
  | nil => exact h
  | cons r ps ih =>
    rw [nextProgram] at h
    split_ifs at h
    · exact List.mem_cons_of_mem r (ih h)
    · exact h
    · exact List.mem_cons_of_mem r (ih h)

theorem mem_snapshots_resume {db : Db} {c : Call} {p : Program}
    (h : p ∈ (resume db c ()).2.snapshots) : p ∈ c.snapshots ∨ p ∈ db.programs := by
  have hactive : ∀ f : Program → Bool, p ∈ db.activePrograms f → p ∈ db.programs := by
    intro f hp
    rw [Db.activePrograms, List.mem_mergeSort] at hp
    exact List.mem_of_mem_filter hp
  cases c with
  | start d =>
    rw [resume] at h
    split_ifs at h <;> exact absurd h List.not_mem_nil
  | queryCampaign d campaignId => exact Or.inr (hactive _ h)
  | queryGlobal d ps =>
    rcases List.mem_append.mp (mem_of_mem_snapshots_nextProgram h) with hp | hp
    · exact Or.inl hp
    · exact Or.inr (hactive _ hp)
  | decrement g rest records => exact Or.inl h
  | insert g rest records =>
    rw [resume] at h
    split_ifs at h
    · exact Or.inl h
    · exact Or.inl (List.mem_cons_of_mem _ (mem_of_mem_snapshots_nextProgram h))
    · exact absurd h List.not_mem_nil
  | markExhausted g rest records => exact Or.inl h
  | notify g rest records =>
    exact Or.inl (List.mem_cons_of_mem _ (mem_of_mem_snapshots_nextProgram h))
  | done records => exact absurd h List.not_mem_nil
  | failed => exact absurd h List.not_mem_nil

/-- Away from the decrement and the `INSERT` a call moves no money: the rows keep their amounts,
nothing is recorded, and no amount is in flight before or after. -/
theorem resume_moves_nothing (db : Db) (c : Call)
    (hdec : ∀ g rest records, c ≠ .decrement g rest records)
    (hins : ∀ g rest records, c ≠ .insert g rest records) (pid : ℕ) :
    (resume db c ()).1.recorded pid = db.recorded pid ∧
      (resume db c ()).2.inFlight pid = c.inFlight pid ∧
      ∀ q ∈ (resume db c ()).1.programs, ∃ r ∈ db.programs, r.id = q.id ∧
        r.maxMatchAmount = q.maxMatchAmount ∧ r.remainingMatchAmount = q.remainingMatchAmount := by
  cases c with
  | start d => rw [resume]; split_ifs <;> exact ⟨rfl, rfl, fun q hq ↦ ⟨q, hq, rfl, rfl, rfl⟩⟩
  | queryCampaign d campaignId => exact ⟨rfl, rfl, fun q hq ↦ ⟨q, hq, rfl, rfl, rfl⟩⟩
  | queryGlobal d ps =>
    exact ⟨rfl, inFlight_nextProgram d pid _ _, fun q hq ↦ ⟨q, hq, rfl, rfl, rfl⟩⟩
  | decrement g rest records => exact absurd rfl (hdec g rest records)
  | insert g rest records => exact absurd rfl (hins g rest records)
  | markExhausted g rest records =>
    refine ⟨rfl, rfl, fun q hq ↦ ?_⟩
    obtain ⟨r, hr, rfl⟩ := List.mem_map.mp hq
    refine ⟨r, hr, ?_⟩
    split_ifs <;> exact ⟨rfl, rfl, rfl⟩
  | notify g rest records =>
    rw [resume]
    split <;> exact ⟨rfl, inFlight_nextProgram _ pid _ _, fun q hq ↦ ⟨q, hq, rfl, rfl, rfl⟩⟩
  | done records => exact ⟨rfl, rfl, fun q hq ↦ ⟨q, hq, rfl, rfl, rfl⟩⟩
  | failed => exact ⟨rfl, rfl, fun q hq ↦ ⟨q, hq, rfl, rfl, rfl⟩⟩

/-- A decrement is computed from the row as it stands, and the cap is a whole number of stroops; a
match that is not zero is recorded only for a donation that has a `transactions` row. -/
def Call.Current (db : Db) : Call → Prop
  | .decrement g _ _ => ∀ q ∈ db.programs, q.id = g.program.id →
      q.remainingMatchAmount = g.program.remainingMatchAmount ∧ Whole 7 q.maxMatchAmount
  | .insert g _ _ => g.amount = 0 ∨ g.donation.id ∈ db.transactionIds
  | _ => True

instance Call.decidableCurrent (db : Db) : DecidablePred (Call.Current db)
  | .decrement _ _ _ => inferInstanceAs (Decidable (∀ q ∈ db.programs, _ → _))
  | .insert _ _ _ => inferInstanceAs (Decidable (_ ∨ _ ∈ db.transactionIds))
  | .start _ | .queryCampaign _ _ | .queryGlobal _ _ | .markExhausted _ _ _ | .notify _ _ _
  | .done _ | .failed => inferInstanceAs (Decidable True)

/-- The condition on a step: the resumed call is `Current`. -/
def Current {ι : Type*} (s : Calls ι Db Call) (a : ι × Unit) : Prop :=
  (s.call a.1).Current s.shared

instance decidableCurrent {ι : Type*} (s : Calls ι Db Call) (a : ι × Unit) :
    Decidable (Current s a) :=
  inferInstanceAs (Decidable ((s.call a.1).Current s.shared))

section Books

variable {ι : Type*} [Fintype ι]

/-- The sum of the matched amounts a program has granted: those recorded, and those decremented by
a call whose `INSERT` is next. -/
def granted (s : Calls ι Db Call) (programId : ℕ) : ℚ :=
  s.shared.recorded programId + ∑ i, (s.call i).inFlight programId

/-- No program grants more than its cap, and what it has left is exactly the rest. -/
def WithinCap (s : Calls ι Db Call) : Prop :=
  ∀ q ∈ s.shared.programs, granted s q.id ≤ q.maxMatchAmount ∧
    q.remainingMatchAmount = q.maxMatchAmount - granted s q.id

def Balanced (s : Calls ι Db Call) : Prop :=
  ∀ q ∈ s.shared.programs, q.remainingMatchAmount = q.maxMatchAmount - granted s q.id ∧
    0 ≤ q.remainingMatchAmount ∧ Whole 7 (granted s q.id)

theorem Balanced.withinCap {s : Calls ι Db Call} (h : Balanced s) : WithinCap s := by
  intro q hq
  obtain ⟨hrem, hpos, -⟩ := h q hq
  exact ⟨by linarith, hrem⟩

variable [DecidableEq ι]

/-- A step changes what a program has granted by what it records and by the change of the resumed
call's own amount in flight. -/
theorem granted_step (s : Calls ι Db Call) (i : ι) (pid : ℕ) :
    granted (step s (i, ())) pid = granted s pid
      + ((resume s.shared (s.call i) ()).1.recorded pid - s.shared.recorded pid)
      + ((resume s.shared (s.call i) ()).2.inFlight pid - (s.call i).inFlight pid) := by
  have hsum := sum_update_add (Call.inFlight pid) s.call i (resume s.shared (s.call i) ()).2
  rw [granted, granted, step, Calls.step_shared, Calls.step_call]
  linarith

theorem granted_step_decrement {s : Calls ι Db Call} {i : ι} {g : Grant} {rest : List Program}
    {records : List MatchingRecord} (h : s.call i = .decrement g rest records) (pid : ℕ) :
    granted (step s (i, ())) pid
      = granted s pid + if g.program.id = pid then g.amount else 0 := by
  rw [granted_step, h]
  simp [resume, Call.inFlight]

/-- A violated foreign key takes the amount out of flight without recording it. -/
theorem granted_step_insert_failed {s : Calls ι Db Call} {i : ι} {g : Grant} {rest : List Program}
    {records : List MatchingRecord} (h : s.call i = .insert g rest records)
    (hfk : g.donation.id ∉ s.shared.transactionIds) (pid : ℕ) :
    granted (step s (i, ())) pid
      = granted s pid - if g.program.id = pid then g.amount else 0 := by
  rw [granted_step, h, resume, if_neg hfk]
  simp [Call.inFlight, sub_eq_add_neg]

theorem granted_step_insert {s : Calls ι Db Call} {i : ι} {g : Grant} {rest : List Program}
    {records : List MatchingRecord} (h : s.call i = .insert g rest records)
    (hfk : g.donation.id ∈ s.shared.transactionIds) (pid : ℕ) :
    granted (step s (i, ())) pid = granted s pid := by
  have hcall : (resume s.shared (s.call i) ()).2.inFlight pid = 0 := by
    rw [h, resume, if_pos hfk]
    dsimp only
    split_ifs
    · rfl
    · exact inFlight_nextProgram _ pid _ _
  have hdb : (resume s.shared (s.call i) ()).1
      = s.shared.insertMatchingDonation (g.row s.shared.nextMatchingDonationId) := by
    rw [h, resume, if_pos hfk]
  rw [granted_step, hcall, hdb, recorded_insertMatchingDonation, h]
  by_cases hid : g.program.id = pid <;> simp [Call.inFlight, Grant.row, hid]

/-! ## The books stay in balance -/

/-- The decrement: the grant and the new remainder add up to the old remainder, because the old
remainder is a whole number of stroops. -/
theorem grant_add_newRemaining {g : Grant} (hwhole : Whole 7 g.program.remainingMatchAmount) :
    g.amount ≤ g.program.remainingMatchAmount ∧
      newRemaining g.donation g.program = g.program.remainingMatchAmount - g.amount := by
  refine ⟨toFixed_le_of_whole g.pos.le (min_le_right _ _) hwhole, ?_⟩
  exact toFixed_of_whole (hwhole.sub (whole_toFixed 7 _))

theorem balanced_step_decrement {s : Calls ι Db Call} {i : ι} {g : Grant} {rest : List Program}
    {records : List MatchingRecord} (h : s.call i = .decrement g rest records)
    (hs : Balanced s) (hcur : Current s (i, ())) : Balanced (step s (i, ())) := by
  have hcur : ∀ q ∈ s.shared.programs, q.id = g.program.id →
      q.remainingMatchAmount = g.program.remainingMatchAmount ∧ Whole 7 q.maxMatchAmount := by
    simpa only [Current, Call.Current, h] using hcur
  have hprograms : (step s (i, ())).shared.programs = (s.shared.updateProgram g.program.id fun q ↦
      { q with remainingMatchAmount := newRemaining g.donation g.program }).programs := by
    rw [step, Calls.step_shared, h, resume]
  intro q' hq'
  rw [hprograms] at hq'
  obtain ⟨q, hq, rfl⟩ := List.mem_map.mp hq'
  obtain ⟨hrem, hpos, hwhole⟩ := hs q hq
  by_cases hid : q.id = g.program.id
  · obtain ⟨heq, hmax⟩ := hcur q hq hid
    have hremWhole : Whole 7 g.program.remainingMatchAmount := by
      rw [← heq, hrem]
      exact hmax.sub hwhole
    obtain ⟨hle, hnew⟩ := grant_add_newRemaining hremWhole
    rw [if_pos hid, granted_step_decrement h, if_pos hid.symm]
    refine ⟨?_, ?_, hwhole.add (whole_toFixed 7 _)⟩
    · dsimp only
      linarith
    · dsimp only
      linarith
  · rw [if_neg hid, granted_step_decrement h, if_neg (Ne.symm hid), add_zero]
    exact ⟨hrem, hpos, hwhole⟩

theorem balanced_step (s : Calls ι Db Call) (a : ι × Unit) (hs : Balanced s) (hcur : Current s a) :
    Balanced (step s a) := by
  obtain ⟨i, u⟩ := a
  by_cases hdec : ∃ g rest records, s.call i = .decrement g rest records
  · obtain ⟨g, rest, records, h⟩ := hdec
    exact balanced_step_decrement h hs hcur
  by_cases hins : ∃ g rest records, s.call i = .insert g rest records
  · obtain ⟨g, rest, records, h⟩ := hins
    intro q hq
    by_cases hfk : g.donation.id ∈ s.shared.transactionIds
    · rw [step, Calls.step_shared, h, resume, if_pos hfk] at hq
      rw [granted_step_insert h hfk]
      exact hs q hq
    · have hzero : g.amount = 0 := by
        simpa only [Current, Call.Current, h, hfk, or_false] using hcur
      rw [step, Calls.step_shared, h, resume, if_neg hfk] at hq
      rw [granted_step_insert_failed h hfk, hzero, ite_self, sub_zero]
      exact hs q hq
  -- every other statement leaves the amounts of all rows and the amounts granted as they are
  have hquiet := resume_moves_nothing s.shared (s.call i)
    (fun g rest records h ↦ hdec ⟨g, rest, records, h⟩)
    (fun g rest records h ↦ hins ⟨g, rest, records, h⟩)
  intro q hq
  obtain ⟨hrec, hfly, hrows⟩ := hquiet q.id
  obtain ⟨r, hr, hid, hmax, hrem⟩ := hrows q hq
  rw [granted_step, hrec, hfly, sub_self, sub_self, add_zero, add_zero, ← hmax, ← hrem, ← hid]
  exact hs r hr

/-! ## The exact condition

To see that every other step breaks the books, the rows the calls hold must be known to have
come from the table: then a stale or rounded decrement leaves a remainder that is visibly not
the rest. -/

/-- The rows a call holds belong to programs of the table, and hold a whole remainder when the
program's cap is whole. -/
def Sound (db : Db) (c : Call) : Prop :=
  ∀ p ∈ c.snapshots, (∃ m, (p.id, m) ∈ db.caps) ∧
    ∀ m, (p.id, m) ∈ db.caps → Whole 7 m → Whole 7 p.remainingMatchAmount

structure Orderly (s : Calls ι Db Call) : Prop where
  balanced : Balanced s
  nodup : (s.shared.caps.map Prod.fst).Nodup
  sound : ∀ i, Sound s.shared (s.call i)

omit [DecidableEq ι] in
theorem Orderly.sound_of_mem {s : Calls ι Db Call} (h : Orderly s) {p : Program}
    (hp : p ∈ s.shared.programs) : (∃ m, (p.id, m) ∈ s.shared.caps) ∧
      ∀ m, (p.id, m) ∈ s.shared.caps → Whole 7 m → Whole 7 p.remainingMatchAmount := by
  have hmem : (p.id, p.maxMatchAmount) ∈ s.shared.caps := List.mem_map.mpr ⟨p, hp, rfl⟩
  refine ⟨⟨_, hmem⟩, fun m hm hwhole ↦ ?_⟩
  have heq : m = p.maxMatchAmount :=
    (Prod.ext_iff.mp (List.inj_on_of_nodup_map h.nodup hm hmem rfl)).2
  obtain ⟨hrem, -, hgranted⟩ := h.balanced p hp
  rw [hrem, ← heq]
  exact hwhole.sub hgranted

theorem orderly_step (s : Calls ι Db Call) (a : ι × Unit) (h : Orderly s) (hcur : Current s a) :
    Orderly (step s a) := by
  obtain ⟨i, u⟩ := a
  have hcaps : (resume s.shared (s.call i) ()).1.caps = s.shared.caps := caps_resume _ _
  refine ⟨balanced_step s _ h.balanced hcur, ?_, Calls.forall_step h.sound ?_ fun c hc ↦ ?_⟩
  · rw [step, Calls.step_shared, hcaps]
    exact h.nodup
  · intro p hp
    rw [hcaps]
    rcases mem_snapshots_resume hp with hp | hp
    · exact h.sound i p hp
    · exact h.sound_of_mem hp
  · rw [Sound, hcaps]
    exact hc

/-- A decrement that is not current breaks the books at once. -/
theorem not_withinCap_of_decrement {s : Calls ι Db Call} {i : ι} {g : Grant} {rest : List Program}
    {records : List MatchingRecord} (h : s.call i = .decrement g rest records) (hs : Orderly s)
    (hcur : ¬Current s (i, ())) : ¬WithinCap (step s (i, ())) := by
  intro hcap
  refine hcur ?_
  simp only [Current, Call.Current, h]
  intro q hq hid
  obtain ⟨hrem, -, hwhole⟩ := hs.balanced q hq
  -- the row as the decrement leaves it
  have hrow : { q with remainingMatchAmount := newRemaining g.donation g.program }
      ∈ (step s (i, ())).shared.programs := by
    rw [step, Calls.step_shared, h, resume]
    exact List.mem_map.mpr ⟨q, hq, if_pos hid⟩
  have hnew : newRemaining g.donation g.program = q.remainingMatchAmount - g.amount := by
    have := (hcap _ hrow).2
    rw [granted_step_decrement h, if_pos hid.symm] at this
    dsimp only at this
    linarith
  -- what is written is whole, hence so are the remainder it came from and the cap
  have hremWhole : Whole 7 q.remainingMatchAmount := by
    have hsum : q.remainingMatchAmount = newRemaining g.donation g.program + g.amount := by linarith
    rw [hsum]
    exact (whole_toFixed 7 _).add (whole_toFixed 7 _)
  have hmax : Whole 7 q.maxMatchAmount := by
    have hsum : q.maxMatchAmount = q.remainingMatchAmount + granted s q.id := by linarith
    rw [hsum]
    exact hremWhole.add hwhole
  have hsnap : Whole 7 g.program.remainingMatchAmount := by
    refine (hs.sound i g.program ?_).2 q.maxMatchAmount ?_ hmax
    · rw [h]
      exact List.mem_cons_self
    · exact List.mem_map.mpr ⟨q, hq, by rw [hid]⟩
  refine ⟨?_, hmax⟩
  linarith [(grant_add_newRemaining hsnap).2]

/-- A match whose row violates the foreign key breaks the books at once. -/
theorem not_withinCap_of_insert {s : Calls ι Db Call} {i : ι} {g : Grant} {rest : List Program}
    {records : List MatchingRecord} (h : s.call i = .insert g rest records) (hs : Orderly s)
    (hcur : ¬Current s (i, ())) : ¬WithinCap (step s (i, ())) := by
  simp only [Current, Call.Current, h, not_or] at hcur
  obtain ⟨hzero, hfk⟩ := hcur
  obtain ⟨m, hm⟩ := (hs.sound i g.program (by rw [h]; exact List.mem_cons_self)).1
  obtain ⟨q, hq, heq⟩ := List.mem_map.mp hm
  have hid : q.id = g.program.id := (Prod.ext_iff.mp heq).1
  intro hcap
  have hafter := (hcap q (by rw [step, Calls.step_shared, h, resume, if_neg hfk]; exact hq)).2
  rw [granted_step_insert_failed h hfk, if_pos hid.symm] at hafter
  have hbefore := (hs.balanced q hq).1
  exact hzero (by linarith)

theorem not_withinCap_step (s : Calls ι Db Call) (a : ι × Unit) (hs : Orderly s)
    (hcur : ¬Current s a) : ¬WithinCap (step s a) := by
  obtain ⟨i, u⟩ := a
  cases h : s.call i with
  | decrement g rest records => exact not_withinCap_of_decrement h hs hcur
  | insert g rest records => exact not_withinCap_of_insert h hs hcur
  | start | queryCampaign | queryGlobal | markExhausted | notify | done | failed =>
    exact absurd (by simp only [Current, Call.Current, h]) hcur

/-- A database in which every program has its full cap left and nothing has been matched. -/
structure Fresh (db : Db) : Prop where
  nodup : (db.programs.map (·.id)).Nodup
  unmatched : db.matchingDonations = []
  full : ∀ q ∈ db.programs, q.remainingMatchAmount = q.maxMatchAmount ∧ 0 ≤ q.maxMatchAmount

def initial (db : Db) (d : ι → Donation) : Calls ι Db Call := ⟨db, fun i ↦ .start (d i)⟩

omit [DecidableEq ι] in
theorem orderly_initial {db : Db} (hdb : Fresh db) (d : ι → Donation) :
    Orderly (initial db d) where
  balanced := by
    intro q hq
    have hgranted : granted (initial db d) q.id = 0 := by
      simp [granted, initial, Db.recorded, hdb.unmatched, Call.inFlight]
    obtain ⟨hrem, hmax⟩ := hdb.full q hq
    rw [hgranted, sub_zero, hrem]
    exact ⟨rfl, hmax, whole_zero 7⟩
  nodup := by
    rw [initial, Db.caps, List.map_map]
    exact hdb.nodup
  sound i p hp := absurd hp List.not_mem_nil

/-- **Matching caps, exactly.** An interleaving of matching calls keeps every program within its
cap, with the remaining amount exactly the rest, if and only if each decrement is computed from the
row as it stands under a whole cap and each match is recorded. -/
theorem matching_within_cap_iff {db : Db} (hdb : Fresh db) (d : ι → Donation)
    (as : List (ι × Unit)) :
    Always step WithinCap (initial db d) as ↔ Along step Current (initial db d) as :=
  always_iff_along (fun _ h ↦ h.balanced.withinCap) orderly_step not_withinCap_step
    (orderly_initial hdb d) as

end Books

section Examples

instance decidableWithinCap {ι : Type*} [Fintype ι] (s : Calls ι Db Call) :
    Decidable (WithinCap s) :=
  inferInstanceAs (Decidable (∀ q ∈ s.shared.programs, granted s q.id ≤ q.maxMatchAmount ∧
    q.remainingMatchAmount = q.maxMatchAmount - granted s q.id))

def tenXlmDb : Db where
  transactionIds := ["1", "2"]
  programs := [⟨1, "GSPONSOR", 1, 10, 10, none, .active, 0⟩]
  matchingDonations := []
  webhooks := []

theorem fresh_tenXlmDb : Fresh tenXlmDb where
  nodup := List.nodup_singleton 1
  unmatched := rfl
  full q hq := by
    rw [List.mem_singleton.mp hq]
    norm_num

def twoDonations (i : Fin 2) : Donation := ⟨if i = 0 then "1" else "2", 10, none⟩

/-- Both calls read the program before either decrements it. -/
def overlappingRun : List (Fin 2 × Unit) :=
  [(0, ()), (0, ()), (1, ()), (1, ()), (0, ()), (0, ()), (1, ()), (1, ())]

theorem matching_overlap_exceeds_cap :
    ¬Always step WithinCap (initial tenXlmDb twoDonations) overlappingRun := by
  decide +kernel

theorem matching_within_cap_sequential :
    Always step WithinCap (initial tenXlmDb twoDonations)
      [(0, ()), (0, ()), (0, ()), (0, ()), (1, ()), (1, ()), (1, ())] :=
  (matching_within_cap_iff fresh_tenXlmDb twoDonations _).mpr (by decide +kernel)

end Examples

end StellarDonations.Matching
