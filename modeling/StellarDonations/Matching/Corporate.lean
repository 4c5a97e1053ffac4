import Mathlib.Algebra.BigOperators.Group.List.Basic
import StellarDonations.Concurrency.Interleaving
import StellarDonations.Numeric.Decimal
import StellarDonations.Transactions.Store
import StellarDonations.Users

/-!
# Corporate matching

`CorporateMatchingService.processCorporateMatching`: when an enrolled employee donates, every active
program of the employee's sponsors matches the donation, up to a yearly limit per employee and a
total limit of the program.

For each program a call reads what the employee was already matched this year, computes the match
from it, and commits one SQL transaction that checks and debits the program's total, adds to the
employee's history and records the match; the payment follows the commit. The total is read again
inside the transaction, the employee's history is not, and nothing relates the transaction to the
donation it is made for. So the yearly limit holds when the history has not changed since it was
read, and a donation is matched once by a program when it is submitted once
(`Books.InOrder.charge`).
-/

namespace StellarDonations.Corporate

open Concurrency Decimal JsString Stellar Transactions

/-! ## Tables -/

/-- The `status` column of `corporate_matching`. -/
inductive ProgramStatus where
  | active
  | paused
  | exhausted
  deriving DecidableEq, Repr

/-- A row of `corporate_matching`. -/
structure Program where
  id : ℕ
  sponsorId : ℕ
  matchRatio : ℚ
  perEmployeeLimit : ℚ
  totalLimit : ℚ
  remainingTotalLimit : ℚ
  status : ProgramStatus
  createdAt : ℕ
  deriving DecidableEq

/-- What a yearly limit is about: an employee in a program and a year. -/
structure Account where
  programId : ℕ
  employeeId : ℕ
  year : ℕ
  deriving DecidableEq

/-- A row of `employee_matching_history`. -/
structure History where
  account : Account
  matchedAmount : ℚ
  deriving DecidableEq

/-- The `status` column of `corporate_matching_donations`. -/
inductive MatchStatus where
  | pending
  | completed
  deriving DecidableEq, Repr

structure MatchRow where
  id : ℕ
  account : Account
  originalDonationId : String
  matchedDonationId : Option String
  matchedAmount : ℚ
  status : MatchStatus
  stellarTxHash : Option String
  deriving DecidableEq

/-- The database, the transaction store, and two logs: which donation each debit of a program and
each payment was made for. -/
structure Db where
  programs : List Program
  /-- `matching_employees`: the programs each employee is enrolled in. -/
  employees : List (ℕ × ℕ)
  history : List History
  donations : List MatchRow
  users : List User
  store : Store
  debits : List (ℕ × String)
  payments : List (ℕ × String)

namespace Db

/-- The active programs with funds left that an employee is enrolled in, oldest first. -/
def activePrograms (db : Db) (employeeId : ℕ) : List Program :=
  (db.programs.filter fun p ↦ (p.id, employeeId) ∈ db.employees && p.status = .active &&
    decide (0 < p.remainingTotalLimit)).mergeSort fun p q ↦ p.createdAt ≤ q.createdAt

/-- `_getEmployeeYearlyMatched`. -/
def yearlyMatched (db : Db) (account : Account) : ℚ :=
  ((db.history.find? (·.account = account)).map (·.matchedAmount)).getD 0

/-- `INSERT … ON CONFLICT(corporate_matching_id, employee_wallet_id, year) DO UPDATE`. -/
def addHistory (db : Db) (account : Account) (amount : ℚ) : Db :=
  { db with
    history := if (db.history.find? (·.account = account)).isSome then
        db.history.map fun h ↦ if h.account = account
          then { h with matchedAmount := h.matchedAmount + amount } else h
      else db.history ++ [⟨account, amount⟩] }

/-- `UPDATE corporate_matching SET … WHERE id = ?`. -/
def updateProgram (db : Db) (id : ℕ) (f : Program → Program) : Db :=
  { db with programs := db.programs.map fun p ↦ if p.id = id then f p else p }

/-- The id the next `corporate_matching_donations` row gets. -/
def nextMatchId (db : Db) : ℕ := (db.donations.map (·.id)).foldl max 0 + 1

def recorded (db : Db) (account : Account) : ℚ :=
  ((db.donations.filter (·.account = account)).map (·.matchedAmount)).sum

def matchCount (db : Db) (programId : ℕ) (donationId : String) : ℕ :=
  db.donations.countP fun r ↦ r.account.programId = programId && r.originalDonationId = donationId

end Db

/-! ## Calls -/

/-- The argument of `processCorporateMatching`. -/
structure Donation where
  id : String
  amount : ℚ
  senderId : ℕ
  deriving DecidableEq

/-- `Math.min(rawMatch, employeeRemaining, remaining_total_limit)`, from the values as read. -/
def unroundedMatch (d : Donation) (p : Program) (alreadyMatched : ℚ) : ℚ :=
  min (min (d.amount * p.matchRatio) (p.perEmployeeLimit - alreadyMatched)) p.remainingTotalLimit

/-- A match about to be committed, with the values it was computed from. -/
structure Match where
  donation : Donation
  program : Program
  year : ℕ
  alreadyMatched : ℚ
  /-- The employee has an allowance left. -/
  remaining : 0 < program.perEmployeeLimit - alreadyMatched
  /-- The rounded match is positive. -/
  pos : 0 < toFixed 7 (unroundedMatch donation program alreadyMatched)

/-- `matchAmount`, rounded to Stellar precision. -/
def Match.amount (m : Match) : ℚ := toFixed 7 (unroundedMatch m.donation m.program m.alreadyMatched)

def Match.account (m : Match) : Account := ⟨m.program.id, m.donation.senderId, m.year⟩

/-- One entry of the array a call returns. -/
structure MatchRecord where
  programId : ℕ
  originalDonationId : String
  matchedDonationId : String
  matchedAmount : ℚ
  sponsorId : ℕ
  employeeId : ℕ
  stellarTxHash : Option String
  deriving DecidableEq

/-- A committed match whose payment and record are still to come. -/
structure Committed where
  toMatch : Match
  sponsor : User
  recipient : String
  linkRowId : ℕ

/-- Where a call is suspended, with the programs still to visit and the records so far. -/
inductive Call where
  | query (d : Donation)
  | readHistory (d : Donation) (p : Program) (year : ℕ) (rest : List Program)
      (records : List MatchRecord)
  | readUsers (m : Match) (rest : List Program) (records : List MatchRecord)
  | commit (m : Match) (sponsor employee : User) (rest : List Program) (records : List MatchRecord)
  | pay (c : Committed) (rest : List Program) (records : List MatchRecord)
  | link (record : MatchRecord) (linkRowId : ℕ) (d : Donation) (rest : List Program)
      (records : List MatchRecord)
  | done (records : List MatchRecord)
  | failed (e : AppError)

/-- What the clock, the database and the network answer. -/
structure Env where
  now : ℕ
  year : ℕ
  /-- `getStellarService` returns a service. -/
  stellarAvailable : Bool
  /-- The hash of the payment, or its error. -/
  answer : Except AppError (Option String)
  /-- The error of the SQL statement or transaction, should the database fail. -/
  dbError : Option AppError
  uuid : String

/-! ## The steps -/

def nextProgram (d : Donation) (year : ℕ) : List Program → List MatchRecord → Call
  | [], records => .done records
  | p :: rest, records => .readHistory d p year rest records

/-- The SQL transaction of one match: check and debit the total, add to the history, record the
match, and mark an exhausted program. -/
def commitMatch (db : Db) (m : Match) : Except AppError (Db × ℕ) :=
  match db.programs.find? (·.id = m.program.id) with
  | none => .error (.validation ("Per-program match cap exceeded for program "
      ++ toString m.program.id))
  | some fresh =>
    if fresh.remainingTotalLimit < m.amount then
      .error (.validation ("Per-program match cap exceeded for program " ++ toString m.program.id))
    else
      let newRemaining := toFixed 7 (fresh.remainingTotalLimit - m.amount)
      let row : MatchRow :=
        { id := db.nextMatchId, account := m.account, originalDonationId := m.donation.id
          matchedDonationId := none, matchedAmount := m.amount, status := .pending
          stellarTxHash := none }
      let debited := db.updateProgram m.program.id fun p ↦
        { p with
          remainingTotalLimit := newRemaining
          status := if newRemaining ≤ 0 then .exhausted else p.status }
      let recorded := debited.addHistory m.account m.amount
      .ok ({ recorded with
        donations := recorded.donations ++ [row]
        debits := (m.program.id, m.donation.id) :: recorded.debits }, row.id)

/-- The record of the match in the transaction store, and the link from the original donation. -/
def recordMatch (db : Db) (c : Committed) (txHash : Option String) (paid : Bool) (env : Env) :
    Except AppError (Db × MatchRecord) := do
  let m := c.toMatch
  let (store, tx) ← db.store.create
    { amount := m.amount
      donor := some c.sponsor.publicKey
      recipient := some c.recipient
      memo := "Corporate match for donation " ++ m.donation.id
      status := if paid then some "confirmed" else some "pending"
      stellarTxId := txHash
      matchedDonationId := some m.donation.id } env.uuid env.now
  -- a link that fails is only logged
  let linked := match store.updateMatchedDonationId m.donation.id tx.id with
    | .ok (store', _) => store'
    | .error _ => store
  return ({ db with store := linked },
    { programId := m.program.id, originalDonationId := m.donation.id, matchedDonationId := tx.id
      matchedAmount := m.amount, sponsorId := m.program.sponsorId
      employeeId := m.donation.senderId, stellarTxHash := txHash })

/-- What follows the payment: the record, then the update of the link row. A thrown error ends this
program and is only logged. -/
def afterPayment (db : Db) (c : Committed) (txHash : Option String) (paid : Bool) (env : Env)
    (rest : List Program) (records : List MatchRecord) : Db × Call :=
  match recordMatch db c txHash paid env with
  | .error _ => (db, nextProgram c.toMatch.donation env.year rest records)
  | .ok (db', record) => (db', .link record c.linkRowId c.toMatch.donation rest records)

/-- The recipient of the match: the one of the original donation, else the employee. -/
def matchRecipient (db : Db) (m : Match) (employee : User) : String :=
  orElse ((db.store.getById m.donation.id).bind (·.recipient)) employee.publicKey

/-- The computation between the read of the history and the read of the users. -/
def computeMatch (d : Donation) (p : Program) (year : ℕ) (alreadyMatched : ℚ) : Option Match :=
  if hrem : 0 < p.perEmployeeLimit - alreadyMatched then
    if hpos : 0 < toFixed 7 (unroundedMatch d p alreadyMatched) then
      some ⟨d, p, year, alreadyMatched, hrem, hpos⟩
    else none
  else none

def linkRow (record : MatchRecord) (linkRowId : ℕ) (r : MatchRow) : MatchRow :=
  if r.id = linkRowId then
    { r with
      matchedDonationId := some record.matchedDonationId
      status := .completed
      stellarTxHash := record.stellarTxHash }
  else r

/-- Resume a call: it runs to its next `await`. A statement that fails ends the program it is made
for, except that a failed query ends the call and a failed link is only logged. -/
def resume (db : Db) : Call → Env → Db × Call
  | .query d, env =>
    if d.id = "" ∨ ¬0 < d.amount ∨ d.senderId = 0 then (db, .done [])
    else match env.dbError with
      | some e => (db, .failed e)
      | none => (db, nextProgram d env.year (db.activePrograms d.senderId) [])
  | .readHistory d p year rest records, env =>
    match env.dbError, computeMatch d p year (db.yearlyMatched ⟨p.id, d.senderId, year⟩) with
    | none, some m => (db, .readUsers m rest records)
    | _, _ => (db, nextProgram d env.year rest records)
  | .readUsers m rest records, env =>
    match env.dbError, db.users.find? (·.id = m.program.sponsorId),
        db.users.find? (·.id = m.donation.senderId) with
    | none, some sponsor, some employee => (db, .commit m sponsor employee rest records)
    | _, _, _ => (db, nextProgram m.donation env.year rest records)
  | .commit m sponsor employee rest records, env =>
    match env.dbError, commitMatch db m with
    | none, .ok (db', linkRowId) =>
      let c : Committed := ⟨m, sponsor, matchRecipient db' m employee, linkRowId⟩
      if env.stellarAvailable && truthy sponsor.encryptedSecret && c.recipient ≠ "" then
        ({ db' with payments := (m.program.id, m.donation.id) :: db'.payments },
          .pay c rest records)
      else afterPayment db' c none false env rest records
    | _, _ => (db, nextProgram m.donation env.year rest records)
  | .pay c rest records, env =>
    match env.answer with
    | .ok hash => afterPayment db c (orNull hash) true env rest records
    | .error _ => afterPayment db c none false env rest records
  | .link record linkRowId d rest records, env =>
    let next := nextProgram d env.year rest (records ++ [record])
    match env.dbError with
    | some _ => (db, next)
    | none => ({ db with donations := db.donations.map (linkRow record linkRowId) }, next)
  | .done records, _ => (db, .done records)
  | .failed e, _ => (db, .failed e)

def step {ι : Type*} [DecidableEq ι] : Calls ι Db Call → ι × Env → Calls ι Db Call :=
  Calls.step resume

/-! ## What must hold -/

/-- No program has matched more than its yearly limit for any employee. -/
def WithinLimits {ι : Type*} (s : Calls ι Db Call) : Prop :=
  ∀ p ∈ s.shared.programs, ∀ employeeId year,
    s.shared.recorded ⟨p.id, employeeId, year⟩ ≤ p.perEmployeeLimit

/-- No program has debited, recorded or paid a donation's match twice. -/
def MatchedOnce {ι : Type*} (s : Calls ι Db Call) : Prop :=
  ∀ programId donationId, s.shared.matchCount programId donationId ≤ 1 ∧
    s.shared.debits.count (programId, donationId) ≤ 1 ∧
    s.shared.payments.count (programId, donationId) ≤ 1

/-- The condition on a call. At its commit the employee's history is as it was read, the program has
not matched the donation yet, and the yearly limit does not round up to a larger amount. -/
def Call.Current (db : Db) : Call → Prop
  | .commit m _ _ _ _ =>
    db.yearlyMatched m.account = m.alreadyMatched ∧
      db.matchCount m.program.id m.donation.id = 0 ∧
      roundHalfUp 7 m.program.perEmployeeLimit ≤ m.program.perEmployeeLimit
  | _ => True

instance decidableCallCurrent (db : Db) : DecidablePred (Call.Current db)
  | .commit m _ _ _ _ => inferInstanceAs (Decidable
      (db.yearlyMatched m.account = m.alreadyMatched ∧
        db.matchCount m.program.id m.donation.id = 0 ∧
        roundHalfUp 7 m.program.perEmployeeLimit ≤ m.program.perEmployeeLimit))
  | .query _ | .readHistory .. | .readUsers .. | .pay .. | .link .. | .done _ | .failed _ =>
    inferInstanceAs (Decidable True)

/-- The condition on a step: the resumed call is `Current`. -/
def Current {ι : Type*} (s : Calls ι Db Call) (a : ι × Env) : Prop :=
  (s.call a.1).Current s.shared

instance decidableCurrent {ι : Type*} (s : Calls ι Db Call) (a : ι × Env) :
    Decidable (Current s a) :=
  inferInstanceAs (Decidable ((s.call a.1).Current s.shared))

/-! ## The history and the recorded matches -/

theorem yearlyMatched_addHistory (db : Db) (account : Account) (amount : ℚ) (acc : Account) :
    (db.addHistory account amount).yearlyMatched acc
      = db.yearlyMatched acc + if account = acc then amount else 0 := by
  rw [Db.yearlyMatched, Db.yearlyMatched, Db.addHistory]
  by_cases hacc : account = acc
  · subst hacc
    rw [if_pos rfl]
    cases hfind : db.history.find? (·.account = account) with
    | none =>
      simp only [Option.isSome_none, Bool.false_eq_true, if_false]
      simp [List.find?_append, hfind]
    | some h =>
      have hh : h.account = account := by simpa using List.find?_some hfind
      have hcomp : ((fun h : History ↦ decide (h.account = account)) ∘ fun h ↦
          if h.account = account then { h with matchedAmount := h.matchedAmount + amount } else h)
          = fun h ↦ decide (h.account = account) := by
        funext x
        by_cases hx : x.account = account <;> simp [hx]
      simp only [Option.isSome_some, if_true, List.find?_map, hcomp, hfind]
      simp [hh]
  · rw [if_neg hacc, add_zero]
    have hcomp : ((fun h : History ↦ decide (h.account = acc)) ∘ fun h ↦
        if h.account = account then { h with matchedAmount := h.matchedAmount + amount } else h)
        = fun h ↦ decide (h.account = acc) := by
      funext x
      by_cases hx : x.account = account <;> simp [hx]
    split_ifs with hsome
    · rw [List.find?_map, hcomp, Option.map_map]
      cases hfind : db.history.find? (fun h ↦ decide (h.account = acc)) with
      | none => rfl
      | some h =>
        have hh : h.account = acc := by simpa using List.find?_some hfind
        simp [hh, Ne.symm hacc]
    · rw [List.find?_append]
      cases db.history.find? (fun h ↦ decide (h.account = acc)) <;> simp [hacc]

/-! ## The books

What the limits are about: the yearly limits of the programs, and for every account and every
donation what was added up, recorded, debited and paid. -/

/-- The yearly limit of each program, with its id. -/
def Db.limits (db : Db) : List (ℕ × ℚ) := db.programs.map fun p ↦ (p.id, p.perEmployeeLimit)

@[ext] structure Books where
  limits : List (ℕ × ℚ)
  yearly : Account → ℚ
  recorded : Account → ℚ
  matchCount : ℕ → String → ℕ
  debits : List (ℕ × String)
  payments : List (ℕ × String)

def Db.books (db : Db) : Books :=
  ⟨db.limits, db.yearlyMatched, db.recorded, db.matchCount, db.debits, db.payments⟩

namespace Books

/-- A committed match is entered once everywhere. -/
def charge (b : Books) (m : Match) : Books where
  limits := b.limits
  yearly acc := b.yearly acc + if m.account = acc then m.amount else 0
  recorded acc := b.recorded acc + if m.account = acc then m.amount else 0
  matchCount pid did :=
    b.matchCount pid did + if m.program.id = pid ∧ m.donation.id = did then 1 else 0
  debits := (m.program.id, m.donation.id) :: b.debits
  payments := b.payments

def submit (b : Books) (m : Match) : Books :=
  { b with payments := (m.program.id, m.donation.id) :: b.payments }

end Books

theorem recorded_append (db : Db) (row : MatchRow) (acc : Account) :
    ({ db with donations := db.donations ++ [row] } : Db).recorded acc
      = db.recorded acc + if row.account = acc then row.matchedAmount else 0 := by
  rw [Db.recorded, Db.recorded, List.filter_append, List.map_append, List.sum_append]
  by_cases h : row.account = acc <;> simp [h]

theorem matchCount_append (db : Db) (row : MatchRow) (pid : ℕ) (did : String) :
    ({ db with donations := db.donations ++ [row] } : Db).matchCount pid did
      = db.matchCount pid did
        + if row.account.programId = pid ∧ row.originalDonationId = did then 1 else 0 := by
  rw [Db.matchCount, Db.matchCount, List.countP_append]
  by_cases hp : row.account.programId = pid <;> by_cases hd : row.originalDonationId = did <;>
    simp [hp, hd]

theorem books_link (db : Db) (record : MatchRecord) (linkRowId : ℕ) :
    ({ db with donations := db.donations.map (linkRow record linkRowId) } : Db).books
      = db.books := by
  have haccount : ∀ r, (linkRow record linkRowId r).account = r.account := by
    intro r
    rw [linkRow]
    split_ifs <;> rfl
  have hdonation : ∀ r, (linkRow record linkRowId r).originalDonationId = r.originalDonationId := by
    intro r
    rw [linkRow]
    split_ifs <;> rfl
  have hamount : ∀ r, (linkRow record linkRowId r).matchedAmount = r.matchedAmount := by
    intro r
    rw [linkRow]
    split_ifs <;> rfl
  refine Books.ext rfl rfl (funext fun acc ↦ ?_) (funext₂ fun pid did ↦ ?_) rfl rfl
  · simp only [Db.books, Db.recorded, List.filter_map, List.map_map, Function.comp_def, haccount,
      hamount]
  · simp only [Db.books, Db.matchCount, List.countP_map, Function.comp_def, haccount, hdonation]

theorem limits_updateProgram (db : Db) (id : ℕ) {f : Program → Program}
    (hf : ∀ p, ((f p).id, (f p).perEmployeeLimit) = (p.id, p.perEmployeeLimit)) :
    (db.updateProgram id f).limits = db.limits := by
  rw [Db.limits, Db.limits, Db.updateProgram, List.map_map]
  refine List.map_congr_left fun p _ ↦ ?_
  rw [Function.comp_apply]
  split_ifs
  · exact hf p
  · rfl

theorem books_commitMatch {db db' : Db} {m : Match} {id : ℕ}
    (h : commitMatch db m = .ok (db', id)) :
    db'.books = db.books.charge m := by
  rw [commitMatch] at h
  split at h
  · cases h
  · obtain ⟨-, h⟩ := Except.guard_not_eq_ok.mp h
    cases h
    refine Books.ext ?_ (funext fun acc ↦ ?_) (funext fun acc ↦ ?_) (funext₂ fun pid did ↦ ?_)
      rfl rfl
    · exact limits_updateProgram db _ fun _ ↦ rfl
    · exact yearlyMatched_addHistory _ m.account m.amount acc
    · exact recorded_append _ _ acc
    · exact matchCount_append _ _ pid did

theorem books_afterPayment (db : Db) (c : Committed) (txHash : Option String) (paid : Bool)
    (env : Env) (rest : List Program) (records : List MatchRecord) :
    (afterPayment db c txHash paid env rest records).1.books = db.books := by
  rw [afterPayment]
  split
  · rfl
  · next db' record h =>
    obtain ⟨⟨store, tx⟩, -, h⟩ := Except.bind_eq_ok.mp h
    cases Except.pure_eq_ok.mp h
    rfl

/-- **What a step does to the books**: nothing, or it is a commit and charges its match, with or
without submitting the payment. -/
theorem books_resume (db : Db) (c : Call) (env : Env) :
    (resume db c env).1.books = db.books ∨
      ∃ m sponsor employee rest records, c = .commit m sponsor employee rest records ∧
        ((resume db c env).1.books = db.books.charge m ∨
          (resume db c env).1.books = (db.books.charge m).submit m) := by
  cases c with
  | query d =>
    left
    rw [resume]
    split_ifs
    · rfl
    · split <;> rfl
  | readHistory d p year rest records =>
    left
    rw [resume]
    split <;> rfl
  | readUsers m rest records =>
    left
    rw [resume]
    split <;> rfl
  | commit m sponsor employee rest records =>
    rw [resume]
    split
    · next db' linkRowId herr hcommit =>
      right
      refine ⟨m, sponsor, employee, rest, records, rfl, ?_⟩
      have hbooks := books_commitMatch hcommit
      dsimp only
      split_ifs
      · right
        rw [← hbooks]
        rfl
      · left
        rw [books_afterPayment, hbooks]
    · left
      rfl
  | pay c rest records =>
    left
    rw [resume]
    split <;> exact books_afterPayment ..
  | link record linkRowId d rest records =>
    left
    rw [resume]
    split
    · rfl
    · exact books_link db record linkRowId
  | done records => exact .inl rfl
  | failed e => exact .inl rfl

/-! ## The invariant of the books -/

/-- Books in order: the two sums of every account agree, are whole and stay within the limit, and
every donation was matched at most once, with one debit and at most one payment for each match. -/
structure Books.InOrder (b : Books) : Prop where
  nodup : (b.limits.map Prod.fst).Nodup
  agree : ∀ acc, b.yearly acc = b.recorded acc
  whole : ∀ acc, Whole 7 (b.recorded acc)
  within : ∀ pid limit, (pid, limit) ∈ b.limits →
    ∀ employeeId year, b.recorded ⟨pid, employeeId, year⟩ ≤ limit
  once : ∀ pid did, b.matchCount pid did ≤ 1
  debited : ∀ pid did, b.debits.count (pid, did) = b.matchCount pid did
  paid : ∀ pid did, b.payments.count (pid, did) ≤ b.matchCount pid did

/-- A match computed from the history as it stands leaves the account within its limit. -/
theorem Match.amount_le {m : Match} (hwhole : Whole 7 m.alreadyMatched)
    (hround : roundHalfUp 7 m.program.perEmployeeLimit ≤ m.program.perEmployeeLimit) :
    m.alreadyMatched + m.amount ≤ m.program.perEmployeeLimit := by
  have hle : unroundedMatch m.donation m.program m.alreadyMatched
      ≤ m.program.perEmployeeLimit - m.alreadyMatched :=
    (min_le_left _ _).trans (min_le_right _ _)
  have hamount := toFixed_le_sub (nonneg_of_toFixed_pos m.pos) hle hwhole hround
  rw [Match.amount]
  linarith

theorem count_cons_pair {pid pid' : ℕ} {did did' : String} (l : List (ℕ × String)) :
    ((pid, did) :: l).count (pid', did')
      = l.count (pid', did') + if pid = pid' ∧ did = did' then 1 else 0 := by
  rw [List.count_cons]
  simp only [beq_iff_eq, Prod.mk.injEq]

theorem Books.InOrder.charge {b : Books} {m : Match} (h : b.InOrder)
    (hlimit : (m.program.id, m.program.perEmployeeLimit) ∈ b.limits)
    (hread : b.yearly m.account = m.alreadyMatched)
    (hnew : b.matchCount m.program.id m.donation.id = 0)
    (hround : roundHalfUp 7 m.program.perEmployeeLimit ≤ m.program.perEmployeeLimit) :
    (b.charge m).InOrder where
  nodup := h.nodup
  agree acc := by
    rw [Books.charge]
    dsimp only
    rw [h.agree]
  whole acc := by
    refine (h.whole acc).add ?_
    split_ifs
    · exact whole_toFixed 7 _
    · exact whole_zero 7
  within pid limit hmem employeeId year := by
    rw [Books.charge]
    dsimp only
    split_ifs with hacc
    · have hid : m.program.id = pid := congrArg Account.programId hacc
      have heq : limit = m.program.perEmployeeLimit :=
        congrArg Prod.snd (List.inj_on_of_nodup_map h.nodup hmem hlimit hid.symm)
      have hrec : b.recorded m.account = m.alreadyMatched := by rw [← h.agree, hread]
      have hwhole : Whole 7 m.alreadyMatched := by
        rw [← hrec]
        exact h.whole _
      rw [← hacc, hrec, heq]
      exact m.amount_le hwhole hround
    · rw [add_zero]
      exact h.within pid limit hmem employeeId year
  once pid did := by
    rw [Books.charge]
    dsimp only
    split_ifs with hpair
    · rw [← hpair.1, ← hpair.2, hnew]
    · exact h.once pid did
  debited pid did := by
    rw [Books.charge]
    dsimp only
    rw [count_cons_pair, h.debited]
  paid pid did := (h.paid pid did).trans (Nat.le_add_right _ _)

theorem Books.InOrder.submit {b : Books} {m : Match} (h : (b.charge m).InOrder)
    (hpaid : ∀ pid did, b.payments.count (pid, did) ≤ b.matchCount pid did) :
    ((b.charge m).submit m).InOrder :=
  { h with
    paid := by
      intro pid did
      rw [Books.submit, count_cons_pair]
      exact Nat.add_le_add_right (hpaid pid did) _ }

/-! ## Runs -/

/-- The program rows a call has read and still holds. -/
def Call.snapshots : Call → List Program
  | .readHistory _ p _ rest _ => p :: rest
  | .readUsers m rest _ | .commit m _ _ rest _ => m.program :: rest
  | .pay c rest _ => c.toMatch.program :: rest
  | .link _ _ _ rest _ => rest
  | .query _ | .done _ | .failed _ => []

theorem snapshots_nextProgram (d : Donation) (year : ℕ) (ps : List Program)
    (records : List MatchRecord) : (nextProgram d year ps records).snapshots = ps := by
  cases ps <;> rfl

theorem mem_snapshots_afterPayment {db : Db} {c : Committed} {txHash : Option String} {paid : Bool}
    {env : Env} {rest : List Program} {records : List MatchRecord} {p : Program}
    (h : p ∈ (afterPayment db c txHash paid env rest records).2.snapshots) : p ∈ rest := by
  rw [afterPayment] at h
  split at h
  · rwa [snapshots_nextProgram] at h
  · exact h

theorem program_of_computeMatch {d : Donation} {p : Program} {year : ℕ} {alreadyMatched : ℚ}
    {m : Match} (h : computeMatch d p year alreadyMatched = some m) : m.program = p := by
  rw [computeMatch] at h
  split_ifs at h
  cases h
  rfl

theorem mem_snapshots_resume {db : Db} {c : Call} {env : Env} {p : Program}
    (h : p ∈ (resume db c env).2.snapshots) : p ∈ c.snapshots ∨ p ∈ db.programs := by
  cases c with
  | query d =>
    rw [resume] at h
    split_ifs at h
    · cases h
    · split at h
      · cases h
      · rw [snapshots_nextProgram, Db.activePrograms, List.mem_mergeSort] at h
        exact .inr (List.mem_of_mem_filter h)
  | readHistory d q year rest records =>
    rw [resume] at h
    split at h
    · next m herr hm =>
      have hq : m.program = q := program_of_computeMatch hm
      have hmem : p ∈ m.program :: rest := h
      rw [hq] at hmem
      exact .inl hmem
    · rw [snapshots_nextProgram] at h
      exact .inl (List.mem_cons_of_mem _ h)
  | readUsers m rest records =>
    rw [resume] at h
    split at h
    · exact .inl h
    · rw [snapshots_nextProgram] at h
      exact .inl (List.mem_cons_of_mem _ h)
  | commit m sponsor employee rest records =>
    rw [resume] at h
    split at h
    · dsimp only at h
      split_ifs at h
      · exact .inl h
      · exact .inl (List.mem_cons_of_mem _ (mem_snapshots_afterPayment h))
    · rw [snapshots_nextProgram] at h
      exact .inl (List.mem_cons_of_mem _ h)
  | pay c rest records =>
    rw [resume] at h
    split at h <;> exact .inl (List.mem_cons_of_mem _ (mem_snapshots_afterPayment h))
  | link record linkRowId d rest records =>
    rw [resume] at h
    split at h <;>
    · rw [snapshots_nextProgram] at h
      exact .inl h
  | done records => exact .inl h
  | failed e => exact .inl h

section Runs

variable {ι : Type*}

/-- The rows a call holds have the limits of the table. -/
def Held (db : Db) (c : Call) : Prop := ∀ p ∈ c.snapshots, (p.id, p.perEmployeeLimit) ∈ db.limits

structure Orderly (s : Calls ι Db Call) : Prop where
  books : s.shared.books.InOrder
  held : ∀ i, Held s.shared (s.call i)

theorem Orderly.withinLimits {s : Calls ι Db Call} (h : Orderly s) : WithinLimits s :=
  fun p hp ↦ h.books.within p.id p.perEmployeeLimit (List.mem_map.mpr ⟨p, hp, rfl⟩)

theorem Orderly.matchedOnce {s : Calls ι Db Call} (h : Orderly s) : MatchedOnce s := by
  intro pid did
  have honce := h.books.once pid did
  have hdebits := h.books.debited pid did
  have hpaid := h.books.paid pid did
  exact ⟨honce, hdebits.trans_le honce, hpaid.trans honce⟩

theorem Orderly.books_resume {s : Calls ι Db Call} (h : Orderly s) {i : ι} {env : Env}
    (hcur : Current s (i, env)) : (resume s.shared (s.call i) env).1.books.InOrder := by
  rcases Corporate.books_resume s.shared (s.call i) env with
    hsame | ⟨m, sponsor, employee, rest, records, hcall, hbooks⟩
  · rw [hsame]
    exact h.books
  · obtain ⟨hread, hnew, hround⟩ : s.shared.yearlyMatched m.account = m.alreadyMatched ∧
        s.shared.matchCount m.program.id m.donation.id = 0 ∧
        roundHalfUp 7 m.program.perEmployeeLimit ≤ m.program.perEmployeeLimit := by
      simpa only [Current, Call.Current, hcall] using hcur
    have hlimit : (m.program.id, m.program.perEmployeeLimit) ∈ s.shared.limits := by
      refine h.held i m.program ?_
      rw [hcall]
      exact List.mem_cons_self
    have hcharge := h.books.charge hlimit hread hnew hround
    rcases hbooks with hbooks | hbooks
    · rw [hbooks]
      exact hcharge
    · rw [hbooks]
      exact hcharge.submit h.books.paid

theorem limits_resume (db : Db) (c : Call) (env : Env) :
    (resume db c env).1.limits = db.limits := by
  rcases books_resume db c env with h | ⟨m, sponsor, employee, rest, records, -, h | h⟩ <;>
  exact congrArg Books.limits h

variable [DecidableEq ι]

theorem orderly_step (s : Calls ι Db Call) (a : ι × Env) (h : Orderly s) (hcur : Current s a) :
    Orderly (step s a) := by
  obtain ⟨i, env⟩ := a
  have hlimits := limits_resume s.shared (s.call i) env
  refine ⟨h.books_resume hcur, Calls.forall_step h.held ?_ fun c hc ↦ ?_⟩
  · intro p hp
    rw [hlimits]
    rcases mem_snapshots_resume hp with hp | hp
    · exact h.held i p hp
    · exact List.mem_map.mpr ⟨p, hp, rfl⟩
  · rw [Held, hlimits]
    exact hc

/-- A database before any match: distinct programs with limits that are not negative. -/
structure Fresh (db : Db) : Prop where
  nodup : (db.programs.map (·.id)).Nodup
  limit_nonneg : ∀ p ∈ db.programs, 0 ≤ p.perEmployeeLimit
  history : db.history = []
  donations : db.donations = []
  debits : db.debits = []
  payments : db.payments = []

def initial (db : Db) (d : ι → Donation) : Calls ι Db Call := ⟨db, fun i ↦ .query (d i)⟩

omit [DecidableEq ι] in
theorem orderly_initial {db : Db} (hdb : Fresh db) (d : ι → Donation) : Orderly (initial db d) := by
  have hrecorded : ∀ acc, db.recorded acc = 0 := by
    intro acc
    rw [Db.recorded, hdb.donations]
    rfl
  have hcount : ∀ pid did, db.matchCount pid did = 0 := by
    intro pid did
    rw [Db.matchCount, hdb.donations]
    rfl
  refine ⟨⟨?_, fun acc ↦ ?_, fun acc ↦ ?_, fun pid limit hmem e y ↦ ?_, fun pid did ↦ ?_,
    fun pid did ↦ ?_, fun pid did ↦ ?_⟩, fun i p hp ↦ absurd hp List.not_mem_nil⟩
  · exact (List.map_map (l := db.programs)).symm ▸ hdb.nodup
  · have hyearly : db.yearlyMatched acc = 0 := by
      rw [Db.yearlyMatched, hdb.history]
      rfl
    exact hyearly.trans (hrecorded acc).symm
  · have hwhole : Whole 7 (db.recorded acc) := by
      rw [hrecorded]
      exact whole_zero 7
    exact hwhole
  · obtain ⟨p, hp, heq⟩ := List.mem_map.mp hmem
    obtain ⟨-, rfl⟩ := Prod.ext_iff.mp heq
    exact (hrecorded _).trans_le (hdb.limit_nonneg p hp)
  · exact (hcount pid did).trans_le zero_le_one
  · exact (congrArg (List.count (pid, did)) hdb.debits).trans (hcount pid did).symm
  · exact (congrArg (List.count (pid, did)) hdb.payments).trans_le (Nat.zero_le _)

/-- **Corporate matching caps.** In every interleaving of matching calls whose commits find the
employee's history as it was read and match a donation for the first time, no employee is matched
beyond a program's yearly limit and no donation is debited, recorded or paid twice. -/
theorem corporate_matching_within_limits {db : Db} (hdb : Fresh db) (d : ι → Donation)
    (as : List (ι × Env)) (hcur : Along step Current (initial db d) as) :
    Always step (fun s ↦ WithinLimits s ∧ MatchedOnce s) (initial db d) as :=
  (hcur.always orderly_step (orderly_initial hdb d)).mono fun _ h ↦ ⟨h.withinLimits, h.matchedOnce⟩

end Runs

section Examples

/-- A program matching 1:1 up to 100 XLM a year, and one enrolled employee. -/
def oneEmployee : Db where
  programs := [⟨1, 9, 1, 100, 1000, 1000, .active, 0⟩]
  employees := [(1, 2)]
  history := []
  donations := []
  users := [⟨9, "GSPONSOR", some "SSPONSOR"⟩, ⟨2, "GEMPLOYEE", none⟩]
  store := .empty
  debits := []
  payments := []

theorem fresh_oneEmployee : Fresh oneEmployee where
  nodup := List.nodup_singleton 1
  limit_nonneg p hp := by
    rw [List.mem_singleton.mp hp]
    norm_num
  history := rfl
  donations := rfl
  debits := rfl
  payments := rfl

def okEnv (uuid : String) : Env := ⟨1000, 2025, true, .ok (some ("hash-" ++ uuid)), none, uuid⟩

/-- Two calls, each resumed six times: from the query to the link. -/
def oneAfterTheOther : List (Fin 2 × Env) :=
  List.replicate 6 (0, okEnv "m1") ++ List.replicate 6 (1, okEnv "m2")

def historyReadTwice : List (Fin 2 × Env) :=
  List.replicate 3 (0, okEnv "m1") ++ List.replicate 3 (1, okEnv "m2")
    ++ [(0, okEnv "m1"), (1, okEnv "m2")]

def twoDonations (i : Fin 2) : Donation := ⟨if i = 0 then "d1" else "d2", 60, 2⟩

def sameDonation (_ : Fin 2) : Donation := ⟨"d1", 40, 2⟩

/-- Two donations that overlap are matched beyond the yearly limit, and a donation submitted again
is matched, debited and paid again. -/
theorem corporate_matching_exceeds_limits : Fresh oneEmployee ∧
    ¬Always step WithinLimits (initial oneEmployee twoDonations) historyReadTwice ∧
    ¬Always step MatchedOnce (initial oneEmployee sameDonation) oneAfterTheOther := by
  refine ⟨fresh_oneEmployee, fun h ↦ ?_, fun h ↦ ?_⟩
  · have hprogram : (⟨1, 9, 1, 100, 1000, 880, .active, 0⟩ : Program)
        ∈ (run step (initial oneEmployee twoDonations) historyReadTwice).shared.programs := by
      decide +kernel
    have hexceeded : (100 : ℚ)
        < (run step (initial oneEmployee twoDonations) historyReadTwice).shared.recorded
          ⟨1, 2, 2025⟩ := by
      decide +kernel
    exact absurd (h.last _ hprogram 2 2025) (not_le.mpr hexceeded)
  · have hpaid : (run step (initial oneEmployee sameDonation) oneAfterTheOther).shared.payments
        = [(1, "d1"), (1, "d1")] := by
      decide +kernel
    have honce := (h.last 1 "d1").2.2
    rw [hpaid] at honce
    exact absurd honce (by decide)

theorem corporate_matching_within_limits_sequential :
    Always step (fun s ↦ WithinLimits s ∧ MatchedOnce s) (initial oneEmployee twoDonations)
      oneAfterTheOther :=
  corporate_matching_within_limits fresh_oneEmployee twoDonations oneAfterTheOther
    (by decide +kernel)

end Examples

end StellarDonations.Corporate
