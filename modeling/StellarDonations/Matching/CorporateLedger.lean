import StellarDonations.Matching.Corporate

/-!
# The ledger of a corporate matching program

Three tables speak about what a program has matched: the remaining total on the program's row, the
yearly history of each employee, and one row for every match. A match is computed from what was read
before the transaction, so its amount may be out of date; but it is a whole number of stroops, and
the transaction checks it against the total as it is now before it writes all three tables. On the
stroop grid the rounding of the new total changes nothing, and the three tables agree exactly.
-/

namespace StellarDonations.Corporate

open Concurrency Decimal

/-! ## The tables of one program -/

namespace Db

/-- `SELECT * FROM corporate_matching WHERE id = ?`. -/
def program (db : Db) (id : ℕ) : Option Program := db.programs.find? (·.id = id)

/-- The sum of `matched_amount` over a program's rows of `corporate_matching_donations`. -/
def matchedBy (db : Db) (id : ℕ) : ℚ :=
  ((db.donations.filter (·.account.programId = id)).map (·.matchedAmount)).sum

end Db

/-- The argument of `CorporateMatchingService.create`. -/
structure NewProgram where
  sponsorId : ℕ
  matchRatio : ℚ
  perEmployeeLimit : ℚ
  totalLimit : ℚ

/-- `CorporateMatchingService.create`, for the id and the time the table assigns. -/
def create (db : Db) (new : NewProgram) (id now : ℕ) : Except AppError (Db × Program) :=
  if new.sponsorId < 1 then .error (.validation "sponsor_id must be a positive integer")
  else if new.matchRatio ≤ 0 ∨ 10 < new.matchRatio then
    .error (.validation "match_ratio must be a number between 0 (exclusive) and 10 (inclusive)")
  else if new.perEmployeeLimit ≤ 0 then
    .error (.validation "per_employee_limit must be a positive number")
  else if new.totalLimit ≤ 0 then .error (.validation "total_limit must be a positive number")
  else if new.totalLimit < new.perEmployeeLimit then
    .error (.validation "per_employee_limit cannot exceed total_limit")
  else if (db.users.find? (·.id = new.sponsorId)).isNone then
    .error (.notFound .notFound "Sponsor account not found")
  else
    let program : Program :=
      { id, sponsorId := new.sponsorId, matchRatio := new.matchRatio
        perEmployeeLimit := new.perEmployeeLimit, totalLimit := new.totalLimit
        remainingTotalLimit := new.totalLimit, status := .active, createdAt := now }
    .ok ({ db with programs := db.programs ++ [program] }, program)

/-- An id that `AUTOINCREMENT` may assign: no row of the three tables has it. -/
structure Unused (db : Db) (id : ℕ) : Prop where
  programs : ∀ p ∈ db.programs, p.id ≠ id
  history : ∀ h ∈ db.history, h.account.programId ≠ id
  donations : ∀ r ∈ db.donations, r.account.programId ≠ id

/-! ## What must hold -/

structure ExactLedger (db : Db) (id : ℕ) (totalLimit : ℚ) : Prop where
  /-- What remains is the total limit less the matches, and the program is exhausted when nothing
  remains. -/
  row : ∃ p, db.program id = some p ∧ p.totalLimit = totalLimit ∧
    p.remainingTotalLimit = totalLimit - db.matchedBy id ∧ 0 ≤ p.remainingTotalLimit ∧
    (p.status = .exhausted ↔ p.remainingTotalLimit = 0)
  /-- The yearly history of an employee is the sum of the employee's rows of the year. -/
  history : ∀ employeeId year, db.yearlyMatched ⟨id, employeeId, year⟩
    = db.recorded ⟨id, employeeId, year⟩

/-! ## What a step does to the three tables -/

structure SameLedgers (db db' : Db) : Prop where
  programs : db.programs = db'.programs
  history : db.history = db'.history
  recorded : ∀ acc, db.recorded acc = db'.recorded acc
  matchedBy : ∀ id, db.matchedBy id = db'.matchedBy id

theorem SameLedgers.refl (db : Db) : SameLedgers db db := ⟨rfl, rfl, fun _ ↦ rfl, fun _ ↦ rfl⟩

theorem ExactLedger.of_same {db db' : Db} {id : ℕ} {total : ℚ} (h : ExactLedger db' id total)
    (hsame : SameLedgers db db') : ExactLedger db id total where
  row := by
    rw [Db.program, hsame.programs, hsame.matchedBy]
    exact h.row
  history employeeId year := by
    rw [Db.yearlyMatched, hsame.history, hsame.recorded]
    exact h.history employeeId year

theorem sameLedgers_link (db : Db) (record : MatchRecord) (linkRowId : ℕ) :
    SameLedgers { db with donations := db.donations.map (linkRow record linkRowId) } db where
  programs := rfl
  history := rfl
  recorded acc := congrFun (congrArg Books.recorded (books_link db record linkRowId)) acc
  matchedBy id := by
    have hrow : ∀ r, (linkRow record linkRowId r).account = r.account ∧
        (linkRow record linkRowId r).matchedAmount = r.matchedAmount := by
      intro r
      rw [linkRow]
      split_ifs <;> exact ⟨rfl, rfl⟩
    simp only [Db.matchedBy, List.filter_map, List.map_map, Function.comp_def, (hrow _).1,
      (hrow _).2]

theorem sameLedgers_afterPayment (db : Db) (c : Committed) (txHash : Option String) (paid : Bool)
    (env : Env) (rest : List Program) (records : List MatchRecord) :
    SameLedgers (afterPayment db c txHash paid env rest records).1 db := by
  rw [afterPayment]
  split
  · exact .refl db
  · next db' record h =>
    obtain ⟨⟨store, tx⟩, -, h⟩ := Except.bind_eq_ok.mp h
    cases Except.pure_eq_ok.mp h
    exact ⟨rfl, rfl, fun _ ↦ rfl, fun _ ↦ rfl⟩

/-- **What a step does to the ledgers**: nothing, or what a committed transaction does. -/
theorem ledgers_resume (db : Db) (c : Call) (env : Env) :
    SameLedgers (resume db c env).1 db ∨
      ∃ m db' linkRowId, commitMatch db m = .ok (db', linkRowId) ∧
        SameLedgers (resume db c env).1 db' := by
  cases c with
  | query d =>
    left
    rw [resume]
    split_ifs
    · exact .refl db
    · split <;> exact .refl db
  | readHistory d p year rest records =>
    left
    rw [resume]
    split <;> exact .refl db
  | readUsers m rest records =>
    left
    rw [resume]
    split <;> exact .refl db
  | commit m sponsor employee rest records =>
    rw [resume]
    split
    · next db' linkRowId herr hcommit =>
      refine .inr ⟨m, db', linkRowId, hcommit, ?_⟩
      dsimp only
      split_ifs
      · exact ⟨rfl, rfl, fun _ ↦ rfl, fun _ ↦ rfl⟩
      · exact sameLedgers_afterPayment ..
    · exact .inl (.refl db)
  | pay c rest records =>
    left
    rw [resume]
    split <;> exact sameLedgers_afterPayment ..
  | link record linkRowId d rest records =>
    left
    rw [resume]
    split
    · exact .refl db
    · exact sameLedgers_link db record linkRowId
  | done records => exact .inl (.refl db)
  | failed e => exact .inl (.refl db)

/-! ## One transaction -/

section Transaction

variable {db db' : Db} {m : Match} {id linkRowId : ℕ} {total : ℚ}

theorem matchedBy_append (db : Db) (row : MatchRow) (id : ℕ) :
    ({ db with donations := db.donations ++ [row] } : Db).matchedBy id
      = db.matchedBy id + if row.account.programId = id then row.matchedAmount else 0 := by
  rw [Db.matchedBy, Db.matchedBy, List.filter_append, List.map_append, List.sum_append]
  by_cases h : row.account.programId = id <;> simp [h]

theorem program_updateProgram (db : Db) (pid : ℕ) {f : Program → Program}
    (hf : ∀ p, (f p).id = p.id) (id : ℕ) :
    (db.updateProgram pid f).program id
      = (db.program id).map fun p ↦ if pid = id then f p else p := by
  rw [Db.program, Db.program, Db.updateProgram, List.find?_map]
  have hcomp : ((fun p : Program ↦ decide (p.id = id)) ∘ fun p ↦ if p.id = pid then f p else p)
      = fun p ↦ decide (p.id = id) := by
    funext p
    rw [Function.comp_apply]
    split_ifs
    · rw [hf]
    · rfl
  rw [hcomp]
  cases hfind : db.programs.find? (fun p ↦ decide (p.id = id)) with
  | none => rfl
  | some p =>
    have hp : p.id = id := by simpa using List.find?_some hfind
    rw [Option.map_some, Option.map_some, hp]
    simp only [eq_comm]

/-- The row a committed transaction leaves of the program it debits. -/
def Program.debit (p : Program) (amount : ℚ) : Program :=
  { p with
    remainingTotalLimit := toFixed 7 (p.remainingTotalLimit - amount)
    status := if toFixed 7 (p.remainingTotalLimit - amount) ≤ 0 then .exhausted else p.status }

/-- A committed transaction: the amount was there, and the three tables are charged with it. -/
theorem commitMatch_eq_ok (h : commitMatch db m = .ok (db', linkRowId)) :
    ∃ fresh, db.program m.program.id = some fresh ∧ m.amount ≤ fresh.remainingTotalLimit ∧
      (∀ id, db'.program id
        = (db.program id).map fun p ↦ if m.program.id = id then fresh.debit m.amount else p) ∧
      (∀ id, db'.matchedBy id
        = db.matchedBy id + if m.program.id = id then m.amount else 0) ∧
      ∀ acc, db'.yearlyMatched acc
        = db.yearlyMatched acc + (if m.account = acc then m.amount else 0) ∧
        db'.recorded acc = db.recorded acc + if m.account = acc then m.amount else 0 := by
  rw [commitMatch] at h
  split at h
  · cases h
  · next fresh hfresh =>
    obtain ⟨hroom, h⟩ := Except.guard_not_eq_ok.mp h
    cases h
    refine ⟨fresh, hfresh, not_lt.mp hroom, fun id ↦ ?_, fun id ↦ matchedBy_append _ _ id,
      fun acc ↦ ⟨yearlyMatched_addHistory _ _ _ acc, recorded_append _ _ acc⟩⟩
    refine (program_updateProgram db m.program.id (f := fun p ↦ { p with
      remainingTotalLimit := toFixed 7 (fresh.remainingTotalLimit - m.amount)
      status := if toFixed 7 (fresh.remainingTotalLimit - m.amount) ≤ 0 then .exhausted
        else p.status }) (fun _ ↦ rfl) id).trans ?_
    refine Option.map_congr fun p hp ↦ ?_
    by_cases hid : m.program.id = id
    · -- the row found under the id is the one the transaction has read
      subst hid
      have hsame : fresh = p := Option.some.inj (hfresh.symm.trans hp)
      rw [if_pos rfl, if_pos rfl, hsame]
      rfl
    · rw [if_neg hid, if_neg hid]

theorem Match.amount_pos (m : Match) : 0 < m.amount := m.pos

theorem Match.whole_amount (m : Match) : Whole 7 m.amount := whole_toFixed 7 _

/-- The ledger, with what remains on the stroop grid. -/
structure LedgerInvariant (db : Db) (id : ℕ) (total : ℚ) : Prop extends
    ExactLedger db id total where
  whole : ∀ p, db.program id = some p → Whole 7 p.remainingTotalLimit

theorem LedgerInvariant.of_same (h : LedgerInvariant db' id total) (hsame : SameLedgers db db') :
    LedgerInvariant db id total where
  toExactLedger := h.toExactLedger.of_same hsame
  whole p hp := h.whole p (by rwa [Db.program, ← hsame.programs])

/-- **A committed transaction keeps the ledger exact.** -/
theorem LedgerInvariant.commitMatch (h : LedgerInvariant db id total)
    (hcommit : Corporate.commitMatch db m = .ok (db', linkRowId)) :
    LedgerInvariant db' id total := by
  obtain ⟨fresh, hfresh, hroom, hprogram, hmatched, haccount⟩ := commitMatch_eq_ok hcommit
  obtain ⟨p, hp, htotal, hremaining, hnonneg, hstatus⟩ := h.row
  have hhistory : ∀ employeeId year, db'.yearlyMatched ⟨id, employeeId, year⟩
      = db'.recorded ⟨id, employeeId, year⟩ := by
    intro employeeId year
    rw [(haccount _).1, (haccount _).2, h.history]
  have hrow := hprogram id
  have hsum := hmatched id
  rw [hp, Option.map_some] at hrow
  by_cases hid : m.program.id = id
  · subst hid
    have hsame : p = fresh := Option.some.inj (hp.symm.trans hfresh)
    subst hsame
    rw [if_pos rfl] at hrow hsum
    -- the amount and the remainder are whole, so the rounding is exact
    have hwhole : Whole 7 (p.remainingTotalLimit - m.amount) := (h.whole p hp).sub m.whole_amount
    have hexact : toFixed 7 (p.remainingTotalLimit - m.amount)
        = p.remainingTotalLimit - m.amount := toFixed_of_whole hwhole
    have hopen : p.status ≠ .exhausted := by
      intro hexhausted
      have := hstatus.mp hexhausted
      linarith [m.amount_pos]
    refine ⟨⟨⟨_, hrow, htotal, ?_, ?_, ?_⟩, hhistory⟩, ?_⟩
    · rw [Program.debit, hexact, hsum, hremaining]
      ring
    · rw [Program.debit, hexact]
      linarith
    · rw [Program.debit, hexact]
      dsimp only
      split_ifs with hzero
      · exact iff_of_true rfl (by linarith)
      · exact iff_of_false hopen fun hnone ↦ hzero hnone.le
    · intro q hq
      cases hrow.symm.trans hq
      rw [Program.debit, hexact]
      exact hwhole
  · rw [if_neg hid] at hrow hsum
    rw [add_zero] at hsum
    refine ⟨⟨⟨p, hrow, htotal, by rw [hsum, hremaining], hnonneg, hstatus⟩, hhistory⟩, ?_⟩
    intro q hq
    cases hrow.symm.trans hq
    exact h.whole p hp

theorem LedgerInvariant.resume (h : LedgerInvariant db id total) (c : Call) (env : Env) :
    LedgerInvariant (Corporate.resume db c env).1 id total := by
  obtain hsame | ⟨m, db', linkRowId, hcommit, hsame⟩ := ledgers_resume db c env
  · exact h.of_same hsame
  · exact (h.commitMatch hcommit).of_same hsame

theorem create_eq_ok {new : NewProgram} {now : ℕ} {p : Program}
    (h : create db new id now = .ok (db', p)) :
    0 < new.totalLimit ∧ p.id = id ∧ p.totalLimit = new.totalLimit ∧
      p.remainingTotalLimit = new.totalLimit ∧ p.status = .active ∧
      db' = { db with programs := db.programs ++ [p] } := by
  rw [create] at h
  obtain ⟨-, h⟩ := Except.guard_not_eq_ok.mp h
  obtain ⟨-, h⟩ := Except.guard_not_eq_ok.mp h
  obtain ⟨-, h⟩ := Except.guard_not_eq_ok.mp h
  obtain ⟨hlimit, h⟩ := Except.guard_not_eq_ok.mp h
  obtain ⟨-, h⟩ := Except.guard_not_eq_ok.mp h
  obtain ⟨-, h⟩ := Except.guard_not_eq_ok.mp h
  cases h
  exact ⟨not_le.mp hlimit, rfl, rfl, rfl, rfl, rfl⟩

theorem ledgerInvariant_create {new : NewProgram} {now : ℕ} {p : Program}
    (hid : Unused db id) (hwhole : Whole 7 new.totalLimit)
    (h : create db new id now = .ok (db', p)) : LedgerInvariant db' id new.totalLimit := by
  obtain ⟨hpos, hpid, htotal, hremaining, hactive, rfl⟩ := create_eq_ok h
  have hrow : ({ db with programs := db.programs ++ [p] } : Db).program id = some p := by
    have hnone : db.programs.find? (fun q ↦ decide (q.id = id)) = none :=
      List.find?_eq_none.mpr fun q hq ↦ by simpa using hid.programs q hq
    rw [Db.program, List.find?_append, hnone]
    simp [hpid]
  have hmatched : ({ db with programs := db.programs ++ [p] } : Db).matchedBy id = 0 := by
    have hnil : db.donations.filter (fun r ↦ decide (r.account.programId = id)) = [] :=
      List.filter_eq_nil_iff.mpr fun r hr ↦ by simpa using hid.donations r hr
    rw [Db.matchedBy, hnil]
    rfl
  refine ⟨⟨⟨p, hrow, htotal, ?_, ?_, ?_⟩, fun employeeId year ↦ ?_⟩, ?_⟩
  · rw [hremaining, hmatched, sub_zero]
  · rw [hremaining]
    exact hpos.le
  · rw [hactive, hremaining]
    exact iff_of_false (by decide) hpos.ne'
  · have hhistory : db.history.find? (fun h ↦ decide (h.account = ⟨id, employeeId, year⟩))
        = none := by
      refine List.find?_eq_none.mpr fun h hh ↦ ?_
      have hne := hid.history h hh
      simpa using fun heq :
        h.account = ⟨id, employeeId, year⟩ ↦ hne (congrArg Account.programId heq)
    have hrecorded : db.donations.filter (fun r ↦ decide (r.account = ⟨id, employeeId, year⟩))
        = [] := by
      refine List.filter_eq_nil_iff.mpr fun r hr ↦ ?_
      have hne := hid.donations r hr
      simpa using fun heq :
        r.account = ⟨id, employeeId, year⟩ ↦ hne (congrArg Account.programId heq)
    rw [Db.yearlyMatched, Db.recorded, hhistory, hrecorded]
    rfl
  · intro q hq
    cases hrow.symm.trans hq
    rw [hremaining]
    exact hwhole

end Transaction

/-! ## Runs -/

/-- **The ledger is exact.** Take a program with a whole total limit as it is created. In every
state of every interleaving of calls, however often the network or the database fails, what remains
of the total is the limit less the recorded matches and never negative, the yearly history of each
employee is the sum of the employee's matches, and the program is exhausted exactly when nothing
remains. -/
theorem ledger_exact {ι : Type*} [DecidableEq ι] {db db' : Db} {id : ℕ} {new : NewProgram}
    {now : ℕ} {p : Program} (hid : Unused db id) (hwhole : Whole 7 new.totalLimit)
    (hcreate : create db new id now = .ok (db', p)) (call : ι → Call) (as : List (ι × Env)) :
    Always step (fun s ↦ ExactLedger s.shared id new.totalLimit) ⟨db', call⟩ as := by
  have hstep : ∀ (s : Calls ι Db Call) (a : ι × Env),
      LedgerInvariant s.shared id new.totalLimit →
        LedgerInvariant (step s a).shared id new.totalLimit :=
    fun s a h ↦ h.resume (s.call a.1) a.2
  exact (always_of_step hstep (ledgerInvariant_create hid hwhole hcreate) as).mono
    fun s h ↦ h.toExactLedger

section Examples

/-- A program matching 1:1 up to 100 XLM, all of which one employee may use. -/
def hundredXlm : NewProgram := ⟨9, 1, 100, 100⟩

def noProgram : Db := { oneEmployee with programs := [] }

def hundredXlmRow : Program := ⟨1, 9, 1, 100, 100, 100, .active, 0⟩

/-- Two donations of 60 XLM, one after the other: the second match is cut to the 40 XLM left, and
the ledger is exact to the end. -/
theorem ledger_exact_to_exhaustion :
    Always step (fun s ↦ ExactLedger s.shared 1 100)
      ⟨{ noProgram with programs := [hundredXlmRow] }, fun i ↦ .query (twoDonations i)⟩
      oneAfterTheOther := by
  have hcreate : create noProgram hundredXlm 1 0
      = .ok ({ noProgram with programs := [hundredXlmRow] }, hundredXlmRow) := by
    rfl
  have hunused : Unused noProgram 1 :=
    ⟨List.forall_mem_nil _, List.forall_mem_nil _, List.forall_mem_nil _⟩
  exact ledger_exact hunused (by decide +kernel) hcreate _ oneAfterTheOther

end Examples

end StellarDonations.Corporate
