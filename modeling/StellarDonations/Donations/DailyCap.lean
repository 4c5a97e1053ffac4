import StellarDonations.Concurrency.Budget
import StellarDonations.Donations.WalletLimits

/-!
# The daily cap of a donor

`POST /donations` for a custodial donation, from the validation of the request to the end of
`DonationService.sendCustodialDonation`. The route checks the limits of the sender under a lock of
its own, lets the lock go and calls the service, which checks the limits once more, pays, and
inserts the row that later checks count. Every statement of the checks is a suspension point.

The lock covers the first check alone. Two requests of one sender that both read the daily total
before either inserts its row are both let through, and together may pay more than the limit of the
day. The requests follow the protocol of `Concurrency.Budget`: what is paid stays within the limit
as long as no request of the sender passes the second check while another one is between that check
and its row, or with a payment of the day missing from the total it reads.
-/

namespace StellarDonations.DailyCap

open Concurrency Decimal Limits
open Custodial (Args Parties Services TransactionRow args_resume)

/-! ## The system -/

/-- The configuration, the collaborators and the limits of all wallets. -/
structure System where
  cfg : Donations.Config
  svc : Services
  wallets : List Wallet
  /-- What one XLM counts in the checks. The rows count stroops; the code passes the amount in XLM,
  which is the unit `1`, and with the unit `10⁷` amounts, totals and limits are all in stroops. -/
  unit : ℚ
  unit_pos : 0 < unit
  unit_le : unit ≤ 10 ^ 7

structure Paid where
  senderId : ℕ
  amount : ℚ
  time : ℕ
  deriving DecidableEq

def paidOn (paid : List Paid) (userId : ℕ) (day : ℤ) : ℚ :=
  ((paid.filter fun p ↦ p.senderId = userId && Calendar.day p.time = day).map (·.amount)).sum

/-- `_donorLocks`: the last promise of each donor, and those that are resolved. -/
structure Locks where
  last : ℕ → Option ℕ
  resolved : List ℕ
  next : ℕ

namespace Locks

/-- The entry of `withDonorLock`: a new promise takes the place of the last one. -/
def enter (locks : Locks) (donorId : ℕ) : Locks :=
  { locks with
    last := Function.update locks.last donorId (some locks.next)
    next := locks.next + 1 }

/-- `prev` is resolved; without one there is nothing to wait for. -/
def ready (locks : Locks) (prev : Option ℕ) : Bool := prev.all (· ∈ locks.resolved)

/-- `release`, and the entry is deleted when no one came after. -/
def release (locks : Locks) (donorId promise : ℕ) : Locks :=
  { locks with
    last := if locks.last donorId = some promise then Function.update locks.last donorId none
      else locks.last
    resolved := promise :: locks.resolved }

end Locks

/-- The clock, the tables of the service, the payments made so far, and the locks of the route. -/
structure Shared where
  now : ℕ
  custodial : Custodial.Shared
  paid : List Paid
  locks : Locks

structure Env where
  elapsed : ℕ
  /-- The error of a statement about the limits, should it fail. -/
  dbError : Option AppError
  /-- What the other statements of the service are answered. -/
  service : Custodial.Env
  /-- The payment was made although the call threw. -/
  lost : Bool
  /-- How long ago the payment was made when its answer arrives. -/
  delay : ℕ

/-! ## The check -/

/-- The statements of `checkLimits`. -/
inductive Check where
  | user
  | daily (w : Wallet)
  | monthly (w : Wallet)

/-- The statement after the daily check: there is one when a monthly limit is set. -/
def afterDaily (w : Wallet) : Option Check :=
  if w.monthlyLimit.isSome then some (.monthly w) else none

/-- The statement after the check of the single amount. -/
def afterUser (cfg : Donations.Config) (w : Wallet) : Option Check :=
  if (dailyLimit cfg w).isSome then some (.daily w) else afterDaily w

variable (sys : System)

/-- What follows a statement of `checkLimits` that the database has answered; `none` when the check
has passed. -/
def checkStep (rows : List TransactionRow) (a : Args) (now : ℕ) :
    Check → Except AppError (Option Check)
  | .user =>
    match sys.wallets.find? (·.id = a.senderId) with
    | none => .ok none
    | some w =>
      if perTxLimit sys.cfg w < sys.unit * a.amount then
        .error (limitExceeded ("Donation amount " ++ sys.cfg.showNumber (sys.unit * a.amount) ++
          " exceeds per-transaction limit of " ++ sys.cfg.showNumber (perTxLimit sys.cfg w)))
      else .ok (afterUser sys.cfg w)
  | .daily w =>
    (checkPeriod sys.cfg "daily" (dailyLimit sys.cfg w) (getDailyTotal rows a.senderId now)
      (sys.unit * a.amount)).map fun _ ↦ afterDaily w
  | .monthly w =>
    (checkPeriod sys.cfg "monthly" w.monthlyLimit (getMonthlyTotal rows a.senderId now)
      (sys.unit * a.amount)).map fun _ ↦ none

/-- Resume `checkLimits`: a statement of it may fail. -/
def resumeCheck (rows : List TransactionRow) (a : Args) (now : ℕ) (dbError : Option AppError)
    (c : Check) : Except AppError (Option Check) :=
  match dbError with
  | some e => .error e
  | none => checkStep sys rows a now c

/-! ## The requests -/

/-- Where a request is suspended, or how it ended. The service's own states carry the time at which
the statement was issued. -/
inductive Request where
  | arrived (a : Args)
  /-- The daily total for the headers of the response. -/
  | total (a : Args)
  /-- In the queue of the donor, behind `prev`. -/
  | queued (a : Args) (prev : Option ℕ) (promise : ℕ)
  /-- `checkLimits` under the lock. -/
  | checking (a : Args) (promise : ℕ) (c : Check)
  /-- `checkLimits` in the service. -/
  | serviceCheck (a : Args) (p : Parties) (c : Check) (since : ℕ)
  | service (c : Custodial.Call) (since : ℕ)
  /-- Answered with the status 400 or 422. -/
  | invalid (a : Args) (message : String)
  /-- Refused by the route, or failed there. -/
  | refused (a : Args) (e : AppError)

/-- The checks of the body: the required fields and `validateXLMAmount`. -/
def validateBody (a : Args) : Except String Unit := do
  if a.senderId = 0 ∨ a.receiverId = 0 ∨ a.amount = 0 then
    throw "Missing required fields: senderId, receiverId, amount"
  if a.amount < 0 ∨ ¬Whole 7 a.amount then
    throw ("Invalid amount: Amount must be a positive decimal number with at most 7 decimal places "
      ++ "(e.g. \"10.5\"). Scientific notation, negative values, and extra characters are not "
      ++ "allowed.")

/-- A state of the service, with its check of the limits taken apart into statements. -/
def embed (since : ℕ) : Custodial.Call → Request
  | .checkLimits a p => .serviceCheck a p .user since
  | c => .service c since

/-- The payment that is made while the call waits for its answer. -/
def payment (c : Custodial.Call) (since now : ℕ) (env : Env) : List Paid :=
  match c with
  | .sendDonation a _ =>
    if env.service.answer.isOk || env.lost then
      [⟨a.senderId, a.amount, max since (now - env.delay)⟩]
    else []
  | _ => []

/-- Resume the service, with what its check of the limits has found. -/
def serve (sh : Shared) (c : Custodial.Call) (since : ℕ) (limits : Except AppError Unit)
    (env : Env) : Shared × Request :=
  let (custodial, c') := Custodial.resume sys.svc sh.custodial c
    { env.service with now := sh.now, limits := limits }
  ({ sh with custodial := custodial, paid := sh.paid ++ payment c since sh.now env },
    embed sh.now c')

/-- Resume a request at the time shown by the clock. -/
def resumeAt (sh : Shared) (env : Env) : Request → Shared × Request
  | .arrived a =>
    match validateBody a with
    | .error message => (sh, .invalid a message)
    | .ok () =>
      if 0 < sys.cfg.maxDailyPerDonor then (sh, .total a) else (sh, .service (.getSender a) sh.now)
  | .total a =>
    match env.dbError with
    | some e => (sh, .refused a e)
    | none => ({ sh with locks := sh.locks.enter a.senderId },
        .queued a (sh.locks.last a.senderId) sh.locks.next)
  | .queued a prev promise =>
    if sh.locks.ready prev then (sh, .checking a promise .user) else (sh, .queued a prev promise)
  | .checking a promise c =>
    match resumeCheck sys sh.custodial.transactions a sh.now env.dbError c with
    | .ok (some c') => (sh, .checking a promise c')
    | .ok none => ({ sh with locks := sh.locks.release a.senderId promise },
        .service (.getSender a) sh.now)
    | .error e => ({ sh with locks := sh.locks.release a.senderId promise }, .refused a e)
  | .serviceCheck a p c since =>
    match resumeCheck sys sh.custodial.transactions a sh.now env.dbError c with
    | .ok (some c') => (sh, .serviceCheck a p c' sh.now)
    | .ok none => serve sys sh (.checkLimits a p) since (.ok ()) env
    | .error e => serve sys sh (.checkLimits a p) since (.error e) env
  | .service c since => serve sys sh c since env.service.limits env
  | .invalid a message => (sh, .invalid a message)
  | .refused a e => (sh, .refused a e)

def Shared.later (sh : Shared) (env : Env) : Shared := { sh with now := sh.now + env.elapsed }

/-- Resume a request: time passes, then it runs to its next `await`. -/
def resume (sh : Shared) (r : Request) (env : Env) : Shared × Request :=
  resumeAt sys (sh.later env) env r

variable {ι : Type*}

def step [DecidableEq ι] : Calls ι Shared Request → ι × Env → Calls ι Shared Request :=
  Calls.step (resume sys)

/-- A request for each donation, none of which has begun. -/
def start (sh : Shared) (args : ι → Args) : Calls ι Shared Request :=
  ⟨sh, fun i ↦ .arrived (args i)⟩

/-! ## What must hold, and when it does -/

/-- What a sender has paid on any one day is within the limit of a day that applies to it. -/
def Capped (sh : Shared) (userId : ℕ) : Prop :=
  ∀ w, sys.wallets.find? (·.id = userId) = some w → ∀ l ∈ dailyLimit sys.cfg w,
    ∀ d, sys.unit * paidOn sh.paid userId d ≤ l

def cleared (userId : ℕ) (a : Args) (since : ℕ) : Budget.Phase ℤ ℚ :=
  if a.senderId = userId then .cleared (sys.unit * a.amount) (Calendar.day since) else .outside

/-- How far a request of the sender has got in the protocol. Requests of other senders take no
part. -/
def Request.phase (userId : ℕ) : Request → Budget.Phase ℤ ℚ
  | .serviceCheck a _ (.monthly _) since => cleared sys userId a since
  | .service (.checkVelocity a _) since | .service (.lookup a _) since
  | .service (.reserve a _ _) since | .service (.sendDonation a _) since =>
    cleared sys userId a since
  | .service (.insert a _ _) _ => if a.senderId = userId then .spent else .outside
  | _ => .outside

def abstraction (userId : ℕ) (s : Calls ι Shared Request) : Budget.State ι ℤ ℚ where
  now := Calendar.day s.shared.now
  total d := sys.unit * paidOn s.shared.paid userId d
  phase i := (s.call i).phase sys userId

/-- The condition on a step of request `i`. When the daily check of the service lets a request of
the sender pass, no other one is between that check and its row, and the total that was read has
every payment of the day in it. -/
def Request.Clear (userId : ℕ) (s : Calls ι Shared Request) (i : ι) (env : Env) : Request → Prop
  | .serviceCheck a _ (.daily w) _ =>
    a.senderId = userId →
      (resumeCheck sys s.shared.custodial.transactions a (s.shared.later env).now env.dbError
        (.daily w)).isOk = true →
      Alone Budget.Phase.Inside (fun j ↦ (s.call j).phase sys userId) i ∧
        10 ^ 7 * paidOn s.shared.paid userId (Calendar.day (s.shared.later env).now) ≤
          getDailyTotal s.shared.custodial.transactions userId (s.shared.later env).now
  | _ => True

/-- The condition on a step: the resumed request is `Clear`. -/
def Clear (userId : ℕ) (s : Calls ι Shared Request) (a : ι × Env) : Prop :=
  (s.call a.1).Clear sys userId s a.1 a.2

/-! ## The check as a whole -/

/-! ## The calls of the service -/

section Service

variable {sys} {svc : Services} {userId since : ℕ}

/-- Up to the payment and after it, a call leaves the protocol or keeps its clearance. -/
theorem phase_resume {c : Custodial.Call} (hcheck : ∀ a p, c ≠ .checkLimits a p)
    (hsend : ∀ a p, c ≠ .sendDonation a p) (svc : Services) (sh : Custodial.Shared)
    (env : Custodial.Env) (since now : ℕ) :
    (embed now (Custodial.resume svc sh c env).2).phase sys userId = .outside ∨
      (Request.service c since).phase sys userId = cleared sys userId c.args since ∧
        (embed now (Custodial.resume svc sh c env).2).phase sys userId =
          cleared sys userId c.args now := by
  cases c with
  | getSender | replayLimits | limits =>
    rw [Custodial.resume]
    split <;> exact Or.inl rfl
  | checkVelocity =>
    rw [Custodial.resume]
    split
    · exact Or.inl rfl
    · exact Or.inr ⟨rfl, rfl⟩
  | reserve =>
    rw [Custodial.resume]
    split
    · exact Or.inl rfl
    · exact Or.inr ⟨rfl, rfl⟩
  | getReceiver a sender =>
    rw [Custodial.resume]
    split
    · exact Or.inl rfl
    · split <;> exact Or.inl rfl
  | lookup a p =>
    rw [Custodial.resume]
    split
    · exact Or.inl rfl
    · rw [Custodial.afterLookup]
      split
      · exact Or.inl rfl
      · split_ifs <;> exact Or.inr ⟨rfl, rfl⟩
  | insert a p result =>
    rw [Custodial.resume]
    split
    · exact Or.inl rfl
    · split_ifs <;> exact Or.inl rfl
  | matching a p result dbId =>
    rw [Custodial.resume, Custodial.recordDonation_throws]
    exact Or.inl rfl
  | checkLimits a p => exact absurd rfl (hcheck a p)
  | sendDonation a p => exact absurd rfl (hsend a p)
  | campaign | returned | threw => exact Or.inl rfl

theorem phase_resume_sendDonation (svc : Services) (sh : Custodial.Shared) (a : Args) (p : Parties)
    (env : Custodial.Env) (now : ℕ) :
    (embed now (Custodial.resume svc sh (.sendDonation a p) env).2).phase sys userId = .outside ∨
      env.answer.isOk = true ∧
        (embed now (Custodial.resume svc sh (.sendDonation a p) env).2).phase sys userId =
          if a.senderId = userId then .spent else .outside := by
  rw [Custodial.resume]
  split
  · exact Or.inl rfl
  · rename_i result hanswer
    refine Or.inr ⟨?_, rfl⟩
    rw [hanswer]
    rfl

end Service

/-! ## Requests that are in order -/

/-- The check goes by the wallet of the sender. -/
def Check.Of (userId : ℕ) : Check → Prop
  | .user => True
  | .daily w | .monthly w => sys.wallets.find? (·.id = userId) = some w

/-- A request past the validation is for a positive amount, and the service checks the limits
statement by statement. -/
def Request.Sound : Request → Prop
  | .arrived _ | .invalid _ _ => True
  | .total a | .queued a _ _ | .checking a _ _ | .refused a _ => 0 < a.amount
  | .serviceCheck a _ c _ => 0 < a.amount ∧ c.Of sys a.senderId
  | .service c _ => 0 < c.args.amount ∧ ∀ a p, c ≠ .checkLimits a p

section Sound

variable {sys} {sh : Shared} {env : Env} {a : Args}

theorem pos_of_validateBody (h : validateBody a = .ok ()) : 0 < a.amount := by
  rw [validateBody] at h
  by_cases hmissing : a.senderId = 0 ∨ a.receiverId = 0 ∨ a.amount = 0
  · rw [if_pos hmissing] at h
    cases h
  · rw [if_neg hmissing] at h
    by_cases hinvalid : a.amount < 0 ∨ ¬Whole 7 a.amount
    · rw [if_pos hinvalid] at h
      cases h
    · refine lt_of_le_of_ne (not_lt.mp fun hneg ↦ hinvalid (Or.inl hneg)) fun hzero ↦ ?_
      exact hmissing (Or.inr (Or.inr hzero.symm))

theorem sound_embed {c : Custodial.Call} (hpos : 0 < c.args.amount) (now : ℕ) :
    (embed now c).Sound sys := by
  cases c with
  | checkLimits a p => exact ⟨hpos, trivial⟩
  | getSender | getReceiver | checkVelocity | lookup | replayLimits | reserve | sendDonation
  | insert | campaign | matching | limits | returned | threw =>
    refine ⟨hpos, fun a p h ↦ ?_⟩
    cases h

theorem sound_serve (c : Custodial.Call) (hpos : 0 < c.args.amount) (since : ℕ)
    (limits : Except AppError Unit) : (serve sys sh c since limits env).2.Sound sys := by
  have hargs := args_resume sys.svc sh.custodial c
    { env.service with now := sh.now, limits := limits }
  refine sound_embed ?_ sh.now
  exact hargs ▸ hpos

theorem resumeCheck_eq_ok {rows : List TransactionRow} {now : ℕ} {dbError : Option AppError}
    {c : Check} {next : Option Check} :
    resumeCheck sys rows a now dbError c = .ok next ↔
      dbError = none ∧ checkStep sys rows a now c = .ok next := by
  cases dbError with
  | none => exact (and_iff_right rfl).symm
  | some e => exact iff_of_false (fun h ↦ by cases h) fun h ↦ by cases h.1

theorem of_afterDaily {w : Wallet} {userId : ℕ} (hw : sys.wallets.find? (·.id = userId) = some w)
    {c : Check} (h : afterDaily w = some c) : c.Of sys userId := by
  rw [afterDaily] at h
  split at h
  · cases h
    exact hw
  · cases h

theorem of_afterUser {w : Wallet} {userId : ℕ} (hw : sys.wallets.find? (·.id = userId) = some w)
    {c : Check} (h : afterUser sys.cfg w = some c) : c.Of sys userId := by
  rw [afterUser] at h
  split at h
  · cases h
    exact hw
  · exact of_afterDaily hw h

theorem of_checkStep {rows : List TransactionRow} {now : ℕ} {c c' : Check}
    (hc : c.Of sys a.senderId) (h : checkStep sys rows a now c = .ok (some c')) :
    c'.Of sys a.senderId := by
  cases c with
  | user =>
    rw [checkStep] at h
    cases hw : sys.wallets.find? (·.id = a.senderId) with
    | none =>
      rw [hw] at h
      cases h
    | some w =>
      rw [hw] at h
      dsimp only at h
      split_ifs at h
      exact of_afterUser hw (Except.ok.inj h)
  | daily w =>
    rw [checkStep] at h
    obtain ⟨-, -, h⟩ := Except.map_eq_ok.mp h
    exact of_afterDaily hc h
  | monthly w =>
    rw [checkStep] at h
    obtain ⟨-, -, h⟩ := Except.map_eq_ok.mp h
    cases h

theorem sound_resumeAt {r : Request} (h : r.Sound sys) : (resumeAt sys sh env r).2.Sound sys := by
  have hbegin {a : Args} (hpos : 0 < a.amount) :
      (Request.service (.getSender a) sh.now).Sound sys :=
    sound_embed (c := .getSender a) hpos sh.now
  cases r with
  | arrived a =>
    rw [resumeAt]
    split
    · trivial
    · rename_i hvalid
      have hpos := pos_of_validateBody hvalid
      split_ifs
      · exact hpos
      · exact hbegin hpos
  | total a =>
    rw [resumeAt]
    split <;> exact h
  | queued a prev promise =>
    rw [resumeAt]
    split_ifs <;> exact h
  | checking a promise c =>
    rw [resumeAt]
    split
    · exact h
    · exact hbegin h
    · exact h
  | serviceCheck a p c since =>
    rw [resumeAt]
    split
    · rename_i c' hcheck
      refine ⟨h.1, ?_⟩
      exact of_checkStep h.2 (resumeCheck_eq_ok.mp hcheck).2
    · exact sound_serve (.checkLimits a p) h.1 since _
    · exact sound_serve (.checkLimits a p) h.1 since _
  | service c since => exact sound_serve c h.1 since _
  | invalid a message => trivial
  | refused a e => exact h

end Sound

/-! ## What a step does -/

section Steps

variable {sys} {sh : Shared} {env : Env} {userId : ℕ} {w : Wallet} {l : ℚ}

theorem serve_paid (sys : System) (sh : Shared) (env : Env) {c : Custodial.Call}
    (hsend : ∀ a p, c ≠ .sendDonation a p) (since : ℕ) (limits : Except AppError Unit) :
    (serve sys sh c since limits env).1.paid = sh.paid := by
  have hnone : payment c since sh.now env = [] := by
    cases c with
    | sendDonation a p => exact absurd rfl (hsend a p)
    | getSender | getReceiver | checkLimits | checkVelocity | lookup | replayLimits | reserve
    | insert | campaign | matching | limits | returned | threw => rfl
  rw [serve, hnone]
  exact List.append_nil _

theorem resumeAt_now (r : Request) : (resumeAt sys sh env r).1.now = sh.now := by
  cases r with
  | arrived a =>
    rw [resumeAt]
    split
    · rfl
    · split_ifs <;> rfl
  | total a =>
    rw [resumeAt]
    split <;> rfl
  | queued a prev promise =>
    rw [resumeAt]
    split_ifs <;> rfl
  | checking | serviceCheck =>
    rw [resumeAt]
    split <;> rfl
  | service | invalid | refused => rfl

/-- The first statement of the check clears no request of a sender with a limit for the day. -/
theorem checkStep_user (hw : sys.wallets.find? (·.id = userId) = some w)
    (hl : l ∈ dailyLimit sys.cfg w) {rows : List TransactionRow} {a : Args}
    (ha : a.senderId = userId) {now : ℕ} {next : Option Check}
    (h : checkStep sys rows a now .user = .ok next) : next = some (.daily w) := by
  rw [checkStep, ha, hw] at h
  dsimp only at h
  split_ifs at h
  rw [afterUser, Option.mem_def.mp hl] at h
  exact (Except.ok.inj h).symm

theorem room_of_pass {rows : List TransactionRow} {a : Args} {now : ℕ} {dbError : Option AppError}
    {next : Option Check} (h : resumeCheck sys rows a now dbError (.daily w) = .ok next) :
    ∀ l ∈ dailyLimit sys.cfg w, getDailyTotal rows a.senderId now + sys.unit * a.amount ≤ l := by
  obtain ⟨u, hcheck, -⟩ := Except.map_eq_ok.mp (resumeCheck_eq_ok.mp h).2
  exact checkPeriod_eq_ok.mp hcheck

/-- What a request of a sender with a limit for the day does when it is resumed. -/
inductive Moves (sys : System) (sh : Shared) (env : Env) (userId : ℕ) (w : Wallet) (r : Request)
    (sh' : Shared) (x : Budget.Phase ℤ ℚ) : Prop
  /-- It leaves the protocol, or takes no part in it. -/
  | leaves (hpaid : sh'.paid = sh.paid) (hphase : x = .outside)
  /-- It keeps its clearance. -/
  | holds {a : Args} {since : ℕ} (hpaid : sh'.paid = sh.paid)
      (hbefore : r.phase sys userId = cleared sys userId a since)
      (hphase : x = cleared sys userId a sh.now)
  /-- It passes the daily check. -/
  | passes {a : Args} {p : Parties} {w' : Wallet} {since : ℕ} {next : Option Check}
      (hr : r = .serviceCheck a p (.daily w') since)
      (hpass : resumeCheck sys sh.custodial.transactions a sh.now env.dbError (.daily w') =
        .ok next)
      (hpaid : sh'.paid = sh.paid) (hphase : x = cleared sys userId a sh.now)
  | answered {a : Args} {p : Parties} {since : ℕ} (hr : r = .service (.sendDonation a p) since)
      (hpaid : sh'.paid = sh.paid ++ payment (.sendDonation a p) since sh.now env)
      (hphase : x = .outside ∨ env.service.answer.isOk = true ∧
        x = if a.senderId = userId then .spent else .outside)

theorem phase_serve_checkLimits (sys : System) (sh : Shared) (env : Env) (userId : ℕ) (a : Args)
    (p : Parties) (since : ℕ) :
    (serve sys sh (.checkLimits a p) since (.ok ()) env).2.phase sys userId =
        cleared sys userId a sh.now ∧
      ∀ e, (serve sys sh (.checkLimits a p) since (.error e) env).2.phase sys userId = .outside :=
  ⟨rfl, fun _ ↦ rfl⟩

theorem serve_checkLimits_paid (sys : System) (sh : Shared) (env : Env) (a : Args) (p : Parties)
    (since : ℕ) (limits : Except AppError Unit) :
    (serve sys sh (.checkLimits a p) since limits env).1.paid = sh.paid := by
  refine serve_paid sys sh env (fun b q h ↦ ?_) since limits
  cases h

theorem cleared_of_ne {a : Args} (h : a.senderId ≠ userId) (since : ℕ) :
    cleared sys userId a since = .outside := if_neg h

/-- Requests of other senders take no part while the service checks their limits. -/
theorem phase_serviceCheck_of_ne {a : Args} (h : a.senderId ≠ userId) (p : Parties) (c : Check)
    (since : ℕ) : (Request.serviceCheck a p c since).phase sys userId = .outside := by
  cases c with
  | user | daily => rfl
  | monthly w => exact cleared_of_ne h since

theorem eq_monthly_of_afterDaily {w : Wallet} {c : Check} (h : afterDaily w = some c) :
    c = .monthly w := by
  rw [afterDaily] at h
  split at h
  · exact (Option.some.inj h).symm
  · cases h

theorem moves_serviceCheck (hw : sys.wallets.find? (·.id = userId) = some w)
    (hl : l ∈ dailyLimit sys.cfg w) (a : Args) (p : Parties) (c : Check) (since : ℕ) :
    Moves sys sh env userId w (.serviceCheck a p c since)
      (resumeAt sys sh env (.serviceCheck a p c since)).1
      ((resumeAt sys sh env (.serviceCheck a p c since)).2.phase sys userId) := by
  have hpaid := serve_checkLimits_paid sys sh env a p since
  obtain ⟨hpassed, hfailed⟩ :=
    phase_serve_checkLimits sys sh env userId a p since
  rw [resumeAt]
  cases hcheck : resumeCheck sys sh.custodial.transactions a sh.now env.dbError c with
  | error e => exact .leaves (hpaid _) (hfailed e)
  | ok next =>
    have hstep := (resumeCheck_eq_ok.mp hcheck).2
    cases c with
    | user =>
      by_cases ha : a.senderId = userId
      · rw [checkStep_user hw hl ha hstep]
        exact .leaves rfl rfl
      · cases next with
        | none => exact .leaves (hpaid _) (hpassed.trans (cleared_of_ne ha sh.now))
        | some c' => exact .leaves rfl (phase_serviceCheck_of_ne ha p c' sh.now)
    | daily w' =>
      cases next with
      | none => exact .passes rfl hcheck (hpaid _) hpassed
      | some c' =>
        obtain ⟨u, -, hnext⟩ := Except.map_eq_ok.mp hstep
        rw [eq_monthly_of_afterDaily hnext] at hcheck ⊢
        exact .passes rfl hcheck rfl rfl
    | monthly w' =>
      obtain ⟨u, -, rfl⟩ := Except.map_eq_ok.mp hstep
      exact .holds (hpaid _) rfl hpassed

/-- **What a step does.** -/
theorem moves_resumeAt (sh : Shared) (env : Env)
    (hw : sys.wallets.find? (·.id = userId) = some w)
    (hl : l ∈ dailyLimit sys.cfg w)
    {r : Request} (hsound : r.Sound sys) :
    Moves sys sh env userId w r (resumeAt sys sh env r).1
      ((resumeAt sys sh env r).2.phase sys userId) := by
  cases r with
  | arrived a =>
    rw [resumeAt]
    split
    · exact .leaves rfl rfl
    · split_ifs <;> exact .leaves rfl rfl
  | total a =>
    rw [resumeAt]
    split <;> exact .leaves rfl rfl
  | queued a prev promise =>
    rw [resumeAt]
    split_ifs <;> exact .leaves rfl rfl
  | checking a promise c =>
    rw [resumeAt]
    split <;> exact .leaves rfl rfl
  | invalid a message => exact .leaves rfl rfl
  | refused a e => exact .leaves rfl rfl
  | service c since =>
    by_cases hsend : ∃ a p, c = .sendDonation a p
    · obtain ⟨a, p, rfl⟩ := hsend
      exact .answered rfl rfl (phase_resume_sendDonation sys.svc sh.custodial a p _ sh.now)
    · have hne : ∀ a p, c ≠ .sendDonation a p := fun a p h ↦ hsend ⟨a, p, h⟩
      have hpaid := serve_paid sys sh env hne since env.service.limits
      rcases phase_resume hsound.2 hne sys.svc sh.custodial
          { env.service with now := sh.now, limits := env.service.limits } since sh.now with
        hout | ⟨hbefore, hafter⟩
      · exact .leaves hpaid hout
      · exact .holds hpaid hbefore hafter
  | serviceCheck a p c since => exact moves_serviceCheck hw hl a p c since

end Steps

/-! ## Every step is a step of the protocol -/

section Protocol

variable {sys} [DecidableEq ι] {s : Calls ι Shared Request} {i : ι} {env : Env} {userId : ℕ}
  {w : Wallet} {l : ℚ}

theorem day_mono {t u : ℕ} (h : t ≤ u) : Calendar.day t ≤ Calendar.day u :=
  Int.ediv_le_ediv (by decide) (Int.ofNat_le.mpr h)

theorem paidOn_concat (paid : List Paid) (p : Paid) (userId : ℕ) (d : ℤ) :
    paidOn (paid ++ [p]) userId d = paidOn paid userId d +
      if p.senderId = userId ∧ Calendar.day p.time = d then p.amount else 0 := by
  rw [paidOn, List.filter_append, List.map_append, List.sum_append, ← paidOn, List.filter_cons,
    List.filter_nil]
  by_cases hmine : p.senderId = userId ∧ Calendar.day p.time = d
  · rw [if_pos hmine, if_pos (by rw [decide_eq_true hmine.1, decide_eq_true hmine.2]; rfl),
      List.map_singleton, List.sum_singleton]
  · rw [if_neg hmine, if_neg]
    · rfl
    · rw [Bool.and_eq_true, decide_eq_true_iff, decide_eq_true_iff]
      exact hmine

theorem total_concat (sys : System) (paid : List Paid) {p : Paid} (hp : p.senderId = userId) :
    (fun d ↦ sys.unit * paidOn (paid ++ [p]) userId d) =
      Function.update (fun d ↦ sys.unit * paidOn paid userId d) (Calendar.day p.time)
        (sys.unit * paidOn paid userId (Calendar.day p.time) + sys.unit * p.amount) := by
  funext d
  rw [paidOn_concat, Function.update_apply]
  by_cases hd : d = Calendar.day p.time
  · rw [if_pos hd, if_pos ⟨hp, hd.symm⟩, mul_add, hd]
  · rw [if_neg hd, if_neg fun h ↦ hd h.2.symm, add_zero]

theorem total_concat_of_ne (sys : System) (paid : List Paid) {p : Paid} (hp : p.senderId ≠ userId) :
    (fun d ↦ sys.unit * paidOn (paid ++ [p]) userId d) =
      fun d ↦ sys.unit * paidOn paid userId d := by
  funext d
  rw [paidOn_concat, if_neg fun h ↦ hp h.1, add_zero]

theorem total_payment_of_ne (sys : System) (paid : List Paid) {a : Args} (ha : a.senderId ≠ userId)
    (p : Parties) (since now : ℕ) (env : Env) :
    (fun d ↦ sys.unit * paidOn (paid ++ payment (.sendDonation a p) since now env) userId d) =
      fun d ↦ sys.unit * paidOn paid userId d := by
  rw [payment]
  split_ifs
  · exact total_concat_of_ne sys _ ha
  · rw [List.append_nil]

theorem abstraction_step (sys : System) (userId : ℕ) (s : Calls ι Shared Request) (i : ι)
    (env : Env) :
    abstraction sys userId (step sys s (i, env)) =
      { now := Calendar.day (s.shared.later env).now
        total := fun d ↦ sys.unit *
          paidOn (resumeAt sys (s.shared.later env) env (s.call i)).1.paid userId d
        phase := Function.update (abstraction sys userId s).phase i
          ((resumeAt sys (s.shared.later env) env (s.call i)).2.phase sys userId) } := by
  have hnow : (step sys s (i, env)).shared.now = (s.shared.later env).now :=
    resumeAt_now (s.call i)
  rw [abstraction, hnow]
  congr 1
  exact Function.comp_update (Request.phase sys userId) s.call i _

theorem day_payment {since now : ℕ} (delay : ℕ) (h : Calendar.day since ≤ Calendar.day now) :
    Calendar.day since ≤ Calendar.day (max since (now - delay) : ℕ) ∧
      Calendar.day (max since (now - delay) : ℕ) ≤ Calendar.day now := by
  refine ⟨day_mono (le_max_left _ _), ?_⟩
  rcases le_total since (now - delay) with hle | hle
  · rw [max_eq_right hle]
    exact day_mono (Nat.sub_le _ _)
  · rw [max_eq_left hle]
    exact h

omit [DecidableEq ι] in
/-- The total that lets a request pass has everything in it that was paid, so there is room. -/
theorem room_of_clear {a : Args} {next : Option Check} (hl : l ∈ dailyLimit sys.cfg w)
    (hpass : resumeCheck sys s.shared.custodial.transactions a (s.shared.later env).now env.dbError
      (.daily w) = .ok next) (ha : a.senderId = userId)
    (hnonneg : 0 ≤ sys.unit * paidOn s.shared.paid userId (Calendar.day (s.shared.later env).now))
    (hcovers : 10 ^ 7 * paidOn s.shared.paid userId (Calendar.day (s.shared.later env).now) ≤
      getDailyTotal s.shared.custodial.transactions userId (s.shared.later env).now) :
    sys.unit * paidOn s.shared.paid userId (Calendar.day (s.shared.later env).now)
      + sys.unit * a.amount ≤ l := by
  have hroom := room_of_pass hpass l hl
  rw [ha] at hroom
  have hpos : 0 ≤ paidOn s.shared.paid userId (Calendar.day (s.shared.later env).now) :=
    nonneg_of_mul_nonneg_right hnonneg sys.unit_pos
  have hunit := mul_le_mul_of_nonneg_right sys.unit_le hpos
  linarith

/-- The answer to a payment of the sender: it uses the room that was set aside, whether or not the
call learns that it was made. -/
theorem within_answered {a : Args} {p : Parties} {since : ℕ} {x : Budget.Phase ℤ ℚ}
    (h : Budget.Within l (abstraction sys userId s)) (ha : a.senderId = userId)
    (hr : s.call i = .service (.sendDonation a p) since)
    (hphase : x = .outside ∨ env.service.answer.isOk = true ∧ x = .spent) :
    Budget.Within l
      { now := Calendar.day (s.shared.later env).now
        total := fun d ↦ sys.unit * paidOn (s.shared.paid ++
          payment (.sendDonation a p) since (s.shared.later env).now env) userId d
        phase := Function.update (abstraction sys userId s).phase i x } := by
  have hday : Calendar.day s.shared.now ≤ Calendar.day (s.shared.later env).now :=
    day_mono (Nat.le_add_right _ _)
  have htick := h.tick hday
  have hi : (abstraction sys userId s).phase i =
      .cleared (sys.unit * a.amount) (Calendar.day since) :=
    (congrArg (Request.phase sys userId) hr).trans (if_pos ha)
  obtain ⟨hsince, hnow⟩ := day_payment env.delay ((h.room i _ _ hi).1.trans hday)
  by_cases hmade : (env.service.answer.isOk || env.lost) = true
  · have hspend := htick.spend hi hsince hnow
    rw [payment, if_pos hmade, total_concat sys _ ha]
    rcases hphase with rfl | ⟨-, rfl⟩
    · -- the payment was made and the call threw
      have hleave := hspend.leave i
      rwa [Function.update_idem] at hleave
    · exact hspend
  · have hout := hphase.resolve_right fun hanswer ↦ hmade (by rw [hanswer.1, Bool.true_or])
    rw [payment, if_neg hmade, List.append_nil, hout]
    exact htick.leave i

/-- **Every step that meets the condition keeps what is paid within the limit.** -/
theorem within_step (hw : sys.wallets.find? (·.id = userId) = some w)
    (hl : l ∈ dailyLimit sys.cfg w) (h : Budget.Within l (abstraction sys userId s))
    (hsound : (s.call i).Sound sys) (hclear : Clear sys userId s (i, env)) :
    Budget.Within l (abstraction sys userId (step sys s (i, env))) := by
  have hday : Calendar.day s.shared.now ≤ Calendar.day (s.shared.later env).now :=
    day_mono (Nat.le_add_right _ _)
  have htick := h.tick hday
  rw [abstraction_step]
  cases moves_resumeAt (s.shared.later env) env hw hl hsound with
  | leaves hpaid hphase =>
    rw [hpaid, hphase]
    exact htick.leave i
  | @holds a since hpaid hbefore hphase =>
    rw [hpaid, hphase]
    by_cases ha : a.senderId = userId
    · have hi : (abstraction sys userId s).phase i =
          .cleared (sys.unit * a.amount) (Calendar.day since) := hbefore.trans (if_pos ha)
      have hsince := (h.room i _ _ hi).1.trans hday
      rw [cleared, if_pos ha]
      exact htick.hold hi hsince le_rfl
    · rw [cleared_of_ne ha]
      exact htick.leave i
  | @passes a p w' since next hr hpass hpaid hphase =>
    rw [hpaid, hphase]
    rw [hr] at hsound
    by_cases ha : a.senderId = userId
    · -- the wallet that is checked is the sender's
      have hsame : w' = w := by
        have hw' := hsound.2
        rw [Check.Of, ha, hw] at hw'
        exact (Option.some.inj hw').symm
      rw [hsame] at hr hpass
      have hok : (resumeCheck sys s.shared.custodial.transactions a (s.shared.later env).now
          env.dbError (.daily w)).isOk = true := congrArg Except.isOk hpass
      rw [Clear, hr] at hclear
      obtain ⟨halone, hcovers⟩ := hclear ha hok
      rw [cleared, if_pos ha]
      refine htick.clear (mul_nonneg sys.unit_pos.le hsound.1.le) ?_ halone
      exact room_of_clear hl hpass ha (h.nonneg _) hcovers
    · rw [cleared_of_ne ha]
      exact htick.leave i
  | @answered a p since hr hpaid hphase =>
    rw [hpaid]
    by_cases ha : a.senderId = userId
    · rw [if_pos ha] at hphase
      exact within_answered h ha hr hphase
    · have hout :
          (resumeAt sys (s.shared.later env) env (s.call i)).2.phase sys userId = .outside :=
        hphase.elim id fun hanswer ↦ hanswer.2.trans (if_neg ha)
      have hpaid' : (s.shared.later env).paid = s.shared.paid := rfl
      rw [hout, hpaid', total_payment_of_ne sys _ ha]
      exact htick.leave i

end Protocol

/-! ## Whole runs -/

/-- The payments made so far are for positive amounts, and none is yet to come. -/
def Past (sh : Shared) : Prop := ∀ p ∈ sh.paid, 0 < p.amount ∧ p.time ≤ sh.now

theorem paidOn_nonneg {sh : Shared} (h : Past sh) (userId : ℕ) (d : ℤ) :
    0 ≤ paidOn sh.paid userId d := by
  refine List.sum_nonneg fun x hx ↦ ?_
  obtain ⟨p, hp, rfl⟩ := List.mem_map.mp hx
  exact (h p (List.mem_of_mem_filter hp)).1.le

theorem paidOn_future {sh : Shared} (h : Past sh) (userId : ℕ) {d : ℤ}
    (hd : Calendar.day sh.now < d) : paidOn sh.paid userId d = 0 := by
  have hnone : (sh.paid.filter fun p ↦ p.senderId = userId && Calendar.day p.time = d) = [] := by
    refine List.filter_eq_nil_iff.mpr fun p hp hmem ↦ ?_
    rw [Bool.and_eq_true, decide_eq_true_iff, decide_eq_true_iff] at hmem
    exact (day_mono (h p hp).2).not_gt (hmem.2 ▸ hd)
  rw [paidOn, hnone]
  rfl

/-- **The cap holds in every run that meets the condition.** -/
theorem always_capped_of_clear [DecidableEq ι] {sh : Shared} {userId : ℕ} (hpast : Past sh)
    (hcapped : Capped sys sh userId) (args : ι → Args) {as : List (ι × Env)}
    (hclear : Along (step sys) (Clear sys userId) (start sh args) as) :
    Always (step sys) (fun s ↦ Capped sys s.shared userId) (start sh args) as := by
  -- without a limit there is nothing to exceed
  by_cases hlimit : ∃ w, sys.wallets.find? (·.id = userId) = some w ∧ ∃ l, l ∈ dailyLimit sys.cfg w
  · obtain ⟨w, hw, l, hl⟩ := hlimit
    have hstart : Budget.Within l (abstraction sys userId (start sh args)) := by
      refine Budget.within_initial (fun i ↦ rfl) (fun d hd ↦ ?_) (fun d ↦ ?_) fun d ↦ ?_
      · exact mul_eq_zero_of_right _ (paidOn_future hpast userId hd)
      · exact mul_nonneg sys.unit_pos.le (paidOn_nonneg hpast userId d)
      · exact hcapped w hw l hl d
    have hrun : Always (step sys)
        (fun s ↦ Budget.Within l (abstraction sys userId s) ∧ ∀ i, (s.call i).Sound sys)
        (start sh args) as := by
      have hsound : ∀ i, ((start sh args).call i).Sound sys := fun i ↦ trivial
      refine hclear.always ?_ ⟨hstart, hsound⟩
      rintro s ⟨i, env⟩ ⟨hwithin, hsound⟩ hstep
      refine ⟨within_step hw hl hwithin (hsound i) hstep, ?_⟩
      exact Calls.forall_step (P := fun _ (r : Request) ↦ r.Sound sys) hsound
        (sound_resumeAt (hsound i)) fun _ ↦ id
    refine hrun.mono fun s ⟨hwithin, _⟩ w' hw' l' hl' d ↦ ?_
    rw [hw] at hw'
    cases hw'
    rw [Option.mem_unique hl' hl]
    exact hwithin.le_limit d
  · have hnone : ∀ sh', Capped sys sh' userId :=
      fun sh' w hw l hl ↦ absurd ⟨w, hw, l, hl⟩ hlimit
    exact always_of_step (P := fun s : Calls ι Shared Request ↦ Capped sys s.shared userId)
      (fun s a _ ↦ hnone _) (hnone _) as

section Examples

instance decidableClearRequest [Fintype ι] (sys : System) (userId : ℕ) (s : Calls ι Shared Request)
    (i : ι) [DecidableEq ι] (env : Env) (r : Request) : Decidable (r.Clear sys userId s i env) :=
  match r with
  | .serviceCheck _ _ (.daily _) _ => inferInstanceAs (Decidable (_ → _ → _ ∧ _))
  | .serviceCheck _ _ .user _ | .serviceCheck _ _ (.monthly _) _ | .arrived _ | .total _
  | .queued _ _ _ | .checking _ _ _ | .service _ _ | .invalid _ _ | .refused _ _ => isTrue trivial

instance decidableClear [Fintype ι] [DecidableEq ι] (sys : System) (userId : ℕ)
    (s : Calls ι Shared Request) (a : ι × Env) : Decidable (Clear sys userId s a) :=
  inferInstanceAs (Decidable ((s.call a.1).Clear sys userId s a.1 a.2))

/-- A limit of 100 XLM a day for everyone, in the given unit. -/
def hundredADay (unit : ℚ) (hpos : 0 < unit) (hle : unit ≤ 10 ^ 7) : System where
  cfg := { plainConfig with maxAmount := 1000 * unit, maxDailyPerDonor := 100 * unit }
  svc := Custodial.plainServices
  wallets := [⟨1, none, none, none⟩]
  unit := unit
  unit_pos := hpos
  unit_le := hle

def inXlm : System := hundredADay 1 (by decide) (by decide)

def inStroops : System := hundredADay (10 ^ 7) (by decide) le_rfl

def noDonations : Shared := ⟨1000, Custodial.twoUsers, [], ⟨fun _ ↦ none, [], 0⟩⟩

def donation (amount : ℚ) (key : String) : Args where
  senderId := 1
  receiverId := 2
  amount := amount
  idempotencyKey := some key

def accepting (txId : String) : Env := ⟨1, none, Custodial.okEnv txId, false, 0⟩

/-- Both requests pass the second check before either pays. -/
def overlappingRun : List (Fin 2 × Env) :=
  List.replicate 9 (0, accepting "t1") ++ List.replicate 9 (1, accepting "t2")
    ++ List.replicate 4 (0, accepting "t1") ++ List.replicate 4 (1, accepting "t2")

def sixtyTwice (i : Fin 2) : Args := donation 60 (if i = 0 then "k1" else "k2")

/-- One day on which more is paid is enough. -/
theorem not_always_capped {sys : System} {w : Wallet} {l : ℚ} {d : ℤ} {as : List (Fin 2 × Env)}
    (hw : sys.wallets.find? (·.id = 1) = some w) (hl : l ∈ dailyLimit sys.cfg w)
    (hover : l < sys.unit *
      paidOn (run (step sys) (start noDonations sixtyTwice) as).shared.paid 1 d) :
    ¬Always (step sys) (fun s ↦ Capped sys s.shared 1) (start noDonations sixtyTwice) as :=
  fun h ↦ (h.last w hw l hl d).not_gt hover

/-- Two overlapping requests for 60 XLM are both paid, whatever the unit. -/
theorem overlap_exceeds_cap :
    ¬Always (step inXlm) (fun s ↦ Capped inXlm s.shared 1) (start noDonations sixtyTwice)
        overlappingRun ∧
      ¬Always (step inStroops) (fun s ↦ Capped inStroops s.shared 1) (start noDonations sixtyTwice)
        overlappingRun := by
  constructor
  · exact not_always_capped (w := ⟨1, none, none, none⟩) (l := 100) (d := 0) (by decide)
      (by decide +kernel) (by decide +kernel)
  · exact not_always_capped (w := ⟨1, none, none, none⟩) (l := 1000000000) (d := 0) (by decide)
      (by decide +kernel) (by decide +kernel)

/-- Two requests one after the other, for 60 XLM and for 30 XLM. -/
def sixtyThenThirty (i : Fin 2) : Args := if i = 0 then donation 60 "k1" else donation 30 "k2"

theorem capped_noDonations : Capped inStroops noDonations 1 := by
  intro w hw l hl d
  have hwallet : inStroops.wallets.find? (·.id = 1) = some ⟨1, none, none, none⟩ := by decide
  have hlimit : dailyLimit inStroops.cfg ⟨1, none, none, none⟩ = some 1000000000 := by
    decide +kernel
  rw [hwallet] at hw
  cases hw
  rw [hlimit] at hl
  cases hl
  change inStroops.unit * 0 ≤ 1000000000
  decide +kernel

/-- The second check of the one request comes after the row of the other. -/
theorem always_capped_of_clear_at :
    Always (step inStroops) (fun s ↦ Capped inStroops s.shared 1)
      (start noDonations sixtyThenThirty)
      (List.replicate 14 (0, accepting "t1") ++ List.replicate 14 (1, accepting "t2")) := by
  have hpast : Past noDonations := fun p hp ↦ absurd hp List.not_mem_nil
  exact always_capped_of_clear inStroops hpast capped_noDonations sixtyThenThirty
    (by decide +kernel)

end Examples

end StellarDonations.DailyCap
