import StellarDonations.Concurrency.WindowLog
import StellarDonations.Donations.Custodial
import StellarDonations.Time.Calendar

/-!
# The velocity of a donor

`DonationVelocityService` within `sendCustodialDonation`: a donor may make at most `limit` donations
in any window of `windowSeconds`. The check counts the rows of `velocity_log` that are not a window
old, the payment follows some time later, and the row is inserted after that by a promise that
nobody awaits. Every statement is a suspension point.

Between the check and the row nothing keeps another donation of the donor from passing the same
check, and a row that is not inserted is never counted. Calls follow the protocol of
`Concurrency.WindowLog`: the limit holds for every window, and a rejected donation is accepted after
its `retryAfter`, in every run in which a donation is counted while no other one of the donor is
between its count and its row, and whatever is paid gets its row (`velocity_bounded`).
-/

namespace StellarDonations.Velocity

open Concurrency SlidingWindow Stellar
open Custodial (Args Parties)

/-! ## Configuration and tables -/

inductive Tier where
  | free
  | standard
  | premium
  deriving DecidableEq

/-- `WINDOW_TYPES`. -/
inductive WindowType where
  | daily
  | weekly
  | monthly
  deriving DecidableEq

structure RecipientLimits where
  recipientId : ℕ
  maxAmount : Option ℚ
  maxCount : Option ℕ
  windowType : WindowType
  deriving DecidableEq

/-- A row of `donation_velocity`. -/
structure Usage where
  donorId : ℕ
  recipientId : ℕ
  /-- In milliseconds. -/
  windowStart : ℤ
  totalAmount : ℚ
  count : ℕ
  deriving DecidableEq

/-- A row of `velocity_log`. Its times are written and compared as ISO texts, whose order is that of
the milliseconds. -/
structure LogRow where
  donorId : ℕ
  apiKey : Option String
  createdAt : ℕ
  deriving DecidableEq

/-- The environment variables, as `parseInt` reads them, and what the service only reads. -/
structure Config where
  services : Custodial.Services
  windowSeconds : Option ℕ
  limitFree : Option ℕ
  limitStandard : Option ℕ
  limitPremium : Option ℕ
  /-- `users.tier`, when it is one of the tiers. -/
  tier : ℕ → Option Tier
  recipientLimits : List RecipientLimits
  /-- A number in a template string. -/
  showNumber : ℚ → String

def orDefault (parsed : Option ℕ) (default : ℕ) : ℕ := (parsed.filter (· ≠ 0)).getD default

theorem orDefault_pos {default : ℕ} (h : 0 < default) (parsed : Option ℕ) :
    0 < orDefault parsed default := by
  rcases parsed with - | _ | n
  · exact h
  · exact h
  · exact Nat.succ_pos n

namespace Config

variable (cfg : Config)

def getWindowSeconds : ℕ := orDefault cfg.windowSeconds 3600

def windowMs : ℕ := cfg.getWindowSeconds * 1000

/-- `TIER_LIMITS`. -/
def tierLimit : Tier → ℕ
  | .free => orDefault cfg.limitFree 5
  | .standard => orDefault cfg.limitStandard 20
  | .premium => orDefault cfg.limitPremium 100

theorem tierLimit_pos (t : Tier) : 0 < cfg.tierLimit t := by
  cases t <;> exact orDefault_pos (by decide) _

/-- `_getDonorTier`, where a statement that fails means the tier `free`. -/
def getDonorTier (donorId : ℕ) (dbError : Option AppError) : Tier :=
  match dbError with
  | some _ => .free
  | none => (cfg.tier donorId).getD .free

def limitOf (donorId : ℕ) : ℕ := cfg.tierLimit (cfg.getDonorTier donorId none)

end Config

def getWindowStart (windowType : WindowType) (now : ℤ) : ℤ :=
  let day := Calendar.day now
  Calendar.msPerDay * match windowType with
    | .daily => day
    -- the days since Monday; day 0 is a Thursday
    | .weekly => day - (day + 3) % 7
    | .monthly =>
      let date := Calendar.civilFromDays day
      Calendar.makeDay date.year date.month 1

def getWindowEnd (windowType : WindowType) (now : ℤ) : ℤ :=
  let start := getWindowStart windowType now
  match windowType with
  | .daily => start + Calendar.msPerDay
  | .weekly => start + 7 * Calendar.msPerDay
  | .monthly =>
    let date := Calendar.civilFromDays (Calendar.day start)
    Calendar.msPerDay * Calendar.makeDay date.year (date.month + 1) date.day

/-! ## The shared state -/

structure Paid where
  senderId : ℕ
  time : ℕ
  deriving DecidableEq

/-- A donation that the check has just rejected with `retryAfter`. -/
structure Rejection where
  args : Args
  retryAfter : ℕ
  deriving DecidableEq

/-- The clock and the tables, the payments made so far, and the rejection that the last step made,
if it made one. -/
structure Shared where
  now : ℕ
  custodial : Custodial.Shared
  velocityLog : List LogRow
  usage : List Usage
  paid : List Paid
  rejection : Option Rejection

namespace Shared

variable (sh : Shared) (donorId : ℕ)

def logOf : List ℕ := (sh.velocityLog.filter (·.donorId = donorId)).map (·.createdAt)

def paidOf : List ℕ := (sh.paid.filter (·.senderId = donorId)).map (·.time)

/-- `DELETE FROM velocity_log WHERE donor_id = ? AND created_at <= ?`. -/
def purge (windowMs nowMs : ℕ) : Shared :=
  { sh with velocityLog := sh.velocityLog.filter fun r ↦
      !(r.donorId = donorId && r.createdAt + windowMs ≤ nowMs) }

/-- The oldest row of a donor that is not a window old. -/
def oldest (windowMs nowMs : ℕ) : Option ℕ :=
  ((sh.logOf donorId).filter (nowMs < · + windowMs)).min?

/-- `INSERT INTO velocity_log`. -/
def insertRow : Shared :=
  { sh with velocityLog := sh.velocityLog ++ [⟨donorId, none, sh.now⟩] }

/-- The row of `donation_velocity`. -/
def usageOf (recipientId : ℕ) (windowStart : ℤ) : Option Usage :=
  sh.usage.find? fun u ↦
    u.donorId = donorId && u.recipientId = recipientId && u.windowStart = windowStart

/-- The `INSERT` of `recordDonation`, with its `ON CONFLICT` clause. -/
def upsertUsage (recipientId : ℕ) (windowStart : ℤ) (amount : ℚ) : Shared :=
  { sh with usage :=
      if (sh.usageOf donorId recipientId windowStart).isSome then
        sh.usage.map fun u ↦
          if u.donorId = donorId ∧ u.recipientId = recipientId ∧ u.windowStart = windowStart then
            { u with totalAmount := u.totalAmount + amount, count := u.count + 1 } else u
      else sh.usage ++ [⟨donorId, recipientId, windowStart, amount, 1⟩] }

end Shared

structure Env where
  elapsed : ℕ
  /-- The error of a statement of the velocity service, should it fail. -/
  dbError : Option AppError
  /-- What the other statements of the call are answered. -/
  service : Custodial.Env
  /-- The payment was made although the call threw. -/
  lost : Bool
  /-- How long ago the payment was made when its answer arrives. -/
  delay : ℕ

/-! ## The check -/

/-- The statements of `checkVelocityLimits`. -/
inductive Check where
  | createTable
  | createIndex
  | purge (nowMs : ℕ)
  | count (nowMs : ℕ)
  | tier (nowMs currentCount : ℕ)
  | oldest (nowMs limit : ℕ)
  | limits
  | usage (limits : RecipientLimits) (windowStart windowEnd : ℤ)
  deriving DecidableEq

/-- What `checkVelocityLimits` throws. -/
inductive Refusal where
  | failed (e : AppError)
  /-- `VelocityLimitExceededError`. -/
  | sliding (retryAfterSeconds limit windowSeconds : ℕ)
  | recipient (message : String) (resetAt : ℤ)
  deriving DecidableEq

def Refusal.error : Refusal → AppError
  | .failed e => e
  | .sliding retryAfterSeconds limit windowSeconds =>
    ⟨.error, some (.other "VELOCITY_LIMIT_EXCEEDED"),
      "Donation velocity limit of " ++ toString limit ++ " per " ++ toString windowSeconds ++
        "s exceeded. Retry after " ++ toString retryAfterSeconds ++ "s."⟩
  | .recipient message _ => ⟨.error, some (.other "VELOCITY_LIMIT_EXCEEDED"), message⟩

def WindowType.text : WindowType → String
  | .daily => "daily"
  | .weekly => "weekly"
  | .monthly => "monthly"

def retryAfterSeconds (oldest : Option ℕ) (windowMs nowMs : ℕ) : ℕ :=
  match oldest with
  | none => 1
  | some t => max 1 ((t + windowMs - nowMs + 999) / 1000)

variable (cfg : Config)

/-- The limit of the amount that a donor gives to a recipient in a window. -/
def checkMaxAmount (l : RecipientLimits) (currentTotal amount : ℚ) (windowEnd : ℤ) :
    Except Refusal Unit :=
  match l.maxAmount with
  | none => .ok ()
  | some maxAmount =>
    if maxAmount < currentTotal + amount then
      .error (.recipient ("Donation would exceed the per-recipient amount limit of " ++
        cfg.showNumber maxAmount ++ " per " ++ l.windowType.text ++ " window. Used: " ++
        cfg.showNumber currentTotal ++ ", Requested: " ++ cfg.showNumber amount) windowEnd)
    else .ok ()

/-- The limit of the number of donations. -/
def checkMaxCount (l : RecipientLimits) (currentCount : ℕ) (windowEnd : ℤ) : Except Refusal Unit :=
  match l.maxCount with
  | none => .ok ()
  | some maxCount =>
    if maxCount < currentCount + 1 then
      .error (.recipient ("Donation would exceed the per-recipient count limit of " ++
        toString maxCount ++ " per " ++ l.windowType.text ++ " window. Used: " ++
        toString currentCount) windowEnd)
    else .ok ()

def checkRecipient (l : RecipientLimits) (used : Option Usage) (amount : ℚ) (windowEnd : ℤ) :
    Except Refusal Unit := do
  checkMaxAmount cfg l ((used.map (·.totalAmount)).getD 0) amount windowEnd
  checkMaxCount l ((used.map (·.count)).getD 0) windowEnd

def getLimits (recipientId : ℕ) : Option RecipientLimits :=
  cfg.recipientLimits.find? (·.recipientId = recipientId)

/-- What follows a statement of `checkVelocityLimits`; `none` when the check has passed. A failing
statement throws, except for the one that reads the tier. -/
def resumeCheck (sh : Shared) (a : Args) (dbError : Option AppError) (c : Check) :
    Shared × Except Refusal (Option Check) :=
  match c, dbError with
  | .tier nowMs currentCount, dbError =>
    let limit := cfg.tierLimit (cfg.getDonorTier a.senderId dbError)
    if limit ≤ currentCount then (sh, .ok (some (.oldest nowMs limit)))
    else (sh, .ok (some .limits))
  | _, some e => (sh, .error (.failed e))
  | .createTable, none => (sh, .ok (some .createIndex))
  | .createIndex, none => (sh, .ok (some (.purge sh.now)))
  | .purge nowMs, none => (sh.purge a.senderId cfg.windowMs nowMs, .ok (some (.count nowMs)))
  | .count nowMs, none => (sh, .ok (some (.tier nowMs (sh.logOf a.senderId).length)))
  | .oldest nowMs limit, none =>
    let r := retryAfterSeconds (sh.oldest a.senderId cfg.windowMs nowMs) cfg.windowMs nowMs
    ({ sh with rejection := some ⟨a, r⟩ }, .error (.sliding r limit cfg.getWindowSeconds))
  | .limits, none =>
    match getLimits cfg a.receiverId with
    | none => (sh, .ok none)
    | some l => (sh, .ok (some (.usage l (getWindowStart l.windowType sh.now)
        (getWindowEnd l.windowType sh.now))))
  | .usage l windowStart windowEnd, none =>
    (sh, (checkRecipient cfg l (sh.usageOf a.senderId a.receiverId windowStart) a.amount
      windowEnd).map fun _ ↦ none)

/-! ## The calls -/

/-- The statements of `recordDonation`. -/
inductive Recording where
  | createTable
  | createIndex
  | insert
  | limits
  | upsert (windowStart : ℤ)
  /-- Done, or failed. -/
  | ended
  deriving DecidableEq

/-- A call of `sendCustodialDonation`. -/
inductive Call where
  /-- The call with the statement that the check is at, when the call is at the check, and the time
  the statement was issued at. -/
  | donating (c : Custodial.Call) (check : Check) (since : ℕ)
  /-- The promise of `recordDonation`. What the rest of the call does alongside is not modelled: it
  reads and writes nothing of the velocity service. -/
  | recording (a : Args) (r : Recording)

/-- The call goes on, or its promise begins. -/
def embed (since : ℕ) : Custodial.Call → Call
  | .matching a _ _ _ => .recording a .createTable
  | c => .donating c .createTable since

/-- The payment that is made while the call waits for its answer. -/
def payment (c : Custodial.Call) (since now : ℕ) (env : Env) : List Paid :=
  match c with
  | .sendDonation a _ =>
    if env.service.answer.isOk || env.lost then [⟨a.senderId, max since (now - env.delay)⟩] else []
  | _ => []

/-- Resume the call, with what its check of the velocity has found. -/
def serve (sh : Shared) (c : Custodial.Call) (since : ℕ) (velocity : Except AppError Unit)
    (env : Env) : Shared × Call :=
  let x := Custodial.resume cfg.services sh.custodial c
    { env.service with now := sh.now, velocity := velocity }
  ({ sh with custodial := x.1, paid := sh.paid ++ payment c since sh.now env }, embed sh.now x.2)

/-- Resume `recordDonation`. An error is caught and logged; one of `getLimits` is ignored. -/
def resumeRecording (sh : Shared) (a : Args) (dbError : Option AppError) (r : Recording) :
    Shared × Recording :=
  match r, dbError with
  | .limits, dbError =>
    let limits := if dbError.isSome then none else getLimits cfg a.receiverId
    let windowType := (limits.map (·.windowType)).getD .daily
    (sh, .upsert (getWindowStart windowType sh.now))
  | _, some _ => (sh, .ended)
  | .createTable, none => (sh, .createIndex)
  | .createIndex, none => (sh, .insert)
  | .insert, none => (sh.insertRow a.senderId, .limits)
  | .upsert windowStart, none =>
    (sh.upsertUsage a.senderId a.receiverId windowStart a.amount, .ended)
  | .ended, none => (sh, .ended)

/-- Resume a call at the time shown by the clock. -/
def resumeAt (sh : Shared) (env : Env) : Call → Shared × Call
  | .donating (.checkVelocity a p) check since =>
    match resumeCheck cfg sh a env.dbError check with
    | (sh, .ok (some check)) => (sh, .donating (.checkVelocity a p) check sh.now)
    | (sh, .ok none) => serve cfg sh (.checkVelocity a p) since (.ok ()) env
    | (sh, .error refusal) => serve cfg sh (.checkVelocity a p) since (.error refusal.error) env
  | .donating c _ since => serve cfg sh c since env.service.velocity env
  | .recording a r =>
    let x := resumeRecording cfg sh a env.dbError r
    (x.1, .recording a x.2)

def Shared.later (sh : Shared) (elapsed : ℕ) : Shared :=
  { sh with now := sh.now + elapsed, rejection := none }

/-- Resume a call: time passes, then it runs to its next `await`. -/
def resume (sh : Shared) (c : Call) (env : Env) : Shared × Call :=
  resumeAt cfg (sh.later env.elapsed) env c

/-- A call for each donation, none of which has begun. -/
def start {ι : Type*} (now : ℕ) (custodial : Custodial.Shared) (usage : List Usage)
    (args : ι → Args) : Calls ι Shared Call :=
  ⟨⟨now, custodial, [], usage, [], none⟩, fun i ↦ .donating (.getSender (args i)) .createTable now⟩

/-! ## What must hold, and when it does -/

/-- The check, executed statement after statement while no other call moves. -/
def recheck (sh : Shared) (a : Args) (c : Check) : List ℕ → Except Refusal (Option Check)
  | [] => .ok (some c)
  | elapsed :: rest =>
    match resumeCheck cfg (sh.later elapsed) a none c with
    | (sh, .ok (some c)) => recheck sh a c rest
    | (_, out) => out

/-- A retry after `retryAfter` seconds passes the check, however long its statements take. -/
def AcceptedAfter (sh : Shared) (a : Args) (retryAfter : ℕ) : Prop :=
  ∀ (waited : ℕ) (rest : List ℕ), 6 ≤ rest.length →
    recheck cfg sh a .createTable ((retryAfter * 1000 + waited) :: rest) = .ok none

/-- At most `limit` donations of the donor are paid in a window, and a rejected donation would be
accepted after its `retryAfter`. -/
structure Bounded (donorId : ℕ) (sh : Shared) : Prop where
  sparse : Sparse (cfg.limitOf donorId) cfg.windowMs (sh.paidOf donorId)
  retry : ∀ r ∈ sh.rejection, r.args.senderId = donorId → AcceptedAfter cfg sh r.args r.retryAfter

def Call.args : Call → Args
  | .donating c _ _ => c.args
  | .recording a _ => a

def Check.phase (limit since : ℕ) : Check → WindowLog.Phase ℕ
  | .tier _ currentCount => if currentCount < limit then .cleared since else .outside
  | .limits | .usage _ _ _ => .cleared since
  | _ => .outside

/-- How far a call has got in the protocol. -/
def Call.progress (limit : ℕ) : Call → WindowLog.Phase ℕ
  | .donating (.checkVelocity _ _) check since => check.phase limit since
  | .donating (.lookup _ _) _ since | .donating (.reserve _ _ _) _ since
  | .donating (.sendDonation _ _) _ since => .cleared since
  | .donating (.insert _ _ _) _ _ | .donating (.campaign _ _ _ _) _ _ => .acted
  | .recording _ .createTable | .recording _ .createIndex | .recording _ .insert => .acted
  | _ => .outside

/-- Calls of other donors take no part. -/
def Call.phase (donorId : ℕ) (c : Call) : WindowLog.Phase ℕ :=
  if c.args.senderId = donorId then c.progress (cfg.limitOf donorId) else .outside

def abstraction {ι : Type*} (donorId : ℕ) (s : Calls ι Shared Call) : WindowLog.State ι ℕ where
  now := s.shared.now
  acts := s.shared.paidOf donorId
  log := s.shared.logOf donorId
  phase i := (s.call i).phase cfg donorId

def RecipientLimits.Admits (l : RecipientLimits) (used : Option Usage) (amount : ℚ) : Prop :=
  (∀ m ∈ l.maxAmount, (used.map (·.totalAmount)).getD 0 + amount ≤ m) ∧
    ∀ m ∈ l.maxCount, (used.map (·.count)).getD 0 + 1 ≤ m

instance (l : RecipientLimits) (used : Option Usage) (amount : ℚ) :
    Decidable (l.Admits used amount) :=
  inferInstanceAs (Decidable (_ ∧ _))

/-- The limits of the recipient leave room for the donation, whenever it is made. -/
def RecipientAdmits (sh : Shared) (a : Args) : Prop :=
  ∀ l ∈ getLimits cfg a.receiverId, ∀ used ∈ none :: sh.usage.map some, l.Admits used a.amount

/-- The condition on a step of call `i`, for a call of the donor. -/
def Call.InOrder {ι : Type*} (donorId : ℕ) (s : Calls ι Shared Call) (i : ι) (env : Env) :
    Call → Prop
  -- a count below the limit is read while no other donation is between its count and its row
  | .donating (.checkVelocity _ _) (.count _) _ =>
    (s.shared.logOf donorId).length < cfg.limitOf donorId →
      Alone WindowLog.Phase.Inside (fun j ↦ (s.call j).phase cfg donorId) i
  -- the tier is the donor's
  | .donating (.checkVelocity _ _) (.tier _ _) _ =>
    cfg.tierLimit (cfg.getDonorTier donorId env.dbError) = cfg.limitOf donorId
  -- no other limit stands in the way of a retry
  | .donating (.checkVelocity a _) (.oldest _ _) _ => RecipientAdmits cfg s.shared a
  -- what is paid gets its row
  | .donating (.sendDonation _ _) _ _ => env.service.answer.isOk || !env.lost
  | .donating (.insert a _ result) _ _ =>
    env.service.insertError = none ∧ s.shared.custodial.violatesUnique (Custodial.transactionRow
      cfg.services s.shared.custodial a result (s.shared.now + env.elapsed)) = false
  | .recording _ .createTable | .recording _ .createIndex | .recording _ .insert =>
    env.dbError = none
  | _ => True

def InOrder {ι : Type*} (donorId : ℕ) (s : Calls ι Shared Call) (a : ι × Env) : Prop :=
  (s.call a.1).args.senderId = donorId → (s.call a.1).InOrder cfg donorId s a.1 a.2

section Moves

variable {cfg} {sh : Shared} {env : Env} {a : Args} {donorId limit since : ℕ}

/-! ## The tables -/

theorem logOf_purge (sh : Shared) (windowMs nowMs : ℕ) :
    (sh.purge donorId windowMs nowMs).logOf donorId =
      (sh.logOf donorId).filter (nowMs < · + windowMs) := by
  rw [Shared.logOf, Shared.logOf, List.filter_map, Shared.purge, List.filter_filter,
    List.filter_filter]
  refine congrArg _ (List.filter_congr fun r _ ↦ ?_)
  have hold : (!decide (r.createdAt + windowMs ≤ nowMs)) =
      decide (nowMs < r.createdAt + windowMs) := by
    rw [← decide_not, decide_eq_decide, not_le]
  by_cases hr : r.donorId = donorId <;> simp [hr, hold]

theorem logOf_purge_of_ne {donorId' : ℕ} (h : donorId' ≠ donorId) (sh : Shared)
    (windowMs nowMs : ℕ) :
    (sh.purge donorId' windowMs nowMs).logOf donorId = sh.logOf donorId := by
  rw [Shared.logOf, Shared.logOf, Shared.purge, List.filter_filter]
  refine congrArg _ (List.filter_congr fun r _ ↦ ?_)
  by_cases hr : r.donorId = donorId
  · simp [hr, h.symm]
  · simp [hr]

theorem logOf_insertRow (sh : Shared) :
    (sh.insertRow donorId).logOf donorId = sh.logOf donorId ++ [sh.now] := by
  simp [Shared.logOf, Shared.insertRow]

theorem logOf_insertRow_of_ne {donorId' : ℕ} (h : donorId' ≠ donorId) (sh : Shared) :
    (sh.insertRow donorId').logOf donorId = sh.logOf donorId := by
  simp [Shared.logOf, Shared.insertRow, h]

theorem paidOf_congr {sh' : Shared} (h : sh'.paid = sh.paid) (donorId : ℕ) :
    sh'.paidOf donorId = sh.paidOf donorId := by
  rw [Shared.paidOf, h, Shared.paidOf]

theorem logOf_congr {sh' : Shared} (h : sh'.velocityLog = sh.velocityLog) (donorId : ℕ) :
    sh'.logOf donorId = sh.logOf donorId := by
  rw [Shared.logOf, h, Shared.logOf]

/-! ## What a step does -/

/-- The phases of the service's states other than the check. -/
def serviceProgress (now : ℕ) : Custodial.Call → WindowLog.Phase ℕ
  | .lookup _ _ | .reserve _ _ _ | .sendDonation _ _ => .cleared now
  | .insert _ _ _ | .campaign _ _ _ _ | .matching _ _ _ _ => .acted
  | _ => .outside

@[simp] theorem progress_embed (limit now : ℕ) (c : Custodial.Call) :
    (embed now c).progress limit = serviceProgress now c := by
  cases c <;> rfl

@[simp] theorem args_embed (now : ℕ) (c : Custodial.Call) : (embed now c).args = c.args := by
  cases c <;> rfl

/-- What a step of a call does to the protocol, for a limit of the donor. -/
inductive Moves (cfg : Config) (limit : ℕ) (sh : Shared) (env : Env) (c : Call)
    (x : Shared × Call) : Prop
  /-- A call that has not acted leaves, or stays outside. -/
  | leave (hpaid : x.1.paid = sh.paid) (hlog : x.1.velocityLog = sh.velocityLog)
      (hbefore : c.progress limit ≠ .acted) (hafter : x.2.progress limit = .outside)
  /-- A cleared call goes on. -/
  | hold (hpaid : x.1.paid = sh.paid) (hlog : x.1.velocityLog = sh.velocityLog) {since : ℕ}
      (hbefore : c.progress limit = .cleared since) (hafter : x.2.progress limit = .cleared sh.now)
  /-- A call whose row is to come goes on. -/
  | keep (hpaid : x.1.paid = sh.paid) (hlog : x.1.velocityLog = sh.velocityLog)
      (hbefore : c.progress limit = .acted) (hafter : x.2.progress limit = .acted)
  | purge (hpaid : x.1.paid = sh.paid) {p : Parties} {nowMs since : ℕ}
      (hcall : c = .donating (.checkVelocity c.args p) (.purge nowMs) since)
      (hshared : x.1 = sh.purge c.args.senderId cfg.windowMs nowMs)
      (hafter : x.2.progress limit = .outside)
  | count (hpaid : x.1.paid = sh.paid) (hlog : x.1.velocityLog = sh.velocityLog) {p : Parties}
      {nowMs since : ℕ} (hcall : c = .donating (.checkVelocity c.args p) (.count nowMs) since)
      (hroom : (sh.logOf c.args.senderId).length < limit)
      (hafter : x.2.progress limit = .cleared sh.now)
  | pay {p : Parties} {since : ℕ} (hcheck : Check)
      (hcall : c = .donating (.sendDonation c.args p) hcheck since)
      (hpaid : x.1.paid = sh.paid ++ payment (.sendDonation c.args p) since sh.now env)
      (hlog : x.1.velocityLog = sh.velocityLog)
      (hafter : x.2.progress limit =
        if env.service.answer.isOk then .acted else .outside)
  | enter (hcall : c = .recording c.args .insert) (hpaid : x.1.paid = sh.paid)
      (hshared : x.1 = sh.insertRow c.args.senderId) (hafter : x.2.progress limit = .outside)

theorem paid_serve (c : Custodial.Call) (since : ℕ) (velocity : Except AppError Unit) :
    (serve cfg sh c since velocity env).1.paid = sh.paid ++ payment c since sh.now env := rfl

/-- The calls that are at neither the check, nor the payment, nor the row of `transactions`. -/
def quiet : Custodial.Call → Bool
  | .checkVelocity _ _ | .sendDonation _ _ | .insert _ _ _ => false
  | _ => true

theorem serve_quiet {c : Custodial.Call} (hc : quiet c = true) (check : Check)
    (velocity : Except AppError Unit) :
    Moves cfg limit sh env (.donating c check since) (serve cfg sh c since velocity env) := by
  cases c with
  | getSender | checkLimits | replayLimits | limits =>
    refine .leave (List.append_nil _) rfl (by rintro ⟨⟩) ?_
    rw [serve, Custodial.resume]
    split <;> rfl
  | getReceiver =>
    refine .leave (List.append_nil _) rfl (by rintro ⟨⟩) ?_
    rw [serve, Custodial.resume]
    split
    · rfl
    · split <;> rfl
  | lookup a p =>
    rw [serve, Custodial.resume]
    split
    · exact .leave (List.append_nil _) rfl (by rintro ⟨⟩) rfl
    · rw [Custodial.afterLookup]
      split
      · exact .leave (List.append_nil _) rfl (by rintro ⟨⟩) rfl
      · split_ifs <;> exact .hold (List.append_nil _) rfl rfl rfl
  | reserve =>
    rw [serve, Custodial.resume]
    split
    · exact .leave (List.append_nil _) rfl (by rintro ⟨⟩) rfl
    · exact .hold (List.append_nil _) rfl rfl rfl
  | campaign => exact .keep (List.append_nil _) rfl rfl rfl
  | matching a p result dbId =>
    refine .leave (List.append_nil _) rfl (by rintro ⟨⟩) ?_
    rw [serve, Custodial.resume, Custodial.recordDonation_throws]
    rfl
  | returned | threw => exact .leave (List.append_nil _) rfl (by rintro ⟨⟩) rfl
  | checkVelocity | sendDonation | insert => cases hc

theorem serve_sendDonation (p : Parties) (check : Check) (velocity : Except AppError Unit) :
    Moves cfg limit sh env (.donating (.sendDonation a p) check since)
      (serve cfg sh (.sendDonation a p) since velocity env) := by
  refine .pay check rfl rfl rfl ?_
  rw [serve, Custodial.resume]
  cases env.service.answer <;> rfl

theorem progress_insert {svc : Custodial.Services} {custodial : Custodial.Shared} {p : Parties}
    {result : PaymentResult} (e : Custodial.Env) (herror : e.insertError = none)
    (hunique : custodial.violatesUnique
      (Custodial.transactionRow svc custodial a result e.now) = false) (now : ℕ) :
    serviceProgress now (Custodial.resume svc custodial (.insert a p result) e).2 = .acted := by
  rw [Custodial.resume, Custodial.commit_of_unique herror hunique]
  dsimp only
  split_ifs <;> rfl

theorem serve_insert {p : Parties} {result : PaymentResult} (check : Check)
    (velocity : Except AppError Unit) (herror : env.service.insertError = none)
    (hunique : sh.custodial.violatesUnique
      (Custodial.transactionRow cfg.services sh.custodial a result sh.now) = false) :
    Moves cfg limit sh env (.donating (.insert a p result) check since)
      (serve cfg sh (.insert a p result) since velocity env) := by
  refine .keep (List.append_nil _) rfl rfl ((progress_embed ..).trans ?_)
  exact progress_insert { env.service with now := sh.now, velocity := velocity } herror hunique _

theorem check_fails {p : Parties} {check : Check} {sh' : Shared} {e : AppError}
    (hpaid : sh'.paid = sh.paid) (hlog : sh'.velocityLog = sh.velocityLog)
    (hne : check.phase limit since ≠ .acted) :
    Moves cfg limit sh env (.donating (.checkVelocity a p) check since)
      (serve cfg sh' (.checkVelocity a p) since (.error e) env) :=
  .leave ((List.append_nil _).trans hpaid) hlog hne rfl

theorem check_passes {p : Parties} {check : Check} (h : check.phase limit since = .cleared since) :
    Moves cfg limit sh env (.donating (.checkVelocity a p) check since)
      (serve cfg sh (.checkVelocity a p) since (.ok ()) env) :=
  .hold (List.append_nil _) rfl h rfl

theorem check_ne_acted (check : Check) : check.phase limit since ≠ .acted := by
  cases check with
  | tier nowMs currentCount =>
    rw [Check.phase]
    split_ifs <;> nofun
  | _ => nofun

theorem moves_checking {p : Parties} {check : Check}
    (htier : ∀ nowMs currentCount, check = .tier nowMs currentCount →
      cfg.tierLimit (cfg.getDonorTier a.senderId env.dbError) = limit) :
    Moves cfg limit sh env (.donating (.checkVelocity a p) check since)
      (resumeAt cfg sh env (.donating (.checkVelocity a p) check since)) := by
  have hne : check.phase limit since ≠ .acted := check_ne_acted check
  rw [resumeAt]
  cases check with
  | tier nowMs currentCount =>
    rw [resumeCheck, htier nowMs currentCount rfl]
    by_cases hfull : limit ≤ currentCount
    · simp only [if_pos hfull]
      exact .leave rfl rfl hne rfl
    · simp only [if_neg hfull]
      exact .hold rfl rfl (if_pos (not_le.mp hfull)) rfl
  | count nowMs =>
    cases env.dbError with
    | some e => exact check_fails rfl rfl hne
    | none =>
      by_cases hroom : (sh.logOf a.senderId).length < limit
      · exact .count rfl rfl rfl hroom (if_pos hroom)
      · exact .leave rfl rfl hne (if_neg hroom)
  | createTable | createIndex =>
    cases env.dbError with
    | some e => exact check_fails rfl rfl hne
    | none => exact .leave rfl rfl hne rfl
  | purge nowMs =>
    cases env.dbError with
    | some e => exact check_fails rfl rfl hne
    | none => exact .purge rfl rfl rfl rfl
  | oldest nowMs limit => cases env.dbError <;> exact check_fails rfl rfl hne
  | limits =>
    cases env.dbError with
    | some e => exact check_fails rfl rfl hne
    | none =>
      rw [resumeCheck]
      cases getLimits cfg a.receiverId with
      | none => exact check_passes rfl
      | some l => exact .hold rfl rfl rfl rfl
  | usage l windowStart windowEnd =>
    cases env.dbError with
    | some e => exact check_fails rfl rfl hne
    | none =>
      rw [resumeCheck]
      cases checkRecipient cfg l _ a.amount windowEnd with
      | error e => exact check_fails rfl rfl hne
      | ok u => exact check_passes rfl

theorem moves_recording {r : Recording}
    (hrow : r = .createTable ∨ r = .createIndex ∨ r = .insert → env.dbError = none) :
    Moves cfg limit sh env (.recording a r) (resumeAt cfg sh env (.recording a r)) := by
  rw [resumeAt]
  cases r with
  | createTable =>
    rw [hrow (.inl rfl)]
    exact .keep rfl rfl rfl rfl
  | createIndex =>
    rw [hrow (.inr (.inl rfl))]
    exact .keep rfl rfl rfl rfl
  | insert =>
    rw [hrow (.inr (.inr rfl))]
    exact .enter rfl rfl rfl rfl
  | limits => exact .leave rfl rfl nofun rfl
  | upsert | ended => cases env.dbError <;> exact .leave rfl rfl nofun rfl

/-- **A step in order** of a call of the donor does what the protocol allows. -/
theorem moves_resumeAt {ι : Type*} {s : Calls ι Shared Call} {i : ι} {c : Call}
    (hdonor : c.args.senderId = donorId) (h : c.InOrder cfg donorId s i env) :
    Moves cfg (cfg.limitOf donorId) (s.shared.later env.elapsed) env c
      (resumeAt cfg (s.shared.later env.elapsed) env c) := by
  subst hdonor
  cases c with
  | recording a r =>
    refine moves_recording fun hr ↦ ?_
    rcases hr with rfl | rfl | rfl <;> exact h
  | donating c check since =>
    cases c with
    | checkVelocity a p =>
      refine moves_checking fun nowMs currentCount hcheck ↦ ?_
      subst hcheck
      exact h
    | sendDonation a p => exact serve_sendDonation p check _
    | insert a p result => exact serve_insert check _ h.1 h.2
    | _ => exact serve_quiet rfl check _

/-- The clock stands still, and what belongs to another donor stays. -/
structure Frame (donorId : ℕ) (sh sh' : Shared) : Prop where
  now : sh'.now = sh.now
  own : ∀ d, donorId ≠ d → sh'.paidOf d = sh.paidOf d ∧ sh'.logOf d = sh.logOf d

theorem Frame.of_eq {sh' : Shared} (hnow : sh'.now = sh.now) (hpaid : sh'.paid = sh.paid)
    (hlog : sh'.velocityLog = sh.velocityLog) : Frame donorId sh sh' :=
  ⟨hnow, fun d _ ↦ ⟨paidOf_congr hpaid d, logOf_congr hlog d⟩⟩

theorem Frame.trans {sh₁ sh₂ : Shared} (h : Frame donorId sh sh₁) (h' : Frame donorId sh₁ sh₂) :
    Frame donorId sh sh₂ where
  now := h'.now.trans h.now
  own d hd := ⟨(h'.own d hd).1.trans (h.own d hd).1, (h'.own d hd).2.trans (h.own d hd).2⟩

theorem frame_resumeCheck (cfg : Config) (sh : Shared) (a : Args) (dbError : Option AppError)
    (check : Check) :
    Frame a.senderId sh (resumeCheck cfg sh a dbError check).1 := by
  cases check with
  | purge nowMs =>
    cases dbError with
    | some e => exact .of_eq rfl rfl rfl
    | none => exact ⟨rfl, fun d hd ↦ ⟨rfl, logOf_purge_of_ne hd sh _ _⟩⟩
  | tier nowMs currentCount =>
    rw [resumeCheck]
    split_ifs <;> exact .of_eq rfl rfl rfl
  | limits =>
    cases dbError with
    | some e => exact .of_eq rfl rfl rfl
    | none =>
      rw [resumeCheck]
      split <;> exact .of_eq rfl rfl rfl
  | _ => cases dbError <;> exact .of_eq rfl rfl rfl

theorem frame_resumeRecording (sh : Shared) (a : Args) (dbError : Option AppError)
    (r : Recording) : Frame a.senderId sh (resumeRecording cfg sh a dbError r).1 := by
  cases r with
  | insert =>
    cases dbError with
    | some e => exact .of_eq rfl rfl rfl
    | none => exact ⟨rfl, fun d hd ↦ ⟨rfl, logOf_insertRow_of_ne hd sh⟩⟩
  | _ => cases dbError <;> exact .of_eq rfl rfl rfl

theorem payment_of_ne {c : Custodial.Call} (h : c.args.senderId ≠ donorId) (now : ℕ) :
    (payment c since now env).filter (·.senderId = donorId) = [] := by
  cases c with
  | sendDonation a p =>
    rw [payment]
    split_ifs
    · exact List.filter_cons_of_neg (mt of_decide_eq_true h)
    · rfl
  | _ => rfl

theorem frame_serve (sh : Shared) (c : Custodial.Call) (since : ℕ)
    (velocity : Except AppError Unit) :
    Frame c.args.senderId sh (serve cfg sh c since velocity env).1 := by
  refine ⟨rfl, fun d hd ↦ ⟨?_, rfl⟩⟩
  rw [Shared.paidOf, paid_serve, List.filter_append, payment_of_ne hd, List.append_nil]
  rfl

theorem args_serve (sh : Shared) (c : Custodial.Call) (since : ℕ)
    (velocity : Except AppError Unit) :
    (serve cfg sh c since velocity env).2.args = c.args :=
  (args_embed ..).trans (Custodial.args_resume ..)

theorem frame_resumeAt (cfg : Config) (sh : Shared) (env : Env) (c : Call) :
    Frame c.args.senderId sh (resumeAt cfg sh env c).1 ∧
      (resumeAt cfg sh env c).2.args = c.args := by
  cases c with
  | recording a r => exact ⟨frame_resumeRecording sh a _ r, rfl⟩
  | donating c check since =>
    cases c with
    | checkVelocity a p =>
      have hframe := frame_resumeCheck cfg sh a env.dbError check
      rw [resumeAt]
      rcases hcheck : resumeCheck cfg sh a env.dbError check with ⟨sh', refusal | - | check'⟩ <;>
        rw [hcheck] at hframe
      · exact ⟨hframe.trans (frame_serve sh' (.checkVelocity a p) since _), args_serve ..⟩
      · exact ⟨hframe.trans (frame_serve sh' (.checkVelocity a p) since _), args_serve ..⟩
      · exact ⟨hframe, rfl⟩
    | _ => exact ⟨frame_serve .., args_serve ..⟩

/-! ## Retries -/

/-- After `retryAfter` seconds, the oldest row is a window old, so there is room. -/
theorem room_after {l : List ℕ} {n W nowMs now : ℕ} (hn : 0 < n) (hlen : l.length ≤ n)
    (hnow : nowMs + retryAfterSeconds (l.filter (nowMs < · + W)).min? W nowMs * 1000 ≤ now) :
    (l.filter (now < · + W)).length < n := by
  cases hmin : (l.filter (nowMs < · + W)).min? with
  | none =>
    have hnil : l.filter (now < · + W) = [] := by
      rw [List.min?_eq_none_iff, List.filter_eq_nil_iff] at hmin
      refine List.filter_eq_nil_iff.mpr fun t ht hnew ↦ hmin t ht ?_
      rw [decide_eq_true_eq] at hnew ⊢
      omega
    rw [hnil]
    exact hn
  | some t =>
    obtain ⟨ht, hnew⟩ := List.mem_filter.mp (List.min?_mem hmin)
    rw [decide_eq_true_eq] at hnew
    rw [hmin, retryAfterSeconds] at hnow
    refine (List.length_filter_lt_length_iff_exists.mpr ⟨t, ht, ?_⟩).trans_le hlen
    rw [decide_eq_true_eq]
    have := Nat.le_max_right 1 ((t + W - nowMs + 999) / 1000)
    omega

theorem checkMaxAmount_eq_ok {l : RecipientLimits} {currentTotal amount : ℚ} {windowEnd : ℤ} :
    checkMaxAmount cfg l currentTotal amount windowEnd = .ok () ↔
      ∀ m ∈ l.maxAmount, currentTotal + amount ≤ m := by
  rw [checkMaxAmount]
  cases l.maxAmount with
  | none => exact iff_of_true rfl nofun
  | some m =>
    simp only [Except.guard_not_eq_ok, not_lt, and_true, Option.mem_def, Option.some.injEq,
      forall_eq']

theorem checkMaxCount_eq_ok {l : RecipientLimits} {currentCount : ℕ} {windowEnd : ℤ} :
    checkMaxCount l currentCount windowEnd = .ok () ↔ ∀ m ∈ l.maxCount, currentCount + 1 ≤ m := by
  rw [checkMaxCount]
  cases l.maxCount with
  | none => exact iff_of_true rfl nofun
  | some m =>
    simp only [Except.guard_not_eq_ok, not_lt, and_true, Option.mem_def, Option.some.injEq,
      forall_eq']

theorem checkRecipient_eq_ok {l : RecipientLimits} {used : Option Usage} {amount : ℚ}
    {windowEnd : ℤ} :
    checkRecipient cfg l used amount windowEnd = .ok () ↔ l.Admits used amount := by
  rw [checkRecipient, Except.bind_const_eq_ok, checkMaxAmount_eq_ok, checkMaxCount_eq_ok]
  rfl

theorem admits_usageOf (h : RecipientAdmits cfg sh a) {l : RecipientLimits}
    (hl : getLimits cfg a.receiverId = some l) (windowStart : ℤ) :
    l.Admits (sh.usageOf a.senderId a.receiverId windowStart) a.amount := by
  refine h l hl _ ?_
  cases hused : sh.usageOf a.senderId a.receiverId windowStart with
  | none => exact List.mem_cons_self
  | some u =>
    exact List.mem_cons_of_mem _ (List.mem_map_of_mem (List.mem_of_find?_eq_some hused))

theorem recheck_limits (h : RecipientAdmits cfg sh a) (e₁ e₂ : ℕ) (rest : List ℕ) :
    recheck cfg sh a .limits (e₁ :: e₂ :: rest) = .ok none := by
  rw [recheck, resumeCheck]
  cases hlimits : getLimits cfg a.receiverId with
  | none => rfl
  | some l =>
    dsimp only
    rw [recheck, resumeCheck]
    have hadmits : ∀ windowStart, l.Admits
        (((sh.later e₁).later e₂).usageOf a.senderId a.receiverId windowStart) a.amount :=
      admits_usageOf h hlimits
    rw [checkRecipient_eq_ok.mpr (hadmits _)]
    rfl

theorem recheck_count (h : RecipientAdmits cfg sh a)
    (hroom : (sh.logOf a.senderId).length < cfg.limitOf a.senderId) (nowMs e₁ e₂ e₃ e₄ : ℕ)
    (rest : List ℕ) :
    recheck cfg sh a (.count nowMs) (e₁ :: e₂ :: e₃ :: e₄ :: rest) = .ok none := by
  rw [recheck, resumeCheck]
  dsimp only
  rw [recheck, resumeCheck]
  have hlimit : ¬cfg.tierLimit (cfg.getDonorTier a.senderId none) ≤
      ((sh.later e₁).logOf a.senderId).length :=
    hroom.not_ge
  simp only [if_neg hlimit]
  refine recheck_limits ?_ e₃ e₄ rest
  exact h

theorem acceptedAfter {nowMs : ℕ} (hnow : nowMs ≤ sh.now)
    (hlen : (sh.logOf a.senderId).length ≤ cfg.limitOf a.senderId)
    (hadmits : RecipientAdmits cfg sh a) :
    AcceptedAfter cfg sh a (retryAfterSeconds (sh.oldest a.senderId cfg.windowMs nowMs)
      cfg.windowMs nowMs) := by
  intro waited rest hrest
  match rest, hrest with
  | e₁ :: e₂ :: e₃ :: e₄ :: e₅ :: e₆ :: rest, _ =>
    rw [recheck, resumeCheck]
    dsimp only
    rw [recheck, resumeCheck]
    dsimp only
    rw [recheck, resumeCheck]
    dsimp only
    refine recheck_count ?_ ?_ _ e₃ e₄ e₅ e₆ rest
    · exact hadmits
    · rw [logOf_purge]
      have hwaited := (Nat.add_le_add hnow (Nat.le_add_right (retryAfterSeconds
        (sh.oldest a.senderId cfg.windowMs nowMs) cfg.windowMs nowMs * 1000) waited)).trans
          (Nat.le_add_right _ e₁)
      exact room_after (cfg.tierLimit_pos _) hlen hwaited

theorem rejection_resumeCheck (hnone : sh.rejection = none) {dbError : Option AppError}
    {check : Check} {r : Rejection} (hr : r ∈ (resumeCheck cfg sh a dbError check).1.rejection) :
    ∃ nowMs limit, check = .oldest nowMs limit ∧ r = ⟨a, retryAfterSeconds
      (sh.oldest a.senderId cfg.windowMs nowMs) cfg.windowMs nowMs⟩ := by
  cases check with
  | oldest nowMs limit =>
    cases dbError with
    | some e => exact absurd (hnone ▸ hr) nofun
    | none => exact ⟨nowMs, limit, rfl, (Option.some.inj hr).symm⟩
  | tier nowMs currentCount =>
    rw [resumeCheck] at hr
    split_ifs at hr <;> exact absurd (hnone ▸ hr) nofun
  | limits =>
    cases dbError with
    | some e => exact absurd (hnone ▸ hr) nofun
    | none =>
      rw [resumeCheck] at hr
      split at hr <;> exact absurd (hnone ▸ hr) nofun
  | _ => cases dbError <;> exact absurd (hnone ▸ hr) nofun

/-- The only step that rejects. -/
theorem rejection_resumeAt (hnone : sh.rejection = none) {c : Call} {r : Rejection}
    (hr : r ∈ (resumeAt cfg sh env c).1.rejection) :
    ∃ p nowMs limit since, c = .donating (.checkVelocity r.args p) (.oldest nowMs limit) since ∧
      r.retryAfter = retryAfterSeconds ((resumeAt cfg sh env c).1.oldest r.args.senderId
        cfg.windowMs nowMs) cfg.windowMs nowMs := by
  cases c with
  | recording a rec =>
    refine absurd hr ?_
    rw [resumeAt]
    cases rec <;> cases env.dbError <;> exact hnone ▸ nofun
  | donating c check since =>
    cases c with
    | checkVelocity a p =>
      have hsame : (resumeAt cfg sh env (.donating (.checkVelocity a p) check since)).1.rejection =
          (resumeCheck cfg sh a env.dbError check).1.rejection := by
        rw [resumeAt]
        rcases resumeCheck cfg sh a env.dbError check with ⟨sh', refusal | - | check'⟩ <;> rfl
      rw [hsame] at hr
      obtain ⟨nowMs, limit, rfl, rfl⟩ := rejection_resumeCheck hnone hr
      refine ⟨p, nowMs, limit, since, rfl, ?_⟩
      rw [resumeAt]
      cases env.dbError <;> rfl
    | _ => exact absurd (hnone ▸ hr) nofun

/-- The times that a check goes by are past. -/
def Call.Timely (now : ℕ) : Call → Prop
  | .donating (.checkVelocity _ _) (.purge nowMs) _
  | .donating (.checkVelocity _ _) (.count nowMs) _
  | .donating (.checkVelocity _ _) (.tier nowMs _) _
  | .donating (.checkVelocity _ _) (.oldest nowMs _) _ => nowMs ≤ now
  | _ => True

theorem timely_serve (c : Custodial.Call) (since : ℕ) (velocity : Except AppError Unit) (now : ℕ) :
    (serve cfg sh c since velocity env).2.Timely now := by
  rw [serve]
  cases (Custodial.resume cfg.services sh.custodial c
    { env.service with now := sh.now, velocity := velocity }).2 <;> trivial

theorem timely_resumeAt {c : Call} (h : c.Timely sh.now) :
    (resumeAt cfg sh env c).2.Timely sh.now := by
  cases c with
  | recording a r => trivial
  | donating c check since =>
    cases c with
    | checkVelocity a p =>
      cases check with
      | tier nowMs currentCount =>
        rw [resumeAt, resumeCheck]
        by_cases hfull : cfg.tierLimit (cfg.getDonorTier a.senderId env.dbError) ≤ currentCount
        · simp only [if_pos hfull]
          exact h
        · simp only [if_neg hfull]
          trivial
      | createIndex =>
        rw [resumeAt]
        cases env.dbError with
        | some e => exact timely_serve ..
        | none => exact le_rfl
      | purge | count =>
        rw [resumeAt]
        cases env.dbError with
        | some e => exact timely_serve ..
        | none => exact h
      | createTable | oldest =>
        rw [resumeAt]
        cases env.dbError <;> trivial
      | limits =>
        rw [resumeAt]
        cases env.dbError with
        | some e => exact timely_serve ..
        | none =>
          rw [resumeCheck]
          cases getLimits cfg a.receiverId <;> trivial
      | usage l windowStart windowEnd =>
        rw [resumeAt]
        cases env.dbError with
        | some e => exact timely_serve ..
        | none =>
          rw [resumeCheck]
          cases checkRecipient cfg l _ a.amount windowEnd <;> trivial
    | _ => exact timely_serve ..

end Moves

/-! ## Runs -/

section Runs

variable {ι : Type*} [DecidableEq ι] {cfg} {s : Calls ι Shared Call} {i : ι} {env : Env}
  {donorId : ℕ}

theorem abstraction_step (cfg : Config) (donorId : ℕ) (s : Calls ι Shared Call) (i : ι)
    (env : Env) :
    abstraction cfg donorId (Calls.step (resume cfg) s (i, env)) =
      { now := (s.shared.later env.elapsed).now
        acts := (resumeAt cfg (s.shared.later env.elapsed) env (s.call i)).1.paidOf donorId
        log := (resumeAt cfg (s.shared.later env.elapsed) env (s.call i)).1.logOf donorId
        phase := Function.update (abstraction cfg donorId s).phase i
          ((resumeAt cfg (s.shared.later env.elapsed) env (s.call i)).2.phase cfg donorId) } := by
  rw [abstraction, Calls.step_shared, resume, (frame_resumeAt ..).1.now]
  congr 1
  exact Function.comp_update (Call.phase cfg donorId) s.call i _

theorem within_foreign (h : WindowLog.Within (cfg.limitOf donorId) cfg.windowMs
      (abstraction cfg donorId s)) (hforeign : (s.call i).args.senderId ≠ donorId) :
    WindowLog.Within (cfg.limitOf donorId) cfg.windowMs
      (abstraction cfg donorId (Calls.step (resume cfg) s (i, env))) := by
  obtain ⟨hframe, hargs⟩ := frame_resumeAt cfg (s.shared.later env.elapsed) env (s.call i)
  obtain ⟨hpaid, hlog⟩ := hframe.own donorId hforeign
  rw [abstraction_step, hpaid, hlog, Call.phase, hargs, if_neg hforeign]
  have htick := h.tick (Nat.le_add_right s.shared.now env.elapsed)
  refine htick.leave ?_
  have hout : (abstraction cfg donorId s).phase i = .outside := if_neg hforeign
  rw [hout]
  nofun

theorem within_paid (h : WindowLog.Within (cfg.limitOf donorId) cfg.windowMs
      (abstraction cfg donorId s)) {a : Args} {p : Parties} {since : ℕ} (ha : a.senderId = donorId)
    (hi : (abstraction cfg donorId s).phase i = .cleared since)
    (hord : env.service.answer.isOk || !env.lost) :
    WindowLog.Within (cfg.limitOf donorId) cfg.windowMs
      { now := (s.shared.later env.elapsed).now
        acts := ((s.shared.paid ++ payment (.sendDonation a p) since
          (s.shared.later env.elapsed).now env).filter (·.senderId = donorId)).map (·.time)
        log := s.shared.logOf donorId
        phase := Function.update (abstraction cfg donorId s).phase i
          (if env.service.answer.isOk then .acted else .outside) } := by
  have hle : s.shared.now ≤ (s.shared.later env.elapsed).now := Nat.le_add_right _ _
  have htick := h.tick hle
  have hroom := h.room i
  rw [hi] at hroom
  cases hanswer : env.service.answer.isOk with
  | true =>
    have hpay := htick.act hi (le_max_left since ((s.shared.later env.elapsed).now - env.delay))
      (max_le (hroom.1.trans hle) (Nat.sub_le _ _))
    rw [payment, hanswer, Bool.true_or, if_pos rfl, List.filter_append, List.map_append,
      List.filter_cons_of_pos (by simpa using ha)]
    exact hpay
  | false =>
    rw [hanswer, Bool.false_or, Bool.not_eq_true'] at hord
    rw [payment, hanswer, hord, Bool.or_false, if_neg Bool.false_ne_true, List.append_nil]
    exact htick.leave fun hacted ↦ nomatch hi.symm.trans hacted

/-- **A step in order** keeps the protocol. -/
theorem within_step (h : WindowLog.Within (cfg.limitOf donorId) cfg.windowMs
      (abstraction cfg donorId s)) (htimely : (s.call i).Timely s.shared.now)
    (hord : InOrder cfg donorId s (i, env)) :
    WindowLog.Within (cfg.limitOf donorId) cfg.windowMs
      (abstraction cfg donorId (Calls.step (resume cfg) s (i, env))) := by
  by_cases hdonor : (s.call i).args.senderId = donorId
  · have hmoves := moves_resumeAt hdonor (hord hdonor)
    have htick := h.tick (Nat.le_add_right s.shared.now env.elapsed)
    have hbefore : (abstraction cfg donorId s).phase i =
        (s.call i).progress (cfg.limitOf donorId) := if_pos hdonor
    have hargs := (frame_resumeAt cfg (s.shared.later env.elapsed) env (s.call i)).2
    rw [abstraction_step, Call.phase, hargs, if_pos hdonor]
    generalize resumeAt cfg (s.shared.later env.elapsed) env (s.call i) = x at hmoves ⊢
    cases hmoves with
    | leave hpaid hlog hne hafter =>
      rw [paidOf_congr hpaid, logOf_congr hlog, hafter]
      exact htick.leave (hbefore ▸ hne)
    | hold hpaid hlog hcleared hafter =>
      rw [paidOf_congr hpaid, logOf_congr hlog, hafter]
      have hi := hbefore.trans hcleared
      have hroom := h.room i
      rw [hi] at hroom
      exact htick.hold hi (hroom.1.trans (Nat.le_add_right _ _)) le_rfl
    | keep hpaid hlog hacted hafter =>
      have hi := hbefore.trans hacted
      rw [paidOf_congr hpaid, logOf_congr hlog, hafter, ← hi, Function.update_eq_self]
      exact htick
    | purge hpaid hcall hshared hafter =>
      rw [hcall] at htimely hbefore
      rw [paidOf_congr hpaid, hshared, hafter, hdonor, logOf_purge]
      refine (htick.purge (htimely.trans (Nat.le_add_right _ _))).leave ?_
      exact fun hacted ↦ nomatch hbefore.symm.trans hacted
    | count hpaid hlog hcall hroom hafter =>
      have hclear : (s.call i).InOrder cfg donorId s i env := hord hdonor
      rw [hcall] at hclear hbefore
      rw [hdonor] at hroom
      rw [paidOf_congr hpaid, logOf_congr hlog, hafter]
      exact htick.clear hbefore hroom (hclear hroom)
    | pay check hcall hpaid hlog hafter =>
      have hclear : (s.call i).InOrder cfg donorId s i env := hord hdonor
      rw [hcall] at hclear hbefore
      rw [logOf_congr hlog, hafter, Shared.paidOf, hpaid]
      exact within_paid h hdonor hbefore hclear
    | enter hcall hpaid hshared hafter =>
      rw [paidOf_congr hpaid, hshared, hafter, hdonor, logOf_insertRow]
      refine htick.enter (hbefore.trans ?_)
      rw [hcall]
      rfl
  · exact within_foreign h hdonor

structure Sound (cfg : Config) (donorId : ℕ) (s : Calls ι Shared Call) : Prop where
  within : WindowLog.Within (cfg.limitOf donorId) cfg.windowMs (abstraction cfg donorId s)
  timely : ∀ i, (s.call i).Timely s.shared.now
  retry : ∀ r ∈ s.shared.rejection, r.args.senderId = donorId →
    AcceptedAfter cfg s.shared r.args r.retryAfter

theorem Call.Timely.later {c : Call} {now now' : ℕ} (h : c.Timely now) (hle : now ≤ now') :
    c.Timely now' := by
  cases c with
  | recording => trivial
  | donating c check since =>
    cases c with
    | checkVelocity =>
      cases check with
      | purge | count | tier | oldest => exact le_trans h hle
      | _ => trivial
    | _ => trivial

/-- **A step in order** keeps what a run keeps. -/
theorem Sound.step (h : Sound cfg donorId s) (hord : InOrder cfg donorId s (i, env)) :
    Sound cfg donorId (Calls.step (resume cfg) s (i, env)) := by
  have hwithin := within_step h.within (h.timely i) hord
  have hle : s.shared.now ≤ (s.shared.later env.elapsed).now := Nat.le_add_right _ _
  have hnow : (resume cfg s.shared (s.call i) env).1.now = (s.shared.later env.elapsed).now :=
    (frame_resumeAt ..).1.now
  refine ⟨hwithin, ?_, ?_⟩
  · refine Calls.forall_step (P := fun (sh : Shared) (c : Call) ↦ c.Timely sh.now) h.timely ?_
      fun c hc ↦ ?_
    · rw [hnow]
      exact timely_resumeAt ((h.timely i).later hle)
    · rw [hnow]
      exact hc.later hle
  · intro r hr hdonor
    obtain ⟨p, nowMs, limit, since, hcall, hretry⟩ := rejection_resumeAt rfl hr
    have htimely := h.timely i
    have hclear : (s.call i).args.senderId = donorId → (s.call i).InOrder cfg donorId s i env :=
      hord
    rw [hcall] at htimely hclear
    have hadmits : RecipientAdmits cfg (Calls.step (resume cfg) s (i, env)).shared r.args := by
      rw [Calls.step_shared, hcall, resume, resumeAt]
      cases env.dbError <;> exact hclear hdonor
    rw [hretry]
    refine acceptedAfter ?_ ?_ hadmits
    · rw [Calls.step_shared, hnow]
      exact le_trans htimely hle
    · rw [hdonor]
      exact hwithin.bounded

/-- **The velocity of a donor is bounded** in every run whose steps are in order. -/
theorem velocity_bounded (cfg : Config) (donorId now : ℕ) (custodial : Custodial.Shared)
    (usage : List Usage) (args : ι → Args) {as : List (ι × Env)}
    (h : Along (Calls.step (resume cfg)) (InOrder cfg donorId) (start now custodial usage args)
      as) :
    Always (Calls.step (resume cfg)) (fun s ↦ Bounded cfg donorId s.shared)
      (start now custodial usage args) as := by
  refine (h.always (P := Sound cfg donorId) (fun s a hs ha ↦ hs.step ha) ?_).mono
    fun s hs ↦ ⟨hs.within.sparse, hs.retry⟩
  refine ⟨WindowLog.within_initial rfl rfl fun i ↦ ite_self _, fun _ ↦ trivial, fun r hr ↦ ?_⟩
  exact absurd hr (Option.not_mem_none r)

end Runs

section Examples

instance decidableRecipientAdmits (cfg : Config) (sh : Shared) (a : Args) :
    Decidable (RecipientAdmits cfg sh a) :=
  inferInstanceAs (Decidable (∀ l ∈ getLimits cfg a.receiverId, ∀ used ∈ none :: sh.usage.map some,
    l.Admits used a.amount))

instance decidableInOrderCall {ι : Type*} [Fintype ι] [DecidableEq ι] (cfg : Config) (donorId : ℕ)
    (s : Calls ι Shared Call) (i : ι) (env : Env) (c : Call) :
    Decidable (c.InOrder cfg donorId s i env) :=
  match c with
  | .donating (.checkVelocity _ _) check _ =>
    match check with
    | .count _ => inferInstanceAs (Decidable (_ → _))
    | .tier _ _ => inferInstanceAs (Decidable (_ = _))
    | .oldest _ _ => decidableRecipientAdmits ..
    | .createTable | .createIndex | .purge _ | .limits | .usage _ _ _ => isTrue trivial
  | .donating (.sendDonation _ _) _ _ => inferInstanceAs (Decidable (_ = _))
  | .donating (.insert _ _ _) _ _ => inferInstanceAs (Decidable (_ ∧ _))
  | .donating (.getSender _) _ _ | .donating (.getReceiver _ _) _ _
  | .donating (.checkLimits _ _) _ _ | .donating (.lookup _ _) _ _
  | .donating (.replayLimits _ _ _) _ _ | .donating (.reserve _ _ _) _ _
  | .donating (.campaign _ _ _ _) _ _ | .donating (.matching _ _ _ _) _ _
  | .donating (.limits _ _ _ _ _) _ _ | .donating (.returned _ _) _ _
  | .donating (.threw _ _) _ _ => isTrue trivial
  | .recording _ r =>
    match r with
    | .createTable | .createIndex | .insert => inferInstanceAs (Decidable (_ = _))
    | .limits | .upsert _ | .ended => isTrue trivial

instance decidableInOrder {ι : Type*} [Fintype ι] [DecidableEq ι] (cfg : Config) (donorId : ℕ)
    (s : Calls ι Shared Call) (a : ι × Env) : Decidable (InOrder cfg donorId s a) :=
  inferInstanceAs (Decidable (_ → _))

def oneAnHour : Config where
  services := Custodial.plainServices
  windowSeconds := none
  limitFree := some 1
  limitStandard := none
  limitPremium := none
  tier _ := none
  recipientLimits := []
  showNumber _ := ""

def accepting (txId : String) : Env := ⟨1, none, Custodial.okEnv txId, false, 0⟩

def twoDonations (i : Fin 2) : Args where
  senderId := 1
  receiverId := 2
  amount := 5
  idempotencyKey := some (if i = 0 then "k1" else "k2")

def executed (i : Fin 2) (n : ℕ) : List (Fin 2 × Env) :=
  List.replicate n (i, accepting (if i = 0 then "t1" else "t2"))

/-- Both donations pass the check before either gets its row. -/
theorem two_paid_in_an_hour :
    ¬Always (Calls.step (resume oneAnHour)) (fun s ↦ Bounded oneAnHour 1 s.shared)
      (start 1000 Custodial.twoUsers [] twoDonations)
      (executed 0 9 ++ executed 1 9 ++ executed 0 3 ++ executed 1 3) := by
  intro h
  exact absurd (h.last.sparse 1000) (by decide)

/-- The second donation comes when the first has its row, and is rejected. -/
theorem velocity_bounded_at :
    Always (Calls.step (resume oneAnHour)) (fun s ↦ Bounded oneAnHour 1 s.shared)
      (start 1000 Custodial.twoUsers [] twoDonations) (executed 0 18 ++ executed 1 9) :=
  velocity_bounded oneAnHour 1 1000 Custodial.twoUsers [] twoDonations (by decide)

end Examples

end StellarDonations.Velocity
