import StellarDonations.Concurrency.Run
import StellarDonations.Stellar.Payment
import StellarDonations.Text.JsNumber

/-!
# Sending a donation again

`sendDonation` on a network that may apply a transaction at any time within its bounds, or never,
and that may answer or not. A call loads the sequence number of the account, builds and submits the
transaction with the next one, and looks the transaction up when the submission ends in a network
error. When it throws, the caller may invoke it again.

A transaction that is applied after the lookup, or after a lookup that failed, is not known to the
next call. That call loads the sequence number the transaction has left and pays a second time. As
long as no sequence number is loaded after a payment was applied, all transactions built compete for
the same numbers, and at most one of them is applied (`paidOnce_of_loads`).
-/

namespace StellarDonations.Resubmission

open Concurrency JsString Stellar

/-! ## Memos -/

def maxMemoLength : ℕ := 28

def maxUint64 : ℕ := 18446744073709551615

structure MemoError where
  message : String
  code : String
  deriving DecidableEq

def validateId (memo : String) : Except MemoError Unit :=
  let text := (trim memo).toList
  if text = [] || !text.all (·.isDigit) then
    .error ⟨"ID memo must be a non-negative integer", "INVALID_MEMO_ID"⟩
  else if (JsNumber.bigInt (String.ofList text)).any (· ≤ (maxUint64 : ℤ)) then .ok ()
  else .error ⟨"ID memo must be a valid 64-bit unsigned integer (0 to 18446744073709551615)",
    "INVALID_MEMO_ID"⟩

/-- `/^[0-9a-f]{64}$/`, on the memo trimmed and in lower case. -/
def isHashHex (memo : String) : Bool :=
  let hex := (toLowerCase (trim memo)).toList
  hex.length = 64 && hex.all fun c ↦ c.isDigit || 'a' ≤ c && c ≤ 'f'

def validateFinalMemo (memo memoType : String) : Except MemoError Unit :=
  if memo = "" then .ok ()
  else if memoType = "text" then
    if memo.utf8ByteSize ≤ maxMemoLength then .ok ()
    else .error ⟨"Memo byte length (" ++ toString memo.utf8ByteSize ++ ") exceeds the " ++
      toString maxMemoLength ++ "-byte UTF-8 limit for MEMO_TEXT. Use MEMO_HASH for longer " ++
      "payloads or shorten the memo.", "MEMO_TOO_LONG"⟩
  else if memoType = "hash" || memoType = "return" then
    if isHashHex memo then .ok ()
    else .error ⟨memoType ++ " memo must be exactly 32 bytes represented as a 64-character hex " ++
      "string; got " ++ toString (codeUnits memo).length ++ " characters.", "INVALID_MEMO_HASH"⟩
  else if memoType = "id" then validateId memo
  else .error ⟨"Unknown memo type: \"" ++ memoType ++
    "\". Must be one of: text, hash, id, return", "INVALID_MEMO_TYPE"⟩

/-! ## Transactions -/

/-- The arguments of `sendDonation`. -/
structure Donation extends Payment where
  memoType : String
  deriving DecidableEq

/-- A built transaction. Its bounds are seconds, and a zero at the end is no bound. -/
structure Transaction where
  donation : Donation
  sequence : ℕ
  minTime : ℤ
  maxTime : ℤ
  deriving DecidableEq

def Transaction.inBounds (tx : Transaction) (now : ℤ) : Bool :=
  tx.minTime ≤ now && (tx.maxTime = 0 || now ≤ tx.maxTime)

structure NetworkError where
  isTimeout : Bool
  circuitOpen : Bool
  message : String
  code : String
  status : Option ℕ
  deriving DecidableEq

def transientCodes : List String :=
  ["ENOTFOUND", "ECONNREFUSED", "ETIMEDOUT", "EHOSTUNREACH", "ECONNRESET"]

def transientMessages : List String :=
  transientCodes ++ ["socket hang up", "Network Error", "network timeout", "timed out"]

/-- `text.includes(token)`. -/
def includesText (text token : String) : Bool := text.toList.tails.any (token.toList.isPrefixOf ·)

def isTransientNetworkError (e : NetworkError) : Bool :=
  e.isTimeout || e.status.any (· ∈ [408, 429, 502, 503, 504]) ||
    transientMessages.any (includesText e.message) || e.code ∈ transientCodes

/-- What the caller of `sendDonation` catches. -/
structure Response where
  status : ℕ
  code : String
  message : String
  deriving DecidableEq

def handle (message : String) : Response :=
  let has := includesText message
  if has "ENOTFOUND" || has "ECONNREFUSED" then
    ⟨503, "NETWORK_ERROR", "Unable to connect to Stellar network. Please try again later."⟩
  else if has "timeout" || has "ETIMEDOUT" then
    ⟨504, "NETWORK_TIMEOUT", "Request to Stellar network timed out. Please try again."⟩
  else if has "insufficient" || has "underfunded" then
    ⟨400, "INSUFFICIENT_BALANCE", "Insufficient balance to complete this transaction."⟩
  else if has "destination" || has "not found" then
    ⟨400, "INVALID_DESTINATION", "Destination account does not exist or is invalid."⟩
  else if has "not funded" || has "op_no_destination" then
    ⟨400, "ACCOUNT_NOT_FUNDED", "Destination account is not funded. Accounts must have a " ++
      "minimum balance before receiving payments."⟩
  else if has "Invalid source" || has "secret key" then
    ⟨400, "INVALID_CREDENTIALS", "Invalid wallet credentials provided."⟩
  else if has "tx_failed" || has "transaction failed" then
    ⟨400, "TRANSACTION_FAILED", "Transaction failed on the Stellar network. Please verify your " ++
      "transaction details."⟩
  else if has "Wallet not found" then ⟨404, "WALLET_NOT_FOUND", message⟩
  else if has "must be different" then
    ⟨400, "INVALID_TRANSACTION", message⟩
  else if has "Transaction not found" then
    ⟨404, "TRANSACTION_NOT_FOUND", "Transaction not found."⟩
  else ⟨500, "STELLAR_ERROR", "An error occurred while processing your request. Please try again."⟩

/-- The retry policy, and what the library does with its arguments. -/
structure Config where
  maxAttempts : ℕ
  fromSecret : String → Except String String
  /-- The message with which the asset, the operation or the memo of a donation is refused. -/
  sdkError : Donation → Option String

/-- The transaction of a donation, with the sequence number after the one loaded. -/
def build (cfg : Config) (d : Donation) (loaded : ℕ) (now : ℤ) : Except String Transaction :=
  match cfg.sdkError d, validateFinalMemo d.memo d.memoType with
  | some message, _ => .error message
  | none, .error e => .error e.message
  | none, .ok _ => .ok {
      donation := d
      sequence := loaded + 1
      minTime := d.validAfter
      -- `setTimeout(30)` where there is no end
      maxTime := if d.validBefore = 0 then now + 30 else d.validBefore }

/-! ## The call and the network -/

/-- Where the call of `sendDonation` is suspended, or how it ended. -/
inductive Phase where
  | loadAccount (attempt : ℕ)
  | submit (loaded : ℕ)
  | submitted (tx : Transaction)
  /-- The lookup of a transaction whose submission ended in an error. -/
  | verify (tx : Transaction) (attempt : ℕ) (error : NetworkError)
  | returned (tx : Transaction)
  | threw (response : Response)
  deriving DecidableEq

/-- The account on the ledger with the transactions that are on it, those of them whose payment was
made, the transactions handed to the network, and the call. The clock shows seconds. -/
structure World where
  now : ℤ
  sequence : ℕ
  included : List Transaction
  paid : List Transaction
  sent : List Transaction
  phase : Phase

inductive Event where
  /-- Horizon answers the call, or the call ends in an error. -/
  | resume (answer : Except NetworkError Unit)
  /-- The caller invokes `sendDonation` again. -/
  | retry
  /-- A transaction that was sent comes up on the ledger. -/
  | inclusion (tx : Transaction) (succeeds : Bool)
  /-- Another transaction of the account is applied. -/
  | otherTransaction
  | tick (seconds : ℕ)

/-- The beginning of `sendDonation`. -/
def invoke (cfg : Config) (d : Donation) : Phase :=
  match cfg.fromSecret d.sourceSecret with
  | .error message => .threw (handle message)
  | .ok _ => .loadAccount 1

/-- What `_executeWithRetry` does with an error: try again, or throw it. -/
def retryOr (cfg : Config) (attempt : ℕ) (e : NetworkError) (again throws : Phase) : Phase :=
  if e.circuitOpen then throws
  else if !isTransientNetworkError e || attempt = cfg.maxAttempts then throws
  else again

/-- The account is on the next number, and the time is within the bounds. -/
def World.applicable (w : World) (tx : Transaction) : Bool :=
  tx.sequence = w.sequence + 1 && tx.inBounds w.now

def resume (cfg : Config) (d : Donation) (w : World) (answer : Except NetworkError Unit) : World :=
  match w.phase, answer with
  | .loadAccount _, .ok _ => { w with phase := .submit w.sequence }
  | .loadAccount attempt, .error e =>
    let throws := .threw (handle e.message)
    { w with phase := retryOr cfg attempt e (.loadAccount (attempt + 1)) throws }
  | .submit loaded, _ =>
    match build cfg d loaded w.now with
    | .error message => { w with phase := .threw (handle message) }
    | .ok tx => { w with sent := w.sent ++ [tx], phase := .submitted tx }
  -- Horizon confirms a transaction only once its payment is made
  | .submitted tx, .ok _ => if tx ∈ w.paid then { w with phase := .returned tx } else w
  | .submitted tx, .error e =>
    if isTransientNetworkError e then { w with phase := .verify tx 1 e }
    else { w with phase := .threw (handle e.message) }
  | .verify tx _ error, .ok _ =>
    if tx ∈ w.included then { w with phase := .returned tx }
    else { w with phase := .threw (handle error.message) }
  | .verify tx attempt error, .error e =>
    let throws := .threw (handle error.message)
    { w with phase := retryOr cfg attempt e (.verify tx (attempt + 1) error) throws }
  | .returned _, _ | .threw _, _ => w

def step (cfg : Config) (d : Donation) (w : World) : Event → World
  | .resume answer => resume cfg d w answer
  | .retry =>
    match w.phase with
    | .threw _ => { w with phase := invoke cfg d }
    | _ => w
  | .inclusion tx succeeds =>
    if tx ∈ w.sent ∧ w.applicable tx = true then
      { w with
        sequence := tx.sequence
        included := w.included ++ [tx]
        paid := if succeeds then w.paid ++ [tx] else w.paid }
    else w
  | .otherTransaction => { w with sequence := w.sequence + 1 }
  | .tick seconds => { w with now := w.now + seconds }

/-- `sendDonation` is called for the first time. -/
def start (cfg : Config) (d : Donation) (now : ℤ) (sequence : ℕ) : World :=
  ⟨now, sequence, [], [], [], invoke cfg d⟩

/-! ## At most one payment -/

/-- At most one of the transactions built has been applied. -/
def PaidOnce (w : World) : Prop := w.paid.length ≤ 1

/-- The donation's own time bound has passed. -/
def Donation.expired (d : Donation) (now : ℤ) : Prop := d.validBefore ≠ 0 ∧ d.validBefore < now

instance (d : Donation) (now : ℤ) : Decidable (d.expired now) :=
  inferInstanceAs (Decidable (_ ∧ _))

/-- Where a sequence number is loaded, no payment has been made, or a new one is too late. -/
def loadsUnpaid (d : Donation) (w : World) : Event → Bool
  | .resume (.ok _) =>
    match w.phase with
    | .loadAccount _ => decide (w.paid = []) || decide (d.expired w.now)
    | _ => true
  | _ => true

/-- A transaction that can never be applied: its number is used up, or its bounds have passed. -/
def Dead (w : World) (tx : Transaction) : Prop :=
  tx.sequence ≤ w.sequence ∨ tx.maxTime ≠ 0 ∧ tx.maxTime < w.now

/-- No number is ahead of the account by more than one, and once a payment is made nothing that was
sent or is about to be sent can be applied. -/
structure Sound (d : Donation) (w : World) : Prop where
  once : w.paid.length ≤ 1
  next : ∀ tx ∈ w.sent, tx.sequence ≤ w.sequence + 1
  loaded : ∀ n, w.phase = .submit n → n ≤ w.sequence
  dead : w.paid ≠ [] → ∀ tx ∈ w.sent, Dead w tx
  late : w.paid ≠ [] → ∀ n, w.phase = .submit n → n < w.sequence ∨ d.expired w.now

section Step

variable {cfg : Config} {d : Donation} {w : World}

theorem retryOr_ne_submit {attempt : ℕ} {e : NetworkError} {again throws : Phase}
    (hagain : ∀ n, again ≠ .submit n) (hthrows : ∀ n, throws ≠ .submit n) (n : ℕ) :
    retryOr cfg attempt e again throws ≠ .submit n := by
  rw [retryOr]
  split_ifs
  · exact hthrows n
  · exact hthrows n
  · exact hagain n

/-- **What an answer does.** It gives the call a sequence number, lets it send a transaction, or
only moves it on. -/
theorem resume_cases (cfg : Config) (d : Donation) (w : World) (answer : Except NetworkError Unit) :
    (∃ k, w.phase = .loadAccount k ∧ answer = .ok () ∧
        resume cfg d w answer = { w with phase := .submit w.sequence }) ∨
      (∃ n tx, w.phase = .submit n ∧ build cfg d n w.now = .ok tx ∧
        resume cfg d w answer = { w with sent := w.sent ++ [tx], phase := .submitted tx }) ∨
      ∃ phase, (∀ n, phase ≠ .submit n) ∧ resume cfg d w answer = { w with phase := phase } := by
  cases hphase : w.phase with
  | loadAccount attempt =>
    cases answer with
    | ok u => exact .inl ⟨attempt, rfl, rfl, by simp only [resume, hphase]⟩
    | error e =>
      refine .inr (.inr ?_)
      simp only [resume, hphase]
      exact ⟨_, retryOr_ne_submit (fun _ ↦ by simp) fun _ ↦ by simp, rfl⟩
  | submit loaded =>
    cases hbuild : build cfg d loaded w.now with
    | error message =>
      refine .inr (.inr ⟨.threw (handle message), fun _ ↦ by simp, ?_⟩)
      cases answer <;> simp only [resume, hphase, hbuild]
    | ok tx =>
      refine .inr (.inl ⟨loaded, tx, rfl, hbuild, ?_⟩)
      cases answer <;> simp only [resume, hphase, hbuild]
  | submitted tx =>
    refine .inr (.inr ?_)
    cases answer with
    | ok u =>
      simp only [resume, hphase]
      split_ifs
      · exact ⟨_, fun _ ↦ by simp, rfl⟩
      · exact ⟨.submitted tx, fun _ ↦ by simp, by rw [← hphase]⟩
    | error e =>
      simp only [resume, hphase]
      split_ifs
      · exact ⟨_, fun _ ↦ by simp, rfl⟩
      · exact ⟨_, fun _ ↦ by simp, rfl⟩
  | verify tx attempt error =>
    refine .inr (.inr ?_)
    cases answer with
    | ok u =>
      simp only [resume, hphase]
      split_ifs
      · exact ⟨_, fun _ ↦ by simp, rfl⟩
      · exact ⟨_, fun _ ↦ by simp, rfl⟩
    | error e =>
      simp only [resume, hphase]
      exact ⟨_, retryOr_ne_submit (fun _ ↦ by simp) fun _ ↦ by simp, rfl⟩
  | returned tx =>
    refine .inr (.inr ⟨.returned tx, fun _ ↦ by simp, ?_⟩)
    cases answer <;> simp only [resume, hphase] <;> rw [← hphase]
  | threw response =>
    refine .inr (.inr ⟨.threw response, fun _ ↦ by simp, ?_⟩)
    cases answer <;> simp only [resume, hphase] <;> rw [← hphase]

theorem build_ok {n : ℕ} {now : ℤ} {tx : Transaction} (h : build cfg d n now = .ok tx) :
    tx.sequence = n + 1 ∧ (d.validBefore ≠ 0 → tx.maxTime = d.validBefore) := by
  rw [build] at h
  split at h
  · cases h
  · cases h
  · obtain rfl := Except.ok.inj h
    exact ⟨rfl, fun hbound ↦ if_neg hbound⟩

theorem Dead.not_applicable {tx : Transaction} (h : Dead w tx) : w.applicable tx = false := by
  rw [World.applicable, Transaction.inBounds]
  rcases h with hused | ⟨hbound, hpassed⟩
  · have hne : tx.sequence ≠ w.sequence + 1 := by omega
    rw [decide_eq_false hne, Bool.false_and]
  · have hlate : ¬w.now ≤ tx.maxTime := by omega
    rw [decide_eq_false hbound, decide_eq_false hlate, Bool.or_false, Bool.and_false,
      Bool.and_false]

/-- An answer, where it does not give a number after a payment. -/
theorem Sound.resume (h : Sound d w) {answer : Except NetworkError Unit}
    (hload : loadsUnpaid d w (.resume answer) = true) : Sound d (resume cfg d w answer) := by
  rcases resume_cases cfg d w answer with
    ⟨k, hphase, rfl, heq⟩ | ⟨n, tx, hphase, hbuild, heq⟩ | ⟨phase, hnone, heq⟩
  · rw [heq]
    simp only [loadsUnpaid, hphase, Bool.or_eq_true, decide_eq_true_iff] at hload
    refine ⟨h.once, h.next, fun n hn ↦ ?_, h.dead, fun hpaid n _ ↦ .inr ?_⟩
    · exact (Phase.submit.inj hn).ge
    · exact hload.resolve_left hpaid
  · obtain ⟨hsequence, hbound⟩ := build_ok hbuild
    have hloaded := h.loaded n hphase
    rw [heq]
    refine ⟨h.once, fun tx' htx' ↦ ?_, fun n' hn' ↦ ?_, fun hpaid tx' htx' ↦ ?_,
      fun _ n' hn' ↦ ?_⟩
    · rcases List.mem_append.mp htx' with hold | hnew
      · exact h.next tx' hold
      · rw [List.mem_singleton.mp hnew, hsequence]
        exact Nat.succ_le_succ hloaded
    · cases hn'
    · rcases List.mem_append.mp htx' with hold | hnew
      · exact h.dead hpaid tx' hold
      · rw [List.mem_singleton.mp hnew]
        rcases h.late hpaid n hphase with hused | hexpired
        · exact .inl (hsequence.trans_le hused)
        · have hmax := hbound hexpired.1
          exact .inr ⟨hmax ▸ hexpired.1, hmax ▸ hexpired.2⟩
    · cases hn'
  · rw [heq]
    exact ⟨h.once, h.next, fun n hn ↦ absurd hn (hnone n), h.dead,
      fun _ n hn ↦ absurd hn (hnone n)⟩

theorem Sound.inclusion (h : Sound d w) (tx : Transaction) (succeeds : Bool) :
    Sound d (step cfg d w (.inclusion tx succeeds)) := by
  rw [step]
  by_cases hincluded : tx ∈ w.sent ∧ w.applicable tx = true
  · rw [if_pos hincluded]
    obtain ⟨hsent, happlicable⟩ := hincluded
    have hunpaid : w.paid = [] := by
      by_contra hpaid
      rw [(h.dead hpaid tx hsent).not_applicable] at happlicable
      cases happlicable
    have hnumber : tx.sequence = w.sequence + 1 :=
      of_decide_eq_true (Bool.and_eq_true_iff.mp happlicable).1
    refine ⟨?_, fun tx' htx' ↦ ?_, fun n hn ↦ ?_, fun _ tx' htx' ↦ .inl ?_, fun _ n hn ↦ .inl ?_⟩
    · dsimp only
      rw [hunpaid]
      split_ifs
      · exact le_rfl
      · exact Nat.zero_le 1
    · have hnext := h.next tx' htx'
      dsimp only
      omega
    · have hloaded := h.loaded n hn
      dsimp only
      omega
    · have hnext := h.next tx' htx'
      dsimp only
      omega
    · have hloaded := h.loaded n hn
      dsimp only
      omega
  · rw [if_neg hincluded]
    exact h

theorem Sound.step (h : Sound d w) (e : Event) (hload : loadsUnpaid d w e = true) :
    Sound d (step cfg d w e) := by
  cases e with
  | resume answer => exact h.resume hload
  | retry =>
    rw [Resubmission.step]
    split
    · have hnone : ∀ n, invoke cfg d ≠ .submit n := by
        intro n
        rw [invoke]
        split
        · simp
        · simp
      exact ⟨h.once, h.next, fun n hn ↦ absurd hn (hnone n), h.dead,
        fun _ n hn ↦ absurd hn (hnone n)⟩
    · exact h
  | inclusion tx succeeds => exact h.inclusion tx succeeds
  | otherTransaction =>
    refine ⟨h.once, fun tx htx ↦ ?_, fun n hn ↦ ?_, fun hpaid tx htx ↦ ?_, fun hpaid n hn ↦ ?_⟩
    · exact (h.next tx htx).trans (Nat.le_succ _)
    · exact (h.loaded n hn).trans (Nat.le_succ _)
    · exact (h.dead hpaid tx htx).imp_left fun hused ↦ hused.trans (Nat.le_succ _)
    · exact (h.late hpaid n hn).imp_left fun hused ↦ hused.trans (Nat.lt_succ_self _)
  | tick seconds =>
    have hlater : ∀ t : ℤ, t < w.now → t < w.now + seconds := fun t ht ↦ by omega
    refine ⟨h.once, h.next, h.loaded, fun hpaid tx htx ↦ ?_, fun hpaid n hn ↦ ?_⟩
    · exact (h.dead hpaid tx htx).imp_right fun hpassed ↦ ⟨hpassed.1, hlater _ hpassed.2⟩
    · exact (h.late hpaid n hn).imp_right fun hexpired ↦ ⟨hexpired.1, hlater _ hexpired.2⟩

/-- After a payment, a number that is loaded is the one the ledger wants next: what is built with
it, and is not too late, can be applied at once. -/
theorem paid_again_of_load {k : ℕ} {tx : Transaction} (hphase : w.phase = .loadAccount k)
    (hpaid : w.paid ≠ []) (hbuild : build cfg d w.sequence w.now = .ok tx)
    (hbounds : tx.inBounds w.now = true) :
    ¬PaidOnce (run (Resubmission.step cfg d) w
      [.resume (.ok ()), .resume (.ok ()), .inclusion tx true]) := by
  have happlicable : w.applicable tx = true := by
    rw [World.applicable, (build_ok hbuild).1, decide_eq_true rfl, hbounds, Bool.and_true]
  have hafter : (run (Resubmission.step cfg d) w
      [.resume (.ok ()), .resume (.ok ()), .inclusion tx true]).paid = w.paid ++ [tx] := by
    simp only [run_cons, run_nil, Resubmission.step, Resubmission.resume, hphase, hbuild]
    rw [if_pos ⟨List.mem_append_right _ (List.mem_singleton_self tx), happlicable⟩]
    simp
  rw [PaidOnce, hafter, List.length_append, List.length_singleton]
  have hpos := List.length_pos_of_ne_nil hpaid
  omega

end Step

/-- **At most one payment.** However the network behaves and however often the caller tries again,
at most one of the transactions built is applied, as long as every sequence number is loaded before
a payment was made, or after the time bound of the donation. -/
theorem paidOnce_of_loads (cfg : Config) (d : Donation) (now : ℤ) (sequence : ℕ)
    {events : List Event}
    (h : Along (step cfg d) (fun w e ↦ loadsUnpaid d w e = true) (start cfg d now sequence)
      events) :
    Always (step cfg d) PaidOnce (start cfg d now sequence) events := by
  have hstart : Sound d (start cfg d now sequence) := by
    refine ⟨Nat.zero_le 1, fun tx htx ↦ absurd htx List.not_mem_nil, fun n hn ↦ ?_,
      fun hpaid ↦ absurd rfl hpaid, fun hpaid ↦ absurd rfl hpaid⟩
    rw [start, invoke] at hn
    dsimp only at hn
    split at hn <;> cases hn
  exact (h.always (fun w e hw he ↦ hw.step e he) hstart).mono fun w hw ↦ hw.once

section Examples

/-- A retry policy of three attempts, and a library that accepts everything. -/
def sampleConfig : Config where
  maxAttempts := 3
  fromSecret _ := .ok "GA"
  sdkError _ := none

def sampleDonation : Donation where
  sourceSecret := "SA"
  destinationPublic := some "GB"
  amount := 5
  memo := "thanks"
  asset := .native
  validAfter := 0
  validBefore := 0
  memoType := "text"

def timeout : NetworkError :=
  ⟨true, false, "Operation 'submitTransaction' timed out after 30000ms", "", none⟩

/-- The transaction of the donation with a number, built when the clock shows zero. -/
def numbered (n : ℕ) : Transaction := ⟨sampleDonation, n, 0, 30⟩

/-- The first transaction is applied after it has been looked up, and before the retry loads the
account. The second one is applied as well. -/
theorem paid_twice :
    ¬Always (step sampleConfig sampleDonation) PaidOnce (start sampleConfig sampleDonation 0 10)
      [.resume (.ok ()), .resume (.ok ()), .resume (.error timeout), .resume (.ok ()),
        .inclusion (numbered 11) true, .retry, .resume (.ok ()), .resume (.ok ()),
        .inclusion (numbered 12) true] := by
  intro h
  have honce : (_ : ℕ) ≤ 1 := h.last
  exact absurd honce (by decide)

/-- The first transaction is applied only after the retry has loaded the account. -/
theorem paidOnce_of_loads_at :
    Always (step sampleConfig sampleDonation) PaidOnce (start sampleConfig sampleDonation 0 10)
      [.resume (.ok ()), .resume (.ok ()), .resume (.error timeout), .resume (.ok ()), .retry,
        .resume (.ok ()), .inclusion (numbered 11) true, .resume (.ok ()),
        .inclusion (numbered 11) true] :=
  paidOnce_of_loads sampleConfig sampleDonation 0 10 (by decide)

end Examples

end StellarDonations.Resubmission
