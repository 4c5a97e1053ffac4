import StellarDonations.Donations.Custodial
import StellarDonations.Idempotency.Service
import StellarDonations.Text.JsNumber

/-!
# Bulk donations

`POST /donations/bulk`: up to fifty custodial donations in one request, processed in chunks whose
items run concurrently, each with an idempotency key of its own.

Before it processes the first item the handler makes itself an `IdempotencyService` with `new`. The
module exports an instance of that class and not the class, so this throws: every request that
passes the checks of the handler is answered with an error, after it has used up its quota, and no
item ever has a result. The processing of the items is modelled nevertheless, for either kind of
export; it shows that the record an item leaves for its repetitions is never stored.
-/

namespace StellarDonations.Bulk

open Concurrency JsString Idempotency

/-! ## Values of a request -/

/-- The value of a field. A field that is absent is `null` here. -/
inductive JsonValue where
  | null
  | bool (b : Bool)
  | number (x : ℚ)
  | text (s : String)
  /-- An array or an object, as the database would be given it. -/
  | structured (s : String)
  deriving DecidableEq

def JsonValue.truthy : JsonValue → Bool
  | null => false
  | bool b => b
  | number x => x ≠ 0
  | text s => s ≠ ""
  | structured _ => true

/-- The value as it is compared with a column of texts. -/
def JsonValue.bind (showNumber : ℚ → String) : JsonValue → String
  | null => ""
  | bool b => if b then "1" else "0"
  | number x => showNumber x
  | text s => s
  | structured s => s

/-- The number that a text accepted by `isStrictIntegerString` is read as. -/
def strictInteger (s : String) : Option ℤ :=
  match s.toList with
  | '-' :: rest => (JsNumber.digits 10 rest).map fun n ↦ -(n : ℤ)
  | text => (JsNumber.digits 10 text).map fun n ↦ (n : ℤ)

def validateInteger (min : ℤ) (value : JsonValue) : Except String ℤ :=
  let parsed := match value with
    | .number x => if x.den = 1 then some x.num else none
    | .text s => strictInteger (trim s)
    | _ => none
  match parsed with
  | none => .error "Must be a valid integer"
  | some n => if n < min then .error ("Must be at least " ++ toString min) else .ok n

/-- `isStrictNumberString`, of a text without white space around it. -/
def isStrictNumberString (s : String) : Bool :=
  let body := match s.toList with
    | '-' :: rest => rest
    | text => text
  body.all (fun c ↦ c.isDigit || c = '.') && body.count '.' ≤ 1 && body.any Char.isDigit

def validateFloat (value : JsonValue) : Except String ℚ :=
  let parsed := match value with
    | .number x => some x
    | .text s => if isStrictNumberString (trim s) then JsNumber.ofString (trim s) else none
    | _ => none
  match parsed with
  | none => .error "Must be a valid number"
  | some x => if x ≤ 0 then .error "Must be greater than 0" else .ok x

structure ItemBody where
  idempotencyKey : JsonValue := .null
  senderId : JsonValue := .null
  receiverId : JsonValue := .null
  amount : JsonValue := .null
  memo : Option String := none
  notes : Option String := none
  tags : List String := []
  deriving DecidableEq

structure Request where
  /-- The API key that the request is made with. -/
  apiKey : Option String
  /-- `req.apiKey?.id`, which the keys of the configuration do not have. -/
  apiKeyId : Option ℕ
  ip : String
  /-- `req.body.donations`, when it is an array; `none` is an item that is not an object. -/
  donations : Option (List (Option ItemBody))
  deriving DecidableEq

def Request.items (r : Request) : List (Option ItemBody) := r.donations.getD []

/-- The API key and the idempotency key of an item, when it has both. -/
def Request.keyAt (r : Request) (n : ℕ) : Option (String × JsonValue) := do
  let apiKey ← r.apiKey
  let body ← (r.items[n]?).join
  if body.idempotencyKey.truthy then some (apiKey, body.idempotencyKey) else none

/-! ## Results -/

inductive ItemStatus where
  | success
  | failed
  deriving DecidableEq

structure ItemError where
  code : String
  message : String
  deriving DecidableEq

/-- The result of an item, or what is read from a stored response; the fields may be absent. -/
structure ItemResult where
  index : Option ℕ := none
  status : Option ItemStatus := none
  donationId : Option ℕ := none
  transactionHash : Option String := none
  error : Option ItemError := none
  deriving DecidableEq

namespace ItemResult

/-- `{ index, status: 'failed', error: { code, message } }`. -/
def failed (index : ℕ) (code message : String) : ItemResult :=
  { index := some index, status := some .failed, error := some ⟨code, message⟩ }

/-- `{ ...r, ...stored }`. -/
def spread (r stored : ItemResult) : ItemResult where
  index := stored.index <|> r.index
  status := stored.status <|> r.status
  donationId := stored.donationId <|> r.donationId
  transactionHash := stored.transactionHash <|> r.transactionHash
  error := stored.error <|> r.error

/-- What a result says apart from the place of its item. -/
def outcome (r : ItemResult) : ItemResult := { r with index := none }

end ItemResult

/-! ## The state -/

structure ItemPayment where
  key : Option (String × JsonValue)
  paidAt : ℕ
  deriving DecidableEq

structure Shared where
  /-- `router._bulkQuota`. -/
  quota : String → List ℕ
  /-- `idempotency_keys`. -/
  rows : List (Row ItemResult)
  custodial : Custodial.Shared
  payments : List ItemPayment

structure Config where
  custodial : Custodial.Services
  bulkDonationConcurrency : Option String
  /-- The `code` of a thrown value; the error classes of the services have none. -/
  thrownCode : AppError → Option String
  showNumber : ℚ → String

/-- `parseInt(process.env.BULK_DONATION_CONCURRENCY || '5', 10)`. -/
def Config.concurrency (cfg : Config) : Option ℤ :=
  JsNumber.signed (fun s ↦ (JsNumber.leading 10 s).map fun n ↦ (n : ℤ))
    ((orElse cfg.bulkDonationConcurrency "5").toList.dropWhile isWhiteSpace)

/-! ## Items -/

/-- Where an item is: not begun, suspended, or done. An item whose record is on its way to the
database already has its result. -/
inductive Item where
  | waiting
  | lookup (body : ItemBody)
  | sending (body : ItemBody) (c : Custodial.Call)
  | storing (body : ItemBody) (result : ItemResult)
  | finished (result : ItemResult)

def Item.result : Item → Option ItemResult
  | .storing _ result | .finished result => some result
  | _ => none

/-- The names of the required fields that an item lacks. -/
def ItemBody.missing (body : ItemBody) : List String :=
  [("senderId", body.senderId), ("receiverId", body.receiverId), ("amount", body.amount)].filterMap
    fun (name, value) ↦ if value = .null then some name else none

/-- The arguments of the donation, or the code and the text of the first check that fails. -/
def ItemBody.validate (body : ItemBody) (apiKeyId : Option ℕ) :
    Except (String × String) Custodial.Args := do
  if body.missing ≠ [] then
    throw ("MISSING_FIELDS", "Missing: " ++ String.intercalate ", " body.missing)
  let senderId ← (validateInteger 1 body.senderId).mapError (Prod.mk "INVALID_SENDER_ID")
  let receiverId ← (validateInteger 1 body.receiverId).mapError (Prod.mk "INVALID_RECEIVER_ID")
  let amount ← (validateFloat body.amount).mapError (Prod.mk "INVALID_AMOUNT")
  return { senderId := senderId.toNat, receiverId := receiverId.toNat, amount
           memo := orNull body.memo, notes := orNull body.notes, tags := body.tags, apiKeyId }

/-- `processItem`, after the lookup has found nothing or was skipped. -/
def afterLookup (r : Request) (index : ℕ) (body : ItemBody) : Item :=
  match body.validate r.apiKeyId with
  | .error (code, message) => .finished (.failed index code message)
  | .ok args => .sending body (.getSender args)

/-- `processItem`, up to its first `await`. -/
def processItem (r : Request) (index : ℕ) : Item :=
  match (r.items[index]?).join with
  | none => .finished (.failed index "INVALID_ITEM" "Each item must be an object")
  | some body => if body.idempotencyKey.truthy then .lookup body else afterLookup r index body

/-- The donation has returned or thrown, or goes on. What it returns has no `transactionHash`. -/
def afterSend (cfg : Config) (index : ℕ) (body : ItemBody) : Custodial.Call → Item
  | .returned _ res =>
    let result : ItemResult :=
      { index := some index, status := some .success, donationId := some res.id }
    if body.idempotencyKey.truthy then .storing body result else .finished result
  | .threw _ e => .finished (.failed index (orElse (cfg.thrownCode e) "DONATION_FAILED")
      (orElse (some e.message) "Donation failed"))
  | c => .sending body c

/-- What the environment answers to the statement an item is suspended on. -/
structure ItemEnv where
  custodial : Custodial.Env
  /-- The error of the statement on `idempotency_keys`, should it fail. -/
  dbError : Option AppError

/-- The network accepts the payment of the donation. -/
def accepts : Custodial.Call → Custodial.Env → Bool
  | .sendDonation _ _, env => env.answer.isOk
  | _, _ => false

/-- Resume an item: it runs to its next `await`. -/
def resumeItem (cfg : Config) (sh : Shared) (r : Request) (index : ℕ) :
    Item → ItemEnv → Shared × Item
  -- the record is looked for without the API key; a lookup that fails is skipped
  | .lookup body, env =>
    match env.dbError, get sh.rows (body.idempotencyKey.bind cfg.showNumber) none
        env.custodial.now with
    | none, .ok (some cached) =>
      (sh, .finished (.spread { index := some index, status := some .success } cached.response))
    | _, _ => (sh, afterLookup r index body)
  | .sending body c, env =>
    let out := Custodial.resume cfg.custodial sh.custodial c env.custodial
    let payments := if accepts c env.custodial then
        ⟨r.keyAt index, env.custodial.now⟩ :: sh.payments else sh.payments
    ({ sh with custodial := out.1, payments }, afterSend cfg index body out.2)
  -- the hash is `null`; whether the record was stored is not looked at
  | .storing body result, env =>
    match env.dbError, store sh.rows (body.idempotencyKey.bind cfg.showNumber) none result none none
        env.custodial.now with
    | none, .ok rows => ({ sh with rows }, .finished result)
    | _, _ => (sh, .finished result)
  | .waiting, _ => (sh, .waiting)
  | .finished result, _ => (sh, .finished result)

/-! ## Requests -/

/-- What a module exports: an instance of its class, or the class. -/
inductive Exported where
  | anInstance
  | theClass
  deriving DecidableEq

/-- `module.exports = new IdempotencyService()`. -/
def idempotencyServiceModule : Exported := .anInstance

def newIdempotencyService : Exported → Except AppError Unit
  | .anInstance => .error (.wrongType "IdempotencyService is not a constructor")
  | .theClass => .ok ()

/-- An answer to the request as a whole. -/
structure Refusal where
  status : ℕ
  code : String
  message : String
  deriving DecidableEq

/-- A request whose items are processed. -/
structure Batch where
  request : Request
  admittedAt : ℕ
  /-- The first item of the chunk under way. -/
  start : ℕ
  items : List Item
  responded : Bool

inductive Call where
  | idle
  | refused (refusal : Refusal)
  | threw (r : Request) (admittedAt : ℕ) (e : AppError)
  | batch (b : Batch)

inductive Event where
  | arrive (r : Request) (now : ℕ)
  | item (index : ℕ) (env : ItemEnv)
  | chunk

def Request.quotaKey (r : Request) : String :=
  "bulk_donation_quota:" ++ (match r.apiKeyId.filter (· ≠ 0) with
    | some id => toString id
    | none => r.ip)

def windowMs : ℕ := 60000

def maxPerWindow : ℕ := 50

/-- The checks of the handler and the quota: one unit for each item. -/
def checkAndConsume (sh : Shared) (r : Request) (now : ℕ) : Except Refusal Shared :=
  match r.donations with
  | none => .error ⟨400, "INVALID_PAYLOAD", "'donations' must be an array"⟩
  | some donations =>
    if donations.length = 0 ∨ 50 < donations.length then
      .error ⟨400, "INVALID_BATCH_SIZE", "Batch must contain 1–50 items"⟩
    else
      let timestamps := (sh.quota r.quotaKey).filter (now < · + windowMs)
      if maxPerWindow < timestamps.length + donations.length then
        .error ⟨429, "RATE_LIMIT_EXCEEDED", "Bulk donation quota exceeded (50 items/min)"⟩
      else
        let timestamps := timestamps ++ List.replicate donations.length now
        .ok { sh with quota := Function.update sh.quota r.quotaKey timestamps }

/-- Begin the chunk of items from `start` on. -/
def Batch.begin (b : Batch) (start concurrency : ℕ) : Batch :=
  { b with
    start
    items := b.items.mapIdx fun j item ↦
      if start ≤ j ∧ j < start + concurrency then processItem b.request j else item }

/-- The first iteration of the loop. A concurrency that is no number, or not a positive one, begins
no item. -/
def Batch.first (cfg : Config) (b : Batch) : Batch := b.begin 0 (cfg.concurrency.getD 0).toNat

/-- The loop after its `await`: the chunk is done and the next one begins, or all are. Adding what
is no number ends the loop, and without a positive concurrency it goes on forever. -/
def Batch.next (cfg : Config) (b : Batch) : Batch :=
  match cfg.concurrency with
  | none => { b with responded := true }
  | some concurrency =>
    let stop := b.start + concurrency.toNat
    if concurrency ≤ 0 ∨ b.responded then b
    else if ((b.items.take stop).drop b.start).all (·.result.isSome) then
      if stop < b.items.length then b.begin stop concurrency.toNat else { b with responded := true }
    else b

/-- The handler, up to its first `await`. -/
def handle (cfg : Config) (exported : Exported) (sh : Shared) (r : Request) (now : ℕ) :
    Shared × Call :=
  match checkAndConsume sh r now with
  | .error refusal => (sh, .refused refusal)
  | .ok sh =>
    match newIdempotencyService exported with
    | .error e => (sh, .threw r now e)
    | .ok _ => (sh, .batch (.first cfg
        { request := r, admittedAt := now, start := 0
          items := List.replicate r.items.length .waiting, responded := false }))

/-- Resume a request. An item is resumed even after the response, when its record is on its way. -/
def resume (cfg : Config) (exported : Exported) (sh : Shared) : Call → Event → Shared × Call
  | .idle, .arrive r now => handle cfg exported sh r now
  | .batch b, .item index env =>
    match b.items[index]? with
    | none => (sh, .batch b)
    | some item =>
      let out := resumeItem cfg sh b.request index item env
      (out.1, .batch { b with items := b.items.set index out.2 })
  | .batch b, .chunk => (sh, .batch (b.next cfg))
  | c, _ => (sh, c)

def step (cfg : Config) (exported : Exported) {ι : Type*} [DecidableEq ι] :
    Calls ι Shared Call → ι × Event → Calls ι Shared Call :=
  Calls.step (resume cfg exported)

/-! ## What must hold -/

/-- A request that has passed the checks, with the time at which it did. -/
def Call.admitted : Call → Option (Request × ℕ)
  | .threw r now _ => some (r, now)
  | .batch b => some (b.request, b.admittedAt)
  | _ => none

def Call.answered : Call → Bool
  | .idle => false
  | .batch b => b.responded
  | _ => true

def Call.reported (n : ℕ) : Call → Option ItemResult
  | .batch b => if b.responded then (b.items[n]?).bind (·.result) else none
  | _ => none

/-- Two times that are within the lifetime of one key. -/
def Within (t t' : ℕ) : Prop := t < t' + defaultTtl ∧ t' < t + defaultTtl

/-- An item of one request repeats an item of another, or of the same: both have the same
idempotency key and API key, within the lifetime of the key. -/
structure Repeats (x y : Request × ℕ) (m n : ℕ) : Prop where
  keyed : (x.1.keyAt m).isSome
  same : x.1.keyAt m = y.1.keyAt n
  within : Within x.2 y.2

/-- Items with one key are paid once in the key's lifetime, report the same once they are
answered, and share no donation with the items of another API key. -/
structure BulkSound {ι : Type*} (s : Calls ι Shared Call) : Prop where
  paid_once : s.shared.payments.Pairwise fun p q ↦
    p.key.isSome → p.key = q.key → ¬Within p.paidAt q.paidAt
  repeated : ∀ i j m n x y, (s.call i).admitted = some x → (s.call j).admitted = some y →
    (i, m) ≠ (j, n) → Repeats x y m n → (s.call i).answered → (s.call j).answered →
    ∃ r r', (s.call i).reported m = some r ∧ (s.call j).reported n = some r'
      ∧ r.outcome = r'.outcome
  separate : ∀ i j m n x y r r' id, (s.call i).admitted = some x → (s.call j).admitted = some y →
    x.1.apiKey ≠ y.1.apiKey → (s.call i).reported m = some r → (s.call j).reported n = some r' →
    r.donationId = some id → r'.donationId ≠ some id

/-- The request that an event brings in, when it passes the checks. -/
def entering (sh : Shared) : Call → Event → Option (Request × ℕ)
  | .idle, .arrive r now => if (checkAndConsume sh r now).isOk then some (r, now) else none
  | _, _ => none

/-- A request that passes the checks brings no item that repeats one of its own items or one of an
earlier request. -/
def NewKeys {ι : Type*} (s : Calls ι Shared Call) (a : ι × Event) : Prop :=
  ∀ x, entering s.shared (s.call a.1) a.2 = some x →
    (∀ m n, m ≠ n → ¬Repeats x x m n) ∧
    ∀ j y m n, (s.call j).admitted = some y → ¬Repeats x y m n

/-! ## No item is ever processed -/

theorem Repeats.symm {x y : Request × ℕ} {m n : ℕ} (h : Repeats x y m n) : Repeats y x n m where
  keyed := h.same ▸ h.keyed
  same := h.same.symm
  within := h.within.symm

/-- The items of the request are being processed, or have been. -/
def Call.isBatch : Call → Bool
  | .batch _ => true
  | _ => false

section Stopped

variable {cfg : Config} {sh : Shared} {c : Call} {e : Event} {ι : Type*} {s : Calls ι Shared Call}

theorem reported_of_not_isBatch (hc : c.isBatch = false) (n : ℕ) : c.reported n = none := by
  cases c with
  | batch b => cases hc
  | _ => rfl

theorem answered_of_admitted {x : Request × ℕ} (hc : c.isBatch = false)
    (h : c.admitted = some x) : c.answered = true := by
  cases c with
  | batch b => cases hc
  | threw r now e => rfl
  | _ => cases h

theorem checkAndConsume_eq_ok {r : Request} {now : ℕ} {sh' : Shared}
    (h : checkAndConsume sh r now = .ok sh') : ∃ quota, sh' = { sh with quota } := by
  rw [checkAndConsume] at h
  split at h
  · cases h
  · split at h
    · cases h
    · dsimp only at h
      split at h
      · cases h
      · cases h
        exact ⟨_, rfl⟩

/-- **The inversion of a step.** With the module as it is, a request that passes the checks throws;
every other step leaves the calls and the payments alone. -/
theorem resume_of_not_isBatch (hc : c.isBatch = false) :
    (resume cfg idempotencyServiceModule sh c e).1.payments = sh.payments ∧
    (resume cfg idempotencyServiceModule sh c e).2.isBatch = false ∧
    (resume cfg idempotencyServiceModule sh c e).2.admitted = (entering sh c e).or c.admitted := by
  cases c with
  | batch b => cases hc
  | idle =>
    cases e with
    | arrive r now =>
      -- refused by the checks, or admitted and then stopped by the constructor
      simp only [resume, handle, entering]
      cases hadmit : checkAndConsume sh r now with
      | error refusal => exact ⟨rfl, rfl, rfl⟩
      | ok sh' =>
        obtain ⟨quota, rfl⟩ := checkAndConsume_eq_ok hadmit
        exact ⟨rfl, rfl, rfl⟩
    | _ => exact ⟨rfl, rfl, rfl⟩
  | _ => exact ⟨rfl, rfl, rfl⟩

/-- No item has been paid or is being processed, and no two items that were let in repeat each
other. -/
structure Stopped (s : Calls ι Shared Call) : Prop where
  unpaid : s.shared.payments = []
  calls : ∀ i, (s.call i).isBatch = false
  fresh : ∀ i j m n x y, (s.call i).admitted = some x → (s.call j).admitted = some y →
    (i, m) ≠ (j, n) → ¬Repeats x y m n

theorem Stopped.sound (h : Stopped s) : BulkSound s where
  paid_once := by
    rw [h.unpaid]
    exact List.Pairwise.nil
  repeated i j m n x y hx hy hne hrep := absurd hrep (h.fresh i j m n x y hx hy hne)
  separate i j m n x y r r' id _ _ _ hr := by
    rw [reported_of_not_isBatch (h.calls i) m] at hr
    cases hr

variable [DecidableEq ι]

/-- After a step the resumed call is the request that entered, or was admitted before. -/
theorem admitted_step_self (hs : ∀ i, (s.call i).isBatch = false) (i : ι) (e : Event) :
    ((step cfg idempotencyServiceModule s (i, e)).call i).admitted
      = (entering s.shared (s.call i) e).or (s.call i).admitted := by
  rw [step, Calls.step_call_self]
  exact (resume_of_not_isBatch (hs i)).2.2

theorem admitted_step_of_ne {i j : ι} (e : Event) (hj : j ≠ i) :
    ((step cfg idempotencyServiceModule s (i, e)).call j).admitted = (s.call j).admitted := by
  rw [step, Calls.step_call_of_ne s e hj]

theorem isBatch_step (hs : ∀ i, (s.call i).isBatch = false) (i j : ι) (e : Event) :
    ((step cfg idempotencyServiceModule s (i, e)).call j).isBatch = false := by
  by_cases hj : j = i
  · subst hj
    rw [step, Calls.step_call_self]
    exact (resume_of_not_isBatch (hs j)).2.1
  · rw [step, Calls.step_call_of_ne s e hj]
    exact hs j

theorem admitted_of_entering {x : Request × ℕ} (h : entering sh c e = some x) :
    c.admitted = none := by
  cases c with
  | idle => rfl
  | refused refusal => rfl
  | _ => cases h

/-- The items admitted after a step were admitted before, or enter now. -/
theorem admitted_step_cases (hs : ∀ i, (s.call i).isBatch = false) {i j : ι} {e : Event}
    {x : Request × ℕ}
    (h : ((step cfg idempotencyServiceModule s (i, e)).call j).admitted = some x) :
    (j = i ∧ entering s.shared (s.call i) e = some x) ∨ (s.call j).admitted = some x := by
  by_cases hj : j = i
  · subst hj
    rw [admitted_step_self hs, Option.or_eq_some_iff] at h
    rcases h with h | ⟨-, h⟩
    · exact .inl ⟨rfl, h⟩
    · exact .inr h
  · rw [admitted_step_of_ne e hj] at h
    exact .inr h

theorem Stopped.step {a : ι × Event} (h : Stopped s) (ha : NewKeys s a) :
    Stopped (step cfg idempotencyServiceModule s a) := by
  obtain ⟨i, e⟩ := a
  refine ⟨?_, fun j ↦ isBatch_step h.calls i j e, ?_⟩
  · exact (resume_of_not_isBatch (h.calls i)).1.trans h.unpaid
  · intro j k m n x y hx hy hne hrep
    rcases admitted_step_cases h.calls hx with ⟨rfl, hx'⟩ | hx' <;>
      rcases admitted_step_cases h.calls hy with ⟨rfl, hy'⟩ | hy'
    · -- two items of the request that enters
      obtain rfl : x = y := Option.some.inj (hx'.symm.trans hy')
      exact (ha x hx').1 m n (fun hmn ↦ hne (by rw [hmn])) hrep
    · -- an item that enters and one of an earlier request
      exact (ha x hx').2 k y m n hy' hrep
    · exact (ha y hy').2 j x n m hx' hrep.symm
    · exact h.fresh j k m n x y hx' hy' hne hrep

/-- A request that brings a repeated item is answered without a result for it. -/
theorem Stopped.not_sound {a : ι × Event} (h : Stopped s) (ha : ¬NewKeys s a) :
    ¬BulkSound (Bulk.step cfg idempotencyServiceModule s a) := by
  obtain ⟨i, e⟩ := a
  intro hsound
  have hcalls : ∀ j, ((Bulk.step cfg idempotencyServiceModule s (i, e)).call j).isBatch = false :=
    fun j ↦ isBatch_step h.calls i j e
  -- whichever items repeat each other, both calls are answered and neither reports anything
  have key : ∀ j k m n x y,
      ((Bulk.step cfg idempotencyServiceModule s (i, e)).call j).admitted = some x →
      ((Bulk.step cfg idempotencyServiceModule s (i, e)).call k).admitted = some y →
      (j, m) ≠ (k, n) → ¬Repeats x y m n := by
    intro j k m n x y hx hy hne hrep
    obtain ⟨r, -, hr, -⟩ := hsound.repeated j k m n x y hx hy hne hrep
      (answered_of_admitted (hcalls j) hx) (answered_of_admitted (hcalls k) hy)
    rw [reported_of_not_isBatch (hcalls j) m] at hr
    cases hr
  refine ha fun x hx ↦ ?_
  have hself : ((Bulk.step cfg idempotencyServiceModule s (i, e)).call i).admitted = some x := by
    rw [admitted_step_self h.calls, hx, Option.some_or]
  refine ⟨fun m n hmn ↦ ?_, fun j y m n hy ↦ ?_⟩
  · refine key i i m n x x hself hself ?_
    exact fun heq ↦ hmn (Prod.mk.inj heq).2
  · have hj : j ≠ i := by
      rintro rfl
      rw [admitted_of_entering hx] at hy
      cases hy
    refine key i j m n x y hself ((admitted_step_of_ne e hj).trans hy) ?_
    exact fun heq ↦ hj (Prod.mk.inj heq).1.symm

end Stopped

/-! ## Runs -/

/-- **Bulk donations.** Along a run of requests, in any order and however interleaved, items with
one key are paid once, report the result of the first and share none with another API key exactly
when no request that passes the checks brings a repeated item: a repeated item never reports a
result. -/
theorem bulk_items_once (cfg : Config) {ι : Type*} [DecidableEq ι] {s : Calls ι Shared Call}
    (hcalls : ∀ i, s.call i = .idle) (hunpaid : s.shared.payments = []) (as : List (ι × Event)) :
    Always (step cfg idempotencyServiceModule) BulkSound s as
      ↔ Along (step cfg idempotencyServiceModule) NewKeys s as := by
  have hs : Stopped s := by
    refine ⟨hunpaid, fun i ↦ ?_, fun i j m n x y hx ↦ ?_⟩
    · rw [hcalls i]
      rfl
    · rw [hcalls i] at hx
      cases hx
  exact always_iff_along (fun _ h ↦ h.sound) (fun _ _ h ha ↦ h.step ha)
    (fun _ _ h ha ↦ h.not_sound ha) hs as

section Examples

theorem Request.lt_length_of_keyAt {r : Request} {n : ℕ} (h : (r.keyAt n).isSome) :
    n < r.items.length := by
  by_contra hn
  rw [keyAt, List.getElem?_eq_none (by omega)] at h
  cases hkey : r.apiKey <;> simp [hkey] at h

/-- The default concurrency, and services that keep secrets as they are. -/
def plainConfig : Config where
  custodial := Custodial.plainServices
  bulkDonationConcurrency := none
  thrownCode _ := none
  showNumber _ := ""

def twoUsers : Calls Bool Shared Call where
  shared := ⟨fun _ ↦ [], [], Custodial.twoUsers, []⟩
  call _ := .idle

def fiveXlm (key : String) : ItemBody where
  idempotencyKey := .text key
  senderId := .number 1
  receiverId := .number 2
  amount := .text "5"

def requestOf (keys : List String) : Request where
  apiKey := some "sk_live_1"
  apiKeyId := some 1
  ip := "127.0.0.1"
  donations := some (keys.map fun key ↦ some (fiveXlm key))

/-- The second item repeats the first, and the answer is an error without results. -/
theorem bulk_repeated_item_unreported :
    (step plainConfig idempotencyServiceModule twoUsers
        (true, .arrive (requestOf ["order-17", "order-17"]) 0)).call true
      = .threw (requestOf ["order-17", "order-17"]) 0
          (.wrongType "IdempotencyService is not a constructor") ∧
    ¬BulkSound (step plainConfig idempotencyServiceModule twoUsers
        (true, .arrive (requestOf ["order-17", "order-17"]) 0)) := by
  have hcall : (step plainConfig idempotencyServiceModule twoUsers
      (true, .arrive (requestOf ["order-17", "order-17"]) 0)).call true
      = .threw (requestOf ["order-17", "order-17"]) 0
          (.wrongType "IdempotencyService is not a constructor") := rfl
  refine ⟨hcall, fun h ↦ ?_⟩
  have hrep : Repeats (requestOf ["order-17", "order-17"], 0)
      (requestOf ["order-17", "order-17"], 0) 0 1 := by
    refine ⟨by decide, by decide, ?_⟩
    rw [Within, defaultTtl]
    decide
  obtain ⟨r, -, hr, -⟩ := h.repeated true true 0 1 _ _ (by rw [hcall]; rfl) (by rw [hcall]; rfl)
    (by decide) hrep (by rw [hcall]; rfl) (by rw [hcall]; rfl)
  rw [hcall] at hr
  cases hr

theorem not_repeats_single (key : String) (now : ℕ) {m n : ℕ} (hmn : m ≠ n) :
    ¬Repeats (requestOf [key], now) (requestOf [key], now) m n := by
  intro h
  have hm : m < 1 := Request.lt_length_of_keyAt h.keyed
  have hn : n < 1 := Request.lt_length_of_keyAt h.symm.keyed
  omega

theorem bulk_items_once_distinct :
    Always (step plainConfig idempotencyServiceModule) BulkSound twoUsers
      [(true, .arrive (requestOf ["order-17"]) 0),
        (false, .arrive (requestOf ["order-18"]) 5)] := by
  refine (bulk_items_once plainConfig (fun _ ↦ rfl) rfl _).mpr ⟨?_, ?_, trivial⟩
  · rintro x hx
    obtain rfl : (requestOf ["order-17"], 0) = x := Option.some.inj hx
    exact ⟨fun m n ↦ not_repeats_single "order-17" 0, fun j y m n hy ↦ nomatch hy⟩
  · rintro x hx
    obtain rfl : (requestOf ["order-18"], 5) = x := Option.some.inj hx
    refine ⟨fun m n ↦ not_repeats_single "order-18" 5, fun j y m n hy hrep ↦ ?_⟩
    cases j with
    | false => cases hy
    | true =>
      obtain rfl : (requestOf ["order-17"], 0) = y := Option.some.inj hy
      have hm : m < 1 := Request.lt_length_of_keyAt hrep.keyed
      have hn : n < 1 := Request.lt_length_of_keyAt hrep.symm.keyed
      obtain rfl : m = 0 := by omega
      obtain rfl : n = 0 := by omega
      exact absurd hrep.same (by decide)

end Examples

end StellarDonations.Bulk
