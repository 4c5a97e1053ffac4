import StellarDonations.Concurrency.Run
import StellarDonations.Donations.Validation

/-!
# Creating a donation record

`DonationService.createDonationRecord`: a request is checked, its amount converted to XLM, the
payment submitted when the service can sign it, and the donation recorded. The replay lookup for
the caller's idempotency key stands between the payment and the record, so a retry reaches the
network before it is recognised as one.

What the payment step submits is logged with the caller's key, and what calls return is logged too:
the results below are about the payments and the records of one key over a whole run.
-/

namespace StellarDonations.Donations

open Concurrency JsString Stellar Transactions

/-! ## Requests and their environment -/

/-- An asset as a caller gives it: normalized already, or to be parsed. -/
inductive AssetInput where
  | normalized (asset : Asset)
  | raw (text : String)
  deriving DecidableEq

/-- A validity bound given as a date: outer option for presence, inner for a parseable date. -/
abbrev DateInput := Option (Option ℤ)

/-- The arguments of `createDonationRecord`. -/
structure Request where
  amount : ℚ
  currency : String := "XLM"
  donor : Option String
  recipient : Option String
  memo : Option String := none
  notes : Option String := none
  tags : List String := []
  memoType : String := "text"
  apiKeyId : Option ℕ := none
  apiKeyRole : String := "user"
  idempotencyKey : Option String := none
  receivedAmount : Option ℚ := none
  campaignId : Option ℕ := none
  anonymous : Bool := false
  sourceAsset : Option AssetInput := none
  sourceAmount : Option ℚ := none
  sendAsset : Option AssetInput := none
  receiveAsset : Option AssetInput := none
  slippageTolerance : Option ℚ := none
  asset : Option AssetInput := none
  /-- Unix seconds. -/
  validAfter : ℚ := 0
  validBefore : ℚ := 0
  validFrom : DateInput := none
  validUntil : DateInput := none
  memoEnvelope : Option String := none
  encryptionMetadata : Option String := none
  contractAddress : Option String := none

/-- The collaborators of the service that the request passes through. -/
structure Services where
  config : Config
  sanitizeIdentifier : String → String
  generatePseudonymousId : String → String
  /-- For text memos; throws on an invalid one. -/
  validateAndSanitizeMemo : Option String → Except AppError String
  /-- For the other memo types; reports an invalid one. -/
  validateWithType : Option String → String → Except (ErrorCode × String) String
  validateTags : List String → String → Except AppError Unit
  parseAssetInput : AssetInput → String → Except AppError Asset
  toUpperCase : String → String
  /-- `getSecretForPublicKey`, for a service that has it. -/
  getSecretForPublicKey : String → Option String
  serviceSecretKey : Option String

/-- A path found by `discoverBestPath`. -/
structure PathEstimate where
  path : List Asset
  conversionRate : Option ℚ
  destAmount : ℚ

/-- What `invokeContract` returns when it does not throw. -/
inductive ContractAnswer where
  | succeeded (result : PaymentResult)
  | failed (returnValue : Option String)

/-- What the clock, the price oracle, the network and the database answer during one call. -/
structure Env where
  now : ℕ
  /-- The first and last millisecond of the current day. -/
  day : ℕ × ℕ
  convertToXLM : ℚ → String → Except AppError ℚ
  /-- Whether the recipient's account exists, from the cache or the network. -/
  recipientExists : Except AppError Bool
  sendDonation : Answer
  invokeContract : Except AppError ContractAnswer
  discoverBestPath : Except AppError (Option PathEstimate)
  pathPayment : Answer
  /-- The error of the replay lookup, should the statement fail. -/
  lookupError : Option AppError := none
  /-- Whether a transaction of the last 30 days has this memo, at each attempt. -/
  memoTaken : ℕ → String → Bool
  nonce : ℕ → String
  uuid : String

/-! ## The checks before the payment -/

/-- A validity bound after the dates are resolved: `none` is not a number. -/
def resolveBound (given : ℚ) (date : DateInput) : Option ℚ :=
  match date with
  | none => some given
  | some none => none
  | some (some ms) => some (⌊(ms : ℚ) / 1000⌋ : ℤ)

/-- A validity bound as a non-negative integer. -/
def requireTimestamp (field : String) (bound : Option ℚ) : Except AppError ℤ :=
  match bound with
  | some q => if q.den = 1 ∧ 0 ≤ q then .ok q.num
      else .error (.validation (field ++ " must be a non-negative Unix timestamp"))
  | none => .error (.validation (field ++ " must be a non-negative Unix timestamp"))

def validityBounds (r : Request) (now : ℕ) : Except AppError (ℤ × ℤ) := do
  let validAfter ← requireTimestamp "validAfter" (resolveBound r.validAfter r.validFrom)
  let validBefore ← requireTimestamp "validBefore" (resolveBound r.validBefore r.validUntil)
  if validAfter ≠ 0 ∧ validBefore ≠ 0 ∧ validBefore ≤ validAfter then
    throw (.validation "validAfter must be strictly less than validBefore")
  if validBefore ≠ 0 ∧ validBefore ≤ (now / 1000 : ℕ) then
    throw (.businessLogic .transactionExpired "validUntil must be in the future")
  return (validAfter, validBefore)

/-- The donor as given: `Anonymous` when there is none. -/
def rawDonor (svc : Services) (r : Request) : String :=
  match orNull r.donor with
  | some donor => svc.sanitizeIdentifier donor
  | none => "Anonymous"

/-- The pseudonym that replaces the donor of an anonymous donation. -/
def pseudonymousId (svc : Services) (r : Request) : Option String :=
  if r.anonymous ∧ rawDonor svc r ≠ "" ∧ rawDonor svc r ≠ "Anonymous"
  then some (svc.generatePseudonymousId (rawDonor svc r)) else none

def sanitizedDonor (svc : Services) (r : Request) : String :=
  (pseudonymousId svc r).getD (rawDonor svc r)

def sanitizedRecipient (svc : Services) (r : Request) : Option String :=
  (orNull r.recipient).map svc.sanitizeIdentifier

def xlmAmount (svc : Services) (r : Request) (env : Env) : Except AppError ℚ :=
  let normalizedCurrency := svc.toUpperCase r.currency
  if normalizedCurrency = "XLM" then .ok r.amount
  else (env.convertToXLM r.amount normalizedCurrency).mapError fun e ↦
    .validation ("Currency conversion failed: " ++ e.message)

/-- Source and destination asset of the payment: each kind of input overrides the ones before. -/
def assets (svc : Services) (r : Request) : Except AppError (Asset × Asset) := do
  let source ← match r.sourceAsset with
    | some a => svc.parseAssetInput a "sourceAsset"
    | none => pure .native
  let direct ← match r.asset with
    | some (.normalized a) => pure (a, a)
    | some a => do let a ← svc.parseAssetInput a "asset"; pure (a, a)
    | none => pure (source, .native)
  match r.sendAsset, r.receiveAsset with
  | some send, some receive => do
    let source ← svc.parseAssetInput send "sendAsset"
    let dest ← svc.parseAssetInput receive "receiveAsset"
    return (source, dest)
  | _, _ => return direct

/-- `resolvePaymentSourceSecret`: the donor's own secret in mock mode, else the service's. -/
def resolvePaymentSourceSecret (svc : Services) (donor : String) : Option String :=
  if donor = "" then orNull svc.serviceSecretKey
  else (orNull (svc.getSecretForPublicKey donor)).or (orNull svc.serviceSecretKey)

/-- `requiresApproval`: the amount is above the multi-signature threshold. -/
def requiresApproval (cfg : Config) (xlm : ℚ) : Bool :=
  cfg.multisigThresholdXLM.any (· < xlm)

structure Prepared where
  validAfter : ℤ
  validBefore : ℤ
  memo : String
  xlm : ℚ
  overpayment : Option Overpayment
  sourceAsset : Asset
  destAsset : Asset
  deriving DecidableEq

/-- Donor and recipient differ, unless the donor is anonymous. -/
def checkParties (svc : Services) (r : Request) : Except AppError Unit :=
  if rawDonor svc r ≠ "" ∧ rawDonor svc r ≠ "Anonymous" ∧
      orNull (sanitizedRecipient svc r) = some (rawDonor svc r) then
    .error (.validationWith .invalidRequest "Sender and recipient cannot be the same wallet")
  else .ok ()

/-- The memo validation of the request's memo type; only text memos throw right away. -/
def memoResult (svc : Services) (r : Request) :
    Except AppError (Except (ErrorCode × String) String) :=
  if r.memoType ≠ "" ∧ r.memoType ≠ "text" then .ok (svc.validateWithType r.memo r.memoType)
  else (svc.validateAndSanitizeMemo r.memo).map .ok

def checkSourceAmount (svc : Services) (r : Request) : Except AppError Unit :=
  match r.sourceAmount with
  | some a => svc.config.validatePaymentAmount a "sourceAmount"
  | none => .ok ()

def checkPositive (r : Request) : Except AppError Unit :=
  if r.amount ≤ 0 then .error (.validation "Amount must be positive") else .ok ()

/-- The checks of `createDonationRecord`, in the order of the source. -/
def prepare (svc : Services) (st : Store) (r : Request) (env : Env) : Except AppError Prepared := do
  let bounds ← validityBounds r env.now
  checkParties svc r
  let result ← memoResult svc r
  checkSourceAmount svc r
  let memo ← result.mapError fun (code, message) ↦ AppError.validationWith code message
  checkPositive r
  svc.validateTags r.tags r.apiKeyRole
  let xlm ← xlmAmount svc r env
  svc.config.validateDonationAmount st xlm (sanitizedDonor svc r) env.day
  let pair ← assets svc r
  return {
    validAfter := bounds.1
    validBefore := bounds.2
    memo := memo
    xlm := xlm
    overpayment := buildOverpaymentRecord (r.receivedAmount.getD r.amount) r.amount
      (calculateAnalyticsFee xlm)
    sourceAsset := pair.1
    destAsset := pair.2 }

/-! ## The payment -/

inductive Operation where
  | sendDonation (payment : Payment)
  | pathPayment (sourceAsset : Asset) (sourceAmount : ℚ) (destAsset : Asset) (minDestAmount : ℚ)
      (path : List Asset) (sourceSecret destinationPublic memo : String)
  | invokeContract (address donor : String) (amount : ℚ) (sourceSecret : String)
  deriving DecidableEq

/-- A submission made on behalf of an idempotency key. -/
structure Submission where
  key : Option String
  operation : Operation
  accepted : Bool
  deriving DecidableEq

/-- A payment that went through, with what the record keeps of it. -/
structure Paid where
  result : PaymentResult
  paymentMethod : PaymentMethod
  fallbackUsed : Bool := false
  path : List Asset := []
  conversionRate : Option ℚ := none

/-- `isPathPayment`: an asset to send other than the one received, unless a custom asset is used. -/
def isPathPayment (r : Request) (p : Prepared) : Bool :=
  r.asset.isNone && (r.sourceAsset.isSome ||
    (r.sendAsset.isSome && r.receiveAsset.isSome && !isSameAsset p.sourceAsset p.destAsset))

/-- The `sendDonation` call of both the direct payment and the fallback. -/
def directPayment (r : Request) (p : Prepared) (secret recipient : String) : Payment where
  sourceSecret := secret
  destinationPublic := some recipient
  amount := r.sourceAmount.getD p.xlm
  memo := p.memo
  asset := p.sourceAsset
  validAfter := p.validAfter
  validBefore := p.validBefore

/-- A payment without asset conversion: through the contract when one is given. -/
def submitDirect (svc : Services) (r : Request) (env : Env) (p : Prepared)
    (secret recipient : String) : List Submission × Except AppError Paid :=
  let key := orNull r.idempotencyKey
  match orNull r.contractAddress with
  | some address =>
    let op := Operation.invokeContract address (sanitizedDonor svc r)
      (r.sourceAmount.getD p.xlm) secret
    match env.invokeContract with
    | .error e => ([⟨key, op, false⟩], .error e)
    | .ok (.failed returnValue) =>
      ([⟨key, op, false⟩], .error ⟨.error, some .sorobanInvocationFailed,
        orElse returnValue "Soroban donation contract invocation failed"⟩)
    | .ok (.succeeded result) =>
      ([⟨key, op, true⟩], .ok { result, paymentMethod := .soroban })
  | none =>
    let op := Operation.sendDonation (directPayment r p secret recipient)
    match env.sendDonation with
    | .error e => ([⟨key, op, false⟩], .error e)
    | .ok result => ([⟨key, op, true⟩], .ok { result, paymentMethod := .direct })

/-- A path payment; between equal assets a rejected one falls back to a direct payment. -/
def submitPath (r : Request) (env : Env) (p : Prepared) (secret recipient : String)
    (estimate : PathEstimate) : List Submission × Except AppError Paid :=
  let key := orNull r.idempotencyKey
  let minDestAmount := estimate.destAmount * (1 - r.slippageTolerance.getD (1 / 100))
  let op := Operation.pathPayment p.sourceAsset (r.sourceAmount.getD p.xlm) p.destAsset
    minDestAmount estimate.path secret recipient p.memo
  match env.pathPayment with
  | .ok result => ([⟨key, op, true⟩], .ok
      { result, paymentMethod := .path, path := estimate.path
        conversionRate := estimate.conversionRate })
  | .error e =>
    if isSameAsset p.sourceAsset p.destAsset then
      let fallback := Operation.sendDonation (directPayment r p secret recipient)
      match env.sendDonation with
      | .error e => ([⟨key, op, false⟩, ⟨key, fallback, false⟩], .error e)
      | .ok result => ([⟨key, op, false⟩, ⟨key, fallback, true⟩], .ok
          { result, paymentMethod := .direct, fallbackUsed := true, path := estimate.path
            conversionRate := estimate.conversionRate })
    else ([⟨key, op, false⟩], .error e)

/-- The guard of the payment: somebody can sign, somebody receives, and no approval is needed. -/
def payer (svc : Services) (r : Request) (xlm : ℚ) : Option (String × String) :=
  match resolvePaymentSourceSecret svc (sanitizedDonor svc r),
    orNull (sanitizedRecipient svc r) with
  | some secret, some recipient =>
    if requiresApproval svc.config xlm then none else some (secret, recipient)
  | _, _ => none

/-- The payment step: what it submits, and the payment that went through, if one was due. -/
def submitPayment (svc : Services) (r : Request) (env : Env) (p : Prepared) :
    List Submission × Except AppError (Option Paid) :=
  match payer svc r p.xlm with
  | none => ([], .ok none)
  | some (secret, recipient) =>
    match env.recipientExists with
    | .error e => ([], .error e)
    | .ok false => ([], .error (.businessLogic .recipientAccountNotFound
        ("Recipient account does not exist on the Stellar network. The recipient must fund their "
          ++ "account with at least 1 XLM before receiving donations.")))
    | .ok true =>
      if isPathPayment r p then
        match env.discoverBestPath with
        | .error e => ([], .error e)
        | .ok none =>
          ([], .error (.validation "No conversion path found for the requested asset pair"))
        | .ok (some estimate) =>
          ((submitPath r env p secret recipient estimate).1,
            (submitPath r env p secret recipient estimate).2.map some)
      else ((submitDirect svc r env p secret recipient).1,
        (submitDirect svc r env p secret recipient).2.map some)

/-! ## The record -/

/-- The search for a memo no recent transaction has; `n` attempts follow the current one. -/
def uniqueMemo (env : Env) (sanitized : String) : ℕ → ℕ → String → Except AppError String
  | 0, attempt, finalMemo =>
    if env.memoTaken attempt finalMemo then
      .error (.businessLogic .memoCollision ("Unable to generate a unique transaction memo after "
        ++ "3 attempts. Please retry the donation."))
    else .ok finalMemo
  | n + 1, attempt, finalMemo =>
    if env.memoTaken attempt finalMemo then
      uniqueMemo env sanitized n (attempt + 1) (sanitized ++ "-" ++ env.nonce attempt)
    else .ok finalMemo

/-- The memo the record gets: an empty one is not checked, another has three attempts. -/
def finalMemo (env : Env) (sanitized : String) : Except AppError String :=
  if sanitized = "" then .ok "" else uniqueMemo env sanitized 2 1 sanitized

/-- The argument of `Transaction.create`. The status of a donation that needs approval is the
property `AWAITING_APPROVAL` of `TRANSACTION_STATES`. -/
def draft (svc : Services) (r : Request) (env : Env) (p : Prepared) (paid : Option Paid)
    (memo : String) : Draft :=
  let approval := requiresApproval svc.config p.xlm
  let foreign := svc.toUpperCase r.currency ≠ "XLM"
  { amount := p.xlm
    originalAmount := if foreign then some r.amount else none
    originalCurrency := if foreign then some (svc.toUpperCase r.currency) else none
    donor := some (sanitizedDonor svc r)
    recipient := sanitizedRecipient svc r
    memo := memo
    memoType := r.memoType
    notes := r.notes
    tags := r.tags
    apiKeyId := r.apiKeyId
    idempotencyKey := r.idempotencyKey
    memoEnvelope := r.memoEnvelope
    encryptionMetadata := r.encryptionMetadata
    analyticsFee := some (calculateAnalyticsFee p.xlm)
    analyticsFeePercentage := some 2
    status := if approval then transactionStates.get "AWAITING_APPROVAL"
      else if paid.isSome then transactionStates.get "CONFIRMED"
      else transactionStates.get "PENDING"
    requiresApproval := approval
    requiredApprovals := if approval then some svc.config.multisigRequiredApprovals else none
    approvals := if approval then some [] else none
    approvalExpiresAt :=
      if approval then some (env.now + svc.config.multisigApprovalWindowMs) else none
    stellarTxId := paid.map (·.result.transactionId)
    stellarLedger := paid.map (·.result.ledger)
    confirmedAt := paid.map fun _ ↦ env.now
    payment := some {
      sourceAsset := p.sourceAsset
      sourceAmount := r.sourceAmount.getD p.xlm
      destinationAsset := p.destAsset
      destinationAmount := p.xlm
      paymentMethod := (paid.map (·.paymentMethod)).getD .recordOnly
      contractAddress := orNull r.contractAddress
      fallbackUsed := (paid.map (·.fallbackUsed)).getD false
      path := (paid.map (·.path)).getD []
      conversionRate := paid.bind (·.conversionRate)
      validAfter := p.validAfter
      validBefore := p.validBefore }
    overpaymentDetails := p.overpayment
    campaignId := r.campaignId
    pseudonymousId := pseudonymousId svc r }

/-- The store, the submissions so far, and the records returned to calls with a key. -/
structure World where
  store : Store
  submissions : List Submission
  returned : List (String × Record)

/-- The replay lookup in `donations_store`, made only for a non-empty key. -/
def replayLookup (st : Store) (r : Request) (env : Env) : Except AppError (Option Record) :=
  match orNull r.idempotencyKey, env.lookupError with
  | none, _ => .ok none
  | some _, some e => .error e
  | some key, none => .ok (st.selectByIdempotencyKey key)

/-- The part of `createDonationRecord` after the payment: replay, memo, record. -/
def recordDonation (svc : Services) (st : Store) (r : Request) (env : Env) (p : Prepared)
    (paid : Option Paid) : Except AppError (Store × Record) := do
  let existing ← replayLookup st r env
  match existing with
  | some tx => return (st, tx)
  | none =>
    let memo ← finalMemo env p.memo
    st.create (draft svc r env p paid memo) env.uuid env.now

/-- `createDonationRecord`: the state it leaves, and the record it returns or what it throws. -/
def createDonationRecord (svc : Services) (w : World) (r : Request) (env : Env) :
    World × Except AppError Record :=
  match prepare svc w.store r env with
  | .error e => (w, .error e)
  | .ok p =>
    let submitted := submitPayment svc r env p
    let w := { w with submissions := w.submissions ++ submitted.1 }
    match submitted.2 with
    | .error e => (w, .error e)
    | .ok paid =>
      match recordDonation svc w.store r env p paid with
      | .error e => (w, .error e)
      | .ok (store, tx) => ({ w with store }, .ok tx)

/-! ## What one call does -/

section Call

variable {svc : Services} {w : World} {r : Request} {env : Env} {p : Prepared}

theorem replayLookup_eq_some {st : Store} {tx : Record}
    (h : replayLookup st r env = .ok (some tx)) :
    ∃ k, orNull r.idempotencyKey = some k ∧ st.selectByIdempotencyKey k = some tx := by
  rw [replayLookup] at h
  cases hkey : orNull r.idempotencyKey with
  | none =>
    rw [hkey] at h
    cases h
  | some k =>
    cases herr : env.lookupError with
    | some e =>
      rw [hkey, herr] at h
      cases h
    | none =>
      rw [hkey, herr] at h
      exact ⟨k, rfl, Except.ok.inj h⟩

theorem recordDonation_eq_ok {st st' : Store} {paid : Option Paid} {tx : Record}
    (h : recordDonation svc st r env p paid = .ok (st', tx)) :
    (st' = st ∧ ∃ k, orNull r.idempotencyKey = some k ∧ st.selectByIdempotencyKey k = some tx) ∨
      ∃ memo, st.create (draft svc r env p paid memo) env.uuid env.now = .ok (st', tx) := by
  obtain ⟨existing, hlookup, h⟩ := Except.bind_eq_ok.mp h
  cases existing with
  | some existing =>
    cases h
    exact .inl ⟨rfl, replayLookup_eq_some hlookup⟩
  | none =>
    obtain ⟨memo, -, h⟩ := Except.bind_eq_ok.mp h
    exact .inr ⟨memo, h⟩

theorem submissions_createDonationRecord (svc : Services) (w : World) (r : Request) (env : Env) :
    ∃ subs, (createDonationRecord svc w r env).1.submissions = w.submissions ++ subs ∧
      (subs = [] ∨
        ∃ p, prepare svc w.store r env = .ok p ∧ subs = (submitPayment svc r env p).1) := by
  rw [createDonationRecord]
  cases hprep : prepare svc w.store r env with
  | error e => exact ⟨[], (List.append_nil _).symm, .inl rfl⟩
  | ok p =>
    refine ⟨(submitPayment svc r env p).1, ?_, .inr ⟨p, rfl, rfl⟩⟩
    dsimp only
    cases (submitPayment svc r env p).2 with
    | error e => rfl
    | ok paid =>
      dsimp only
      cases recordDonation svc w.store r env p paid with
      | error e => rfl
      | ok out => rfl

/-- A call that throws leaves the store; a call that returns leaves what `recordDonation` made. -/
theorem store_createDonationRecord (svc : Services) (w : World) (r : Request) (env : Env) :
    ((createDonationRecord svc w r env).1.store = w.store ∧
        ∃ e, (createDonationRecord svc w r env).2 = .error e) ∨
      ∃ p paid tx, prepare svc w.store r env = .ok p ∧
        (submitPayment svc r env p).2 = .ok paid ∧
        recordDonation svc w.store r env p paid
          = .ok ((createDonationRecord svc w r env).1.store, tx) ∧
        (createDonationRecord svc w r env).2 = .ok tx := by
  rw [createDonationRecord]
  cases hprep : prepare svc w.store r env with
  | error e => exact .inl ⟨rfl, e, rfl⟩
  | ok p =>
    dsimp only
    cases hpay : (submitPayment svc r env p).2 with
    | error e => exact .inl ⟨rfl, e, rfl⟩
    | ok paid =>
      dsimp only
      cases hrec : recordDonation svc w.store r env p paid with
      | error e => exact .inl ⟨rfl, e, rfl⟩
      | ok out => exact .inr ⟨p, paid, out.2, rfl, hpay, hrec, rfl⟩

theorem returned_createDonationRecord (svc : Services) (w : World) (r : Request) (env : Env) :
    (createDonationRecord svc w r env).1.returned = w.returned := by
  rw [createDonationRecord]
  cases prepare svc w.store r env with
  | error e => rfl
  | ok p =>
    dsimp only
    cases (submitPayment svc r env p).2 with
    | error e => rfl
    | ok paid =>
      dsimp only
      cases recordDonation svc w.store r env p paid with
      | error e => rfl
      | ok out => rfl

theorem xlmAmount_of_prepare {st : Store} (h : prepare svc st r env = .ok p) :
    xlmAmount svc r env = .ok p.xlm ∧ assets svc r = .ok (p.sourceAsset, p.destAsset) := by
  obtain ⟨bounds, -, h⟩ := Except.bind_eq_ok.mp h
  obtain ⟨-, h⟩ := Except.bind_const_eq_ok.mp h
  obtain ⟨result, -, h⟩ := Except.bind_eq_ok.mp h
  obtain ⟨-, h⟩ := Except.bind_const_eq_ok.mp h
  obtain ⟨memo, -, h⟩ := Except.bind_eq_ok.mp h
  obtain ⟨-, h⟩ := Except.bind_const_eq_ok.mp h
  obtain ⟨-, h⟩ := Except.bind_const_eq_ok.mp h
  obtain ⟨xlm, hxlm, h⟩ := Except.bind_eq_ok.mp h
  obtain ⟨-, h⟩ := Except.bind_const_eq_ok.mp h
  obtain ⟨pair, hpair, h⟩ := Except.bind_eq_ok.mp h
  cases h
  exact ⟨hxlm, hpair⟩

/-- No property of `TRANSACTION_STATES` is called `AWAITING_APPROVAL`. -/
theorem awaitingApproval_undefined : transactionStates.get "AWAITING_APPROVAL" = none := by
  decide

/-- A donation that needs approval is not paid when it is created. Its record carries the approvals
it needs and the time they must come in, and its status is `pending`. -/
theorem createDonationRecord_of_requiresApproval {w' : World} {tx : Record} {xlm : ℚ}
    (h : createDonationRecord svc w r env = (w', .ok tx))
    (hkey : ∀ k, orNull r.idempotencyKey = some k →
      w.store.indexed k = none ∧ w.store.selectByIdempotencyKey k = none)
    (hxlm : xlmAmount svc r env = .ok xlm) (happroval : requiresApproval svc.config xlm = true) :
    w'.submissions = w.submissions ∧ w'.store.getById tx.id = some tx ∧
      tx.status = TransactionState.pending.name ∧
      tx.requiredApprovals = some svc.config.multisigRequiredApprovals ∧
      tx.approvalExpiresAt = some (env.now + svc.config.multisigApprovalWindowMs) ∧
      tx.approvals = some [] := by
  rcases store_createDonationRecord svc w r env with ⟨-, e, he⟩ |
    ⟨p, paid, tx', hprep, hpay, hrec, hret⟩
  · rw [h] at he
    cases he
  rw [h] at hret
  cases hret
  have hp : p.xlm = xlm := Except.ok.inj ((xlmAmount_of_prepare hprep).1.symm.trans hxlm)
  have hpayer : payer svc r p.xlm = none := by
    rw [payer, hp]
    split
    · exact if_pos happroval
    · rfl
  have hsubs : w'.submissions = w.submissions := by
    obtain ⟨subs, hsubs, hsource⟩ := submissions_createDonationRecord svc w r env
    rw [h] at hsubs
    rcases hsource with rfl | ⟨p', hprep', rfl⟩
    · rw [hsubs, List.append_nil]
    · obtain rfl : p = p' := Except.ok.inj (hprep.symm.trans hprep')
      rw [hsubs, submitPayment, hpayer, List.append_nil]
  refine ⟨hsubs, ?_⟩
  rw [h] at hrec
  rcases recordDonation_eq_ok hrec with ⟨-, k, hk, hsel⟩ | ⟨memo, hcreate⟩
  · rw [(hkey k hk).2] at hsel
    cases hsel
  rcases Store.create_eq_ok hcreate with ⟨-, hindex⟩ | ⟨status, hstatus, -, rfl, hstore⟩
  · obtain ⟨k, hk, hindex⟩ := Option.bind_eq_some_iff.mp hindex
    rw [(hkey k hk).1] at hindex
    cases hindex
  have happ : requiresApproval svc.config p.xlm = true := by rw [hp, happroval]
  have hpending : status = .pending := by
    refine TransactionState.name_injective ?_
    rw [hstatus, draft, happ, if_pos rfl, awaitingApproval_undefined]
    rfl
  refine ⟨?_, ?_, ?_, ?_, ?_⟩
  · rw [hstore, Store.getById, Store.find_insertNew]
    rfl
  · rw [hpending]
    rfl
  · simp [Store.newRecord, draft, happ]
  · simp [Store.newRecord, draft, happ]
  · simp [Store.newRecord, draft, happ]

/-! ### The submissions of one call -/

/-- The outcomes of the submissions of one call carry the call's key; at most the last of them is
accepted, and there are two only when a rejected path payment between equal assets falls back. -/
structure Tried (r : Request) (subs : List Submission) (fellBack : Prop) : Prop where
  key : ∀ x ∈ subs, x.key = orNull r.idempotencyKey
  accepted : subs.countP (·.accepted) ≤ 1
  length : ¬fellBack → subs.length ≤ 1

/-- A rejected path payment between equal assets. -/
def FallsBack (svc : Services) (r : Request) (env : Env) : Prop :=
  r.asset = none ∧ r.sourceAsset ≠ none ∧ env.pathPayment.toOption = none ∧
    ∃ source dest, assets svc r = .ok (source, dest) ∧ isSameAsset source dest = true

theorem tried_nil (r : Request) (fellBack : Prop) : Tried r [] fellBack where
  key _ h := absurd h List.not_mem_nil
  accepted := Nat.zero_le 1
  length _ := Nat.zero_le 1

theorem tried_singleton (r : Request) (op : Operation) (accepted : Bool) (fellBack : Prop) :
    Tried r [⟨orNull r.idempotencyKey, op, accepted⟩] fellBack where
  key x hx := by rw [List.mem_singleton.mp hx]
  accepted := List.countP_le_length
  length _ := le_refl 1

theorem tried_submitDirect (secret recipient : String) (fellBack : Prop) :
    Tried r (submitDirect svc r env p secret recipient).1 fellBack := by
  rw [submitDirect]
  cases orNull r.contractAddress with
  | some address =>
    rcases env.invokeContract with e | (result | returnValue) <;> exact tried_singleton ..
  | none => rcases env.sendDonation with e | result <;> exact tried_singleton ..

theorem tried_submitPath (secret recipient : String) (estimate : PathEstimate)
    (hassets : assets svc r = .ok (p.sourceAsset, p.destAsset)) (hpath : isPathPayment r p = true) :
    Tried r (submitPath r env p secret recipient estimate).1 (FallsBack svc r env) := by
  rw [submitPath]
  cases hanswer : env.pathPayment with
  | ok result => exact tried_singleton ..
  | error e =>
    by_cases hsame : isSameAsset p.sourceAsset p.destAsset = true
    · have hfell : FallsBack svc r env := by
        simp only [isPathPayment, hsame, Bool.not_true, Bool.and_false, Bool.or_false,
          Bool.and_eq_true, Option.isNone_iff_eq_none, Option.isSome_iff_ne_none] at hpath
        exact ⟨hpath.1, hpath.2, by rw [hanswer]; rfl, _, _, hassets, hsame⟩
      simp only [hsame, if_true]
      rcases env.sendDonation with e | result <;>
        exact ⟨by simp, by simp, fun h ↦ absurd hfell h⟩
    · simp only [hsame]
      exact tried_singleton ..

theorem tried_submitPayment (hassets : assets svc r = .ok (p.sourceAsset, p.destAsset)) :
    Tried r (submitPayment svc r env p).1 (FallsBack svc r env) := by
  rw [submitPayment]
  cases payer svc r p.xlm with
  | none => exact tried_nil ..
  | some pair =>
    obtain ⟨secret, recipient⟩ := pair
    rcases env.recipientExists with e | (_ | _)
    · exact tried_nil ..
    · exact tried_nil ..
    · dsimp only
      split_ifs with hpath
      · rcases env.discoverBestPath with e | (_ | estimate)
        · exact tried_nil ..
        · exact tried_nil ..
        · exact tried_submitPath secret recipient estimate hassets hpath
      · exact tried_submitDirect ..

/-- A request that may pay: its amount is known, and the payment guard is open. -/
def MayPay (svc : Services) (r : Request) (env : Env) : Prop :=
  ∃ xlm, xlmAmount svc r env = .ok xlm ∧ (payer svc r xlm).isSome

theorem submitPayment_of_not_mayPay (hxlm : xlmAmount svc r env = .ok p.xlm)
    (h : ¬MayPay svc r env) : (submitPayment svc r env p).1 = [] := by
  have hpayer : payer svc r p.xlm = none :=
    Option.not_isSome_iff_eq_none.mp fun hsome ↦ h ⟨p.xlm, hxlm, hsome⟩
  rw [submitPayment, hpayer]

end Call

/-! ## Runs -/

/-- A call with its environment, or the execution of a write that an earlier call issued. -/
inductive Action where
  | call (r : Request) (env : Env)
  | flush (n : ℕ)

/-- What is returned to a call with a key is logged under the key. -/
def logReturn (r : Request) (out : World × Except AppError Record) : World :=
  match orNull r.idempotencyKey, out.2 with
  | some key, .ok tx => { out.1 with returned := (key, tx) :: out.1.returned }
  | _, _ => out.1

def step (svc : Services) (w : World) : Action → World
  | .call r env => logReturn r (createDonationRecord svc w r env)
  | .flush n => { w with store := w.store.flush n }

/-- The number of submissions of a kind made for a key. -/
def attempts (kind : Submission → Bool) (w : World) (key : String) : ℕ :=
  w.submissions.countP fun x ↦ x.key = some key && kind x

def SameRecord (w : World) : Prop :=
  ∀ key tx tx', (key, tx) ∈ w.returned → (key, tx') ∈ w.returned → tx.id = tx'.id

/-- At most one payment is accepted for each key. -/
def PaidAtMostOnce (w : World) : Prop := ∀ key, attempts (·.accepted) w key ≤ 1

def SubmittedAtMostOnce (w : World) : Prop := ∀ key, attempts (fun _ ↦ true) w key ≤ 1

/-- No call may pay for a key that has had a submission of this kind. -/
def NoRetryPays (kind : Submission → Bool) (svc : Services) (w : World) : Action → Prop
  | .call r env => ∀ key, orNull r.idempotencyKey = some key → attempts kind w key ≠ 0 →
      ¬MayPay svc r env
  | .flush _ => True

/-- The call does not fall back from a rejected path payment. -/
def NoFallback (svc : Services) : Action → Prop
  | .call r env => ¬FallsBack svc r env
  | .flush _ => True

section Runs

variable {svc : Services}

theorem submissions_logReturn (r : Request) (out : World × Except AppError Record) :
    (logReturn r out).submissions = out.1.submissions := by
  rw [logReturn]
  split <;> rfl

theorem store_logReturn (r : Request) (out : World × Except AppError Record) :
    (logReturn r out).store = out.1.store := by
  rw [logReturn]
  split <;> rfl

/-- One action adds at most one submission of a kind to a key, if a call makes at most one and no
retry pays. -/
theorem attempts_step_le {kind : Submission → Bool} {w : World} {a : Action}
    (hkind : ∀ r env p, a = .call r env → prepare svc w.store r env = .ok p →
      (submitPayment svc r env p).1.countP kind ≤ 1)
    (hretry : NoRetryPays kind svc w a) (key : String) (h : attempts kind w key ≤ 1) :
    attempts kind (step svc w a) key ≤ 1 := by
  cases a with
  | flush n => exact h
  | call r env =>
    obtain ⟨subs, hsubs, hsource⟩ := submissions_createDonationRecord svc w r env
    have hsplit : attempts kind (step svc w (.call r env)) key
        = attempts kind w key + subs.countP fun x ↦ x.key = some key && kind x := by
      rw [attempts, step, submissions_logReturn, hsubs, List.countP_append, attempts]
    rcases hsource with rfl | ⟨p, hprep, rfl⟩
    · rw [hsplit]
      exact h
    obtain ⟨hxlm, hassets⟩ := xlmAmount_of_prepare hprep
    have htried : Tried r (submitPayment svc r env p).1 (FallsBack svc r env) :=
      tried_submitPayment hassets
    by_cases hkey : orNull r.idempotencyKey = some key
    · by_cases hzero : attempts kind w key = 0
      · have hle : (submitPayment svc r env p).1.countP (fun x ↦ x.key = some key && kind x)
            ≤ (submitPayment svc r env p).1.countP kind :=
          List.countP_mono_left fun x _ hx ↦ (Bool.and_eq_true_iff.mp hx).2
        have := hkind r env p rfl hprep
        omega
      · have hnil := submitPayment_of_not_mayPay hxlm (hretry key hkey hzero)
        rw [hsplit, hnil]
        exact h
    · have hnone : (submitPayment svc r env p).1.countP (fun x ↦ x.key = some key && kind x)
        = 0 := by
        refine List.countP_eq_zero.mpr fun x hx hcount ↦ hkey ?_
        rw [← htried.key x hx]
        exact of_decide_eq_true (Bool.and_eq_true_iff.mp hcount).1
      omega

/-- What calls have returned is filed in the index of a coherent store. -/
structure Consistent (w : World) : Prop where
  store : w.store.Coherent
  returned : ∀ key tx, (key, tx) ∈ w.returned → ∃ r, w.store.indexed key = some r ∧ r.id = tx.id

theorem Consistent.sameRecord {w : World} (h : Consistent w) : SameRecord w := by
  intro key tx tx' htx htx'
  obtain ⟨r, hr, hid⟩ := h.returned key tx htx
  obtain ⟨r', hr', hid'⟩ := h.returned key tx' htx'
  rw [← hid, ← hid', Option.some.inj (hr.symm.trans hr')]

theorem coherent_recordDonation {r : Request} {env : Env} {p : Prepared} {paid : Option Paid}
    {st st' : Store} {tx : Record} (hst : st.Coherent)
    (h : recordDonation svc st r env p paid = .ok (st', tx)) :
    st'.Coherent ∧ st'.Filed r.idempotencyKey tx.id ∧
      ∀ k x, st.indexed k = some x → st'.indexed k = some x := by
  rcases recordDonation_eq_ok h with ⟨rfl, k, hk, hsel⟩ | ⟨memo, hcreate⟩
  · refine ⟨hst, fun k' hk' ↦ ?_, fun _ _ hx ↦ hx⟩
    obtain rfl : k = k' := Option.some.inj (hk.symm.trans hk')
    exact hst.select (orNull_eq_some.mp hk).2 hsel
  · exact ⟨hst.create hcreate, Store.filed_create hcreate, Store.indexed_create hcreate⟩

theorem consistent_step (w : World) (a : Action) (h : Consistent w) :
    Consistent (step svc w a) := by
  cases a with
  | flush n =>
    obtain ⟨hst, hindex⟩ := h.store.flush n
    refine ⟨hst, fun key tx htx ↦ ?_⟩
    obtain ⟨r, hr, hid⟩ := h.returned key tx htx
    exact ⟨r, (hindex key).trans hr, hid⟩
  | call r env =>
    have hreturned := returned_createDonationRecord svc w r env
    rcases store_createDonationRecord svc w r env with ⟨hstore, e, he⟩ |
      ⟨p, paid, tx, -, -, hrec, hret⟩
    · have hlog : step svc w (.call r env) = (createDonationRecord svc w r env).1 := by
        rw [step, logReturn, he]
        cases orNull r.idempotencyKey <;> rfl
      rw [hlog]
      exact ⟨hstore ▸ h.store, by rw [hreturned, hstore]; exact h.returned⟩
    · obtain ⟨hst, hfiled, hindex⟩ := coherent_recordDonation h.store hrec
      refine ⟨?_, fun key x hx ↦ ?_⟩
      · rw [step, store_logReturn]
        exact hst
      · rw [step, store_logReturn]
        rw [step, logReturn, hret] at hx
        cases hkey : orNull r.idempotencyKey with
        | none =>
          rw [hkey, hreturned] at hx
          obtain ⟨y, hy, hid⟩ := h.returned key x hx
          exact ⟨y, hindex key y hy, hid⟩
        | some k =>
          rw [hkey] at hx
          rcases List.mem_cons.mp hx with heq | hx
          · cases heq
            exact hfiled key hkey
          · rw [hreturned] at hx
            obtain ⟨y, hy, hid⟩ := h.returned key x hx
            exact ⟨y, hindex key y hy, hid⟩

def start (st : Store) : World := ⟨st, [], []⟩

theorem consistent_start {st : Store} (hst : st.Coherent) : Consistent (start st) :=
  ⟨hst, fun _ _ h ↦ absurd h List.not_mem_nil⟩

/-- **One payment and one record per key.** In every run, all calls with one key return the same
record. If no call may pay for a key that has been paid for, at most one payment is accepted for
each key; if none may pay for a key a payment was submitted for and none falls back from a rejected
path payment, at most one is submitted. -/
theorem createDonationRecord_once_per_key {st : Store} (hst : st.Coherent) (as : List Action) :
    Always (step svc) SameRecord (start st) as ∧
      (Along (step svc) (NoRetryPays (·.accepted) svc) (start st) as →
        Always (step svc) PaidAtMostOnce (start st) as) ∧
      (Along (step svc) (fun w a ↦ NoRetryPays (fun _ ↦ true) svc w a ∧ NoFallback svc a)
          (start st) as → Always (step svc) SubmittedAtMostOnce (start st) as) := by
  refine ⟨?_, fun hrun ↦ ?_, fun hrun ↦ ?_⟩
  · exact (always_of_step consistent_step (consistent_start hst) as).mono fun _ h ↦ h.sameRecord
  · refine hrun.always (fun w a hw hretry key ↦ ?_) (fun key ↦ Nat.zero_le 1)
    refine attempts_step_le (fun r env p _ hprep ↦ ?_) hretry key (hw key)
    exact (tried_submitPayment (xlmAmount_of_prepare hprep).2).accepted
  · refine hrun.always (fun w a hw ⟨hretry, hfall⟩ key ↦ ?_) (fun key ↦ Nat.zero_le 1)
    refine attempts_step_le (fun r env p ha hprep ↦ ?_) hretry key (hw key)
    subst ha
    rw [List.countP_true]
    exact (tried_submitPayment (xlmAmount_of_prepare hprep).2).length hfall

end Runs

/-! ## A retry that pays again -/

section Examples

def plainConfig : Config where
  minAmount := 1 / 100
  maxAmount := 10000
  maxDailyPerDonor := 0
  multisigThresholdXLM := none
  multisigRequiredApprovals := 2
  multisigApprovalWindowMs := 259200000
  showNumber q := toString q

/-- A service that signs with its own key and leaves texts as they are. -/
def signingServices : Services where
  config := plainConfig
  sanitizeIdentifier s := s
  generatePseudonymousId s := "anon_" ++ s
  validateAndSanitizeMemo memo := .ok (memo.getD "")
  validateWithType memo _ := .ok (memo.getD "")
  validateTags _ _ := .ok ()
  parseAssetInput _ _ := .ok .native
  toUpperCase s := s
  getSecretForPublicKey _ := none
  serviceSecretKey := some "SSERVICE"

def acceptingEnv (uuid txId : String) : Env where
  now := 1000
  day := (0, 86399999)
  convertToXLM amount _ := .ok amount
  recipientExists := .ok true
  sendDonation := .ok ⟨txId, 1, none, none⟩
  invokeContract := .ok (.succeeded ⟨txId, 1, none, none⟩)
  discoverBestPath := .ok none
  pathPayment := .ok ⟨txId, 1, none, none⟩
  memoTaken _ _ := false
  nonce _ := "00000000"
  uuid := uuid

def keyedRequest : Request where
  amount := 5
  donor := some "GDONOR"
  recipient := some "GRECIPIENT"
  idempotencyKey := some "k1"

theorem createDonationRecord_retry_pays_again :
    ¬Always (step signingServices) (fun w ↦ PaidAtMostOnce w ∧ SameRecord w) (start .empty)
      [.call keyedRequest (acceptingEnv "u1" "t1"),
        .call keyedRequest (acceptingEnv "u2" "t2")] := by
  intro h
  have htwice : attempts (·.accepted) (run (step signingServices) (start .empty)
      [.call keyedRequest (acceptingEnv "u1" "t1"),
        .call keyedRequest (acceptingEnv "u2" "t2")]) "k1"
      = 2 := by decide +kernel
  have honce := h.last.1 "k1"
  omega

/-- A retry that names no recipient does not pay. -/
theorem createDonationRecord_retry_without_recipient :
    Always (step signingServices) PaidAtMostOnce (start .empty)
      [.call keyedRequest (acceptingEnv "u1" "t1"), .flush 0,
        .call { keyedRequest with recipient := none } (acceptingEnv "u2" "t2")] := by
  refine (createDonationRecord_once_per_key Store.coherent_empty _).2.1 ⟨?_, trivial, ?_, trivial⟩
  · intro key _ hpaid
    exact absurd rfl hpaid
  · rintro key - - ⟨xlm, -, hpayer⟩
    simp [payer, sanitizedRecipient] at hpayer

end Examples

end StellarDonations.Donations
