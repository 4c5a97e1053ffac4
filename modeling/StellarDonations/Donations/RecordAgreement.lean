import StellarDonations.Donations.CreateRecord

/-!
# The record and its payment

After a payment has gone through, `createDonationRecord` looks for an earlier donation of the key,
and otherwise looks for a memo that no recent transaction has and records the donation with that.
Neither undoes the payment: an earlier record is returned although it may belong to another payment,
a taken memo is recorded with a nonce that is not on-chain, and after three taken memos the call
throws. The record describes the payment exactly when none of these happens (`agrees_iff`).
-/

namespace StellarDonations.Donations

open JsString Stellar Transactions

/-! ## Agreement -/

/-- The memo of a payment; a contract is invoked without one. -/
def Operation.memo : Operation → Option String
  | .sendDonation payment => some payment.memo
  | .pathPayment _ _ _ _ _ _ _ memo => some memo
  | .invokeContract _ _ _ _ => none

def onChainMemo (submissions : List Submission) : Option String :=
  (submissions.find? (·.accepted)).bind (·.operation.memo)

def maxMemoLength : ℕ := 28

/-- The store has the record: in memory under its id or its key, or in the table. -/
def Holds (st : Store) (tx : Record) : Prop :=
  st.find tx.id = some tx ∨ (∃ key, st.indexed key = some tx) ∨ ∃ row ∈ st.rows, row.data = tx

structure Carries (tx : Record) (paid : Paid) (memo : String) : Prop where
  stellarTxId : tx.stellarTxId = some paid.result.transactionId
  memo : tx.memo = memo

instance (tx : Record) (paid : Paid) (memo : String) : Decidable (Carries tx paid memo) :=
  decidable_of_iff (tx.stellarTxId = some paid.result.transactionId ∧ tx.memo = memo)
    ⟨fun ⟨hid, hmemo⟩ ↦ ⟨hid, hmemo⟩, fun ⟨hid, hmemo⟩ ↦ ⟨hid, hmemo⟩⟩

/-- The call returns a stored record of its payment and its memo, which fits on-chain. -/
def Agrees (svc : Services) (w : World) (r : Request) (env : Env) (p : Prepared) (paid : Paid) :
    Prop :=
  ∃ tx memo, (createDonationRecord svc w r env).2 = .ok tx ∧
    Holds (createDonationRecord svc w r env).1.store tx ∧
    onChainMemo (submitPayment svc r env p).1 = some memo ∧ Carries tx paid memo ∧
    memo.utf8ByteSize ≤ maxMemoLength

/-- All three memos that are tried belong to recent transactions. -/
def Exhausted (env : Env) (sanitized : String) : Prop :=
  sanitized ≠ "" ∧ env.memoTaken 1 sanitized = true ∧
    env.memoTaken 2 (sanitized ++ "-" ++ env.nonce 1) = true ∧
    env.memoTaken 3 (sanitized ++ "-" ++ env.nonce 2) = true

instance (env : Env) (sanitized : String) : Decidable (Exhausted env sanitized) :=
  inferInstanceAs (Decidable (_ ∧ _ ∧ _ ∧ _))

/-- Nothing comes between the payment and its record: an earlier record of the key, in the table or
in memory, is one of this payment and memo, and without one the memo is not taken. -/
def Undisturbed (st : Store) (r : Request) (env : Env) (memo : String) (paid : Paid) : Prop :=
  match (orNull r.idempotencyKey).bind st.selectByIdempotencyKey with
  | some tx => Carries tx paid memo
  | none =>
    match (orNull r.idempotencyKey).bind st.indexed with
    | some tx => Carries tx paid memo ∧ ¬Exhausted env memo
    | none => paid.result.transactionId ≠ "" ∧ (memo ≠ "" → env.memoTaken 1 memo = false)

/-! ## The memo -/

section Memo

theorem append_nonce_ne (s nonce : String) : s ++ "-" ++ nonce ≠ s := by
  intro heq
  have hlength := congrArg String.length heq
  simp only [String.length_append] at hlength
  have hdash : "-".length = 1 := rfl
  omega

/-- What the search for a memo ends with. -/
theorem finalMemo_cases (env : Env) (sanitized : String) :
    (finalMemo env sanitized = .ok sanitized ∧
        (sanitized ≠ "" → env.memoTaken 1 sanitized = false)) ∨
      (∃ memo, memo ≠ sanitized ∧ finalMemo env sanitized = .ok memo ∧
        ¬(sanitized ≠ "" → env.memoTaken 1 sanitized = false) ∧ ¬Exhausted env sanitized) ∨
      (∀ memo, finalMemo env sanitized ≠ .ok memo) ∧ Exhausted env sanitized := by
  by_cases hempty : sanitized = ""
  · left
    subst hempty
    exact ⟨rfl, fun h ↦ absurd rfl h⟩
  rw [finalMemo, if_neg hempty]
  cases hfirst : env.memoTaken 1 sanitized with
  | false =>
    left
    exact ⟨by simp [uniqueMemo, hfirst], fun _ ↦ rfl⟩
  | true =>
    right
    cases hsecond : env.memoTaken 2 (sanitized ++ "-" ++ env.nonce 1) with
    | false =>
      left
      refine ⟨_, append_nonce_ne sanitized (env.nonce 1), ?_, ?_, ?_⟩
      · simp [uniqueMemo, hfirst, hsecond]
      · simp [hempty]
      · simp [Exhausted, hsecond]
    | true =>
      cases hthird : env.memoTaken 3 (sanitized ++ "-" ++ env.nonce 2) with
      | false =>
        left
        refine ⟨_, append_nonce_ne sanitized (env.nonce 2), ?_, ?_, ?_⟩
        · simp [uniqueMemo, hfirst, hsecond, hthird]
        · simp [hempty]
        · simp [Exhausted, hthird]
      | true =>
        right
        refine ⟨fun memo hmemo ↦ ?_, hempty, hfirst, hsecond, hthird⟩
        simp [uniqueMemo, hfirst, hsecond, hthird] at hmemo

end Memo

/-! ## The payment -/

section Payment

variable {svc : Services} {r : Request} {env : Env} {p : Prepared} {paid : Paid}

theorem requiresApproval_of_payer {xlm : ℚ} {pair : String × String}
    (h : payer svc r xlm = some pair) : requiresApproval svc.config xlm = false := by
  rw [payer] at h
  split at h
  · split_ifs at h with happroval
    exact Bool.not_eq_true _ ▸ happroval
  · cases h

theorem onChainMemo_submitDirect {secret recipient : String}
    (hpaid : (submitDirect svc r env p secret recipient).2 = .ok paid)
    (hmethod : paid.paymentMethod ≠ .soroban) :
    onChainMemo (submitDirect svc r env p secret recipient).1 = some p.memo := by
  rw [submitDirect] at hpaid ⊢
  cases hcontract : orNull r.contractAddress with
  | some address =>
    rw [hcontract] at hpaid
    rcases hinvoke : env.invokeContract with e | (result | returnValue)
    · simp [hinvoke] at hpaid
    · simp only [hinvoke, Except.ok.injEq] at hpaid
      exact absurd (by rw [← hpaid]) hmethod
    · simp [hinvoke] at hpaid
  | none =>
    rw [hcontract] at hpaid
    rcases hsend : env.sendDonation with e | result
    · simp [hsend] at hpaid
    · rfl

theorem onChainMemo_submitPath {secret recipient : String} {estimate : PathEstimate}
    (hpaid : (submitPath r env p secret recipient estimate).2 = .ok paid) :
    onChainMemo (submitPath r env p secret recipient estimate).1 = some p.memo := by
  rw [submitPath] at hpaid ⊢
  cases hanswer : env.pathPayment with
  | ok result => rfl
  | error e =>
    by_cases hsame : isSameAsset p.sourceAsset p.destAsset = true
    · rcases hsend : env.sendDonation with e | result
      · simp [hanswer, hsame, hsend] at hpaid
      · simp only [hsame, if_true]
        rfl
    · simp [hanswer, hsame] at hpaid

/-- A payment that went through, other than by the contract, has put the checked memo on-chain, and
its donation needed no approval. -/
theorem onChainMemo_submitPayment (hpaid : (submitPayment svc r env p).2 = .ok (some paid))
    (hmethod : paid.paymentMethod ≠ .soroban) :
    onChainMemo (submitPayment svc r env p).1 = some p.memo ∧
      requiresApproval svc.config p.xlm = false := by
  rw [submitPayment] at hpaid ⊢
  cases hpayer : payer svc r p.xlm with
  | none =>
    rw [hpayer] at hpaid
    cases hpaid
  | some pair =>
    refine ⟨?_, requiresApproval_of_payer hpayer⟩
    obtain ⟨secret, recipient⟩ := pair
    rw [hpayer] at hpaid
    rcases hexists : env.recipientExists with e | (_ | _)
    · simp [hexists] at hpaid
    · simp [hexists] at hpaid
    · simp only [hexists] at hpaid ⊢
      split_ifs at hpaid ⊢ with hpath
      · rcases hpathFound : env.discoverBestPath with e | (_ | estimate)
        · simp [hpathFound] at hpaid
        · simp [hpathFound] at hpaid
        · simp only [hpathFound] at hpaid ⊢
          obtain ⟨paid', hpaid', heq⟩ := Except.map_eq_ok.mp hpaid
          exact onChainMemo_submitPath hpaid'
      · obtain ⟨paid', hpaid', heq⟩ := Except.map_eq_ok.mp hpaid
        obtain rfl := Option.some.inj heq
        exact onChainMemo_submitDirect hpaid' hmethod

end Payment

/-! ## The record -/

section Record

variable {svc : Services} {w : World} {st : Store} {r : Request} {env : Env} {p : Prepared}
  {paid : Paid} {memo : String}

/-- The record of a payment is created as `confirmed`, unless memory has one of the key. -/
theorem create_draft (happroval : requiresApproval svc.config p.xlm = false) :
    st.create (draft svc r env p (some paid) memo) env.uuid env.now =
      .ok (match (orNull r.idempotencyKey).bind st.indexed with
        | some existing => (st, existing)
        | none =>
          let tx := Store.newRecord (draft svc r env p (some paid) memo) .confirmed env.uuid env.now
          (st.insertNew tx, tx)) := by
  have hstatus : assertValidState
      (normalizeState (draft svc r env p (some paid) memo).status) "status" = .ok .confirmed := by
    have hconfirmed : (draft svc r env p (some paid) memo).status = some "confirmed" := by
      simp only [draft, happroval]
      rfl
    rw [hconfirmed]
    decide
  rw [Store.create, hstatus]
  have hkey : (draft svc r env p (some paid) memo).idempotencyKey = r.idempotencyKey := rfl
  rw [hkey]
  cases (orNull r.idempotencyKey).bind st.indexed <;> rfl

theorem replayLookup_of_noError (h : env.lookupError = none) :
    replayLookup st r env = .ok ((orNull r.idempotencyKey).bind st.selectByIdempotencyKey) := by
  rw [replayLookup, h]
  cases orNull r.idempotencyKey <;> rfl

theorem holds_of_select {tx : Record}
    (h : (orNull r.idempotencyKey).bind st.selectByIdempotencyKey = some tx) : Holds st tx := by
  obtain ⟨key, -, hselect⟩ := Option.bind_eq_some_iff.mp h
  obtain ⟨row, hrow, hdata⟩ := Option.map_eq_some_iff.mp hselect
  exact .inr (.inr ⟨row, List.mem_of_find?_eq_some hrow, hdata⟩)

theorem holds_of_indexed {tx : Record} (h : (orNull r.idempotencyKey).bind st.indexed = some tx) :
    Holds st tx := by
  obtain ⟨key, -, hindexed⟩ := Option.bind_eq_some_iff.mp h
  exact .inr (.inl ⟨key, hindexed⟩)

theorem carries_newRecord {sanitized : String} :
    Carries (Store.newRecord (draft svc r env p (some paid) memo) .confirmed env.uuid env.now) paid
      sanitized ↔ paid.result.transactionId ≠ "" ∧ memo = sanitized := by
  have hid : (Store.newRecord (draft svc r env p (some paid) memo) .confirmed env.uuid
      env.now).stellarTxId = orNull (some paid.result.transactionId) := rfl
  constructor
  · rintro ⟨hcarried, hmemo⟩
    rw [hid] at hcarried
    exact ⟨(orNull_eq_some.mp hcarried).2, hmemo⟩
  · rintro ⟨hne, hmemo⟩
    exact ⟨hid.trans (orNull_eq_some.mpr ⟨rfl, hne⟩), hmemo⟩

theorem recordDonation_of_memo (hreplay : replayLookup st r env = .ok none)
    (hmemo : finalMemo env p.memo = .ok memo) :
    recordDonation svc st r env p (some paid) =
      st.create (draft svc r env p (some paid) memo) env.uuid env.now := by
  rw [recordDonation, hreplay]
  simp only [hmemo]
  rfl

/-- Creating a record of the memo agrees with the payment when memory has a record of it under the
key, or has none and the memo is the one on-chain. -/
theorem create_agrees_iff (happroval : requiresApproval svc.config p.xlm = false) :
    (∃ st' tx, st.create (draft svc r env p (some paid) memo) env.uuid env.now = .ok (st', tx) ∧
      Holds st' tx ∧ Carries tx paid p.memo) ↔
      match (orNull r.idempotencyKey).bind st.indexed with
      | some tx => Carries tx paid p.memo
      | none => paid.result.transactionId ≠ "" ∧ memo = p.memo := by
  rw [create_draft happroval]
  cases hindexed : (orNull r.idempotencyKey).bind st.indexed with
  | some existing =>
    constructor
    · rintro ⟨st', tx, ⟨⟩, -, hcarries⟩
      exact hcarries
    · exact fun hcarries ↦ ⟨st, existing, rfl, holds_of_indexed hindexed, hcarries⟩
  | none =>
    constructor
    · rintro ⟨st', tx, ⟨⟩, -, hcarries⟩
      exact carries_newRecord.mp hcarries
    · exact fun hnew ↦ ⟨_, _, rfl, .inl (Store.find_insertNew _ _), carries_newRecord.mpr hnew⟩

/-- What is recorded after a payment agrees with it exactly when nothing comes in between. -/
theorem recordDonation_agrees_iff (hlookup : env.lookupError = none)
    (happroval : requiresApproval svc.config p.xlm = false) :
    (∃ st' tx, recordDonation svc st r env p (some paid) = .ok (st', tx) ∧ Holds st' tx ∧
      Carries tx paid p.memo) ↔ Undisturbed st r env p.memo paid := by
  have hreplay : replayLookup st r env =
      .ok ((orNull r.idempotencyKey).bind st.selectByIdempotencyKey) :=
    replayLookup_of_noError hlookup
  rw [Undisturbed]
  cases hselect : (orNull r.idempotencyKey).bind st.selectByIdempotencyKey with
  | some existing =>
    rw [hselect] at hreplay
    rw [recordDonation, hreplay]
    constructor
    · rintro ⟨st', tx, ⟨⟩, -, hcarries⟩
      exact hcarries
    · exact fun hcarries ↦ ⟨st, existing, rfl, holds_of_select hselect, hcarries⟩
  | none =>
    rw [hselect] at hreplay
    rcases finalMemo_cases env p.memo with
      ⟨hmemo, hfree⟩ | ⟨memo, hne, hmemo, htaken, htries⟩ | ⟨hthrown, htries⟩
    · rw [recordDonation_of_memo hreplay hmemo, create_agrees_iff happroval]
      have hnot : ¬Exhausted env p.memo := by
        rintro ⟨hne, hfirst, -⟩
        rw [hfree hne] at hfirst
        exact Bool.false_ne_true hfirst
      cases (orNull r.idempotencyKey).bind st.indexed with
      | some existing => exact (and_iff_left hnot).symm
      | none => exact and_congr_right fun _ ↦ iff_of_true rfl hfree
    · rw [recordDonation_of_memo hreplay hmemo, create_agrees_iff happroval]
      cases (orNull r.idempotencyKey).bind st.indexed with
      | some existing => exact (and_iff_left htries).symm
      | none => exact and_congr_right fun _ ↦ iff_of_false hne htaken
    · refine iff_of_false ?_ ?_
      · rintro ⟨st', tx, hrecorded, -⟩
        rw [recordDonation, hreplay] at hrecorded
        obtain ⟨existing, ⟨⟩, hrecorded⟩ := Except.bind_eq_ok.mp hrecorded
        obtain ⟨memo, hmemo, -⟩ := Except.bind_eq_ok.mp hrecorded
        exact hthrown memo hmemo
      · cases (orNull r.idempotencyKey).bind st.indexed with
        | some existing => exact fun h ↦ h.2 htries
        | none =>
          rintro ⟨-, hfree⟩
          obtain ⟨hne, hfirst, -⟩ := htries
          rw [hfree hne] at hfirst
          exact Bool.false_ne_true hfirst

theorem createDonationRecord_of_paid {tx : Record} (hprep : prepare svc w.store r env = .ok p)
    (hpaid : (submitPayment svc r env p).2 = .ok (some paid)) :
    (createDonationRecord svc w r env).2 = .ok tx ↔
      recordDonation svc w.store r env p (some paid) =
        .ok ((createDonationRecord svc w r env).1.store, tx) := by
  rw [createDonationRecord, hprep]
  simp only [hpaid]
  cases recordDonation svc w.store r env p (some paid) with
  | error e => simp
  | ok out => simp [Prod.ext_iff]

/-- **The record agrees with the payment** exactly when the memo fits on-chain and nothing comes
between the two. -/
theorem agrees_iff (hprep : prepare svc w.store r env = .ok p)
    (hpaid : (submitPayment svc r env p).2 = .ok (some paid))
    (hmethod : paid.paymentMethod ≠ .soroban) (hlookup : env.lookupError = none) :
    Agrees svc w r env p paid ↔
      p.memo.utf8ByteSize ≤ maxMemoLength ∧ Undisturbed w.store r env p.memo paid := by
  obtain ⟨honChain, happroval⟩ := onChainMemo_submitPayment hpaid hmethod
  rw [← recordDonation_agrees_iff hlookup happroval]
  constructor
  · rintro ⟨tx, memo, hreturned, hholds, hmemo, hcarries, hsize⟩
    obtain rfl : p.memo = memo := Option.some.inj (honChain.symm.trans hmemo)
    have hrecorded := (createDonationRecord_of_paid hprep hpaid).mp hreturned
    exact ⟨hsize, _, tx, hrecorded, hholds, hcarries⟩
  · rintro ⟨hsize, st', tx, hrecorded, hholds, hcarries⟩
    have hcall : createDonationRecord svc w r env =
        ({ w with store := st', submissions := w.submissions ++ (submitPayment svc r env p).1 },
          .ok tx) := by
      rw [createDonationRecord, hprep]
      simp only [hpaid, hrecorded]
    refine ⟨tx, p.memo, ?_, ?_, honChain, hcarries, hsize⟩
    · rw [hcall]
    · rw [hcall]
      exact hholds

end Record

/-! ## Fixed calls -/

section Examples

def thanksRequest : Request where
  amount := 5
  donor := some "GDONOR"
  recipient := some "GRECIPIENT"
  memo := some "thanks"

/-- A network that accepts every payment, and a table with recent transactions of some memos. -/
def takenEnv (memos : List String) : Env :=
  { acceptingEnv "u1" "t1" with memoTaken := fun _ memo ↦ memo ∈ memos }

def thanksPrepared : Prepared where
  validAfter := 0
  validBefore := 0
  memo := "thanks"
  xlm := 5
  overpayment := none
  sourceAsset := .native
  destAsset := .native

def thanksPaid : Paid where
  result := ⟨"t1", 1, none, none⟩
  paymentMethod := .direct

theorem prepare_thanks (memos : List String) :
    prepare signingServices .empty thanksRequest (takenEnv memos) = .ok thanksPrepared := by
  have hplain : prepare signingServices .empty thanksRequest (acceptingEnv "u1" "t1") =
      .ok thanksPrepared := by decide +kernel
  exact hplain

theorem submitPayment_thanks (memos : List String) :
    (submitPayment signingServices thanksRequest (takenEnv memos) thanksPrepared).2 =
      .ok (some thanksPaid) := by
  rfl

theorem agrees_iff_thanks :
    Agrees signingServices (start .empty) thanksRequest (takenEnv []) thanksPrepared thanksPaid ↔
      "thanks".utf8ByteSize ≤ maxMemoLength ∧
        Undisturbed .empty thanksRequest (takenEnv []) "thanks" thanksPaid :=
  agrees_iff (prepare_thanks []) (submitPayment_thanks []) (by decide) rfl

/-- A recent transaction with the memo: the record gets a memo that is not on-chain. With three of
them the call throws, although the payment has been made. -/
theorem not_agrees :
    ¬Agrees signingServices (start .empty) thanksRequest (takenEnv ["thanks"]) thanksPrepared
        thanksPaid ∧
      ¬Agrees signingServices (start .empty) thanksRequest
        (takenEnv ["thanks", "thanks-00000000"]) thanksPrepared thanksPaid := by
  constructor
  · rintro ⟨tx, memo, hreturned, -, hmemo, hcarries, -⟩
    have hrecorded : ((createDonationRecord signingServices (start .empty) thanksRequest
        (takenEnv ["thanks"])).2.toOption.map (·.memo)) = some "thanks-00000000" := by
      decide +kernel
    have honChain : onChainMemo (submitPayment signingServices thanksRequest
        (takenEnv ["thanks"]) thanksPrepared).1 = some "thanks" := by rfl
    rw [honChain, Option.some.injEq] at hmemo
    rw [hreturned] at hrecorded
    have hnonce : tx.memo = "thanks-00000000" := Option.some.inj hrecorded
    rw [hcarries.memo, ← hmemo] at hnonce
    exact absurd hnonce (by decide)
  · rintro ⟨tx, memo, hreturned, -⟩
    have hthrown : (createDonationRecord signingServices (start .empty) thanksRequest
        (takenEnv ["thanks", "thanks-00000000"])).2.toOption.isNone = true := by
      decide +kernel
    rw [hreturned] at hthrown
    exact Bool.false_ne_true hthrown

end Examples

end StellarDonations.Donations
