import StellarDonations.Donations.Custodial
import StellarDonations.Transactions.Lifecycle

/-!
# Confirming a donation after its submission

`DonationService.confirmTransaction`, and the part of `sendCustodialDonation` that decides how many
ledgers a donation has to wait for. A donation of at least `multisigThresholdXLM` waits for two
ledgers even where `CONFIRMATION_THRESHOLD` is one.

As the code stands no donation is confirmed too early, because none is confirmed at all:
`sendCustodialDonation` throws before its record reaches the store, and `confirmTransaction` finds
nothing under its id. Behind that throw lies a second defect: the number of ledgers is handed to
`Transaction.updateStatus` as `confirmationThreshold`, and `confirmTransaction` looks for it on the
record, but `updateStatus` copies five properties of what it is handed, and this is not one of them.
-/

namespace StellarDonations.Confirmation

open Concurrency Custodial Stellar Transactions

/-! ## Records with their confirmation data -/

/-- The properties of a stored object that only confirmations use. -/
structure ConfirmationData where
  confirmations : Option ℕ := none
  confirmationThreshold : Option ℕ := none
  deriving DecidableEq

/-- The argument `stellarData` as `DonationService` builds it. -/
structure StatusData extends Store.StellarData, ConfirmationData

/-- The store, with the confirmation data of the object stored under each id. -/
structure TrackedStore where
  store : Store
  confirmation : String → ConfirmationData

namespace TrackedStore

/-- `Transaction.updateStatus`: the new object has all properties of the old one, and of
`stellarData` the five that `Store.advance` copies. -/
def updateStatus (m : TrackedStore) (id status : String) (stellarData : StatusData) (now : ℕ) :
    Except AppError (TrackedStore × Record) :=
  match m.store.updateStatus id status stellarData.toStellarData now with
  | .error e => .error e
  | .ok (store, tx) => .ok ({ m with store }, tx)

/-- The status of the donation `getById` finds. -/
def status (m : TrackedStore) (id : String) : Option String := (m.store.getById id).map (·.status)

end TrackedStore

/-! ## Confirmation -/

/-- What `confirmTransaction` returns. -/
structure Outcome where
  confirmed : Bool
  confirmations : ℕ
  required : ℕ
  transaction : Option Record

/-- `threshold || transaction.confirmationThreshold || CONFIRMATION_THRESHOLD`. -/
def effectiveThreshold (svc : Services) (stored : ConfirmationData) (threshold : Option ℕ) : ℕ :=
  ((threshold.filter (· ≠ 0)).or (stored.confirmationThreshold.filter (· ≠ 0))).getD
    svc.confirmationThreshold

def confirmTransaction (svc : Services) (m : TrackedStore) (transactionId : String)
    (currentLedger : ℕ)
    (threshold : Option ℕ) (now : ℕ) : Except AppError (TrackedStore × Outcome) :=
  match m.store.getById transactionId with
  | none => .error (.notFound .donationNotFound "Transaction not found")
  | some transaction =>
    let stored := m.confirmation transactionId
    let effective := effectiveThreshold svc stored threshold
    if transaction.status = TransactionState.confirmed.name then
      .ok (m, ⟨true, stored.confirmations.getD 0, effective, some transaction⟩)
    else
      match transaction.stellarLedger.filter (· ≠ 0) with
      | none => .error (.validationWith .invalidRequest
          "Transaction has no ledger information — cannot check confirmations")
      | some ledger =>
        match checkConfirmations ledger currentLedger effective with
        | .error e => .error e
        | .ok c =>
          if c.confirmed then
            match m.updateStatus transactionId TransactionState.confirmed.name
                { confirmedAt := some now, confirmations := some c.confirmations
                  confirmationThreshold := some c.required } now with
            | .error e => .error e
            | .ok (m, _) =>
              .ok (m, ⟨true, c.confirmations, c.required, m.store.getById transactionId⟩)
          else .ok (m, ⟨false, c.confirmations, c.required, some transaction⟩)

/-- A call of `confirmTransaction` that leaves the threshold to the service. -/
structure ConfirmCall where
  transactionId : String
  currentLedger : ℕ
  now : ℕ

/-- The memory after a call; a call that throws leaves it as it is. -/
def confirmStep (svc : Services) (m : TrackedStore) (c : ConfirmCall) : TrackedStore :=
  match confirmTransaction svc m c.transactionId c.currentLedger none c.now with
  | .error _ => m
  | .ok (m', _) => m'

/-! ## One call of `confirmTransaction` -/

section Calls

variable {m : TrackedStore} {id : String}

theorem updateStatus_eq_ok {m' : TrackedStore} {tx : Record} {status : String} {sd : StatusData}
    {now : ℕ} (h : m.updateStatus id status sd now = .ok (m', tx)) :
    ∃ (old : Record) (next : TransactionState), m.store.find id = some old ∧
      next.name = normalizeState (some status) ∧
      m' = { m with store := m.store.save (Store.advance old next sd.toStellarData now) } := by
  rw [TrackedStore.updateStatus] at h
  cases hstore : m.store.updateStatus id status sd.toStellarData now with
  | error e =>
    rw [hstore] at h
    cases h
  | ok out =>
    rw [hstore] at h
    cases h
    obtain ⟨old, -, next, hfind, -, hnext, -, htx, hsave⟩ := Store.updateStatus_eq_ok hstore
    refine ⟨old, next, hfind, hnext, ?_⟩
    rw [hsave, htx]

/-- A call leaves the memory alone or confirms the donation it names, which has then as many ledgers
behind it as the stored threshold or, where there is none, the configured one asks for. -/
theorem confirmStep_cases (svc : Services) (m : TrackedStore) (c : ConfirmCall) :
    confirmStep svc m c = m ∨ ∃ old l, m.store.getById c.transactionId = some old ∧
      old.status ≠ TransactionState.confirmed.name ∧ old.stellarLedger = some l ∧
      effectiveThreshold svc (m.confirmation c.transactionId) none ≤ c.currentLedger - l ∧
      ∃ sd : StatusData, sd.ledger = none ∧ confirmStep svc m c = { m with
        store := m.store.save (Store.advance old .confirmed sd.toStellarData c.now) } := by
  rw [confirmStep, confirmTransaction]
  cases hget : m.store.getById c.transactionId with
  | none => exact .inl rfl
  | some old =>
    dsimp only
    by_cases hstatus : old.status = TransactionState.confirmed.name
    · rw [if_pos hstatus]
      exact .inl rfl
    rw [if_neg hstatus]
    cases hledger : old.stellarLedger.filter (· ≠ 0) with
    | none => exact .inl rfl
    | some l =>
      dsimp only
      have hl : old.stellarLedger = some l := (Option.filter_eq_some_iff.mp hledger).1
      rw [checkConfirmations]
      split_ifs with h₁ h₂
      · exact .inl rfl
      · exact .inl rfl
      dsimp only
      by_cases hdeep : effectiveThreshold svc (m.confirmation c.transactionId) none
          ≤ c.currentLedger - l
      · rw [if_pos (decide_eq_true hdeep)]
        cases hupdate : m.updateStatus c.transactionId TransactionState.confirmed.name
            { confirmedAt := some c.now, confirmations := some (c.currentLedger - l)
              confirmationThreshold :=
                some (effectiveThreshold svc (m.confirmation c.transactionId) none) } c.now with
        | error e => exact .inl rfl
        | ok out =>
          obtain ⟨old', next, hfind, hnext, hm'⟩ := updateStatus_eq_ok hupdate
          have hold : old = old' :=
            Option.some.inj ((Option.filter_eq_some_iff.mp hget).1.symm.trans hfind)
          have hconf : next = .confirmed :=
            TransactionState.name_injective (hnext.trans (normalizeState_name .confirmed))
          subst hold hconf
          exact .inr ⟨old, l, rfl, hstatus, hl, hdeep, _, rfl, hm'⟩
      · rw [if_neg (by simpa using hdeep)]
        exact .inl rfl

end Calls

/-! ## Runs -/

/-- In this call the donation becomes confirmed only with enough ledgers behind the one it is
recorded with. -/
def DeepEnough (svc : Services) (id : String) (required : ℕ) (m : TrackedStore)
    (c : ConfirmCall) : Prop :=
  m.status id ≠ some TransactionState.confirmed.name →
    (confirmStep svc m c).status id = some TransactionState.confirmed.name →
      ∃ tx l, m.store.getById id = some tx ∧ tx.stellarLedger = some l ∧
        required ≤ c.currentLedger - l

section Throw

variable {svc : Services} {m : TrackedStore} {sh : Shared} {a : Args} {id : String}

theorem find_confirmStep_of_none (svc : Services) (h : m.store.find id = none) (c : ConfirmCall) :
    (confirmStep svc m c).store.find id = none := by
  obtain hsame | ⟨old, -, hget, -, -, -, sd, -, hstep⟩ := confirmStep_cases svc m c
  · rw [hsame]
    exact h
  · have hold : m.store.find c.transactionId = some old := (Option.filter_eq_some_iff.mp hget).1
    have hoid : old.id = c.transactionId := by simpa using List.find?_some hold
    have hne : id ≠ (Store.advance old .confirmed sd.toStellarData c.now).id := by
      rintro rfl
      rw [show (Store.advance old .confirmed sd.toStellarData c.now).id = old.id from rfl, hoid,
        hold] at h
      cases h
    rw [hstep]
    exact (Store.find_set_of_ne m.store _ hne).trans h

theorem getById_of_none (h : m.store.find id = none) : m.store.getById id = none := by
  rw [Store.getById, h]
  rfl

theorem status_of_none (h : m.store.find id = none) : m.status id = none := by
  rw [TrackedStore.status, getById_of_none h]
  rfl

theorem along_deepEnough_of_none (required : ℕ) (h : m.store.find id = none)
    (calls : List ConfirmCall) : Along (confirmStep svc) (DeepEnough svc id required) m calls := by
  induction calls generalizing m with
  | nil => trivial
  | cons c calls ih =>
    have hnext := find_confirmStep_of_none svc h c
    refine ⟨fun _ hconf ↦ ?_, ih hnext⟩
    rw [status_of_none hnext] at hconf
    cases hconf

/-- A custodial donation, whether it pays or not, leaves the transaction store as it is. -/
theorem store_donation (svc : Services) (sh : Shared) (a : Args) (envs : List Env) :
    (run (alone svc) (sh, .getSender a) envs).1.store = sh.store := by
  have hkept : Always (alone svc) (fun x ↦ x.1.store = sh.store) (sh, .getSender a) envs :=
    always_of_step (fun (x : Shared × Call) env (h : x.1.store = sh.store) ↦
      (resume_store svc x.1 x.2 env).trans h) rfl envs
  exact hkept.last

/-- What a call for a donation finds, at any time after it. -/
theorem confirm_donation_notFound (hid : sh.store.find id = none) (envs : List Env)
    (data : String → ConfirmationData) (calls : List ConfirmCall) (currentLedger now : ℕ)
    (threshold : Option ℕ) :
    confirmTransaction svc (run (confirmStep svc)
        ⟨(run (alone svc) (sh, .getSender a) envs).1.store, data⟩ calls) id currentLedger threshold
        now
      = .error (.notFound .donationNotFound "Transaction not found") := by
  have habsent : Always (confirmStep svc) (fun m ↦ m.store.find id = none)
      ⟨(run (alone svc) (sh, .getSender a) envs).1.store, data⟩ calls :=
    always_of_step (fun m c h ↦ find_confirmStep_of_none svc h c)
      ((congrArg (·.find id) (store_donation svc sh a envs)).trans hid) calls
  rw [confirmTransaction, getById_of_none habsent.last]

/-- **No donation is confirmed before its ledgers have closed.** A custodial donation runs to
wherever the environment takes it. Whatever calls of `confirmTransaction` follow, a transaction that
was not stored before the donation, such as the donation's own, becomes confirmed only with as many
ledgers behind it as the donation requires. -/
theorem confirmed_deepEnough (hid : sh.store.find id = none) (envs : List Env)
    (data : String → ConfirmationData) (calls : List ConfirmCall) :
    Along (confirmStep svc) (DeepEnough svc id (requiredThreshold svc a))
      ⟨(run (alone svc) (sh, .getSender a) envs).1.store, data⟩ calls :=
  along_deepEnough_of_none _ ((congrArg (·.find id) (store_donation svc sh a envs)).trans hid) calls

end Throw

section Examples

/-- One ledger confirms, and donations of 100 XLM and more are high-value. -/
def oneLedger : Services := { plainServices with multisigThresholdXLM := some 100 }

def highValue : Args := { fiveXlm with amount := 150 }

/-- The donation requires two ledgers and is paid; one ledger later it is called for. -/
theorem confirmed_deepEnough_at :
    requiredThreshold oneLedger highValue = 2 ∧
      (run (alone oneLedger) (twoUsers, .getSender highValue)
        (List.replicate 9 (okEnv "t1"))).1.accepted ≠ [] ∧
      Along (confirmStep oneLedger) (DeepEnough oneLedger (toString 1) 2)
        ⟨(run (alone oneLedger) (twoUsers, .getSender highValue)
          (List.replicate 9 (okEnv "t1"))).1.store, fun _ ↦ {}⟩ [⟨toString 1, 8, 6⟩] := by
  have hrequired : requiredThreshold oneLedger highValue = 2 := by decide
  refine ⟨hrequired, by decide, ?_⟩
  rw [← hrequired]
  exact confirmed_deepEnough rfl _ _ _

end Examples

end StellarDonations.Confirmation
