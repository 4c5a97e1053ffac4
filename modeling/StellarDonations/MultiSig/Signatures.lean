import StellarDonations.Concurrency.Interleaving
import StellarDonations.Errors

/-!
# Collecting signatures

`MultiSigService.addSignature`: a record holds a transaction, the keys that may sign it and the
signatures collected so far, a list that is read, extended and written back. The call whose list
reaches the number required submits the transaction.

`_verifySignerXdr` checks a signed envelope against the hash of that same envelope, and nothing
compares it with the transaction of the record. What is collected authorises the transaction of the
record exactly as long as the envelopes that are stored happen to be envelopes of it
(`always_authorised_iff`).
-/

namespace StellarDonations.MultiSig

open Concurrency

/-! ## The library for transactions -/

/-- An element of `transaction.signatures`. -/
structure DecoratedSignature where
  hint : List ℕ
  signature : List ℕ
  deriving DecidableEq

/-- A transaction as it is parsed: its hash on the network, and the signatures it carries. -/
structure Envelope where
  hash : List ℕ
  signatures : List DecoratedSignature
  deriving DecidableEq

/-- What the service uses of `stellar-sdk`. -/
structure Sdk where
  /-- `TransactionBuilder.fromXDR(xdr, networkPassphrase)`, or the message of its error. -/
  fromXDR : String → String → Except String Envelope
  /-- `Keypair.fromPublicKey(key).signatureHint()`; there is none where the key is not valid. -/
  signatureHint : String → Option (List ℕ)
  /-- `keypair.verify(hash, signature)`; there is none where it throws. -/
  verify : String → List ℕ → List ℕ → Option Bool

/-! ## Records -/

/-- An element of `collected_signatures`. -/
structure Signature where
  signer : String
  signedXdr : String
  deriving DecidableEq

inductive Status where
  | pending
  | complete
  | submitted
  | failed
  deriving DecidableEq

def Status.name : Status → String
  | pending => "pending"
  | complete => "complete"
  | submitted => "submitted"
  | failed => "failed"

/-- A row of `multisig_transactions`, parsed. -/
structure Row where
  transactionXdr : String
  networkPassphrase : String
  requiredSigners : ℕ
  signerKeys : List String
  collectedSignatures : List Signature
  status : Status
  stellarTxHash : Option String
  stellarLedger : Option ℕ
  deriving DecidableEq

/-- The arguments of `addSignature` once they are known to be texts. -/
structure Request where
  id : ℕ
  signer : String
  signedXdr : String
  deriving DecidableEq

def Request.signature (r : Request) : Signature := ⟨r.signer, r.signedXdr⟩

/-- What the network answers to a transaction it has applied. -/
structure SubmitResult where
  transactionId : String
  ledger : Option ℕ
  deriving DecidableEq

/-- The table, with the signatures that were accepted and the records that were submitted, in the
order that happened. -/
structure Shared where
  rows : ℕ → Option Row
  accepted : List (ℕ × Signature)
  submissions : List ℕ

/-! ## Calls -/

inductive Call where
  /-- `addSignature` has not been called. -/
  | waiting (id : ℕ) (signer signedXdr : Option String)
  | load (r : Request)
  /-- The checks have passed on the record as it was read. -/
  | store (r : Request) (tx : Row)
  | submit (id : ℕ)
  | markSubmitted (id : ℕ) (result : SubmitResult)
  | markFailed (id : ℕ)
  | reload (id : ℕ)
  | returned (tx : Option Row)
  | threw (e : AppError)
  deriving DecidableEq

/-- What the environment answers to a step. -/
structure Env where
  /-- The error of the statement, should it fail. -/
  dbError : Option AppError
  network : Except AppError SubmitResult

/-- The library, and whether the service given to the constructor has the method
`submitMultiSigTransaction`. -/
structure Config extends Sdk where
  hasSubmit : Bool

/-- Neither `StellarService` nor `MockStellarService` has the method. -/
def stellarService (sdk : Sdk) : Config := { sdk with hasSubmit := false }

/-! ## The steps -/

def verifySignerXdr (sdk : Sdk) (signerPublicKey signedXdr networkPassphrase : String) :
    Except AppError Unit :=
  match sdk.fromXDR signedXdr networkPassphrase with
  | .error message => .error (.validation
      ("signed_xdr could not be parsed as a valid Stellar transaction: " ++ message))
  | .ok transaction =>
    match sdk.signatureHint signerPublicKey with
    | none => .error (.validation
        ("signer is not a valid Stellar public key: " ++ signerPublicKey))
    | some signerHint =>
      if transaction.signatures.any fun d ↦ d.hint = signerHint &&
          (sdk.verify signerPublicKey transaction.hash d.signature).getD false then .ok ()
      else .error (.validation
        ("signed_xdr does not contain a valid signature from the claimed signer " ++
          signerPublicKey ++
          ". Ensure the XDR was signed with the correct keypair before submitting."))

def checkArguments (id : ℕ) (signer signedXdr : Option String) : Except AppError Request :=
  match signer.filter (· ≠ ""), signedXdr.filter (· ≠ "") with
  | none, _ => .error (.validation "signer public key is required")
  | some _, none => .error (.validation "signed_xdr is required")
  | some signer, some signedXdr => .ok ⟨id, signer, signedXdr⟩

def checkRecord (sdk : Sdk) (r : Request) (tx : Row) : Except AppError Unit := do
  if tx.status ≠ .pending then
    throw (.businessLogic .transactionFailed ("Transaction is already " ++ tx.status.name))
  if r.signer ∉ tx.signerKeys then
    throw (.validation (r.signer ++ " is not an authorised signer for this transaction"))
  if tx.collectedSignatures.any (·.signer = r.signer) then
    throw (.validation (r.signer ++ " has already signed this transaction"))
  verifySignerXdr sdk r.signer r.signedXdr tx.networkPassphrase

def updatedSignatures (r : Request) (tx : Row) : List Signature :=
  tx.collectedSignatures ++ [r.signature]

def thresholdMet (r : Request) (tx : Row) : Bool :=
  tx.requiredSigners ≤ (updatedSignatures r tx).length

/-- The `UPDATE` of `addSignature`. -/
def storeSignatures (r : Request) (tx row : Row) : Row :=
  { row with
    collectedSignatures := updatedSignatures r tx
    status := if thresholdMet r tx then .complete else .pending }

def Shared.update (sh : Shared) (id : ℕ) (f : Row → Row) : Shared :=
  { sh with rows := Function.update sh.rows id ((sh.rows id).map f) }

/-- Resume a call: execute what it is suspended on. -/
def resume (cfg : Config) (sh : Shared) (c : Call) (env : Env) : Shared × Call :=
  match c, env.dbError with
  | .waiting id signer signedXdr, _ =>
    match checkArguments id signer signedXdr with
    | .error e => (sh, .threw e)
    | .ok r => (sh, .load r)
  | .load r, none =>
    match sh.rows r.id with
    | none => (sh, .threw (.notFound .notFound
        ("Multi-sig transaction " ++ toString r.id ++ " not found")))
    | some tx =>
      match checkRecord cfg.toSdk r tx with
      | .error e => (sh, .threw e)
      | .ok _ => (sh, .store r tx)
  | .store r tx, none =>
    ({ sh.update r.id (storeSignatures r tx) with
        accepted := sh.accepted ++ [(r.id, r.signature)] },
      if thresholdMet r tx then
        -- without the method the call throws, and `_submitTransaction` catches it
        if cfg.hasSubmit then .submit r.id else .markFailed r.id
      else .reload r.id)
  | .submit id, _ =>
    ({ sh with submissions := sh.submissions ++ [id] },
      match env.network with
      | .ok result => .markSubmitted id result
      | .error _ => .markFailed id)
  | .markSubmitted id result, none =>
    (sh.update id fun row ↦
      { row with
        status := .submitted
        stellarTxHash := some result.transactionId
        stellarLedger := result.ledger }, .reload id)
  -- the `try` of `_submitTransaction` covers this `UPDATE` as well
  | .markSubmitted id _, some _ => (sh, .markFailed id)
  | .markFailed id, none => (sh.update id fun row ↦ { row with status := .failed }, .reload id)
  | .reload id, none => (sh, .returned (sh.rows id))
  | .returned _, _ | .threw _, _ => (sh, c)
  | .load _, some e | .store _ _, some e | .markFailed _, some e | .reload _, some e =>
    (sh, .threw e)

/-! ## What a step does -/

/-- The columns of a row that no statement changes. -/
def Row.fixed (row : Row) : String × String × ℕ × List String :=
  (row.transactionXdr, row.networkPassphrase, row.requiredSigners, row.signerKeys)

variable {cfg : Config} {sdk : Sdk} {sh : Shared} {c : Call} {env : Env} {r : Request}
  {tx row : Row}

theorem rows_update (sh : Shared) (id : ℕ) (f : Row → Row) (id' : ℕ) :
    (sh.update id f).rows id' = (sh.rows id').map (if id' = id then f else fun row ↦ row) := by
  show Function.update sh.rows id ((sh.rows id).map f) id' = _
  by_cases h : id' = id
  · rw [if_pos h, h, Function.update_self]
  · rw [if_neg h, Function.update_of_ne h]
    exact Option.map_id'.symm

/-- What a step can do to a row: store signatures into it, or change columns that are neither
fixed nor the collected signatures. -/
def RowStep (sh sh' : Shared) (c : Call) (env : Env) (id : ℕ) : Prop :=
  ∃ f : Row → Row, sh'.rows id = (sh.rows id).map f ∧ (∀ row, (f row).fixed = row.fixed) ∧
    ((∀ row, (f row).collectedSignatures = row.collectedSignatures) ∨
      ∃ r tx, c = .store r tx ∧ env.dbError = none ∧ r.id = id ∧ f = storeSignatures r tx)

theorem RowStep.refl (sh : Shared) (c : Call) (env : Env) (id : ℕ) : RowStep sh sh c env id :=
  ⟨fun row ↦ row, Option.map_id'.symm, fun _ ↦ rfl, .inl fun _ ↦ rfl⟩

theorem RowStep.update (sh : Shared) (c : Call) (env : Env) (id id' : ℕ) {f : Row → Row}
    (hfixed : ∀ row, (f row).fixed = row.fixed)
    (hkept : ∀ row, (f row).collectedSignatures = row.collectedSignatures) :
    RowStep sh (sh.update id' f) c env id := by
  refine ⟨_, rows_update sh id' f id, fun row ↦ ?_, .inl fun row ↦ ?_⟩
  · split_ifs
    · exact hfixed row
    · rfl
  · split_ifs
    · exact hkept row
    · rfl

theorem resume_rows (cfg : Config) (sh : Shared) (c : Call) (env : Env) (id : ℕ) :
    RowStep sh (resume cfg sh c env).1 c env id := by
  rcases env with ⟨_ | e, network⟩ <;> cases c
  case none.waiting | some.waiting =>
    rw [resume]
    split <;> exact .refl ..
  case none.load r =>
    simp only [resume]
    split
    · exact .refl ..
    · split <;> exact .refl ..
  case none.store r tx =>
    refine ⟨_, rows_update sh r.id (storeSignatures r tx) id, fun row ↦ ?_, ?_⟩
    · split_ifs <;> rfl
    · by_cases hid : id = r.id
      · exact .inr ⟨r, tx, rfl, rfl, hid.symm, if_pos hid⟩
      · exact .inl fun row ↦ by rw [if_neg hid]
  case none.markSubmitted id' result => exact .update _ _ _ _ _ (fun _ ↦ rfl) fun _ ↦ rfl
  case none.markFailed id' => exact .update _ _ _ _ _ (fun _ ↦ rfl) fun _ ↦ rfl
  all_goals exact .refl ..

/-- A call that is about to store has just read the record and passed the checks on it. -/
theorem resume_eq_store (h : (resume cfg sh c env).2 = .store r tx) :
    c = .load r ∧ sh.rows r.id = some tx ∧ checkRecord cfg.toSdk r tx = .ok () := by
  rcases env with ⟨_ | e, network⟩ <;> cases c
  case none.load r' =>
    simp only [resume] at h
    split at h
    · cases h
    · rename_i tx' hrow
      split at h
      · cases h
      · rename_i hok
        obtain ⟨rfl, rfl⟩ := Call.store.inj h
        exact ⟨rfl, hrow, hok⟩
  case none.store => simp only [resume] at h; split_ifs at h
  case none.submit | some.submit | none.waiting | some.waiting =>
    simp only [resume] at h
    split at h <;> cases h
  all_goals cases h

theorem checkRecord_ok (h : checkRecord sdk r tx = .ok ()) :
    tx.status = .pending ∧ r.signer ∈ tx.signerKeys ∧
      (∀ s ∈ tx.collectedSignatures, s.signer ≠ r.signer) ∧
      verifySignerXdr sdk r.signer r.signedXdr tx.networkPassphrase = .ok () := by
  simp only [checkRecord, bind, Except.bind] at h
  split_ifs at h with hstatus hkey hnew
  refine ⟨not_not.mp hstatus, hkey, fun s hs heq ↦ hnew ?_, h⟩
  exact List.any_eq_true.mpr ⟨s, hs, decide_eq_true heq⟩

/-! ## What is collected authorises the transaction -/

/-- The envelope of a signature is one of the transaction of the record, and its signer has signed
it. -/
def Authorises (sdk : Sdk) (row : Row) (s : Signature) : Prop :=
  ∃ signed recorded, sdk.fromXDR s.signedXdr row.networkPassphrase = .ok signed ∧
    (∃ d ∈ signed.signatures, sdk.verify s.signer signed.hash d.signature = some true) ∧
    sdk.fromXDR row.transactionXdr row.networkPassphrase = .ok recorded ∧
    signed.hash = recorded.hash

/-- All signatures collected in any record authorise its transaction. -/
def Authorised (sdk : Sdk) (sh : Shared) : Prop :=
  ∀ id row, sh.rows id = some row → ∀ s ∈ row.collectedSignatures, Authorises sdk row s

def sameTransaction (sdk : Sdk) (r : Request) (tx : Row) : Bool :=
  match sdk.fromXDR r.signedXdr tx.networkPassphrase,
      sdk.fromXDR tx.transactionXdr tx.networkPassphrase with
  | .ok signed, .ok recorded => signed.hash = recorded.hash
  | _, _ => false

/-- If the step stores a signature, its envelope is one of the transaction of the record. -/
def storesSame {ι : Type*} (sdk : Sdk) (s : Calls ι Shared Call) (a : ι × Env) : Bool :=
  match s.call a.1, a.2.dbError with
  | .store r tx, none => sameTransaction sdk r tx
  | _, _ => true

theorem verifySignerXdr_ok {signer signedXdr passphrase : String}
    (h : verifySignerXdr sdk signer signedXdr passphrase = .ok ()) :
    ∃ signed, sdk.fromXDR signedXdr passphrase = .ok signed ∧
      ∃ d ∈ signed.signatures, sdk.verify signer signed.hash d.signature = some true := by
  rw [verifySignerXdr] at h
  split at h
  · cases h
  · rename_i signed hparse
    split at h
    · cases h
    · split_ifs at h with hany
      obtain ⟨d, hd, hvalid⟩ := List.any_eq_true.mp hany
      refine ⟨signed, hparse, d, hd, ?_⟩
      have hverify := (Bool.and_eq_true_iff.mp hvalid).2
      cases hresult : sdk.verify signer signed.hash d.signature with
      | none =>
        rw [hresult] at hverify
        cases hverify
      | some valid =>
        rw [hresult, Option.getD_some] at hverify
        rw [hverify]

/-- What has been verified authorises the transaction exactly when the envelope is one of it. -/
theorem authorises_iff
    (h : verifySignerXdr sdk r.signer r.signedXdr tx.networkPassphrase = .ok ()) :
    Authorises sdk tx r.signature ↔ sameTransaction sdk r tx = true := by
  obtain ⟨signed, hsigned, hvalid⟩ := verifySignerXdr_ok h
  rw [sameTransaction, hsigned]
  cases hrecorded : sdk.fromXDR tx.transactionXdr tx.networkPassphrase with
  | error e =>
    refine iff_of_false ?_ Bool.false_ne_true
    rintro ⟨-, recorded, -, -, hok, -⟩
    cases hrecorded.symm.trans hok
  | ok recorded =>
    constructor
    · rintro ⟨signed', recorded', hsigned', -, hrecorded', heq⟩
      obtain rfl := Except.ok.inj (hsigned.symm.trans hsigned')
      obtain rfl := Except.ok.inj (hrecorded.symm.trans hrecorded')
      exact decide_eq_true heq
    · intro hsame
      exact ⟨signed, recorded, hsigned, hvalid, hrecorded, of_decide_eq_true hsame⟩

theorem Authorises.of_fixed {s : Signature} (hfixed : row.fixed = tx.fixed)
    (h : Authorises sdk row s) : Authorises sdk tx s := by
  obtain ⟨hxdr, hpassphrase, -⟩ : row.transactionXdr = tx.transactionXdr ∧
      row.networkPassphrase = tx.networkPassphrase ∧ _ :=
    ⟨congrArg (·.1) hfixed, congrArg (·.2.1) hfixed, trivial⟩
  rwa [Authorises, hxdr, hpassphrase] at h

/-- The record a call is about to write to: what it has read of it still authorises the
transaction, and so would its own signature if the envelope is the right one. -/
structure Reads (sdk : Sdk) (sh : Shared) (r : Request) (tx : Row) : Prop where
  stored : ∃ row, sh.rows r.id = some row ∧ row.fixed = tx.fixed
  authorised : ∀ s ∈ tx.collectedSignatures, Authorises sdk tx s
  verified : verifySignerXdr sdk r.signer r.signedXdr tx.networkPassphrase = .ok ()

structure Sound {ι : Type*} (sdk : Sdk) (s : Calls ι Shared Call) : Prop where
  authorised : Authorised sdk s.shared
  reads : ∀ i r tx, s.call i = .store r tx → Reads sdk s.shared r tx

theorem stored_resume (h : ∃ row, sh.rows r.id = some row ∧ row.fixed = tx.fixed) :
    ∃ row, (resume cfg sh c env).1.rows r.id = some row ∧ row.fixed = tx.fixed := by
  obtain ⟨row, hrow, hfixed⟩ := h
  obtain ⟨f, hf, hkept, -⟩ := resume_rows cfg sh c env r.id
  exact ⟨f row, by rw [hf, hrow, Option.map_some], (hkept row).trans hfixed⟩

section Run

variable {ι : Type*} [DecidableEq ι]

theorem Sound.authorised_step {s : Calls ι Shared Call} (h : Sound cfg.toSdk s) {a : ι × Env}
    (ha : storesSame cfg.toSdk s a = true) :
    Authorised cfg.toSdk (s.step (resume cfg) a).shared := by
  intro id row' hrow' sig hsig
  obtain ⟨f, hf, hfixed, hcase⟩ := resume_rows cfg s.shared (s.call a.1) a.2 id
  rw [Calls.step_shared, hf] at hrow'
  obtain ⟨row, hrow, rfl⟩ := Option.map_eq_some_iff.mp hrow'
  rcases hcase with hkept | ⟨r, tx, hcall, hnone, rfl, rfl⟩
  · rw [hkept] at hsig
    exact (h.authorised id row hrow sig hsig).of_fixed (hfixed row).symm
  · have hreads := h.reads _ _ _ hcall
    obtain ⟨row₀, hrow₀, hfixed₀⟩ := hreads.stored
    obtain rfl := Option.some.inj (hrow.symm.trans hrow₀)
    refine Authorises.of_fixed (hfixed₀.symm.trans (hfixed row).symm) ?_
    rcases List.mem_append.mp hsig with hold | hnew
    · exact hreads.authorised sig hold
    · obtain rfl := List.mem_singleton.mp hnew
      rw [storesSame, hcall, hnone] at ha
      exact (authorises_iff hreads.verified).mpr ha

/-- **One step** that stores the right envelopes. -/
theorem Sound.step {s : Calls ι Shared Call} (h : Sound cfg.toSdk s) {a : ι × Env}
    (ha : storesSame cfg.toSdk s a = true) : Sound cfg.toSdk (s.step (resume cfg) a) := by
  refine ⟨h.authorised_step ha, fun j r tx hj ↦ ?_⟩
  by_cases hja : j = a.1
  · subst hja
    rw [Calls.step_call_self] at hj
    obtain ⟨-, hrow, hok⟩ := resume_eq_store hj
    exact ⟨stored_resume ⟨tx, hrow, rfl⟩, h.authorised _ _ hrow, (checkRecord_ok hok).2.2.2⟩
  · rw [Calls.step_call_of_ne s _ hja] at hj
    have hreads := h.reads j r tx hj
    exact ⟨stored_resume hreads.stored, hreads.authorised, hreads.verified⟩

/-- A step that stores another envelope. -/
theorem Sound.not_authorised {s : Calls ι Shared Call} (h : Sound cfg.toSdk s) {a : ι × Env}
    (ha : ¬storesSame cfg.toSdk s a = true) :
    ¬Authorised cfg.toSdk (s.step (resume cfg) a).shared := by
  intro hafter
  rw [storesSame] at ha
  split at ha
  · rename_i r tx hcall hnone
    have hreads := h.reads _ _ _ hcall
    obtain ⟨row, hrow, hfixed⟩ := hreads.stored
    have hstored : (s.step (resume cfg) a).shared.rows r.id = some (storeSignatures r tx row) := by
      simp only [Calls.step_shared, hcall, resume, hnone]
      exact (rows_update ..).trans (by rw [if_pos rfl, hrow, Option.map_some])
    have hsign := hafter r.id _ hstored r.signature
      (List.mem_append_right _ (List.mem_singleton_self _))
    exact ha ((authorises_iff hreads.verified).mp (hsign.of_fixed hfixed))
  · exact ha rfl

def NotBegun (s : Calls ι Shared Call) : Prop :=
  ∀ i, ∃ id signer signedXdr, s.call i = .waiting id signer signedXdr

/-- **The exact condition.** In every run the signatures collected authorise their transaction
exactly when every envelope that is stored is one of the transaction of its record. -/
theorem always_authorised_iff (cfg : Config) {s : Calls ι Shared Call} (hbegin : NotBegun s)
    (hs : Authorised cfg.toSdk s.shared) (as : List (ι × Env)) :
    Always (Calls.step (resume cfg)) (fun s ↦ Authorised cfg.toSdk s.shared) s as ↔
      Along (Calls.step (resume cfg)) (fun s a ↦ storesSame cfg.toSdk s a = true) s as := by
  have hsound : Sound cfg.toSdk s := by
    refine ⟨hs, fun i r tx hi ↦ ?_⟩
    obtain ⟨id, signer, signedXdr, hwaiting⟩ := hbegin i
    cases hwaiting.symm.trans hi
  exact always_iff_along (I := Sound cfg.toSdk) (P := fun s ↦ Authorised cfg.toSdk s.shared)
    (fun s h ↦ h.authorised) (fun s a h ha ↦ h.step ha) (fun s a h ha ↦ h.not_authorised ha)
    hsound as

end Run

section Examples

/-- A library with three envelopes: the record's, the same signed, and another one signed. A
signature is the hash, followed by the length of the key. -/
def exampleSdk : Sdk where
  fromXDR xdr _ :=
    if xdr = "record" then .ok ⟨[1], []⟩
    else if xdr = "signed" then .ok ⟨[1], [⟨[2], [1, 2]⟩, ⟨[3], [1, 3]⟩]⟩
    else if xdr = "another" then .ok ⟨[9], [⟨[2], [9, 2]⟩]⟩
    else .error "not an envelope"
  signatureHint key := some [key.length]
  verify key hash signature := some (signature = hash ++ [key.length])

def newRecord : Row where
  transactionXdr := "record"
  networkPassphrase := "Test"
  requiredSigners := 2
  signerKeys := ["GA", "GBB"]
  collectedSignatures := []
  status := .pending
  stellarTxHash := none
  stellarLedger := none

def twoSigners (first second : String) : Calls (Fin 2) Shared Call where
  shared := ⟨fun id ↦ if id = 1 then some newRecord else none, [], []⟩
  call i := if i = 0 then .waiting 1 (some "GA") (some first)
    else .waiting 1 (some "GBB") (some second)

theorem notBegun_twoSigners (first second : String) : NotBegun (twoSigners first second) := by
  intro i
  simp only [twoSigners]
  split_ifs
  · exact ⟨_, _, _, rfl⟩
  · exact ⟨_, _, _, rfl⟩

theorem authorised_twoSigners (first second : String) :
    Authorised exampleSdk (twoSigners first second).shared := by
  intro id row hrow s hs
  have hnew : row.collectedSignatures = [] := by
    simp only [twoSigners] at hrow
    split_ifs at hrow
    exact Option.some.inj hrow ▸ rfl
  rw [hnew] at hs
  cases hs

def succeed : Env := ⟨none, .error (.plain "network down")⟩

theorem another_stored :
    (NotBegun (twoSigners "another" "signed") ∧
      Authorised exampleSdk (twoSigners "another" "signed").shared) ∧
    ¬Always (Calls.step (resume (stellarService exampleSdk)))
      (fun s ↦ Authorised exampleSdk s.shared) (twoSigners "another" "signed")
      (List.replicate 3 (0, succeed)) := by
  refine ⟨⟨notBegun_twoSigners _ _, authorised_twoSigners _ _⟩, fun h ↦ ?_⟩
  have hsigns := h.last 1 _ rfl ⟨"GA", "another"⟩ (by decide)
  have hverified : verifySignerXdr exampleSdk "GA" "another" "Test" = .ok () := by rfl
  exact absurd ((authorises_iff (r := ⟨1, "GA", "another"⟩) hverified).mp hsigns)
    (by decide)

/-- Both sign the transaction of the record. -/
theorem always_authorised_iff_at :
    Always (Calls.step (resume (stellarService exampleSdk)))
      (fun s ↦ Authorised exampleSdk s.shared) (twoSigners "signed" "signed")
      (List.replicate 3 (0, succeed) ++ List.replicate 3 (1, succeed)) :=
  (always_authorised_iff (stellarService exampleSdk) (notBegun_twoSigners _ _)
    (authorised_twoSigners _ _) _).mpr (by decide)

end Examples

end StellarDonations.MultiSig
