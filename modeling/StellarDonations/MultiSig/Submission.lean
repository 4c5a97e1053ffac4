import Mathlib.Data.Finset.Card
import StellarDonations.MultiSig.Signatures

/-!
# Submitting once the signatures are complete

Any number of `addSignature` calls run at the same time. Each writes back the list it has read,
extended by its own signature, and decides by the length of that list whether to submit.

A signature that was stored in between is overwritten, and two calls can both find the list
complete. And no service in the code has the method that `_submitTransaction` calls. Signatures are
kept, and the transaction is submitted once and in time, in exactly those runs where every list that
is written contains what the row holds, and where the list that completes the row meets a service
that can submit (`always_proper_iff`).
-/

namespace StellarDonations.MultiSig

open Concurrency

/-! ## New records -/

/-- `createMultiSigTransaction`: the row that is inserted. An argument that fails its check of type
is absent. -/
def createMultiSigTransaction (transactionXdr networkPassphrase : Option String)
    (requiredSigners : Option ℤ) (signerKeys : Option (List String)) : Except AppError Row :=
  match transactionXdr.filter (· ≠ ""), networkPassphrase.filter (· ≠ ""),
      requiredSigners.filter (2 ≤ ·) with
  | none, _, _ => .error (.validation "transaction_xdr is required")
  | some _, none, _ => .error (.validation "network_passphrase is required")
  | some _, some _, none => .error (.validation "required_signers must be an integer ≥ 2")
  | some transactionXdr, some networkPassphrase, some requiredSigners =>
    match signerKeys.filter fun keys ↦ requiredSigners ≤ keys.length with
    | none => .error (.validation
        "signer_keys must be an array with at least required_signers entries")
    | some signerKeys =>
      if signerKeys.Nodup then .ok {
        transactionXdr := transactionXdr
        networkPassphrase := networkPassphrase
        requiredSigners := requiredSigners.toNat
        signerKeys := signerKeys
        collectedSignatures := []
        status := .pending
        stellarTxHash := none
        stellarLedger := none }
      else .error (.validation "signer_keys must not contain duplicates")

/-- Nothing has been collected yet, and nothing is complete. -/
structure Row.New (row : Row) : Prop where
  collected : row.collectedSignatures = []
  required : 2 ≤ row.requiredSigners

theorem createMultiSigTransaction_new {transactionXdr networkPassphrase : Option String}
    {requiredSigners : Option ℤ} {signerKeys : Option (List String)} {row : Row}
    (h : createMultiSigTransaction transactionXdr networkPassphrase requiredSigners signerKeys
      = .ok row) : row.New := by
  rw [createMultiSigTransaction] at h
  split at h
  · cases h
  · cases h
  · cases h
  · rename_i required _ _ hrequired
    split at h
    · cases h
    · split_ifs at h
      obtain rfl := Except.ok.inj h
      have htwo : (2 : ℤ) ≤ required := of_decide_eq_true (Option.filter_eq_some_iff.mp hrequired).2
      exact ⟨rfl, by dsimp only; omega⟩

/-! ## The property -/

/-- The distinct keys whose signatures were accepted for a record. -/
def signers (sh : Shared) (id : ℕ) : Finset String :=
  ((sh.accepted.filter (·.1 = id)).map (·.2.signer)).toFinset

variable {ι : Type*}

/-- Some call is submitting the transaction. -/
def Submitting (s : Calls ι Shared Call) (id : ℕ) : Prop := ∃ i, s.call i = .submit id

/-- Each transaction is submitted at most once, no accepted signature is lost, and a transaction
with enough signers has been submitted or is being submitted. -/
structure Proper (s : Calls ι Shared Call) : Prop where
  once : ∀ id, s.shared.submissions.count id ≤ 1
  apart : ∀ id, AtMostOne (· = Call.submit id) s.call
  closed : ∀ id ∈ s.shared.submissions, ¬Submitting s id
  kept : ∀ e ∈ s.shared.accepted,
    ∃ row, s.shared.rows e.1 = some row ∧ e.2 ∈ row.collectedSignatures
  due : ∀ id row, s.shared.rows id = some row → row.requiredSigners ≤ (signers s.shared id).card →
    id ∈ s.shared.submissions ∨ Submitting s id

/-- The list that is written contains what the row holds. If it completes the row, the row was not
complete, and the service can submit. -/
def StoresOver (cfg : Config) (r : Request) (tx row : Row) : Prop :=
  (∀ x ∈ row.collectedSignatures, x ∈ updatedSignatures r tx) ∧
    (thresholdMet r tx = true →
      cfg.hasSubmit = true ∧ row.collectedSignatures.length < row.requiredSigners)

instance (cfg : Config) (r : Request) (tx row : Row) : Decidable (StoresOver cfg r tx row) :=
  inferInstanceAs (Decidable (_ ∧ _))

/-- If the step stores signatures, it does so over the row as it is. -/
def storesOver (cfg : Config) (s : Calls ι Shared Call) (a : ι × Env) : Bool :=
  match s.call a.1, a.2.dbError with
  | .store r tx, none => (s.shared.rows r.id).all fun row ↦ StoresOver cfg r tx row
  | _, _ => true

/-! ## The steps -/

variable {cfg : Config} {sh : Shared} {c : Call} {env : Env} {r : Request} {tx row : Row}

/-- A step that neither stores nor submits keeps all that is collected, does not make a record
pending, and leaves the call not submitting. -/
structure Idles (sh sh' : Shared) (c c' : Call) : Prop where
  accepted : sh'.accepted = sh.accepted
  submissions : sh'.submissions = sh.submissions
  rows : ∀ id, ∃ f : Row → Row, sh'.rows id = (sh.rows id).map f ∧ ∀ row,
    (f row).fixed = row.fixed ∧ (f row).collectedSignatures = row.collectedSignatures ∧
    ((f row).status = .pending → row.status = .pending)
  before : ∀ id, c ≠ .submit id
  after : ∀ id, c' ≠ .submit id

theorem Idles.same {c' : Call} (hbefore : ∀ id, c ≠ .submit id) (hafter : ∀ id, c' ≠ .submit id) :
    Idles sh sh c c' := by
  refine ⟨rfl, rfl, fun id ↦ ?_, hbefore, hafter⟩
  exact ⟨fun row ↦ row, Option.map_id'.symm, fun _ ↦ ⟨rfl, rfl, fun h ↦ h⟩⟩

theorem Idles.mark {c' : Call} {id : ℕ} {f : Row → Row}
    (hf : ∀ row, (f row).fixed = row.fixed ∧
      (f row).collectedSignatures = row.collectedSignatures ∧ (f row).status ≠ .pending)
    (hbefore : ∀ id, c ≠ .submit id) (hafter : ∀ id, c' ≠ .submit id) :
    Idles sh (sh.update id f) c c' := by
  refine ⟨rfl, rfl, fun id' ↦ ⟨_, rows_update sh id f id', fun row ↦ ?_⟩, hbefore, hafter⟩
  split_ifs
  · obtain ⟨hfixed, hkept, hstatus⟩ := hf row
    exact ⟨hfixed, hkept, fun h ↦ absurd h hstatus⟩
  · exact ⟨rfl, rfl, fun h ↦ h⟩

/-- **What a step does.** It stores, submits, or does neither. -/
theorem resume_cases (cfg : Config) (sh : Shared) (c : Call) (env : Env) :
    (∃ r tx, c = .store r tx ∧ env.dbError = none) ∨ (∃ id, c = .submit id) ∨
      Idles sh (resume cfg sh c env).1 c (resume cfg sh c env).2 := by
  rcases env with ⟨_ | e, network⟩ <;> cases c
  case none.store r tx => exact .inl ⟨r, tx, rfl, rfl⟩
  case none.submit id | some.submit id => exact .inr (.inl ⟨id, rfl⟩)
  all_goals refine .inr (.inr ?_)
  case none.markSubmitted id result | none.markFailed id =>
    exact .mark (fun _ ↦ ⟨rfl, rfl, by simp⟩) (fun _ ↦ by simp) fun _ ↦ by simp [resume]
  case none.waiting | some.waiting =>
    rw [resume]
    split <;> exact .same (fun _ ↦ by simp) fun _ ↦ by simp
  case none.load r =>
    simp only [resume]
    split
    · exact .same (fun _ ↦ by simp) fun _ ↦ by simp
    · split <;> exact .same (fun _ ↦ by simp) fun _ ↦ by simp
  all_goals exact .same (fun _ ↦ by simp) fun _ ↦ by simp [resume]

/-! ## The invariant -/

def Met (sh : Shared) (id : ℕ) : Prop :=
  ∃ row, sh.rows id = some row ∧ row.requiredSigners ≤ row.collectedSignatures.length

/-- What a call about to store has read: signatures the row still holds, too few of them and none
by its own signer. -/
structure Extends (sh : Shared) (r : Request) (tx : Row) : Prop where
  stored : ∃ row, sh.rows r.id = some row ∧ row.fixed = tx.fixed ∧
    ∀ x ∈ tx.collectedSignatures, x ∈ row.collectedSignatures
  below : tx.collectedSignatures.length < tx.requiredSigners
  distinct : (tx.collectedSignatures.map (·.signer)).Nodup
  new : ∀ x ∈ tx.collectedSignatures, x.signer ≠ r.signer

/-- What is accepted is what is stored, by distinct signers, and the one call whose signature
completed a record is submitting it or has submitted it. -/
structure Orderly (cfg : Config) (s : Calls ι Shared Call) : Prop where
  accepted : ∀ id row, s.shared.rows id = some row → ∀ x,
    (id, x) ∈ s.shared.accepted ↔ x ∈ row.collectedSignatures
  known : ∀ e ∈ s.shared.accepted, ∃ row, s.shared.rows e.1 = some row
  distinct : ∀ id row, s.shared.rows id = some row →
    (row.collectedSignatures.map (·.signer)).Nodup
  pending : ∀ id row, s.shared.rows id = some row → row.status = .pending →
    row.collectedSignatures.length < row.requiredSigners
  reads : ∀ i r tx, s.call i = .store r tx → Extends s.shared r tx
  idle : ∀ id, ¬Met s.shared id → id ∉ s.shared.submissions ∧ ¬Submitting s id
  able : ∀ id, Met s.shared id → cfg.hasSubmit = true
  busy : ∀ id, Met s.shared id → s.shared.submissions.count id = 1 ∧ ¬Submitting s id ∨
    id ∉ s.shared.submissions ∧ ∃! i, s.call i = .submit id

/-- What the invariant says about the submission of one record. -/
structure SubmitsOnce (cfg : Config) (s : Calls ι Shared Call) (id : ℕ) : Prop where
  idle : ¬Met s.shared id → id ∉ s.shared.submissions ∧ ¬Submitting s id
  able : Met s.shared id → cfg.hasSubmit = true
  busy : Met s.shared id → s.shared.submissions.count id = 1 ∧ ¬Submitting s id ∨
    id ∉ s.shared.submissions ∧ ∃! i, s.call i = .submit id

theorem Orderly.submitsOnce {s : Calls ι Shared Call} (h : Orderly cfg s) (id : ℕ) :
    SubmitsOnce cfg s id :=
  ⟨h.idle id, h.able id, h.busy id⟩

theorem SubmitsOnce.frame {s s' : Calls ι Shared Call} {id : ℕ} (h : SubmitsOnce cfg s id)
    (hmet : Met s'.shared id ↔ Met s.shared id)
    (hcount : s'.shared.submissions.count id = s.shared.submissions.count id)
    (hcalls : ∀ i, s'.call i = .submit id ↔ s.call i = .submit id) : SubmitsOnce cfg s' id := by
  have hsub : Submitting s' id ↔ Submitting s id := exists_congr hcalls
  have hmem : id ∈ s'.shared.submissions ↔ id ∈ s.shared.submissions := by
    rw [← List.count_pos_iff, hcount, List.count_pos_iff]
  constructor
  · rw [hmet, hmem, hsub]
    exact h.idle
  · rw [hmet]
    exact h.able
  · rw [hmet, hmem, hsub, hcount]
    simp only [hcalls]
    exact h.busy

theorem met_iff {id : ℕ} (hrow : sh.rows id = some row) :
    Met sh id ↔ row.requiredSigners ≤ row.collectedSignatures.length := by
  refine ⟨fun ⟨row', hrow', hle⟩ ↦ ?_, fun hle ↦ ⟨row, hrow, hle⟩⟩
  obtain rfl := Option.some.inj (hrow.symm.trans hrow')
  exact hle

theorem mem_signers {id : ℕ} {key : String} :
    key ∈ signers sh id ↔ ∃ x, (id, x) ∈ sh.accepted ∧ x.signer = key := by
  rw [signers, List.mem_toFinset, List.mem_map]
  constructor
  · rintro ⟨⟨id', x⟩, hmem, rfl⟩
    obtain ⟨haccepted, hid⟩ := List.mem_filter.mp hmem
    obtain rfl := of_decide_eq_true hid
    exact ⟨x, haccepted, rfl⟩
  · rintro ⟨x, hmem, rfl⟩
    exact ⟨(id, x), List.mem_filter.mpr ⟨hmem, decide_eq_true rfl⟩, rfl⟩

theorem card_signers {id : ℕ} {xs : List Signature} (hdistinct : (xs.map (·.signer)).Nodup)
    (h : ∀ x, (id, x) ∈ sh.accepted ↔ x ∈ xs) : (signers sh id).card = xs.length := by
  have heq : signers sh id = (xs.map (·.signer)).toFinset := by
    ext key
    rw [mem_signers, List.mem_toFinset, List.mem_map]
    exact exists_congr fun x ↦ and_congr_left' (h x)
  rw [heq, List.toFinset_card_of_nodup hdistinct, List.length_map]

theorem Orderly.proper {s : Calls ι Shared Call} (h : Orderly cfg s) : Proper s := by
  refine ⟨fun id ↦ ?_, fun id i j hi hj ↦ ?_, fun id hid hsub ↦ ?_, fun e he ↦ ?_,
    fun id row hrow hdue ↦ ?_⟩
  · by_cases hmet : Met s.shared id
    · rcases h.busy id hmet with ⟨hcount, -⟩ | ⟨hnot, -⟩
      · exact hcount.le
      · exact (List.count_eq_zero.mpr hnot).trans_le zero_le_one
    · exact (List.count_eq_zero.mpr (h.idle id hmet).1).trans_le zero_le_one
  · have hmet : Met s.shared id := not_not.mp fun hnot ↦ (h.idle id hnot).2 ⟨i, hi⟩
    rcases h.busy id hmet with ⟨-, hnone⟩ | ⟨-, hone⟩
    · exact absurd ⟨i, hi⟩ hnone
    · exact hone.unique hi hj
  · have hmet : Met s.shared id := not_not.mp fun hnot ↦ (h.idle id hnot).1 hid
    rcases h.busy id hmet with ⟨-, hnone⟩ | ⟨hnot, -⟩
    · exact hnone hsub
    · exact hnot hid
  · obtain ⟨row, hrow⟩ := h.known e he
    exact ⟨row, hrow, (h.accepted _ row hrow e.2).mp he⟩
  · rw [card_signers (h.distinct id row hrow) (h.accepted id row hrow)] at hdue
    rcases h.busy id ⟨row, hrow, hdue⟩ with ⟨hcount, -⟩ | ⟨-, hone⟩
    · exact .inl (List.count_pos_iff.mp (hcount ▸ zero_lt_one))
    · exact .inr hone.exists

/-! ## One step -/

variable {s : Calls ι Shared Call}

theorem Extends.mono {sh' : Shared} (h : Extends sh r tx)
    (hrows : ∀ row, sh.rows r.id = some row → ∃ row', sh'.rows r.id = some row' ∧
      row'.fixed = row.fixed ∧ ∀ x ∈ row.collectedSignatures, x ∈ row'.collectedSignatures) :
    Extends sh' r tx := by
  obtain ⟨row, hrow, hfixed, hmem⟩ := h.stored
  obtain ⟨row', hrow', hfixed', hmem'⟩ := hrows row hrow
  refine ⟨⟨row', hrow', hfixed'.trans hfixed, fun x hx ↦ ?_⟩, h.below, h.distinct, h.new⟩
  exact hmem' x (hmem x hx)

theorem Extends.requiredSigners (h : Extends sh r tx) (hrow : sh.rows r.id = some row) :
    tx.requiredSigners = row.requiredSigners := by
  obtain ⟨row', hrow', hfixed, -⟩ := h.stored
  obtain rfl := Option.some.inj (hrow.symm.trans hrow')
  exact (congrArg (·.2.2.1) hfixed).symm

theorem Orderly.extends (h : Orderly cfg s) (hrow : s.shared.rows r.id = some tx)
    (hok : checkRecord cfg.toSdk r tx = .ok ()) : Extends s.shared r tx := by
  obtain ⟨hpending, -, hnew, -⟩ := checkRecord_ok hok
  exact ⟨⟨tx, hrow, rfl, fun _ hx ↦ hx⟩, h.pending _ _ hrow hpending, h.distinct _ _ hrow, hnew⟩

/-- The list a call writes back has distinct signers. -/
theorem Extends.updated_distinct (h : Extends sh r tx) :
    ((updatedSignatures r tx).map (·.signer)).Nodup := by
  rw [updatedSignatures, List.map_append, List.map_singleton]
  refine List.nodup_append.mpr ⟨h.distinct, List.nodup_singleton _, fun key hkey key' hkey' ↦ ?_⟩
  obtain ⟨x, hx, rfl⟩ := List.mem_map.mp hkey
  rw [List.mem_singleton.mp hkey']
  exact h.new x hx

theorem mem_updated (hsub : ∀ x ∈ tx.collectedSignatures, x ∈ row.collectedSignatures)
    (hover : ∀ x ∈ row.collectedSignatures, x ∈ updatedSignatures r tx) (x : Signature) :
    x ∈ updatedSignatures r tx ↔ x ∈ row.collectedSignatures ∨ x = r.signature := by
  constructor
  · intro hx
    rcases List.mem_append.mp hx with hold | hnew
    · exact .inl (hsub x hold)
    · exact .inr (List.mem_singleton.mp hnew)
  · rintro (hold | rfl)
    · exact hover x hold
    · exact List.mem_append_right _ (List.mem_singleton_self _)

/-- And then it is at least as long as what the row holds. -/
theorem length_le_updated (hdistinct : (row.collectedSignatures.map (·.signer)).Nodup)
    (hover : ∀ x ∈ row.collectedSignatures, x ∈ updatedSignatures r tx) :
    row.collectedSignatures.length ≤ (updatedSignatures r tx).length :=
  (List.subperm_of_subset hdistinct.of_map hover).length_le

theorem mem_accepted_append {id : ℕ} {x : Signature} {accepted : List (ℕ × Signature)} :
    (id, x) ∈ accepted ++ [(r.id, r.signature)] ↔
      (id, x) ∈ accepted ∨ id = r.id ∧ x = r.signature := by
  rw [List.mem_append, List.mem_singleton, Prod.mk.injEq]

theorem Orderly.mem_accepted (h : Orderly cfg s) (hread : Extends s.shared r tx)
    (hrow : s.shared.rows r.id = some row)
    (hover : ∀ x ∈ row.collectedSignatures, x ∈ updatedSignatures r tx) (x : Signature) :
    (r.id, x) ∈ s.shared.accepted ++ [(r.id, r.signature)] ↔ x ∈ updatedSignatures r tx := by
  obtain ⟨row₀, hrow₀, -, hsub⟩ := hread.stored
  obtain rfl := Option.some.inj (hrow.symm.trans hrow₀)
  rw [mem_accepted_append, mem_updated hsub hover, h.accepted _ _ hrow, and_iff_right rfl]

section Step

variable [DecidableEq ι] {a : ι × Env}

theorem call_submit_iff {i : ι} {id : ℕ}
    (h : (resume cfg s.shared (s.call a.1) a.2).2 = .submit id ↔ s.call a.1 = .submit id) :
    (s.step (resume cfg) a).call i = .submit id ↔ s.call i = .submit id := by
  by_cases hi : i = a.1
  · subst hi
    rw [Calls.step_call_self]
    exact h
  · rw [Calls.step_call_of_ne s _ hi]

theorem Orderly.of_idles (h : Orderly cfg s)
    (hi : Idles s.shared (resume cfg s.shared (s.call a.1) a.2).1 (s.call a.1)
      (resume cfg s.shared (s.call a.1) a.2).2) : Orderly cfg (s.step (resume cfg) a) := by
  have hrow : ∀ id row', (s.step (resume cfg) a).shared.rows id = some row' →
      ∃ row, s.shared.rows id = some row ∧ row'.requiredSigners = row.requiredSigners ∧
        row'.collectedSignatures = row.collectedSignatures ∧
        (row'.status = .pending → row.status = .pending) := by
    intro id row' hrow'
    obtain ⟨f, hf, hkept⟩ := hi.rows id
    obtain ⟨row, hrow, rfl⟩ := Option.map_eq_some_iff.mp (hf.symm.trans hrow')
    obtain ⟨hfixed, hcollected, hpending⟩ := hkept row
    exact ⟨row, hrow, congrArg (·.2.2.1) hfixed, hcollected, hpending⟩
  have hrow' : ∀ id row, s.shared.rows id = some row →
      ∃ row', (s.step (resume cfg) a).shared.rows id = some row' ∧ row'.fixed = row.fixed ∧
        row'.collectedSignatures = row.collectedSignatures := by
    intro id row hrow
    obtain ⟨f, hf, hkept⟩ := hi.rows id
    refine ⟨f row, hf.trans (by rw [hrow, Option.map_some]), (hkept row).1, (hkept row).2.1⟩
  have hmet : ∀ id, Met (s.step (resume cfg) a).shared id ↔ Met s.shared id := by
    refine fun id ↦ ⟨fun ⟨row', h', hlen⟩ ↦ ?_, fun ⟨row, h', hlen⟩ ↦ ?_⟩
    · obtain ⟨row, hmem, hrequired, hcollected, -⟩ := hrow id row' h'
      exact ⟨row, hmem, hrequired ▸ hcollected ▸ hlen⟩
    · obtain ⟨row', hmem, hfixed, hcollected⟩ := hrow' id row h'
      have hrequired : row'.requiredSigners = row.requiredSigners := congrArg (·.2.2.1) hfixed
      exact ⟨row', hmem, by rwa [hrequired, hcollected]⟩
  have hcall : ∀ i id, (s.step (resume cfg) a).call i = .submit id ↔ s.call i = .submit id :=
    fun i id ↦ call_submit_iff (iff_of_false (hi.after id) (hi.before id))
  have hsubmits : ∀ id, SubmitsOnce cfg (s.step (resume cfg) a) id := fun id ↦
    (h.submitsOnce id).frame (hmet id) (congrArg (List.count id) hi.submissions) (hcall · id)
  have haccepted : (s.step (resume cfg) a).shared.accepted = s.shared.accepted := hi.accepted
  refine ⟨fun id row' h' x ↦ ?_, fun e he ↦ ?_, fun id row' h' ↦ ?_, fun id row' h' hpending ↦ ?_,
    fun i r tx hcall ↦ ?_, fun id ↦ (hsubmits id).idle, fun id ↦ (hsubmits id).able,
    fun id ↦ (hsubmits id).busy⟩
  · obtain ⟨row, hmem, -, hcollected, -⟩ := hrow id row' h'
    rw [haccepted, hcollected]
    exact h.accepted id row hmem x
  · rw [haccepted] at he
    obtain ⟨row, hmem⟩ := h.known e he
    obtain ⟨row', hmem', -⟩ := hrow' _ row hmem
    exact ⟨row', hmem'⟩
  · obtain ⟨row, hmem, -, hcollected, -⟩ := hrow id row' h'
    rw [hcollected]
    exact h.distinct id row hmem
  · obtain ⟨row, hmem, hrequired, hcollected, hstatus⟩ := hrow id row' h'
    rw [hrequired, hcollected]
    exact h.pending id row hmem (hstatus hpending)
  · have hread : Extends s.shared r tx := by
      by_cases hia : i = a.1
      · subst hia
        rw [Calls.step_call_self] at hcall
        obtain ⟨-, hmem, hok⟩ := resume_eq_store hcall
        exact h.extends hmem hok
      · rw [Calls.step_call_of_ne s _ hia] at hcall
        exact h.reads i r tx hcall
    refine hread.mono fun row hmem ↦ ?_
    obtain ⟨row', hmem', hfixed, hcollected⟩ := hrow' _ row hmem
    exact ⟨row', hmem', hfixed, fun x hx ↦ hcollected ▸ hx⟩

/-- The step that submits: no other call was submitting the record, and nobody has. -/
theorem Orderly.submitsOnce_of_submit (h : Orderly cfg s) {id : ℕ}
    (hcall : s.call a.1 = .submit id) (id' : ℕ) :
    SubmitsOnce cfg (s.step (resume cfg) a) id' := by
  have hshared : (s.step (resume cfg) a).shared =
      { s.shared with submissions := s.shared.submissions ++ [id] } := by
    rw [Calls.step_shared, hcall, resume]
  have hdone : ∀ id', (resume cfg s.shared (s.call a.1) a.2).2 ≠ .submit id' := by
    intro id'
    simp only [hcall, resume]
    split <;> simp
  have hmet' : Met (s.step (resume cfg) a).shared id' ↔ Met s.shared id' := by rw [hshared]; rfl
  by_cases hne : id' = id
  · subst hne
    have hmet : Met s.shared id' := not_not.mp fun hnot ↦ (h.idle id' hnot).2 ⟨a.1, hcall⟩
    obtain ⟨hnot, hone⟩ : id' ∉ s.shared.submissions ∧ ∃! i, s.call i = .submit id' := by
      rcases h.busy id' hmet with ⟨-, hnone⟩ | hone
      · exact absurd ⟨a.1, hcall⟩ hnone
      · exact hone
    refine ⟨fun hidle ↦ absurd (hmet'.mpr hmet) hidle, fun _ ↦ h.able id' hmet,
      fun _ ↦ .inl ⟨?_, ?_⟩⟩
    · rw [hshared, List.count_append, List.count_eq_zero.mpr hnot, List.count_singleton_self,
        zero_add]
    · rintro ⟨i, hi⟩
      by_cases hia : i = a.1
      · subst hia
        rw [Calls.step_call_self] at hi
        exact hdone _ hi
      · rw [Calls.step_call_of_ne s _ hia] at hi
        exact hia (hone.unique hi hcall)
  · refine (h.submitsOnce id').frame hmet' ?_ fun i ↦ ?_
    · rw [hshared, List.count_append, List.count_singleton, if_neg (by simpa using Ne.symm hne),
        add_zero]
    · refine call_submit_iff (iff_of_false (hdone id') fun h' ↦ hne ?_)
      exact (Call.submit.inj (hcall.symm.trans h')).symm

theorem Orderly.of_submit (h : Orderly cfg s) {id : ℕ} (hcall : s.call a.1 = .submit id) :
    Orderly cfg (s.step (resume cfg) a) := by
  have hshared : (s.step (resume cfg) a).shared =
      { s.shared with submissions := s.shared.submissions ++ [id] } := by
    rw [Calls.step_shared, hcall, resume]
  have hsubmits := h.submitsOnce_of_submit hcall
  refine ⟨?_, ?_, ?_, ?_, fun i r tx hi ↦ ?_, fun id' ↦ (hsubmits id').idle,
    fun id' ↦ (hsubmits id').able, fun id' ↦ (hsubmits id').busy⟩
  · rw [hshared]
    exact h.accepted
  · rw [hshared]
    exact h.known
  · rw [hshared]
    exact h.distinct
  · rw [hshared]
    exact h.pending
  · have hia : i ≠ a.1 := by
      rintro rfl
      rw [Calls.step_call_self, hcall] at hi
      obtain ⟨hload, -⟩ := resume_eq_store hi
      cases hload
    rw [Calls.step_call_of_ne s _ hia] at hi
    have hread := h.reads i r tx hi
    rw [hshared]
    exact ⟨hread.stored, hread.below, hread.distinct, hread.new⟩

theorem shared_of_store (cfg : Config) (hcall : s.call a.1 = .store r tx)
    (hnone : a.2.dbError = none) (hrow : s.shared.rows r.id = some row) :
    (s.step (resume cfg) a).shared =
      ⟨Function.update s.shared.rows r.id (some (storeSignatures r tx row)),
        s.shared.accepted ++ [(r.id, r.signature)], s.shared.submissions⟩ := by
  simp only [Calls.step_shared, hcall, resume, hnone, Shared.update, hrow, Option.map_some]

theorem call_of_store (cfg : Config) (hcall : s.call a.1 = .store r tx)
    (hnone : a.2.dbError = none) :
    (s.step (resume cfg) a).call a.1 = if thresholdMet r tx then
      if cfg.hasSubmit then .submit r.id else .markFailed r.id else .reload r.id := by
  simp only [Calls.step_call, Function.update_self, hcall, resume, hnone]

theorem rows_of_store (cfg : Config) (hcall : s.call a.1 = .store r tx)
    (hnone : a.2.dbError = none) (hrow : s.shared.rows r.id = some row) {id : ℕ} {row' : Row}
    (h : (s.step (resume cfg) a).shared.rows id = some row') :
    id = r.id ∧ row' = storeSignatures r tx row ∨ id ≠ r.id ∧ s.shared.rows id = some row' := by
  have hafter := congrFun (congrArg Shared.rows (shared_of_store cfg hcall hnone hrow)) id
  rw [h] at hafter
  by_cases hid : id = r.id
  · subst hid
    exact .inl ⟨rfl, Option.some.inj (hafter.trans (Function.update_self ..))⟩
  · exact .inr ⟨hid, (hafter.trans (Function.update_of_ne hid ..)).symm⟩

theorem row_of_store (cfg : Config) (hcall : s.call a.1 = .store r tx)
    (hnone : a.2.dbError = none) (hrow : s.shared.rows r.id = some row) :
    (s.step (resume cfg) a).shared.rows r.id = some (storeSignatures r tx row) := by
  rw [shared_of_store cfg hcall hnone hrow]
  exact Function.update_self ..

theorem other_row_of_store (cfg : Config) (hcall : s.call a.1 = .store r tx)
    (hnone : a.2.dbError = none) (hrow : s.shared.rows r.id = some row) {id : ℕ}
    (hid : id ≠ r.id) : (s.step (resume cfg) a).shared.rows id = s.shared.rows id := by
  rw [shared_of_store cfg hcall hnone hrow]
  exact Function.update_of_ne hid ..

/-- A step that stores over the row as it is: the call whose signature completes the row is the one
that submits. -/
theorem Orderly.submitsOnce_of_store (h : Orderly cfg s) (hcall : s.call a.1 = .store r tx)
    (hnone : a.2.dbError = none) (hrow : s.shared.rows r.id = some row)
    (hstores : StoresOver cfg r tx row) (id : ℕ) :
    SubmitsOnce cfg (s.step (resume cfg) a) id := by
  have hrequired := (h.reads _ _ _ hcall).requiredSigners hrow
  have hshared := shared_of_store cfg hcall hnone hrow
  have hself := call_of_store cfg hcall hnone
  have hsubmissions : (s.step (resume cfg) a).shared.submissions = s.shared.submissions := by
    rw [hshared]
  by_cases hid : id = r.id
  · subst hid
    have hmet : Met (s.step (resume cfg) a).shared r.id ↔ thresholdMet r tx = true := by
      rw [met_iff (row_of_store cfg hcall hnone hrow), thresholdMet, decide_eq_true_iff, hrequired]
      rfl
    by_cases hthreshold : thresholdMet r tx = true
    · -- this call completes the row, so nobody has submitted or is submitting yet
      obtain ⟨hable, hbelow⟩ := hstores.2 hthreshold
      have hidle := h.idle _ (mt (met_iff hrow).mp (not_le.mpr hbelow))
      refine ⟨fun hnot ↦ absurd (hmet.mpr hthreshold) hnot, fun _ ↦ hable, fun _ ↦ ?_⟩
      rw [hsubmissions]
      refine .inr ⟨hidle.1, a.1, ?_, fun i hi ↦ ?_⟩
      · exact hself.trans (by rw [if_pos hthreshold, if_pos hable])
      · by_contra hia
        exact hidle.2 ⟨i, (Calls.step_call_of_ne s a.2 hia).symm.trans hi⟩
    · -- the row was and stays incomplete
      have hlen := length_le_updated (h.distinct _ _ hrow) hstores.1
      have hbefore : ¬Met s.shared r.id := fun hmet' ↦
        hthreshold (decide_eq_true (hrequired.trans_le (((met_iff hrow).mp hmet').trans hlen)))
      refine (h.submitsOnce _).frame (iff_of_false (mt hmet.mp hthreshold) hbefore)
        (congrArg _ hsubmissions) fun i ↦ call_submit_iff (iff_of_false ?_ (by simp [hcall]))
      rw [← Calls.step_call_self, hself, if_neg hthreshold]
      simp
  · refine (h.submitsOnce id).frame ?_ (congrArg _ hsubmissions) fun i ↦
      call_submit_iff (iff_of_false ?_ (by simp [hcall]))
    · rw [Met, Met, other_row_of_store cfg hcall hnone hrow hid]
    · rw [← Calls.step_call_self, hself]
      split_ifs <;> simp [Ne.symm hid]

theorem Orderly.of_store (h : Orderly cfg s) (hcall : s.call a.1 = .store r tx)
    (hnone : a.2.dbError = none) (hrow : s.shared.rows r.id = some row)
    (hstores : StoresOver cfg r tx row) : Orderly cfg (s.step (resume cfg) a) := by
  have hread := h.reads _ _ _ hcall
  have hshared := shared_of_store cfg hcall hnone hrow
  have hself := row_of_store cfg hcall hnone hrow
  have hother : ∀ id, id ≠ r.id → (s.step (resume cfg) a).shared.rows id = s.shared.rows id :=
    fun _ hid ↦ other_row_of_store cfg hcall hnone hrow hid
  have hsubmits := h.submitsOnce_of_store hcall hnone hrow hstores
  refine ⟨fun id row' h' x ↦ ?_, fun e he ↦ ?_, fun id row' h' ↦ ?_, fun id row' h' hpending ↦ ?_,
    fun i r' tx' hi ↦ ?_, fun id ↦ (hsubmits id).idle, fun id ↦ (hsubmits id).able,
    fun id ↦ (hsubmits id).busy⟩
  · rw [hshared]
    rcases rows_of_store cfg hcall hnone hrow h' with ⟨rfl, rfl⟩ | ⟨hne, hold⟩
    · exact h.mem_accepted hread hrow hstores.1 x
    · rw [mem_accepted_append, or_iff_left fun hnew ↦ hne hnew.1]
      exact h.accepted id row' hold x
  · by_cases hid : e.1 = r.id
    · exact ⟨storeSignatures r tx row, by rw [hid]; exact hself⟩
    · rw [hshared] at he
      have hold : e ∈ s.shared.accepted := by
        rcases List.mem_append.mp he with hold | hnew
        · exact hold
        · exact absurd (congrArg (·.1) (List.mem_singleton.mp hnew)) hid
      obtain ⟨row', hrow'⟩ := h.known e hold
      exact ⟨row', (hother _ hid).trans hrow'⟩
  · rcases rows_of_store cfg hcall hnone hrow h' with ⟨rfl, rfl⟩ | ⟨-, hold⟩
    · exact hread.updated_distinct
    · exact h.distinct id row' hold
  · rcases rows_of_store cfg hcall hnone hrow h' with ⟨rfl, rfl⟩ | ⟨-, hold⟩
    · refine not_le.mp fun hle ↦ ?_
      have hthreshold : thresholdMet r tx = true :=
        decide_eq_true ((hread.requiredSigners hrow).trans_le hle)
      rw [storeSignatures, if_pos hthreshold] at hpending
      cases hpending
    · exact h.pending id row' hold hpending
  · have hia : i ≠ a.1 := by
      rintro rfl
      rw [call_of_store cfg hcall hnone] at hi
      split_ifs at hi
    rw [Calls.step_call_of_ne s _ hia] at hi
    refine (h.reads i r' tx' hi).mono fun row' hrow' ↦ ?_
    by_cases hid : r'.id = r.id
    · rw [hid] at hrow' ⊢
      obtain rfl := Option.some.inj (hrow.symm.trans hrow')
      exact ⟨_, hself, rfl, hstores.1⟩
    · exact ⟨row', (hother _ hid).trans hrow', rfl, fun _ hx ↦ hx⟩

/-- **One step** that stores over the row as it is, or does not store. -/
theorem Orderly.step (h : Orderly cfg s) (ha : storesOver cfg s a = true) :
    Orderly cfg (s.step (resume cfg) a) := by
  rcases resume_cases cfg s.shared (s.call a.1) a.2 with
    ⟨r, tx, hcall, hnone⟩ | ⟨id, hcall⟩ | hidles
  · obtain ⟨row, hrow, -⟩ := (h.reads _ _ _ hcall).stored
    simp only [storesOver, hcall, hnone, hrow, Option.all_some] at ha
    exact h.of_store hcall hnone hrow (of_decide_eq_true ha)
  · exact h.of_submit hcall
  · exact h.of_idles hidles

omit [DecidableEq ι] in
theorem of_not_storesOver (ha : ¬storesOver cfg s a = true) : ∃ r tx row,
    s.call a.1 = .store r tx ∧ a.2.dbError = none ∧ s.shared.rows r.id = some row ∧
      ¬StoresOver cfg r tx row := by
  rw [storesOver] at ha
  split at ha
  · rename_i r tx hcall hnone
    cases hrow : s.shared.rows r.id with
    | none => exact absurd (by rw [hrow, Option.all_none]) ha
    | some row =>
      rw [hrow, Option.all_some, decide_eq_true_iff] at ha
      exact ⟨r, tx, row, hcall, hnone, hrow, ha⟩
  · exact absurd rfl ha

/-- A step that stores over something else. -/
theorem Orderly.not_proper (h : Orderly cfg s) (ha : ¬storesOver cfg s a = true) :
    ¬Proper (s.step (resume cfg) a) := by
  intro hafter
  obtain ⟨r, tx, row, hcall, hnone, hrow, hnot⟩ := of_not_storesOver ha
  have hread := h.reads _ _ _ hcall
  have hrequired := hread.requiredSigners hrow
  have hshared := shared_of_store cfg hcall hnone hrow
  have hself := call_of_store cfg hcall hnone
  have hstored := row_of_store cfg hcall hnone hrow
  -- nothing accepted has been lost, so the list contains what the row held
  have hover : ∀ x ∈ row.collectedSignatures, x ∈ updatedSignatures r tx := by
    intro x hx
    have hmem : (r.id, x) ∈ (s.step (resume cfg) a).shared.accepted := by
      rw [hshared]
      exact List.mem_append_left _ ((h.accepted _ _ hrow x).mpr hx)
    obtain ⟨row', hrow', hkept⟩ := hafter.kept _ hmem
    obtain rfl := Option.some.inj (hstored.symm.trans hrow')
    exact hkept
  have hthreshold : thresholdMet r tx = true :=
    by_contra fun hbelow ↦ hnot ⟨hover, fun hmet ↦ absurd hmet hbelow⟩
  rw [if_pos hthreshold] at hself
  by_cases hmet : Met s.shared r.id
  · -- the row was complete: two calls submit
    rw [if_pos (h.able _ hmet)] at hself
    rcases h.busy _ hmet with ⟨hcount, -⟩ | ⟨-, i, hi, -⟩
    · refine hafter.closed r.id ?_ ⟨a.1, hself⟩
      rw [hshared]
      exact List.count_pos_iff.mp (hcount ▸ zero_lt_one)
    · have hia : i ≠ a.1 := by
        rintro rfl
        cases hcall.symm.trans hi
      exact hia (hafter.apart r.id i a.1 ((Calls.step_call_of_ne s a.2 hia).trans hi) hself)
  · -- the row was not complete: nobody submits
    have hbelow : row.collectedSignatures.length < row.requiredSigners :=
      not_le.mp (mt (met_iff hrow).mpr hmet)
    have hunable : ¬cfg.hasSubmit = true := fun hable ↦ hnot ⟨hover, fun _ ↦ ⟨hable, hbelow⟩⟩
    rw [if_neg hunable] at hself
    have hcard : (signers (s.step (resume cfg) a).shared r.id).card
        = (updatedSignatures r tx).length := by
      refine card_signers hread.updated_distinct fun x ↦ ?_
      rw [hshared]
      exact h.mem_accepted hread hrow hover x
    have hreached : row.requiredSigners ≤ (signers (s.step (resume cfg) a).shared r.id).card :=
      (hrequired.symm.trans_le (of_decide_eq_true hthreshold)).trans hcard.ge
    rcases hafter.due r.id _ hstored hreached with hdone | ⟨i, hi⟩
    · rw [hshared] at hdone
      exact (h.idle _ hmet).1 hdone
    · by_cases hia : i = a.1
      · rw [hia, hself] at hi
        cases hi
      · exact (h.idle _ hmet).2 ⟨i, (Calls.step_call_of_ne s a.2 hia).symm.trans hi⟩

end Step

/-! ## Runs -/

section Run

variable [DecidableEq ι]

/-- Records have been created, and no call has begun. -/
structure Starts (s : Calls ι Shared Call) : Prop where
  notBegun : NotBegun s
  new : ∀ id row, s.shared.rows id = some row → row.New
  accepted : s.shared.accepted = []
  submissions : s.shared.submissions = []

omit [DecidableEq ι] in
theorem Starts.orderly {s : Calls ι Shared Call} (h : Starts s) : Orderly cfg s := by
  have hwaits : ∀ i c, s.call i = c → ∃ id signer signedXdr, c = .waiting id signer signedXdr :=
    fun i c hi ↦ hi ▸ h.notBegun i
  have hnot : ∀ id, ¬Met s.shared id := by
    rintro id ⟨row, hrow, hle⟩
    have htwo := (h.new id row hrow).required
    rw [(h.new id row hrow).collected, List.length_nil] at hle
    omega
  refine ⟨fun id row hrow x ↦ ?_, fun e he ↦ ?_, fun id row hrow ↦ ?_, fun id row hrow _ ↦ ?_,
    fun i r tx hi ↦ ?_, fun id _ ↦ ⟨?_, fun ⟨i, hi⟩ ↦ ?_⟩, fun id hmet ↦ absurd hmet (hnot id),
    fun id hmet ↦ absurd hmet (hnot id)⟩
  · rw [h.accepted, (h.new id row hrow).collected]
    exact iff_of_false List.not_mem_nil List.not_mem_nil
  · rw [h.accepted] at he
    cases he
  · rw [(h.new id row hrow).collected]
    exact List.nodup_nil
  · exact not_le.mp fun hle ↦ hnot id ⟨row, hrow, hle⟩
  · obtain ⟨_, _, _, hwaiting⟩ := hwaits i _ hi
    cases hwaiting
  · rw [h.submissions]
    exact List.not_mem_nil
  · obtain ⟨_, _, _, hwaiting⟩ := hwaits i _ hi
    cases hwaiting

/-- **The exact condition.** In every run signatures are kept and each transaction is submitted
once and in time, exactly when every list that is written contains what the row holds, and every
list that completes a row is the first to do so and meets a service that can submit. -/
theorem always_proper_iff (cfg : Config) {s : Calls ι Shared Call} (hs : Starts s)
    (as : List (ι × Env)) :
    Always (Calls.step (resume cfg)) Proper s as ↔
      Along (Calls.step (resume cfg)) (fun s a ↦ storesOver cfg s a = true) s as :=
  always_iff_along (I := Orderly cfg) (fun _ h ↦ h.proper) (fun _ _ h ha ↦ h.step ha)
    (fun _ _ h ha ↦ h.not_proper ha) hs.orderly as

end Run

section Examples

theorem starts_twoSigners (first second : String) : Starts (twoSigners first second) := by
  refine ⟨notBegun_twoSigners _ _, fun id row hrow ↦ ?_, rfl, rfl⟩
  simp only [twoSigners] at hrow
  split_ifs at hrow
  obtain rfl := Option.some.inj hrow
  exact ⟨rfl, le_rfl⟩

def capableService (sdk : Sdk) : Config := { sdk with hasSubmit := true }

/-- With the service of the code nothing is submitted when both have signed, one after the other.
With a service that has the method a signature is lost when the two calls overlap. -/
theorem neither_proper :
    (Starts (twoSigners "signed" "signed") ∧
      ¬Always (Calls.step (resume (stellarService exampleSdk))) Proper
        (twoSigners "signed" "signed")
        (List.replicate 3 (0, succeed) ++ List.replicate 3 (1, succeed))) ∧
    ¬Always (Calls.step (resume (capableService exampleSdk))) Proper
      (twoSigners "signed" "signed")
      [(0, succeed), (1, succeed), (0, succeed), (1, succeed), (0, succeed), (1, succeed)] := by
  refine ⟨⟨starts_twoSigners _ _, fun h ↦ ?_⟩, fun h ↦ ?_⟩
  · rcases h.last.due 1 _ rfl (by decide) with hdone | ⟨i, hi⟩
    · exact absurd hdone (by decide)
    · revert i
      decide
  · obtain ⟨row, hrow, hkept⟩ := h.last.kept (1, ⟨"GA", "signed"⟩) (by decide)
    obtain rfl := Option.some.inj (hrow.symm.trans rfl)
    exact absurd hkept (by decide)

/-- Both sign, one after the other, with a service that has the method. -/
theorem always_proper_iff_at :
    Always (Calls.step (resume (capableService exampleSdk))) Proper (twoSigners "signed" "signed")
      (List.replicate 3 (0, succeed) ++ List.replicate 4 (1, succeed)) :=
  (always_proper_iff (capableService exampleSdk) (starts_twoSigners _ _) _).mpr (by decide)

end Examples

end StellarDonations.MultiSig
