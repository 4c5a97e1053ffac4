import Mathlib.Algebra.Group.Nat.Defs
import StellarDonations.Concurrency.Interleaving
import StellarDonations.Storage.Table
import StellarDonations.Users

/-!
# Disputes

The creation of a dispute and `PATCH /admin/disputes/:id`, as requests that are suspended on every
SQL statement. A donation has at most one dispute, because the column is unique; the check before
the `INSERT` only makes for a better answer.

The transitions that the comment on the route allows are not checked: a request writes any of the
four statuses over whatever status the dispute has by then, and requests a refund whenever the one
it writes is `resolved_refund`. The life cycle is kept in every run whose `UPDATE`s find the dispute
where the comment wants it (`disputes_follow_lifecycle`).
-/

namespace StellarDonations.Disputes

open Concurrency JsString Storage

/-! ## The tables -/

/-- `validStatuses`. -/
inductive Status where
  | opened
  | underReview
  | resolvedRefund
  | resolvedNoAction
  deriving DecidableEq

def Status.text : Status → String
  | .opened => "open"
  | .underReview => "under_review"
  | .resolvedRefund => "resolved_refund"
  | .resolvedNoAction => "resolved_no_action"

def Status.ofText (s : String) : Option Status :=
  [Status.opened, .underReview, .resolvedRefund, .resolvedNoAction].find? (·.text = s)

/-- `status.startsWith('resolved_')`. -/
def Status.isResolved : Status → Bool
  | .resolvedRefund | .resolvedNoAction => true
  | _ => false

/-- The columns of `disputes` other than its key. Times are in milliseconds. -/
structure Dispute where
  donationId : ℕ
  recipientPublicKey : String
  reason : String
  evidence : Option String
  status : Status
  createdAt : ℕ
  updatedAt : ℕ
  resolvedAt : Option ℕ
  resolutionNotes : Option String
  deriving DecidableEq

/-- The table `disputes`, where `donationId` is unique. -/
structure DisputeTable where
  table : Table Dispute
  unique : table.UniqueIn fun d ↦ some d.donationId

namespace DisputeTable

def insert (t : DisputeTable) (d : Dispute) : Option DisputeTable :=
  if h : ∀ r ∈ t.table.rows, r.2.donationId ≠ d.donationId then
    some ⟨t.table.insert d, t.unique.insert fun r hr v hv ↦ by
      rw [← Option.some.inj hv]
      exact fun heq ↦ h r hr (Option.some.inj heq)⟩
  else none

/-- The `UPDATE` of a dispute that leaves it with its donation. -/
def update (t : DisputeTable) (id : ℕ) (f : Dispute → Dispute)
    (hf : ∀ d, (f d).donationId = d.donationId) : DisputeTable where
  table := t.table.update (·.1 = id) f
  unique := t.unique.update fun d ↦ congrArg some (hf d)

end DisputeTable

/-- What is read of a row of `transactions`. -/
structure Donation where
  id : ℕ
  receiverId : ℕ
  amount : ℤ
  /-- Nothing when the text is not a date. -/
  timestamp : Option ℕ
  deriving DecidableEq

/-! ## Requests and calls -/

inductive Field where
  | falsy
  | text (s : String)
  | other
  deriving DecidableEq

/-- `POST /donations/:id/dispute`. -/
structure CreateRequest where
  /-- The number that the path parameter stands for, if any. -/
  id : Option ℕ
  /-- `req.apiKey`, and its `publicKey`. -/
  apiKey : Option (Option String)
  reason : Field
  evidence : Field
  deriving DecidableEq

/-- `PATCH /admin/disputes/:id`. -/
structure PatchRequest where
  id : Option ℕ
  status : Option String
  resolutionNotes : Option String
  deriving DecidableEq

inductive Request where
  | create (r : CreateRequest)
  | patch (r : PatchRequest)
  deriving DecidableEq

inductive Response where
  /-- The number of the status, the code and the message. -/
  | error (status : ℕ) (code message : String)
  | created (id : ℕ) (d : Dispute)
  | updated (id : ℕ) (d : Dispute)
  | next (e : AppError)
  deriving DecidableEq

/-- A call of `WebhookService.deliver`. -/
inductive Webhook where
  | disputed (donationId disputeId : ℕ) (reason recipientPublicKey : String) (timestamp : ℕ)
  | refundRequested (donationId disputeId : ℕ) (reason : String) (amount : ℤ) (timestamp : ℕ)
  deriving DecidableEq

/-- Where a request is suspended, or how it was answered. -/
inductive Call where
  | waiting (r : Request)
  -- the creation; `reason` is not trimmed yet
  | readDonation (r : CreateRequest) (reason : String) (evidence : Option String)
  | readRecipient (r : CreateRequest) (reason : String) (evidence : Option String) (d : Donation)
  | readExisting (reason : String) (evidence : Option String) (donationId : ℕ)
      (recipientPublicKey : String)
  | insert (reason : String) (evidence : Option String) (donationId : ℕ)
      (recipientPublicKey : String)
  | readCreated (reason : String) (id : ℕ) (recipientPublicKey : String)
  -- the update
  | readDispute (r : PatchRequest) (status : Status)
  | update (r : PatchRequest) (status : Status) (id donationId : ℕ)
  | readUpdated (status : Status) (id donationId : ℕ)
  | readRefunded (id : ℕ) (updated : Dispute) (donationId : ℕ)
  | responded (r : Response)
  deriving DecidableEq

structure StatusChange where
  id : ℕ
  before : Status
  after : Status
  deriving DecidableEq

/-- The table, what was delivered, and the changes of statuses. -/
structure Shared where
  disputes : DisputeTable
  webhooks : List Webhook
  changes : List StatusChange

/-- The tables that the requests only read. -/
structure Config where
  transactions : List Donation
  users : List User
  disputeWindowDays : ℕ

/-- The time of a step, and the error of its statement, should it fail. -/
structure Env where
  now : ℕ
  dbError : Option AppError
  deriving DecidableEq

/-! ## The steps -/

/-- The checks of the body of a creation. -/
def validateCreate (r : CreateRequest) : Call :=
  match r.reason with
  | .falsy | .other => invalidReason
  | .text reason =>
    if trim reason = "" then invalidReason
    else
      match r.evidence with
      | .other => .responded (.error 400 "INVALID_EVIDENCE" "Evidence must be a string")
      | .falsy => .readDonation r reason none
      | .text evidence =>
        if 1000 < (codeUnits evidence).length then
          .responded (.error 400 "EVIDENCE_TOO_LONG" "Evidence must not exceed 1000 characters")
        else .readDonation r reason (some evidence)
where
  invalidReason : Call := .responded
    (.error 400 "INVALID_REASON" "Reason is required and must be a non-empty string")

def checkRecipient (cfg : Config) (r : CreateRequest) (reason : String) (evidence : Option String)
    (d : Donation) (recipientPublicKey : String) (now : ℕ) : Call :=
  if r.apiKey.any (· ≠ some recipientPublicKey) then
    .responded (.error 403 "FORBIDDEN" "Only the recipient can dispute a donation")
  else if d.timestamp.any (· + cfg.disputeWindowDays * 24 * 60 * 60 * 1000 < now) then
    .responded (.error 400 "DISPUTE_WINDOW_EXPIRED" ("Disputes can only be opened within " ++
      toString cfg.disputeWindowDays ++ " days of the donation"))
  else .readExisting reason evidence d.id recipientPublicKey

def invalidStatus : Response := .error 400 "INVALID_STATUS"
  "Status must be one of: open, under_review, resolved_refund, resolved_no_action"

/-- What the `UPDATE` makes of a dispute. -/
def patched (r : PatchRequest) (status : Status) (now : ℕ) (d : Dispute) : Dispute :=
  { d with
    status := status
    resolutionNotes := orNull r.resolutionNotes
    resolvedAt := if status.isResolved then some now else none
    updatedAt := now }

/-- The change of the stored status that an `UPDATE` makes, if it makes one. -/
def statusChange (sh : Shared) (id : ℕ) (status : Status) : List StatusChange :=
  match sh.disputes.table.get id with
  | some d => if d.status = status then [] else [⟨id, d.status, status⟩]
  | none => []

/-- `UPDATE disputes SET … WHERE id = ?`. -/
def Shared.patch (sh : Shared) (r : PatchRequest) (status : Status) (id now : ℕ) : Shared :=
  { sh with
    disputes := sh.disputes.update id (patched r status now) fun _ ↦ rfl
    changes := sh.changes ++ statusChange sh id status }

def Shared.deliver (sh : Shared) (w : Webhook) : Shared :=
  { sh with webhooks := sh.webhooks ++ [w] }

def refundRequested (d : Donation) (id now : ℕ) : Webhook :=
  .refundRequested d.id id "Dispute resolution - refund approved" d.amount now

/-- The row of a `SELECT * FROM transactions WHERE id = ?`. -/
def Config.donation (cfg : Config) (id : ℕ) : Option Donation :=
  cfg.transactions.find? (·.id = id)

/-- Resume a request: execute the statement it is suspended on. -/
def resume (cfg : Config) (sh : Shared) (c : Call) (env : Env) : Shared × Call :=
  match c, env.dbError with
  | .waiting (.create r), _ => (sh, validateCreate r)
  | .waiting (.patch r), _ =>
    match r.status.bind Status.ofText with
    | none => (sh, .responded invalidStatus)
    | some status => (sh, .readDispute r status)
  | .readDonation r reason evidence, none =>
    match r.id.bind cfg.donation with
    | none => (sh, .responded (.error 404 "DONATION_NOT_FOUND" "Donation not found"))
    | some d => (sh, .readRecipient r reason evidence d)
  | .readRecipient r reason evidence d, none =>
    match cfg.users.find? (·.id = d.receiverId) with
    | none => (sh, .responded (.error 404 "RECIPIENT_NOT_FOUND" "Recipient not found"))
    | some recipient => (sh, checkRecipient cfg r reason evidence d recipient.publicKey env.now)
  | .readExisting reason evidence donationId recipientPublicKey, none =>
    if (sh.disputes.table.find (fun d ↦ some d.donationId) donationId).isSome then
      (sh, .responded (.error 409 "DISPUTE_EXISTS" "A dispute already exists for this donation"))
    else (sh, .insert reason evidence donationId recipientPublicKey)
  | .insert reason evidence donationId recipientPublicKey, none =>
    match sh.disputes.insert ⟨donationId, recipientPublicKey, trim reason, evidence.map trim,
        .opened, env.now, env.now, none, none⟩ with
    | none => (sh, .responded (.next .uniqueViolation))
    | some disputes =>
      ({ sh with disputes := disputes },
        .readCreated reason sh.disputes.table.nextId recipientPublicKey)
  | .readCreated reason id recipientPublicKey, none =>
    match sh.disputes.table.get id with
    | none => (sh, .responded (.next (.wrongType "Cannot read properties of undefined")))
    | some d =>
      (sh.deliver (.disputed d.donationId id reason recipientPublicKey env.now),
        .responded (.created id d))
  | .readDispute r status, none =>
    match r.id.bind fun id ↦ (sh.disputes.table.get id).map (id, ·) with
    | none => (sh, .responded (.error 404 "DISPUTE_NOT_FOUND" "Dispute not found"))
    | some (id, d) => (sh, .update r status id d.donationId)
  | .update r status id donationId, none =>
    (sh.patch r status id env.now, .readUpdated status id donationId)
  | .readUpdated status id donationId, none =>
    match sh.disputes.table.get id with
    | none => (sh, .responded (.next (.wrongType "Cannot read properties of undefined")))
    | some d =>
      if status = .resolvedRefund then (sh, .readRefunded id d donationId)
      else (sh, .responded (.updated id d))
  | .readRefunded id updated donationId, none =>
    match cfg.donation donationId with
    | none => (sh, .responded (.updated id updated))
    | some d => (sh.deliver (refundRequested d id env.now), .responded (.updated id updated))
  | .responded _, _ => (sh, c)
  | _, some e => (sh, .responded (.next e))

/-! ## What must hold -/

/-- The transitions that the comment on the route allows. -/
def Documented : Status → Status → Prop
  | .opened, .underReview => True
  | .underReview, .resolvedRefund | .underReview, .resolvedNoAction => True
  | _, _ => False

instance decidableDocumented : ∀ a b : Status, Decidable (Documented a b)
  | .opened, .underReview => .isTrue trivial
  | .underReview, .resolvedRefund => .isTrue trivial
  | .underReview, .resolvedNoAction => .isTrue trivial
  | .opened, .opened | .opened, .resolvedRefund | .opened, .resolvedNoAction => .isFalse id
  | .underReview, .opened | .underReview, .underReview => .isFalse id
  | .resolvedRefund, _ | .resolvedNoAction, _ => .isFalse id

/-- The dispute whose refund is requested. -/
def Webhook.refunded : Webhook → Option ℕ
  | .refundRequested _ disputeId _ _ _ => some disputeId
  | .disputed _ _ _ _ _ => none

/-- How often the refund of a dispute was requested. -/
def Shared.refunds (sh : Shared) (id : ℕ) : ℕ := sh.webhooks.countP (·.refunded = some id)

/-- A donation has one dispute, whose status changes as documented, and whose refund is requested
once. -/
structure FollowsLifecycle (sh : Shared) : Prop where
  oneEach : ∀ r ∈ sh.disputes.table.rows, ∀ r' ∈ sh.disputes.table.rows,
    r.2.donationId = r'.2.donationId → r = r'
  documented : ∀ c ∈ sh.changes, Documented c.before c.after
  refundedOnce : ∀ id, sh.refunds id ≤ 1

section Runs

variable {ι : Type*}

/-- The status is the next one of a dispute, or the one it has already, as long as no refund is
requested for it. -/
def MayBecome (before after : Status) : Prop :=
  Documented before after ∨ before = after ∧ after ≠ .resolvedRefund

instance decidableMayBecome (before after : Status) : Decidable (MayBecome before after) :=
  inferInstanceAs (Decidable (_ ∨ _ ∧ _))

/-- An `UPDATE` finds the dispute where it may become what the request asks for. -/
def InOrder (s : Calls ι Shared Call) (a : ι × Env) : Prop :=
  match s.call a.1, a.2.dbError with
  | .update _ status id _, none =>
    ∀ d ∈ s.shared.disputes.table.get id, MayBecome d.status status
  | _, _ => True

instance decidableInOrder (s : Calls ι Shared Call) (a : ι × Env) : Decidable (InOrder s a) := by
  unfold InOrder
  split <;> infer_instance

/-- The disputes there are already, no refund requested, and every request still to be made. -/
def start (disputes : DisputeTable) (req : ι → Request) : Calls ι Shared Call where
  shared := ⟨disputes, [], []⟩
  call i := .waiting (req i)

end Runs

/-! ## What a step does -/

def Shared.status (sh : Shared) (id : ℕ) : Option Status :=
  (sh.disputes.table.get id).map Dispute.status

def Call.refunding : Call → Option ℕ
  | .readUpdated .resolvedRefund id _ | .readRefunded id _ _ => some id
  | _ => none

/-- What a step of a call can do to the statuses and the requests for refunds. -/
inductive Move (sh : Shared) (c : Call) (sh' : Shared) (c' : Call) : Prop
  | quiet (hstatus : ∀ id status, sh.status id = some status → sh'.status id = some status)
      (hchanges : sh'.changes = sh.changes) (hrefunds : ∀ id, sh'.refunds id = sh.refunds id)
      (hc' : c'.refunding = none ∨ c'.refunding = c.refunding)
  | patch (r : PatchRequest) (status : Status) (id donationId now : ℕ)
      (hc : c = .update r status id donationId) (hshared : sh' = sh.patch r status id now)
      (hc' : c' = .readUpdated status id donationId)
  | refund (id : ℕ) (hc : c.refunding = some id) (d : Donation) (now : ℕ)
      (hshared : sh' = sh.deliver (refundRequested d id now)) (hc' : c'.refunding = none)

section Moves

variable {cfg : Config} {sh : Shared} {c c' : Call}

theorem Move.stay (hc' : c'.refunding = none ∨ c'.refunding = c.refunding) : Move sh c sh c' :=
  .quiet (fun _ _ h ↦ h) rfl (fun _ ↦ rfl) hc'

theorem refunding_validateCreate (r : CreateRequest) : (validateCreate r).refunding = none := by
  rw [validateCreate]
  repeat' split
  all_goals rfl

theorem refunding_checkRecipient (r : CreateRequest) (reason : String) (evidence : Option String)
    (d : Donation) (recipientPublicKey : String) (now : ℕ) :
    (checkRecipient cfg r reason evidence d recipientPublicKey now).refunding = none := by
  rw [checkRecipient]
  repeat' split
  all_goals rfl

theorem status_insert {t : DisputeTable} {d : Dispute} (h : sh.disputes.insert d = some t) {id : ℕ}
    {status : Status} (hstatus : sh.status id = some status) :
    Shared.status { sh with disputes := t } id = some status := by
  rw [DisputeTable.insert] at h
  split_ifs at h
  obtain rfl := Option.some.inj h
  obtain ⟨row, hrow, rfl⟩ := Option.map_eq_some_iff.mp hstatus
  exact Option.map_eq_some_iff.mpr ⟨row, Table.get_insert hrow, rfl⟩

/-- **What a step does.** -/
theorem move_resume (cfg : Config) (sh : Shared) (c : Call) (env : Env) :
    Move sh c (resume cfg sh c env).1 (resume cfg sh c env).2 := by
  obtain ⟨now, dbError⟩ := env
  cases dbError with
  | some e =>
    cases c with
    | waiting r =>
      cases r with
      | create r => exact .stay (.inl (refunding_validateCreate r))
      | patch r =>
        simp only [resume]
        split <;> exact .stay (.inl rfl)
    | responded r => exact .stay (.inl rfl)
    | _ => exact .stay (.inl rfl)
  | none =>
    cases c with
    | waiting r =>
      cases r with
      | create r => exact .stay (.inl (refunding_validateCreate r))
      | patch r =>
        simp only [resume]
        split <;> exact .stay (.inl rfl)
    | readDonation r reason evidence =>
      simp only [resume]
      split <;> exact .stay (.inl rfl)
    | readRecipient r reason evidence d =>
      simp only [resume]
      split
      · exact .stay (.inl rfl)
      · exact .stay (.inl (refunding_checkRecipient ..))
    | readExisting reason evidence donationId recipientPublicKey =>
      simp only [resume]
      split_ifs <;> exact .stay (.inl rfl)
    | insert reason evidence donationId recipientPublicKey =>
      simp only [resume]
      split
      · exact .stay (.inl rfl)
      · next t ht =>
        exact .quiet (fun id status hstatus ↦ status_insert ht hstatus) rfl (fun _ ↦ rfl) (.inl rfl)
    | readCreated reason id recipientPublicKey =>
      simp only [resume]
      split
      · exact .stay (.inl rfl)
      · refine .quiet (fun _ _ h ↦ h) rfl (fun id' ↦ ?_) (.inl rfl)
        rw [Shared.deliver, Shared.refunds, List.countP_append]
        rfl
    | readDispute r status =>
      simp only [resume]
      split <;> exact .stay (.inl rfl)
    | update r status id donationId => exact .patch r status id donationId now rfl rfl rfl
    | readUpdated status id donationId =>
      simp only [resume]
      split
      · exact .stay (.inl rfl)
      · split_ifs with hrefund
        · exact .stay (.inr (by rw [hrefund]; rfl))
        · exact .stay (.inl rfl)
    | readRefunded id updated donationId =>
      simp only [resume]
      split
      · exact .stay (.inl rfl)
      · next d hd => exact .refund id rfl d now rfl rfl
    | responded r => exact .stay (.inl rfl)

/-- The dispute that is about to be updated is there. -/
def Call.Targets (sh : Shared) : Call → Prop
  | .update _ _ id _ => ∃ status, sh.status id = some status
  | _ => True

theorem targets_resume (cfg : Config) (sh : Shared) (c : Call) (env : Env) :
    (resume cfg sh c env).2.Targets (resume cfg sh c env).1 := by
  obtain ⟨now, dbError⟩ := env
  have hcreate : ∀ r, (validateCreate r).Targets sh := by
    intro r
    rw [validateCreate]
    repeat' split
    all_goals trivial
  have hrecipient : ∀ r reason evidence d key,
      (checkRecipient cfg r reason evidence d key now).Targets sh := by
    intro r reason evidence d key
    rw [checkRecipient]
    repeat' split
    all_goals trivial
  cases c with
  | waiting r =>
    cases r with
    | create r => exact hcreate r
    | patch r =>
      simp only [resume]
      split <;> trivial
  | readDispute r status =>
    cases dbError with
    | some e => trivial
    | none =>
      simp only [resume]
      split
      · trivial
      · next id d hd =>
        obtain ⟨id', -, hd⟩ := Option.bind_eq_some_iff.mp hd
        obtain ⟨d', hget, heq⟩ := Option.map_eq_some_iff.mp hd
        cases heq
        exact ⟨d.status, by rw [Shared.status, hget, Option.map_some]⟩
  | readRecipient r reason evidence d =>
    cases dbError with
    | some e => trivial
    | none =>
      simp only [resume]
      split
      · trivial
      · exact hrecipient ..
  | responded r => trivial
  | _ =>
    cases dbError with
    | some e => trivial
    | none =>
      simp only [resume]
      repeat' split
      all_goals trivial

theorem status_patch (sh : Shared) (r : PatchRequest) (status : Status) (id now : ℕ) {id' : ℕ}
    {before : Status} (h : sh.status id' = some before) :
    (sh.patch r status id now).status id' = some (if id' = id then status else before) := by
  obtain ⟨d, hd, rfl⟩ := Option.map_eq_some_iff.mp h
  have hget : ((sh.patch r status id now).disputes.table.get id') =
      some (Table.assign (·.1 = id) (patched r status now) (id', d)).2 := Table.get_update hd
  rw [Shared.status, hget, Option.map_some, Table.assign]
  by_cases hid : id' = id
  · rw [if_pos (decide_eq_true hid), if_pos hid]
    rfl
  · rw [if_neg (by simpa using hid), if_neg hid]

theorem Move.present {sh' : Shared} (h : Move sh c sh' c') {id : ℕ} {status : Status}
    (hstatus : sh.status id = some status) : ∃ status', sh'.status id = some status' := by
  cases h with
  | quiet hkeep => exact ⟨status, hkeep id status hstatus⟩
  | patch r st id' donationId now hc hshared =>
    rw [hshared]
    exact ⟨_, status_patch sh r st id' now hstatus⟩
  | refund id' hc d now hshared =>
    rw [hshared]
    exact ⟨status, hstatus⟩

end Moves

/-! ## The invariant -/

section Invariant

variable {ι : Type*} {cfg : Config} {s : Calls ι Shared Call} {sh : Shared}

/-- A refund that the call is about to request was not requested yet, and the dispute is resolved
so. -/
def Call.Pending (sh : Shared) (c : Call) : Prop :=
  ∀ id, c.refunding = some id → sh.status id = some .resolvedRefund ∧ sh.refunds id = 0

/-- A refund that was requested, or is about to be, belongs to a dispute that is resolved so; and no
two calls are about to request the same one. -/
structure Sound (s : Calls ι Shared Call) : Prop where
  documented : ∀ c ∈ s.shared.changes, Documented c.before c.after
  refundedOnce : ∀ id, s.shared.refunds id ≤ 1
  settled : ∀ id, s.shared.refunds id ≠ 0 → s.shared.status id = some .resolvedRefund
  pending : ∀ i, (s.call i).Pending s.shared
  alone : ∀ id, AtMostOne (fun c : Call ↦ c.refunding = some id) s.call
  targets : ∀ i, (s.call i).Targets s.shared

theorem Sound.followsLifecycle (h : Sound s) : FollowsLifecycle s.shared where
  oneEach r hr r' hr' heq := s.shared.disputes.unique r hr r' hr' _ rfl (congrArg some heq.symm)
  documented := h.documented
  refundedOnce := h.refundedOnce

/-- Nothing may follow a refund. -/
theorem not_mayBecome_resolvedRefund {after : Status} : ¬MayBecome .resolvedRefund after := by
  rintro (hdocumented | ⟨rfl, hne⟩)
  · cases after <;> exact hdocumented
  · exact hne rfl

theorem documented_statusChange {id : ℕ} {status : Status}
    (h : ∀ d ∈ sh.disputes.table.get id, MayBecome d.status status) :
    ∀ c ∈ statusChange sh id status, Documented c.before c.after := by
  intro c hc
  rw [statusChange] at hc
  split at hc
  · next d hd =>
    split_ifs at hc with hsame
    · cases hc
    · obtain rfl := List.mem_singleton.mp hc
      exact (h d hd).resolve_right fun hstays ↦ hsame hstays.1
  · cases hc

theorem refunds_deliver (sh : Shared) (d : Donation) (id now id' : ℕ) :
    (sh.deliver (refundRequested d id now)).refunds id' =
      sh.refunds id' + if id' = id then 1 else 0 := by
  rw [Shared.deliver, Shared.refunds, List.countP_append, List.countP_singleton, Shared.refunds]
  congr 1
  by_cases h : id' = id
  · rw [if_pos h, h]
    exact if_pos (decide_eq_true rfl)
  · rw [if_neg h]
    refine if_neg fun hrefunded ↦ h ?_
    exact (Option.some.inj (of_decide_eq_true hrefunded)).symm

variable [DecidableEq ι]

theorem forall_step_call {P : ι → Call → Prop} {i : ι} {env : Env}
    (hself : P i (resume cfg s.shared (s.call i) env).2) (hother : ∀ j, j ≠ i → P j (s.call j)) :
    ∀ j, P j ((Calls.step (resume cfg) s (i, env)).call j) := by
  intro j
  by_cases hj : j = i
  · subst hj
    rw [Calls.step_call_self]
    exact hself
  · rw [Calls.step_call_of_ne s env hj]
    exact hother j hj

theorem Sound.targets_step (h : Sound s) (i : ι) (env : Env) :
    ∀ j, ((Calls.step (resume cfg) s (i, env)).call j).Targets
      (Calls.step (resume cfg) s (i, env)).shared := by
  refine forall_step_call (P := fun _ c ↦ c.Targets _) (targets_resume ..) fun j _ ↦ ?_
  have hold := h.targets j
  cases hcall : s.call j with
  | update r status id donationId =>
    rw [hcall] at hold
    obtain ⟨status', hstatus'⟩ := hold
    exact (move_resume ..).present hstatus'
  | _ => trivial

theorem Sound.quiet (h : Sound s) {i : ι} {env : Env}
    (hstatus : ∀ id status, s.shared.status id = some status →
      (resume cfg s.shared (s.call i) env).1.status id = some status)
    (hchanges : (resume cfg s.shared (s.call i) env).1.changes = s.shared.changes)
    (hrefunds : ∀ id, (resume cfg s.shared (s.call i) env).1.refunds id = s.shared.refunds id)
    (hc' : (resume cfg s.shared (s.call i) env).2.refunding = none ∨
      (resume cfg s.shared (s.call i) env).2.refunding = (s.call i).refunding) :
    Sound (Calls.step (resume cfg) s (i, env)) := by
  have hbefore : ∀ id, (resume cfg s.shared (s.call i) env).2.refunding = some id →
      (s.call i).refunding = some id := by
    intro id hid
    rcases hc' with hnone | hsame
    · rw [hnone] at hid
      cases hid
    · rw [← hsame, hid]
  have hpending : ∀ j, (s.call j).Pending (resume cfg s.shared (s.call i) env).1 := by
    intro j id hid
    obtain ⟨hresolved, hnone⟩ := h.pending j id hid
    exact ⟨hstatus id _ hresolved, (hrefunds id).trans hnone⟩
  refine ⟨?_, fun id ↦ ?_, fun id hid ↦ ?_, ?_, fun id ↦ ?_, h.targets_step i env⟩
  · rw [Calls.step_shared, hchanges]
    exact h.documented
  · rw [Calls.step_shared, hrefunds]
    exact h.refundedOnce id
  · rw [Calls.step_shared, hrefunds] at hid
    exact hstatus id _ (h.settled id hid)
  · exact forall_step_call (P := fun _ c ↦ c.Pending _)
      (fun id hid ↦ hpending i id (hbefore id hid)) fun j _ ↦ hpending j
  · exact (h.alone id).update fun hid ↦ .inl (hbefore id hid)

theorem Sound.patch (h : Sound s) {i : ι} {env : Env} {r : PatchRequest} {status : Status}
    {id donationId now : ℕ} (hcall : s.call i = .update r status id donationId)
    (hshared : (resume cfg s.shared (s.call i) env).1 = s.shared.patch r status id now)
    (hc' : (resume cfg s.shared (s.call i) env).2 = .readUpdated status id donationId)
    (hinOrder : ∀ d ∈ s.shared.disputes.table.get id, MayBecome d.status status) :
    Sound (Calls.step (resume cfg) s (i, env)) := by
  -- the dispute is there, and no refund was or is requested for it
  obtain ⟨before, hbefore⟩ : ∃ before, s.shared.status id = some before := by
    have htargets := h.targets i
    rwa [hcall] at htargets
  have hmay : MayBecome before status := by
    obtain ⟨d, hd, rfl⟩ := Option.map_eq_some_iff.mp hbefore
    exact hinOrder d hd
  have hopen : s.shared.status id ≠ some .resolvedRefund := by
    intro hresolved
    obtain rfl := Option.some.inj (hbefore.symm.trans hresolved)
    exact not_mayBecome_resolvedRefund hmay
  have hkeeps : ∀ id', s.shared.status id' = some .resolvedRefund →
      (s.shared.patch r status id now).status id' = some .resolvedRefund := by
    intro id' hid'
    have hne : id' ≠ id := fun heq ↦ hopen (heq ▸ hid')
    rw [status_patch _ r status id now hid', if_neg hne]
  have hself : ∀ id', (Call.readUpdated status id donationId).refunding = some id' →
      id' = id ∧ status = .resolvedRefund := by
    intro id' hid'
    cases status <;> simp_all [Call.refunding]
  refine ⟨?_, fun id' ↦ ?_, fun id' hid' ↦ ?_, ?_, fun id' ↦ ?_, h.targets_step i env⟩
  · rw [Calls.step_shared, hshared]
    intro c hc
    rcases List.mem_append.mp hc with hc | hc
    · exact h.documented c hc
    · exact documented_statusChange hinOrder c hc
  · rw [Calls.step_shared, hshared]
    exact h.refundedOnce id'
  · rw [Calls.step_shared, hshared] at hid' ⊢
    exact hkeeps id' (h.settled id' hid')
  · rw [Calls.step_shared, hshared]
    refine forall_step_call (P := fun _ c ↦ c.Pending _) ?_ fun j _ id' hid' ↦ ?_
    · rw [hc']
      intro id' hid'
      obtain ⟨rfl, rfl⟩ := hself id' hid'
      refine ⟨?_, by_contra fun hrefunds ↦ hopen (h.settled id' hrefunds)⟩
      rw [status_patch _ r _ id' now hbefore, if_pos rfl]
    · obtain ⟨hresolved, hnone⟩ := h.pending j id' hid'
      exact ⟨hkeeps id' hresolved, hnone⟩
  · refine (h.alone id').update fun hid' ↦ .inr fun j _ hj ↦ ?_
    rw [hc'] at hid'
    obtain ⟨rfl, -⟩ := hself id' hid'
    exact hopen (h.pending j id' hj).1

theorem Sound.refund (h : Sound s) {i : ι} {env : Env} {id : ℕ} {d : Donation} {now : ℕ}
    (hcall : (s.call i).refunding = some id)
    (hshared : (resume cfg s.shared (s.call i) env).1 =
      s.shared.deliver (refundRequested d id now))
    (hc' : (resume cfg s.shared (s.call i) env).2.refunding = none) :
    Sound (Calls.step (resume cfg) s (i, env)) := by
  obtain ⟨hresolved, hnone⟩ := h.pending i id hcall
  refine ⟨?_, fun id' ↦ ?_, fun id' hid' ↦ ?_, ?_, fun id' ↦ ?_, h.targets_step i env⟩
  · rw [Calls.step_shared, hshared]
    exact h.documented
  · rw [Calls.step_shared, hshared, refunds_deliver]
    split_ifs with heq
    · rw [heq, hnone]
    · exact h.refundedOnce id'
  · rw [Calls.step_shared, hshared] at hid' ⊢
    rw [refunds_deliver] at hid'
    split_ifs at hid' with heq
    · rw [heq]
      exact hresolved
    · exact h.settled id' hid'
  · rw [Calls.step_shared, hshared]
    refine forall_step_call (P := fun _ c ↦ c.Pending _) (fun id' hid' ↦ ?_) fun j hj id' hid' ↦ ?_
    · rw [hc'] at hid'
      cases hid'
    · obtain ⟨hresolved', hnone'⟩ := h.pending j id' hid'
      have hne : id' ≠ id := fun heq ↦ hj (h.alone id j i (heq ▸ hid') hcall)
      refine ⟨hresolved', ?_⟩
      rw [refunds_deliver, if_neg hne, hnone']
  · refine (h.alone id').update fun hid' ↦ ?_
    rw [hc'] at hid'
    cases hid'

/-- **A step in order** keeps the invariant. -/
theorem Sound.step (h : Sound s) {a : ι × Env} (ha : InOrder s a) :
    Sound (Calls.step (resume cfg) s a) := by
  obtain ⟨i, env⟩ := a
  cases move_resume cfg s.shared (s.call i) env with
  | quiet hstatus hchanges hrefunds hc' => exact h.quiet hstatus hchanges hrefunds hc'
  | patch r status id donationId now hcall hshared hc' =>
    refine h.patch hcall hshared hc' ?_
    obtain ⟨now', dbError⟩ := env
    cases dbError with
    | none =>
      simp only [InOrder, hcall] at ha
      exact ha
    | some e =>
      rw [hcall] at hc'
      cases hc'
  | refund id hcall d now hshared hc' => exact h.refund hcall hshared hc'

/-- **Disputes follow their life cycle** in every run whose `UPDATE`s find the dispute in a status
that may become the one they write. -/
theorem disputes_follow_lifecycle (cfg : Config) (disputes : DisputeTable) (req : ι → Request)
    {as : List (ι × Env)}
    (h : Along (Calls.step (resume cfg)) InOrder (start disputes req) as) :
    Always (Calls.step (resume cfg)) (fun s ↦ FollowsLifecycle s.shared) (start disputes req)
      as := by
  refine (h.always (P := Sound) (fun s a hs ha ↦ hs.step ha) ?_).mono
    fun s hs ↦ hs.followsLifecycle
  exact ⟨nofun, fun _ ↦ Nat.zero_le 1, fun id hid ↦ absurd rfl hid, nofun, nofun, fun _ ↦ trivial⟩

end Invariant

section Examples

def oneDonation : Config where
  transactions := [⟨7, 2, 50000000, some 0⟩]
  users := [⟨2, "R", none⟩]
  disputeWindowDays := 30

/-- The first request opens a dispute; the others set its status. -/
def disputed (statuses : Fin 3 → String) : Fin 3 → Request
  | 0 => .create ⟨some 7, some (some "R"), .text "not agreed", .falsy⟩
  | i => .patch ⟨some 1, some (statuses i), none⟩

def noDisputes : DisputeTable := ⟨default, nofun⟩

def executed (i : Fin 3) (n : ℕ) : List (Fin 3 × Env) := List.replicate n (i, ⟨0, none⟩)

/-- The dispute is opened, and then its refund is approved twice. -/
def approvedTwice : List (Fin 3 × Env) := executed 0 6 ++ executed 1 5 ++ executed 2 5

/-- A refund is approved twice, without a review: the status changes as it must not, and two refunds
are requested. -/
theorem refund_requested_twice :
    ¬Always (Calls.step (resume oneDonation)) (fun s ↦ FollowsLifecycle s.shared)
      (start noDisputes (disputed fun _ ↦ "resolved_refund")) approvedTwice := by
  intro h
  exact absurd (h.last.refundedOnce 1) (by decide)

/-- A dispute is opened, reviewed, and resolved with a refund. -/
theorem disputes_follow_lifecycle_at :
    Always (Calls.step (resume oneDonation)) (fun s ↦ FollowsLifecycle s.shared)
      (start noDisputes (disputed fun i ↦ if i = 1 then "under_review" else "resolved_refund"))
      (executed 0 6 ++ executed 1 4 ++ executed 2 5) :=
  disputes_follow_lifecycle oneDonation noDisputes _ (by decide)

end Examples

end StellarDonations.Disputes
