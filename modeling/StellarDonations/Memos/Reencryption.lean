import StellarDonations.Concurrency.Interleaving
import StellarDonations.Errors
import StellarDonations.Text.JsString

/-!
# Re-encryption of memos

`_processBatch` of `MemoReencryptionJob`, next to the updates of the `Transaction` model. The model
keeps all transactions in memory, changes them there, and writes each change to `donations_store`
in a statement nobody waits for. A batch of the job reads rows whose memo has an old key version,
and writes each of them back with a new envelope.

Neither side looks at what the other has written. An update that reaches the table between the
`SELECT` and the `UPDATE` of a batch is lost, and an update of a transaction whose memo was
encrypted again brings the old envelope back, since the copy in memory has it. And since a batch
reads the first rows there are, rows that it cannot encrypt can keep it from all others. The runs in
which none of this happens are those of `memos_reencrypted_iff`.
-/

namespace StellarDonations.MemoReencryption

open Concurrency JsString

/-! ## Transactions -/

/-- A transaction, with its recipient and memo; the key version is that of `encryptionMetadata`, and
`fields` are all other fields. -/
structure TxData (φ : Type*) where
  id : String
  recipient : Option String
  deletedAt : Option ℕ
  memoEnvelope : Option String
  memoHash : Option String
  keyVersion : Option ℕ
  fields : φ
  deriving DecidableEq

/-- A row of `donations_store`. -/
structure Row (φ : Type*) where
  id : String
  recipient : Option String
  deletedAt : Option ℕ
  data : TxData φ
  deriving DecidableEq

/-- The settings of the job, and the encryption. -/
structure Config where
  activeVersion : ℕ
  batchSize : ℕ
  recipientSecrets : String → Option String
  /-- `decryptMemo`, of a versioned envelope. -/
  decryptMemo : String → String → Except AppError String
  /-- `encryptMemo`: the serialised envelope and its hash, which depend on random bytes. -/
  encryptMemo : String → String → Except AppError (ℕ → String × String)

/-- `/^v\d+:/`. -/
def isVersioned (memoEnvelope : String) : Bool :=
  match memoEnvelope.toList with
  | 'v' :: rest => rest.head?.any (·.isDigit) && (rest.dropWhile (·.isDigit)).head? = some ':'
  | _ => false

def decryptMemoForRecipient (cfg : Config) (memoEnvelope secret : String) :
    Except AppError String :=
  if secret.toList.head? ≠ some 'S' then .error (.plain "Invalid Stellar recipient secret key")
  else cfg.decryptMemo memoEnvelope secret

/-- `encryptMemoForRecipient`: the versioned envelope, its hash, and the key version. -/
def encryptMemoForRecipient (cfg : Config) (plaintext recipient : String) :
    Except AppError (ℕ → String × String × ℕ) :=
  if plaintext = "" then .error (.plain "Plaintext memo must be a non-empty string")
  else if recipient.toList.head? ≠ some 'G' then
    .error (.plain "Invalid Stellar recipient address")
  else match cfg.encryptMemo plaintext recipient with
    | .error e => .error e
    | .ok encrypt => .ok fun entropy ↦
      ("v" ++ Nat.repr cfg.activeVersion ++ ":" ++ (encrypt entropy).1, (encrypt entropy).2,
        cfg.activeVersion)

section Model

variable {φ : Type*} {ι : Type*}

/-! ## The job -/

/-- The condition of the `SELECT`. -/
def Row.isOld (cfg : Config) (row : Row φ) : Bool :=
  row.deletedAt.isNone && row.data.memoEnvelope.isSome &&
    row.data.keyVersion.any (· ≠ cfg.activeVersion)

/-- What the job does with a row before its `UPDATE`. -/
inductive Outcome (φ : Type*) where
  | skipped
  | failed (e : AppError)
  /-- The data to be written, for the random bytes. -/
  | encrypted (updated : ℕ → TxData φ)

/-- The body of the loop of `_processBatch`, up to the `UPDATE`. -/
def processRow (cfg : Config) (row : Row φ) : Outcome φ :=
  match orNull row.data.memoEnvelope with
  | none => .skipped
  | some memoEnvelope =>
    if !isVersioned memoEnvelope then .skipped
    else match (orNull row.recipient).or (orNull row.data.recipient) with
      | none => .skipped
      | some recipientPublicKey =>
        match orNull (cfg.recipientSecrets recipientPublicKey) with
        | none => .skipped
        | some recipientSecret =>
          match decryptMemoForRecipient cfg memoEnvelope recipientSecret with
          | .error e => .failed e
          | .ok plaintext =>
            match encryptMemoForRecipient cfg plaintext recipientPublicKey with
            | .error e => .failed e
            | .ok encrypt => .encrypted fun entropy ↦
              { row.data with
                memoEnvelope := some (encrypt entropy).1
                memoHash := some (encrypt entropy).2.1
                keyVersion := some (encrypt entropy).2.2 }

/-- The job gets as far as the `UPDATE` of the row. -/
def Row.CanEncrypt (cfg : Config) (row : Row φ) : Prop :=
  ∃ updated, processRow cfg row = .encrypted updated

def Row.IsReencryptable (cfg : Config) (row : Row φ) : Prop :=
  row.isOld cfg = true ∧ row.CanEncrypt cfg

def selected (cfg : Config) (rows : List (Row φ)) : List (Row φ) :=
  (rows.filter (·.isOld cfg)).take cfg.batchSize

/-- The table, the copy in memory, and the statements of the model that are on their way. -/
structure Shared (φ : Type*) where
  rows : List (Row φ)
  store : String → Option (TxData φ)
  pending : List (TxData φ)
  isRunning : Bool
  /-- The transactions whose memo a batch has re-encrypted. -/
  reencrypted : List String

/-- Where a batch is suspended, or how it ended: whether there was a memo it could have re-encrypted
when it queried the table, and how many of its rows succeeded and failed. -/
inductive Call (φ : Type*) where
  | waiting
  | selecting
  | updating (row : Row φ) (updated : TxData φ) (rest : List (Row φ)) (needed : Prop)
    (succeeded failed : ℕ)
  | finished (needed : Prop) (succeeded failed : ℕ)

structure Env where
  /-- The error of the statement, should it fail. -/
  dbError : Option AppError
  /-- The random bytes of the next encryption. -/
  entropy : ℕ

/-- Go on with the rows still to be processed, up to the next `UPDATE`. -/
def processRows (cfg : Config) (entropy : ℕ) (needed : Prop) (succeeded failed : ℕ) :
    List (Row φ) → Call φ
  | [] => .finished needed succeeded failed
  | row :: rest =>
    match processRow cfg row with
    | .encrypted updated => .updating row (updated entropy) rest needed succeeded failed
    | .skipped => processRows cfg entropy needed succeeded failed rest
    | .failed _ => processRows cfg entropy needed succeeded (failed + 1) rest

/-- The `UPDATE` of the job. -/
def Shared.reencrypt (sh : Shared φ) (id : String) (updated : TxData φ) : Shared φ :=
  { sh with
    rows := sh.rows.map fun r ↦ if r.id = id then { r with data := updated } else r
    reencrypted := sh.reencrypted ++ [id] }

/-- Resume a batch: execute the statement it is suspended on. -/
def resume (cfg : Config) (sh : Shared φ) (c : Call φ) (env : Env) : Shared φ × Call φ :=
  match c with
  | .waiting => (sh, if sh.isRunning then .selecting else .finished False 0 0)
  | .selecting =>
    match env.dbError with
    | some _ =>
      ({ sh with isRunning := false }, .finished (∃ row ∈ sh.rows, row.IsReencryptable cfg) 0 0)
    | none =>
      ({ sh with isRunning := sh.isRunning && (selected cfg sh.rows).isEmpty.not },
        processRows cfg env.entropy (∃ row ∈ sh.rows, row.IsReencryptable cfg) 0 0
          (selected cfg sh.rows))
  | .updating row updated rest needed succeeded failed =>
    match env.dbError with
    | some _ => (sh, processRows cfg env.entropy needed succeeded (failed + 1) rest)
    | none =>
      (sh.reencrypt row.id updated,
        processRows cfg env.entropy needed (succeeded + 1) failed rest)
  | .finished _ _ _ => (sh, c)

/-! ## The model -/

/-- An update of the `Transaction` model: the copy in memory changes, and its statement
is issued. -/
def Shared.update (sh : Shared φ) (id : String) (fields : φ) : Shared φ :=
  match sh.store id with
  | none => sh
  | some tx =>
    { sh with
      store := Function.update sh.store id (some { tx with fields := fields })
      pending := sh.pending ++ [{ tx with fields := fields }] }

/-- The `INSERT … ON CONFLICT` of `_persist`. -/
def Shared.upsert (sh : Shared φ) (tx : TxData φ) : Shared φ :=
  if sh.rows.any (·.id = tx.id) then
    { sh with
      rows := sh.rows.map fun r ↦
        if r.id = tx.id then { r with deletedAt := tx.deletedAt, data := tx } else r }
  else { sh with rows := sh.rows ++ [⟨tx.id, orNull tx.recipient, tx.deletedAt, tx⟩] }

/-- A statement that is on its way is executed; an error is only logged. -/
def Shared.persist (sh : Shared φ) (n : ℕ) (dbError : Option AppError) : Shared φ :=
  match sh.pending[n]?, dbError with
  | none, _ => sh
  | some _, some _ => { sh with pending := sh.pending.eraseIdx n }
  | some tx, none => { sh.upsert tx with pending := sh.pending.eraseIdx n }

/-! ## Runs -/

inductive Action (φ ι : Type*) where
  | resume (i : ι) (env : Env)
  | update (id : String) (fields : φ)
  | persist (n : ℕ) (dbError : Option AppError)

def step [DecidableEq ι] (cfg : Config) (s : Calls ι (Shared φ) (Call φ)) :
    Action φ ι → Calls ι (Shared φ) (Call φ)
  | .resume i env => Calls.step (resume cfg) s (i, env)
  | .update id fields => { s with shared := s.shared.update id fields }
  | .persist n dbError => { s with shared := s.shared.persist n dbError }

/-- The model has loaded the table, and the job is started; no batch has begun. -/
def start (rows : List (Row φ)) : Calls ι (Shared φ) (Call φ) where
  shared := ⟨rows, fun id ↦ (rows.find? (·.id = id)).map (·.data), [], true, []⟩
  call _ := .waiting

/-! ## What must hold -/

/-- A row has the latest update, unless its statement is still on its way; and memos that were
re-encrypted stay so. -/
structure Shared.Kept (cfg : Config) (sh : Shared φ) : Prop where
  latest : ∀ row ∈ sh.rows, (∀ tx ∈ sh.pending, tx.id ≠ row.id) →
    ∀ tx ∈ sh.store row.id, row.data.fields = tx.fields
  envelope : ∀ row ∈ sh.rows, row.id ∈ sh.reencrypted → row.data.keyVersion = some cfg.activeVersion

/-- A batch that could have re-encrypted a memo has done so by its end. -/
def Call.Progresses : Call φ → Prop
  | .finished needed succeeded _ => needed → 0 < succeeded
  | _ => True

/-- No update is lost, and the batches finish the work. -/
structure Finishes (cfg : Config) (s : Calls ι (Shared φ) (Call φ)) : Prop where
  kept : s.shared.Kept cfg
  progresses : ∀ i, (s.call i).Progresses

/-- The steps that lose nothing. While a memo can be re-encrypted, the query of a batch succeeds and
has a row that the batch can encrypt, and not all of its `UPDATE`s fail. A row that is written back
had the latest update when it was read, unless the statement of one is on its way. A statement of
the model has the new key version if the memo was re-encrypted, and the latest update if no other
one is on its way; one that fails leaves the latest update in the row. -/
def Harmless (cfg : Config) (s : Calls ι (Shared φ) (Call φ)) : Action φ ι → Prop
  | .resume i env =>
    match s.call i, env.dbError with
    | .selecting, some _ => ¬∃ row ∈ s.shared.rows, row.IsReencryptable cfg
    | .selecting, none => (∃ row ∈ s.shared.rows, row.IsReencryptable cfg) →
      ∃ row ∈ selected cfg s.shared.rows, row.CanEncrypt cfg
    | .updating _ _ rest needed succeeded _, some _ => needed →
      0 < succeeded ∨ ∃ row ∈ rest, row.CanEncrypt cfg
    | .updating row _ _ _ _ _, none => (∃ r ∈ s.shared.rows, r.id = row.id) →
      (∀ tx ∈ s.shared.pending, tx.id ≠ row.id) →
        ∀ tx ∈ s.shared.store row.id, row.data.fields = tx.fields
    | _, _ => True
  | .update _ _ => True
  | .persist n dbError =>
    match s.shared.pending[n]?, dbError with
    | some tx, none =>
      (tx.id ∈ s.shared.reencrypted → tx.keyVersion = some cfg.activeVersion) ∧
        ((∀ tx' ∈ s.shared.pending.eraseIdx n, tx'.id ≠ tx.id) →
          ∀ latest ∈ s.shared.store tx.id, tx.fields = latest.fields)
    | some tx, some _ =>
      (∀ tx' ∈ s.shared.pending.eraseIdx n, tx'.id ≠ tx.id) →
        ∀ row ∈ s.shared.rows, row.id = tx.id →
          ∀ latest ∈ s.shared.store tx.id, row.data.fields = latest.fields
    | none, _ => True

/-! ## Re-encrypted rows -/

theorem processRow_encrypted {cfg : Config} {row : Row φ} {updated : ℕ → TxData φ}
    (h : processRow cfg row = .encrypted updated) (entropy : ℕ) :
    (updated entropy).keyVersion = some cfg.activeVersion ∧
      (updated entropy).fields = row.data.fields := by
  simp only [processRow] at h
  split at h
  · cases h
  split at h
  · cases h
  split at h
  · cases h
  split at h
  · cases h
  split at h
  · cases h
  rename_i recipientPublicKey _ _ _ _ plaintext _
  split at h
  · cases h
  rename_i encrypt hencrypt
  cases h
  simp only [encryptMemoForRecipient] at hencrypt
  split at hencrypt
  · cases hencrypt
  split at hencrypt
  · cases hencrypt
  split at hencrypt
  · cases hencrypt
  · cases hencrypt
    exact ⟨rfl, rfl⟩

variable {cfg : Config}

/-- Going on with the rows ends the batch when it can encrypt none of them, and otherwise stops at
the `UPDATE` of one. -/
theorem processRows_cases (cfg : Config) (entropy : ℕ) (needed : Prop) (succeeded failed : ℕ)
    (rows : List (Row φ)) :
    (¬(∃ row ∈ rows, row.CanEncrypt cfg) ∧ ∃ failed',
        processRows cfg entropy needed succeeded failed rows =
          .finished needed succeeded failed') ∨
      ∃ row ∈ rows, row.CanEncrypt cfg ∧ ∃ updated rest failed',
        (updated.keyVersion = some cfg.activeVersion ∧ updated.fields = row.data.fields) ∧
          processRows cfg entropy needed succeeded failed rows =
            .updating row updated rest needed succeeded failed' := by
  induction rows generalizing failed with
  | nil => exact .inl ⟨by simp, failed, rfl⟩
  | cons row rows ih =>
    by_cases hrow : row.CanEncrypt cfg
    · obtain ⟨updated, hupdated⟩ := hrow
      refine .inr ⟨row, List.mem_cons_self, ⟨updated, hupdated⟩, updated entropy, rows, failed,
        processRow_encrypted hupdated entropy, ?_⟩
      simp only [processRows, hupdated]
    -- a row that is not encrypted is passed over
    obtain ⟨failed', h⟩ : ∃ failed', processRows cfg entropy needed succeeded failed (row :: rows) =
        processRows cfg entropy needed succeeded failed' rows := by
      cases hp : processRow cfg row with
      | skipped => exact ⟨failed, by simp only [processRows, hp]⟩
      | failed e => exact ⟨failed + 1, by simp only [processRows, hp]⟩
      | encrypted updated => exact absurd ⟨updated, hp⟩ hrow
    rw [h]
    obtain ⟨hnone, hfinished⟩ | ⟨r, hr, hsome⟩ := ih failed'
    · exact .inl ⟨by simpa [hrow] using hnone, hfinished⟩
    · exact .inr ⟨r, List.mem_cons_of_mem row hr, hsome⟩

/-- A batch that goes on with these rows makes progress exactly when it has done so before or one of
them can be encrypted. -/
theorem processRows_progresses (entropy : ℕ) (needed : Prop) (succeeded failed : ℕ)
    (rows : List (Row φ)) :
    (processRows cfg entropy needed succeeded failed rows).Progresses ↔
      (needed → 0 < succeeded ∨ ∃ row ∈ rows, row.CanEncrypt cfg) := by
  obtain ⟨hnone, failed', h⟩ | ⟨row, hmem, hrow, updated, rest, failed', -, h⟩ :=
    processRows_cases cfg entropy needed succeeded failed rows
  · rw [h]
    simp only [Call.Progresses, hnone, or_false]
  · rw [h]
    exact iff_of_true trivial fun _ ↦ .inr ⟨row, hmem, hrow⟩

/-! ## What a statement leaves -/

variable {sh : Shared φ}

theorem mem_reencrypt_rows {id : String} {updated : TxData φ} {row : Row φ}
    (h : row ∈ (sh.reencrypt id updated).rows) :
    row ∈ sh.rows ∧ row.id ≠ id ∨ row.id = id ∧ row.data = updated ∧ ∃ r ∈ sh.rows, r.id = id := by
  obtain ⟨r, hr, rfl⟩ := List.mem_map.mp h
  by_cases hid : r.id = id
  · simp only [hid, ↓reduceIte]
    exact .inr ⟨trivial, trivial, r, hr, hid⟩
  · simp only [hid, ↓reduceIte]
    exact .inl ⟨hr, hid⟩

theorem exists_reencrypt_rows {id : String} (updated : TxData φ) (h : ∃ r ∈ sh.rows, r.id = id) :
    ∃ row ∈ (sh.reencrypt id updated).rows, row.id = id ∧ row.data = updated := by
  obtain ⟨r, hr, rfl⟩ := h
  exact ⟨_, List.mem_map_of_mem hr, by simp⟩

theorem mem_upsert_rows {tx : TxData φ} {row : Row φ} (h : row ∈ (sh.upsert tx).rows) :
    row ∈ sh.rows ∧ row.id ≠ tx.id ∨ row.id = tx.id ∧ row.data = tx := by
  unfold Shared.upsert at h
  split at h
  · obtain ⟨r, hr, rfl⟩ := List.mem_map.mp h
    by_cases hid : r.id = tx.id
    · simp [hid]
    · simpa [hid] using hr
  · rename_i hnone
    obtain hrow | hrow := List.mem_append.mp h
    · refine .inl ⟨hrow, fun hid ↦ hnone ?_⟩
      exact List.any_eq_true.mpr ⟨row, hrow, decide_eq_true hid⟩
    · rw [List.mem_singleton.mp hrow]
      exact .inr ⟨rfl, rfl⟩

theorem exists_upsert_rows (sh : Shared φ) (tx : TxData φ) :
    ∃ row ∈ (sh.upsert tx).rows, row.id = tx.id ∧ row.data = tx := by
  unfold Shared.upsert
  split
  · rename_i hsome
    obtain ⟨r, hr, hid⟩ := List.any_eq_true.mp hsome
    have hid' : r.id = tx.id := of_decide_eq_true hid
    exact ⟨_, List.mem_map_of_mem hr, by simp [hid']⟩
  · exact ⟨_, List.mem_append_right _ (List.mem_singleton_self _), rfl, rfl⟩

@[simp] theorem upsert_reencrypted (sh : Shared φ) (tx : TxData φ) :
    (sh.upsert tx).reencrypted = sh.reencrypted := by
  unfold Shared.upsert
  split <;> rfl

@[simp] theorem upsert_store (sh : Shared φ) (tx : TxData φ) : (sh.upsert tx).store = sh.store := by
  unfold Shared.upsert
  split <;> rfl

theorem Shared.Kept.isRunning (h : sh.Kept cfg) (isRunning : Bool) :
    Kept cfg { sh with isRunning := isRunning } := ⟨h.latest, h.envelope⟩

/-- A batch keeps everything exactly when it writes the latest update. -/
theorem kept_reencrypt_iff (h : sh.Kept cfg) {id : String} {updated : TxData φ}
    (hversion : updated.keyVersion = some cfg.activeVersion) :
    (sh.reencrypt id updated).Kept cfg ↔ ((∃ r ∈ sh.rows, r.id = id) →
      (∀ tx ∈ sh.pending, tx.id ≠ id) → ∀ tx ∈ sh.store id, updated.fields = tx.fields) := by
  constructor
  · intro hkept hrow hpending tx htx
    obtain ⟨row, hmem, hid, hdata⟩ := exists_reencrypt_rows updated hrow
    rw [← hdata]
    subst hid
    exact hkept.latest row hmem hpending tx htx
  · intro hlatest
    refine ⟨fun row hmem hpending tx htx ↦ ?_, fun row hmem hid ↦ ?_⟩
    · obtain ⟨hrow, -⟩ | ⟨hid, hdata, hrow⟩ := mem_reencrypt_rows hmem
      · exact h.latest row hrow hpending tx htx
      · subst hid
        rw [hdata]
        exact hlatest hrow hpending tx htx
    · obtain ⟨hrow, hne⟩ | ⟨-, hdata, -⟩ := mem_reencrypt_rows hmem
      · have hold : row.id ∈ sh.reencrypted ∨ row.id = id := by simpa [Shared.reencrypt] using hid
        exact h.envelope row hrow (hold.resolve_right hne)
      · rw [hdata, hversion]

theorem kept_update (h : sh.Kept cfg) (hid : ∀ id, ∀ tx ∈ sh.store id, tx.id = id) (id : String)
    (fields : φ) : (sh.update id fields).Kept cfg := by
  unfold Shared.update
  split
  · exact h
  rename_i tx htx
  refine ⟨fun row hmem hpending ↦ ?_, h.envelope⟩
  have hne : row.id ≠ id := fun heq ↦ hpending { tx with fields := fields }
    (List.mem_append_right _ (List.mem_singleton_self _)) ((hid id tx htx).trans heq.symm)
  simp only [Function.update_of_ne hne]
  exact h.latest row hmem fun tx' htx' ↦ hpending tx' (List.mem_append_left _ htx')

theorem mem_eraseIdx_of_id_ne {pending : List (TxData φ)} {n : ℕ} {tx tx' : TxData φ}
    (htx : pending[n]? = some tx) (h : tx' ∈ pending) (hne : tx'.id ≠ tx.id) :
    tx' ∈ pending.eraseIdx n := by
  obtain ⟨m, hm⟩ := List.mem_iff_getElem?.mp h
  refine List.mem_eraseIdx_iff_getElem?.mpr ⟨m, fun heq ↦ hne ?_, hm⟩
  subst heq
  rw [Option.some.inj (hm.symm.trans htx)]

/-- A statement of the model keeps everything exactly when it has what is in the table and in
memory. -/
theorem kept_persist_iff (h : sh.Kept cfg) {n : ℕ} {tx : TxData φ}
    (htx : sh.pending[n]? = some tx) :
    Shared.Kept cfg { sh.upsert tx with pending := sh.pending.eraseIdx n } ↔
      (tx.id ∈ sh.reencrypted → tx.keyVersion = some cfg.activeVersion) ∧
        ((∀ tx' ∈ sh.pending.eraseIdx n, tx'.id ≠ tx.id) →
          ∀ latest ∈ sh.store tx.id, tx.fields = latest.fields) := by
  constructor
  · intro hkept
    obtain ⟨row, hmem, hid, hdata⟩ := exists_upsert_rows sh tx
    refine ⟨fun hold ↦ ?_, fun hpending latest hlatest ↦ ?_⟩
    · rw [← hdata]
      exact hkept.envelope row hmem (by simpa [hid] using hold)
    · rw [← hdata]
      exact hkept.latest row hmem (by simpa [hid] using hpending) latest
        (by simpa [hid] using hlatest)
  · rintro ⟨hversion, hlatest⟩
    refine ⟨fun row hmem hpending latest hstore ↦ ?_, fun row hmem hold ↦ ?_⟩
    · simp only [upsert_store] at hstore
      obtain ⟨hrow, hne⟩ | ⟨hid, hdata⟩ := mem_upsert_rows hmem
      · refine h.latest row hrow (fun tx' htx' heq ↦ ?_) latest hstore
        exact hpending tx' (mem_eraseIdx_of_id_ne htx htx' (heq ▸ hne)) heq
      · rw [hdata]
        rw [hid] at hpending hstore
        exact hlatest hpending latest hstore
    · simp only [upsert_reencrypted] at hold
      obtain ⟨hrow, -⟩ | ⟨hid, hdata⟩ := mem_upsert_rows hmem
      · exact h.envelope row hrow hold
      · rw [hdata]
        exact hversion (hid ▸ hold)

/-- A statement that fails keeps everything exactly when nothing depends on it. -/
theorem kept_eraseIdx_iff (h : sh.Kept cfg) {n : ℕ} {tx : TxData φ}
    (htx : sh.pending[n]? = some tx) :
    Shared.Kept cfg { sh with pending := sh.pending.eraseIdx n } ↔
      ((∀ tx' ∈ sh.pending.eraseIdx n, tx'.id ≠ tx.id) → ∀ row ∈ sh.rows, row.id = tx.id →
        ∀ latest ∈ sh.store tx.id, row.data.fields = latest.fields) := by
  constructor
  · intro hkept hpending row hmem hid latest hlatest
    exact hkept.latest row hmem (hid ▸ hpending) latest (hid ▸ hlatest)
  · refine fun hlatest ↦ ⟨fun row hmem hpending latest hstore ↦ ?_, h.envelope⟩
    by_cases hid : row.id = tx.id
    · exact hlatest (hid ▸ hpending) row hmem hid latest (hid ▸ hstore)
    · refine h.latest row hmem (fun tx' htx' heq ↦ ?_) latest hstore
      exact hpending tx' (mem_eraseIdx_of_id_ne htx htx' (heq ▸ hid)) heq

/-! ## Steps -/

/-- The copy in memory has each transaction under its id, and what the batches are about to write is
what they have read, with the active key version. -/
structure Tidy (cfg : Config) (s : Calls ι (Shared φ) (Call φ)) : Prop where
  store_id : ∀ id, ∀ tx ∈ s.shared.store id, tx.id = id
  updated : ∀ i row updated rest needed succeeded failed,
    s.call i = .updating row updated rest needed succeeded failed →
      updated.keyVersion = some cfg.activeVersion ∧ updated.fields = row.data.fields

theorem finishes_start {rows : List (Row φ)} (hids : (rows.map (·.id)).Nodup) :
    Finishes cfg (start (ι := ι) rows) := by
  refine ⟨⟨fun row hmem _ tx htx ↦ ?_, fun row _ hold ↦ absurd hold List.not_mem_nil⟩,
    fun i ↦ trivial⟩
  obtain ⟨r, hr, rfl⟩ := Option.map_eq_some_iff.mp htx
  have hid : r.id = row.id := by simpa using List.find?_some hr
  rw [List.inj_on_of_nodup_map hids (List.mem_of_find?_eq_some hr) hmem hid]

theorem tidy_start {rows : List (Row φ)} (hdata : ∀ row ∈ rows, row.data.id = row.id) :
    Tidy cfg (start (ι := ι) rows) := by
  refine ⟨fun id tx htx ↦ ?_, fun i row updated rest needed m n h ↦ by cases h⟩
  obtain ⟨r, hr, rfl⟩ := Option.map_eq_some_iff.mp htx
  have hid : r.id = id := by simpa using List.find?_some hr
  rw [hdata r (List.mem_of_find?_eq_some hr), hid]

variable [DecidableEq ι] {s : Calls ι (Shared φ) (Call φ)}

theorem store_persist (id : String) (h : ∀ id, ∀ tx ∈ sh.store id, tx.id = id) (n : ℕ)
    (dbError : Option AppError) : ∀ tx ∈ (sh.persist n dbError).store id, tx.id = id := by
  unfold Shared.persist
  split
  · exact h id
  · exact h id
  · simpa using h id

theorem store_update (h : ∀ id, ∀ tx ∈ sh.store id, tx.id = id) (id' : String) (fields : φ)
    (id : String) : ∀ tx ∈ (sh.update id' fields).store id, tx.id = id := by
  unfold Shared.update
  split
  · exact h id
  rename_i tx htx
  by_cases hid : id = id'
  · subst hid
    simpa using h id tx htx
  · simpa [Function.update_of_ne hid] using h id

theorem resume_store (sh : Shared φ) (c : Call φ) (env : Env) :
    (resume cfg sh c env).1.store = sh.store := by
  cases c with
  | waiting => rfl
  | selecting => cases h : env.dbError <;> simp only [resume, h]
  | updating =>
    cases h : env.dbError with
    | some e => simp only [resume, h]
    | none =>
      simp only [resume, h]
      rfl
  | finished => rfl

theorem processRows_updated {entropy : ℕ} {needed needed' : Prop} {m n m' n' : ℕ}
    {rows rest : List (Row φ)} {row : Row φ} {updated : TxData φ}
    (h : processRows cfg entropy needed m n rows = .updating row updated rest needed' m' n') :
    updated.keyVersion = some cfg.activeVersion ∧ updated.fields = row.data.fields := by
  obtain ⟨-, _, h'⟩ | ⟨_, -, -, _, _, _, hupdated, h'⟩ :=
    processRows_cases cfg entropy needed m n rows
  · cases h'.symm.trans h
  · cases h'.symm.trans h
    exact hupdated

theorem resume_updated {c : Call φ} {env : Env} {row : Row φ} {updated : TxData φ}
    {rest : List (Row φ)} {needed : Prop} {m n : ℕ}
    (h : (resume cfg sh c env).2 = .updating row updated rest needed m n) :
    updated.keyVersion = some cfg.activeVersion ∧ updated.fields = row.data.fields := by
  cases c with
  | waiting =>
    simp only [resume] at h
    split at h <;> cases h
  | selecting =>
    cases he : env.dbError with
    | some e =>
      simp only [resume, he] at h
      cases h
    | none =>
      simp only [resume, he] at h
      exact processRows_updated h
  | updating =>
    cases he : env.dbError with
    | some e =>
      simp only [resume, he] at h
      exact processRows_updated h
    | none =>
      simp only [resume, he] at h
      exact processRows_updated h
  | finished => cases h

theorem Tidy.step (h : Tidy cfg s) (a : Action φ ι) : Tidy cfg (step cfg s a) := by
  cases a with
  | update id fields => exact ⟨store_update h.store_id id fields, h.updated⟩
  | persist n dbError => exact ⟨fun id ↦ store_persist id h.store_id n dbError, h.updated⟩
  | resume i env =>
    refine ⟨?_, fun j row updated rest needed m n hj ↦ ?_⟩
    · simp only [MemoReencryption.step, Calls.step_shared, resume_store]
      exact h.store_id
    · by_cases hji : j = i
      · subst hji
        simp only [MemoReencryption.step, Calls.step_call_self] at hj
        exact resume_updated hj
      · simp only [MemoReencryption.step, Calls.step_call_of_ne s env hji] at hj
        exact h.updated j row updated rest needed m n hj

/-- After a step of a batch, nothing is lost exactly when the table is kept and the batch itself
makes progress. -/
theorem finishes_resume_iff (h : Finishes cfg s) (i : ι) (env : Env) :
    Finishes cfg (step cfg s (.resume i env)) ↔
      (resume cfg s.shared (s.call i) env).1.Kept cfg ∧
        (resume cfg s.shared (s.call i) env).2.Progresses := by
  constructor
  · intro h'
    have hprogresses := h'.progresses i
    simp only [step, Calls.step_call_self] at hprogresses
    exact ⟨h'.kept, hprogresses⟩
  · rintro ⟨hkept, hprogresses⟩
    refine ⟨hkept, fun j ↦ ?_⟩
    by_cases hji : j = i
    · subst hji
      simpa only [step, Calls.step_call_self] using hprogresses
    · simpa only [step, Calls.step_call_of_ne s env hji] using h.progresses j

theorem finishes_step_iff (h : Finishes cfg s) (ht : Tidy cfg s) (a : Action φ ι) :
    Finishes cfg (step cfg s a) ↔ Harmless cfg s a := by
  cases a with
  | update id fields =>
    exact iff_of_true ⟨kept_update h.kept ht.store_id id fields, h.progresses⟩ trivial
  | persist n dbError =>
    have hstep : Finishes cfg (step cfg s (.persist n dbError)) ↔
        (s.shared.persist n dbError).Kept cfg := ⟨fun h' ↦ h'.kept, fun h' ↦ ⟨h', h.progresses⟩⟩
    rw [hstep]
    cases htx : s.shared.pending[n]? with
    | none =>
      simp only [Shared.persist, Harmless, htx]
      exact iff_of_true h.kept trivial
    | some tx =>
      cases dbError with
      | none =>
        simp only [Shared.persist, Harmless, htx]
        exact kept_persist_iff h.kept htx
      | some e =>
        simp only [Shared.persist, Harmless, htx]
        exact kept_eraseIdx_iff h.kept htx
  | resume i env =>
    rw [finishes_resume_iff h]
    cases hc : s.call i with
    | waiting =>
      simp only [resume, Harmless, hc]
      refine iff_of_true ⟨h.kept, ?_⟩ trivial
      split
      · trivial
      · exact False.elim
    | finished needed succeeded failed =>
      simp only [resume, Harmless, hc]
      exact iff_of_true ⟨h.kept, hc ▸ h.progresses i⟩ trivial
    | selecting =>
      cases he : env.dbError with
      | some e =>
        simp only [resume, Harmless, hc, he, Call.Progresses, lt_irrefl]
        exact and_iff_right (h.kept.isRunning false)
      | none =>
        simp only [resume, Harmless, hc, he, processRows_progresses, lt_irrefl, false_or]
        exact and_iff_right (h.kept.isRunning _)
    | updating row updated rest needed succeeded failed =>
      cases he : env.dbError with
      | some e =>
        simp only [resume, Harmless, hc, he, processRows_progresses]
        exact and_iff_right h.kept
      | none =>
        simp only [resume, Harmless, hc, he, processRows_progresses]
        obtain ⟨hversion, hfields⟩ := ht.updated i row updated rest needed succeeded failed hc
        rw [kept_reencrypt_iff h.kept hversion, hfields]
        exact and_iff_left fun _ ↦ .inl succeeded.succ_pos

/-- **Re-encryption next to the updates of the model.** No update and no re-encryption is lost, and
every batch that could re-encrypt a memo does so, exactly in the runs all of whose steps are
harmless. -/
theorem memos_reencrypted_iff {rows : List (Row φ)} (hids : (rows.map (·.id)).Nodup)
    (hdata : ∀ row ∈ rows, row.data.id = row.id) (as : List (Action φ ι)) :
    Always (step cfg) (Finishes cfg) (start rows) as ↔
      Along (step cfg) (Harmless cfg) (start rows) as := by
  refine always_iff_along (I := fun s ↦ Finishes cfg s ∧ Tidy cfg s) (fun s hs ↦ hs.1)
    (fun s a hs ha ↦ ?_) (fun s a hs ha h ↦ ?_) ⟨finishes_start hids, tidy_start hdata⟩ as
  · exact ⟨(finishes_step_iff hs.1 hs.2 a).mpr ha, hs.2.step a⟩
  · exact ha ((finishes_step_iff hs.1 hs.2 a).mp h)

end Model

/-! ## Two runs -/

/-- Every recipient has a secret, and every memo reads `memo`. -/
def sampleConfig : Config where
  activeVersion := 2
  batchSize := 10
  recipientSecrets _ := some "S"
  decryptMemo _ _ := .ok "memo"
  encryptMemo _ _ := .ok fun _ ↦ ("envelope", "hash")

/-- A donation whose memo has the key version 1. -/
def sampleRow : Row ℕ :=
  ⟨"t", some "G", none, ⟨"t", some "G", none, some "v1:memo", none, some 1, 0⟩⟩

def updatedData : TxData ℕ := ⟨"t", some "G", none, some "v1:memo", none, some 1, 1⟩

/-- A batch resumes, and nothing fails. -/
def resumed : Action ℕ ℕ := .resume 0 ⟨none, 0⟩

/-- The donation is updated and its statement executed, before the batch reads the table. -/
def updateFirst : List (Action ℕ ℕ) :=
  [.update "t" 1, .persist 0 none, resumed, resumed, resumed]

/-- The same, between the `SELECT` and the `UPDATE` of the batch. -/
def updateBetween : List (Action ℕ ℕ) :=
  [resumed, resumed, .update "t" 1, .persist 0 none, resumed]

/-- The row has the envelope of the batch and the fields it had before the update. -/
theorem memo_update_lost :
    ¬Always (step sampleConfig) (Finishes sampleConfig) (start [sampleRow]) updateBetween := by
  intro h
  have hlatest := h.last.kept.latest
    ⟨"t", some "G", none, ⟨"t", some "G", none, some "v2:envelope", some "hash", some 2, 0⟩⟩
    (by decide) (by decide)
    updatedData (by decide)
  exact absurd hlatest (by decide)

/-- The batch finds the memo in the row that has the update. -/
theorem memos_reencrypted_at :
    Always (step sampleConfig) (Finishes sampleConfig) (start [sampleRow]) updateFirst := by
  refine (memos_reencrypted_iff (by decide) (by decide) updateFirst).mpr
    ⟨trivial, ⟨fun h ↦ ?_, fun _ latest hlatest ↦ ?_⟩, trivial, fun _ ↦ ?_,
      fun _ _ latest hlatest ↦ ?_,
      trivial⟩
  · exact absurd h List.not_mem_nil
  · cases hlatest
    rfl
  · exact ⟨⟨"t", some "G", none, updatedData⟩, by decide, _, rfl⟩
  · cases hlatest
    rfl

end StellarDonations.MemoReencryption
