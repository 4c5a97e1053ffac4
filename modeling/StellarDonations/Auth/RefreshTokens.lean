import Mathlib.Data.List.MinMax
import StellarDonations.Concurrency.Interleaving
import StellarDonations.Errors
import StellarDonations.Text.JsString

/-!
# Refresh tokens

`rotateRefreshToken` and `revokeTokenFamily` of `JwtService`, as calls that are suspended on every
SQL statement. A rotation reads the row of its token, checks it, and only then marks the token as
used and inserts its successor; neither statement looks at what the other calls have done in
between. What was done before the row was read the checks see: the token of an earlier exchange is
used, and that of a revoked family is revoked. So the properties hold exactly as long as nothing
comes between the read of a row and the insertion of its successor, and no reuse that was detected
before is without its revocation (`rotation_secure_iff`).
-/

namespace StellarDonations.RefreshTokens

open Concurrency JsString

/-! ## The tables -/

structure TokenRow where
  id : ℕ
  jti : Option String
  tokenHash : String
  apiKeyId : ℕ
  familyId : String
  deviceId : Option String
  familyStartedAt : Option ℕ
  expiresAt : ℕ
  usedAt : Option ℕ
  revoked : Bool
  revokedAt : Option ℕ
  revokeReason : Option String
  createdAt : ℕ
  deriving DecidableEq

structure RevocationRow where
  jti : String
  apiKeyId : ℕ
  expiresAt : ℕ
  revokedAt : ℕ
  reason : String
  deriving DecidableEq

/-- What the properties are about, in the order in which it happens. -/
inductive Event where
  /-- A token of a family was exchanged for a new pair. -/
  | exchanged (id : ℕ) (familyId : String)
  /-- A used token of a family was presented. -/
  | reuseDetected (familyId : String)
  | revoked (familyId : String)
  deriving DecidableEq

structure Shared where
  tokens : List TokenRow
  revocations : List RevocationRow
  events : List Event

/-- The settings and functions of the service. -/
structure Config where
  /-- The hash a token is stored under. -/
  sha256 : String → String
  ttlMs : ℕ
  absoluteTtlMs : ℕ
  maxDeviceIdLength : ℕ

def normalizeDeviceId (cfg : Config) (deviceId : Option String) : Option String :=
  (deviceId.map trim).bind fun trimmed ↦
    if trimmed = "" then none
    else some (String.ofList (trimmed.toList.take cfg.maxDeviceIdLength))

def familyStartOf (row : TokenRow) : ℕ := (row.familyStartedAt.filter (· ≠ 0)).getD row.createdAt

def isAbsolutelyExpired (cfg : Config) (row : TokenRow) (now : ℕ) : Bool :=
  familyStartOf row + cfg.absoluteTtlMs ≤ now

namespace Shared

/-- The next value of `AUTOINCREMENT`. -/
def nextId (sh : Shared) : ℕ := (sh.tokens.map (·.id)).foldr max 0 + 1

/-- `INSERT OR IGNORE INTO refresh_token_revocations`. -/
def insertRevocation (sh : Shared) (row : RevocationRow) : Shared :=
  if sh.revocations.any (·.jti = row.jti) then sh
  else { sh with revocations := sh.revocations ++ [row] }

/-- `UPDATE refresh_tokens SET used_at = ? WHERE id = ?`. -/
def markUsed (sh : Shared) (id now : ℕ) : Shared :=
  { sh with tokens := sh.tokens.map fun r ↦ if r.id = id then { r with usedAt := some now } else r }

/-- `UPDATE refresh_tokens SET revoked = 1 … WHERE family_id = ?`. -/
def revokeFamily (sh : Shared) (familyId : String) (reason : Option String) (now : ℕ) : Shared :=
  { sh with
    tokens := sh.tokens.map fun r ↦
      if r.familyId = familyId then
        { r with revoked := true, revokedAt := some now, revokeReason := orNull reason }
      else r }

def log (sh : Shared) (e : Event) : Shared := { sh with events := sh.events ++ [e] }

end Shared

/-! ## Calls -/

inductive Request where
  | rotate (rawRefreshToken : String) (deviceId : Option String)
  | revoke (familyId : String) (reason : Option String)
  deriving DecidableEq

/-- Who waits for `revokeTokenFamily`. -/
inductive Caller where
  | client
  | reuseDetected
  | absoluteExpiry
  deriving DecidableEq

/-- A `revokeTokenFamily` on its way. -/
structure Revocation where
  familyId : String
  reason : Option String
  now : ℕ
  caller : Caller
  deriving DecidableEq

def codedError (code message : String) : AppError := ⟨.error, some (.other code), message⟩

def tokenReuseDetected : AppError :=
  codedError "TOKEN_REUSE_DETECTED" "Refresh token reuse detected; token family revoked"

def tokenRevoked : AppError := codedError "TOKEN_REVOKED" "Refresh token has been revoked"

def tokenAbsoluteExpiry : AppError :=
  codedError "TOKEN_ABSOLUTE_EXPIRY" "Refresh token family has reached its absolute expiry"

/-- The error for a violated `UNIQUE` constraint. -/
def duplicateEntry : AppError := .duplicate .duplicateDonation
  "Duplicate donation detected - this transaction has already been processed"

inductive Call where
  | waiting (r : Request)
  | select (hash : String) (deviceId : Option String)
  | lookup (row : TokenRow) (deviceId : Option String)
  | insertRotated (row : TokenRow) (deviceId : Option String) (now : ℕ)
  | markUsed (row : TokenRow) (deviceId : Option String) (now : ℕ)
  /-- `issueRefreshToken` makes sure that the tables exist. -/
  | issue (row : TokenRow) (deviceId : Option String)
  | insertSuccessor (row : TokenRow) (deviceId : Option String) (raw jti : String) (now : ℕ)
  | revokeUpdate (rev : Revocation)
  | collect (rev : Revocation)
  | insertRevocations (rev : Revocation) (first : RevocationRow) (rest : List RevocationRow)
  | audit
  | exchanged (refreshToken : String) (row : TokenRow)
  | revoked
  | returnedNull
  | threw (e : AppError)
  deriving DecidableEq

structure Env where
  now : ℕ
  /-- The error of the statement, should it fail. -/
  dbError : Option AppError
  /-- `crypto.randomBytes(32)`, for a successor. -/
  raw : String
  /-- `crypto.randomUUID()`, for a successor. -/
  jti : String

/-! ## The steps -/

/-- The checks after the revocation lookup, up to the next statement. -/
def afterLookup (cfg : Config) (row : TokenRow) (deviceId : Option String) (now : ℕ) : Call :=
  if isAbsolutelyExpired cfg row now then
    .revokeUpdate ⟨row.familyId, some "ABSOLUTE_EXPIRY_REACHED", now, .absoluteExpiry⟩
  else if row.expiresAt < now then .returnedNull
  else match orNull row.jti with
    | some _ => .insertRotated row deviceId now
    | none => .markUsed row deviceId now

/-- The checks on the row of a token, up to the next statement. -/
def afterSelect (cfg : Config) (sh : Shared) (row : TokenRow) (deviceId : Option String)
    (now : ℕ) : Shared × Call :=
  match row.usedAt with
  | some _ =>
    (sh.log (.reuseDetected row.familyId),
      .revokeUpdate ⟨row.familyId, some "REFRESH_TOKEN_REUSE_DETECTED", now, .reuseDetected⟩)
  | none =>
    if row.revoked then (sh, .threw tokenRevoked)
    else match orNull row.jti with
      | some _ => (sh, .lookup row deviceId)
      | none => (sh, afterLookup cfg row deviceId now)

/-- The row that `issueRefreshToken` inserts. -/
def issuedRow (cfg : Config) (apiKeyId : ℕ) (familyId : String) (deviceId : Option String)
    (familyStart : Option ℕ) (raw jti : String) (now id : ℕ) : TokenRow :=
  let familyStartedAt := (familyStart.filter (· ≠ 0)).getD now
  { id := id
    jti := some jti
    tokenHash := cfg.sha256 raw
    apiKeyId := apiKeyId
    familyId := familyId
    deviceId := normalizeDeviceId cfg deviceId
    familyStartedAt := some familyStartedAt
    expiresAt := min (now + cfg.ttlMs) (familyStartedAt + cfg.absoluteTtlMs)
    usedAt := none
    revoked := false
    revokedAt := none
    revokeReason := none
    createdAt := now }

def successorOf (cfg : Config) (row : TokenRow) (deviceId : Option String) (raw jti : String)
    (now id : ℕ) : TokenRow :=
  issuedRow cfg row.apiKeyId row.familyId
    (some (orElse row.deviceId (orElse (normalizeDeviceId cfg deviceId) "")))
    (some (familyStartOf row)) raw jti now id

/-- What follows the return of `revokeTokenFamily`. -/
def afterRevocation : Caller → Call
  | .client => .revoked
  | .reuseDetected => .audit
  | .absoluteExpiry => .threw tokenAbsoluteExpiry

/-- The rows that `revokeTokenFamily` inserts. -/
def collected (sh : Shared) (rev : Revocation) : List RevocationRow :=
  (sh.tokens.filter (·.familyId = rev.familyId)).filterMap fun r ↦
    r.jti.map fun jti ↦
      ⟨jti, r.apiKeyId, r.expiresAt, rev.now, orElse rev.reason "FAMILY_REVOKED"⟩

/-- Go on with the rows still to be inserted; after the last one the revocation returns. -/
def nextRevocation (rev : Revocation) : List RevocationRow → Call
  | [] => afterRevocation rev.caller
  | first :: rest => .insertRevocations rev first rest

/-- Resume a call: execute the statement it is suspended on. -/
def resume (cfg : Config) (sh : Shared) (c : Call) (env : Env) : Shared × Call :=
  match c, env.dbError with
  | .waiting (.rotate raw deviceId), none => (sh, .select (cfg.sha256 raw) deviceId)
  | .waiting (.revoke familyId reason), _ =>
    (sh, .revokeUpdate ⟨familyId, reason, env.now, .client⟩)
  | .select hash deviceId, none =>
    match sh.tokens.find? (·.tokenHash = hash) with
    | none => (sh, .returnedNull)
    | some row => afterSelect cfg sh row deviceId env.now
  | .lookup row deviceId, none =>
    if sh.revocations.any fun r ↦ row.jti = some r.jti then (sh, .threw tokenRevoked)
    else (sh, afterLookup cfg row deviceId env.now)
  | .insertRotated row deviceId now, none =>
    (sh.insertRevocation ⟨row.jti.getD "", row.apiKeyId, row.expiresAt, now, "ROTATED"⟩,
      .markUsed row deviceId env.now)
  | .markUsed row deviceId now, none => (sh.markUsed row.id now, .issue row deviceId)
  | .issue row deviceId, none =>
    (sh, .insertSuccessor row deviceId env.raw env.jti env.now)
  | .insertSuccessor row deviceId raw jti now, none =>
    let successor := successorOf cfg row deviceId raw jti now sh.nextId
    if sh.tokens.any fun r ↦ r.tokenHash = successor.tokenHash || r.jti = successor.jti then
      (sh, .threw duplicateEntry)
    else
      ({ sh with tokens := sh.tokens ++ [successor] }.log (.exchanged row.id row.familyId),
        .exchanged raw row)
  | .revokeUpdate rev, none =>
    ((sh.revokeFamily rev.familyId rev.reason rev.now).log (.revoked rev.familyId), .collect rev)
  | .collect rev, none => (sh, nextRevocation rev (collected sh rev))
  | .insertRevocations rev first rest, none =>
    (sh.insertRevocation first, nextRevocation rev rest)
  -- a failure of the audit log does not matter
  | .audit, _ => (sh, .threw tokenReuseDetected)
  | .exchanged _ _, _ | .revoked, _ | .returnedNull, _ | .threw _, _ => (sh, c)
  | _, some e => (sh, .threw e)

/-! ## What must hold -/

def Event.isExchangeOf (id : ℕ) : Event → Bool
  | .exchanged id' _ => id' = id
  | .reuseDetected _ | .revoked _ => false

/-- The family that must not be accepted any more after the event. -/
def Event.closes : Event → Option String
  | .exchanged _ _ => none
  | .reuseDetected f | .revoked f => some f

def ExchangedOnce (sh : Shared) : Prop := ∀ id, sh.events.countP (·.isExchangeOf id) ≤ 1

/-- No token of a family is exchanged after a reuse was detected in the family, or the family was
revoked. -/
def ClosedForGood (sh : Shared) : Prop :=
  sh.events.Pairwise fun e e' ↦ ∀ f ∈ e.closes, ∀ id, e' ≠ .exchanged id f

def Call.reads : Call → Bool
  | .select _ _ => true
  | _ => false

/-- The call inserts the successor of a token next, and the statement succeeds. -/
def Inserts (cfg : Config) (sh : Shared) (env : Env) : Call → Prop
  | .insertSuccessor _ _ raw jti _ =>
    env.dbError = none ∧ ∀ r ∈ sh.tokens, r.tokenHash ≠ cfg.sha256 raw ∧ r.jti ≠ some jti
  | _ => False

section Runs

variable {ι : Type*}

/-- An interleaving, with the number of things that had happened when each call read its row. -/
structure Tracked (ι : Type*) where
  calls : Calls ι Shared Call
  seen : ι → ℕ

/-- What had happened when a call read its row. -/
def Tracked.before (t : Tracked ι) (i : ι) : List Event := t.calls.shared.events.take (t.seen i)

/-- What has happened since a call read its row. -/
def Tracked.since (t : Tracked ι) (i : ι) : List Event := t.calls.shared.events.drop (t.seen i)

def Tracked.step [DecidableEq ι] (cfg : Config) (t : Tracked ι) (a : ι × Env) : Tracked ι where
  calls := Calls.step (resume cfg) t.calls a
  seen :=
    if (t.calls.call a.1).reads then Function.update t.seen a.1 t.calls.shared.events.length
    else t.seen

def Secure (t : Tracked ι) : Prop := ExchangedOnce t.calls.shared ∧ ClosedForGood t.calls.shared

/-- Since the call has read its row, nobody has exchanged the token or closed the family; and a
reuse that had been detected in the family before had been answered with its revocation. -/
def Undisturbed (t : Tracked ι) (i : ι) (row : TokenRow) : Prop :=
  (∀ e ∈ t.since i, e.isExchangeOf row.id = false ∧ e.closes ≠ some row.familyId) ∧
    (.reuseDetected row.familyId ∈ t.before i → .revoked row.familyId ∈ t.before i)

/-- The condition on a step: a successor is inserted only by a call that is undisturbed. -/
def Guarded (cfg : Config) (t : Tracked ι) (a : ι × Env) : Prop :=
  match t.calls.call a.1 with
  | .insertSuccessor row deviceId raw jti now =>
    Inserts cfg t.calls.shared a.2 (.insertSuccessor row deviceId raw jti now) →
      Undisturbed t a.1 row
  | _ => True

end Runs

/-! ## What a step does -/

def Call.row? : Call → Option TokenRow
  | .lookup row _ | .insertRotated row _ _ | .markUsed row _ _ | .issue row _
  | .insertSuccessor row _ _ _ _ => some row
  | _ => none

/-- The token that a call has marked as used and not yet exchanged. -/
def Call.marked : Call → Option ℕ
  | .issue row _ | .insertSuccessor row _ _ _ _ => some row.id
  | _ => none

/-- What a step does to the tokens and the events, and to its call. -/
inductive Moves (cfg : Config) (sh : Shared) (c : Call) (env : Env) : Shared → Call → Prop where
  /-- Neither tokens nor events change. A row that is new to the call was just read, and passed the
  checks. -/
  | goOn (sh' : Shared) (c' : Call) (tokens : sh'.tokens = sh.tokens)
      (events : sh'.events = sh.events)
      (row : ∀ row, c'.row? = some row → c.row? = some row ∨
        c.reads = true ∧ row ∈ sh.tokens ∧ row.usedAt = none ∧ row.revoked = false)
      (marked : c'.marked = c.marked ∨ c'.marked = none) : Moves cfg sh c env sh' c'
  | detect (familyId : String) (reason : Option String) (now : ℕ) :
      Moves cfg sh c env (sh.log (.reuseDetected familyId))
        (.revokeUpdate ⟨familyId, reason, now, .reuseDetected⟩)
  | mark (row : TokenRow) (deviceId : Option String) (now : ℕ)
      (call : c = .markUsed row deviceId now) :
      Moves cfg sh c env (sh.markUsed row.id now) (.issue row deviceId)
  | exchange (row successor : TokenRow) (deviceId : Option String) (raw jti : String) (now : ℕ)
      (call : c = .insertSuccessor row deviceId raw jti now) (inserts : Inserts cfg sh env c)
      (id : successor.id = sh.nextId) (family : successor.familyId = row.familyId) :
      Moves cfg sh c env
        ({ sh with tokens := sh.tokens ++ [successor] }.log (.exchanged row.id row.familyId))
        (.exchanged raw row)
  | revoke (rev : Revocation) (call : c = .revokeUpdate rev) :
      Moves cfg sh c env
        ((sh.revokeFamily rev.familyId rev.reason rev.now).log (.revoked rev.familyId))
        (.collect rev)

section Inversion

variable {cfg : Config} {sh : Shared} {c : Call} {env : Env}

theorem Moves.stop (c' : Call) (hrow : c'.row? = none) (hmarked : c'.marked = none) :
    Moves cfg sh c env sh c' :=
  .goOn sh c' rfl rfl (fun _ h ↦ nomatch hrow.symm.trans h) (.inr hmarked)

theorem Moves.carry (c' : Call) {row : TokenRow}
    (hknown : c.row? = some row ∨
      c.reads = true ∧ row ∈ sh.tokens ∧ row.usedAt = none ∧ row.revoked = false)
    (hrow : c'.row? = some row) (hmarked : c'.marked = none) : Moves cfg sh c env sh c' := by
  refine .goOn sh c' rfl rfl (fun row' h ↦ ?_) (.inr hmarked)
  obtain rfl := Option.some.inj (hrow.symm.trans h)
  exact hknown

theorem moves_afterLookup {row : TokenRow} (deviceId : Option String) (now : ℕ)
    (hknown : c.row? = some row ∨
      c.reads = true ∧ row ∈ sh.tokens ∧ row.usedAt = none ∧ row.revoked = false) :
    Moves cfg sh c env sh (afterLookup cfg row deviceId now) := by
  rw [afterLookup]
  split_ifs
  · exact .stop _ rfl rfl
  · exact .stop _ rfl rfl
  · split
    · exact .carry _ hknown rfl rfl
    · exact .carry _ hknown rfl rfl

theorem moves_afterSelect (hreads : c.reads = true) {row : TokenRow} (deviceId : Option String)
    (now : ℕ) (hmem : row ∈ sh.tokens) :
    Moves cfg sh c env (afterSelect cfg sh row deviceId now).1
      (afterSelect cfg sh row deviceId now).2 := by
  rw [afterSelect]
  split
  · exact .detect row.familyId _ now
  · next hunused =>
    split_ifs with hrevoked
    · exact .stop _ rfl rfl
    · have hknown : c.row? = some row ∨
          c.reads = true ∧ row ∈ sh.tokens ∧ row.usedAt = none ∧ row.revoked = false :=
        .inr ⟨hreads, hmem, hunused, Bool.eq_false_iff.mpr hrevoked⟩
      split
      · exact .carry _ hknown rfl rfl
      · exact moves_afterLookup deviceId now hknown

theorem insertRevocation_tokens (row : RevocationRow) :
    (sh.insertRevocation row).tokens = sh.tokens := by
  rw [Shared.insertRevocation]
  split_ifs <;> rfl

theorem insertRevocation_events (row : RevocationRow) :
    (sh.insertRevocation row).events = sh.events := by
  rw [Shared.insertRevocation]
  split_ifs <;> rfl

theorem nextRevocation_row? (rev : Revocation) (pending : List RevocationRow) :
    (nextRevocation rev pending).row? = none := by
  cases pending with
  | nil => cases h : rev.caller <;> simp [nextRevocation, afterRevocation, h, Call.row?]
  | cons first rest => rfl

theorem nextRevocation_marked (rev : Revocation) (pending : List RevocationRow) :
    (nextRevocation rev pending).marked = none := by
  cases pending with
  | nil => cases h : rev.caller <;> simp [nextRevocation, afterRevocation, h, Call.marked]
  | cons first rest => rfl

/-- **The inversion of a step.** -/
theorem moves_resume (cfg : Config) (sh : Shared) (c : Call) (env : Env) :
    Moves cfg sh c env (resume cfg sh c env).1 (resume cfg sh c env).2 := by
  obtain ⟨now, dbError, raw, jti⟩ := env
  cases dbError with
  | some e =>
    cases c with
    | waiting r => cases r <;> exact .stop _ rfl rfl
    | _ => exact .stop _ rfl rfl
  | none =>
    cases c with
    | waiting r => cases r <;> exact .stop _ rfl rfl
    | select hash deviceId =>
      simp only [resume]
      split
      · exact .stop _ rfl rfl
      · next row hfind =>
        exact moves_afterSelect rfl deviceId now (List.mem_of_find?_eq_some hfind)
    | lookup row deviceId =>
      simp only [resume]
      split_ifs
      · exact .stop _ rfl rfl
      · exact moves_afterLookup deviceId now (.inl rfl)
    | insertRotated row deviceId now =>
      exact .goOn _ _ (insertRevocation_tokens _) (insertRevocation_events _)
        (fun _ h ↦ .inl h) (.inl rfl)
    | markUsed row deviceId now => exact .mark row deviceId now rfl
    | issue row deviceId => exact .goOn _ _ rfl rfl (fun _ h ↦ .inl h) (.inl rfl)
    | insertSuccessor row deviceId raw jti now =>
      simp only [resume]
      split_ifs with hduplicate
      · exact .stop _ rfl rfl
      · refine .exchange row _ deviceId raw jti now rfl ⟨rfl, fun r hr ↦ ?_⟩ rfl rfl
        rw [List.any_eq_true, not_exists] at hduplicate
        have hfresh := hduplicate r
        simp only [hr, true_and, Bool.or_eq_true, decide_eq_true_eq, not_or] at hfresh
        exact hfresh
    | revokeUpdate rev => exact .revoke rev rfl
    | collect rev => exact .stop _ (nextRevocation_row? _ _) (nextRevocation_marked _ _)
    | insertRevocations rev first rest =>
      refine .goOn _ _ (insertRevocation_tokens _) (insertRevocation_events _) (fun row h ↦ ?_)
        (.inr (nextRevocation_marked _ _))
      cases (nextRevocation_row? rev rest).symm.trans h
    | audit => exact .stop _ rfl rfl
    | exchanged | revoked | returnedNull | threw => exact .stop _ rfl rfl

/-- A successor that is inserted is an exchange. -/
theorem events_of_inserts {row : TokenRow} {deviceId : Option String} {raw jti : String} {now : ℕ}
    (h : Inserts cfg sh env (.insertSuccessor row deviceId raw jti now)) :
    (resume cfg sh (.insertSuccessor row deviceId raw jti now) env).1.events
      = sh.events ++ [.exchanged row.id row.familyId] := by
  obtain ⟨now', dbError, raw', jti'⟩ := env
  obtain ⟨herr, hfresh⟩ := h
  obtain rfl : dbError = none := herr
  simp only [resume]
  rw [if_neg]
  · rfl
  · rw [List.any_eq_true]
    rintro ⟨r, hr, hduplicate⟩
    rw [Bool.or_eq_true, decide_eq_true_iff, decide_eq_true_iff] at hduplicate
    exact hduplicate.elim (hfresh r hr).1 (hfresh r hr).2

end Inversion

/-! ## The invariants -/

/-- The row is in the table, perhaps changed. -/
def Known (tokens : List TokenRow) (row : TokenRow) : Prop :=
  ∃ r ∈ tokens, r.id = row.id ∧ r.familyId = row.familyId

def Used (tokens : List TokenRow) (id : ℕ) : Prop := ∀ r ∈ tokens, r.id = id → r.usedAt ≠ none

def Revoked (tokens : List TokenRow) (familyId : String) : Prop :=
  ∀ r ∈ tokens, r.familyId = familyId → r.revoked = true

section Invariant

variable {ι : Type*}

structure Sound (t : Tracked ι) : Prop where
  ids : (t.calls.shared.tokens.map (·.id)).Nodup
  known : ∀ i, ∀ row ∈ (t.calls.call i).row?, Known t.calls.shared.tokens row
  marked : ∀ i, ∀ id ∈ (t.calls.call i).marked, Used t.calls.shared.tokens id
  spent : ∀ id f, .exchanged id f ∈ t.calls.shared.events →
    (∃ r ∈ t.calls.shared.tokens, r.id = id) ∧ Used t.calls.shared.tokens id
  revoked : ∀ f, .revoked f ∈ t.calls.shared.events → Revoked t.calls.shared.tokens f
  seen : ∀ i, t.seen i ≤ t.calls.shared.events.length
  unspent : ∀ i, ∀ row ∈ (t.calls.call i).row?, ∀ f, .exchanged row.id f ∉ t.before i
  unrevoked : ∀ i, ∀ row ∈ (t.calls.call i).row?, .revoked row.familyId ∉ t.before i
  secure : Secure t

/-! ### What the statements keep -/

theorem Call.exists_row_of_marked {c : Call} {id : ℕ} (h : id ∈ c.marked) :
    ∃ row ∈ c.row?, row.id = id := by
  cases c <;> cases h <;> exact ⟨_, rfl, rfl⟩

theorem Call.reads_of_row? {c : Call} {row : TokenRow} (h : row ∈ c.row?) : c.reads = false := by
  cases c <;> first | rfl | cases h

theorem id_lt_nextId {sh : Shared} {r : TokenRow} (hr : r ∈ sh.tokens) : r.id < sh.nextId := by
  have hmem : r.id ∈ sh.tokens.map (·.id) := List.mem_map_of_mem hr
  exact Nat.lt_succ_of_le (List.le_max_of_le' 0 hmem le_rfl)

/-- The rows of a table, rewritten one by one with their ids and families left alone. -/
structure Rewrites (f : TokenRow → TokenRow) : Prop where
  id : ∀ r, (f r).id = r.id
  familyId : ∀ r, (f r).familyId = r.familyId
  usedAt : ∀ r, (f r).usedAt = none → r.usedAt = none
  revoked : ∀ r, r.revoked = true → (f r).revoked = true

section Rewrites

variable {tokens : List TokenRow} {f : TokenRow → TokenRow}

theorem Rewrites.ids (hf : Rewrites f) : (tokens.map f).map (·.id) = tokens.map (·.id) := by
  rw [List.map_map]
  exact List.map_congr_left fun r _ ↦ hf.id r

theorem Rewrites.known (hf : Rewrites f) {row : TokenRow} (h : Known tokens row) :
    Known (tokens.map f) row := by
  obtain ⟨r, hr, hid, hfamily⟩ := h
  exact ⟨f r, List.mem_map_of_mem hr, (hf.id r).trans hid, (hf.familyId r).trans hfamily⟩

theorem Rewrites.used (hf : Rewrites f) {id : ℕ} (h : Used tokens id) :
    Used (tokens.map f) id := by
  intro r hr hid hnone
  obtain ⟨r', hr', rfl⟩ := List.mem_map.mp hr
  exact h r' hr' ((hf.id r').symm.trans hid) (hf.usedAt r' hnone)

theorem Rewrites.revoked_map (hf : Rewrites f) {familyId : String} (h : Revoked tokens familyId) :
    Revoked (tokens.map f) familyId := by
  intro r hr hfamily
  obtain ⟨r', hr', rfl⟩ := List.mem_map.mp hr
  exact hf.revoked r' (h r' hr' ((hf.familyId r').symm.trans hfamily))

end Rewrites

theorem rewrites_markUsed (id now : ℕ) :
    Rewrites fun r ↦ if r.id = id then { r with usedAt := some now } else r := by
  constructor <;> intro r <;> split_ifs <;> first | rfl | exact fun h ↦ h | exact nofun

theorem rewrites_revokeFamily (familyId : String) (reason : Option String) (now : ℕ) :
    Rewrites fun r ↦
      if r.familyId = familyId then
        { r with revoked := true, revokedAt := some now, revokeReason := orNull reason }
      else r := by
  constructor <;> intro r <;> split_ifs <;> first | rfl | exact fun h ↦ h | exact fun _ ↦ rfl

theorem used_markUsed (tokens : List TokenRow) (id now : ℕ) :
    Used (tokens.map fun r ↦ if r.id = id then { r with usedAt := some now } else r) id := by
  intro r hr hid
  obtain ⟨r', -, rfl⟩ := List.mem_map.mp hr
  split_ifs at hid ⊢ with h
  · exact nofun
  · exact absurd hid h

theorem revoked_revokeFamily (tokens : List TokenRow) (familyId : String) (reason : Option String)
    (now : ℕ) : Revoked (tokens.map fun r ↦
      if r.familyId = familyId then
        { r with revoked := true, revokedAt := some now, revokeReason := orNull reason }
      else r) familyId := by
  intro r hr hfamily
  obtain ⟨r', -, rfl⟩ := List.mem_map.mp hr
  split_ifs at hfamily ⊢ with h
  · rfl
  · exact absurd hfamily h

/-! ### What a step keeps -/

section Moves

variable {cfg : Config} {sh sh' : Shared} {c c' : Call} {env : Env}

theorem Moves.ids (hmoves : Moves cfg sh c env sh' c') (h : (sh.tokens.map (·.id)).Nodup) :
    (sh'.tokens.map (·.id)).Nodup := by
  cases hmoves with
  | goOn _ _ htokens => rwa [htokens]
  | detect => exact h
  | mark row _ now => exact (rewrites_markUsed row.id now).ids.symm ▸ h
  | revoke rev => exact (rewrites_revokeFamily rev.familyId rev.reason rev.now).ids.symm ▸ h
  | exchange row successor _ _ _ _ _ _ hid =>
    have hnew : ∀ n ∈ sh.tokens.map (·.id), n ≠ successor.id := by
      intro n hn
      obtain ⟨r, hr, rfl⟩ := List.mem_map.mp hn
      exact hid ▸ (id_lt_nextId hr).ne
    simp only [Shared.log, List.map_append, List.map_cons, List.map_nil]
    refine h.append (List.nodup_singleton _) fun n hn hn' ↦ ?_
    exact hnew n hn (List.mem_singleton.mp hn')

theorem Moves.known (hmoves : Moves cfg sh c env sh' c') {row : TokenRow}
    (h : Known sh.tokens row) : Known sh'.tokens row := by
  cases hmoves with
  | goOn _ _ htokens => rwa [htokens]
  | detect => exact h
  | mark row' _ now => exact (rewrites_markUsed row'.id now).known h
  | revoke rev => exact (rewrites_revokeFamily rev.familyId rev.reason rev.now).known h
  | exchange =>
    obtain ⟨r, hr, hrow⟩ := h
    exact ⟨r, List.mem_append_left _ hr, hrow⟩

theorem Moves.known_id (hmoves : Moves cfg sh c env sh' c') {id : ℕ}
    (h : ∃ r ∈ sh.tokens, r.id = id) : ∃ r ∈ sh'.tokens, r.id = id := by
  obtain ⟨r, hr, rfl⟩ := h
  obtain ⟨r', hr', hid, -⟩ := hmoves.known ⟨r, hr, rfl, rfl⟩
  exact ⟨r', hr', hid⟩

theorem Moves.used (hmoves : Moves cfg sh c env sh' c') {id : ℕ} (hid : ∃ r ∈ sh.tokens, r.id = id)
    (h : Used sh.tokens id) : Used sh'.tokens id := by
  cases hmoves with
  | goOn _ _ htokens => rwa [htokens]
  | detect => exact h
  | mark row _ now => exact (rewrites_markUsed row.id now).used h
  | revoke rev => exact (rewrites_revokeFamily rev.familyId rev.reason rev.now).used h
  | exchange row successor _ _ _ _ _ _ hnew =>
    obtain ⟨r, hr, rfl⟩ := hid
    intro r' hr' hid
    rcases List.mem_append.mp hr' with hr' | hr'
    · exact h r' hr' hid
    · obtain rfl := List.mem_singleton.mp hr'
      exact absurd (hid.symm.trans hnew) (id_lt_nextId hr).ne

theorem Moves.row (hmoves : Moves cfg sh c env sh' c') {row : TokenRow} (hrow : row ∈ c'.row?) :
    row ∈ c.row? ∨ c.reads = true ∧ row ∈ sh.tokens ∧ row.usedAt = none ∧ row.revoked = false := by
  cases hmoves with
  | goOn _ _ _ _ h => exact h row hrow
  | mark _ _ _ hcall =>
    obtain rfl := Option.some.inj hrow
    exact .inl (hcall ▸ rfl)
  | detect | exchange | revoke => cases hrow

theorem Moves.marked (hmoves : Moves cfg sh c env sh' c') {id : ℕ} (hid : id ∈ c'.marked) :
    id ∈ c.marked ∨ Used sh'.tokens id := by
  cases hmoves with
  | goOn _ _ _ _ _ h =>
    rcases h with h | h
    · exact .inl (h ▸ hid)
    · cases h.symm.trans hid
  | mark row deviceId now hcall =>
    obtain rfl := Option.some.inj hid
    exact .inr (used_markUsed _ _ _)
  | detect | exchange | revoke => cases hid

theorem Moves.events (hmoves : Moves cfg sh c env sh' c') : ∃ es, sh'.events = sh.events ++ es := by
  cases hmoves with
  | goOn _ _ _ hevents => exact ⟨[], by rw [hevents, List.append_nil]⟩
  | mark => exact ⟨[], (List.append_nil _).symm⟩
  | detect | exchange | revoke => exact ⟨_, rfl⟩

theorem Moves.exchanged (hmoves : Moves cfg sh c env sh' c') {id : ℕ} {f : String}
    (h : .exchanged id f ∈ sh'.events) : .exchanged id f ∈ sh.events ∨ c.marked = some id := by
  cases hmoves with
  | goOn _ _ _ hevents => exact .inl (hevents ▸ h)
  | mark => exact .inl h
  | detect | revoke =>
    rcases List.mem_append.mp h with h | h
    · exact .inl h
    · cases List.mem_singleton.mp h
  | exchange row _ _ _ _ _ hcall =>
    rcases List.mem_append.mp h with h | h
    · exact .inl h
    · cases List.mem_singleton.mp h
      exact .inr (hcall ▸ rfl)

theorem Moves.revoked (hmoves : Moves cfg sh c env sh' c') {f : String}
    (hrevoked : .revoked f ∈ sh.events → Revoked sh.tokens f)
    (hother : ∀ row deviceId raw jti now, c = .insertSuccessor row deviceId raw jti now →
      Inserts cfg sh env c → .revoked f ∈ sh.events → row.familyId ≠ f)
    (h : .revoked f ∈ sh'.events) : Revoked sh'.tokens f := by
  cases hmoves with
  | goOn _ _ htokens hevents =>
    rw [htokens]
    exact hrevoked (hevents ▸ h)
  | mark row _ now => exact (rewrites_markUsed row.id now).revoked_map (hrevoked h)
  | detect =>
    rcases List.mem_append.mp h with h | h
    · exact hrevoked h
    · cases List.mem_singleton.mp h
  | exchange row successor deviceId raw jti now hcall hinserts _ hfamily =>
    rcases List.mem_append.mp h with h | h
    · intro r hr hf
      rcases List.mem_append.mp hr with hr | hr
      · exact hrevoked h r hr hf
      · obtain rfl := List.mem_singleton.mp hr
        exact absurd (hfamily.symm.trans hf) (hother row deviceId raw jti now hcall hinserts h)
    · cases List.mem_singleton.mp h
  | revoke rev =>
    rcases List.mem_append.mp h with h | h
    · exact (rewrites_revokeFamily rev.familyId rev.reason rev.now).revoked_map (hrevoked h)
    · cases List.mem_singleton.mp h
      exact revoked_revokeFamily _ _ _ _

end Moves

/-! ### The steps of the system -/

section Steps

variable {t : Tracked ι} {cfg : Config} {i : ι} {env : Env}

/-- Nothing has happened yet, and every call is still to be made. -/
def start (tokens : List TokenRow) (revocations : List RevocationRow) (req : ι → Request) :
    Tracked ι where
  calls := ⟨⟨tokens, revocations, []⟩, fun i ↦ .waiting (req i)⟩
  seen _ := 0

theorem sound_start {tokens : List TokenRow} (hids : (tokens.map (·.id)).Nodup)
    (revocations : List RevocationRow) (req : ι → Request) :
    Sound (start tokens revocations req) := by
  constructor
  case ids => exact hids
  case known | marked | unspent | unrevoked => exact nofun
  case spent | revoked => exact nofun
  case seen => exact fun _ ↦ le_rfl
  case secure => exact ⟨fun _ ↦ Nat.zero_le 1, List.Pairwise.nil⟩

/-- What a call relies on at its insertion: the token is not exchanged and the family not closed.
What had happened before it read its row the checks have seen, and the condition is about the rest.
-/
theorem Sound.open (ht : Sound t) {row : TokenRow} (hrow : row ∈ (t.calls.call i).row?)
    (hguard : Undisturbed t i row) : ∀ e ∈ t.calls.shared.events,
      e.isExchangeOf row.id = false ∧ e.closes ≠ some row.familyId := by
  obtain ⟨hsince, hanswered⟩ := hguard
  intro e he
  rw [← List.take_append_drop (t.seen i) t.calls.shared.events] at he
  rcases List.mem_append.mp he with he | he
  · cases e with
    | exchanged id f =>
      refine ⟨decide_eq_false fun hid ↦ ?_, nofun⟩
      exact ht.unspent i row hrow f (hid ▸ he)
    | reuseDetected f =>
      refine ⟨rfl, fun hf ↦ ?_⟩
      obtain rfl := Option.some.inj hf
      exact ht.unrevoked i row hrow (hanswered he)
    | revoked f =>
      refine ⟨rfl, fun hf ↦ ?_⟩
      obtain rfl := Option.some.inj hf
      exact ht.unrevoked i row hrow he
  · exact hsince e he

theorem Guarded.undisturbed (hguard : Guarded cfg t (i, env)) {row : TokenRow}
    {deviceId : Option String} {raw jti : String} {now : ℕ}
    (hcall : t.calls.call i = .insertSuccessor row deviceId raw jti now)
    (hinserts : Inserts cfg t.calls.shared env (t.calls.call i)) : Undisturbed t i row := by
  rw [Guarded, hcall] at hguard
  exact hguard (hcall ▸ hinserts)

theorem secure_exchange {events : List Event} {row : TokenRow} {tokens : List TokenRow}
    {revocations : List RevocationRow} {sh : Shared} (hsh : sh.events = events)
    (hsecure : ExchangedOnce sh ∧ ClosedForGood sh)
    (hopen : ∀ e ∈ events, e.isExchangeOf row.id = false ∧ e.closes ≠ some row.familyId) :
    ExchangedOnce ⟨tokens, revocations, events ++ [.exchanged row.id row.familyId]⟩ ∧
      ClosedForGood ⟨tokens, revocations, events ++ [.exchanged row.id row.familyId]⟩ := by
  subst hsh
  refine ⟨fun id ↦ ?_, ?_⟩
  · dsimp only
    rw [List.countP_append, List.countP_singleton]
    split_ifs with hid
    · obtain rfl : row.id = id := of_decide_eq_true hid
      have hzero : sh.events.countP (·.isExchangeOf row.id) = 0 :=
        List.countP_eq_zero.mpr fun e he ↦ Bool.eq_false_iff.mp (hopen e he).1
      omega
    · exact hsecure.1 id
  · refine List.pairwise_append.mpr ⟨hsecure.2, List.pairwise_singleton _ _, ?_⟩
    rintro e he _ he' f hf id rfl
    obtain ⟨-, rfl⟩ := Event.exchanged.inj (List.mem_singleton.mp he')
    exact (hopen e he).2 hf

theorem secure_concat {sh sh' : Shared} {e : Event} (hsecure : ExchangedOnce sh ∧ ClosedForGood sh)
    (hevents : sh'.events = sh.events ++ [e]) (he : ∀ id f, e ≠ .exchanged id f) :
    ExchangedOnce sh' ∧ ClosedForGood sh' := by
  refine ⟨fun id ↦ ?_, ?_⟩
  · rw [hevents, List.countP_append, List.countP_singleton, if_neg]
    · exact hsecure.1 id
    · cases e with
      | exchanged id' f => exact absurd rfl (he id' f)
      | _ => exact Bool.false_ne_true
  · rw [ClosedForGood, hevents]
    refine List.pairwise_append.mpr ⟨hsecure.2, List.pairwise_singleton _ _, ?_⟩
    intro e' _ e'' he'' f _ id
    rw [List.mem_singleton.mp he'']
    exact he id f

theorem Sound.secure_moves (ht : Sound t) (hguard : Guarded cfg t (i, env)) :
    ExchangedOnce (resume cfg t.calls.shared (t.calls.call i) env).1 ∧
      ClosedForGood (resume cfg t.calls.shared (t.calls.call i) env).1 := by
  have hmoves := moves_resume cfg t.calls.shared (t.calls.call i) env
  generalize (resume cfg t.calls.shared (t.calls.call i) env).1 = sh',
    (resume cfg t.calls.shared (t.calls.call i) env).2 = c' at hmoves ⊢
  cases hmoves with
  | goOn _ _ _ hevents =>
    rw [ExchangedOnce, ClosedForGood, hevents]
    exact ht.secure
  | mark => exact ht.secure
  | detect familyId => exact secure_concat ht.secure rfl nofun
  | revoke rev => exact secure_concat ht.secure rfl nofun
  | exchange row successor deviceId raw jti now hcall hinserts =>
    refine secure_exchange rfl ht.secure (ht.open (i := i) (hcall ▸ rfl) ?_)
    exact hguard.undisturbed hcall hinserts

/-- What had happened when a call read its row, after a step of another call or of one that does not
read. -/
theorem Sound.take_seen (ht : Sound t) {es : List Event} (j : ι) :
    (t.calls.shared.events ++ es).take (t.seen j) = t.before j :=
  List.take_append_of_le_length (ht.seen j)

variable [DecidableEq ι]

/-- What had happened when a call read its row stays; for a call that reads it now it is all that
has happened. -/
theorem Sound.before_step (ht : Sound t) (j : ι) :
    (t.step cfg (i, env)).before j =
      if j = i ∧ (t.calls.call i).reads = true then t.calls.shared.events else t.before j := by
  obtain ⟨es, hes⟩ := (moves_resume cfg t.calls.shared (t.calls.call i) env).events
  rw [Tracked.before, Tracked.step]
  dsimp only
  rw [Calls.step_shared, hes]
  by_cases hreads : (t.calls.call i).reads = true
  · rw [if_pos hreads]
    by_cases hji : j = i
    · rw [hji, Function.update_self, if_pos ⟨rfl, hreads⟩, List.take_left]
    · rw [Function.update_of_ne hji, if_neg fun h ↦ hji h.1, ht.take_seen]
  · rw [if_neg hreads, if_neg fun h ↦ hreads h.2, ht.take_seen]

/-- A property of the row a call holds and of what had happened when it read it. The checks
establish it, and it lasts. -/
theorem Sound.forall_row_step (ht : Sound t) {P : TokenRow → List Event → Prop}
    (h : ∀ j, ∀ row ∈ (t.calls.call j).row?, P row (t.before j))
    (hread : ∀ row ∈ t.calls.shared.tokens, row.usedAt = none → row.revoked = false →
      P row t.calls.shared.events) :
    ∀ j, ∀ row ∈ ((t.step cfg (i, env)).calls.call j).row?,
      P row ((t.step cfg (i, env)).before j) := by
  intro j row hrow
  have hmoves := moves_resume cfg t.calls.shared (t.calls.call i) env
  rw [ht.before_step]
  by_cases hji : j = i
  · subst hji
    have hself : (t.step cfg (j, env)).calls.call j
        = (resume cfg t.calls.shared (t.calls.call j) env).2 := Calls.step_call_self ..
    rw [hself] at hrow
    rcases hmoves.row hrow with hheld | ⟨hreads, hmem, hunused, hunrevoked⟩
    · rw [if_neg]
      · exact h j row hheld
      · -- a call that reads its row holds none yet
        rintro ⟨-, hreads⟩
        rw [Call.reads_of_row? hheld] at hreads
        cases hreads
    · rw [if_pos ⟨rfl, hreads⟩]
      exact hread row hmem hunused hunrevoked
  · rw [if_neg fun h ↦ hji h.1]
    refine h j row ?_
    have hother : (t.step cfg (i, env)).calls.call j = t.calls.call j :=
      Calls.step_call_of_ne _ env hji
    rwa [hother] at hrow

theorem Sound.step (ht : Sound t) (hguard : Guarded cfg t (i, env)) :
    Sound (t.step cfg (i, env)) := by
  have hmoves := moves_resume cfg t.calls.shared (t.calls.call i) env
  obtain ⟨es, hes⟩ := hmoves.events
  have hknown_marked : ∀ j, ∀ id ∈ (t.calls.call j).marked,
      ∃ r ∈ t.calls.shared.tokens, r.id = id := by
    intro j id hid
    obtain ⟨row, hrow, rfl⟩ := Call.exists_row_of_marked hid
    obtain ⟨r, hr, hrid, -⟩ := ht.known j row hrow
    exact ⟨r, hr, hrid⟩
  have hused : ∀ j, ∀ id ∈ (t.calls.call j).marked,
      Used (resume cfg t.calls.shared (t.calls.call i) env).1.tokens id := fun j id hid ↦
    hmoves.used (hknown_marked j id hid) (ht.marked j id hid)
  constructor
  case ids => exact hmoves.ids ht.ids
  case known =>
    refine Calls.forall_step
      (P := fun (sh : Shared) (c : Call) ↦ ∀ row ∈ c.row?, Known sh.tokens row) ht.known
      (fun row hrow ↦ ?_) fun _ h row hrow ↦ hmoves.known (h row hrow)
    rcases hmoves.row hrow with hrow | ⟨-, hmem, -⟩
    · exact hmoves.known (ht.known i row hrow)
    · exact hmoves.known ⟨row, hmem, rfl, rfl⟩
  case marked =>
    refine Calls.forall_step
      (P := fun (sh : Shared) (c : Call) ↦ ∀ id ∈ c.marked,
        (∃ r ∈ sh.tokens, r.id = id) ∧ Used sh.tokens id)
      (fun j id hid ↦ ⟨hknown_marked j id hid, ht.marked j id hid⟩) (fun id hid ↦ ?_)
      (fun c h id hid ↦ ⟨hmoves.known_id (h id hid).1, hmoves.used (h id hid).1 (h id hid).2⟩) |>
      fun h j id hid ↦ (h j id hid).2
    obtain ⟨row, hrow, rfl⟩ := Call.exists_row_of_marked hid
    refine ⟨?_, (hmoves.marked hid).elim (hused i row.id) id⟩
    rcases hmoves.row hrow with hrow | ⟨-, hmem, -⟩
    · obtain ⟨r, hr, hrid, -⟩ := ht.known i row hrow
      exact hmoves.known_id ⟨r, hr, hrid⟩
    · exact hmoves.known_id ⟨row, hmem, rfl⟩
  case spent =>
    intro id f he
    rcases hmoves.exchanged he with he | hid
    · obtain ⟨hknown, hused⟩ := ht.spent id f he
      exact ⟨hmoves.known_id hknown, hmoves.used hknown hused⟩
    · exact ⟨hmoves.known_id (hknown_marked i id hid), hused i id hid⟩
  case revoked =>
    intro f hf
    refine hmoves.revoked (ht.revoked f) ?_ hf
    rintro row deviceId raw jti now hcall hinserts hrevoked rfl
    exact (ht.open (i := i) (hcall ▸ rfl) (hguard.undisturbed hcall hinserts) _ hrevoked).2 rfl
  case seen =>
    intro j
    rw [Tracked.step]
    dsimp only
    rw [Calls.step_shared, hes, List.length_append]
    split_ifs
    · by_cases hji : j = i
      · rw [hji, Function.update_self]
        omega
      · rw [Function.update_of_ne hji]
        exact (ht.seen j).trans (Nat.le_add_right _ _)
    · exact (ht.seen j).trans (Nat.le_add_right _ _)
  case unspent =>
    refine ht.forall_row_step (P := fun row es ↦ ∀ f, .exchanged row.id f ∉ es) ht.unspent ?_
    -- an exchanged token is used, and the row that was read is not
    exact fun row hmem hunused _ f he ↦ (ht.spent row.id f he).2 row hmem rfl hunused
  case unrevoked =>
    refine ht.forall_row_step (P := fun row es ↦ .revoked row.familyId ∉ es) ht.unrevoked ?_
    intro row hmem _ hunrevoked he
    exact absurd (hunrevoked.symm.trans (ht.revoked _ he row hmem rfl)) Bool.false_ne_true
  case secure => exact ht.secure_moves hguard

/-- A successor that is inserted by a disturbed call breaks the properties. -/
theorem not_secure_of_not_guarded (hguard : ¬Guarded cfg t (i, env)) :
    ¬Secure (t.step cfg (i, env)) := by
  rw [Guarded] at hguard
  dsimp only at hguard
  split at hguard
  case h_2 => exact absurd trivial hguard
  next row deviceId raw jti now hcall =>
    obtain ⟨hinserts, hdisturbed⟩ := Classical.not_imp.mp hguard
    have hevents : (t.step cfg (i, env)).calls.shared.events
        = t.calls.shared.events ++ [.exchanged row.id row.familyId] := by
      rw [← events_of_inserts hinserts, ← hcall]
      rfl
    rintro ⟨honce, hclosed⟩
    rw [ClosedForGood, hevents, List.pairwise_append] at hclosed
    have hcount := honce row.id
    have hself : Event.isExchangeOf row.id (.exchanged row.id row.familyId) = true :=
      decide_eq_true rfl
    rw [hevents, List.countP_append, List.countP_singleton, if_pos hself] at hcount
    have hcloses : ∀ e ∈ t.calls.shared.events, e.closes ≠ some row.familyId := fun e he hf ↦
      hclosed.2.2 e he _ (List.mem_singleton_self _) row.familyId hf row.id rfl
    refine hdisturbed ⟨fun e he ↦ ?_, fun he ↦ absurd rfl (hcloses _ (List.mem_of_mem_take he))⟩
    have hmem : e ∈ t.calls.shared.events := List.mem_of_mem_drop he
    refine ⟨Bool.eq_false_of_not_eq_true fun hexchange ↦ ?_, hcloses e hmem⟩
    have hpos : 0 < t.calls.shared.events.countP (·.isExchangeOf row.id) :=
      List.countP_pos_iff.mpr ⟨e, hmem, hexchange⟩
    omega

/-- **Rotation.** No token is exchanged twice, and none after a reuse in its family or the
revocation of its family, exactly in the runs in which every successor is inserted by a call that
was not disturbed since it read its row. -/
theorem rotation_secure_iff (cfg : Config) (tokens : List TokenRow)
    (revocations : List RevocationRow) (hids : (tokens.map (·.id)).Nodup) (req : ι → Request)
    (as : List (ι × Env)) :
    Always (Tracked.step cfg) Secure (start tokens revocations req) as ↔
      Along (Tracked.step cfg) (Guarded cfg) (start tokens revocations req) as :=
  always_iff_along (I := Sound) (fun _ ht ↦ ht.secure) (fun _ _ ht hguard ↦ ht.step hguard)
    (fun _ _ _ hguard ↦ not_secure_of_not_guarded hguard) (sound_start hids revocations req) as

end Steps

section Examples

def plainConfig : Config := ⟨id, 604800000, 2592000000, 128⟩

def firstToken : TokenRow where
  id := 1
  jti := some "jti-1"
  tokenHash := "token-1"
  apiKeyId := 7
  familyId := "family"
  deviceId := none
  familyStartedAt := some 1000
  expiresAt := 604801000
  usedAt := none
  revoked := false
  revokedAt := none
  revokeReason := none
  createdAt := 1000

/-- Three calls: the first two are made as given, the third exchanges the token `token-2`. -/
def requests (r r' : Request) : Fin 3 → Request
  | 0 => r
  | 1 => r'
  | 2 => .rotate "token-2" none

/-- No statement fails, and every call would issue a token of its own. -/
def envOf : Fin 3 → Env
  | 0 => ⟨2000, none, "token-2", "jti-2"⟩
  | 1 => ⟨2000, none, "token-3", "jti-3"⟩
  | 2 => ⟨2000, none, "token-4", "jti-4"⟩

def order (is : List (Fin 3)) : List (Fin 3 × Env) := is.map fun i ↦ (i, envOf i)

def overlapping : List (Fin 3 × Env) :=
  order ([0, 0, 0, 1, 1, 1] ++ List.replicate 4 0 ++ List.replicate 4 1)

/-- The family is revoked while a rotation is about to insert its successor, and the successor is
exchanged afterwards. -/
def revokedInFlight : List (Fin 3 × Env) :=
  order (List.replicate 6 0 ++ List.replicate 4 1 ++ [0] ++ List.replicate 7 2)

theorem events_revokedInFlight :
    (run (Tracked.step plainConfig) (start [firstToken] []
      (requests (.rotate "token-1" none) (.revoke "family" none))) revokedInFlight
        ).calls.shared.events =
      [.revoked "family", .exchanged 1 "family", .exchanged 2 "family"] := by
  decide

/-- Two overlapping rotations both exchange the token; and the successor of a rotation in flight is
exchanged although the family had been revoked before it was inserted. -/
theorem rotation_not_secure :
    ¬Always (Tracked.step plainConfig) Secure
        (start [firstToken] [] (requests (.rotate "token-1" none) (.rotate "token-1" none)))
        overlapping ∧
      ¬Always (Tracked.step plainConfig) Secure
        (start [firstToken] [] (requests (.rotate "token-1" none) (.revoke "family" none)))
        revokedInFlight := by
  constructor
  · intro h
    exact absurd (h.last.1 1) (by decide)
  · intro h
    have hclosed := h.last.2
    rw [ClosedForGood, events_revokedInFlight] at hclosed
    exact (List.pairwise_cons.mp hclosed).1 (.exchanged 2 "family") (by decide) "family" rfl 2 rfl

instance (cfg : Config) (sh : Shared) (env : Env) : DecidablePred (Inserts cfg sh env) := by
  intro c
  unfold Inserts
  split <;> infer_instance

instance (t : Tracked (Fin 3)) (i : Fin 3) (row : TokenRow) : Decidable (Undisturbed t i row) := by
  unfold Undisturbed
  infer_instance

instance (t : Tracked (Fin 3)) (a : Fin 3 × Env) : Decidable (Guarded plainConfig t a) := by
  unfold Guarded
  split <;> infer_instance

/-- A token is exchanged, and presented again: the reuse is detected and the family revoked. -/
theorem rotation_secure_iff_at :
    Always (Tracked.step plainConfig) Secure
      (start [firstToken] [] (requests (.rotate "token-1" none) (.rotate "token-1" none)))
      (order (List.replicate 7 0 ++ List.replicate 7 1 ++ List.replicate 3 2)) :=
  (rotation_secure_iff plainConfig _ _ (by decide) _ _).mpr (by decide +kernel)

end Examples

end Invariant

end StellarDonations.RefreshTokens
