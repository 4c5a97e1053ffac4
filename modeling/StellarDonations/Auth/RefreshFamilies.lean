import StellarDonations.Auth.RefreshTokens

/-!
# Refresh token families

The same calls, made one after another: new families are issued, tokens are rotated, families are
revoked. A family then has at most one token that is unused, since a rotation marks the token it has
read before it inserts the successor, and no other call comes in between. The successor inherits the
start of the family from the row it replaces, which bounds its expiry. A used token that is
presented ends its family, unless a statement fails before the family is revoked: the call throws,
and the family is as it was.

Rows written before `family_started_at` existed have no start; migration 042 gives them that of the
earliest row of their family.
-/

namespace StellarDonations.RefreshTokens

open Concurrency JsString

/-! ## The server -/

/-- What is known of a call afterwards. -/
structure Attempt where
  /-- The family of the token it presented, if the token was used when the call was made. -/
  presented : Option String
  /-- A statement failed before the family was revoked. -/
  lost : Bool
  /-- The family of the token for which it returned a new pair. -/
  succeeded : Option String

/-- The tables, the call that is on its way or was the last one, and the calls before it. -/
structure Server where
  shared : Shared
  call : Call
  presented : Option String
  lost : Bool
  past : List Attempt

def Call.isOver : Call → Bool
  | .exchanged _ _ | .revoked | .returnedNull | .threw _ => true
  | _ => false

def issueRefreshToken (cfg : Config) (sh : Shared) (apiKeyId : ℕ) (familyId : String)
    (deviceId : Option String) (env : Env) : Shared :=
  match env.dbError with
  | some _ => sh
  | none =>
    let row := issuedRow cfg apiKeyId familyId deviceId none env.raw env.jti env.now sh.nextId
    if sh.tokens.any fun r ↦ r.tokenHash = row.tokenHash || r.jti = row.jti then sh
    else { sh with tokens := sh.tokens ++ [row] }

def usedFamily (tokens : List TokenRow) (hash : String) : Option String :=
  (tokens.find? (·.tokenHash = hash)).bind fun row ↦
    if row.usedAt = none then none else some row.familyId

/-- The family of the used token that a call presents. -/
def presentedBy (cfg : Config) (tokens : List TokenRow) : Request → Option String
  | .rotate raw _ => usedFamily tokens (cfg.sha256 raw)
  | .revoke _ _ => none

/-- The family of the token for which a call has returned a new pair. -/
def Call.succeeded : Call → Option String
  | .exchanged _ row => some row.familyId
  | _ => none

/-- The statements up to the one that revokes a family. -/
def Call.isBeforeRevocation : Call → Bool
  | .waiting (.rotate _ _) | .select _ _ | .revokeUpdate _ => true
  | _ => false

inductive Action where
  /-- The next call is made. -/
  | make (r : Request)
  /-- The call goes on. -/
  | resume (env : Env)
  | issue (apiKeyId : ℕ) (familyId : String) (deviceId : Option String) (env : Env)

/-- What is done next. Nothing new begins while a call is on its way. -/
def act (cfg : Config) (s : Server) : Action → Server
  | .make r =>
    if s.call.isOver then
      { shared := s.shared
        call := .waiting r
        presented := presentedBy cfg s.shared.tokens r
        lost := false
        past := ⟨s.presented, s.lost, s.call.succeeded⟩ :: s.past }
    else s
  | .resume env =>
    { s with
      shared := (resume cfg s.shared s.call env).1
      call := (resume cfg s.shared s.call env).2
      lost := s.lost || s.call.isBeforeRevocation && env.dbError.isSome }
  | .issue apiKeyId familyId deviceId env =>
    if s.call.isOver then
      { s with shared := issueRefreshToken cfg s.shared apiKeyId familyId deviceId env }
    else s

def Server.start (tokens : List TokenRow) (revocations : List RevocationRow) : Server where
  shared := ⟨tokens, revocations, []⟩
  call := .returnedNull
  presented := none
  lost := false
  past := []

def Server.attempts (s : Server) : List Attempt :=
  ⟨s.presented, s.lost, s.call.succeeded⟩ :: s.past

/-- A new family has an id of its own and begins after the epoch. -/
def Regular (s : Server) : Action → Prop
  | .make _ | .resume _ => True
  | .issue _ familyId _ env => 0 < env.now ∧ ∀ r ∈ s.shared.tokens, r.familyId ≠ familyId

/-! ## What must hold -/

def firstIssuedAt (tokens : List TokenRow) (familyId : String) : Option ℕ :=
  (tokens.find? (·.familyId = familyId)).map (·.createdAt)

/-- The checks of `verifyRefreshToken` on the row of a token. -/
def isUsable (sh : Shared) (now : ℕ) (row : TokenRow) : Bool :=
  !(row.expiresAt < now) && !row.revoked && row.usedAt.isNone &&
    !(sh.revocations.any fun r ↦ row.jti = some r.jti)

/-- A call that presents a used token does not succeed; and once such a call has `Ended` its family,
no later call succeeds in the family. -/
def Final (Ended : Attempt → Prop) (attempts : List Attempt) : Prop :=
  (∀ a ∈ attempts, ∀ f ∈ a.presented, a.succeeded ≠ some f) ∧
    attempts.Pairwise fun later earlier ↦
      Ended earlier → ∀ f ∈ earlier.presented, later.succeeded ≠ some f

/-- No statement of the call failed before the family was revoked. -/
def Kept (a : Attempt) : Prop := a.lost = false

/-- The tokens that were not there before expire in time, at most one token of a family is usable,
and no rotation of a family succeeds after a used token of the family was presented. -/
structure FamiliesEnd (cfg : Config) (before : List ℕ) (Ended : Attempt → Prop) (s : Server) :
    Prop where
  deadline : ∀ r ∈ s.shared.tokens, r.id ∉ before →
    ∀ t ∈ firstIssuedAt s.shared.tokens r.familyId, r.expiresAt ≤ t + cfg.absoluteTtlMs
  one : ∀ now, ∀ r ∈ s.shared.tokens, ∀ r' ∈ s.shared.tokens, r.familyId = r'.familyId →
    isUsable s.shared now r = true → isUsable s.shared now r' = true → r = r'
  final : Final Ended s.attempts

/-- The family began after the epoch, and no later than its first row was written. -/
def Anchored (tokens : List TokenRow) (row : TokenRow) : Prop :=
  0 < familyStartOf row ∧ ∃ t ∈ firstIssuedAt tokens row.familyId, familyStartOf row ≤ t

/-- At most one token of a family is unused. -/
def Single (tokens : List TokenRow) : Prop :=
  ∀ r ∈ tokens, ∀ r' ∈ tokens, r.familyId = r'.familyId → r.usedAt = none → r'.usedAt = none →
    r.id = r'.id

structure InOrder (tokens : List TokenRow) : Prop where
  ids : (tokens.map (·.id)).Nodup
  anchored : ∀ r ∈ tokens, Anchored tokens r
  single : Single tokens

/-! ## Tables of an earlier version -/

def minCreatedAt (tokens : List TokenRow) (familyId : String) : Option ℕ :=
  ((tokens.filter (·.familyId = familyId)).map (·.createdAt)).min?

/-- What the `UPDATE` of migration 042 makes of a row. -/
def filled (tokens : List TokenRow) (r : TokenRow) : TokenRow :=
  { r with
    familyStartedAt :=
      if r.familyStartedAt = none then minCreatedAt tokens r.familyId else r.familyStartedAt }

/-- The `UPDATE` of migration 042. -/
def backfill (tokens : List TokenRow) : List TokenRow := tokens.map (filled tokens)

theorem minCreatedAt_le {tokens : List TokenRow} {r : TokenRow} (hr : r ∈ tokens) :
    ∃ t ∈ minCreatedAt tokens r.familyId, t ≤ r.createdAt := by
  have hmem : r.createdAt ∈ (tokens.filter (·.familyId = r.familyId)).map (·.createdAt) :=
    List.mem_map_of_mem (List.mem_filter.mpr ⟨hr, decide_eq_true rfl⟩)
  cases hmin : minCreatedAt tokens r.familyId with
  | none => cases List.min?_eq_none_iff.mp hmin ▸ hmem
  | some t => exact ⟨t, rfl, (List.min?_eq_some_iff.mp hmin).2 _ hmem⟩

theorem minCreatedAt_pos {tokens : List TokenRow} (hpos : ∀ r ∈ tokens, 0 < r.createdAt)
    {familyId : String} {t : ℕ} (ht : t ∈ minCreatedAt tokens familyId) : 0 < t := by
  obtain ⟨r, hr, rfl⟩ := List.mem_map.mp (List.min?_eq_some_iff.mp ht).1
  exact hpos r (List.mem_filter.mp hr).1

/-! ## Rows that are rewritten -/

/-- The rows are rewritten as by `markUsed` and `revokeFamily`. -/
structure Keeps (f : TokenRow → TokenRow) : Prop extends Rewrites f where
  createdAt : ∀ r, (f r).createdAt = r.createdAt
  familyStart : ∀ r, familyStartOf (f r) = familyStartOf r
  expiresAt : ∀ r, (f r).expiresAt = r.expiresAt

section Keeps

variable {cfg : Config} {tokens : List TokenRow} {f : TokenRow → TokenRow}

theorem keeps_markUsed (id now : ℕ) :
    Keeps fun r ↦ if r.id = id then { r with usedAt := some now } else r where
  toRewrites := rewrites_markUsed id now
  createdAt r := by split_ifs <;> rfl
  familyStart r := by split_ifs <;> rfl
  expiresAt r := by split_ifs <;> rfl

theorem keeps_revokeFamily (familyId : String) (reason : Option String) (now : ℕ) :
    Keeps fun r ↦
      if r.familyId = familyId then
        { r with revoked := true, revokedAt := some now, revokeReason := orNull reason }
      else r where
  toRewrites := rewrites_revokeFamily familyId reason now
  createdAt r := by split_ifs <;> rfl
  familyStart r := by split_ifs <;> rfl
  expiresAt r := by split_ifs <;> rfl

theorem firstIssuedAt_map (hfamily : ∀ r, (f r).familyId = r.familyId)
    (hcreated : ∀ r, (f r).createdAt = r.createdAt) (familyId : String) :
    firstIssuedAt (tokens.map f) familyId = firstIssuedAt tokens familyId := by
  have hp : (fun r ↦ decide (r.familyId = familyId)) ∘ f =
      fun r ↦ decide (r.familyId = familyId) := funext fun r ↦ by simp [hfamily]
  rw [firstIssuedAt, firstIssuedAt, List.find?_map, Option.map_map, hp]
  exact congrArg (Option.map · _) (funext hcreated)

theorem Keeps.firstIssuedAt (hf : Keeps f) (familyId : String) :
    firstIssuedAt (tokens.map f) familyId = firstIssuedAt tokens familyId :=
  firstIssuedAt_map hf.familyId hf.createdAt familyId

theorem Keeps.anchored_of (hf : Keeps f) {r : TokenRow} (h : Anchored tokens r) :
    Anchored (tokens.map f) r := by
  rw [Anchored, hf.firstIssuedAt]
  exact h

theorem Keeps.anchored (hf : Keeps f) {r : TokenRow} (h : Anchored tokens r) :
    Anchored (tokens.map f) (f r) := by
  rw [Anchored, hf.familyStart, hf.familyId]
  exact hf.anchored_of h

theorem Keeps.single (hf : Keeps f) (h : Single tokens) : Single (tokens.map f) := by
  intro _ hr _ hr' hfamily hunused hunused'
  obtain ⟨r, hmem, rfl⟩ := List.mem_map.mp hr
  obtain ⟨r', hmem', rfl⟩ := List.mem_map.mp hr'
  rw [hf.familyId, hf.familyId] at hfamily
  rw [hf.id, hf.id]
  exact h r hmem r' hmem' hfamily (hf.usedAt r hunused) (hf.usedAt r' hunused')

end Keeps

theorem firstIssuedAt_append {tokens : List TokenRow} {familyId : String} {t : ℕ}
    (h : firstIssuedAt tokens familyId = some t) (row : TokenRow) :
    firstIssuedAt (tokens ++ [row]) familyId = some t := by
  obtain ⟨r, hr, rfl⟩ := Option.map_eq_some_iff.mp h
  rw [firstIssuedAt, List.find?_append, hr]
  rfl

theorem exists_firstIssuedAt {tokens : List TokenRow} {r : TokenRow} (hr : r ∈ tokens) :
    ∃ first ∈ tokens, first.familyId = r.familyId ∧
      firstIssuedAt tokens r.familyId = some first.createdAt := by
  cases hfind : tokens.find? (·.familyId = r.familyId) with
  | none => exact absurd (decide_eq_true rfl) (List.find?_eq_none.mp hfind r hr)
  | some first =>
    have hfamily : first.familyId = r.familyId := by
      simpa using List.find?_some hfind
    refine ⟨first, List.mem_of_find?_eq_some hfind, hfamily, ?_⟩
    rw [firstIssuedAt, hfind]
    rfl

theorem firstIssuedAt_append_new {tokens : List TokenRow} (row : TokenRow)
    (hnew : ∀ r ∈ tokens, r.familyId ≠ row.familyId) :
    firstIssuedAt (tokens ++ [row]) row.familyId = some row.createdAt := by
  have hnone : tokens.find? (·.familyId = row.familyId) = none := by
    simpa [List.find?_eq_none] using hnew
  rw [firstIssuedAt, List.find?_append, hnone]
  simp

theorem Anchored.append {tokens : List TokenRow} {r : TokenRow} (h : Anchored tokens r)
    (row : TokenRow) : Anchored (tokens ++ [row]) r := by
  obtain ⟨hpos, t, ht, hle⟩ := h
  exact ⟨hpos, t, firstIssuedAt_append ht row, hle⟩

/-- Tables whose rows have no start are in order once the migration has filled it in. -/
theorem inOrder_backfill {tokens : List TokenRow} (hids : (tokens.map (·.id)).Nodup)
    (hlegacy : ∀ r ∈ tokens, r.familyStartedAt = none) (hpos : ∀ r ∈ tokens, 0 < r.createdAt)
    (hsingle : Single tokens) : InOrder (backfill tokens) := by
  constructor
  case ids =>
    rw [backfill, List.map_map]
    exact hids
  case anchored =>
    intro _ hr
    obtain ⟨r, hmem, rfl⟩ := List.mem_map.mp hr
    obtain ⟨first, hfirst, hfamily, hissued⟩ := exists_firstIssuedAt hmem
    obtain ⟨t, ht, hle⟩ := minCreatedAt_le hfirst
    rw [hfamily, Option.mem_def] at ht
    have hpos : 0 < t := minCreatedAt_pos hpos ht
    have hstart : familyStartOf (filled tokens r) = t := by
      simp [familyStartOf, filled, hlegacy r hmem, ht, hpos.ne', Option.filter]
    refine ⟨hstart ▸ hpos, first.createdAt, ?_, hstart ▸ hle⟩
    exact (firstIssuedAt_map (f := filled tokens) (fun _ ↦ rfl) (fun _ ↦ rfl) _).trans hissued
  case single =>
    intro _ hr _ hr' hfamily hunused hunused'
    obtain ⟨r, hmem, rfl⟩ := List.mem_map.mp hr
    obtain ⟨r', hmem', rfl⟩ := List.mem_map.mp hr'
    exact hsingle r hmem r' hmem' hfamily hunused hunused'

/-! ## What a step does -/

/-- The row that a call has read and found unused and unrevoked. -/
def Call.held : Call → Option TokenRow
  | .lookup row _ | .insertRotated row _ _ | .markUsed row _ _ => some row
  | _ => none

/-- The row that a call has marked as used and is about to replace. -/
def Call.spent : Call → Option TokenRow
  | .issue row _ | .insertSuccessor row _ _ _ _ => some row
  | _ => none

/-- What a step does to the tokens, with the row it is about. -/
inductive Turn (cfg : Config) (sh : Shared) (c : Call) (env : Env) : Shared → Call → Prop where
  /-- The tokens do not change, and the call holds no row afterwards. -/
  | rest (sh' : Shared) (c' : Call) (tokens : sh'.tokens = sh.tokens) (held : c'.held = none)
      (spent : c'.spent = none) (succeeded : c'.succeeded = none ∨ c' = c) :
      Turn cfg sh c env sh' c'
  | hold (sh' : Shared) (c' : Call) (row : TokenRow) (tokens : sh'.tokens = sh.tokens)
      (held : c'.held = some row) (spent : c'.spent = none) (succeeded : c'.succeeded = none)
      (known : c.held = some row ∨
        row ∈ sh.tokens ∧ row.usedAt = none ∧ row.revoked = false) : Turn cfg sh c env sh' c'
  | mark (row : TokenRow) (deviceId : Option String) (now : ℕ) (held : c.held = some row) :
      Turn cfg sh c env (sh.markUsed row.id now) (.issue row deviceId)
  | prepare (row : TokenRow) (deviceId : Option String) (raw jti : String) (now : ℕ)
      (spent : c.spent = some row) :
      Turn cfg sh c env sh (.insertSuccessor row deviceId raw jti now)
  | exchange (row : TokenRow) (deviceId : Option String) (raw jti : String) (now : ℕ)
      (spent : c.spent = some row) :
      Turn cfg sh c env
        ({ sh with tokens := sh.tokens ++ [successorOf cfg row deviceId raw jti now sh.nextId] }.log
          (.exchanged row.id row.familyId))
        (.exchanged raw row)
  | revoke (rev : Revocation) (call : c = .revokeUpdate rev) :
      Turn cfg sh c env
        ((sh.revokeFamily rev.familyId rev.reason rev.now).log (.revoked rev.familyId))
        (.collect rev)

section Inversion

variable {cfg : Config} {sh : Shared} {c : Call} {env : Env}

theorem nextRevocation_held (rev : Revocation) (pending : List RevocationRow) :
    (nextRevocation rev pending).held = none := by
  cases pending with
  | nil => cases h : rev.caller <;> simp [nextRevocation, afterRevocation, h, Call.held]
  | cons first rest => rfl

theorem nextRevocation_spent (rev : Revocation) (pending : List RevocationRow) :
    (nextRevocation rev pending).spent = none := by
  cases pending with
  | nil => cases h : rev.caller <;> simp [nextRevocation, afterRevocation, h, Call.spent]
  | cons first rest => rfl

theorem nextRevocation_succeeded (rev : Revocation) (pending : List RevocationRow) :
    (nextRevocation rev pending).succeeded = none := by
  cases pending with
  | nil => cases h : rev.caller <;> simp [nextRevocation, afterRevocation, h, Call.succeeded]
  | cons first rest => rfl

theorem turn_afterLookup {row : TokenRow} (deviceId : Option String) (now : ℕ)
    (hknown : c.held = some row ∨ row ∈ sh.tokens ∧ row.usedAt = none ∧ row.revoked = false) :
    Turn cfg sh c env sh (afterLookup cfg row deviceId now) := by
  rw [afterLookup]
  split_ifs
  · exact .rest _ _ rfl rfl rfl (.inl rfl)
  · exact .rest _ _ rfl rfl rfl (.inl rfl)
  · split
    · exact .hold _ _ row rfl rfl rfl rfl hknown
    · exact .hold _ _ row rfl rfl rfl rfl hknown

theorem turn_afterSelect {row : TokenRow} (deviceId : Option String) (now : ℕ)
    (hmem : row ∈ sh.tokens) :
    Turn cfg sh c env (afterSelect cfg sh row deviceId now).1
      (afterSelect cfg sh row deviceId now).2 := by
  rw [afterSelect]
  split
  · exact .rest _ _ rfl rfl rfl (.inl rfl)
  · next hunused =>
    split_ifs with hrevoked
    · exact .rest _ _ rfl rfl rfl (.inl rfl)
    · have hknown : row ∈ sh.tokens ∧ row.usedAt = none ∧ row.revoked = false :=
        ⟨hmem, hunused, Bool.eq_false_iff.mpr hrevoked⟩
      split
      · exact .hold _ _ row rfl rfl rfl rfl (.inr hknown)
      · exact turn_afterLookup deviceId now (.inr hknown)

/-- **The inversion of a step**, with the row that the call is about. -/
theorem turn_resume (cfg : Config) (sh : Shared) (c : Call) (env : Env) :
    Turn cfg sh c env (resume cfg sh c env).1 (resume cfg sh c env).2 := by
  obtain ⟨now, dbError, raw, jti⟩ := env
  cases dbError with
  | some e =>
    cases c with
    | waiting r => cases r <;> exact .rest _ _ rfl rfl rfl (.inl rfl)
    | exchanged => exact .rest _ _ rfl rfl rfl (.inr rfl)
    | _ => exact .rest _ _ rfl rfl rfl (.inl rfl)
  | none =>
    cases c with
    | waiting r => cases r <;> exact .rest _ _ rfl rfl rfl (.inl rfl)
    | select hash deviceId =>
      simp only [resume]
      split
      · exact .rest _ _ rfl rfl rfl (.inl rfl)
      · next row hfind => exact turn_afterSelect deviceId now (List.mem_of_find?_eq_some hfind)
    | lookup row deviceId =>
      simp only [resume]
      split_ifs
      · exact .rest _ _ rfl rfl rfl (.inl rfl)
      · exact turn_afterLookup deviceId now (.inl rfl)
    | insertRotated row deviceId now =>
      exact .hold _ _ row (insertRevocation_tokens _) rfl rfl rfl (.inl rfl)
    | markUsed row deviceId now => exact .mark row deviceId now rfl
    | issue row deviceId => exact .prepare row deviceId raw jti now rfl
    | insertSuccessor row deviceId raw jti now =>
      simp only [resume]
      split_ifs
      · exact .rest _ _ rfl rfl rfl (.inl rfl)
      · exact .exchange row deviceId raw jti now rfl
    | revokeUpdate rev => exact .revoke rev rfl
    | collect rev =>
      exact .rest _ _ rfl (nextRevocation_held _ _) (nextRevocation_spent _ _)
        (.inl (nextRevocation_succeeded _ _))
    | insertRevocations rev first rest =>
      exact .rest _ _ (insertRevocation_tokens _) (nextRevocation_held _ _)
        (nextRevocation_spent _ _) (.inl (nextRevocation_succeeded _ _))
    | audit => exact .rest _ _ rfl rfl rfl (.inl rfl)
    | exchanged | revoked | returnedNull | threw => exact .rest _ _ rfl rfl rfl (.inr rfl)

end Inversion

/-! ## The invariant -/

def NoneUnused (tokens : List TokenRow) (familyId : String) : Prop :=
  ∀ r ∈ tokens, r.familyId = familyId → r.usedAt ≠ none

def Open (tokens : List TokenRow) (familyId : String) : Prop :=
  ∃ r ∈ tokens, r.familyId = familyId ∧ r.revoked = false

/-- The rows expire in time, those that were there before aside. -/
def Deadline (cfg : Config) (before : List ℕ) (tokens : List TokenRow) : Prop :=
  ∀ r ∈ tokens, r.id ∉ before →
    ∀ t ∈ firstIssuedAt tokens r.familyId, r.expiresAt ≤ t + cfg.absoluteTtlMs

/-- The call of a used token, on its way to the revocation of the family, or the family revoked. -/
def Ending (cfg : Config) (tokens : List TokenRow) (f : String) (c : Call) : Prop :=
  Revoked tokens f ∨
    match c with
    | .waiting (.rotate raw _) => usedFamily tokens (cfg.sha256 raw) = some f
    | .select hash _ => usedFamily tokens hash = some f
    | .revokeUpdate rev => rev.familyId = f
    | _ => False

def Issued (tokens : List TokenRow) (f : String) : Prop := ∃ r ∈ tokens, r.familyId = f

structure Server.Sound (cfg : Config) (before : List ℕ) (s : Server) : Prop where
  inOrder : InOrder s.shared.tokens
  deadline : Deadline cfg before s.shared.tokens
  held : ∀ row ∈ s.call.held,
    row ∈ s.shared.tokens ∧ row.usedAt = none ∧ row.revoked = false
  spent : ∀ row ∈ s.call.spent, Anchored s.shared.tokens row ∧
    NoneUnused s.shared.tokens row.familyId ∧ Open s.shared.tokens row.familyId
  issued : ∀ a ∈ s.attempts, ∀ f ∈ a.presented, Issued s.shared.tokens f
  ending : s.lost = false → ∀ f ∈ s.presented, Ending cfg s.shared.tokens f s.call
  stopped : s.lost = true → ∃ e, s.call = .threw e
  ended : ∀ a ∈ s.past, Kept a → ∀ f ∈ a.presented, Revoked s.shared.tokens f
  final : Final Kept s.attempts

theorem Revoked.concat {tokens : List TokenRow} {f : String} (h : Revoked tokens f)
    {row : TokenRow} (hne : row.familyId ≠ f) : Revoked (tokens ++ [row]) f := by
  intro r hr hfamily
  rcases List.mem_append.mp hr with hr | hr
  · exact h r hr hfamily
  · obtain rfl := List.mem_singleton.mp hr
    exact absurd hfamily hne

theorem Keeps.issued {tokens : List TokenRow} {f : TokenRow → TokenRow} (hf : Keeps f)
    {familyId : String} (h : Issued tokens familyId) : Issued (tokens.map f) familyId := by
  obtain ⟨r, hr, hfamily⟩ := h
  exact ⟨f r, List.mem_map_of_mem hr, (hf.familyId r).trans hfamily⟩

theorem Open.not_revoked {tokens : List TokenRow} {f : String} (h : Open tokens f) :
    ¬Revoked tokens f := by
  obtain ⟨r, hr, hfamily, hopen⟩ := h
  intro hrevoked
  cases hopen.symm.trans (hrevoked r hr hfamily)

section Turns

variable {cfg : Config} {sh sh' : Shared} {c c' : Call} {env : Env} {f : String}

theorem Turn.issued (hturn : Turn cfg sh c env sh' c') (h : Issued sh.tokens f) :
    Issued sh'.tokens f := by
  cases hturn with
  | rest _ _ htokens => rwa [htokens]
  | hold _ _ _ htokens => rwa [htokens]
  | mark row _ now => exact (keeps_markUsed row.id now).issued h
  | prepare => exact h
  | exchange =>
    obtain ⟨r, hr, hfamily⟩ := h
    exact ⟨r, List.mem_append_left _ hr, hfamily⟩
  | revoke rev => exact (keeps_revokeFamily rev.familyId rev.reason rev.now).issued h

/-- A family stays revoked: a successor is inserted only where a token is unrevoked. -/
theorem Turn.revoked (hturn : Turn cfg sh c env sh' c')
    (hopen : ∀ row ∈ c.spent, Open sh.tokens row.familyId) (h : Revoked sh.tokens f) :
    Revoked sh'.tokens f := by
  cases hturn with
  | rest _ _ htokens => rwa [htokens]
  | hold _ _ _ htokens => rwa [htokens]
  | mark row _ now => exact (keeps_markUsed row.id now).revoked_map h
  | prepare => exact h
  | exchange row _ _ _ _ hspent =>
    refine h.concat fun hfamily ↦ ?_
    exact (hopen row hspent).not_revoked (hfamily ▸ h)
  | revoke rev => exact (keeps_revokeFamily rev.familyId rev.reason rev.now).revoked_map h

/-- **A used token ends its family**: unless a statement fails, the call that presents it finds the
row, and goes on to revoke the family. -/
theorem Ending.resume (h : Ending cfg sh.tokens f c)
    (hopen : ∀ row ∈ c.spent, Open sh.tokens row.familyId)
    (hkept : (c.isBeforeRevocation && env.dbError.isSome) = false) :
    Ending cfg (resume cfg sh c env).1.tokens f (resume cfg sh c env).2 := by
  rcases h with hrevoked | hending
  · exact .inl ((turn_resume cfg sh c env).revoked hopen hrevoked)
  obtain ⟨now, dbError, raw, jti⟩ := env
  cases c with
  | waiting r =>
    cases r with
    | revoke => exact hending.elim
    | rotate =>
      cases dbError with
      | some e => cases hkept
      | none => exact .inr hending
  | select hash deviceId =>
    cases dbError with
    | some e => cases hkept
    | none =>
      obtain ⟨row, hrow, hused⟩ := Option.bind_eq_some_iff.mp hending
      cases husedAt : row.usedAt with
      | none =>
        rw [if_pos husedAt] at hused
        cases hused
      | some u =>
        rw [if_neg (by rw [husedAt]; exact Option.some_ne_none u)] at hused
        simp only [RefreshTokens.resume, hrow, afterSelect, husedAt]
        exact .inr (Option.some.inj hused)
  | revokeUpdate rev =>
    cases dbError with
    | some e => cases hkept
    | none =>
      obtain rfl : rev.familyId = f := hending
      exact .inl (revoked_revokeFamily _ _ _ _)
  | _ => exact hending.elim

theorem resume_of_lost (hlost : (c.isBeforeRevocation && env.dbError.isSome) = true) :
    ∃ e, (resume cfg sh c env).2 = .threw e := by
  obtain ⟨now, dbError, raw, jti⟩ := env
  obtain ⟨hbefore, herror⟩ := Bool.and_eq_true_iff.mp hlost
  obtain ⟨e, rfl⟩ := Option.isSome_iff_exists.mp herror
  refine ⟨e, ?_⟩
  cases c with
  | waiting r =>
    cases r with
    | rotate => rfl
    | revoke => cases hbefore
  | select | revokeUpdate => rfl
  | _ => cases hbefore

end Turns

/-! ### What is done to the rows -/

section Rows

variable {cfg : Config} {before : List ℕ} {tokens : List TokenRow}

theorem Keeps.inOrder {f : TokenRow → TokenRow} (hf : Keeps f) (h : InOrder tokens) :
    InOrder (tokens.map f) where
  ids := hf.ids.symm ▸ h.ids
  anchored r hr := by
    obtain ⟨r, hmem, rfl⟩ := List.mem_map.mp hr
    exact hf.anchored (h.anchored r hmem)
  single := hf.single h.single

theorem Keeps.deadline {f : TokenRow → TokenRow} (hf : Keeps f)
    (h : Deadline cfg before tokens) : Deadline cfg before (tokens.map f) := by
  intro _ hr
  obtain ⟨r, hmem, rfl⟩ := List.mem_map.mp hr
  rw [hf.id, hf.familyId, hf.firstIssuedAt, hf.expiresAt]
  exact h r hmem

theorem Single.noneUnused_markUsed (h : Single tokens) {row : TokenRow} (hmem : row ∈ tokens)
    (hunused : row.usedAt = none) (now : ℕ) :
    NoneUnused (tokens.map fun r ↦ if r.id = row.id then { r with usedAt := some now } else r)
      row.familyId := by
  intro _ hr' hfamily hnone
  obtain ⟨r, hr, rfl⟩ := List.mem_map.mp hr'
  split_ifs at hfamily hnone with hid
  exact hid (h r hr row hmem hfamily hnone hunused)

theorem InOrder.append (h : InOrder tokens) {row : TokenRow}
    (hid : ∀ r ∈ tokens, r.id ≠ row.id) (hanchored : Anchored (tokens ++ [row]) row)
    (hunused : NoneUnused tokens row.familyId) : InOrder (tokens ++ [row]) := by
  constructor
  case ids =>
    rw [List.map_append]
    refine h.ids.append (List.nodup_singleton _) fun n hn hn' ↦ ?_
    obtain ⟨r, hr, rfl⟩ := List.mem_map.mp hn
    exact hid r hr (List.mem_singleton.mp hn')
  case anchored =>
    intro r hr
    rcases List.mem_append.mp hr with hr | hr
    · exact (h.anchored r hr).append row
    · exact List.mem_singleton.mp hr ▸ hanchored
  case single =>
    intro r hr r' hr' hfamily hnone hnone'
    rcases List.mem_append.mp hr with hmem | hmem <;>
      rcases List.mem_append.mp hr' with hmem' | hmem'
    · exact h.single r hmem r' hmem' hfamily hnone hnone'
    · obtain rfl := List.mem_singleton.mp hmem'
      exact absurd hnone (hunused r hmem hfamily)
    · obtain rfl := List.mem_singleton.mp hmem
      exact absurd hnone' (hunused r' hmem' hfamily.symm)
    · rw [List.mem_singleton.mp hmem, List.mem_singleton.mp hmem']

theorem Deadline.append (h : Deadline cfg before tokens) {row : TokenRow}
    (hknown : ∀ r ∈ tokens, ∃ t, firstIssuedAt tokens r.familyId = some t)
    (hrow : ∀ t ∈ firstIssuedAt (tokens ++ [row]) row.familyId,
      row.expiresAt ≤ t + cfg.absoluteTtlMs) : Deadline cfg before (tokens ++ [row]) := by
  intro r hr hnew t ht
  rcases List.mem_append.mp hr with hr | hr
  · obtain ⟨t', ht'⟩ := hknown r hr
    obtain rfl := Option.some.inj ((firstIssuedAt_append ht' row).symm.trans ht)
    exact h r hr hnew t' ht'
  · obtain rfl := List.mem_singleton.mp hr
    exact hrow t ht

theorem issuedRow_start (cfg : Config) (familyStart : Option ℕ) (now : ℕ) {begun : ℕ}
    (hbegun : (familyStart.filter (· ≠ 0)).getD now = begun) (hpos : 0 < begun) (apiKeyId : ℕ)
    (familyId : String) (deviceId : Option String) (raw jti : String) (id : ℕ) :
    familyStartOf (issuedRow cfg apiKeyId familyId deviceId familyStart raw jti now id) = begun ∧
      (issuedRow cfg apiKeyId familyId deviceId familyStart raw jti now id).expiresAt ≤
        begun + cfg.absoluteTtlMs := by
  constructor
  · simp only [familyStartOf, issuedRow, hbegun]
    simp [Option.filter, hpos.ne']
  · simp only [issuedRow, hbegun]
    exact min_le_right _ _

theorem successorOf_start (cfg : Config) {row : TokenRow} (hpos : 0 < familyStartOf row)
    (deviceId : Option String) (raw jti : String) (now id : ℕ) :
    familyStartOf (successorOf cfg row deviceId raw jti now id) = familyStartOf row ∧
      (successorOf cfg row deviceId raw jti now id).expiresAt ≤
        familyStartOf row + cfg.absoluteTtlMs :=
  issuedRow_start cfg _ now (by simp [Option.filter, hpos.ne']) hpos _ _ _ _ _ _

end Rows

/-! ### The steps -/

section Steps

variable {cfg : Config} {before : List ℕ} {s : Server}

theorem InOrder.exists_firstIssuedAt {tokens : List TokenRow} (h : InOrder tokens) {r : TokenRow}
    (hr : r ∈ tokens) : ∃ t, firstIssuedAt tokens r.familyId = some t := by
  obtain ⟨-, t, ht, -⟩ := h.anchored r hr
  exact ⟨t, ht⟩

theorem Server.sound_start {tokens : List TokenRow} (h : InOrder tokens)
    (revocations : List RevocationRow) :
    (Server.start tokens revocations).Sound cfg (tokens.map (·.id)) := by
  constructor
  case inOrder => exact h
  case deadline => exact fun r hr hnew ↦ absurd (List.mem_map_of_mem hr) hnew
  case held | spent => exact fun row hrow ↦ absurd hrow (Option.not_mem_none row)
  case issued =>
    intro a ha f hf
    rw [List.mem_singleton.mp ha] at hf
    exact absurd hf (Option.not_mem_none f)
  case ending => exact fun _ f hf ↦ absurd hf (Option.not_mem_none f)
  case stopped => exact nofun
  case ended => exact fun a ha ↦ absurd ha List.not_mem_nil
  case final =>
    refine ⟨fun a ha f hf ↦ ?_, List.pairwise_singleton _ _⟩
    rw [List.mem_singleton.mp ha] at hf
    exact absurd hf (Option.not_mem_none f)

theorem Final.cons {Ended : Attempt → Prop} {attempts : List Attempt} (h : Final Ended attempts)
    {a : Attempt} (ha : a.succeeded = none) : Final Ended (a :: attempts) := by
  refine ⟨fun a' ha' f hf ↦ ?_, List.pairwise_cons.mpr ⟨fun earlier _ _ f _ ↦ ?_, h.2⟩⟩
  · rcases List.mem_cons.mp ha' with rfl | ha'
    · rw [ha]
      exact nofun
    · exact h.1 a' ha' f hf
  · rw [ha]
    exact nofun

theorem issued_of_presentedBy {cfg : Config} {tokens : List TokenRow} {r : Request} {f : String}
    (h : presentedBy cfg tokens r = some f) : Issued tokens f := by
  cases r with
  | revoke => cases h
  | rotate raw deviceId =>
    obtain ⟨row, hrow, hused⟩ := Option.bind_eq_some_iff.mp h
    split_ifs at hused
    exact ⟨row, List.mem_of_find?_eq_some hrow, Option.some.inj hused⟩

theorem Server.Sound.ended_of_isOver (hs : s.Sound cfg before) (hover : s.call.isOver = true)
    (hkept : s.lost = false) {f : String} (hf : f ∈ s.presented) : Revoked s.shared.tokens f := by
  rcases hs.ending hkept f hf with hrevoked | hending
  · exact hrevoked
  · cases hcall : s.call <;> rw [hcall] at hover hending <;>
      first | exact hending.elim | cases hover

theorem Server.Sound.make (hs : s.Sound cfg before) (r : Request) :
    (act cfg s (.make r)).Sound cfg before := by
  rw [act]
  split_ifs with hover
  swap
  · exact hs
  constructor
  case inOrder => exact hs.inOrder
  case deadline => exact hs.deadline
  case held | spent => exact fun row hrow ↦ absurd hrow (Option.not_mem_none row)
  case issued =>
    intro a ha f hf
    rcases List.mem_cons.mp ha with rfl | ha
    · exact issued_of_presentedBy hf
    · exact hs.issued a ha f hf
  case ending =>
    intro _ f hf
    cases r with
    | rotate => exact .inr hf
    | revoke => cases hf
  case stopped => exact nofun
  case ended =>
    intro a ha hkept f hf
    rcases List.mem_cons.mp ha with rfl | ha
    · exact hs.ended_of_isOver hover hkept hf
    · exact hs.ended a ha hkept f hf
  case final => exact hs.final.cons rfl

theorem Server.Sound.issue (hs : s.Sound cfg before) {apiKeyId : ℕ} {familyId : String}
    {deviceId : Option String} {env : Env}
    (hregular : Regular s (.issue apiKeyId familyId deviceId env)) :
    (act cfg s (.issue apiKeyId familyId deviceId env)).Sound cfg before := by
  obtain ⟨hnow, hnew⟩ := hregular
  rw [act]
  split_ifs with hover
  swap
  · exact hs
  rw [issueRefreshToken]
  split
  · exact hs
  dsimp only
  split_ifs with hduplicate
  · exact hs
  obtain ⟨hstart, hexpires⟩ := issuedRow_start cfg none env.now rfl hnow apiKeyId familyId
    deviceId env.raw env.jti s.shared.nextId
  have hfirst := firstIssuedAt_append_new (issuedRow cfg apiKeyId familyId deviceId none env.raw
    env.jti env.now s.shared.nextId) hnew
  -- the new family is none of which a used token was presented
  have hother : ∀ f, Issued s.shared.tokens f → familyId ≠ f := by
    rintro f ⟨r, hr, hfamily⟩ heq
    exact hnew r hr (hfamily.trans heq.symm)
  constructor
  case inOrder =>
    refine hs.inOrder.append (fun r hr ↦ (id_lt_nextId hr).ne) ?_ fun r hr hfamily ↦ ?_
    · exact ⟨hstart ▸ hnow, env.now, hfirst, hstart.le⟩
    · exact absurd hfamily (hnew r hr)
  case deadline =>
    refine hs.deadline.append (fun r hr ↦ hs.inOrder.exists_firstIssuedAt hr) fun t ht ↦ ?_
    obtain rfl := Option.some.inj (hfirst.symm.trans ht)
    exact hexpires
  case held | spent =>
    intro row hrow
    cases hcall : s.call <;> simp_all [Call.isOver, Call.held, Call.spent]
  case issued =>
    intro a ha f hf
    obtain ⟨r, hr, hfamily⟩ := hs.issued a ha f hf
    exact ⟨r, List.mem_append_left _ hr, hfamily⟩
  case ending =>
    intro hkept f hf
    have hissued := hs.issued _ List.mem_cons_self f hf
    exact .inl ((hs.ended_of_isOver hover hkept hf).concat (hother f hissued))
  case stopped => exact hs.stopped
  case ended =>
    intro a ha hkept f hf
    have hissued := hs.issued a (List.mem_cons_of_mem _ ha) f hf
    exact (hs.ended a ha hkept f hf).concat (hother f hissued)
  case final => exact hs.final

theorem Server.Sound.rows_resume (hs : s.Sound cfg before) {sh' : Shared} {c' : Call} {env : Env}
    (hturn : Turn cfg s.shared s.call env sh' c') :
    InOrder sh'.tokens ∧ Deadline cfg before sh'.tokens ∧
      (∀ row ∈ c'.held, row ∈ sh'.tokens ∧ row.usedAt = none ∧ row.revoked = false) ∧
      ∀ row ∈ c'.spent, Anchored sh'.tokens row ∧ NoneUnused sh'.tokens row.familyId ∧
        Open sh'.tokens row.familyId := by
  have hnone : ∀ {p : TokenRow → Prop}, ∀ row ∈ (none : Option TokenRow), p row :=
    fun row hrow ↦ absurd hrow (Option.not_mem_none row)
  cases hturn with
  | rest _ _ htokens hheld hspent =>
    rw [htokens, hheld, hspent]
    exact ⟨hs.inOrder, hs.deadline, hnone, hnone⟩
  | hold _ _ row htokens hheld hspent _ hknown =>
    rw [htokens, hheld, hspent]
    refine ⟨hs.inOrder, hs.deadline, ?_, hnone⟩
    rintro _ ⟨⟩
    exact hknown.elim (hs.held row) id
  | mark row deviceId now hheld =>
    have hkeeps := keeps_markUsed row.id now
    obtain ⟨hmem, hunused, hopen⟩ := hs.held row hheld
    refine ⟨hkeeps.inOrder hs.inOrder, hkeeps.deadline hs.deadline, hnone, ?_⟩
    rintro _ ⟨⟩
    refine ⟨hkeeps.anchored_of (hs.inOrder.anchored row hmem),
      hs.inOrder.single.noneUnused_markUsed hmem hunused now, ?_⟩
    refine ⟨_, List.mem_map_of_mem hmem, hkeeps.familyId row, ?_⟩
    rw [if_pos rfl]
    exact hopen
  | prepare row deviceId raw jti now hspent =>
    refine ⟨hs.inOrder, hs.deadline, hnone, ?_⟩
    rintro _ ⟨⟩
    exact hs.spent row hspent
  | exchange row deviceId raw jti now hspent =>
    obtain ⟨⟨hpos, t, ht, hle⟩, hunused, hopen⟩ := hs.spent row hspent
    obtain ⟨hstart, hexpires⟩ := successorOf_start cfg hpos deviceId raw jti now s.shared.nextId
    refine ⟨?_, ?_, hnone, hnone⟩
    · refine hs.inOrder.append (fun r hr ↦ (id_lt_nextId hr).ne) ?_ hunused
      exact ⟨hstart ▸ hpos, t, firstIssuedAt_append ht _, hstart ▸ hle⟩
    · refine hs.deadline.append (fun r hr ↦ hs.inOrder.exists_firstIssuedAt hr) fun t' ht' ↦ ?_
      obtain rfl := Option.some.inj ((firstIssuedAt_append ht _).symm.trans ht')
      exact hexpires.trans (Nat.add_le_add_right hle _)
  | revoke rev hcall =>
    have hkeeps := keeps_revokeFamily rev.familyId rev.reason rev.now
    exact ⟨hkeeps.inOrder hs.inOrder, hkeeps.deadline hs.deadline, hnone, hnone⟩

theorem Server.Sound.final_resume (hs : s.Sound cfg before) {sh' : Shared} {c' : Call} {env : Env}
    (hturn : Turn cfg s.shared s.call env sh' c') (lost : Bool) :
    Final Kept (⟨s.presented, lost, c'.succeeded⟩ :: s.past) := by
  have htail : Final Kept s.past :=
    ⟨fun a ha ↦ hs.final.1 a (List.mem_cons_of_mem _ ha), (List.pairwise_cons.mp hs.final.2).2⟩
  have hunsuccessful : c'.succeeded = none →
      Final Kept (⟨s.presented, lost, c'.succeeded⟩ :: s.past) := fun hnone ↦ htail.cons hnone
  cases hturn with
  | rest _ _ _ _ _ hsucceeded =>
    rcases hsucceeded with hnone | rfl
    · exact hunsuccessful hnone
    · refine ⟨fun a ha f hf ↦ ?_, List.pairwise_cons.mpr
        ⟨(List.pairwise_cons.mp hs.final.2).1, htail.2⟩⟩
      rcases List.mem_cons.mp ha with rfl | ha
      · exact hs.final.1 _ List.mem_cons_self f hf
      · exact htail.1 a ha f hf
  | hold _ _ _ _ _ _ hnone => exact hunsuccessful hnone
  | mark | prepare | revoke => exact hunsuccessful rfl
  | exchange row deviceId raw jti now hspent =>
    obtain ⟨-, -, hopen⟩ := hs.spent row hspent
    have hne : ∀ f, Revoked s.shared.tokens f → some row.familyId ≠ some f := by
      rintro f hrevoked hf
      exact hopen.not_revoked (Option.some.inj hf ▸ hrevoked)
    refine ⟨fun a ha f hf ↦ ?_, List.pairwise_cons.mpr ⟨fun a ha hkept f hf ↦ ?_, htail.2⟩⟩
    · rcases List.mem_cons.mp ha with rfl | ha
      · cases hlost : s.lost with
        | true =>
          obtain ⟨e, hcall⟩ := hs.stopped hlost
          rw [hcall] at hspent
          cases hspent
        | false =>
          rcases hs.ending hlost f hf with hrevoked | hending
          · exact hne f hrevoked
          · -- a call that has marked its token is past the check
            cases hcall : s.call <;> rw [hcall] at hspent hending <;>
              first | exact hending.elim | cases hspent
      · exact htail.1 a ha f hf
    · exact hne f (hs.ended a ha hkept f hf)

theorem Server.Sound.resume (hs : s.Sound cfg before) (env : Env) :
    (act cfg s (.resume env)).Sound cfg before := by
  have hturn := turn_resume cfg s.shared s.call env
  have hopen : ∀ row ∈ s.call.spent, Open s.shared.tokens row.familyId :=
    fun row hrow ↦ (hs.spent row hrow).2.2
  obtain ⟨hinOrder, hdeadline, hheld, hspent⟩ := hs.rows_resume hturn
  constructor
  case inOrder => exact hinOrder
  case deadline => exact hdeadline
  case held => exact hheld
  case spent => exact hspent
  case issued =>
    intro a ha f hf
    rcases List.mem_cons.mp ha with rfl | ha
    · exact hturn.issued (hs.issued _ List.mem_cons_self f hf)
    · exact hturn.issued (hs.issued a (List.mem_cons_of_mem _ ha) f hf)
  case ending =>
    intro hkept f hf
    obtain ⟨hbefore, hnow⟩ := Bool.or_eq_false_iff.mp hkept
    exact (hs.ending hbefore f hf).resume hopen hnow
  case stopped =>
    intro hlost
    rcases Bool.or_eq_true_iff.mp hlost with hbefore | hnow
    · obtain ⟨e, hcall⟩ := hs.stopped hbefore
      refine ⟨e, ?_⟩
      rw [act, hcall]
      dsimp only
      cases env.dbError <;> simp only [RefreshTokens.resume]
    · exact resume_of_lost hnow
  case ended => exact fun a ha hkept f hf ↦ hturn.revoked hopen (hs.ended a ha hkept f hf)
  case final => exact hs.final_resume hturn _

theorem Server.Sound.act (hs : s.Sound cfg before) {a : Action} (hregular : Regular s a) :
    (act cfg s a).Sound cfg before := by
  cases a with
  | make r => exact hs.make r
  | resume env => exact hs.resume env
  | issue => exact hs.issue hregular

theorem Server.Sound.familiesEnd (hs : s.Sound cfg before) : FamiliesEnd cfg before Kept s where
  deadline := hs.deadline
  one now r hr r' hr' hfamily husable husable' := by
    have hunused : ∀ row, isUsable s.shared now row = true → row.usedAt = none := by
      intro row h
      rw [isUsable, Bool.and_eq_true, Bool.and_eq_true] at h
      exact Option.isNone_iff_eq_none.mp h.1.2
    have hid := hs.inOrder.single r hr r' hr' hfamily (hunused r husable) (hunused r' husable')
    exact List.inj_on_of_nodup_map hs.inOrder.ids hr hr' hid
  final := hs.final

/-- **Refresh families end.** In every run of calls made one after another, whatever statements
fail, the tokens of a family expire no later than its absolute lifetime after the first was issued,
at most one of them is usable at a time, and no rotation of the family succeeds once a used token
was presented in a call whose statements up to the revocation did not fail. -/
theorem families_end (cfg : Config) {tokens : List TokenRow} (h : InOrder tokens)
    (revocations : List RevocationRow) (as : List Action)
    (hregular : Along (RefreshTokens.act cfg) Regular (Server.start tokens revocations) as) :
    Always (RefreshTokens.act cfg) (FamiliesEnd cfg (tokens.map (·.id)) Kept)
      (Server.start tokens revocations) as :=
  (hregular.always (fun _ _ hs ↦ hs.act) (Server.sound_start h revocations)).mono
    fun _ hs ↦ hs.familiesEnd

end Steps

section Examples

instance (s : Server) : (a : Action) → Decidable (Regular s a)
  | .make _ | .resume _ => inferInstanceAs (Decidable True)
  | .issue _ familyId _ env =>
    inferInstanceAs (Decidable (0 < env.now ∧ ∀ r ∈ s.shared.tokens, r.familyId ≠ familyId))

/-- A token is exchanged and presented again, after which its successor is presented too; then a new
family is issued. -/
def reusedInOrder : List Action :=
  [.make (.rotate "token-1" none)] ++ List.replicate 7 (.resume (envOf 0)) ++
    [.make (.rotate "token-1" none)] ++ List.replicate 7 (.resume (envOf 1)) ++
    [.make (.rotate "token-2" none)] ++ List.replicate 2 (.resume (envOf 2)) ++
    [.issue 7 "another" none (envOf 2)]

/-- A row of an earlier version, with its start filled in. -/
def legacyTokens : List TokenRow := backfill [{ firstToken with familyStartedAt := none }]

theorem inOrder_legacyTokens : InOrder legacyTokens := by
  refine inOrder_backfill (by decide) ?_ ?_ ?_
  · simp
  · simp [firstToken]
  · simp [Single]

theorem families_end_at :
    Always (act plainConfig) (FamiliesEnd plainConfig (legacyTokens.map (·.id)) Kept)
      (Server.start legacyTokens []) reusedInOrder :=
  families_end plainConfig inOrder_legacyTokens [] reusedInOrder (by decide +kernel)

def failingEnv : Env :=
  ⟨2000, some ⟨.databaseError, some .databaseError, "Database operation failed"⟩, "", ""⟩

/-- A token is exchanged and presented again, but the statement that revokes the family fails; then
the successor is presented. -/
def revocationFails : List Action :=
  [.make (.rotate "token-1" none)] ++ List.replicate 7 (.resume (envOf 0)) ++
    [.make (.rotate "token-1" none)] ++ List.replicate 2 (.resume (envOf 1)) ++
    [.resume failingEnv, .make (.rotate "token-2" none)] ++ List.replicate 7 (.resume (envOf 2))

/-- The family goes on after the reuse when its revocation has failed. -/
theorem family_survives_reuse : InOrder legacyTokens ∧
    ¬Always (act plainConfig)
      (FamiliesEnd plainConfig (legacyTokens.map (·.id)) fun _ ↦ True)
      (Server.start legacyTokens []) revocationFails := by
  refine ⟨inOrder_legacyTokens, fun h ↦ ?_⟩
  obtain ⟨later, earlier, rest, hattempts, hpresented, hsucceeded⟩ :
      ∃ later earlier rest,
        (run (act plainConfig) (Server.start legacyTokens []) revocationFails).attempts
          = later :: earlier :: rest ∧ earlier.presented = some "family" ∧
            later.succeeded = some "family" := ⟨_, _, _, rfl, by decide +kernel, by decide +kernel⟩
  have hfinal := h.last.final.2
  rw [hattempts] at hfinal
  exact (List.pairwise_cons.mp hfinal).1 earlier List.mem_cons_self trivial "family" hpresented
    hsucceeded

end Examples

end StellarDonations.RefreshTokens
