import StellarDonations.Auth.Authentication
import StellarDonations.Auth.KeyTable
import StellarDonations.Concurrency.Interleaving

/-!
# Changes of a key and the cache of its validations

Any number of calls of `validateApiKey`, `revokeApiKey`, `updateApiKey` and
`revokeExpiredDeprecatedKeys`, interleaved at their awaits, on one table and one cache.

`revokeApiKey` removes the cached object of the key. The other two changes do not, an expiry does
not, and a validation that has read the row before a change stores the object of that row after it.
A validation that begins after the change then returns what the change has replaced. Where a change
finds neither a cached object nor a validation in flight, every validation returns a row as it was
at some moment since it began (`validations_coherent`).
-/

namespace StellarDonations.KeyCache

open ApiKeys Concurrency

/-! ## The state -/

/-- The table, the cache, and the clock. -/
structure Shared where
  table : KeyTable
  cache : String → Option CacheEntry
  now : ℤ

/-- The fields of the `updates` of `updateApiKey` that it does not ignore. -/
structure KeyUpdates where
  name : Option String
  role : Option String
  metadata : Option (Option String)
  signingRequired : Option Bool
  allowedIps : Option (Option (List String))
  notificationEmail : Option (Option String)

inductive Request where
  | validate (rawKey : String)
  | revoke (id : ℕ)
  | update (id : ℕ) (updates : KeyUpdates)
  | revokeExpired

inductive Call where
  /-- `initializeApiKeysTable`. -/
  | waiting (request : Request)
  /-- `validateApiKey`: the `SELECT`, `resetQuota`, and the note of the use. -/
  | select (keyHash : String) (now : ℤ)
  | reset (keyHash : String) (now : ℤ) (row : KeyRow)
  | touch (keyHash : String) (now : ℤ) (row : KeyRow)
  | validated (keyHash : String) (result : Option KeyInfo)
  /-- `revokeApiKey`: the `SELECT` of the hash, and the `UPDATE`. -/
  | revokeSelect (id : ℕ)
  | revokeUpdate (id : ℕ) (keyHash : Option String)
  /-- The `UPDATE` of `updateApiKey`. -/
  | update (id : ℕ) (updates : KeyUpdates)
  /-- The `UPDATE` of `revokeExpiredDeprecatedKeys`. -/
  | revokeExpired (now : ℤ)
  | changed (changes : ℕ)
  | failed (e : AppError)

namespace Shared

variable (sh : Shared) (keyHash : String)

/-- The table and the cache as `validateApiKey` sees them. -/
def store : KeyStore := ⟨sh.table.rows.map (·.toKeyRow), sh.cache⟩

/-- `getCachedKey`. -/
def cached : Option KeyInfo := sh.store.getCachedKey keyHash sh.now

/-- `setCachedKey`. -/
def setCached (cfg : KeyConfig) (value : Option KeyInfo) : Shared :=
  { sh with cache := (sh.store.setCachedKey keyHash value (sh.now + cfg.cacheTtlMs)).cache }

/-- `invalidateCachedKey`. -/
def invalidate : Shared := { sh with cache := Function.update sh.cache keyHash none }

def update (p : ManagedRow → Bool) (f : Assignment) : Shared :=
  { sh with table := sh.table.update p f }

end Shared

/-! ## The statements of the changes -/

/-- `fields.length === 0`. -/
def KeyUpdates.isEmpty (u : KeyUpdates) : Bool :=
  u.name.isNone && u.role.isNone && u.metadata.isNone && u.signingRequired.isNone &&
    u.allowedIps.isNone && u.notificationEmail.isNone

def KeyUpdates.assignment (u : KeyUpdates) : Assignment where
  apply r :=
    { r with
      name := u.name.getD r.name
      role := u.role.getD r.role
      metadata := u.metadata.getD r.metadata
      signingRequired := u.signingRequired.getD r.signingRequired
      allowedIps := u.allowedIps.getD r.allowedIps
      notificationEmail := u.notificationEmail.getD r.notificationEmail }
  id_apply _ := rfl
  keyHash_apply _ := rfl

/-- The `WHERE` of `revokeApiKey`. -/
def revocable (id : ℕ) (r : ManagedRow) : Bool := r.id = id && r.status ≠ .revoked

/-- The `UPDATE` of `revokeApiKey`, and the invalidation. -/
def Shared.revoke (sh : Shared) (id : ℕ) (keyHash : Option String) : Shared :=
  let revoked := sh.update (revocable id) (setRevoked sh.now)
  match keyHash with
  | some keyHash =>
    if 0 < sh.table.changes (revocable id) then revoked.invalidate keyHash else revoked
  | none => revoked

/-- The `WHERE` of `revokeExpiredDeprecatedKeys`. -/
def graceOver (now : ℤ) (r : ManagedRow) : Bool :=
  r.status = .deprecated &&
    r.deprecatedAt.any fun deprecatedAt ↦ deprecatedAt + r.gracePeriodDays * 86400000 ≤ now

/-! ## One call -/

def begin' (cfg : KeyConfig) (sh : Shared) : Request → Call
  | .validate rawKey =>
    match sh.cached (cfg.sha256Hex rawKey) with
    | some info => .validated (cfg.sha256Hex rawKey) (some info)
    | none => .select (cfg.sha256Hex rawKey) sh.now
  | .revoke id => .revokeSelect id
  | .update id updates => if updates.isEmpty then .changed 0 else .update id updates
  | .revokeExpired => .revokeExpired sh.now

/-- What a call does next, when its statement succeeds. -/
def runCall (cfg : KeyConfig) (sh : Shared) : Call → Shared × Call
  | .waiting request => (sh, begin' cfg sh request)
  | .select keyHash now =>
    match sh.store.liveRow keyHash now with
    | none => (sh.setCached keyHash cfg none, .validated keyHash none)
    | some row =>
      (sh, if row.quotaDue now then .reset keyHash now row else .touch keyHash now row)
  | .reset keyHash now row =>
    let nextReset := getNextMonthFirstDay sh.now
    (sh.update (·.id = row.id) (setQuotaReset nextReset),
      .touch keyHash now { row with quotaUsed := 0, quotaResetAt := some nextReset })
  | .touch keyHash now row =>
    ((sh.update (·.id = row.id) (setLastUsed now)).setCached keyHash cfg (some (row.info now)),
      .validated keyHash (some (row.info now)))
  | .revokeSelect id => (sh, .revokeUpdate id ((sh.table.byId id).map (·.keyHash)))
  | .revokeUpdate id keyHash =>
    (sh.revoke id keyHash, .changed (sh.table.changes (revocable id)))
  | .update id updates =>
    (sh.update (·.id = id) updates.assignment, .changed (sh.table.changes (·.id = id)))
  | .revokeExpired now =>
    (sh.update (graceOver now) (setRevoked now), .changed (sh.table.changes (graceOver now)))
  | .validated keyHash result => (sh, .validated keyHash result)
  | .changed changes => (sh, .changed changes)
  | .failed e => (sh, .failed e)

def Call.fail (e : AppError) : Call → Call
  | .validated keyHash result => .validated keyHash result
  | .changed changes => .changed changes
  | _ => .failed e

def resume (cfg : KeyConfig) (sh : Shared) (c : Call) : Option AppError → Shared × Call
  | none => runCall cfg sh c
  | some e => (sh, c.fail e)

/-! ## Interleavings -/

inductive Action (ι : Type*) where
  | tick (elapsed : ℕ)
  | resume (i : ι) (fault : Option AppError)

variable {ι : Type*}

def Shared.after (sh : Shared) (elapsed : ℕ) : Shared := { sh with now := sh.now + elapsed }

def step [DecidableEq ι] (cfg : KeyConfig) (s : Calls ι Shared Call) :
    Action ι → Calls ι Shared Call
  | .tick elapsed => ⟨s.shared.after elapsed, s.call⟩
  | .resume i fault => Calls.step (KeyCache.resume cfg) s (i, fault)

def start (table : KeyTable) (now : ℤ) (request : ι → Request) : Calls ι Shared Call :=
  ⟨⟨table, fun _ ↦ none, now⟩, fun i ↦ .waiting (request i)⟩

/-! ## What must hold -/

/-- What decides which requests a key admits. -/
structure Guards where
  revoked : Bool
  expiresAt : Option ℤ
  role : String
  signingRequired : Bool
  allowedIps : Option (List String)
  deriving DecidableEq

namespace Guards

variable (g : Guards) (now : ℤ)

def expired : Bool := g.expiresAt.any (· < now)

def isLive : Bool := !g.revoked && !g.expired now

end Guards

def rowGuards (row : KeyRow) : Guards :=
  ⟨row.status = .revoked, nonzero row.expiresAt, row.role, row.signingRequired, row.allowedIps⟩

def infoGuards (info : KeyInfo) : Guards :=
  ⟨info.status = .revoked, info.expiresAt, info.role, info.signingRequired, info.allowedIps⟩

variable [DecidableEq ι]

/-- At some moment of the run the row of the key had these guards. -/
def Seen (cfg : KeyConfig) (s : Calls ι Shared Call) (as : List (Action ι)) (keyHash : String)
    (g : Guards) : Prop :=
  ∃ pre, pre <+: as ∧ ∃ row ∈ (run (step cfg) s pre).shared.table.rows,
    row.keyHash = keyHash ∧ rowGuards row.toKeyRow = g

/-- The object that the call has returned, if it has returned one, is of a key that was neither
revoked nor expired when the run began, and has the role and the restrictions that its row had at
some moment since. -/
def Coherent (cfg : KeyConfig) (s : Calls ι Shared Call) (i : ι) (as : List (Action ι)) : Prop :=
  ∀ keyHash info, (run (step cfg) s as).call i = .validated keyHash (some info) →
    (infoGuards info).isLive s.shared.now = true ∧ Seen cfg s as keyHash (infoGuards info)

/-- Every validation is coherent from any moment at which it has not begun. -/
def CoherentRun (cfg : KeyConfig) (s : Calls ι Shared Call) (as : List (Action ι)) : Prop :=
  ∀ before after i rawKey, as = before ++ after →
    (run (step cfg) s before).call i = .waiting (.validate rawKey) →
    Coherent cfg (run (step cfg) s before) i after

/-! ## The condition -/

def Shared.guards (sh : Shared) (keyHash : String) : Option Guards :=
  (sh.table.byHash keyHash).map fun row ↦ rowGuards row.toKeyRow

/-- The row that a validation in flight has read. -/
def Call.reading : Call → Option (String × KeyRow)
  | .reset keyHash _ row | .touch keyHash _ row => some (keyHash, row)
  | _ => none

/-- The action revokes the key, or changes its role or a restriction. -/
def Changes (cfg : KeyConfig) (s : Calls ι Shared Call) (a : Action ι) (keyHash : String) : Prop :=
  (step cfg s a).shared.guards keyHash ≠ s.shared.guards keyHash

omit [DecidableEq ι] in
/-- The action is the `UPDATE` of `revokeApiKey`, which is followed by the invalidation. -/
def Invalidates (s : Calls ι Shared Call) (a : Action ι) : Prop :=
  ∃ i id keyHash, a = .resume i none ∧ s.call i = .revokeUpdate id keyHash

/-- The expiry time of a key does not pass while it is cached, or while a validation that has read
its row is in flight. -/
def Timely (s : Calls ι Shared Call) : Action ι → Prop
  | .tick elapsed => ∀ keyHash info, (s.shared.after elapsed).cached keyHash = some info →
      (infoGuards info).expired (s.shared.now + elapsed) = false
  | .resume i none => ∀ keyHash now row, s.call i = .touch keyHash now row →
      (rowGuards row).expired s.shared.now = false
  | .resume _ (some _) => True

/-- A key changes only while no validation in flight has read its row, and, unless the change is
followed by an invalidation, while it is not cached. -/
structure Unobserved (cfg : KeyConfig) (s : Calls ι Shared Call) (a : Action ι) : Prop where
  timely : Timely s a
  unread : ∀ keyHash, Changes cfg s a keyHash → ∀ i row, (s.call i).reading ≠ some (keyHash, row)
  uncached : ∀ keyHash, Changes cfg s a keyHash →
    s.shared.cached keyHash = none ∨ Invalidates s a

/-! ## What the statements change -/

section Statements

variable {cfg : KeyConfig} {sh : Shared} {keyHash k : String} {info : KeyInfo} {now : ℤ}

theorem isLive_rowGuards (row : KeyRow) (now : ℤ) :
    (rowGuards row).isLive now = row.isLive now := by
  rw [Guards.isLive, Guards.expired, rowGuards, KeyRow.isLive, ← decide_not]

theorem guards_update (sh : Shared) (p : ManagedRow → Bool) (f : Assignment) (k : String) :
    (sh.update p f).guards k =
      (sh.table.byHash k).map fun row ↦ rowGuards (f.on p row).toKeyRow := by
  rw [Shared.guards, Shared.update, KeyTable.byHash_update, Option.map_map]
  rfl

def Harmless (f : Assignment) : Prop := ∀ r, rowGuards (f.apply r).toKeyRow = rowGuards r.toKeyRow

theorem Harmless.guards_update {f : Assignment} (hf : Harmless f) (sh : Shared)
    (p : ManagedRow → Bool) (k : String) : (sh.update p f).guards k = sh.guards k := by
  rw [KeyCache.guards_update, Shared.guards]
  congr 1
  funext row
  rw [Assignment.on]
  split_ifs
  · exact hf row
  · rfl

theorem harmless_setQuotaReset (nextReset : ℤ) : Harmless (setQuotaReset nextReset) := fun _ ↦ rfl

theorem harmless_setLastUsed (now : ℤ) : Harmless (setLastUsed now) := fun _ ↦ rfl

theorem exists_of_liveRow {row : KeyRow} (h : sh.store.liveRow k now = some row) :
    row.isLive now = true ∧ ∃ r, sh.table.byHash k = some r ∧ r.toKeyRow = row := by
  rw [KeyStore.liveRow, Option.filter_eq_some_iff] at h
  obtain ⟨hfound, hlive⟩ := h
  rw [Shared.store, List.find?_map, Option.map_eq_some_iff] at hfound
  exact ⟨hlive, hfound⟩

theorem cached_setCached {v : Option KeyInfo}
    (h : (sh.setCached keyHash cfg v).cached k = some info) :
    sh.cached k = some info ∨ k = keyHash ∧ v = some info := by
  by_cases hk : k = keyHash
  · subst hk
    refine .inr ⟨rfl, ?_⟩
    obtain ⟨entry, hentry, hvalue⟩ := Option.bind_eq_some_iff.mp h
    rw [Shared.setCached, KeyStore.setCachedKey] at hentry
    dsimp only [Shared.store] at hentry
    rw [Function.update_self, Option.some_inj] at hentry
    subst hentry
    split_ifs at hvalue
    exact hvalue
  · refine .inl ?_
    rw [Shared.cached, KeyStore.getCachedKey, Shared.setCached, KeyStore.setCachedKey] at h
    dsimp only [Shared.store] at h
    rwa [Function.update_of_ne hk] at h

theorem cached_invalidate (h : (sh.invalidate keyHash).cached k = some info) :
    sh.cached k = some info ∧ k ≠ keyHash := by
  rw [Shared.cached, KeyStore.getCachedKey, Shared.invalidate] at h
  dsimp only [Shared.store] at h
  by_cases hk : k = keyHash
  · subst hk
    rw [Function.update_self] at h
    cases h
  · rw [Function.update_of_ne hk] at h
    exact ⟨h, hk⟩

theorem cached_of_after {elapsed : ℕ} (h : (sh.after elapsed).cached k = some info) :
    sh.cached k = some info := by
  obtain ⟨entry, hentry, hvalue⟩ := Option.bind_eq_some_iff.mp h
  split_ifs at hvalue with hexpired
  refine Option.bind_eq_some_iff.mpr ⟨entry, hentry, ?_⟩
  have hle : sh.now ≤ (sh.after elapsed).now := by
    dsimp only [Shared.after]
    omega
  rw [if_neg fun hlt ↦ hexpired (lt_of_lt_of_le hlt hle)]
  exact hvalue

end Statements

/-! ## What a step of a validation can do -/

section Inversion

variable {cfg : KeyConfig} {sh : Shared} {c : Call} {k : String} {info : KeyInfo} {row : KeyRow}
  {now : ℤ}

theorem now_of_select (h : (runCall cfg sh c).2 = .select k now) : now = sh.now := by
  cases c with
  | waiting request =>
    cases request with
    | validate rawKey =>
      dsimp only [runCall, begin'] at h
      split at h <;> cases h
      rfl
    | update id updates =>
      dsimp only [runCall, begin'] at h
      split_ifs at h
    | revoke | revokeExpired => cases h
  | select k' now' =>
    rw [runCall] at h
    split at h
    · cases h
    · dsimp only at h
      split_ifs at h
  | _ => cases h

/-- The row that a validation holds has just been read, or is the one it held, with the quota
reset. -/
theorem reading_runCall (h : (runCall cfg sh c).2.reading = some (k, row)) :
    (∃ now, c = .select k now ∧ sh.store.liveRow k now = some row) ∨
      ∃ now row', c = .reset k now row' ∧ row =
        { row' with quotaUsed := 0, quotaResetAt := some (getNextMonthFirstDay sh.now) } := by
  cases c with
  | waiting request =>
    cases request with
    | validate rawKey =>
      dsimp only [runCall, begin'] at h
      split at h <;> cases h
    | update id updates =>
      dsimp only [runCall, begin'] at h
      split_ifs at h <;> cases h
    | revoke | revokeExpired => cases h
  | select k' now =>
    rw [runCall] at h
    split at h
    · cases h
    · next hrow =>
      dsimp only at h
      split_ifs at h <;> cases h <;> exact .inl ⟨now, rfl, hrow⟩
  | reset k' now row' =>
    cases h
    exact .inr ⟨now, row', rfl, rfl⟩
  | _ => cases h

/-- What a validation returns it has returned before, or it was cached, or it is of the row that it
held. -/
theorem validated_runCall (h : (runCall cfg sh c).2 = .validated k (some info)) :
    c = .validated k (some info) ∨ sh.cached k = some info ∨
      ∃ now row, c = .touch k now row ∧ info = row.info now := by
  cases c with
  | waiting request =>
    cases request with
    | validate rawKey =>
      dsimp only [runCall, begin'] at h
      split at h <;> cases h
      exact .inr (.inl ‹_›)
    | update id updates =>
      dsimp only [runCall, begin'] at h
      split_ifs at h
    | revoke | revokeExpired => cases h
  | select k' now =>
    rw [runCall] at h
    split at h
    · cases h
    · dsimp only at h
      split_ifs at h
  | touch k' now row =>
    cases h
    exact .inr (.inr ⟨now, row, rfl, rfl⟩)
  | validated => exact .inl h
  | _ => cases h

end Inversion

/-! ## The invariant -/

section Invariant

variable {cfg : KeyConfig} {s : Calls ι Shared Call} {a : Action ι} {i : ι}

/-- What holds of a call: a row it has read has the guards that the table has, and a hash it has
read is the one of its key. -/
def CallOk (sh : Shared) (c : Call) : Prop :=
  (∀ k row, c.reading = some (k, row) →
    sh.guards k = some (rowGuards row) ∧ (rowGuards row).revoked = false) ∧
  ∀ id keyHash, c = .revokeUpdate id keyHash → keyHash = (sh.table.byId id).map (·.keyHash)

omit [DecidableEq ι] in
/-- **The invariant.** What is cached has the guards of its row, and is neither revoked nor
expired. -/
structure Sound (s : Calls ι Shared Call) : Prop where
  cached : ∀ k info, s.shared.cached k = some info →
    s.shared.guards k = some (infoGuards info) ∧ (infoGuards info).isLive s.shared.now = true
  calls : ∀ i, CallOk s.shared (s.call i)

theorem callOk_of_idle {sh : Shared} {c : Call} (hreading : c.reading = none)
    (hupdate : ∀ id keyHash, c ≠ .revokeUpdate id keyHash) : CallOk sh c := by
  refine ⟨fun k row h ↦ ?_, fun id keyHash h ↦ absurd h (hupdate id keyHash)⟩
  rw [hreading] at h
  cases h

theorem CallOk.mono {sh sh' : Shared} {c : Call} (h : CallOk sh c)
    (hids : ∀ id, (sh'.table.byId id).map (·.keyHash) = (sh.table.byId id).map (·.keyHash))
    (hguards : ∀ k row, c.reading = some (k, row) → sh'.guards k = sh.guards k) :
    CallOk sh' c := by
  refine ⟨fun k row hreading ↦ ?_, fun id keyHash hc ↦ ?_⟩
  · rw [hguards k row hreading]
    exact h.1 k row hreading
  · rw [hids id]
    exact h.2 id keyHash hc

/-- A call moves and the shared state changes. Where guards change nothing is cached and no row is
being read, and what is newly cached is in order. -/
theorem Sound.update (h : Sound s) {sh' : Shared} {x : Call} (hnow : sh'.now = s.shared.now)
    (hids : ∀ id, (sh'.table.byId id).map (·.keyHash) = (s.shared.table.byId id).map (·.keyHash))
    (hguards : ∀ k, sh'.guards k ≠ s.shared.guards k →
      sh'.cached k = none ∧ ∀ j row, (s.call j).reading ≠ some (k, row))
    (hcached : ∀ k info, sh'.cached k = some info → s.shared.cached k = some info ∨
      sh'.guards k = some (infoGuards info) ∧ (infoGuards info).isLive s.shared.now = true)
    (hx : CallOk sh' x) : Sound ⟨sh', Function.update s.call i x⟩ := by
  refine ⟨fun k info hk ↦ ?_,
    (Function.forall_update_iff s.call fun _ ↦ CallOk sh').mpr ⟨hx, fun j _ ↦ ?_⟩⟩
  · dsimp only at hk ⊢
    rw [hnow]
    rcases hcached k info hk with hold | hnew
    -- of a key whose guards change nothing is cached
    · have hsame : sh'.guards k = s.shared.guards k := by
        by_contra hne
        rw [(hguards k hne).1] at hk
        cases hk
      rw [hsame]
      exact h.cached k info hold
    · exact hnew
  · refine (h.calls j).mono hids fun k row hreading ↦ ?_
    by_contra hne
    exact (hguards k hne).2 j row hreading

theorem Sound.move (h : Sound s) {x : Call} (hx : CallOk s.shared x) :
    Sound ⟨s.shared, Function.update s.call i x⟩ :=
  h.update rfl (fun _ ↦ rfl) (fun _ hne ↦ absurd rfl hne) (fun _ _ hk ↦ .inl hk) hx

theorem map_keyHash_byId_update (sh : Shared) (p : ManagedRow → Bool) (f : Assignment) (id : ℕ) :
    ((sh.update p f).table.byId id).map (·.keyHash) = (sh.table.byId id).map (·.keyHash) := by
  rw [Shared.update, KeyTable.byId_update, Option.map_map]
  congr 1
  funext r
  exact f.keyHash_on p r

theorem Sound.change (h : Sound s) (p : ManagedRow → Bool) (f : Assignment) {x : Call}
    (hx : CallOk (s.shared.update p f) x)
    (hguards : ∀ k, (s.shared.update p f).guards k ≠ s.shared.guards k →
      s.shared.cached k = none ∧ ∀ j row, (s.call j).reading ≠ some (k, row)) :
    Sound ⟨s.shared.update p f, Function.update s.call i x⟩ :=
  h.update rfl (map_keyHash_byId_update s.shared p f) hguards (fun _ _ hk ↦ .inl hk) hx

theorem revoke_table (sh : Shared) (id : ℕ) (keyHash : Option String) :
    (sh.revoke id keyHash).table = sh.table.update (revocable id) (setRevoked sh.now) ∧
      (sh.revoke id keyHash).now = sh.now := by
  cases keyHash with
  | none => exact ⟨rfl, rfl⟩
  | some keyHash =>
    rw [Shared.revoke]
    split_ifs
    · exact ⟨rfl, rfl⟩
    · exact ⟨rfl, rfl⟩

theorem cached_revoke {sh : Shared} {id : ℕ} {keyHash : Option String} {k : String}
    {info : KeyInfo} (h : (sh.revoke id keyHash).cached k = some info) :
    sh.cached k = some info := by
  cases keyHash with
  | none => exact h
  | some keyHash =>
    rw [Shared.revoke] at h
    split_ifs at h
    · exact (cached_invalidate h).1
    · exact h

/-- The invalidation removes what is cached of the key whose row changes. -/
theorem cached_revoke_of_changed {sh : Shared} {id : ℕ} {keyHash : Option String}
    (hhash : keyHash = (sh.table.byId id).map (·.keyHash)) {k : String}
    (hk : (sh.revoke id keyHash).guards k ≠ sh.guards k) :
    (sh.revoke id keyHash).cached k = none := by
  rw [Shared.guards, (revoke_table sh id keyHash).1, KeyTable.byHash_update, Shared.guards] at hk
  cases hfound : sh.table.byHash k with
  | none =>
    rw [hfound] at hk
    exact absurd rfl hk
  | some row =>
    rw [hfound, Option.map_some, Option.map_some, Option.map_some, Assignment.on] at hk
    -- the row that changes is the revoked one, and the hash that was read is its hash
    have hrevocable : revocable id row = true := by
      by_contra hnot
      rw [if_neg hnot] at hk
      exact hk rfl
    obtain ⟨hmem, hrow⟩ := KeyTable.mem_of_byHash hfound
    have hid : row.id = id := of_decide_eq_true (Bool.and_eq_true_iff.mp hrevocable).1
    have hbyId := KeyTable.byId_of_mem hmem
    rw [hid] at hbyId
    rw [hbyId, Option.map_some, hrow] at hhash
    have hchanges : 0 < sh.table.changes (revocable id) :=
      List.countP_pos_iff.mpr ⟨row, hmem, hrevocable⟩
    rw [hhash, Shared.revoke, if_pos hchanges]
    cases hcached : Shared.cached _ k with
    | none => rfl
    | some info => exact absurd rfl (cached_invalidate hcached).2

/-- The state after a call has been resumed and its statement has succeeded. -/
def resumed (cfg : KeyConfig) (s : Calls ι Shared Call) (i : ι) (c : Call) : Calls ι Shared Call :=
  ⟨(runCall cfg s.shared c).1, Function.update s.call i (runCall cfg s.shared c).2⟩

theorem step_resume (cfg : KeyConfig) (s : Calls ι Shared Call) (i : ι) :
    step cfg s (.resume i none) = resumed cfg s i (s.call i) := rfl

theorem Sound.waiting (h : Sound s) (request : Request) :
    Sound (resumed cfg s i (.waiting request)) := by
  refine h.move ?_
  cases request with
  | validate rawKey =>
    dsimp only [runCall, begin']
    split
    · exact callOk_of_idle rfl fun _ _ hne ↦ nomatch hne
    · exact callOk_of_idle rfl fun _ _ hne ↦ nomatch hne
  | update id updates =>
    dsimp only [runCall, begin']
    split_ifs
    · exact callOk_of_idle rfl fun _ _ hne ↦ nomatch hne
    · exact callOk_of_idle rfl fun _ _ hne ↦ nomatch hne
  | revoke | revokeExpired => exact callOk_of_idle rfl fun _ _ hne ↦ nomatch hne

theorem Sound.select (h : Sound s) (k : String) (now : ℤ) :
    Sound (resumed cfg s i (.select k now)) := by
  rw [resumed, runCall]
  cases hrow : s.shared.store.liveRow k now with
  | none =>
    refine h.update rfl (fun _ ↦ rfl) (fun _ hne ↦ absurd rfl hne) (fun k' info hk ↦ ?_)
      (callOk_of_idle rfl fun _ _ hne ↦ nomatch hne)
    refine (cached_setCached hk).imp_right fun hnew ↦ ?_
    cases hnew.2
  | some row =>
    obtain ⟨hlive, r, hr, rfl⟩ := exists_of_liveRow hrow
    refine h.move ⟨fun k' row' hreading ↦ ?_, fun id keyHash hne ↦ ?_⟩
    · have hread : (k, r.toKeyRow) = (k', row') := by
        dsimp only at hreading
        split_ifs at hreading
        · exact Option.some.inj hreading
        · exact Option.some.inj hreading
      cases hread
      rw [← isLive_rowGuards, Guards.isLive, Bool.and_eq_true_iff, Bool.not_eq_true'] at hlive
      exact ⟨by rw [Shared.guards, hr, Option.map_some], hlive.1⟩
    · dsimp only at hne
      split_ifs at hne

theorem Sound.reset (h : Sound s) {k : String} {now : ℤ} {row : KeyRow}
    (hcall : CallOk s.shared (.reset k now row)) :
    Sound (resumed cfg s i (.reset k now row)) := by
  have hsame := (harmless_setQuotaReset (getNextMonthFirstDay s.shared.now)).guards_update
    s.shared (·.id = row.id)
  refine h.change _ _ ⟨fun k' row' hreading ↦ ?_, fun _ _ hne ↦ nomatch hne⟩
    fun k hne ↦ absurd (hsame k) hne
  cases hreading
  rw [hsame]
  exact hcall.1 k row rfl

theorem Sound.touch (h : Sound s) {k : String} {now : ℤ} {row : KeyRow}
    (hcall : CallOk s.shared (.touch k now row))
    (hexpired : (rowGuards row).expired s.shared.now = false) :
    Sound (resumed cfg s i (.touch k now row)) := by
  have hsame := (harmless_setLastUsed now).guards_update s.shared (·.id = row.id)
  obtain ⟨hguards, hrevoked⟩ := hcall.1 k row rfl
  refine h.update rfl (map_keyHash_byId_update s.shared _ _) (fun k hne ↦ absurd (hsame k) hne)
    (fun k' info hk ↦ ?_) (callOk_of_idle rfl fun _ _ hne ↦ nomatch hne)
  refine (cached_setCached hk).imp_right ?_
  rintro ⟨rfl, hinfo⟩
  cases hinfo
  refine ⟨(hsame k').trans hguards, ?_⟩
  change (rowGuards row).isLive s.shared.now = true
  rw [Guards.isLive, hrevoked, hexpired]
  rfl

theorem Sound.revokeSelect (h : Sound s) (id : ℕ) :
    Sound (resumed cfg s i (.revokeSelect id)) := by
  refine h.move ⟨fun k row hreading ↦ ?_, fun id' keyHash hne ↦ ?_⟩
  · cases hreading
  · cases hne
    rfl

theorem Sound.revokeUpdate (h : Sound s) {id : ℕ} {keyHash : Option String}
    (hcall : CallOk s.shared (.revokeUpdate id keyHash))
    (hunread : ∀ k, (s.shared.revoke id keyHash).guards k ≠ s.shared.guards k →
      ∀ j row, (s.call j).reading ≠ some (k, row)) :
    Sound (resumed cfg s i (.revokeUpdate id keyHash)) := by
  obtain ⟨htable, hnow⟩ := revoke_table s.shared id keyHash
  refine h.update hnow (fun id' ↦ ?_) (fun k hne ↦ ?_) (fun k info hk ↦ .inl (cached_revoke hk))
    (callOk_of_idle rfl fun _ _ hne ↦ nomatch hne)
  · rw [runCall, htable]
    exact map_keyHash_byId_update s.shared _ _ id'
  · exact ⟨cached_revoke_of_changed (hcall.2 id keyHash rfl) hne, hunread k hne⟩

/-- **One action** that changes a key unobserved. -/
theorem Sound.step (h : Sound s) (ha : Unobserved cfg s a) : Sound (step cfg s a) := by
  have htimely := ha.timely
  cases a with
  | tick elapsed =>
    refine ⟨fun k info hk ↦ ?_, h.calls⟩
    obtain ⟨hguards, hlive⟩ := h.cached k info (cached_of_after hk)
    refine ⟨hguards, ?_⟩
    have hexpired : (infoGuards info).expired (KeyCache.step cfg s (.tick elapsed)).shared.now =
        false := htimely k info hk
    rw [Guards.isLive, Bool.and_eq_true_iff] at hlive
    rw [Guards.isLive, hlive.1, hexpired]
    rfl
  | resume i fault =>
    have hcall := h.calls i
    cases fault with
    | some e =>
      refine h.move ?_
      cases hc : s.call i with
      | validated | changed =>
        rw [hc] at hcall
        exact hcall
      | _ => exact callOk_of_idle rfl fun _ _ hne ↦ nomatch hne
    | none =>
      have hunread := ha.unread
      -- a change without an invalidation finds nothing cached
      have hquiet : (∀ id keyHash, s.call i ≠ .revokeUpdate id keyHash) →
          ∀ k, Changes cfg s (.resume i none) k →
            s.shared.cached k = none ∧ ∀ j row, (s.call j).reading ≠ some (k, row) := by
        intro hnot k hne
        refine ⟨(ha.uncached k hne).resolve_right ?_, hunread k hne⟩
        rintro ⟨j, id, keyHash, hij, hj⟩
        cases hij
        exact hnot id keyHash hj
      unfold Changes at hquiet hunread
      rw [step_resume] at hquiet hunread ⊢
      cases hc : s.call i with
      | waiting request => exact h.waiting request
      | select k now => exact h.select k now
      | reset k now row => exact h.reset (hc ▸ hcall)
      | touch k now row => exact h.touch (hc ▸ hcall) (htimely k now row hc)
      | revokeSelect id => exact h.revokeSelect id
      | revokeUpdate id keyHash =>
        rw [hc] at hunread
        exact h.revokeUpdate (hc ▸ hcall) hunread
      | update id updates =>
        rw [hc] at hquiet
        exact h.change _ _ (callOk_of_idle rfl fun _ _ hne ↦ nomatch hne)
          (hquiet fun _ _ hne ↦ nomatch hne)
      | revokeExpired now =>
        rw [hc] at hquiet
        exact h.change _ _ (callOk_of_idle rfl fun _ _ hne ↦ nomatch hne)
          (hquiet fun _ _ hne ↦ nomatch hne)
      | validated | changed | failed =>
        exact h.move (callOk_of_idle rfl fun _ _ hne ↦ nomatch hne)

end Invariant

/-! ## One validation in a run -/

section Tracking

variable {cfg : KeyConfig} {s : Calls ι Shared Call} {as bs : List (Action ι)} {i : ι}

omit [DecidableEq ι] in
theorem Guards.isLive_mono {g : Guards} {now later : ℤ} (hle : now ≤ later)
    (h : g.isLive later = true) : g.isLive now = true := by
  rw [Guards.isLive, Bool.and_eq_true_iff, Bool.not_eq_true', Bool.not_eq_true',
    Guards.expired] at h ⊢
  refine ⟨h.1, ?_⟩
  cases hexpires : g.expiresAt with
  | none => rfl
  | some expiresAt =>
    have hnot := h.2
    rw [hexpires, Option.any_some, decide_eq_false_iff_not] at hnot
    rw [Option.any_some, decide_eq_false_iff_not]
    omega

theorem Seen.mono {k : String} {g : Guards} (h : Seen cfg s as k g) (hext : as <+: bs) :
    Seen cfg s bs k g := by
  obtain ⟨pre, hpre, hrow⟩ := h
  exact ⟨pre, hpre.trans hext, hrow⟩

/-- What holds of a validation: it looks for keys that are live since it began, and what it has read
or returned was seen since. -/
structure Tracked (cfg : KeyConfig) (s : Calls ι Shared Call) (as : List (Action ι)) (c : Call) :
    Prop where
  select : ∀ k now, c = .select k now → s.shared.now ≤ now
  reading : ∀ k row, c.reading = some (k, row) →
    (rowGuards row).isLive s.shared.now = true ∧ Seen cfg s as k (rowGuards row)
  validated : ∀ k info, c = .validated k (some info) →
    (infoGuards info).isLive s.shared.now = true ∧ Seen cfg s as k (infoGuards info)

theorem Tracked.mono {c : Call} (h : Tracked cfg s as c) (hext : as <+: bs) :
    Tracked cfg s bs c where
  select := h.select
  reading k row hc := ⟨(h.reading k row hc).1, (h.reading k row hc).2.mono hext⟩
  validated k info hc := ⟨(h.validated k info hc).1, (h.validated k info hc).2.mono hext⟩

theorem seen_of_guards {k : String} {g : Guards}
    (h : (run (step cfg) s as).shared.guards k = some g) : Seen cfg s as k g := by
  obtain ⟨row, hrow, hg⟩ := Option.map_eq_some_iff.mp h
  obtain ⟨hmem, hhash⟩ := KeyTable.mem_of_byHash hrow
  exact ⟨as, List.prefix_refl as, row, hmem, hhash, hg⟩

omit [DecidableEq ι] in
theorem now_runCall (cfg : KeyConfig) (sh : Shared) (c : Call) :
    (runCall cfg sh c).1.now = sh.now := by
  cases c with
  | select k now =>
    rw [runCall]
    split
    · rfl
    · rfl
  | revokeUpdate id keyHash => exact (revoke_table sh id keyHash).2
  | _ => rfl

theorem tracked_of_idle {c : Call} (hselect : ∀ k now, c ≠ .select k now)
    (hreading : c.reading = none) (hvalidated : ∀ k info, c ≠ .validated k (some info)) :
    Tracked cfg s as c where
  select k now hc := absurd hc (hselect k now)
  reading k row hc := by
    rw [hreading] at hc
    cases hc
  validated k info hc := absurd hc (hvalidated k info)

theorem now_le_run (cfg : KeyConfig) (s : Calls ι Shared Call) (as : List (Action ι)) :
    s.shared.now ≤ (run (step cfg) s as).shared.now := by
  refine (always_of_step (P := fun s' : Calls ι Shared Call ↦ s.shared.now ≤ s'.shared.now)
    ?_ le_rfl as).last
  intro s' a hle
  cases a with
  | tick elapsed =>
    dsimp only [step, Shared.after]
    omega
  | resume i fault =>
    cases fault with
    | none => exact hle.trans_eq (now_runCall cfg s'.shared (s'.call i)).symm
    | some e => exact hle

theorem Tracked.runCall {c : Call} (h : Tracked cfg s as c)
    (hsound : Sound (run (step cfg) s as)) :
    Tracked cfg s as (runCall cfg (run (step cfg) s as).shared c).2 := by
  refine ⟨fun k now hc ↦ ?_, fun k row hc ↦ ?_, fun k info hc ↦ ?_⟩
  · rw [now_of_select hc]
    exact now_le_run cfg s as
  · rcases reading_runCall hc with ⟨now, rfl, hrow⟩ | ⟨now, row', rfl, rfl⟩
    · obtain ⟨hlive, r, hr, rfl⟩ := exists_of_liveRow hrow
      rw [← isLive_rowGuards] at hlive
      refine ⟨Guards.isLive_mono (h.select k now rfl) hlive, seen_of_guards ?_⟩
      rw [Shared.guards, hr, Option.map_some]
    · exact h.reading k row' rfl
  · rcases validated_runCall hc with rfl | hcached | ⟨now, row, rfl, rfl⟩
    · exact h.validated k info rfl
    · obtain ⟨hguards, hlive⟩ := hsound.cached k info hcached
      exact ⟨Guards.isLive_mono (now_le_run cfg s as) hlive, seen_of_guards hguards⟩
    · exact h.reading k row rfl

theorem Tracked.fail {c : Call} (h : Tracked cfg s as c) (e : AppError) :
    Tracked cfg s as (c.fail e) := by
  cases c with
  | validated | changed => exact h
  | _ => exact tracked_of_idle (fun _ _ hc ↦ nomatch hc) rfl fun _ _ hc ↦ nomatch hc

/-- A validation that has not begun when the run does is tracked throughout. -/
theorem tracked_run (h : Always (step cfg) Sound s as) {rawKey : String}
    (hi : s.call i = .waiting (.validate rawKey)) :
    Tracked cfg s as ((run (step cfg) s as).call i) := by
  have hextes := (always_iff_forall_prefixes s as).mp h
  clear h
  induction as using List.reverseRecOn with
  | nil =>
    rw [run_nil, hi]
    exact tracked_of_idle (fun _ _ hc ↦ nomatch hc) rfl fun _ _ hc ↦ nomatch hc
  | append_singleton as a ih =>
    have hsound := hextes as (List.prefix_append as [a])
    have htracked := ih fun pre hpre ↦ hextes pre (hpre.trans (List.prefix_append as [a]))
    rw [run_concat]
    refine Tracked.mono ?_ (List.prefix_append as [a])
    cases a with
    | tick elapsed => exact htracked
    | resume j fault =>
      by_cases hij : i = j
      · subst hij
        rw [step, Calls.step_call_self]
        cases fault with
        | none => exact htracked.runCall hsound
        | some e => exact htracked.fail e
      · have hsame : (step cfg (run (step cfg) s as) (.resume j fault)).call i =
            (run (step cfg) s as).call i := Calls.step_call_of_ne _ fault hij
        rw [hsame]
        exact htracked

end Tracking

/-! ## Runs -/

/-- **Validations are coherent.** In every run of the calls on a table of which nothing is cached,
in which the keys change unobserved, every validation returns an object of a key that was neither
revoked nor expired when the validation began, with the role and the restrictions that its row had
at some moment since. -/
theorem validations_coherent (cfg : KeyConfig) (table : KeyTable) (now : ℤ) (request : ι → Request)
    (as : List (Action ι)) (h : Along (step cfg) (Unobserved cfg) (start table now request) as) :
    CoherentRun cfg (start table now request) as := by
  have hstart : Sound (start table now request) := by
    refine ⟨fun k info hk ↦ ?_, fun i ↦ ?_⟩
    · cases hk
    · exact callOk_of_idle rfl fun _ _ hne ↦ nomatch hne
  have hsound := h.always (fun _ _ hs ↦ hs.step) hstart
  rintro before after i rawKey rfl hi k info hvalidated
  have hafter :
      Always (step cfg) Sound (run (step cfg) (start table now request) before) after := by
    refine (always_iff_forall_prefixes _ after).mpr fun pre hpre ↦ ?_
    rw [← run_append]
    exact (always_iff_forall_prefixes _ _).mp hsound _
      ((List.prefix_append_right_inj before).mpr hpre)
  exact (tracked_run hafter hi).validated k info hvalidated

/-! ## Fixed runs -/

open Authentication

def adminRow : ManagedRow := ⟨{ openRow with role := "admin" }, none, none, none, none⟩

def toUser : KeyUpdates := ⟨none, some "user", none, none, none, none⟩

/-- A validation, an update of the role, and another validation. -/
def aroundUpdate : Fin 3 → Request
  | 0 | 2 => .validate sampleKey
  | 1 => .update 1 toUser

/-- A step on an empty cache while no validation has read a row. -/
theorem unobserved_of_quiet {cfg : KeyConfig} {s : Calls ι Shared Call} {a : Action ι}
    (hcached : ∀ k, s.shared.cached k = none) (hreading : ∀ i, (s.call i).reading = none)
    (htimely : Timely s a) : Unobserved cfg s a := by
  refine ⟨htimely, fun k _ i row hrow ↦ ?_, fun k _ ↦ .inl (hcached k)⟩
  rw [hreading i] at hrow
  cases hrow

/-- The validation after the update returns the role before it. -/
theorem stale_after_update :
    ¬CoherentRun sampleConfig.toKeyConfig (start (.single adminRow) 1767225600000 aroundUpdate)
      [.resume 0 none, .resume 0 none, .resume 0 none, .resume 1 none, .resume 1 none,
        .resume 2 none] := by
  intro h
  obtain ⟨-, pre, hpre, row, hrow, -, hguards⟩ := h
    [.resume 0 none, .resume 0 none, .resume 0 none, .resume 1 none, .resume 1 none]
    [.resume 2 none] 2 sampleKey rfl rfl _ _ rfl
  have hrole : row.role = "user" := by
    rcases List.prefix_cons_iff.mp hpre with rfl | ⟨rest, rfl, hrest⟩
    · rw [List.mem_singleton.mp hrow]
      rfl
    · rw [List.prefix_nil.mp hrest] at hrow
      rw [List.mem_singleton.mp hrow]
      rfl
  have hadmin : row.role = "admin" := congrArg Guards.role hguards
  rw [hrole] at hadmin
  exact absurd hadmin (by decide)

/-- A validation after an update that nothing observes. -/
theorem validations_coherent_at :
    CoherentRun sampleConfig.toKeyConfig (start (.single adminRow) 1767225600000 aroundUpdate)
      [.resume 1 none, .resume 1 none, .resume 2 none, .resume 2 none, .resume 2 none] := by
  refine validations_coherent _ _ _ _ _ ⟨?_, ?_, ?_, ?_, ?_, trivial⟩
  · exact unobserved_of_quiet (fun _ ↦ rfl) (by decide) fun _ _ _ hc ↦ nomatch hc
  · exact unobserved_of_quiet (fun _ ↦ rfl) (by decide) fun _ _ _ hc ↦ nomatch hc
  · exact unobserved_of_quiet (fun _ ↦ rfl) (by decide) fun _ _ _ hc ↦ nomatch hc
  · exact unobserved_of_quiet (fun _ ↦ rfl) (by decide) fun _ _ _ hc ↦ nomatch hc
  · refine ⟨fun k now row hc ↦ ?_, fun k hk ↦ absurd ?_ hk, fun k _ ↦ .inl rfl⟩
    · cases hc
      rfl
    · exact (harmless_setLastUsed _).guards_update _ _ k

end StellarDonations.KeyCache
