import StellarDonations.Auth.RequestSigning
import StellarDonations.Time.Calendar

/-!
# API keys

`validateApiKey`: the row of a key, or what an earlier validation cached of it, as the middleware
sees it. Rejections are cached as well, but a cached rejection is read back as a miss.
-/

namespace StellarDonations.ApiKeys

open Calendar RequestSigning

inductive KeyStatus where
  | active
  | deprecated
  | revoked
  deriving DecidableEq, Repr

/-- A row of `api_keys`. Times are in milliseconds. -/
structure KeyRow where
  id : ℕ
  keyHash : String
  keyPrefix : String
  name : String
  role : String
  status : KeyStatus
  metadata : Option String
  expiresAt : Option ℤ
  lastUsedAt : Option ℤ
  createdAt : ℤ
  gracePeriodDays : ℤ
  signingRequired : Bool
  keySecret : Option String
  scopes : List String
  allowedIps : Option (List String)
  notificationEmail : Option String
  monthlyQuota : Option ℤ
  quotaUsed : ℤ
  quotaResetAt : Option ℤ
  rateLimitPerMinute : Option ℤ
  deriving DecidableEq

structure KeyInfo where
  id : ℕ
  keyPrefix : String
  name : String
  role : String
  scopes : List String
  status : KeyStatus
  isDeprecated : Bool
  lastUsedAt : ℤ
  metadata : Option String
  gracePeriodDays : ℤ
  createdAt : ℤ
  expiresAt : Option ℤ
  signingRequired : Bool
  keySecret : Option String
  allowedIps : Option (List String)
  monthlyQuota : Option ℤ
  quotaUsed : ℤ
  quotaResetAt : Option ℤ
  notificationEmail : Option String
  rateLimitPerMinute : Option ℤ
  deriving DecidableEq

structure CacheEntry where
  value : Option KeyInfo
  expiresAt : ℤ

structure KeyStore where
  rows : List KeyRow
  cache : String → Option CacheEntry

inductive Statement where
  | createTable
  | select
  | resetQuota
  | touch
  deriving DecidableEq, Repr

/-- A column that is neither `NULL` nor `0`. -/
def nonzero (x : Option ℤ) : Option ℤ := x.filter (· ≠ 0)

def getNextMonthFirstDay (now : ℤ) : ℤ :=
  let date := civilFromDays (day now)
  let nextMonth := if date.month = 11 then 0 else date.month + 1
  let nextYear := if date.month = 11 then date.year + 1 else date.year
  makeDay nextYear nextMonth 1 * msPerDay

namespace KeyRow

/-- The key has not been revoked and has not expired. -/
def isLive (row : KeyRow) (now : ℤ) : Bool :=
  row.status ≠ .revoked && !(nonzero row.expiresAt).any (· < now)

def quotaDue (row : KeyRow) (now : ℤ) : Bool :=
  (nonzero row.monthlyQuota).isSome && (nonzero row.quotaResetAt).any (· ≤ now)

def withQuotaReset (row : KeyRow) (now : ℤ) : KeyRow :=
  if row.quotaDue now then
    { row with quotaUsed := 0, quotaResetAt := some (getNextMonthFirstDay now) }
  else row

def info (row : KeyRow) (now : ℤ) : KeyInfo where
  id := row.id
  keyPrefix := row.keyPrefix
  name := row.name
  role := row.role
  scopes := row.scopes
  status := row.status
  isDeprecated := row.status = .deprecated
  lastUsedAt := now
  metadata := row.metadata
  gracePeriodDays := if row.gracePeriodDays = 0 then 30 else row.gracePeriodDays
  createdAt := row.createdAt
  expiresAt := nonzero row.expiresAt
  signingRequired := row.signingRequired
  keySecret := row.keySecret.filter (· ≠ "")
  allowedIps := row.allowedIps
  monthlyQuota := row.monthlyQuota
  quotaUsed := row.quotaUsed
  quotaResetAt := row.quotaResetAt
  notificationEmail := row.notificationEmail.filter (· ≠ "")
  rateLimitPerMinute := nonzero row.rateLimitPerMinute

end KeyRow

namespace KeyStore

def getCachedKey (ks : KeyStore) (keyHash : String) (now : ℤ) : Option KeyInfo :=
  (ks.cache keyHash).bind fun entry ↦ if entry.expiresAt < now then none else entry.value

def setCachedKey (ks : KeyStore) (keyHash : String) (value : Option KeyInfo) (expiresAt : ℤ) :
    KeyStore :=
  { ks with cache := Function.update ks.cache keyHash (some ⟨value, expiresAt⟩) }

/-- `UPDATE api_keys SET … WHERE id = ?`. -/
def updateRow (ks : KeyStore) (id : ℕ) (f : KeyRow → KeyRow) : KeyStore :=
  { ks with rows := ks.rows.map fun row ↦ if row.id = id then f row else row }

/-- The row of a key that is neither revoked nor expired. -/
def liveRow (ks : KeyStore) (keyHash : String) (now : ℤ) : Option KeyRow :=
  (ks.rows.find? (·.keyHash = keyHash)).filter (·.isLive now)

/-- What is known of a key: the cached object, or the one its row gives. -/
def current (ks : KeyStore) (keyHash : String) (now : ℤ) : Option KeyInfo :=
  (ks.getCachedKey keyHash now).or
    ((ks.liveRow keyHash now).map fun row ↦ (row.withQuotaReset now).info now)

end KeyStore

/-- `API_KEY_CACHE_TTL_MS` and the digests. -/
structure KeyConfig extends Digests where
  cacheTtlMs : ℤ

/-- When a validation happens, and which of its statements fails. -/
structure LookupEnv where
  now : ℤ
  fault : Option (Statement × AppError)

def LookupEnv.errorAt (env : LookupEnv) (s : Statement) : Option AppError :=
  (env.fault.filter (·.1 = s)).map Prod.snd

/-- The end of `validateApiKey`: the quota is reset when it is due, the use is noted, and the object
is cached. -/
def acceptRow (cfg : KeyConfig) (ks : KeyStore) (keyHash : String) (row : KeyRow)
    (env : LookupEnv) :
    KeyStore × Except AppError (Option KeyInfo) :=
  match (env.errorAt .resetQuota).filter (fun _ ↦ row.quotaDue env.now) with
  | some e => (ks, .error e)
  | none =>
    let reset := ks.updateRow row.id (·.withQuotaReset env.now)
    match env.errorAt .touch with
    | some e => (reset, .error e)
    | none =>
      let result := (row.withQuotaReset env.now).info env.now
      let touched := reset.updateRow row.id fun r ↦ { r with lastUsedAt := some env.now }
      (touched.setCachedKey keyHash (some result) (env.now + cfg.cacheTtlMs), .ok (some result))

def validateApiKey (cfg : KeyConfig) (ks : KeyStore) (rawKey : String) (env : LookupEnv) :
    KeyStore × Except AppError (Option KeyInfo) :=
  let keyHash := cfg.sha256Hex rawKey
  match env.errorAt .createTable with
  | some e => (ks, .error e)
  | none =>
    match ks.getCachedKey keyHash env.now with
    | some info => (ks, .ok (some info))
    | none =>
      match env.errorAt .select with
      | some e => (ks, .error e)
      | none =>
        match ks.liveRow keyHash env.now with
        | none => (ks.setCachedKey keyHash none (env.now + cfg.cacheTtlMs), .ok none)
        | some row => acceptRow cfg ks keyHash row env

theorem acceptRow_eq_ok {cfg : KeyConfig} {ks : KeyStore} {keyHash : String} {row : KeyRow}
    {env : LookupEnv} {k : Option KeyInfo} (h : (acceptRow cfg ks keyHash row env).2 = .ok k) :
    k = some ((row.withQuotaReset env.now).info env.now) := by
  rw [acceptRow] at h
  split at h
  · cases h
  · dsimp only at h
    split at h
    · cases h
    · cases h
      rfl

theorem validateApiKey_eq_ok {cfg : KeyConfig} {ks : KeyStore} {rawKey : String} {env : LookupEnv}
    {k : Option KeyInfo} (h : (validateApiKey cfg ks rawKey env).2 = .ok k) :
    ks.current (cfg.sha256Hex rawKey) env.now = k := by
  rw [validateApiKey] at h
  rw [KeyStore.current]
  split at h
  · cases h
  · split at h
    · next hcached =>
      cases h
      rw [hcached, Option.some_or]
    · next hcached =>
      rw [hcached, Option.none_or]
      split at h
      · cases h
      · split at h
        · next hrow =>
          cases h
          rw [hrow, Option.map_none]
        · next hrow =>
          rw [hrow, Option.map_some, acceptRow_eq_ok h]

theorem errorAt_of_no_fault {env : LookupEnv} (henv : env.fault = none) (s : Statement) :
    env.errorAt s = none := by
  rw [LookupEnv.errorAt, henv]
  rfl

theorem validateApiKey_of_no_fault (cfg : KeyConfig) (ks : KeyStore) (rawKey : String)
    {env : LookupEnv}
    (henv : env.fault = none) :
    (validateApiKey cfg ks rawKey env).2 = .ok (ks.current (cfg.sha256Hex rawKey) env.now) := by
  have hok : ∃ k, (validateApiKey cfg ks rawKey env).2 = .ok k := by
    rw [validateApiKey, errorAt_of_no_fault henv]
    dsimp only
    split
    · exact ⟨_, rfl⟩
    · rw [errorAt_of_no_fault henv]
      dsimp only
      split
      · exact ⟨_, rfl⟩
      · rw [acceptRow, errorAt_of_no_fault henv, errorAt_of_no_fault henv]
        exact ⟨_, rfl⟩
  obtain ⟨k, hk⟩ := hok
  rw [hk, validateApiKey_eq_ok hk]

end StellarDonations.ApiKeys
