import Mathlib.Data.List.TakeWhile
import StellarDonations.Concurrency.Run
import StellarDonations.Containers.Log
import StellarDonations.Containers.Slots
import StellarDonations.Storage.Table
import StellarDonations.Text.JsString

/-!
# Feature flags

The flags are rows of a table, one for a name, a scope and a value of the scope. Evaluations read
them from a copy in memory, which `refreshCache` loads from the table and `setFlag` drops. Both wait
for the database between their statements, and evaluations wait as well, so that calls of all three
interleave.

An evaluation sees what was written last (`fresh_of_proper`) in the runs in which no rows are loaded
that a write has replaced and dropped since they were read, the copy is not emptied under an
evaluation that is about to read it, and no second row for a flag is inserted. The code sees to none
of this.
-/

namespace StellarDonations.FeatureFlags

open Concurrency JsString Slots Storage

/-! ## Flags -/

/-- `FLAG_SCOPES`. -/
inductive Scope where
  | global
  | environment
  | apiKey
  deriving DecidableEq

def Scope.text : Scope → String
  | .global => "global"
  | .environment => "environment"
  | .apiKey => "api_key"

def Scope.values : List Scope := [.global, .environment, .apiKey]

structure FlagRow where
  name : String
  enabled : Bool
  scope : Scope
  scopeValue : Option String
  description : Option String
  updatedBy : String
  deriving DecidableEq

/-- `feature_flags`. -/
abbrev Flags := List (ℕ × FlagRow)

/-- The `scopeKey` under which a flag is cached. -/
def scopeKey (scope : Scope) (scopeValue : Option String) : String :=
  match orNull scopeValue with
  | some scopeValue => scope.text ++ ":" ++ scopeValue
  | none => scope.text

/-- Where a row is cached: under its name and its `scopeKey`. -/
def cacheKey (r : ℕ × FlagRow) : String × String := (r.2.name, scopeKey r.2.scope r.2.scopeValue)

/-- The flag, the scope and the value of the scope that a row is about. -/
def slot (r : ℕ × FlagRow) : String × Scope × Option String :=
  (r.2.name, r.2.scope, orNull r.2.scopeValue)

/-- The arguments of `setFlag`. -/
structure Arguments where
  flagName : String
  enabled : Bool
  scope : String
  scopeValue : Option String := none
  description : Option String := none
  updatedBy : String := "system"

/-- The arguments that `setFlag` accepts. -/
structure Change where
  flagName : String
  enabled : Bool
  scope : Scope
  scopeValue : Option String
  description : Option String
  updatedBy : String
  deriving DecidableEq

/-- The checks of `setFlag`. -/
def Arguments.validate (a : Arguments) : Except String Change :=
  match Scope.values.find? (·.text = a.scope) with
  | none => .error ("Invalid scope: " ++ a.scope)
  | some scope =>
    if scope ≠ .global ∧ orNull a.scopeValue = none then
      .error ("scope_value required for scope: " ++ a.scope)
    else
      .ok ⟨a.flagName, a.enabled, scope, a.scopeValue, a.description, a.updatedBy⟩

/-- The flag, the scope and the value of the scope that are written. -/
def Change.slot (c : Change) : String × Scope × Option String :=
  (c.flagName, c.scope, orNull c.scopeValue)

def Change.row (c : Change) : FlagRow :=
  ⟨c.flagName, c.enabled, c.scope, c.scopeValue, c.description, c.updatedBy⟩

/-- The row after the `UPDATE`, where `existing` was read before. -/
def Change.assign (c : Change) (existing : FlagRow) (row : FlagRow) : FlagRow :=
  { row with
    enabled := c.enabled
    description := (orNull c.description).or existing.description
    updatedBy := c.updatedBy }

def getFlag (t : Table FlagRow) (flagName : String) (scope : Scope) (scopeValue : Option String) :
    Option (ℕ × FlagRow) :=
  t.rows.find? fun r ↦ r.2.name = flagName ∧ r.2.scope = scope ∧ r.2.scopeValue = orNull scopeValue

/-- `UNIQUE(name, scope, scope_value)`, where a `NULL` is never equal to another. -/
def violatesUnique (t : Table FlagRow) (row : FlagRow) : Bool :=
  row.scopeValue.isSome && t.rows.any fun r ↦
    r.2.name = row.name ∧ r.2.scope = row.scope ∧ r.2.scopeValue = row.scopeValue

/-- The message of the `DuplicateError` that `Database.run` makes of such an error. -/
def duplicateMessage : String :=
  "Duplicate donation detected - this transaction has already been processed"

/-- A call of `isFeatureEnabled`. -/
structure Evaluation where
  flagName : String
  apiKeyId : Option String := none
  environment : Option String := none
  defaultValue : Bool := false
  /-- It began when no `setFlag` of the flag and no refresh was under way, and no `setFlag` of the
  flag has begun since. -/
  settled : Bool
  deriving DecidableEq

/-! ## The cache -/

/-- `flagCache`. -/
abbrev Cache := String × String → Option Bool

def CACHE_TTL_MS : ℕ := 10000

/-- The `forEach` of `refreshCache`. -/
def install (cache : Cache) (flags : Flags) : Cache :=
  flags.foldl (fun cache flag ↦ Function.update cache (cacheKey flag) (some flag.2.enabled)) cache

/-- `flagCache.delete`. -/
def dropFlag (cache : Cache) (flagName : String) : Cache :=
  fun k ↦ if k.1 = flagName then none else cache k

/-- What an evaluation reads from the cache: the most specific scope first. -/
def answer (cache : Cache) (e : Evaluation) : Bool :=
  ((((orNull e.apiKeyId).bind fun apiKeyId ↦
      cache (e.flagName, scopeKey .apiKey (some apiKeyId))).or
    ((orNull e.environment).bind fun environment ↦
      cache (e.flagName, scopeKey .environment (some environment)))).or
    (cache (e.flagName, scopeKey .global none))).getD e.defaultValue

/-! ## Calls -/

inductive Outcome where
  | flag (row : Option (ℕ × FlagRow))
  | threw (message : String)
  | refreshed
  | enabled (enabled : Bool)
  deriving DecidableEq

inductive Call where
  /-- `setFlag` before the `SELECT` of the existing row. -/
  | lookup (c : Change)
  /-- Before the `UPDATE` or the `INSERT`. -/
  | write (c : Change) (existing : Option (ℕ × FlagRow))
  /-- The flag is written, and the cache still has to be invalidated. -/
  | written (c : Change)
  /-- Before the `SELECT` of what is returned. -/
  | reread (c : Change)
  /-- `refreshCache` before its `SELECT`, for an evaluation or not. -/
  | query (e : Option Evaluation)
  /-- The rows have been read, and still have to be loaded. -/
  | rows (e : Option Evaluation) (flags : Flags)
  /-- `isFeatureEnabled` before it reads the cache. -/
  | read (e : Evaluation)
  | done (outcome : Outcome)
  deriving DecidableEq

namespace Call

/-- A `setFlag` of the flag is under way. -/
def writes (flagName : String) : Call → Bool
  | .lookup c | .write c _ | .written c | .reread c => c.flagName = flagName
  | .query _ | .rows _ _ | .read _ | .done _ => false

def refreshes : Call → Bool
  | .query _ | .rows _ _ => true
  | .lookup _ | .write _ _ | .written _ | .reread _ | .read _ | .done _ => false

/-- A `setFlag` of the flag has written it and not yet invalidated the cache. -/
def pending (flagName : String) : Call → Bool
  | .written c => c.flagName = flagName
  | .lookup _ | .write _ _ | .reread _ | .query _ | .rows _ _ | .read _ | .done _ => false

def evaluation : Call → Option Evaluation
  | .query e | .rows e _ => e
  | .read e => some e
  | .lookup _ | .write _ _ | .written _ | .reread _ | .done _ => none

end Call

/-- A `setFlag` of the flag begins. -/
def Evaluation.unsettle (flagName : String) (e : Evaluation) : Evaluation :=
  { e with settled := e.settled && e.flagName ≠ flagName }

/-- A `setFlag` of the flag begins. -/
def Call.unsettle (flagName : String) : Call → Call
  | .query e => .query (e.map (·.unsettle flagName))
  | .rows e flags => .rows (e.map (·.unsettle flagName)) flags
  | .read e => .read (e.unsettle flagName)
  | c => c

/-! ## The system -/

/-- The table, the cache of the process, and the calls that have begun. -/
structure State where
  table : Table FlagRow
  cache : Cache
  lastCacheRefresh : ℕ
  calls : List Call
  /-- What was written last for a flag, a scope and a value of the scope. -/
  written : String × Scope × Option String → Option Bool

inductive Action where
  | setFlag (a : Arguments)
  | refreshCache
  | isFeatureEnabled (flagName : String) (apiKeyId environment : Option String)
      (defaultValue : Bool) (now : ℕ)
  /-- A call goes on; its statement fails with an error, or not. -/
  | resume (n : ℕ) (fault : Option String) (now : ℕ)
  /-- The process is started again. -/
  | restart

namespace State

def start : State := ⟨default, fun _ ↦ none, 0, [], fun _ ↦ none⟩

variable (s : State)

/-- No `setFlag` of the flag and no refresh is under way. -/
def settled (flagName : String) : Bool :=
  s.calls.all fun c ↦ !c.writes flagName && !c.refreshes

def expired (now : ℕ) : Prop := CACHE_TTL_MS < now - s.lastCacheRefresh

instance decidableExpired (now : ℕ) : Decidable (s.expired now) :=
  inferInstanceAs (Decidable (CACHE_TTL_MS < now - s.lastCacheRefresh))

/-- The call goes on to wait for something else. -/
def put (n : ℕ) (c : Call) : State := { s with calls := s.calls.set n c }

def setFlag (a : Arguments) : State :=
  match a.validate with
  | .error message => { s with calls := s.calls ++ [.done (.threw message)] }
  | .ok c => { s with calls := s.calls.map (·.unsettle c.flagName) ++ [.lookup c] }

def refreshCache (e : Option Evaluation) : State :=
  { s with cache := fun _ ↦ none, calls := s.calls ++ [.query e] }

def evaluation (flagName : String) (apiKeyId environment : Option String) (defaultValue : Bool) :
    Evaluation :=
  ⟨flagName, apiKeyId, environment, defaultValue, s.settled flagName⟩

def isFeatureEnabled (e : Evaluation) (now : ℕ) : State :=
  if e.flagName = "" then { s with calls := s.calls ++ [.done (.enabled e.defaultValue)] }
  else if s.expired now then s.refreshCache (some e)
  else { s with calls := s.calls ++ [.read e] }

def write (n : ℕ) (c : Change) (table : Table FlagRow) : State :=
  { s with
    table := table
    calls := s.calls.set n (.written c)
    written := Function.update s.written c.slot (some c.enabled) }

def loaded : Option Evaluation → Call
  | some e => .read e
  | none => .done .refreshed

def resume (n : ℕ) (fault : Option String) (now : ℕ) : State :=
  match s.calls[n]?, fault with
  | some (.lookup c), none => s.put n (.write c (getFlag s.table c.flagName c.scope c.scopeValue))
  | some (.write c (some existing)), none =>
    s.write n c (s.table.update (·.1 = existing.1) (c.assign existing.2))
  | some (.write c none), none =>
    if violatesUnique s.table c.row then
      s.put n (.done (.threw duplicateMessage))
    else s.write n c (s.table.insert c.row)
  | some (.reread c), none =>
    s.put n (.done (.flag (getFlag s.table c.flagName c.scope c.scopeValue)))
  | some (.lookup _), some message | some (.write _ _), some message
  | some (.reread _), some message => s.put n (.done (.threw message))
  | some (.written c), _ =>
    { s.put n (.reread c) with cache := dropFlag s.cache c.flagName, lastCacheRefresh := 0 }
  | some (.query e), none => s.put n (.rows e s.table.rows)
  | some (.query e), some _ => s.put n (loaded e)
  | some (.rows e flags), _ =>
    { s.put n (loaded e) with cache := install s.cache flags, lastCacheRefresh := now }
  | some (.read e), _ => s.put n (.done (.enabled (answer s.cache e)))
  | some (.done _), _ | none, _ => s

/-- The process is started again on the table. -/
def restart : State := { s with cache := fun _ ↦ none, lastCacheRefresh := 0, calls := [] }

end State

def step (s : State) : Action → State
  | .setFlag a => s.setFlag a
  | .refreshCache => s.refreshCache none
  | .isFeatureEnabled flagName apiKeyId environment defaultValue now =>
    s.isFeatureEnabled (s.evaluation flagName apiKeyId environment defaultValue) now
  | .resume n fault now => s.resume n fault now
  | .restart => s.restart

/-! ## What must hold -/

/-- What an evaluation has to find: what was written last, for the most specific scope. -/
def expected (written : String × Scope × Option String → Option Bool) (e : Evaluation) : Bool :=
  ((((orNull e.apiKeyId).bind fun apiKeyId ↦ written (e.flagName, .apiKey, some apiKeyId)).or
    ((orNull e.environment).bind fun environment ↦
      written (e.flagName, .environment, some environment))).or
    (written (e.flagName, .global, none))).getD e.defaultValue

/-- What was found by an evaluation that began after the last `setFlag` of its flag had returned and
with no refresh under way. -/
def FreshCall (s : State) : Call → Prop
  | .read e => e.settled = true → answer s.cache e = expected s.written e
  | .lookup _ | .write _ _ | .written _ | .reread _ | .query _ | .rows _ _ | .done _ => True

instance decidableFreshCall (s : State) : DecidablePred (FreshCall s)
  | .read e =>
    inferInstanceAs (Decidable (e.settled = true → answer s.cache e = expected s.written e))
  | .lookup _ | .write _ _ | .written _ | .reread _ | .query _ | .rows _ _ | .done _ =>
    .isTrue trivial

/-- Such an evaluation returns what was written last. The one of the empty name returns when it
begins. -/
def Fresh (s : State) : Action → Prop
  | .isFeatureEnabled flagName apiKeyId environment defaultValue _ =>
    flagName = "" → s.settled flagName = true →
      defaultValue = expected s.written (s.evaluation flagName apiKeyId environment defaultValue)
  | .resume n _ _ => ∀ call ∈ s.calls[n]?, FreshCall s call
  | .setFlag _ | .refreshCache | .restart => True

instance decidableFresh (s : State) : DecidablePred (Fresh s)
  | .isFeatureEnabled flagName apiKeyId environment defaultValue _ =>
    inferInstanceAs (Decidable (flagName = "" → s.settled flagName = true →
      defaultValue = expected s.written (s.evaluation flagName apiKeyId environment defaultValue)))
  | .resume n _ _ => inferInstanceAs (Decidable (∀ call ∈ s.calls[n]?, FreshCall s call))
  | .setFlag _ | .refreshCache | .restart => .isTrue trivial

/-- A flag, a scope and a value of the scope have one row at most. -/
def Unambiguous (flags : Flags) : Prop := ∀ r ∈ flags, ∀ r' ∈ flags, slot r = slot r' → r = r'

instance decidableUnambiguous : DecidablePred Unambiguous :=
  fun flags ↦ inferInstanceAs (Decidable (∀ r ∈ flags, ∀ r' ∈ flags, slot r = slot r' → r = r'))

/-- The call is no evaluation of a flag that has a row. -/
def Harmless (s : State) : Call → Prop
  | .read e => ∀ r ∈ s.table.rows, r.2.name ≠ e.flagName
  | .lookup _ | .write _ _ | .written _ | .reread _ | .query _ | .rows _ _ | .done _ => True

instance decidableHarmless (s : State) : DecidablePred (Harmless s)
  | .read e => inferInstanceAs (Decidable (∀ r ∈ s.table.rows, r.2.name ≠ e.flagName))
  | .lookup _ | .write _ _ | .written _ | .reread _ | .query _ | .rows _ _ | .done _ =>
    .isTrue trivial

/-- No evaluation of a flag that has a row is about to read the cache. -/
def Unread (s : State) : Prop := ∀ call ∈ s.calls, Harmless s call

instance decidableUnread (s : State) : Decidable (Unread s) :=
  inferInstanceAs (Decidable (∀ call ∈ s.calls, Harmless s call))

/-- What the rows that were read say about the flags is still so, except for those that a `setFlag`
has written and will drop from the cache. -/
def UpToDate (s : State) (flags : Flags) : Prop :=
  ∀ r ∈ s.table.rows, (∃ r' ∈ flags, r'.1 = r.1 ∧ r'.2.enabled = r.2.enabled) ∨
    ∃ c ∈ s.calls, c.pending r.2.name = true

instance decidableUpToDate (s : State) : DecidablePred (UpToDate s) :=
  fun flags ↦ inferInstanceAs (Decidable (∀ r ∈ s.table.rows,
    (∃ r' ∈ flags, r'.1 = r.1 ∧ r'.2.enabled = r.2.enabled) ∨
      ∃ c ∈ s.calls, c.pending r.2.name = true))

/-- No row is inserted for a flag, a scope and a value that have one; a refresh can read the table;
and what it loads is up to date. -/
def ProperCall (s : State) (fault : Option String) : Call → Prop
  | .write c none => fault = none → violatesUnique s.table c.row = false →
      ∀ r ∈ s.table.rows, slot r ≠ c.slot
  | .query _ => fault = none
  | .rows _ flags => UpToDate s flags
  | .lookup _ | .write _ (some _) | .written _ | .reread _ | .read _ | .done _ => True

instance decidableProperCall (s : State) (fault : Option String) :
    DecidablePred (ProperCall s fault)
  | .write c none => inferInstanceAs (Decidable (fault = none →
      violatesUnique s.table c.row = false → ∀ r ∈ s.table.rows, slot r ≠ c.slot))
  | .query _ => inferInstanceAs (Decidable (fault = none))
  | .rows _ flags => inferInstanceAs (Decidable (UpToDate s flags))
  | .lookup _ | .write _ (some _) | .written _ | .reread _ | .read _ | .done _ => .isTrue trivial

/-- The condition. The clock shows more than the lifetime of the cache, the empty name has no row,
and the cache is not emptied under an evaluation that is about to read it. -/
def Proper (s : State) : Action → Prop
  | .refreshCache => Unread s
  | .isFeatureEnabled flagName _ _ _ now => CACHE_TTL_MS < now ∧
      (flagName = "" → ∀ r ∈ s.table.rows, r.2.name ≠ "") ∧
      (flagName ≠ "" → s.expired now → Unread s)
  | .resume n fault _ => ∀ call ∈ s.calls[n]?, ProperCall s fault call
  | .setFlag _ | .restart => True

instance decidableProper (s : State) : DecidablePred (Proper s)
  | .refreshCache => inferInstanceAs (Decidable (Unread s))
  | .isFeatureEnabled flagName _ _ _ now => inferInstanceAs (Decidable (CACHE_TTL_MS < now ∧
      (flagName = "" → ∀ r ∈ s.table.rows, r.2.name ≠ "") ∧
      (flagName ≠ "" → s.expired now → Unread s)))
  | .resume n fault _ => inferInstanceAs (Decidable (∀ call ∈ s.calls[n]?, ProperCall s fault call))
  | .setFlag _ | .restart => .isTrue trivial

/-! ## The keys of the cache -/

theorem ne_colon_of_mem_text {scope : Scope} : ∀ c ∈ scope.text.toList, c ≠ ':' := by
  cases scope <;> simp [Scope.text]

/-- What follows the scope in a `scopeKey`. -/
def keySuffix : Option String → List Char
  | some scopeValue => ':' :: scopeValue.toList
  | none => []

theorem toList_scopeKey (scope : Scope) (scopeValue : Option String) :
    (scopeKey scope scopeValue).toList = scope.text.toList ++ keySuffix (orNull scopeValue) := by
  rw [scopeKey]
  cases orNull scopeValue with
  | none => exact (List.append_nil _).symm
  | some v =>
    have hcolon : ":".toList = [':'] := rfl
    simp only [String.toList_append, List.append_assoc, keySuffix, hcolon, List.singleton_append]

theorem keySuffix_injective : Function.Injective keySuffix := by
  rintro (_ | v) (_ | v') h
  · rfl
  · cases h
  · cases h
  · rw [String.toList_inj.mp (List.tail_eq_of_cons_eq h)]

theorem takeWhile_scopeKey (scope : Scope) (scopeValue : Option String) :
    (scopeKey scope scopeValue).toList.takeWhile (· ≠ ':') = scope.text.toList := by
  have hall : ∀ c ∈ scope.text.toList, decide (c ≠ ':') = true :=
    fun c hc ↦ decide_eq_true (ne_colon_of_mem_text c hc)
  have hnone : (keySuffix (orNull scopeValue)).takeWhile (· ≠ ':') = [] := by
    cases orNull scopeValue with
    | none => rfl
    | some v => exact List.takeWhile_cons_of_neg (by simp)
  rw [toList_scopeKey, List.takeWhile_append_of_pos hall, hnone, List.append_nil]

theorem text_injective {scope scope' : Scope} (h : scope.text.toList = scope'.text.toList) :
    scope = scope' := by
  cases scope <;> cases scope' <;> first | rfl | exact absurd h (by decide)

theorem scopeKey_eq_iff {scope scope' : Scope} {v v' : Option String} :
    scopeKey scope v = scopeKey scope' v' ↔ scope = scope' ∧ orNull v = orNull v' := by
  constructor
  · intro h
    have hscope : scope = scope' := by
      apply text_injective
      rw [← takeWhile_scopeKey scope v, ← takeWhile_scopeKey scope' v', h]
    subst hscope
    have hlist := congrArg String.toList h
    rw [toList_scopeKey, toList_scopeKey] at hlist
    exact ⟨rfl, keySuffix_injective (List.append_cancel_left hlist)⟩
  · rintro ⟨rfl, hv⟩
    rw [scopeKey, scopeKey, hv]

/-- Where a flag, a scope and a value of the scope are cached. -/
def slotKey (x : String × Scope × Option String) : String × String := (x.1, scopeKey x.2.1 x.2.2)

/-- The values of scopes that rows can be told apart by. -/
def Normal (x : String × Scope × Option String) : Prop := orNull x.2.2 = x.2.2

theorem normal_slot (r : ℕ × FlagRow) : Normal (slot r) := orNull_orNull _

theorem normal_changeSlot (c : Change) : Normal c.slot := orNull_orNull _

theorem slotKey_eq_iff {x y : String × Scope × Option String} (hx : Normal x) (hy : Normal y) :
    slotKey x = slotKey y ↔ x = y := by
  rw [slotKey, slotKey, Prod.mk.injEq, scopeKey_eq_iff, hx, hy, Prod.ext_iff, Prod.ext_iff]

theorem cacheKey_eq (r : ℕ × FlagRow) : cacheKey r = slotKey (slot r) := by
  rw [cacheKey, slotKey, Prod.mk.injEq, scopeKey_eq_iff]
  exact ⟨rfl, rfl, (orNull_orNull _).symm⟩

theorem cacheKey_eq_iff {r r' : ℕ × FlagRow} : cacheKey r = cacheKey r' ↔ slot r = slot r' := by
  rw [cacheKey_eq, cacheKey_eq, slotKey_eq_iff (normal_slot r) (normal_slot r')]

/-! ## What rows say -/

/-- What the rows say under a key of the cache. -/
def stored (flags : Flags) (k : String × String) : Option Bool :=
  (Log.latest cacheKey flags k).map (·.2.enabled)

variable {flags : Flags} {k : String × String} {t t' : Table FlagRow} {c : Change}

theorem stored_eq_none_iff : stored flags k = none ↔ ∀ r ∈ flags, cacheKey r ≠ k := by
  rw [stored, Option.map_eq_none_iff, Log.latest_eq_none_iff]

theorem install_apply (cache : Cache) : install cache flags k = (stored flags k).or (cache k) :=
  Log.foldl_update_apply (fun r : ℕ × FlagRow ↦ r.2.enabled) cache

theorem Unambiguous.stored_eq_some_iff (h : Unambiguous flags) {enabled : Bool} :
    stored flags k = some enabled ↔ ∃ r ∈ flags, cacheKey r = k ∧ r.2.enabled = enabled := by
  have hkey : ∀ r ∈ flags, ∀ r' ∈ flags, cacheKey r = cacheKey r' → r = r' :=
    fun r hr r' hr' heq ↦ h r hr r' hr' (cacheKey_eq_iff.mp heq)
  rw [stored, Option.map_eq_some_iff]
  constructor
  · rintro ⟨r, hr, henabled⟩
    obtain ⟨hmem, hk⟩ := Log.mem_of_latest hr
    exact ⟨r, hmem, hk, henabled⟩
  · rintro ⟨r, hmem, hk, henabled⟩
    exact ⟨r, (Log.latest_eq_some_iff hkey).mpr ⟨hmem, hk⟩, henabled⟩

theorem stored_insert : stored (t.insert c.row).rows k =
    if slotKey c.slot = k then some c.enabled else stored t.rows k := by
  have hkey : cacheKey (t.nextId, c.row) = slotKey c.slot := cacheKey_eq _
  rw [stored, Table.insert, Log.latest_concat, hkey]
  split_ifs <;> rfl

@[simp] theorem slot_assign (p : ℕ × FlagRow → Bool) (old : FlagRow) (r : ℕ × FlagRow) :
    slot (Table.assign p (c.assign old) r) = slot r := by
  rw [Table.assign]
  split_ifs <;> rfl

theorem stored_update (h : Unambiguous t.rows) {id : ℕ} {row old : FlagRow}
    (hmem : (id, row) ∈ t.rows) (hslot : slot (id, row) = c.slot) :
    stored (t.update (·.1 = id) (c.assign old)).rows k =
      if slotKey c.slot = k then some c.enabled else stored t.rows k := by
  have hkey : cacheKey (id, row) = slotKey c.slot := by rw [cacheKey_eq, hslot]
  have hlatest : Log.latest cacheKey (t.update (·.1 = id) (c.assign old)).rows k =
      (Log.latest cacheKey t.rows k).map (Table.assign (·.1 = id) (c.assign old)) :=
    Log.latest_map fun r ↦ cacheKey_eq_iff.mpr (slot_assign _ old r)
  rw [stored, hlatest, Option.map_map]
  split_ifs with hk
  · have hrow : Log.latest cacheKey t.rows k = some (id, row) :=
      (Log.latest_eq_some_iff fun r hr r' hr' heq ↦ h r hr r' hr' (cacheKey_eq_iff.mp heq)).mpr
        ⟨hmem, hkey.trans hk⟩
    rw [hrow, Option.map_some, Function.comp_apply, Table.assign, if_pos (decide_eq_true rfl)]
    rfl
  · rw [stored]
    cases hrow : Log.latest cacheKey t.rows k with
    | none => rfl
    | some r =>
      -- the row with the number is about something else
      obtain ⟨hr, hrkey⟩ := Log.mem_of_latest hrow
      have hne : r.1 ≠ id := by
        intro hid
        have heq : r = (id, row) := (Table.known_of_mem hmem).2 r hr hid
        rw [heq, hkey] at hrkey
        exact hk hrkey
      rw [Option.map_some, Option.map_some, Function.comp_apply, Table.assign,
        if_neg (by simpa using hne)]

/-! ## Rows that have been read -/

/-- Every row of the first table has one in the second that is about the same. -/
def Carried (t t' : Table FlagRow) : Prop :=
  ∀ r ∈ t.rows, ∃ r' ∈ t'.rows, r'.1 = r.1 ∧ slot r' = slot r

theorem carried_insert (row : FlagRow) : Carried t (t.insert row) :=
  fun r hr ↦ ⟨r, Table.mem_insert.mpr (.inl hr), rfl, rfl⟩

theorem carried_update (p : ℕ × FlagRow → Bool) (old : FlagRow) :
    Carried t (t.update p (c.assign old)) :=
  fun r hr ↦ ⟨_, Table.mem_update.mpr ⟨r, hr, rfl⟩, Table.fst_assign _ _ r, slot_assign p old r⟩

/-- The rows were read from the table; it may have changed since. -/
structure ReadFrom (t : Table FlagRow) (flags : Flags) : Prop where
  nodup : (flags.map Prod.fst).Nodup
  row : ∀ r ∈ flags, ∃ r' ∈ t.rows, r'.1 = r.1 ∧ slot r' = slot r

theorem readFrom_self (t : Table FlagRow) : ReadFrom t t.rows :=
  ⟨t.nodup, fun r hr ↦ ⟨r, hr, rfl, rfl⟩⟩

theorem ReadFrom.carried (h : ReadFrom t flags) (ht : Carried t t') : ReadFrom t' flags := by
  refine ⟨h.nodup, fun r hr ↦ ?_⟩
  obtain ⟨r₁, hr₁, hid₁, hslot₁⟩ := h.row r hr
  obtain ⟨r₂, hr₂, hid₂, hslot₂⟩ := ht r₁ hr₁
  exact ⟨r₂, hr₂, hid₂.trans hid₁, hslot₂.trans hslot₁⟩

theorem ReadFrom.unambiguous (h : ReadFrom t flags) (ht : Unambiguous t.rows) :
    Unambiguous flags := by
  intro r hr r' hr' hslot
  obtain ⟨r₁, hr₁, hid₁, hslot₁⟩ := h.row r hr
  obtain ⟨r₂, hr₂, hid₂, hslot₂⟩ := h.row r' hr'
  have heq : r₁ = r₂ := ht r₁ hr₁ r₂ hr₂ (by rw [hslot₁, hslot₂, hslot])
  exact List.inj_on_of_nodup_map h.nodup hr hr' (by rw [← hid₁, ← hid₂, heq])

theorem ReadFrom.stored_eq_none (h : ReadFrom t flags) (hk : stored t.rows k = none) :
    stored flags k = none := by
  rw [stored_eq_none_iff] at hk ⊢
  intro r hr hkey
  obtain ⟨r', hr', -, hslot⟩ := h.row r hr
  exact hk r' hr' ((cacheKey_eq_iff.mpr hslot).trans hkey)

theorem ReadFrom.stored_eq (h : ReadFrom t flags) (ht : Unambiguous t.rows) (flagName : String)
    (hcurrent : ∀ r ∈ t.rows, r.2.name = flagName →
      ∃ r' ∈ flags, r'.1 = r.1 ∧ r'.2.enabled = r.2.enabled) (key : String) :
    stored flags (flagName, key) = stored t.rows (flagName, key) := by
  cases hstored : stored t.rows (flagName, key) with
  | none => exact h.stored_eq_none hstored
  | some enabled =>
    obtain ⟨r, hr, hkey, henabled⟩ := ht.stored_eq_some_iff.mp hstored
    obtain ⟨r', hr', hid, hsame⟩ := hcurrent r hr (congrArg Prod.fst hkey)
    obtain ⟨r₁, hr₁, hid₁, hslot⟩ := h.row r' hr'
    have heq : r₁ = r := List.inj_on_of_nodup_map t.nodup hr₁ hr (hid₁.trans hid)
    refine (h.unambiguous ht).stored_eq_some_iff.mpr ⟨r', hr', ?_, hsame.trans henabled⟩
    rw [← hkey, ← heq]
    exact (cacheKey_eq_iff.mpr hslot).symm

/-! ## The invariant -/

/-- The cache holds what the table says about a flag. -/
def Copied (s : State) (flagName : String) : Prop :=
  ∀ key, s.cache (flagName, key) = stored s.table.rows (flagName, key)

def CallSound (s : State) : Call → Prop
  | .write c (some existing) => ∃ r ∈ s.table.rows, r.1 = existing.1 ∧ slot r = c.slot
  | .rows _ flags => ReadFrom s.table flags
  | .read e => e.settled = true → Copied s e.flagName
  | .lookup _ | .write _ none | .written _ | .reread _ | .query _ | .done _ => True

/-- The cache holds what the table says about all flags, unless it will be loaded again or be
dropped before it is used. -/
def Filled (s : State) : Prop :=
  s.lastCacheRefresh = 0 ∨ (∃ c ∈ s.calls, c.refreshes = true) ∨
    ∀ flagName, (∃ c ∈ s.calls, c.pending flagName = true) ∨ Copied s flagName

/-- The table has one row for what was written, the cache has nothing that the table has not, and
evaluations that count have no `setFlag` of their flag beside them. -/
structure Sound (s : State) : Prop where
  unambiguous : Unambiguous s.table.rows
  written : ∀ x, Normal x → s.written x = stored s.table.rows (slotKey x)
  cached : ∀ k, stored s.table.rows k = none → s.cache k = none
  calls : ∀ c ∈ s.calls, CallSound s c
  settled : ∀ c ∈ s.calls, ∀ e, c.evaluation = some e → e.settled = true →
    ∀ c' ∈ s.calls, c'.writes e.flagName = false
  filled : Filled s

theorem sound_start : Sound State.start where
  unambiguous _ hr := nomatch hr
  written _ _ := rfl
  cached _ _ := rfl
  calls _ hc := nomatch hc
  settled _ hc := nomatch hc
  filled := .inl rfl

variable {s : State} {n : ℕ} {call call' : Call}

theorem writes_of_pending {flagName : String} (h : call.pending flagName = true) :
    call.writes flagName = true := by
  cases call with
  | written c => exact h
  | _ => cases h

theorem exists_of_append {p : Call → Prop} (h : ∃ c ∈ s.calls, p c) :
    ∃ c ∈ s.calls ++ [call], p c := by
  obtain ⟨c, hc, hp⟩ := h
  exact ⟨c, List.mem_append_left _ hc, hp⟩

theorem Sound.append (h : Sound s) (hcall : CallSound s call)
    (hsettled : ∀ e, call.evaluation = some e → e.settled = true →
      ∀ c ∈ s.calls, c.writes e.flagName = false)
    (hself : ∀ e, call.evaluation = some e → call.writes e.flagName = false)
    (hwrites : ∀ c ∈ s.calls, ∀ e, c.evaluation = some e → e.settled = true →
      call.writes e.flagName = false) :
    Sound { s with calls := s.calls ++ [call] } where
  unambiguous := h.unambiguous
  written := h.written
  cached := h.cached
  calls c hc := by
    rcases List.mem_append.mp hc with hc | hc
    · exact h.calls c hc
    · rw [List.mem_singleton.mp hc]
      exact hcall
  settled c hc e he hes c' hc' := by
    rcases List.mem_append.mp hc with hc | hc <;> rcases List.mem_append.mp hc' with hc' | hc'
    · exact h.settled c hc e he hes c' hc'
    · rw [List.mem_singleton.mp hc']
      exact hwrites c hc e he hes
    · rw [List.mem_singleton.mp hc] at he
      exact hsettled e he hes c' hc'
    · rw [List.mem_singleton.mp hc] at he
      rw [List.mem_singleton.mp hc']
      exact hself e he
  filled := by
    rcases h.filled with hlast | hrefreshes | hcopied
    · exact .inl hlast
    · exact .inr (.inl (exists_of_append hrefreshes))
    · refine .inr (.inr fun flagName ↦ ?_)
      exact (hcopied flagName).imp exists_of_append id

theorem Sound.put (h : Sound s) (hget : s.calls[n]? = some call) (hcall : CallSound s call')
    (hevaluation : ∀ e, call'.evaluation = some e → call.evaluation = some e)
    (hwrites : ∀ flagName, call'.writes flagName = true → call.writes flagName = true)
    (hfilled : Filled (s.put n call')) : Sound (s.put n call') where
  unambiguous := h.unambiguous
  written := h.written
  cached := h.cached
  calls c hc := by
    rcases List.mem_or_eq_of_mem_set hc with hc | rfl
    · exact h.calls c hc
    · exact hcall
  settled c hc e he hes c' hc' := by
    have hmem := List.mem_of_getElem? hget
    have hold : ∀ c' ∈ s.calls, c'.writes e.flagName = false := by
      rcases List.mem_or_eq_of_mem_set hc with hc | rfl
      · exact h.settled c hc e he hes
      · exact h.settled call hmem e (hevaluation e he) hes
    rcases List.mem_or_eq_of_mem_set hc' with hc' | rfl
    · exact hold c' hc'
    · exact Bool.eq_false_iff.mpr fun hw ↦
        Bool.eq_false_iff.mp (hold call hmem) (hwrites _ hw)
  filled := hfilled

theorem Filled.put (h : Filled s) (hget : s.calls[n]? = some call)
    (hrefreshes : call.refreshes = true → call'.refreshes = true)
    (hpending : ∀ flagName, call.pending flagName = false) : Filled (s.put n call') := by
  rcases h with hlast | ⟨c, hc, hrefresh⟩ | hcopied
  · exact .inl hlast
  · by_cases hself : c = call
    · subst hself
      exact .inr (.inl ⟨call', mem_set_self hget, hrefreshes hrefresh⟩)
    · exact .inr (.inl ⟨c, mem_set_of_ne hc hget hself, hrefresh⟩)
  · refine .inr (.inr fun flagName ↦ ?_)
    rcases hcopied flagName with ⟨c, hc, hpend⟩ | hcopied
    · have hself : c ≠ call := by
        rintro rfl
        rw [hpending] at hpend
        cases hpend
      exact .inl ⟨c, mem_set_of_ne hc hget hself, hpend⟩
    · exact .inr hcopied

/-! ## Steps -/

@[simp] theorem writes_unsettle (flagName other : String) :
    (call.unsettle flagName).writes other = call.writes other := by
  cases call <;> rfl

@[simp] theorem refreshes_unsettle (flagName : String) :
    (call.unsettle flagName).refreshes = call.refreshes := by
  cases call <;> rfl

@[simp] theorem pending_unsettle (flagName other : String) :
    (call.unsettle flagName).pending other = call.pending other := by
  cases call <;> rfl

/-- The evaluations that still count are not of the flag. -/
theorem evaluation_unsettle {flagName : String} {e : Evaluation}
    (h : (call.unsettle flagName).evaluation = some e) (hsettled : e.settled = true) :
    e.flagName ≠ flagName ∧ ∃ e', call.evaluation = some e' ∧ e'.flagName = e.flagName ∧
      e'.settled = true := by
  have hmap : call.evaluation.map (·.unsettle flagName) = some e := by
    cases call <;> exact h
  obtain ⟨e', he', rfl⟩ := Option.map_eq_some_iff.mp hmap
  simp only [Evaluation.unsettle, Bool.and_eq_true, decide_eq_true_iff] at hsettled
  exact ⟨hsettled.2, e', he', rfl, hsettled.1⟩

theorem CallSound.unsettle (h : CallSound s call) (flagName : String) :
    CallSound s (call.unsettle flagName) := by
  cases call with
  | read e =>
    intro hsettled
    simp only [Evaluation.unsettle, Bool.and_eq_true] at hsettled
    exact h hsettled.1
  | write c existing =>
    cases existing <;> exact h
  | _ => exact h

/-- A `setFlag` begins: the evaluations of the flag that are under way no longer count. -/
theorem Sound.setFlag (h : Sound s) (a : Arguments) : Sound (s.setFlag a) := by
  rw [State.setFlag]
  split
  · exact h.append trivial (fun e he ↦ nomatch he) (fun e he ↦ nomatch he) fun _ _ _ _ _ ↦ rfl
  · next c _ =>
    have hmap : Sound { s with calls := s.calls.map (·.unsettle c.flagName) } := by
      refine ⟨h.unambiguous, h.written, h.cached, fun c₁ hc₁ ↦ ?_, fun c₁ hc₁ e he hes c₂ hc₂ ↦ ?_,
        ?_⟩
      · obtain ⟨c₀, hc₀, rfl⟩ := List.mem_map.mp hc₁
        exact (h.calls c₀ hc₀).unsettle c.flagName
      · obtain ⟨c₀, hc₀, rfl⟩ := List.mem_map.mp hc₁
        obtain ⟨c₀', hc₀', rfl⟩ := List.mem_map.mp hc₂
        obtain ⟨-, e', he', hname, hes'⟩ := evaluation_unsettle he hes
        rw [writes_unsettle, ← hname]
        exact h.settled c₀ hc₀ e' he' hes' c₀' hc₀'
      · rcases h.filled with hlast | ⟨c₁, hc₁, hrefreshes⟩ | hcopied
        · exact .inl hlast
        · refine .inr (.inl ⟨_, List.mem_map_of_mem hc₁, ?_⟩)
          rwa [refreshes_unsettle]
        · refine .inr (.inr fun flagName ↦ (hcopied flagName).imp ?_ id)
          rintro ⟨c₁, hc₁, hpending⟩
          refine ⟨_, List.mem_map_of_mem hc₁, ?_⟩
          rwa [pending_unsettle]
    refine hmap.append trivial (fun e he ↦ nomatch he) (fun e he ↦ nomatch he) ?_
    intro c₁ hc₁ e he hes
    obtain ⟨c₀, -, rfl⟩ := List.mem_map.mp hc₁
    exact decide_eq_false (evaluation_unsettle he hes).1.symm

theorem Sound.clear (h : Sound s) (hunread : Unread s) (e : Option Evaluation)
    (hsettled : ∀ e', e = some e' → e'.settled = true → s.settled e'.flagName = true) :
    Sound (s.refreshCache e) := by
  have hwrites : ∀ e', e = some e' → e'.settled = true → ∀ c ∈ s.calls,
      c.writes e'.flagName = false := by
    intro e' he' hes c hc
    have hall := List.all_eq_true.mp (hsettled e' he' hes) c hc
    simp only [Bool.and_eq_true, Bool.not_eq_true'] at hall
    exact hall.1
  refine ⟨h.unambiguous, h.written, fun _ _ ↦ rfl, fun c hc ↦ ?_, fun c hc e' he' hes c' hc' ↦ ?_,
    .inr (.inl ⟨.query e, List.mem_append_right _ (List.mem_singleton_self _), rfl⟩)⟩
  · rcases List.mem_append.mp hc with hc | hc
    · cases c with
      | read e' =>
        intro hes key
        -- the table has no row for the flag, so that nothing was lost
        refine (stored_eq_none_iff.mpr fun r hr hkey ↦ ?_).symm
        exact hunread _ hc r hr (congrArg Prod.fst hkey)
      | write c existing => cases existing <;> exact h.calls _ hc
      | _ => exact h.calls _ hc
    · rw [List.mem_singleton.mp hc]
      trivial
  · have hold : c' ∈ s.calls → c'.writes e'.flagName = false := by
      intro hmem
      rcases List.mem_append.mp hc with hc | hc
      · exact h.settled c hc e' he' hes c' hmem
      · rw [List.mem_singleton.mp hc] at he'
        exact hwrites e' he' hes c' hmem
    rcases List.mem_append.mp hc' with hc' | hc'
    · exact hold hc'
    · rw [List.mem_singleton.mp hc']
      rfl

theorem not_writes_of_settled {flagName : String} (h : s.settled flagName = true) :
    ∀ c ∈ s.calls, c.writes flagName = false ∧ c.refreshes = false := by
  intro c hc
  have hall := List.all_eq_true.mp h c hc
  simpa only [Bool.and_eq_true, Bool.not_eq_true'] using hall

/-- A cache that is fresh holds what the table says about a flag that is settled. -/
theorem Sound.copied_of_settled (h : Sound s) {flagName : String} (hlast : s.lastCacheRefresh ≠ 0)
    (hsettled : s.settled flagName = true) : Copied s flagName := by
  have hcalls := not_writes_of_settled hsettled
  rcases h.filled with hzero | ⟨c, hc, hrefreshes⟩ | hcopied
  · exact absurd hzero hlast
  · rw [(hcalls c hc).2] at hrefreshes
    cases hrefreshes
  · rcases hcopied flagName with ⟨c, hc, hpending⟩ | hcopied
    · have hwrites := writes_of_pending hpending
      rw [(hcalls c hc).1] at hwrites
      cases hwrites
    · exact hcopied

theorem Sound.isFeatureEnabled (h : Sound s) {e : Evaluation} {now : ℕ}
    (hsettled : e.settled = s.settled e.flagName) (hnow : CACHE_TTL_MS < now)
    (hunread : e.flagName ≠ "" → s.expired now → Unread s) : Sound (s.isFeatureEnabled e now) := by
  rw [State.isFeatureEnabled]
  split_ifs with hname hexpired
  · exact h.append trivial (fun _ he ↦ nomatch he) (fun _ he ↦ nomatch he) fun _ _ _ _ _ ↦ rfl
  · refine h.clear (hunread hname hexpired) (some e) fun e' he' hes ↦ ?_
    obtain rfl := Option.some.inj he'
    rwa [← hsettled]
  · have hlast : s.lastCacheRefresh ≠ 0 := by
      intro hzero
      rw [State.expired, hzero] at hexpired
      exact hexpired hnow
    have hcopied : e.settled = true → Copied s e.flagName :=
      fun hes ↦ h.copied_of_settled hlast (hsettled ▸ hes)
    refine h.append hcopied (fun e' he' hes c hc ↦ ?_) (fun _ _ ↦ rfl) fun _ _ _ _ _ ↦ rfl
    obtain rfl := Option.some.inj he'
    exact (not_writes_of_settled (hsettled ▸ hes) c hc).1

theorem Sound.write (h : Sound s) {existing : Option (ℕ × FlagRow)}
    (hget : s.calls[n]? = some (.write c existing)) (hun : Unambiguous t.rows)
    (hcarried : Carried s.table t)
    (hstored : ∀ k, stored t.rows k =
      if slotKey c.slot = k then some c.enabled else stored s.table.rows k) :
    Sound (s.write n c t) := by
  have hmem : Call.write c existing ∈ s.calls := List.mem_of_getElem? hget
  have hother : ∀ {flagName}, flagName ≠ c.flagName → Copied s flagName →
      Copied (s.write n c t) flagName := by
    intro flagName hne hcopied key
    have hkey : slotKey c.slot ≠ (flagName, key) := fun heq ↦ hne (congrArg Prod.fst heq).symm
    exact (hcopied key).trans ((hstored _).trans (if_neg hkey)).symm
  refine ⟨hun, fun x hx ↦ ?_, fun k hk ↦ ?_, fun c' hc' ↦ ?_, fun c₁ hc₁ e he hes c₂ hc₂ ↦ ?_, ?_⟩
  · -- a row for what is written, and the others as before
    have hstep : (s.write n c t).written x =
        if x = c.slot then some c.enabled else s.written x := Function.update_apply _ _ _ x
    rw [hstep, State.write, hstored, h.written x hx]
    simp only [slotKey_eq_iff (normal_changeSlot c) hx, eq_comm]
  · have hnone : stored s.table.rows k = none := by
      have hk' : stored t.rows k = none := hk
      rw [hstored] at hk'
      split_ifs at hk'
      exact hk'
    exact h.cached k hnone
  · rcases List.mem_or_eq_of_mem_set hc' with hc' | rfl
    · have hsound := h.calls c' hc'
      cases c' with
      | write c₁ existing₁ =>
        cases existing₁ with
        | none => trivial
        | some existing₁ =>
          obtain ⟨r, hr, hid, hslot⟩ := hsound
          obtain ⟨r', hr', hid', hslot'⟩ := hcarried r hr
          exact ⟨r', hr', hid'.trans hid, hslot'.trans hslot⟩
      | rows e flags => exact ReadFrom.carried hsound hcarried
      | read e =>
        intro hes
        have hne : e.flagName ≠ c.flagName := by
          intro heq
          have hwrites := h.settled _ hc' e rfl hes _ hmem
          rw [heq] at hwrites
          exact absurd (decide_eq_true rfl) (Bool.eq_false_iff.mp hwrites)
        exact hother hne (hsound hes)
      | _ => trivial
    · trivial
  · have hold : ∀ c₂ ∈ s.calls, c₂.writes e.flagName = false := by
      rcases List.mem_or_eq_of_mem_set hc₁ with hc₁ | rfl
      · exact h.settled c₁ hc₁ e he hes
      · cases he
    rcases List.mem_or_eq_of_mem_set hc₂ with hc₂ | rfl
    · exact hold c₂ hc₂
    · exact hold (.write c existing) hmem
  · rcases h.filled with hlast | ⟨c', hc', hrefreshes⟩ | hcopied
    · exact .inl hlast
    · have hne : c' ≠ .write c existing := by
        rintro rfl
        cases hrefreshes
      exact .inr (.inl ⟨c', mem_set_of_ne hc' hget hne, hrefreshes⟩)
    · refine .inr (.inr fun flagName ↦ ?_)
      by_cases hname : flagName = c.flagName
      · exact .inl ⟨.written c, mem_set_self hget, decide_eq_true hname.symm⟩
      · rcases hcopied flagName with ⟨c', hc', hpending⟩ | hcopied
        · have hne : c' ≠ .write c existing := by
            rintro rfl
            cases hpending
          exact .inl ⟨c', mem_set_of_ne hc' hget hne, hpending⟩
        · exact .inr (hother hname hcopied)

theorem Sound.invalidate (h : Sound s) (hget : s.calls[n]? = some (.written c)) :
    Sound { s.put n (.reread c) with
      cache := dropFlag s.cache c.flagName, lastCacheRefresh := 0 } := by
  have hmem : Call.written c ∈ s.calls := List.mem_of_getElem? hget
  have hdrop : Sound { s with cache := dropFlag s.cache c.flagName, lastCacheRefresh := 0 } := by
    refine ⟨h.unambiguous, h.written, fun k hk ↦ ?_, fun c' hc' ↦ ?_, h.settled, .inl rfl⟩
    · simp only [dropFlag]
      split_ifs
      · rfl
      · exact h.cached k hk
    · have hsound := h.calls c' hc'
      cases c' with
      | write c' existing => cases existing <;> exact hsound
      | read e =>
        intro hes key
        have hne : e.flagName ≠ c.flagName := by
          intro heq
          have hwrites := h.settled _ hc' e rfl hes _ hmem
          rw [heq] at hwrites
          exact absurd (decide_eq_true rfl) (Bool.eq_false_iff.mp hwrites)
        exact (if_neg hne).trans (hsound hes key)
      | _ => exact hsound
  exact hdrop.put hget trivial (fun _ he ↦ nomatch he) (fun _ hwrites ↦ hwrites) (.inl rfl)

theorem Sound.load (h : Sound s) {e : Option Evaluation} (now : ℕ)
    (hget : s.calls[n]? = some (.rows e flags)) (hup : UpToDate s flags) :
    Sound { s.put n (State.loaded e) with
      cache := install s.cache flags, lastCacheRefresh := now } := by
  have hmem : Call.rows e flags ∈ s.calls := List.mem_of_getElem? hget
  have hread : ReadFrom s.table flags := h.calls _ hmem
  -- a flag of which no write is pending is copied
  have hcopied : ∀ flagName, (∀ c ∈ s.calls, c.pending flagName = false) →
      ∀ key, install s.cache flags (flagName, key) = stored s.table.rows (flagName, key) := by
    intro flagName hnone key
    rw [install_apply, hread.stored_eq h.unambiguous flagName]
    · cases hstored : stored s.table.rows (flagName, key) with
      | some _ => rfl
      | none => exact h.cached _ hstored
    · intro r hr hname
      rcases hup r hr with hsame | ⟨c, hc, hpending⟩
      · exact hsame
      · rw [hname, hnone c hc] at hpending
        cases hpending
  have hsettled : ∀ c ∈ s.calls, ∀ e, c.evaluation = some e → e.settled = true →
      ∀ key, install s.cache flags (e.flagName, key) = stored s.table.rows (e.flagName, key) := by
    intro c hc e he hes
    refine hcopied e.flagName fun c' hc' ↦ Bool.eq_false_iff.mpr fun hpending ↦ ?_
    exact Bool.eq_false_iff.mp (h.settled c hc e he hes c' hc') (writes_of_pending hpending)
  have hinstall : Sound { s with cache := install s.cache flags, lastCacheRefresh := now } := by
    refine ⟨h.unambiguous, h.written, fun k hk ↦ ?_, fun c' hc' ↦ ?_, h.settled,
      .inr (.inl ⟨_, hmem, rfl⟩)⟩
    · exact (install_apply s.cache).trans (by rw [hread.stored_eq_none hk, h.cached k hk]; rfl)
    · have hsound := h.calls c' hc'
      cases c' with
      | write c' existing => cases existing <;> exact hsound
      | read e => exact fun hes ↦ hsettled _ hc' e rfl hes
      | _ => exact hsound
  refine hinstall.put hget ?_ (fun e' he' ↦ ?_) (fun flagName hwrites ↦ ?_) ?_
  · cases e with
    | none => trivial
    | some e => exact fun hes ↦ hsettled _ hmem e rfl hes
  · cases e with
    | none => cases he'
    | some e => exact he'
  · cases e <;> cases hwrites
  · refine .inr (.inr fun flagName ↦ ?_)
    by_cases hpending : ∃ c ∈ s.calls, c.pending flagName = true
    · obtain ⟨c, hc, hpending⟩ := hpending
      have hne : c ≠ .rows e flags := by
        rintro rfl
        cases hpending
      exact .inl ⟨c, mem_set_of_ne hc hget hne, hpending⟩
    · refine .inr (hcopied flagName fun c hc ↦ Bool.eq_false_iff.mpr fun hp ↦ ?_)
      exact hpending ⟨c, hc, hp⟩

theorem getFlag_eq_some {flagName : String} {scope : Scope} {scopeValue : Option String}
    {r : ℕ × FlagRow} (h : getFlag t flagName scope scopeValue = some r) :
    r ∈ t.rows ∧ slot r = (flagName, scope, orNull scopeValue) := by
  rw [getFlag] at h
  have hfound := List.find?_some h
  rw [decide_eq_true_iff] at hfound
  obtain ⟨hname, hscope, hvalue⟩ := hfound
  refine ⟨List.mem_of_find?_eq_some h, ?_⟩
  rw [slot, hname, hscope, hvalue, orNull_orNull]

theorem Unambiguous.insert (h : Unambiguous t.rows) (hnew : ∀ r ∈ t.rows, slot r ≠ c.slot) :
    Unambiguous (t.insert c.row).rows := by
  intro r hr r' hr' hslot
  rcases Table.mem_insert.mp hr with hr | rfl <;> rcases Table.mem_insert.mp hr' with hr' | rfl
  · exact h r hr r' hr' hslot
  · exact absurd hslot (hnew r hr)
  · exact absurd hslot.symm (hnew r' hr')
  · rfl

theorem Unambiguous.update (h : Unambiguous t.rows) (p : ℕ × FlagRow → Bool) (old : FlagRow) :
    Unambiguous (t.update p (c.assign old)).rows := by
  intro r hr r' hr' hslot
  obtain ⟨r₁, hr₁, rfl⟩ := Table.mem_update.mp hr
  obtain ⟨r₂, hr₂, rfl⟩ := Table.mem_update.mp hr'
  rw [slot_assign, slot_assign] at hslot
  rw [h r₁ hr₁ r₂ hr₂ hslot]

theorem Sound.resume (h : Sound s) {fault : Option String} {now : ℕ}
    (hproper : Proper s (.resume n fault now)) : Sound (s.resume n fault now) := by
  cases hget : s.calls[n]? with
  | none => simpa only [State.resume, hget] using h
  | some call =>
    have hcall : ProperCall s fault call := hproper call hget
    have hmem : call ∈ s.calls := List.mem_of_getElem? hget
    -- a call that ends
    have hdone : ∀ outcome, call.refreshes = false → (∀ flagName, call.pending flagName = false) →
        Sound (s.put n (.done outcome)) := fun outcome hrefreshes hpending ↦
      h.put hget trivial (fun _ he ↦ nomatch he) (fun _ hw ↦ nomatch hw)
        (h.filled.put hget (fun hr ↦ by rw [hrefreshes] at hr; cases hr) hpending)
    cases call with
    | lookup c =>
      cases fault with
      | some message => simpa only [State.resume, hget] using hdone _ rfl fun _ ↦ rfl
      | none =>
        simp only [State.resume, hget]
        refine h.put hget ?_ (fun _ he ↦ nomatch he) (fun _ hw ↦ hw)
          (h.filled.put hget (fun hr ↦ nomatch hr) fun _ ↦ rfl)
        cases hflag : getFlag s.table c.flagName c.scope c.scopeValue with
        | none => trivial
        | some r =>
          obtain ⟨hr, hslot⟩ := getFlag_eq_some hflag
          exact ⟨r, hr, rfl, hslot⟩
    | write c existing =>
      cases fault with
      | some message =>
        cases existing <;> simpa only [State.resume, hget] using hdone _ rfl fun _ ↦ rfl
      | none =>
        cases existing with
        | some existing =>
          simp only [State.resume, hget]
          obtain ⟨⟨id, row⟩, hr, rfl, hslot⟩ := h.calls _ hmem
          exact h.write hget (h.unambiguous.update _ _) (carried_update _ _)
            fun k ↦ stored_update h.unambiguous hr hslot
        | none =>
          simp only [State.resume, hget]
          split_ifs with hunique
          · exact hdone _ rfl fun _ ↦ rfl
          · have hnew := hcall rfl (Bool.eq_false_iff.mpr hunique)
            exact h.write hget (h.unambiguous.insert hnew) (carried_insert _)
              fun k ↦ stored_insert
    | written c =>
      have hstep := h.invalidate hget
      cases fault <;> simpa only [State.resume, hget] using hstep
    | reread c =>
      cases fault <;> simpa only [State.resume, hget] using hdone _ rfl fun _ ↦ rfl
    | query e =>
      obtain rfl := hcall
      simp only [State.resume, hget]
      exact h.put hget (readFrom_self s.table) (fun _ he ↦ he) (fun _ hw ↦ nomatch hw)
        (h.filled.put hget (fun _ ↦ rfl) fun _ ↦ rfl)
    | rows e flags =>
      have hstep := h.load now hget hcall
      cases fault <;> simpa only [State.resume, hget] using hstep
    | read e =>
      cases fault <;> simpa only [State.resume, hget] using hdone _ rfl fun _ ↦ rfl
    | done outcome =>
      cases fault <;> simpa only [State.resume, hget] using h

theorem Sound.restart (h : Sound s) : Sound s.restart :=
  ⟨h.unambiguous, h.written, fun _ _ ↦ rfl, fun _ hc ↦ (nomatch hc), fun _ hc ↦ (nomatch hc),
    .inl rfl⟩

theorem Sound.step (h : Sound s) {a : Action} (hproper : Proper s a) : Sound (step s a) := by
  cases a with
  | setFlag a => exact h.setFlag a
  | refreshCache => exact h.clear hproper none fun _ he ↦ nomatch he
  | isFeatureEnabled flagName apiKeyId environment defaultValue now =>
    exact h.isFeatureEnabled rfl hproper.1 hproper.2.2
  | resume n fault now => exact h.resume hproper
  | restart => exact h.restart

/-! ## Freshness -/

/-- An evaluation that reads from the cache what the table says finds what was written. -/
theorem Sound.answer_eq (h : Sound s) {e : Evaluation} (hcopied : Copied s e.flagName) :
    answer s.cache e = expected s.written e := by
  have hread : ∀ scope scopeValue, orNull scopeValue = scopeValue →
      s.cache (e.flagName, scopeKey scope scopeValue) =
        s.written (e.flagName, scope, scopeValue) :=
    fun scope scopeValue hnormal ↦
      (hcopied _).trans (h.written (e.flagName, scope, scopeValue) hnormal).symm
  have hbind : ∀ scope value, (orNull value).bind
      (fun v ↦ s.cache (e.flagName, scopeKey scope (some v))) =
        (orNull value).bind fun v ↦ s.written (e.flagName, scope, some v) := by
    intro scope value
    have hnormal := orNull_orNull value
    cases hv : orNull value with
    | none => rfl
    | some v =>
      rw [hv] at hnormal
      exact hread scope (some v) hnormal
  rw [answer, expected, hbind, hbind, hread .global none rfl]

theorem Sound.fresh (h : Sound s) {a : Action} (hproper : Proper s a) : Fresh s a := by
  cases a with
  | isFeatureEnabled flagName apiKeyId environment defaultValue now =>
    rintro rfl -
    have hnone : ∀ scope scopeValue, orNull scopeValue = scopeValue →
        s.written ("", scope, scopeValue) = none := by
      intro scope scopeValue hnormal
      rw [h.written ("", scope, scopeValue) hnormal, stored_eq_none_iff]
      exact fun r hr hkey ↦ hproper.2.1 rfl r hr (congrArg Prod.fst hkey)
    have hbind : ∀ scope value,
        ((orNull value).bind fun v ↦ s.written ("", scope, some v)) = none := by
      intro scope value
      have hnormal := orNull_orNull value
      cases hv : orNull value with
      | none => rfl
      | some v =>
        rw [hv] at hnormal
        exact hnone scope (some v) hnormal
    simp only [expected, State.evaluation, hbind, hnone .global none rfl, Option.or_none,
      Option.getD_none]
  | resume n fault now =>
    intro call hget
    cases call with
    | read e => exact fun hes ↦ h.answer_eq (h.calls _ (List.mem_of_getElem? hget) hes)
    | _ => trivial
  | _ => trivial

/-- **Freshness.** In a run whose steps meet the condition, every evaluation that begins after the
last `setFlag` of its flag returns what was written last for the most specific scope, and a flag, a
scope and a value of the scope never have two rows. -/
theorem fresh_of_proper (as : List Action) (h : Along step Proper State.start as) :
    Along step Fresh State.start as ∧
      Always step (fun s ↦ Unambiguous s.table.rows) State.start as := by
  have hsound : Always step Sound State.start as :=
    h.always (fun _ _ hs hproper ↦ hs.step hproper) sound_start
  exact ⟨h.of_always (fun _ _ hs hproper ↦ hs.fresh hproper) hsound,
    hsound.mono fun _ hs ↦ hs.unambiguous⟩

/-- A `setFlag` that is not interrupted. -/
def uninterrupted (n : ℕ) (a : Arguments) : List Action :=
  .setFlag a :: List.replicate 4 (.resume n none 20000)

def writtenAndRead : List Action :=
  uninterrupted 0 ⟨"payouts", true, "global", none, none, "admin"⟩ ++
    [.isFeatureEnabled "payouts" (some "7") none false 20000, .resume 1 none 20001,
      .resume 1 none 20002, .resume 1 none 20003]

theorem fresh_of_proper_at : Along step Fresh State.start writtenAndRead ∧
    Always step (fun s ↦ Unambiguous s.table.rows) State.start writtenAndRead :=
  fresh_of_proper writtenAndRead (by decide +kernel)

/-- A refresh reads the row of a flag, the flag is switched off, and the refresh loads the row. -/
def staleRefresh : List Action :=
  uninterrupted 0 ⟨"payouts", true, "global", none, none, "admin"⟩ ++
    [.refreshCache, .resume 1 none 20000] ++
    uninterrupted 2 ⟨"payouts", false, "global", none, none, "admin"⟩ ++
    [.resume 1 none 20001, .isFeatureEnabled "payouts" none none false 20002,
      .resume 3 none 20003]

/-- Two calls write a global flag that has no row yet. -/
def twoInserts : List Action :=
  [.setFlag ⟨"payouts", true, "global", none, none, "admin"⟩,
    .setFlag ⟨"payouts", false, "global", none, none, "admin"⟩,
    .resume 0 none 20000, .resume 1 none 20000, .resume 0 none 20000, .resume 1 none 20000]

/-- The flag that was switched off is found on, and the global flag has two rows. -/
theorem stale_flag_enabled : ¬Along step Fresh State.start staleRefresh ∧
    ¬Always step (fun s ↦ Unambiguous s.table.rows) State.start twoInserts := by
  decide

end StellarDonations.FeatureFlags
