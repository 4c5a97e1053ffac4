import Mathlib.Data.Finset.Card
import Mathlib.Data.Finset.Image
import Mathlib.Data.Finset.Lattice.Basic
import StellarDonations.Auth.IpAllowlist
import StellarDonations.Concurrency.Run
import StellarDonations.Storage.Table
import StellarDonations.Text.JsNumber

/-!
# Geographic rules

`GeoRuleService` keeps country rules in `geo_rules` and a copy of them in memory; the middleware
`geoBlock` decides on the copy.

The middleware never loads the copy, so while there is none, because a rule has just been added,
changed or removed, no rule of the table counts. A copy that is there holds the inactive rules too,
and they count like the active ones. A request is decided as the active rules of the table say
exactly when the rules that are left out, or taken in, do not alter its decision.
-/

namespace StellarDonations.GeoRules

open Concurrency JsString Storage

/-! ## Rules -/

/-- `GEO_RULE_TYPES`. -/
inductive RuleType where
  | allow
  | block
  deriving DecidableEq

def RuleType.text : RuleType → String
  | .allow => "allow"
  | .block => "block"

def RuleType.ofText (s : String) : Option RuleType :=
  if s = "allow" then some .allow else if s = "block" then some .block else none

/-- The columns of `geo_rules` other than its key. -/
structure GeoRow where
  countryCode : String
  ruleType : RuleType
  active : ℤ := 1
  description : Option String := none
  createdBy : Option String := none
  deriving DecidableEq

structure GeoRule where
  id : ℕ
  countryCode : String
  ruleType : RuleType
  active : Bool
  description : Option String
  createdBy : Option String
  deriving DecidableEq

structure GeoBlocking where
  blockedCountries : List String := []
  allowedCountries : List String := []
  allowedIPs : List String := []
  strictMode : Bool := true

/-- The table, the copy in memory, the configuration and the country database: with an address it
gives a country's code. -/
structure GeoState where
  table : Table GeoRow
  rules : Option (List GeoRule)
  expiresAt : ℤ
  config : GeoBlocking
  /-- `this.lookup`, there when `this.initialized` is set. -/
  lookup : Option (String → Option String)

/-- The functions of the standard library on which nothing here depends. -/
structure Runtime where
  toUpperCase : String → String

variable (rt : Runtime)

def normalizeCountryCode (value : Option String) : String := rt.toUpperCase (trim (orElse value ""))

def isValidCountryCode (value : Option String) : Bool :=
  let code := (normalizeCountryCode rt value).toList
  code.length = 2 && code.all fun c ↦ 'A' ≤ c && c ≤ 'Z'

/-- A row as it is normalized when it is read. -/
def toRule (r : ℕ × GeoRow) : GeoRule where
  id := r.1
  countryCode := normalizeCountryCode rt (some r.2.countryCode)
  ruleType := r.2.ruleType
  active := r.2.active ≠ 0
  description := r.2.description
  createdBy := r.2.createdBy

/-- `ORDER BY countryCode ASC, ruleType ASC, id ASC`. -/
def rowLe (a b : ℕ × GeoRow) : Bool :=
  if a.2.countryCode ≠ b.2.countryCode then a.2.countryCode < b.2.countryCode
  else if a.2.ruleType ≠ b.2.ruleType then a.2.ruleType.text < b.2.ruleType.text
  else a.1 ≤ b.1

/-- The rules of the table, active or not, as `loadRules` selects them. -/
def tableRules (t : Table GeoRow) : List GeoRule := (t.rows.mergeSort rowLe).map (toRule rt)

/-! ## The service -/

/-- `GEO_RULE_CACHE_TTL_MS`. -/
def cacheTtlMs : ℤ := 60 * 1000

def invalidateCache (s : GeoState) : GeoState := { s with rules := none, expiresAt := 0 }

def getCachedRules (s : GeoState) : List GeoRule := s.rules.getD []

/-- `loadRules`, and what `getRuleSets` and `listActiveRules` do with the copy. A statement that
fails is logged, and leaves the copy that there is. -/
def loadRules (s : GeoState) (forceRefresh : Bool) (now : ℤ) (fails : Bool) :
    GeoState × List GeoRule :=
  if !forceRefresh && s.rules.isSome && now < s.expiresAt then (s, getCachedRules s)
  else if fails then (s, [])
  else
    let rules := tableRules rt s.table
    ({ s with rules := some rules, expiresAt := now + cacheTtlMs }, rules)

/-- The type and the country that `addRule` and `removeRule` have checked. -/
def checkRule (ruleType countryCode : Option String) : Except AppError (RuleType × String) :=
  match RuleType.ofText (toLowerCase (trim (orElse ruleType ""))) with
  | none => .error (.plain "Invalid geo rule type")
  | some type =>
    let code := normalizeCountryCode rt countryCode
    if isValidCountryCode rt (some code) then .ok (type, code)
    else .error (.plain "Invalid country code")

def addRule (s : GeoState) (ruleType countryCode createdBy description : Option String) :
    Except AppError (GeoState × GeoRule) :=
  match checkRule rt ruleType countryCode with
  | .error e => .error e
  | .ok (type, code) =>
    if s.table.rows.any fun r ↦ r.2.countryCode = code && r.2.ruleType = type then
      .error (.duplicate .duplicateDonation
        "Duplicate donation detected - this transaction has already been processed")
    else
      let row : GeoRow := ⟨code, type, 1, orNull description, createdBy⟩
      let rule := toRule rt (s.table.nextId, row)
      .ok (invalidateCache { s with table := s.table.insert row }, rule)

/-- The fields of `updates` that are set; a description may be set to nothing. -/
structure Updates where
  active : Option Bool := none
  description : Option (Option String) := none

/-- The `SET` that `updateById` writes. -/
def Updates.assign (u : Updates) (row : GeoRow) : GeoRow :=
  { row with
    active := (u.active.map fun b ↦ if b then 1 else 0).getD row.active
    description := u.description.getD row.description }

def getById (s : GeoState) (id : ℕ) : Option GeoRule :=
  (s.table.get id).map fun row ↦ toRule rt (id, row)

def updateById (s : GeoState) (id : ℕ) (u : Updates) : GeoState × Option GeoRule :=
  if u.active = none ∧ u.description = none then (s, getById rt s id)
  else
    let hasId : ℕ × GeoRow → Bool := fun r ↦ r.1 = id
    let s' := { s with table := s.table.update hasId u.assign }
    if s.table.changes hasId = 0 then (s', none) else (invalidateCache s', getById rt s' id)

def removeById (s : GeoState) (id : ℕ) : GeoState × ℕ :=
  let hasId : ℕ × GeoRow → Bool := fun r ↦ r.1 = id
  let s' := { s with table := s.table.delete hasId }
  let changes := s.table.changes hasId
  (if changes ≠ 0 then invalidateCache s' else s', changes)

def removeRule (s : GeoState) (ruleType countryCode : Option String) :
    Except AppError (GeoState × ℕ) :=
  match checkRule rt ruleType countryCode with
  | .error e => .error e
  | .ok (type, code) =>
    let hasKey : ℕ × GeoRow → Bool := fun r ↦ r.2.countryCode = code && r.2.ruleType = type
    .ok (invalidateCache { s with table := s.table.delete hasKey }, s.table.changes hasKey)

/-! ## Addresses -/

def normalizeIp (ip : Option String) : String :=
  let rawIp := trim (String.ofList ((orElse ip "").toList.takeWhile (· ≠ ',')))
  if "::ffff:".toList <+: rawIp.toList then String.ofList (rawIp.toList.drop 7)
  else orElse (some rawIp) "127.0.0.1"

/-- A part of an address, when `Number` makes it an integer from `0` to `255`. -/
def octet (text : List Char) : Option (BitVec 32) :=
  match JsNumber.ofString (String.ofList text) with
  | some q => if q.den = 1 ∧ 0 ≤ q ∧ q ≤ 255 then some (BitVec.ofNat 32 q.num.toNat) else none
  | none => none

/-- The number of the first four parts of an address. -/
def ipNum (ip : List Char) : Option (BitVec 32) :=
  match (ip.splitOn '.').map octet with
  | some a :: some b :: some c :: some d :: _ => some (a <<< 24 ||| b <<< 16 ||| c <<< 8 ||| d)
  | _ => none

def isIPInCIDR (ip cidr : String) : Bool :=
  match cidr.toList.splitOn '/' with
  | range :: bits :: _ =>
    match IpAllowlist.parseInt bits with
    | some prefixLength =>
      if prefixLength < 0 ∨ 32 < prefixLength then false
      else
        let width := prefixLength.toNat
        let mask : BitVec 32 := if width = 0 then 0 else ~~~BitVec.ofNat 32 (2 ^ (32 - width) - 1)
        match ipNum ip.toList, ipNum range with
        | some i, some r => i &&& mask = r &&& mask
        | _, _ => false
    | none => false
  | _ => false

def isIPAllowlisted (c : GeoBlocking) (ip : Option String) : Bool :=
  let normalizedIp := normalizeIp ip
  c.allowedIPs.contains normalizedIp || c.allowedIPs.any (isIPInCIDR normalizedIp)

def getCountryCode (s : GeoState) (ip : Option String) : Option String :=
  s.lookup.bind fun get ↦ orNull (get (normalizeIp ip))

/-! ## The middleware -/

/-- What `buildRuleState` returns; the sets are those of the country codes. -/
structure RuleState where
  allowedCountries : Finset String
  blockedCountries : Finset String
  dbBlockedCountries : Finset String

def configCountries (codes : List String) : Finset String :=
  (codes.map fun code ↦ rt.toUpperCase (trim code)).toFinset

def dbCountries (type : RuleType) (rules : List GeoRule) : Finset String :=
  ((rules.filter (·.ruleType = type)).map (·.countryCode)).toFinset

def buildRuleState (c : GeoBlocking) (rules : List GeoRule) : RuleState where
  allowedCountries := configCountries rt c.allowedCountries ∪ dbCountries .allow rules
  blockedCountries := configCountries rt c.blockedCountries ∪ dbCountries .block rules
  dbBlockedCountries := dbCountries .block rules

def hasActiveRules (c : GeoBlocking) (r : RuleState) : Bool :=
  c.allowedIPs.length ≠ 0 || r.allowedCountries.card ≠ 0 || r.blockedCountries.card ≠ 0

inductive RuleSource where
  | database
  | config
  deriving DecidableEq

/-- What `shouldBlock` returns; a block carries the country and the rule that was matched. -/
inductive Decision where
  | pass
  | block (countryCode : Option String) (matchedRule : Option (RuleType × String × RuleSource))
  deriving DecidableEq

def shouldBlock (s : GeoState) (ip : Option String) (r : RuleState) : Decision :=
  let normalizedIp := some (normalizeIp ip)
  if isIPAllowlisted s.config normalizedIp then .pass
  else
    match getCountryCode s normalizedIp with
    | none =>
      if s.lookup.isNone && hasActiveRules s.config r then
        if s.config.strictMode then .block none none else .pass
      else .pass
    | some countryCode =>
      if countryCode ∈ r.allowedCountries then .pass
      else if countryCode ∈ r.blockedCountries then
        let source := if countryCode ∈ r.dbBlockedCountries then .database else .config
        .block (some countryCode) (some (.block, countryCode, source))
      else .pass

/-- A request, with the addresses that the middleware looks at in turn. -/
structure Request where
  ip : Option String
  connectionAddress : Option String := none
  socketAddress : Option String := none
  connectionSocketAddress : Option String := none

def clientIP (req : Request) : String :=
  let addresses := [req.ip, req.connectionAddress, req.socketAddress, req.connectionSocketAddress]
  normalizeIp (some ((addresses.findSome? orNull).getD "127.0.0.1"))

/-- The answer to a request that is not passed on. -/
structure Forbidden where
  status : ℕ := 403
  blockedReason : String := "geo"
  code : String := "GEO_BLOCKED"
  message : String := "Access denied from your location"
  deriving DecidableEq

/-- The middleware with these rules of the database: nothing when the request is passed on. -/
def respond (s : GeoState) (databaseRules : List GeoRule) (req : Request) : Option Forbidden :=
  let ruleState := buildRuleState rt s.config databaseRules
  if !hasActiveRules s.config ruleState then none
  else
    match shouldBlock s (some (clientIP req)) ruleState with
    | .pass => none
    | .block _ _ => some {}

def middleware (s : GeoState) (req : Request) : Option Forbidden :=
  respond rt s (getCachedRules s) req

/-! ## What the rules of the table ask for -/

/-- The rules of the table that are active, or those that are not. -/
def rulesWith (active : Bool) (s : GeoState) : List GeoRule :=
  (tableRules rt s.table).filter (·.active = active)

def Names (rules : List GeoRule) (type : RuleType) (countryCode : String) : Prop :=
  ∃ r ∈ rules, r.ruleType = type ∧ r.countryCode = countryCode

instance (rules : List GeoRule) (type : RuleType) (countryCode : String) :
    Decidable (Names rules type countryCode) :=
  inferInstanceAs (Decidable (∃ r ∈ rules, r.ruleType = type ∧ r.countryCode = countryCode))

/-- Beside the configuration and the rules `base`, the rules `extra` alter the decision for this
country and this address: they block a country that nothing blocked and nothing allows, or allow
one that was blocked, or they are the only rules there are while the country database is missing and
is not to be missed. -/
def Alters (s : GeoState) (base extra : List GeoRule) (req : Request) : Prop :=
  let ip := some (normalizeIp (some (clientIP req)))
  let r := buildRuleState rt s.config base
  ¬isIPAllowlisted s.config ip ∧
    match getCountryCode s ip with
    | some c =>
      c ∉ r.allowedCountries ∧
        (c ∉ r.blockedCountries ∧ Names extra .block c ∧ ¬Names extra .allow c ∨
          c ∈ r.blockedCountries ∧ Names extra .allow c)
    | none => s.lookup = none ∧ s.config.strictMode ∧ ¬hasActiveRules s.config r ∧ extra ≠ []

/-- What is done to the rules and to what the decisions depend on; a statement of an operation on
the rules may fail, and then changes nothing. -/
inductive Operation where
  | addRule (ruleType countryCode createdBy description : Option String)
  | updateById (id : ℕ) (updates : Updates)
  | removeById (id : ℕ)
  | removeRule (ruleType countryCode : Option String)

/-- An operation, an invalidation, a load, a new configuration or country database, or a request. -/
inductive Action where
  | manage (op : Operation) (fails : Bool)
  | invalidateCache
  | loadRules (forceRefresh : Bool) (now : ℤ) (fails : Bool)
  | configure (config : GeoBlocking)
  | reload (lookup : Option (String → Option String))
  | request (req : Request)

/-- An operation whose statements succeed; one that throws changes nothing. -/
def manage (s : GeoState) : Operation → GeoState
  | .addRule ruleType countryCode createdBy description =>
    match addRule rt s ruleType countryCode createdBy description with
    | .ok (s', _) => s'
    | .error _ => s
  | .updateById id updates => (updateById rt s id updates).1
  | .removeById id => (removeById s id).1
  | .removeRule ruleType countryCode =>
    match removeRule rt s ruleType countryCode with
    | .ok (s', _) => s'
    | .error _ => s

def step (s : GeoState) : Action → GeoState
  | .manage op fails => if fails then s else manage rt s op
  | .invalidateCache => invalidateCache s
  | .loadRules forceRefresh now fails => (loadRules rt s forceRefresh now fails).1
  | .configure config => { s with config }
  | .reload lookup => { s with lookup }
  | .request _ => s

/-- As the service starts, on a table that may hold rules. -/
def start (table : Table GeoRow) (config : GeoBlocking)
    (lookup : Option (String → Option String)) : GeoState :=
  ⟨table, none, 0, config, lookup⟩

/-- A request is passed on or refused as the active rules of the table say. -/
def Served (s : GeoState) : Action → Prop
  | .request req => middleware rt s req = respond rt s (rulesWith rt true s) req
  | _ => True

instance (s : GeoState) : ∀ a, Decidable (Served rt s a)
  | .request req =>
    inferInstanceAs (Decidable (middleware rt s req = respond rt s (rulesWith rt true s) req))
  | .manage .. | .invalidateCache | .loadRules .. | .configure _ | .reload _ =>
    inferInstanceAs (Decidable True)

/-- The rules that the middleware leaves out, or takes in, do not alter the decision. -/
def Unaltered (s : GeoState) : Action → Prop
  | .request req =>
    match s.rules with
    | none => ¬Alters rt s [] (rulesWith rt true s) req
    | some _ => ¬Alters rt s (rulesWith rt true s) (rulesWith rt false s) req
  | _ => True

/-! ## Decisions -/

variable {rt} {s : GeoState} {c : GeoBlocking} {rules base extra : List GeoRule} {code : String}
  {req : Request}

theorem mem_dbCountries {type : RuleType} :
    code ∈ dbCountries type rules ↔ Names rules type code := by
  simp only [dbCountries, List.mem_toFinset, List.mem_map, List.mem_filter, decide_eq_true_iff,
    Names, and_assoc]

theorem mem_allowedCountries : code ∈ (buildRuleState rt c rules).allowedCountries ↔
    code ∈ configCountries rt c.allowedCountries ∨ Names rules .allow code := by
  rw [buildRuleState, Finset.mem_union, mem_dbCountries]

theorem mem_blockedCountries : code ∈ (buildRuleState rt c rules).blockedCountries ↔
    code ∈ configCountries rt c.blockedCountries ∨ Names rules .block code := by
  rw [buildRuleState, Finset.mem_union, mem_dbCountries]

theorem hasActiveRules_iff {r : RuleState} : hasActiveRules c r = true ↔
    c.allowedIPs ≠ [] ∨ r.allowedCountries ≠ ∅ ∨ r.blockedCountries ≠ ∅ := by
  simp only [hasActiveRules, Bool.or_eq_true, decide_eq_true_iff, ne_eq, List.length_eq_zero_iff,
    Finset.card_eq_zero, or_assoc]

/-- **The decision.** A request is refused when its address is not listed and its country is
blocked and not allowed, or unknown for want of a country database that is not to be missed. -/
theorem respond_ne_none : respond rt s rules req ≠ none ↔
    ¬isIPAllowlisted s.config (some (normalizeIp (some (clientIP req)))) ∧
      match getCountryCode s (some (normalizeIp (some (clientIP req)))) with
      | some code =>
        code ∉ (buildRuleState rt s.config rules).allowedCountries ∧
          code ∈ (buildRuleState rt s.config rules).blockedCountries
      | none => s.lookup = none ∧ s.config.strictMode ∧
          hasActiveRules s.config (buildRuleState rt s.config rules) := by
  by_cases hactive : hasActiveRules s.config (buildRuleState rt s.config rules) = true
  · rw [respond, hactive, Bool.not_true, if_neg Bool.false_ne_true, shouldBlock]
    by_cases hlisted :
        isIPAllowlisted s.config (some (normalizeIp (some (clientIP req)))) = true
    · simp [hlisted]
    · cases getCountryCode s (some (normalizeIp (some (clientIP req)))) with
      | none =>
        by_cases hlookup : s.lookup = none <;> cases hstrict : s.config.strictMode <;>
          simp [hlisted, hlookup, hactive]
      | some code =>
        by_cases hallowed : code ∈ (buildRuleState rt s.config rules).allowedCountries
        · simp [hallowed]
        · by_cases hblocked : code ∈ (buildRuleState rt s.config rules).blockedCountries <;>
            simp [hlisted, hallowed, hblocked]
  · -- without anything to check no country is blocked
    have hnone : respond rt s rules req = none := by
      rw [respond, eq_false_of_ne_true hactive]
      rfl
    refine iff_of_false (fun h ↦ h hnone) ?_
    rintro ⟨-, hmatch⟩
    cases hcountry : getCountryCode s (some (normalizeIp (some (clientIP req)))) with
    | none =>
      rw [hcountry] at hmatch
      exact hactive hmatch.2.2
    | some code =>
      rw [hcountry] at hmatch
      exact hactive (hasActiveRules_iff.mpr (.inr (.inr (Finset.ne_empty_of_mem hmatch.2))))

theorem respond_eq_iff {rules rules' : List GeoRule} :
    respond rt s rules req = respond rt s rules' req ↔
      (respond rt s rules req ≠ none ↔ respond rt s rules' req ≠ none) := by
  have hanswer : ∀ l, respond rt s l req = none ∨ respond rt s l req = some {} := by
    intro l
    rw [respond]
    split_ifs
    · exact .inl rfl
    · split
      · exact .inl rfl
      · exact .inr rfl
  rcases hanswer rules with h | h <;> rcases hanswer rules' with h' | h' <;> simp [h, h']

/-! ## Rules added to rules -/

theorem names_union {all : List GeoRule} (h : ∀ r, r ∈ all ↔ r ∈ base ∨ r ∈ extra)
    {type : RuleType} : Names all type code ↔ Names base type code ∨ Names extra type code := by
  simp only [Names, h, or_and_right, exists_or]

theorem exists_names (h : rules ≠ []) : ∃ type code, Names rules type code := by
  obtain ⟨r, hr⟩ := List.exists_mem_of_ne_nil rules h
  exact ⟨r.ruleType, r.countryCode, r, hr, rfl, rfl⟩

theorem mem_allowedCountries_union {all : List GeoRule}
    (h : ∀ r, r ∈ all ↔ r ∈ base ∨ r ∈ extra) :
    code ∈ (buildRuleState rt c all).allowedCountries ↔
      code ∈ (buildRuleState rt c base).allowedCountries ∨ Names extra .allow code := by
  rw [mem_allowedCountries, mem_allowedCountries, names_union h, or_assoc]

theorem mem_blockedCountries_union {all : List GeoRule}
    (h : ∀ r, r ∈ all ↔ r ∈ base ∨ r ∈ extra) :
    code ∈ (buildRuleState rt c all).blockedCountries ↔
      code ∈ (buildRuleState rt c base).blockedCountries ∨ Names extra .block code := by
  rw [mem_blockedCountries, mem_blockedCountries, names_union h, or_assoc]

theorem hasActiveRules_union {all : List GeoRule} (h : ∀ r, r ∈ all ↔ r ∈ base ∨ r ∈ extra) :
    hasActiveRules c (buildRuleState rt c all) = true ↔
      hasActiveRules c (buildRuleState rt c base) = true ∨ extra ≠ [] := by
  simp only [hasActiveRules_iff, ← Finset.nonempty_iff_ne_empty, Finset.Nonempty,
    mem_allowedCountries, mem_blockedCountries, names_union h]
  constructor
  · rintro (hips | ⟨code, hcode | hbase | hextra⟩ | ⟨code, hcode | hbase | hextra⟩)
    · exact .inl (.inl hips)
    · exact .inl (.inr (.inl ⟨code, .inl hcode⟩))
    · exact .inl (.inr (.inl ⟨code, .inr hbase⟩))
    · obtain ⟨r, hr, -⟩ := hextra
      exact .inr (List.ne_nil_of_mem hr)
    · exact .inl (.inr (.inr ⟨code, .inl hcode⟩))
    · exact .inl (.inr (.inr ⟨code, .inr hbase⟩))
    · obtain ⟨r, hr, -⟩ := hextra
      exact .inr (List.ne_nil_of_mem hr)
  · rintro ((hips | ⟨code, hcode | hbase⟩ | ⟨code, hcode | hbase⟩) | hne)
    · exact .inl hips
    · exact .inr (.inl ⟨code, .inl hcode⟩)
    · exact .inr (.inl ⟨code, .inr (.inl hbase)⟩)
    · exact .inr (.inr ⟨code, .inl hcode⟩)
    · exact .inr (.inr ⟨code, .inr (.inl hbase)⟩)
    -- a rule that is added names a country of its type
    · obtain ⟨type, code, hnames⟩ := exists_names hne
      cases type with
      | allow => exact .inr (.inl ⟨code, .inr (.inr hnames)⟩)
      | block => exact .inr (.inr ⟨code, .inr (.inr hnames)⟩)

/-- **Rules added to rules** alter the decision exactly when `Alters` says so. -/
theorem respond_eq_iff_not_alters {all : List GeoRule}
    (h : ∀ r, r ∈ all ↔ r ∈ base ∨ r ∈ extra) :
    respond rt s all req = respond rt s base req ↔ ¬Alters rt s base extra req := by
  rw [respond_eq_iff, respond_ne_none, respond_ne_none, Alters]
  by_cases hlisted : isIPAllowlisted s.config (some (normalizeIp (some (clientIP req)))) = true
  · simp [hlisted]
  · cases getCountryCode s (some (normalizeIp (some (clientIP req)))) with
    | none =>
      simp only [hasActiveRules_union h]
      tauto
    | some code =>
      dsimp only
      rw [mem_allowedCountries_union h, mem_blockedCountries_union h]
      tauto

theorem mem_tableRules_iff {r : GeoRule} : r ∈ tableRules rt s.table ↔
    r ∈ rulesWith rt true s ∨ r ∈ rulesWith rt false s := by
  simp only [rulesWith, List.mem_filter, decide_eq_true_iff, ← and_or_left]
  exact (and_iff_left (Bool.eq_false_or_eq_true r.active)).symm

/-! ## The copy in memory -/

/-- A copy that is there is a copy of the table. -/
def Current (rt : Runtime) (s : GeoState) : Prop :=
  ∀ rules, s.rules = some rules → ∀ r, r ∈ rules ↔ r ∈ tableRules rt s.table

theorem current_of_rules_eq_none (h : s.rules = none) : Current rt s :=
  fun _ hrules ↦ nomatch h.symm.trans hrules

theorem mem_tableRules {t : Table GeoRow} {r : GeoRule} :
    r ∈ tableRules rt t ↔ ∃ row ∈ t.rows, toRule rt row = r := by
  rw [tableRules, List.mem_map]
  simp only [List.mem_mergeSort]

/-- A statement that changed no row leaves a copy current. -/
theorem Current.of_rows_eq (h : Current rt s) {t : Table GeoRow} (ht : t.rows = s.table.rows) :
    Current rt { s with table := t } := by
  intro rules hrules r
  rw [h rules hrules r, mem_tableRules, mem_tableRules, ht]

theorem Current.updateById (h : Current rt s) (id : ℕ) (u : Updates) :
    Current rt (updateById rt s id u).1 := by
  rw [GeoRules.updateById]
  split_ifs
  · exact h
  · by_cases hchanges : s.table.changes (fun r ↦ r.1 = id) = 0
    · rw [if_pos hchanges]
      exact h.of_rows_eq (Table.update_of_changes_eq_zero u.assign hchanges)
    · rw [if_neg hchanges]
      exact current_of_rules_eq_none rfl

theorem Current.removeById (h : Current rt s) (id : ℕ) : Current rt (removeById s id).1 := by
  rw [GeoRules.removeById]
  by_cases hchanges : s.table.changes (fun r ↦ r.1 = id) = 0
  · rw [hchanges]
    exact h.of_rows_eq (Table.delete_of_changes_eq_zero hchanges)
  · rw [if_pos hchanges]
    exact current_of_rules_eq_none rfl

theorem Current.manage (h : Current rt s) (op : Operation) : Current rt (manage rt s op) := by
  cases op with
  | addRule ruleType countryCode createdBy description =>
    rw [GeoRules.manage, addRule]
    rcases checkRule rt ruleType countryCode with e | ⟨type, code⟩
    · exact h
    · by_cases hpresent : s.table.rows.any fun r ↦ r.2.countryCode = code && r.2.ruleType = type
      · simp only [hpresent, if_true]
        exact h
      · simp only [hpresent]
        exact current_of_rules_eq_none rfl
  | updateById id u => exact h.updateById id u
  | removeById id => exact h.removeById id
  | removeRule ruleType countryCode =>
    rw [GeoRules.manage, removeRule]
    rcases checkRule rt ruleType countryCode with e | ⟨type, code⟩
    · exact h
    · exact current_of_rules_eq_none rfl

theorem Current.loadRules (h : Current rt s) (forceRefresh : Bool) (now : ℤ) (fails : Bool) :
    Current rt (loadRules rt s forceRefresh now fails).1 := by
  rw [GeoRules.loadRules]
  split_ifs
  · exact h
  · exact h
  · rintro rules hrules r
    cases hrules
    rfl

theorem Current.step (h : Current rt s) (a : Action) : Current rt (step rt s a) := by
  cases a with
  | manage op fails =>
    rw [GeoRules.step]
    split_ifs
    · exact h
    · exact h.manage op
  | invalidateCache => exact current_of_rules_eq_none rfl
  | loadRules forceRefresh now fails => exact h.loadRules forceRefresh now fails
  | configure | reload | request => exact h

/-! ## The decisions of a run -/

/-- **One action.** A request is decided as the table says exactly when the rules that are left
out, or taken in, do not alter the decision. -/
theorem Current.served_iff (h : Current rt s) (a : Action) : Served rt s a ↔ Unaltered rt s a := by
  cases a with
  | request req =>
    rw [Served, Unaltered, middleware, getCachedRules]
    cases hrules : s.rules with
    | none =>
      rw [eq_comm, Option.getD_none]
      refine respond_eq_iff_not_alters fun r ↦ ?_
      simp
    | some rules =>
      refine respond_eq_iff_not_alters fun r ↦ ?_
      rw [Option.getD_some, h rules hrules r, mem_tableRules_iff]
  | manage | invalidateCache | loadRules | configure | reload => exact Iff.rfl

/-- **Geo rules take effect** in a run exactly as far as the rules that the middleware leaves out
or takes in do not alter a decision. -/
theorem decisions_follow_table (rt : Runtime) (table : Table GeoRow) (config : GeoBlocking)
    (lookup : Option (String → Option String)) (as : List Action) :
    Along (step rt) (Served rt) (start table config lookup) as ↔
      Along (step rt) (Unaltered rt) (start table config lookup) as := by
  have hcurrent : Always (step rt) (Current rt) (start table config lookup) as :=
    always_of_step (fun _ a h ↦ h.step a) (current_of_rules_eq_none rfl) as
  constructor
  · exact fun h ↦ h.of_always (fun s a hs hserved ↦ (hs.served_iff a).mp hserved) hcurrent
  · exact fun h ↦ h.of_always (fun s a hs hunaltered ↦ (hs.served_iff a).mpr hunaltered) hcurrent

/-- The runtime of the example: the country codes are upper case already. -/
def sampleRuntime : Runtime := ⟨id⟩

/-- An added rule does not block a request until something has loaded the copy. -/
theorem added_rule_ignored :
    ¬Along (step sampleRuntime) (Served sampleRuntime)
      (start default {} (some fun _ ↦ some "KP"))
      [.manage (.addRule (some "block") (some "KP") none none) false,
        .request { ip := some "175.45.176.1" }] := by
  decide +kernel

end StellarDonations.GeoRules
