import StellarDonations.Auth.ApiKeys
import StellarDonations.Auth.IpAllowlist
import StellarDonations.Control.Except

/-!
# Authentication of a request

`attachUserRole`, which runs for every request, followed by `requireApiKey`, which runs for the
routes that need a key. Each of them resolves the `X-API-Key` header by itself. `requireApiKey`
refuses a key of the database whose monthly quota is used up, whose allowlist does not have the
client's address, or that must sign its requests when this one is not signed; `attachUserRole` has
none of these checks.

## Which checks a request passes

`requireApiKey` does nothing when `req.apiKey` is already set, and `attachUserRole` sets it to every
key it finds. The checks are made for the requests whose key only the second lookup finds
(`requireApiKey_gates`), and for no others: `authenticate_database` says which of the two it is.
-/

namespace StellarDonations.Authentication

open ApiKeys IpAllowlist JsString RequestSigning

/-! ## Requests and answers -/

/-- What the two functions read of a request. -/
structure Request where
  method : String
  originalUrl : String
  ip : Option String
  rawBody : Option String
  authorization : Option String
  xApiKey : Option String
  xTimestamp : Option String
  xSignature : Option String
  xNonce : Option String

structure Rejection where
  status : ℕ
  code : String
  message : String
  deriving DecidableEq, Repr

structure Claims where
  sub : Option String
  role : Option String
  exp : Option ℚ
  deriving DecidableEq

/-- `req.apiKey`. -/
inductive Credential where
  | database (info : KeyInfo)
  | legacy
  deriving DecidableEq

/-- `req.user`. Its `authMethod` is `'jwt'` when there are claims. -/
structure User where
  id : String
  role : String
  name : Option String
  subject : Option String
  claims : Option Claims
  apiKeyId : Option ℕ
  scopes : List String
  isLegacy : Bool
  deriving DecidableEq

/-- What the functions attach to a request. -/
structure Context where
  apiKey : Option Credential
  user : Option User
  deriving DecidableEq

/-- The keys and the nonces that requests share. -/
structure State where
  keys : KeyStore
  nonces : Nonces

/-- The settings, and what the platform computes for the tokens. -/
structure Config extends KeyConfig where
  /-- `crypto.createHmac('sha256', key).update(text).digest('base64url')`. -/
  hmacBase64 : String → String → String
  /-- `JSON.parse(Buffer.from(text, 'base64url').toString())`. -/
  decodeClaims : String → Option Claims
  tokenSecret : String
  /-- What `getLegacyKeys` returns in `attachUserRole`. -/
  getLegacyKeys : List String
  /-- The list `requireApiKey` has. -/
  legacyKeys : List String
  isTest : Bool
  nonceMaxSize : ℕ

/-- What `attachUserRole` meets: its lookup, and the answer of `checkRateLimit`. -/
structure AttachEnv where
  lookup : LookupEnv
  rateLimit : Except AppError Bool

/-- What `requireApiKey` meets: its lookup, and the time of the checks that follow it. -/
structure RequireEnv where
  lookup : LookupEnv
  checkedAt : ℤ

/-! ## Tokens -/

/-- The token of an `Authorization` header. -/
def bearerToken (authorization : Option String) : Option String :=
  authorization.bind fun a ↦
    if "Bearer ".toList.isPrefixOf a.toList then some (trim (String.ofList (a.toList.drop 7)))
    else none

def verifyAccessToken (cfg : Config) (token : String) (nowMs : ℤ) : Option Claims :=
  match token.toList.splitOn '.' with
  | [header, claims, sig] =>
    if String.ofList sig
      = cfg.hmacBase64 cfg.tokenSecret (String.ofList (header ++ '.' :: claims)) then
      (cfg.decodeClaims (String.ofList claims)).filter
        fun payload ↦ !payload.exp.any (· < ((nowMs / 1000 : ℤ) : ℚ))
    else none
  | _ => none

/-- The answer to a token that is not valid. -/
def invalidBearer : Rejection := ⟨401, "UNAUTHORIZED", "Invalid or expired bearer token"⟩

def jwtUser (claims : Claims) (name subject : Option String) : User where
  id := "jwt-" ++ orElse claims.sub "unknown"
  role := orElse claims.role "user"
  name := name
  subject := subject
  claims := some claims
  apiKeyId := none
  scopes := []
  isLegacy := false

/-! ## `attachUserRole` -/

def guest : User := ⟨"guest", "guest", some "Guest", none, none, none, [], false⟩

def keyUser (id : String) (k : KeyInfo) : User where
  id := "apikey-" ++ id
  role := orElse k.role "user"
  name := some (orElse k.name ("API Key User (" ++ orElse k.role "user" ++ ")"))
  subject := none
  claims := none
  apiKeyId := some k.id
  scopes := k.scopes
  isLegacy := false

/-- The user of a key that an earlier function has resolved. -/
def Credential.user : Credential → User
  | .database k => keyUser (if k.id = 0 then "legacy" else toString k.id) k
  | .legacy => ⟨"apikey-legacy", "user", some "API Key User (user)", none, none, none, [], true⟩

def legacyUser (cfg : Config) (apiKey : String) : User where
  id := "legacy-" ++ String.ofList ((cfg.sha256Hex apiKey).toList.take 16)
  role := if "admin-".toList.isPrefixOf apiKey.toList then "admin" else "user"
  name := some "Legacy API Key User"
  subject := none
  claims := none
  apiKeyId := none
  scopes := []
  isLegacy := true

/-- What `attachUserRole` does with the result of its lookup. A lookup that fails makes a guest. -/
def attachLookup (cfg : Config) (env : AttachEnv) (apiKey : String) (ctx : Context) :
    Except AppError (Option KeyInfo) → Except Rejection Context
  | .error _ => .ok { ctx with user := some guest }
  | .ok (some k) => .ok ⟨some (.database k), some (keyUser (toString k.id) k)⟩
  | .ok none =>
    if apiKey ∈ cfg.getLegacyKeys then
      match env.rateLimit with
      | .error _ => .ok { ctx with user := some guest }
      | .ok allowed =>
        if !allowed && !cfg.isTest then
          .error ⟨429, "RATE_LIMIT_EXCEEDED",
            "Rate limit exceeded. Please retry after the reset time."⟩
        else .ok { ctx with user := some (legacyUser cfg apiKey) }
    else .ok { ctx with user := some guest }

def attachUserRole (cfg : Config) (st : State) (req : Request) (ctx : Context) (env : AttachEnv) :
    State × Except Rejection Context :=
  match bearerToken req.authorization with
  | some token =>
    match verifyAccessToken cfg token env.lookup.now with
    | some claims => (st, .ok { ctx with user := some (jwtUser claims
        (some ("SEP10 User (" ++ orElse claims.sub "unknown" ++ ")")) claims.sub) })
    | none => (st, .error invalidBearer)
  | none =>
    match ctx.apiKey with
    | some credential => (st, .ok { ctx with user := some credential.user })
    | none =>
      match orNull req.xApiKey with
      | some apiKey =>
        let found := validateApiKey cfg.toKeyConfig st.keys apiKey env.lookup
        ({ st with keys := found.1 }, attachLookup cfg env apiKey ctx found.2)
      -- the rate limit that follows is for keys of the database, and here there is none
      | none => (st, .ok { ctx with user := some guest })

/-! ## `requireApiKey` -/

/-- How a check ends a request: with a response, or by throwing. -/
inductive Halt where
  | respond (r : Rejection)
  | threw (e : AppError)
  deriving DecidableEq

def checkQuota (k : KeyInfo) : Except Halt Unit :=
  if (nonzero k.monthlyQuota).any (· - k.quotaUsed ≤ 0) then
    .error (.respond ⟨429, "QUOTA_EXCEEDED", "Monthly API quota exceeded"⟩)
  else .ok ()

def checkIp (req : Request) (k : KeyInfo) : Except Halt Unit :=
  match isIpAllowed req.ip k.allowedIps with
  | .error e => .error (.threw e)
  | .ok false =>
    .error (.respond ⟨403, "API_KEY_IP_RESTRICTED", "IP address not permitted for this API key"⟩)
  | .ok true => .ok ()

/-- The signature of a request, under the secret of a key. -/
def verifyRequest (cfg : Config) (req : Request) (k : KeyInfo) (now : ℤ) :
    Except AppError Verification :=
  verify cfg.toDigests k.keySecret req.method req.originalUrl req.xTimestamp req.xSignature
    (orElse req.rawBody "") now

def checkSignature (cfg : Config) (req : Request) (k : KeyInfo) (now : ℤ) : Except Halt Unit :=
  match verifyRequest cfg req k now with
  | .error e => .error (.threw e)
  | .ok (.invalid reason) => .error (.respond ⟨401, "INVALID_SIGNATURE",
      orElse (some reason) "Invalid or missing request signature"⟩)
  | .ok .valid => .ok ()

def checkNonce (cfg : Config) (nonces : Nonces) (req : Request) (now : ℤ) : Except Halt Nonces :=
  match orNull req.xNonce with
  | none =>
    .error (.respond ⟨401, "MISSING_NONCE", "X-Nonce header is required for signed requests"⟩)
  | some nonce =>
    if seen nonces nonce now then
      .error (.respond ⟨409, "NONCE_REPLAYED",
        "This request has already been processed. Use a unique nonce per request."⟩)
    else .ok (store nonces cfg.nonceMaxSize nonce now)

/-- The checks of a key of the database, with the nonces they leave behind. -/
def checkGates (cfg : Config) (nonces : Nonces) (req : Request) (k : KeyInfo) (now : ℤ) :
    Except Halt Nonces := do
  checkQuota k
  checkIp req k
  if k.signingRequired then
    checkSignature cfg req k now
    checkNonce cfg nonces req now
  else return nonces

def safeEqual (cfg : Config) (incoming stored : String) : Bool :=
  cfg.hmacHex "constant-time-compare" incoming = cfg.hmacHex "constant-time-compare" stored

/-- The keys of the environment, and the response when none of them is the request's. -/
def legacyFallback (cfg : Config) (apiKey : String) (ctx : Context) (r : Rejection) :
    Except Rejection Context :=
  if cfg.legacyKeys.any (safeEqual cfg apiKey) then .ok { ctx with apiKey := some .legacy }
  else .error r

def internalError : Rejection :=
  ⟨500, "INTERNAL_ERROR", "An unexpected error occurred during authentication."⟩

/-- What `requireApiKey` does with a key. An error of the lookup or of a check leads to the keys of
the environment as well. -/
def requireLookup (cfg : Config) (st : State) (req : Request) (ctx : Context) (apiKey : String)
    (env : RequireEnv) : State × Except Rejection Context :=
  let found := validateApiKey cfg.toKeyConfig st.keys apiKey env.lookup
  match found.2 with
  | .error _ => ({ st with keys := found.1 }, legacyFallback cfg apiKey ctx internalError)
  | .ok none => ({ st with keys := found.1 },
      legacyFallback cfg apiKey ctx ⟨401, "UNAUTHORIZED", "Invalid or expired API key."⟩)
  | .ok (some k) =>
    match checkGates cfg st.nonces req k env.checkedAt with
    | .ok nonces => (⟨found.1, nonces⟩, .ok { ctx with apiKey := some (.database k) })
    | .error (.respond r) => ({ st with keys := found.1 }, .error r)
    | .error (.threw _) =>
      ({ st with keys := found.1 }, legacyFallback cfg apiKey ctx internalError)

def requireApiKey (cfg : Config) (st : State) (req : Request) (ctx : Context) (env : RequireEnv) :
    State × Except Rejection Context :=
  if ctx.apiKey.isSome then (st, .ok ctx)
  else match bearerToken req.authorization with
  | some token =>
    match verifyAccessToken cfg token env.lookup.now with
    | some claims => (st, .ok { ctx with user := some (jwtUser claims none none) })
    | none => (st, .error invalidBearer)
  | none =>
    if (ctx.user.bind (·.claims)).isSome then (st, .ok ctx)
    else match orNull req.xApiKey with
    | none => (st, .error ⟨401, "UNAUTHORIZED", "API key required"⟩)
    | some apiKey => requireLookup cfg st req ctx apiKey env

/-! ## The two in sequence -/

/-- What a request meets. Between the two functions other requests change the keys and the
nonces. The second lookup does not read the nonces, so what happens to them during it counts as
done before. -/
structure AuthEnv where
  attach : AttachEnv
  between : State → State
  require : RequireEnv

def atRoute (cfg : Config) (st : State) (req : Request) (env : AuthEnv) :
    State × Except Rejection Context :=
  let attached := attachUserRole cfg st req ⟨none, none⟩ env.attach
  (env.between attached.1, attached.2)

/-- `attachUserRole`, then `requireApiKey`: the context the handler is called with. -/
def authenticate (cfg : Config) (st : State) (req : Request) (env : AuthEnv) :
    State × Except Rejection Context :=
  let arrived := atRoute cfg st req env
  match arrived.2 with
  | .error r => (arrived.1, .error r)
  | .ok ctx => requireApiKey cfg arrived.1 req ctx env.require

/-! ## What the checks guarantee -/

/-- The checks of `requireApiKey` hold for a request and its key. -/
structure GatesHold (cfg : Config) (nonces : Nonces) (req : Request) (k : KeyInfo) (now : ℤ) :
    Prop where
  quota : ∀ q, k.monthlyQuota = some q → q ≠ 0 → k.quotaUsed < q
  ip : isIpAllowed req.ip k.allowedIps = .ok true
  signed : k.signingRequired = true → verifyRequest cfg req k now = .ok .valid ∧
    ∃ nonce, req.xNonce = some nonce ∧ nonce ≠ "" ∧ seen nonces nonce now = false

/-- A key whose checks no request can fail. -/
structure Unrestricted (k : KeyInfo) : Prop where
  quota : ∀ q, k.monthlyQuota = some q → q ≠ 0 → k.quotaUsed < q
  ips : k.allowedIps = none ∨ k.allowedIps = some []
  unsigned : k.signingRequired = false

theorem checkQuota_eq_ok {k : KeyInfo} (h : checkQuota k = .ok ()) :
    ∀ q, k.monthlyQuota = some q → q ≠ 0 → k.quotaUsed < q := by
  intro q hq hne
  rw [checkQuota, Except.guard_not_eq_ok, hq] at h
  have hnot := h.1
  simp only [nonzero, Option.filter, hne, ne_eq, not_false_eq_true, decide_true, if_true,
    Option.any_some, decide_eq_true_eq, not_le] at hnot
  omega

theorem checkIp_eq_ok {req : Request} {k : KeyInfo} (h : checkIp req k = .ok ()) :
    isIpAllowed req.ip k.allowedIps = .ok true := by
  rw [checkIp] at h
  split at h
  · cases h
  · cases h
  · assumption

theorem checkSignature_eq_ok {cfg : Config} {req : Request} {k : KeyInfo} {now : ℤ}
    (h : checkSignature cfg req k now = .ok ()) : verifyRequest cfg req k now = .ok .valid := by
  rw [checkSignature] at h
  split at h
  · cases h
  · cases h
  · assumption

theorem checkNonce_eq_ok {cfg : Config} {nonces nonces' : Nonces} {req : Request} {now : ℤ}
    (h : checkNonce cfg nonces req now = .ok nonces') :
    ∃ nonce, req.xNonce = some nonce ∧ nonce ≠ "" ∧ seen nonces nonce now = false := by
  rw [checkNonce] at h
  split at h
  · cases h
  · next nonce hnonce =>
    obtain ⟨hreq, hne⟩ := orNull_eq_some.mp hnonce
    rw [Except.guard_not_eq_ok] at h
    exact ⟨nonce, hreq, hne, Bool.eq_false_of_not_eq_true h.1⟩

theorem checkGates_eq_ok {cfg : Config} {nonces nonces' : Nonces} {req : Request} {k : KeyInfo}
    {now : ℤ}
    (h : checkGates cfg nonces req k now = .ok nonces') : GatesHold cfg nonces req k now := by
  rw [checkGates] at h
  obtain ⟨hquota, h⟩ := Except.bind_const_eq_ok.mp h
  obtain ⟨hip, h⟩ := Except.bind_const_eq_ok.mp h
  refine ⟨checkQuota_eq_ok hquota, checkIp_eq_ok hip, fun hsigning ↦ ?_⟩
  rw [if_pos hsigning] at h
  obtain ⟨hsig, h⟩ := Except.bind_const_eq_ok.mp h
  exact ⟨checkSignature_eq_ok hsig, checkNonce_eq_ok h⟩

/-- The checks of an unrestricted key hold for every request. -/
theorem Unrestricted.gatesHold {k : KeyInfo} (hk : Unrestricted k) (cfg : Config) (nonces : Nonces)
    (req : Request) (now : ℤ) : GatesHold cfg nonces req k now := by
  refine ⟨hk.quota, ?_, fun hsigning ↦ ?_⟩
  · exact isIpAllowed_empty hk.ips
  · rw [hk.unsigned] at hsigning
    cases hsigning

/-- An unknown client without a signature passes the checks of unrestricted keys only. -/
theorem GatesHold.unrestricted {cfg : Config} {nonces : Nonces} {req : Request} {k : KeyInfo}
    {now : ℤ}
    (h : GatesHold cfg nonces req k now) (hip : req.ip = none) (hts : req.xTimestamp = none) :
    Unrestricted k := by
  refine ⟨h.quota, ?_, ?_⟩
  · have hallowed := h.ip
    rw [hip] at hallowed
    exact isIpAllowed_unknown hallowed
  · by_contra hsigning
    have hvalid := (h.signed (Bool.eq_true_of_not_eq_false hsigning)).1
    rw [verifyRequest, verify, hts] at hvalid
    cases hvalid

theorem legacyFallback_apiKey {cfg : Config} {apiKey : String} {ctx ctx' : Context} {r : Rejection}
    (h : legacyFallback cfg apiKey ctx r = .ok ctx') : ctx'.apiKey = some .legacy := by
  rw [legacyFallback] at h
  split at h
  · cases h
    rfl
  · cases h

/-! ## Where the key of a request comes from -/

theorem requireLookup_gates {cfg : Config} {st st' : State} {req : Request} {ctx ctx' : Context}
    {apiKey : String} {env : RequireEnv} {k : KeyInfo}
    (h : requireLookup cfg st req ctx apiKey env = (st', .ok ctx'))
    (hk : ctx'.apiKey = some (.database k)) : GatesHold cfg st.nonces req k env.checkedAt := by
  -- the keys of the environment are not keys of the database
  have hlegacy : ∀ {r : Rejection}, legacyFallback cfg apiKey ctx r ≠ .ok ctx' := by
    intro r hr
    rw [legacyFallback_apiKey hr] at hk
    cases hk
  rw [requireLookup] at h
  split at h
  · exact absurd (Prod.mk.inj h).2 hlegacy
  · exact absurd (Prod.mk.inj h).2 hlegacy
  · split at h
    · next hgates =>
      cases h
      cases hk
      exact checkGates_eq_ok hgates
    · cases h
    · exact absurd (Prod.mk.inj h).2 hlegacy

/-- A request that comes to `requireApiKey` without a key and leaves it with one of the database has
passed the checks. -/
theorem requireApiKey_gates {cfg : Config} {st st' : State} {req : Request} {ctx ctx' : Context}
    {env : RequireEnv} {k : KeyInfo} (hctx : ctx.apiKey = none)
    (h : requireApiKey cfg st req ctx env = (st', .ok ctx'))
    (hk : ctx'.apiKey = some (.database k)) :
    GatesHold cfg st.nonces req k env.checkedAt := by
  have hno : ctx.apiKey ≠ some (.database k) := by
    rw [hctx]
    rintro ⟨⟩
  have hunset : ¬ctx.apiKey.isSome = true := by
    rw [hctx]
    exact Bool.false_ne_true
  rw [requireApiKey, if_neg hunset] at h
  split at h
  · split at h
    · cases h
      exact absurd hk hno
    · cases h
  · split at h
    · cases h
      exact absurd hk hno
    · split at h
      · cases h
      · exact requireLookup_gates h hk

/-- `requireApiKey` does nothing for a request that has a key. -/
theorem requireApiKey_of_apiKey (cfg : Config) (st : State) (req : Request) {ctx : Context}
    (env : RequireEnv) (hctx : ctx.apiKey.isSome = true) :
    requireApiKey cfg st req ctx env = (st, .ok ctx) := by
  rw [requireApiKey, if_pos hctx]

theorem attachLookup_apiKey {cfg : Config} {env : AttachEnv} {apiKey : String} {ctx ctx' : Context}
    {result : Except AppError (Option KeyInfo)} (hctx : ctx.apiKey = none)
    (h : attachLookup cfg env apiKey ctx result = .ok ctx') :
    ctx'.apiKey = none ∨ ∃ k, ctx'.apiKey = some (.database k) ∧ result = .ok (some k) := by
  rw [attachLookup.eq_def] at h
  split at h
  · cases h
    exact .inl hctx
  · next k =>
    cases h
    exact .inr ⟨k, rfl, rfl⟩
  · split at h
    · split at h
      · cases h
        exact .inl hctx
      · split at h
        · cases h
        · cases h
          exact .inl hctx
    · cases h
      exact .inl hctx

theorem attachUserRole_apiKey {cfg : Config} {st : State} {req : Request} {ctx ctx' : Context}
    {env : AttachEnv} (hctx : ctx.apiKey = none)
    (h : (attachUserRole cfg st req ctx env).2 = .ok ctx') :
    ctx'.apiKey = none ∨ ∃ k key, ctx'.apiKey = some (.database k) ∧ req.xApiKey = some key ∧
      st.keys.current (cfg.sha256Hex key) env.lookup.now = some k := by
  rw [attachUserRole] at h
  split at h
  · split at h
    · cases h
      exact .inl hctx
    · cases h
  · split at h
    · next hsome =>
      rw [hctx] at hsome
      cases hsome
    · split at h
      · next key hkey =>
        rcases attachLookup_apiKey hctx h with hnone | ⟨k, hk, hfound⟩
        · exact .inl hnone
        · exact .inr ⟨k, key, hk, (orNull_eq_some.mp hkey).1, validateApiKey_eq_ok hfound⟩
      · cases h
        exact .inl hctx

/-- A request that reaches its handler with a key of the database: either `attachUserRole` found the
key, or the checks hold. -/
theorem authenticate_database {cfg : Config} {st st' : State} {req : Request} {env : AuthEnv}
    {ctx : Context} {k : KeyInfo} (h : authenticate cfg st req env = (st', .ok ctx))
    (hk : ctx.apiKey = some (.database k)) :
    (∃ key, req.xApiKey = some key ∧
        st.keys.current (cfg.sha256Hex key) env.attach.lookup.now = some k) ∨
      GatesHold cfg (atRoute cfg st req env).1.nonces req k env.require.checkedAt := by
  rw [authenticate] at h
  split at h
  · cases h
  · next arrived harrived =>
    rcases attachUserRole_apiKey rfl harrived with hnone | ⟨k', key, hk', hkey, hcurrent⟩
    · exact .inr (requireApiKey_gates hnone h hk)
    · rw [requireApiKey_of_apiKey cfg _ req _ (by rw [hk']; rfl)] at h
      cases h
      rw [hk'] at hk
      cases hk
      exact .inl ⟨key, hkey, hcurrent⟩

/-- A request with nothing but a key, from an unknown client. -/
def bareRequest (key : String) : Request where
  method := "GET"
  originalUrl := "/"
  ip := none
  rawBody := none
  authorization := none
  xApiKey := some key
  xTimestamp := none
  xSignature := none
  xNonce := none

/-- Lookups that succeed, with no other request in between. -/
def quietEnv (now : ℤ) : AuthEnv where
  attach := ⟨⟨now, none⟩, .ok true⟩
  between := id
  require := ⟨⟨now, none⟩, now⟩

/-- A request with a key of the database reaches its handler, whatever the restrictions of
the key. -/
theorem authenticate_of_current {cfg : Config} {st : State} (req : Request) {key : String} {now : ℤ}
    {k : KeyInfo} (hauth : req.authorization = none) (hreq : req.xApiKey = some key)
    (hkey : key ≠ "")
    (hcurrent : st.keys.current (cfg.sha256Hex key) now = some k) :
    ∃ st' ctx, authenticate cfg st req (quietEnv now) = (st', .ok ctx) ∧
      ctx.apiKey = some (.database k) := by
  have hattach : (attachUserRole cfg st req ⟨none, none⟩ (quietEnv now).attach).2
      = .ok ⟨some (.database k), some (keyUser (toString k.id) k)⟩ := by
    rw [attachUserRole, hauth]
    dsimp only [bearerToken, Option.bind_none]
    rw [orNull_eq_some.mpr ⟨hreq, hkey⟩]
    dsimp only
    have hfound : (validateApiKey cfg.toKeyConfig st.keys key (quietEnv now).attach.lookup).2
        = .ok (some k) := by
      rw [validateApiKey_of_no_fault cfg.toKeyConfig st.keys key rfl]
      exact congrArg Except.ok hcurrent
    rw [hfound]
    rfl
  refine ⟨(atRoute cfg st req (quietEnv now)).1,
    ⟨some (.database k), some (keyUser (toString k.id) k)⟩, ?_, rfl⟩
  have harrived : (atRoute cfg st req (quietEnv now)).2
      = .ok ⟨some (.database k), some (keyUser (toString k.id) k)⟩ := hattach
  rw [authenticate, harrived]
  exact requireApiKey_of_apiKey cfg _ req _ rfl

/-- Every request with the key that reaches its handler as a key of the database meets the checks,
whatever else the request has, the lookups answer and other requests do meanwhile. The first lookup
is at the time `now`. -/
def GatesEnforced (cfg : Config) (st : State) (key : String) (now : ℤ) : Prop :=
  ∀ (req : Request) (env : AuthEnv) (st' : State) (ctx : Context) (k : KeyInfo),
    req.xApiKey = some key → env.attach.lookup.now = now →
    authenticate cfg st req env = (st', .ok ctx) → ctx.apiKey = some (.database k) →
    GatesHold cfg (atRoute cfg st req env).1.nonces req k env.require.checkedAt

/-- The checks are enforced for a key exactly when it is unrestricted at the first lookup. -/
theorem database_key_gates_iff (cfg : Config) (st : State) {key : String} (hkey : key ≠ "")
    (now : ℤ) :
    GatesEnforced cfg st key now ↔
      ∀ k, st.keys.current (cfg.sha256Hex key) now = some k → Unrestricted k := by
  constructor
  · intro h k hcurrent
    obtain ⟨st', ctx, hauth, hk⟩ :=
      authenticate_of_current (bareRequest key) rfl rfl hkey hcurrent
    have hgates := h (bareRequest key) (quietEnv now) st' ctx k rfl rfl hauth hk
    exact hgates.unrestricted rfl rfl
  · rintro h req env st' ctx k hreq rfl hauth hk
    rcases authenticate_database hauth hk with ⟨key', hkey', hcurrent⟩ | hgates
    · rw [hreq] at hkey'
      cases hkey'
      exact (h k hcurrent).gatesHold cfg _ req _
    · exact hgates

/-- The key of the runs below, and its digest. -/
def sampleKey : String := "5f0c7d2e9b1a4c3d8e6f7a0b1c2d3e4f5f0c7d2e9b1a4c3d8e6f7a0b1c2d3e4f"

/-- Settings without keys in the environment. -/
def sampleConfig : Config where
  sha256Hex _ := "1b45c8b1cd22eb2ec1279a6dd3131ef56d2174c98a30bdddb2b5988bfc0b9b99"
  hmacHex _ text := text
  cacheTtlMs := 60000
  hmacBase64 _ text := text
  decodeClaims _ := none
  tokenSecret := "dev_jwt_secret_change_in_production"
  getLegacyKeys := []
  legacyKeys := []
  isTest := false
  nonceMaxSize := 100000

def openRow : KeyRow where
  id := 1
  keyHash := sampleConfig.sha256Hex sampleKey
  keyPrefix := "5f0c7d2e"
  name := "Partner"
  role := "user"
  status := .active
  metadata := some "{}"
  expiresAt := none
  lastUsedAt := none
  createdAt := 1764547200000
  gracePeriodDays := 30
  signingRequired := false
  keySecret := some "00112233445566778899aabbccddeeff00112233445566778899aabbccddeeff"
  scopes := []
  allowedIps := none
  notificationEmail := none
  monthlyQuota := none
  quotaUsed := 0
  quotaResetAt := none
  rateLimitPerMinute := none

/-- The row of the key with every restriction: a quota of 100 requests that is used up, one address,
and signed requests. -/
def restrictedRow : KeyRow :=
  { openRow with
    signingRequired := true
    allowedIps := some ["192.0.2.10"]
    monthlyQuota := some 100
    quotaUsed := 100
    quotaResetAt := some 1769904000000 }

/-- A table of one row, nothing cached, and no nonces. -/
def stateWith (row : KeyRow) : State := ⟨⟨[row], fun _ ↦ none⟩, []⟩

/-- A request from another address, without a signature. -/
def unsignedRequest : Request :=
  { bareRequest sampleKey with
    method := "POST"
    originalUrl := "/donations"
    ip := some "203.0.113.9" }

theorem current_stateWith {row : KeyRow} {now : ℤ}
    (hhash : row.keyHash = sampleConfig.sha256Hex sampleKey)
    (hlive : row.isLive now = true) (hquota : row.quotaDue now = false) :
    (stateWith row).keys.current (sampleConfig.sha256Hex sampleKey) now = some (row.info now) := by
  have hrow : (stateWith row).keys.liveRow (sampleConfig.sha256Hex sampleKey) now = some row := by
    simp [KeyStore.liveRow, stateWith, hhash, hlive]
  have hsame : row.withQuotaReset now = row := by
    rw [KeyRow.withQuotaReset, hquota, if_neg Bool.false_ne_true]
  rw [KeyStore.current, hrow, Option.map_some, hsame]
  rfl

/-- A request that fails all three checks of its key reaches the handler with it. -/
theorem restricted_key_reaches_handler : ∃ st' ctx k,
    authenticate sampleConfig (stateWith restrictedRow) unsignedRequest (quietEnv 1767225600000)
      = (st', .ok ctx) ∧ ctx.apiKey = some (.database k) ∧
    checkQuota k = .error (.respond ⟨429, "QUOTA_EXCEEDED", "Monthly API quota exceeded"⟩) ∧
    isIpAllowed unsignedRequest.ip k.allowedIps = .ok false ∧
    verifyRequest sampleConfig unsignedRequest k 1767225600000
      = .ok (.invalid "Missing X-Timestamp or X-Signature header") ∧
    ¬GatesHold sampleConfig
      (atRoute sampleConfig (stateWith restrictedRow) unsignedRequest
        (quietEnv 1767225600000)).1.nonces
      unsignedRequest k 1767225600000 := by
  have hcurrent := @current_stateWith restrictedRow 1767225600000 rfl (by decide) (by decide)
  obtain ⟨st', ctx, hauth, hk⟩ :=
    authenticate_of_current unsignedRequest rfl rfl (by decide) hcurrent
  have hip : isIpAllowed unsignedRequest.ip (restrictedRow.info 1767225600000).allowedIps
      = .ok false := by
    decide
  refine ⟨st', ctx, _, hauth, hk, by decide, hip, by decide, fun hgates ↦ ?_⟩
  have hallowed := hgates.ip
  rw [hip] at hallowed
  cases hallowed

/-- The requests of a key without restrictions meet its checks. -/
theorem open_key_gates : sampleKey ≠ "" ∧
    GatesEnforced sampleConfig (stateWith openRow) sampleKey 1767225600000 := by
  have hkey : sampleKey ≠ "" := by decide
  refine ⟨hkey, (database_key_gates_iff sampleConfig (stateWith openRow) hkey 1767225600000).mpr ?_⟩
  intro k hk
  rw [current_stateWith rfl (by decide) (by decide), Option.some_inj] at hk
  subst hk
  exact ⟨fun q hq ↦ (Option.some_ne_none q hq.symm).elim, .inl rfl, rfl⟩

end StellarDonations.Authentication
