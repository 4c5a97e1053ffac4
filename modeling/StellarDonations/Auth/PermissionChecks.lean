import StellarDonations.Auth.Permissions

/-!
# Checks of several permissions

`checkPermission`, `checkAnyPermission` and `checkAllPermissions` of the RBAC middleware, for a
request with or without an API key. A permission is granted by the role and by the scopes together.
When all of a list are required it does not matter whether roles and scopes are asked for each
permission or for the list. When one of the list is enough it does: the role may have one of them
and the scopes another, and nobody has granted both (`combinators_iff`).
-/

namespace StellarDonations.PermissionChecks

open JsString
open Permissions (Role hasPermission hasScope)

/-- `req.apiKey`, with its scopes when they are an array. -/
structure RequestKey where
  role : Option String
  scopes : Option (List String)

/-- What the checks read of a request: the role of `req.user` when there is one, and the key. -/
structure Request where
  user : Option (Option String)
  apiKey : Option RequestKey

inductive Refusal where
  | unauthorized (message : String)
  | forbidden (message : String)
  deriving DecidableEq

def hasAllScopes (keyScopes requiredScopes : List String) : Bool :=
  requiredScopes.isEmpty || requiredScopes.all (hasScope keyScopes)

def hasAnyScope (keyScopes requiredScopes : List String) : Bool :=
  requiredScopes.isEmpty || requiredScopes.any (hasScope keyScopes)

namespace Request

variable (req : Request)

/-- `(req.apiKey && req.apiKey.role) || req.user.role || 'guest'`. -/
def userRole (role : Option String) : String :=
  orElse (req.apiKey.bind (·.role)) (orElse role "guest")

def scopesAllow (test : List String → Bool) : Bool :=
  match req.apiKey.bind (·.scopes) with
  | some scopes => scopes.isEmpty || test scopes
  | none => true

def check (roleTest : String → Bool) (scopeTest : List String → Bool) (message : String) :
    Except Refusal Unit :=
  match req.user with
  | none => .error (.unauthorized "Authentication required")
  | some role =>
    if roleTest (req.userRole role) && req.scopesAllow scopeTest then .ok ()
    else .error (.forbidden message)

end Request

variable (roles : List Role)

def checkPermission (permission : String) (req : Request) : Except Refusal Unit :=
  req.check (fun role ↦ hasPermission roles role permission)
    (fun scopes ↦ hasScope scopes permission)
    ("Insufficient permissions. Required: " ++ permission)

def checkAnyPermission (permissions : List String) (req : Request) : Except Refusal Unit :=
  req.check (fun role ↦ permissions.any fun p ↦ hasPermission roles role p)
    (fun scopes ↦ hasAnyScope scopes permissions)
    ("Insufficient permissions. Required one of: " ++ ", ".intercalate permissions)

def checkAllPermissions (permissions : List String) (req : Request) : Except Refusal Unit :=
  req.check (fun role ↦ permissions.all fun p ↦ hasPermission roles role p)
    (fun scopes ↦ hasAllScopes scopes permissions)
    ("Insufficient permissions. Required all of: " ++ ", ".intercalate permissions)

/-! ## What is granted -/

def RoleGrants (req : Request) (role : Option String) (permission : String) : Prop :=
  hasPermission roles (req.userRole role) permission = true

/-- The scopes of the request cover the permission: there are none, or one of them does. -/
def ScopesGrant (req : Request) (permission : String) : Prop :=
  req.scopesAllow (fun scopes ↦ hasScope scopes permission) = true

variable {roles} {req : Request} {role : Option String} {permissions : List String}

theorem check_eq_ok (huser : req.user = some role) {roleTest : String → Bool}
    {scopeTest : List String → Bool} {message : String} :
    req.check roleTest scopeTest message = .ok () ↔
      roleTest (req.userRole role) = true ∧ req.scopesAllow scopeTest = true := by
  rw [Request.check, huser, ← Bool.and_eq_true]
  by_cases h : (roleTest (req.userRole role) && req.scopesAllow scopeTest) = true <;> simp [h]

theorem checkPermission_eq_ok (huser : req.user = some role) {permission : String} :
    checkPermission roles permission req = .ok () ↔
      RoleGrants roles req role permission ∧ ScopesGrant req permission :=
  check_eq_ok huser

theorem scopesAllow_hasAllScopes :
    req.scopesAllow (fun scopes ↦ hasAllScopes scopes permissions) = true ↔
      ∀ p ∈ permissions, ScopesGrant req p := by
  unfold ScopesGrant Request.scopesAllow hasAllScopes
  split
  · next scopes _ =>
    by_cases hscopes : scopes.isEmpty = true
    · simp [hscopes]
    · by_cases hempty : permissions = []
      · simp [hempty]
      · simp [hscopes, hempty]
  · simp

theorem scopesAllow_hasAnyScope (hne : permissions ≠ []) :
    req.scopesAllow (fun scopes ↦ hasAnyScope scopes permissions) = true ↔
      ∃ p ∈ permissions, ScopesGrant req p := by
  obtain ⟨p, hp⟩ := List.exists_mem_of_ne_nil permissions hne
  unfold ScopesGrant Request.scopesAllow hasAnyScope
  split
  · next scopes _ =>
    by_cases hscopes : scopes.isEmpty = true
    · simpa [hscopes] using ⟨p, hp⟩
    · simp [hscopes, hne]
  · simpa using ⟨p, hp⟩

theorem checkAllPermissions_eq_ok (huser : req.user = some role) :
    checkAllPermissions roles permissions req = .ok () ↔
      ∀ p ∈ permissions, RoleGrants roles req role p ∧ ScopesGrant req p := by
  rw [checkAllPermissions, check_eq_ok huser, scopesAllow_hasAllScopes, List.all_eq_true,
    ← forall₂_and]
  rfl

theorem checkAnyPermission_eq_ok (huser : req.user = some role) (hne : permissions ≠ []) :
    checkAnyPermission roles permissions req = .ok () ↔
      (∃ p ∈ permissions, RoleGrants roles req role p) ∧ ∃ p ∈ permissions, ScopesGrant req p := by
  rw [checkAnyPermission, check_eq_ok huser, scopesAllow_hasAnyScope hne, List.any_eq_true]
  rfl

/-- **Lists of permissions.** All of a list are granted exactly when each of them is. One of a list
is granted exactly when one of them is, unless the role has some of them and the scopes cover some
of them, but no permission is both had and covered. -/
theorem combinators_iff (huser : req.user = some role) (hne : permissions ≠ []) :
    (checkAllPermissions roles permissions req = .ok () ↔
      ∀ p ∈ permissions, checkPermission roles p req = .ok ()) ∧
    ((checkAnyPermission roles permissions req = .ok () ↔
      ∃ p ∈ permissions, checkPermission roles p req = .ok ()) ↔
    ¬((∃ p ∈ permissions, RoleGrants roles req role p) ∧
      (∃ p ∈ permissions, ScopesGrant req p) ∧
      ∀ p ∈ permissions, RoleGrants roles req role p → ¬ScopesGrant req p)) := by
  simp only [checkPermission_eq_ok huser]
  refine ⟨checkAllPermissions_eq_ok huser, ?_⟩
  rw [checkAnyPermission_eq_ok huser hne]
  constructor
  · rintro hiff ⟨hrole, hscopes, hapart⟩
    obtain ⟨p, hp, hboth⟩ := hiff.mp ⟨hrole, hscopes⟩
    exact hapart p hp hboth.1 hboth.2
  · intro hnot
    constructor
    · rintro ⟨hrole, hscopes⟩
      by_contra hnone
      refine hnot ⟨hrole, hscopes, fun p hp hhas hcovered ↦ hnone ⟨p, hp, hhas, hcovered⟩⟩
    · rintro ⟨p, hp, hhas, hcovered⟩
      exact ⟨⟨p, hp, hhas⟩, ⟨p, hp, hcovered⟩⟩

/-! ## A key with scopes of its own -/

/-- A donor's key that is restricted to a scope which donors do not have. -/
def sampleRequest : Request where
  user := some none
  apiKey := some ⟨some "user", some ["admin:read"]⟩

def samplePermissions : List String := ["stats:read", "admin:read"]

theorem combinators_at_sampleRequest :
    checkAllPermissions Permissions.rolesConfig samplePermissions sampleRequest = .ok () ↔
      ∀ p ∈ samplePermissions,
        checkPermission Permissions.rolesConfig p sampleRequest = .ok () :=
  (combinators_iff rfl (by decide)).1

/-- The role has the first permission and the scopes have the second: neither of them is granted,
and one of the two is. -/
theorem checkAnyPermission_of_neither :
    ¬(checkAnyPermission Permissions.rolesConfig samplePermissions sampleRequest = .ok () ↔
      ∃ p ∈ samplePermissions,
        checkPermission Permissions.rolesConfig p sampleRequest = .ok ()) := by
  decide

end StellarDonations.PermissionChecks
