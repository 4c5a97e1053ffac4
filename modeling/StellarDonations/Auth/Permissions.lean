import StellarDonations.Text.JsString

/-!
# Permissions

`checkPermission`: the permission that a route requires must be one of the role's, and one of the
scopes of the key when the key has any.
-/

namespace StellarDonations.Permissions

open JsString

/-- An entry of `roles.json`. -/
structure Role where
  name : String
  permissions : List String

/-- `roles.json`. -/
def rolesConfig : List Role :=
  let donor := ["donations:create", "donations:read", "donations:verify", "donations:update",
    "wallets:create", "wallets:read", "wallets:update", "stream:create", "stream:read",
    "stream:update", "stream:delete", "stats:read", "transactions:read", "transactions:sync",
    "transactions:simulate", "audit:export"]
  [⟨"admin", ["*"]⟩, ⟨"user", donor⟩, ⟨"premium", donor⟩,
    ⟨"signer", ["donations:read", "donations:approve"]⟩,
    ⟨"guest", ["donations:read", "stats:read"]⟩]

def getPermissionsByRole (roles : List Role) (roleName : String) : List String :=
  (roles.find? (·.name = roleName)).elim [] (·.permissions)

/-- The part of a permission before the colon. -/
def resource (permission : String) : String :=
  String.ofList (permission.toList.takeWhile (· ≠ ':'))

def hasPermission (roles : List Role) (roleName permission : String) : Bool :=
  let permissions := getPermissionsByRole roles roleName
  permissions.contains "*" || permissions.contains permission ||
    permissions.contains (resource permission ++ ":*")

def hasScope (keyScopes : List String) (requiredScope : String) : Bool :=
  requiredScope ≠ "" &&
    (keyScopes.contains "admin:*" || keyScopes.contains requiredScope ||
      (resource requiredScope ≠ "" && keyScopes.contains (resource requiredScope ++ ":*")))

/-- `checkPermission`, for a request with a key of this role and these scopes. -/
def checkPermission (roles : List Role) (role : String) (scopes : List String)
    (permission : String) : Bool :=
  hasPermission roles (orElse (some role) "user") permission &&
    (scopes.isEmpty || hasScope scopes permission)

end StellarDonations.Permissions
