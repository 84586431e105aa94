import Mathlib.Data.List.Basic

/-! Principals, roles and the scopes they carry. -/
namespace VoxForge.Core

abbrev OrgId := Nat
abbrev UserId := Nat
abbrev Scope := String

inductive OrgRole where
  | owner | admin | member
  deriving DecidableEq, Repr

namespace OrgRole

def value : OrgRole → String
  | owner => "owner"
  | admin => "admin"
  | member => "member"

def ofValue? (s : String) : Option OrgRole := [owner,admin,member].find? (·.value = s)

def scopes : OrgRole → List Scope
  | owner => ["sessions:read","sessions:write","sessions:delete","orgs:read","orgs:write",
      "orgs:manage_members","api_keys:read","api_keys:write","api_keys:delete","ws:connect",
      "knowledge:read","knowledge:write","knowledge:delete","handoffs:read","handoffs:write",
      "handoffs:assign","metrics:read"]
  | admin => ["sessions:read","sessions:write","sessions:delete","orgs:read",
      "orgs:manage_members","api_keys:read","api_keys:write","api_keys:delete","ws:connect",
      "knowledge:read","knowledge:write","knowledge:delete","handoffs:read","handoffs:write",
      "handoffs:assign","metrics:read"]
  | member => ["sessions:read","sessions:write","ws:connect","knowledge:read","handoffs:read",
      "handoffs:write"]

end OrgRole

structure Principal where
  userId : Option UserId := none
  orgId : OrgId
  role : Option OrgRole := none
  scopes : List Scope := []
  deriving DecidableEq, Repr

/-- `ADMIN` is refused only what starts with `orgs:delete`; no role counts as `MEMBER`. -/
def Principal.hasScope (principal : Principal) (scope : Scope) : Bool :=
  scope ∈ principal.scopes || principal.role = some .owner ||
    (principal.role = some .admin && !"orgs:delete".toList.isPrefixOf scope.toList) ||
    scope ∈ (principal.role.getD .member).scopes

def allApiKeyScopes : List Scope := [OrgRole.owner,.admin,.member].flatMap OrgRole.scopes

def effectiveScopes (principal : Principal) : List Scope :=
  if principal.scopes ≠ [] then principal.scopes
  else match principal.role with
    | some role => role.scopes
    | none => []

end VoxForge.Core
