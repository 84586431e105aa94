import VoxForge.Sso.Saml

/-! The assertion consumer: from a posted SAML response to a user, a membership and
tokens. -/
namespace VoxForge.Sso
open Foundation Core

structure User where
  id : UserId
  email : String
  fullName : String
  isActive : Bool := true
  deriving DecidableEq, Repr

structure OrganizationMember where
  orgId : OrgId
  userId : UserId
  role : OrgRole
  deriving DecidableEq, Repr

structure AuditEntry where
  action : String
  resourceType : String
  orgId : OrgId
  userId : UserId
  resourceId : Nat
  email : String
  role : Option OrgRole := none
  relayState : Option String := none
  deriving DecidableEq, Repr

/-- The rows that single sign-on reads and writes. `nextUserId` is the next generated id. -/
structure Store where
  connections : List SamlConnection
  users : List User
  members : List OrganizationMember
  audit : List AuditEntry := []
  nextUserId : UserId
  deriving DecidableEq, Repr

structure Settings where
  samlRequireSignedAssertions : Bool := true
  samlClockSkewSeconds : Nat := 120
  deriving DecidableEq, Repr

structure AcsRequest where
  orgId : OrgId
  samlResponse : String
  relayState : Option String := none
  connectionId : Option Nat := none
  deriving DecidableEq, Repr

/-- The claims of the issued token pair. -/
structure Tokens where
  userId : UserId
  orgId : OrgId
  role : OrgRole
  deriving DecidableEq, Repr

structure AcsAnswer where
  userId : UserId
  orgId : OrgId
  role : OrgRole
  tokens : Tokens
  deriving DecidableEq, Repr

namespace Store

def getConnection (store : Store) (connectionId : Nat) : Except SsoError SamlConnection :=
  match store.connections.find? (·.id = connectionId) with
  | none => .error (.samlConnectionNotFound connectionId)
  | some connection => .ok connection

def requireActiveConnection (store : Store) (orgId : OrgId) (connectionId : Nat) :
    Except SsoError SamlConnection := do
  let connection ← store.getConnection connectionId
  if connection.orgId ≠ orgId then .error (.forbidden "Access denied for this organization")
  else if connection.status ≠ .active then
    .error (.samlAssertion "SAML connection is not active")
  else .ok connection

/-- The id after the first `connection` part that another part follows; `uuid` parses an id. -/
def connectionIdFromRelayState (uuid : String → Option Nat) (relayState : Option String) : Option Nat :=
  match truthy relayState with
  | none => none
  | some relayState =>
    let parts := relayState.splitOn ":"
    match (parts.zip parts.tail).find? (·.1 = "connection") with
    | none => none
    | some (_,next) => uuid next

def resolveAcsConnection (store : Store) (uuid : String → Option Nat) (request : AcsRequest) :
    Except SsoError SamlConnection :=
  match request.connectionId with
  | some connectionId => store.requireActiveConnection request.orgId connectionId
  | none =>
    match connectionIdFromRelayState uuid request.relayState with
    | some connectionId => store.requireActiveConnection request.orgId connectionId
    | none =>
      match store.connections.filter fun c => c.orgId = request.orgId && c.status = .active with
      | [connection] => .ok connection
      | [] => .error (.samlAssertion "No active SAML connection configured for organization")
      | _ => .error (.samlAssertion
          "connection_id is required when multiple SAML connections are active")

/-- The user with this address, created (and audited) where there is none. -/
def provision (store : Store) (orgId : OrgId) (assertion : SamlAssertion) : User × Store :=
  match store.users.find? (·.email = assertion.email) with
  | some user => (user,store)
  | none =>
    let user : User :=
      { id := store.nextUserId, email := assertion.email, fullName := assertion.fullName }
    (user,{ store with
      users := store.users ++ [user]
      nextUserId := store.nextUserId + 1
      audit := store.audit ++ [{
        action := "sso.saml.user_provisioned"
        resourceType := "user"
        orgId := orgId
        userId := user.id
        resourceId := user.id
        email := assertion.email }] })

def upsertMember (store : Store) (member : OrganizationMember) : Store :=
  let same (m : OrganizationMember) : Bool := m.orgId = member.orgId && m.userId = member.userId
  { store with
    members := if store.members.any same
      then store.members.map fun m => if same m then { m with role := member.role } else m
      else store.members ++ [member] }

end Store

def consumeAcs (env : Environment) (uuid : String → Option Nat) (settings : Settings)
    (store : Store) (request : AcsRequest) : Except SsoError (AcsAnswer × Store) := do
  let connection ← store.resolveAcsConnection uuid request
  validateSamlResponse env request.samlResponse connection settings.samlRequireSignedAssertions
    settings.samlClockSkewSeconds
  let assertion ← parseSamlAssertion env request.samlResponse
  let role := resolveRoleFromMapping env assertion.groups connection.roleMappingRules
    connection.defaultRole
  let (user,store) := store.provision request.orgId assertion
  let store := store.upsertMember { orgId := request.orgId, userId := user.id, role }
  let store := { store with audit := store.audit ++ [{
    action := "sso.saml.login_completed"
    resourceType := "saml_connection"
    orgId := request.orgId
    userId := user.id
    resourceId := connection.id
    email := assertion.email
    role := some role
    relayState := request.relayState }] }
  return ({
    userId := user.id
    orgId := request.orgId
    role
    tokens := { userId := user.id, orgId := request.orgId, role } },store)

theorem Store.provision_email (store : Store) (orgId : OrgId) (assertion : SamlAssertion) :
    (store.provision orgId assertion).1.email = assertion.email ∧
      (store.provision orgId assertion).1 ∈ (store.provision orgId assertion).2.users := by
  unfold provision
  cases h : store.users.find? (·.email = assertion.email) with
  | some user =>
    exact ⟨by simpa using List.find?_some h,List.mem_of_find?_eq_some h⟩
  | none => simp

end VoxForge.Sso
