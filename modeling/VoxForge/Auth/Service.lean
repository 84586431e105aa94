import VoxForge.Sso.AssertionConsumer

/-! The organisation API: accounts, memberships, invites, SAML connections and API keys.
Each request runs to its commit, or raises and leaves the tables as they were. -/
namespace VoxForge.Auth
open Core Sso

inductive AuthError where
  | invalidCredentials (message : String)
  | unauthorized (message : String)
  | forbidden (message : String)
  | organizationNotFound (id : Option OrgId)
  | http (code : Nat) (detail : String)
  /-- A unique or foreign key constraint. -/
  | integrity
  | saml (e : SsoError)
  deriving DecidableEq, Repr

structure Organization where
  id : OrgId
  name : String
  deriving DecidableEq, Repr

structure Invite where
  id : Nat
  orgId : OrgId
  email : String
  role : OrgRole
  tokenHash : String
  invitedByUserId : Option UserId
  expiresAt : Int
  accepted : Bool := false
  deriving DecidableEq, Repr

structure ApiKey where
  id : Nat
  orgId : OrgId
  name : String
  keyPrefix : String
  keyHash : String
  scopes : List Scope
  createdByUserId : Option UserId
  expiresAt : Option Int := none
  revoked : Bool := false
  deriving DecidableEq, Repr

/-- The rows, with the access tokens that have been signed. `nextId` is the next generated id. -/
structure Store extends Sso.Store where
  orgs : List Organization := []
  invites : List Invite := []
  apiKeys : List ApiKey := []
  hashedPasswords : List (UserId × String) := []
  issued : List Tokens := []
  nextId : Nat := 1
  deriving DecidableEq, Repr

structure Settings extends Sso.Settings where
  appEnv : String := "development"
  apiKeyPrefix : String := "vxf_"
  authRequired : Bool := true
  registrationEnabled : Bool := true
  inviteTtlHours : Nat := 72
  deriving DecidableEq, Repr

/-- What the platform provides besides the SAML libraries: hashes, and the parser of ids. -/
structure Environment where
  saml : Sso.Environment
  uuid : String → Option Nat
  hashPassword : String → String
  verifyPassword : String → String → Bool
  sha256 : String → String
  hashApiKey : String → String

namespace Store

def userByEmail (store : Store) (email : String) : Option User :=
  store.users.find? (·.email = email)

def membership (store : Store) (orgId : OrgId) (userId : UserId) : Option OrganizationMember :=
  store.members.find? fun m => m.orgId = orgId && m.userId = userId

def createUser (store : Store) (email hashedPassword fullName : String) : User × Store :=
  let user : User := { id := store.nextUserId, email, fullName }
  (user,{ store with
    users := store.users ++ [user]
    nextUserId := store.nextUserId + 1
    hashedPasswords := store.hashedPasswords ++ [(user.id,hashedPassword)] })

def createOrganization (store : Store) (name : String) : Organization × Store :=
  let org : Organization := { id := store.nextId, name }
  (org,{ store with orgs := store.orgs ++ [org], nextId := store.nextId + 1 })

/-- `OrganizationMemberRepository.add_member`, under `uq_org_member` and the foreign keys. -/
def insertMember (store : Store) (member : OrganizationMember) : Except AuthError Store :=
  if (store.membership member.orgId member.userId).isSome then .error .integrity
  else if store.orgs.any (·.id = member.orgId) && store.users.any (·.id = member.userId) then
    .ok { store with members := store.members ++ [member] }
  else .error .integrity

def upsertMember (store : Store) (member : OrganizationMember) : Store :=
  { store with toStore := store.toStore.upsertMember member }

def issue (store : Store) (tokens : Tokens) : Store := { store with issued := store.issued ++ [tokens] }

def pendingInvite (store : Store) (orgId : OrgId) (email : String) : Option Invite :=
  store.invites.find? fun i => i.orgId = orgId && i.email = email && !i.accepted

/-- `OrganizationInviteRepository.create`: a pending invite of the address is overwritten.
Token hashes are unique, and so are addresses within an organisation. -/
def createInvite (store : Store) (orgId : OrgId) (email : String) (role : OrgRole) (tokenHash : String)
    (invitedByUserId : Option UserId) (expiresAt : Int) : Except AuthError (Invite × Store) :=
  match store.pendingInvite orgId email with
  | some existing =>
    let invite := { existing with role, tokenHash, invitedByUserId, expiresAt, accepted := false }
    if store.invites.any fun i => i.tokenHash = tokenHash && i.id ≠ existing.id then .error .integrity
    else .ok (invite,{ store with
      invites := store.invites.map fun i => if i.id = existing.id then invite else i })
  | none =>
    let invite : Invite := { id := store.nextId, orgId, email, role, tokenHash, invitedByUserId, expiresAt }
    if store.invites.any fun i => i.tokenHash = tokenHash || (i.orgId = orgId && i.email = email) then
      .error .integrity
    else .ok (invite,{ store with invites := store.invites ++ [invite], nextId := store.nextId + 1 })

def markAccepted (store : Store) (invite : Invite) : Store :=
  { store with invites := store.invites.map fun i => if i.id = invite.id then { i with accepted := true } else i }

end Store

def requireScope (actor : Principal) (scope : Scope) : Except AuthError Unit :=
  if actor.hasScope scope then .ok () else .error (.forbidden ("Missing required scope: " ++ scope))

def requireOrgScope (actor : Principal) (scope : Scope) (orgId : OrgId) : Except AuthError Unit :=
  if actor.orgId ≠ orgId then .error (.forbidden "Access denied for this organization")
  else requireScope actor scope

theorem requireOrgScope_ok {actor : Principal} {scope : Scope} {orgId : OrgId} {u : Unit}
    (h : requireOrgScope actor scope orgId = .ok u) : actor.orgId = orgId ∧ actor.hasScope scope = true := by
  unfold requireOrgScope requireScope at h
  split_ifs at h with horg hscope
  exact ⟨not_not.mp horg,hscope⟩

variable (env : Environment) (settings : Settings)

/-- The route and `AuthService.register`. -/
def register (store : Store) (email password fullName orgName : String) :
    Except AuthError ((User × Organization × Tokens) × Store) := do
  if !settings.registrationEnabled then
    .error (.http 403
      "Public registration is disabled. Use an organization invite or ask an admin.")
  else if (store.userByEmail email).isSome then .error (.invalidCredentials "Email already registered")
  else
    let (user,store) := store.createUser email (env.hashPassword password) fullName
    let (org,store) := store.createOrganization orgName
    let store ← store.insertMember { orgId := org.id, userId := user.id, role := .owner }
    let tokens : Tokens := { userId := user.id, orgId := org.id, role := .owner }
    return ((user,org,tokens),store.issue tokens)

def passwordMatches (store : Store) (userId : UserId) (password : String) : Bool :=
  (store.hashedPasswords.find? (·.1 = userId)).any fun stored => env.verifyPassword password stored.2

/-- `AuthService.login`, into the first organisation of the user. -/
def login (store : Store) (email password : String) : Except AuthError (Tokens × Store) :=
  match store.userByEmail email with
  | none => .error (.invalidCredentials "Invalid credentials")
  | some user =>
    if !passwordMatches env store user.id password then
      .error (.invalidCredentials "Invalid credentials")
    else if !user.isActive then .error (.unauthorized "Account is inactive")
    else
      match store.orgs.findSome? fun org => store.membership org.id user.id with
      | none => .error (.organizationNotFound none)
      | some membership =>
        let tokens : Tokens :=
          { userId := user.id, orgId := membership.orgId, role := membership.role }
        .ok (tokens,store.issue tokens)

/-- `AuthService.refresh`: a refresh token names a user and an organisation. -/
def refresh (store : Store) (userId : UserId) (orgId : OrgId) : Except AuthError (Tokens × Store) :=
  if store.issued.any fun t => t.userId = userId && t.orgId = orgId then
    match store.membership orgId userId with
    | none => .error (.unauthorized "Organization membership not found")
    | some membership =>
      let tokens : Tokens := { userId, orgId, role := membership.role }
      .ok (tokens,store.issue tokens)
  else .error (.unauthorized "Invalid or expired token")

def principalFromAccessToken (tokens : Tokens) : Principal :=
  { userId := some tokens.userId, orgId := tokens.orgId, role := some tokens.role }

def principalFromApiKeyRecord (orgId : OrgId) (scopes : List Scope) : Principal := { orgId, scopes }

def keyPrefixOf (rawKey : String) : String := String.ofList (rawKey.toList.take 12)

def resolvePrincipalFromApiKey (store : Store) (now : Int) (rawKey : String) :
    Except AuthError Principal :=
  if !settings.apiKeyPrefix.toList.isPrefixOf rawKey.toList then
    .error (.unauthorized "Invalid API key format")
  else
    match store.apiKeys.find? fun key => key.keyPrefix = keyPrefixOf rawKey && !key.revoked &&
        key.keyHash = env.hashApiKey rawKey with
    | none => .error (.unauthorized "Invalid API key")
    | some key =>
      if key.expiresAt.any (· < now) then .error (.unauthorized "API key expired")
      else .ok (principalFromApiKeyRecord key.orgId key.scopes)

/-- What a request carries to identify its caller. -/
inductive Credential where
  | bearer (tokens : Tokens)
  | apiKey (rawKey : String)
  | anonymous
  deriving DecidableEq, Repr

/-- `get_current_principal`. A token that was not signed here does not decode. -/
def currentPrincipal (store : Store) (now : Int) (credential : Credential) : Except AuthError Principal :=
  if !settings.authRequired then
    if settings.appEnv = "production" then
      .error (.http 500 "AUTH_REQUIRED must be enabled in production")
    else .ok { userId := some 0x1, orgId := 0x10, role := some .owner }
  else match credential with
  | .bearer tokens =>
    if tokens ∈ store.issued then .ok (principalFromAccessToken tokens)
    else .error (.http 401 "Invalid or expired token")
  | .apiKey rawKey =>
    match resolvePrincipalFromApiKey env settings store now rawKey with
    | .ok principal => .ok principal
    | .error (.unauthorized message) => .error (.http 401 message)
    | .error e => .error e
  | .anonymous => .error (.http 401 "Authentication required")

/-- The route and `AuthService.create_org`. -/
def createOrg (store : Store) (name : String) (actor : Principal) :
    Except AuthError (Organization × Store) := do
  requireScope actor "orgs:write"
  match actor.userId with
  | none => .error (.http 400 "API keys cannot create organizations")
  | some userId =>
    let (org,store) := store.createOrganization name
    let store ← store.insertMember { orgId := org.id, userId, role := .owner }
    return (org,store)

def addMember (store : Store) (orgId : OrgId) (userId : UserId) (role : OrgRole) (actor : Principal) :
    Except AuthError (OrganizationMember × Store) := do
  requireOrgScope actor "orgs:manage_members" orgId
  let store ← store.insertMember { orgId, userId, role }
  return ({ orgId, userId, role },store)

/-- The route and `AuthService.create_invite`; `rawToken` is the generated token. -/
def createInvite (store : Store) (now : Int) (orgId : OrgId) (email : String) (role : OrgRole)
    (actor : Principal) (rawToken : String) : Except AuthError (Invite × Store) := do
  if !store.orgs.any (·.id = orgId) then .error (.organizationNotFound (some orgId))
  else
    requireOrgScope actor "orgs:manage_members" orgId
    let normalized := strip (env.saml.lower email)
    if normalized = "" ∨ '@' ∉ normalized.toList then .error (.invalidCredentials "Invalid invite email")
    else
      let expiresAt := now + settings.inviteTtlHours * 3600000000
      store.createInvite orgId normalized role (env.sha256 rawToken) actor.userId expiresAt

/-- The user of an invite: a new one, or the one with its address and the right password. -/
def inviteUser (store : Store) (invite : Invite) (password fullName : String) :
    Except AuthError (User × Store) :=
  match store.userByEmail invite.email with
  | none => .ok (store.createUser invite.email (env.hashPassword password) fullName)
  | some user =>
    if passwordMatches env store user.id password then .ok (user,store)
    else .error (.invalidCredentials "Password does not match existing account")

def acceptInvite (store : Store) (now : Int) (token password fullName : String) :
    Except AuthError ((User × OrgId × Tokens) × Store) :=
  match store.invites.find? (·.tokenHash = env.sha256 token) with
  | none => .error (.invalidCredentials "Invalid or already used invite")
  | some invite =>
    if invite.accepted then .error (.invalidCredentials "Invalid or already used invite")
    else if invite.expiresAt < now then .error (.invalidCredentials "Invite has expired")
    else do
      let (user,store) ← inviteUser env store invite password fullName
      let store := store.upsertMember { orgId := invite.orgId, userId := user.id, role := invite.role }
      let store := store.markAccepted invite
      let tokens : Tokens := { userId := user.id, orgId := invite.orgId, role := invite.role }
      return ((user,invite.orgId,tokens),store.issue tokens)

structure ConnectionDetails where
  idpX509Cert : String
  spEntityId : String
  defaultRole : OrgRole := .member
  roleMappingRules : List (String × String) := []
  deriving DecidableEq, Repr

def createConnection (store : Store) (orgId : OrgId) (details : ConnectionDetails) (actor : Principal) :
    Except AuthError (SamlConnection × Store) := do
  requireOrgScope actor "orgs:write" orgId
  if !store.orgs.any (·.id = orgId) then .error .integrity
  else
    let connection : SamlConnection := {
      id := store.nextId
      orgId
      status := .draft
      idpX509Cert := details.idpX509Cert
      spEntityId := details.spEntityId
      defaultRole := details.defaultRole
      roleMappingRules := details.roleMappingRules }
    return (connection,{ store with
      connections := store.connections ++ [connection], nextId := store.nextId + 1 })

def updateConnection (store : Store) (orgId : OrgId) (connectionId : Nat) (status : SamlConnectionStatus)
    (roleMappingRules : List (String × String)) (actor : Principal) :
    Except AuthError (SamlConnection × Store) := do
  requireOrgScope actor "orgs:write" orgId
  match store.toStore.getConnection connectionId with
  | .error e => .error (.saml e)
  | .ok existing =>
    if existing.orgId ≠ orgId then .error (.forbidden "Access denied for this organization")
    else
      let updated := { existing with status, roleMappingRules }
      return (updated,{ store with
        connections := store.connections.map fun c => if c.id = connectionId then updated else c })

/-- `consume_acs`; a user it provisions gets the hash of a random password. -/
def consumeAcs (store : Store) (now : Int) (request : AcsRequest) (secret : String) :
    Except AuthError (AcsAnswer × Store) :=
  match Sso.consumeAcs { env.saml with now } env.uuid settings.toSettings store.toStore request with
  | .error e => .error (.saml e)
  | .ok (answer,after) =>
    let provisioned := if answer.userId = store.nextUserId then [(answer.userId,env.hashPassword secret)] else []
    .ok (answer,{ store with
      toStore := after
      hashedPasswords := store.hashedPasswords ++ provisioned }.issue answer.tokens)

/-- The route and `AuthService.create_api_key`; `rawKey` is the generated key. -/
def createApiKey (store : Store) (name : String) (scopes : List Scope) (actor : Principal)
    (expiresAt : Option Int) (rawKey : String) : Except AuthError (ApiKey × Store) := do
  requireOrgScope actor "api_keys:write" actor.orgId
  let invalidScopes := (scopes.filter (· ∉ allApiKeyScopes)).dedup.mergeSort (fun a b => decide (a ≤ b))
  if invalidScopes ≠ [] then
    .error (.forbidden ("Invalid API key scopes: " ++ ", ".intercalate invalidScopes))
  else
    match scopes.find? (!actor.hasScope ·) with
    | some scope => .error (.forbidden ("Cannot grant scope you do not have: " ++ scope))
    | none =>
      if !store.orgs.any (·.id = actor.orgId) then .error .integrity
      else
        let key : ApiKey := {
          id := store.nextId
          orgId := actor.orgId
          name
          keyPrefix := keyPrefixOf rawKey
          keyHash := env.hashApiKey rawKey
          scopes
          createdByUserId := actor.userId
          expiresAt }
        return (key,{ store with apiKeys := store.apiKeys ++ [key], nextId := store.nextId + 1 })

/-! Requests to the API. -/

inductive Request where
  | register (email password fullName orgName : String)
  | login (email password : String)
  | refresh (userId : UserId) (orgId : OrgId)
  | createOrg (name : String)
  | addMember (orgId : OrgId) (userId : UserId) (role : OrgRole)
  | createInvite (orgId : OrgId) (email : String) (role : OrgRole) (rawToken : String)
  | acceptInvite (token password fullName : String)
  | createConnection (orgId : OrgId) (details : ConnectionDetails)
  | updateConnection (orgId : OrgId) (connectionId : Nat) (status : SamlConnectionStatus)
      (roleMappingRules : List (String × String))
  | consumeAcs (request : AcsRequest) (secret : String)
  | createApiKey (name : String) (scopes : List Scope) (expiresAt : Option Int) (rawKey : String)
  deriving DecidableEq, Repr

/-- A request with its caller's credential and the time of the clock. -/
structure Label where
  credential : Credential := .anonymous
  now : Int := 0
  request : Request
  deriving DecidableEq, Repr

def perform (store : Store) (l : Label) : Except AuthError Store :=
  match l.request with
  | .register email password fullName orgName =>
    (register env settings store email password fullName orgName).map Prod.snd
  | .login email password => (login env store email password).map Prod.snd
  | .refresh userId orgId => (refresh store userId orgId).map Prod.snd
  | .acceptInvite token password fullName =>
    (acceptInvite env store l.now token password fullName).map Prod.snd
  | .consumeAcs request secret => (consumeAcs env settings store l.now request secret).map Prod.snd
  | .createOrg name => do
    let actor ← currentPrincipal env settings store l.now l.credential
    (createOrg store name actor).map Prod.snd
  | .addMember orgId userId role => do
    let actor ← currentPrincipal env settings store l.now l.credential
    (addMember store orgId userId role actor).map Prod.snd
  | .createInvite orgId email role rawToken => do
    let actor ← currentPrincipal env settings store l.now l.credential
    (createInvite env settings store l.now orgId email role actor rawToken).map Prod.snd
  | .createConnection orgId details => do
    let actor ← currentPrincipal env settings store l.now l.credential
    (createConnection store orgId details actor).map Prod.snd
  | .updateConnection orgId connectionId status roleMappingRules => do
    let actor ← currentPrincipal env settings store l.now l.credential
    (updateConnection store orgId connectionId status roleMappingRules actor).map Prod.snd
  | .createApiKey name scopes expiresAt rawKey => do
    let actor ← currentPrincipal env settings store l.now l.credential
    (createApiKey env store name scopes actor expiresAt rawKey).map Prod.snd

/-- A request that raises is rolled back and changes nothing. -/
def step (store : Store) (l : Label) : Option Store := (perform env settings store l).toOption

def empty : Store := { connections := [], users := [], members := [], nextUserId := 1 }

end VoxForge.Auth
