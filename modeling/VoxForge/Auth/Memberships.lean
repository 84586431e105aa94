import VoxForge.Auth.Service
import VoxForge.Foundation.Fallible
import VoxForge.Foundation.Runs
import VoxForge.Sso.Connections

/-! What a request of the organisation API does to memberships, and whether every
organisation keeps an owner. -/
namespace VoxForge.Auth
open Foundation Core Sso

/-- The tables that decide who owns an organisation. -/
structure Tables where
  orgs : List Organization
  members : List OrganizationMember
  invites : List Invite
  connections : List SamlConnection

def Store.tables (store : Store) : Tables := ⟨store.orgs,store.members,store.invites,store.connections⟩

/-- The user that an address belongs to, or will be created for. -/
def Store.accountOf (store : Store) (email : String) : UserId :=
  ((store.userByEmail email).map (·.id)).getD store.nextUserId

section performed
variable (env : Environment) (settings : Settings)

/-- The tables after a request that succeeds, with what its checks have found. -/
inductive Performed (a : Store) (l : Label) : Store → Prop
  | registered {email password fullName orgName : String}
      (hrequest : l.request = .register email password fullName orgName) (hfree : a.userByEmail email = none) :
      Performed a l (Store.issue
        { ((a.createUser email (env.hashPassword password) fullName).2.createOrganization orgName).2 with
          members := a.members ++ [{ orgId := a.nextId, userId := a.nextUserId, role := .owner }] }
        { userId := a.nextUserId, orgId := a.nextId, role := .owner })
  | loggedIn {email password : String} {user : User} {tokens : Tokens}
      (hrequest : l.request = .login email password) (huser : a.userByEmail email = some user)
      (hactive : user.isActive = true) (hid : tokens.userId = user.id) : Performed a l (a.issue tokens)
  | refreshed {userId : UserId} {orgId : OrgId} {tokens : Tokens} (hrequest : l.request = .refresh userId orgId)
      (hid : tokens.userId = userId) : Performed a l (a.issue tokens)
  | founded {name : String} {actor : Principal} {userId : UserId} (hrequest : l.request = .createOrg name)
      (hactor : currentPrincipal env settings a l.now l.credential = .ok actor) (huser : actor.userId = some userId) :
      Performed a l { (a.createOrganization name).2 with
        members := a.members ++ [{ orgId := a.nextId, userId, role := .owner }] }
  | added {orgId : OrgId} {userId : UserId} {role : OrgRole} (hrequest : l.request = .addMember orgId userId role) :
      Performed a l { a with members := a.members ++ [{ orgId, userId, role }] }
  | invited {orgId : OrgId} {email rawToken : String} {role : OrgRole} {inviter : Option UserId} {expiresAt : Int}
      {invite : Invite} {b : Store} (hrequest : l.request = .createInvite orgId email role rawToken)
      (hok : a.createInvite orgId (strip (env.saml.lower email)) role (env.sha256 rawToken) inviter expiresAt =
        .ok (invite,b)) : Performed a l b
  | accepted {token password fullName : String} {answer : User × OrgId × Tokens} {b : Store}
      (hrequest : l.request = .acceptInvite token password fullName)
      (hok : acceptInvite env a l.now token password fullName = .ok (answer,b)) : Performed a l b
  | connected {orgId : OrgId} {details : ConnectionDetails} {connection : SamlConnection}
      (hrequest : l.request = .createConnection orgId details) (horg : connection.orgId = orgId)
      (hrole : connection.defaultRole = details.defaultRole)
      (hrules : connection.roleMappingRules = details.roleMappingRules) :
      Performed a l { a with connections := a.connections ++ [connection], nextId := a.nextId + 1 }
  | remapped {orgId : OrgId} {connectionId : Nat} {status : SamlConnectionStatus} {rules : List (String × String)}
      {existing : SamlConnection} (hrequest : l.request = .updateConnection orgId connectionId status rules)
      (hexisting : a.toStore.getConnection connectionId = .ok existing) (horg : existing.orgId = orgId) :
      Performed a l { a with
        connections := a.connections.map fun c =>
          if c.id = connectionId then { existing with status, roleMappingRules := rules } else c }
  | consumed {request : AcsRequest} {secret : String} {answer : AcsAnswer} {b : Store}
      (hrequest : l.request = .consumeAcs request secret)
      (hok : consumeAcs env settings a l.now request secret = .ok (answer,b)) : Performed a l b
  | keyed {name rawKey : String} {scopes : List Scope} {expiresAt : Option Int} {key : ApiKey}
      (hrequest : l.request = .createApiKey name scopes expiresAt rawKey) :
      Performed a l { a with apiKeys := a.apiKeys ++ [key], nextId := a.nextId + 1 }

variable {env settings} {a b : Store}

theorem insertMember_ok {member : OrganizationMember} (h : a.insertMember member = .ok b) :
    b = { a with members := a.members ++ [member] } := by
  unfold Store.insertMember at h
  split_ifs at h
  cases h
  rfl

theorem performed_of_ok {l : Label} (h : perform env settings a l = .ok b) : Performed env settings a l b := by
  obtain ⟨credential,now,request⟩ := l
  cases request with
  | register email password fullName orgName =>
    obtain ⟨r,hok,rfl⟩ := map_eq_ok.mp h
    unfold register at hok
    split_ifs at hok with henabled hfree
    obtain ⟨t,hinsert,hok⟩ := bind_eq_ok.mp hok
    obtain rfl := insertMember_ok hinsert
    obtain rfl := Except.ok.inj hok
    exact .registered rfl (by simpa using hfree)
  | login email password =>
    obtain ⟨r,hok,rfl⟩ := map_eq_ok.mp h
    unfold login at hok
    split at hok
    · cases hok
    · next user huser =>
      split_ifs at hok with hpassword hactive
      split at hok
      · cases hok
      · cases hok
        exact .loggedIn rfl huser (by simpa using hactive) rfl
  | refresh userId orgId =>
    obtain ⟨r,hok,rfl⟩ := map_eq_ok.mp h
    unfold refresh at hok
    split_ifs at hok
    split at hok
    · cases hok
    · cases hok
      exact .refreshed rfl rfl
  | createOrg name =>
    obtain ⟨actor,hactor,h⟩ := bind_eq_ok.mp h
    obtain ⟨r,hok,rfl⟩ := map_eq_ok.mp h
    obtain ⟨_,_,hok⟩ := bind_eq_ok.mp hok
    split at hok
    · cases hok
    · next userId huser =>
      obtain ⟨t,hinsert,hok⟩ := bind_eq_ok.mp hok
      obtain rfl := insertMember_ok hinsert
      obtain rfl := Except.ok.inj hok
      exact .founded rfl hactor huser
  | addMember orgId userId role =>
    obtain ⟨actor,hactor,h⟩ := bind_eq_ok.mp h
    obtain ⟨r,hok,rfl⟩ := map_eq_ok.mp h
    obtain ⟨_,_,hok⟩ := bind_eq_ok.mp hok
    obtain ⟨t,hinsert,hok⟩ := bind_eq_ok.mp hok
    obtain rfl := insertMember_ok hinsert
    obtain rfl := Except.ok.inj hok
    exact .added rfl
  | createInvite orgId email role rawToken =>
    obtain ⟨actor,hactor,h⟩ := bind_eq_ok.mp h
    obtain ⟨r,hok,rfl⟩ := map_eq_ok.mp h
    unfold createInvite at hok
    split_ifs at hok
    obtain ⟨_,_,hok⟩ := bind_eq_ok.mp hok
    dsimp only at hok
    split_ifs at hok
    exact .invited rfl hok
  | acceptInvite token password fullName =>
    obtain ⟨r,hok,rfl⟩ := map_eq_ok.mp h
    exact .accepted rfl hok
  | createConnection orgId details =>
    obtain ⟨actor,hactor,h⟩ := bind_eq_ok.mp h
    obtain ⟨r,hok,rfl⟩ := map_eq_ok.mp h
    obtain ⟨_,_,hok⟩ := bind_eq_ok.mp hok
    split_ifs at hok
    obtain rfl := Except.ok.inj hok
    exact .connected rfl rfl rfl rfl
  | updateConnection orgId connectionId status rules =>
    obtain ⟨actor,hactor,h⟩ := bind_eq_ok.mp h
    obtain ⟨r,hok,rfl⟩ := map_eq_ok.mp h
    obtain ⟨_,_,hok⟩ := bind_eq_ok.mp hok
    split at hok
    · cases hok
    · next existing hexisting =>
      split_ifs at hok with horg
      obtain rfl := Except.ok.inj hok
      exact .remapped rfl hexisting (not_not.mp horg)
  | consumeAcs request secret =>
    obtain ⟨r,hok,rfl⟩ := map_eq_ok.mp h
    exact .consumed rfl hok
  | createApiKey name scopes expiresAt rawKey =>
    obtain ⟨actor,hactor,h⟩ := bind_eq_ok.mp h
    obtain ⟨r,hok,rfl⟩ := map_eq_ok.mp h
    obtain ⟨_,_,hok⟩ := bind_eq_ok.mp hok
    dsimp only at hok
    split at hok
    · cases hok
    · split at hok
      · cases hok
      · split_ifs at hok
        obtain rfl := Except.ok.inj hok
        exact .keyed rfl

end performed

section change
variable (env : Environment) (settings : Settings)

/-- The caller who becomes the first member of a new organisation. -/
def founder (store : Store) (l : Label) : Option UserId :=
  match l.request with
  | .register .. => some store.nextUserId
  | .createOrg _ => (currentPrincipal env settings store l.now l.credential).toOption.bind (·.userId)
  | _ => none

/-- The membership that a SAML login or an accepted invite writes, over one that may exist. -/
def upserted (store : Store) (l : Label) : Option OrganizationMember :=
  match l.request with
  | .acceptInvite token _ _ =>
    (store.invites.find? (·.tokenHash = env.sha256 token)).map fun invite =>
      { orgId := invite.orgId, userId := store.accountOf invite.email, role := invite.role }
  | .consumeAcs request _ =>
    (store.toStore.resolveAcsConnection env.uuid request).toOption.bind fun connection =>
      (parseSamlAssertion { env.saml with now := l.now } request.samlResponse).toOption.map fun assertion =>
        { orgId := request.orgId
          userId := store.accountOf assertion.email
          role := resolveRoleFromMapping { env.saml with now := l.now } assertion.groups
            connection.roleMappingRules connection.defaultRole }
  | _ => none

/-- What a request that succeeds does to the tables. -/
inductive Change (a : Store) (l : Label) (b : Store) : Prop
  | kept (hnone : upserted env a l = none) (h : b.tables = a.tables)
  | founded {userId : UserId} {name : String} (hfounder : founder env settings a l = some userId)
      (h : b.tables = { a.tables with
        orgs := a.orgs ++ [{ id := a.nextId, name }]
        members := a.members ++ [{ orgId := a.nextId, userId, role := .owner }] })
  | added {orgId : OrgId} {userId : UserId} {role : OrgRole} (hrequest : l.request = .addMember orgId userId role)
      (h : b.tables = { a.tables with members := a.members ++ [{ orgId, userId, role }] })
  | invited {orgId : OrgId} {email rawToken : String} {role : OrgRole} {invites : List Invite}
      (hrequest : l.request = .createInvite orgId email role rawToken)
      (hinvites : ∀ i ∈ invites, i ∈ a.invites ∨ (i.orgId = orgId ∧ i.role = role))
      (h : b.tables = { a.tables with invites := invites })
  | accepted {token password fullName : String} {invite : Invite} {invites : List Invite}
      (hrequest : l.request = .acceptInvite token password fullName)
      (hinvite : a.invites.find? (·.tokenHash = env.sha256 token) = some invite)
      (hpending : invite.accepted = false)
      (hinvites : ∀ i ∈ invites, i ∈ a.invites ∨ i.accepted = true)
      (h : b.tables = { a.tables with
        members := (a.toStore.upsertMember { orgId := invite.orgId
                                             userId := a.accountOf invite.email
                                             role := invite.role }).members
        invites := invites })
  | connected {orgId : OrgId} {details : ConnectionDetails} {connection : SamlConnection}
      (hrequest : l.request = .createConnection orgId details) (horg : connection.orgId = orgId)
      (hrole : connection.defaultRole = details.defaultRole)
      (hrules : connection.roleMappingRules = details.roleMappingRules)
      (h : b.tables = { a.tables with connections := a.connections ++ [connection] })
  | remapped {orgId : OrgId} {connectionId : Nat} {status : SamlConnectionStatus}
      {rules : List (String × String)} {existing : SamlConnection}
      (hrequest : l.request = .updateConnection orgId connectionId status rules)
      (hexisting : existing ∈ a.connections) (hid : existing.id = connectionId) (horg : existing.orgId = orgId)
      (h : b.tables = { a.tables with
        connections := a.connections.map fun c =>
          if c.id = connectionId then { existing with status, roleMappingRules := rules } else c })
  | loggedIn {request : AcsRequest} {secret : String} {connection : SamlConnection} {assertion : SamlAssertion}
      (hrequest : l.request = .consumeAcs request secret)
      (hconnection : a.toStore.resolveAcsConnection env.uuid request = .ok connection)
      (hassertion : parseSamlAssertion { env.saml with now := l.now } request.samlResponse = .ok assertion)
      (h : b.tables = { a.tables with
        members := (a.toStore.upsertMember {
          orgId := request.orgId
          userId := a.accountOf assertion.email
          role := resolveRoleFromMapping { env.saml with now := l.now } assertion.groups
            connection.roleMappingRules connection.defaultRole }).members })

end change

section effects
variable {env : Environment} {settings : Settings} {a b : Store}

theorem createInvite_row {orgId : OrgId} {email tokenHash : String} {role : OrgRole} {inviter : Option UserId}
    {expiresAt : Int} {invite : Invite} (h : a.createInvite orgId email role tokenHash inviter expiresAt = .ok (invite,b)) :
    ∃ invites, (∀ i ∈ invites, i ∈ a.invites ∨ (i.orgId = orgId ∧ i.role = role)) ∧
      b.tables = { a.tables with invites := invites } := by
  unfold Store.createInvite at h
  split at h
  · next existing hpending =>
    split_ifs at h
    cases h
    refine ⟨_,?_,rfl⟩
    intro i hi
    obtain ⟨j,hj,rfl⟩ := List.mem_map.mp hi
    split
    · have hfound := List.find?_some hpending
      simp only [Bool.and_eq_true,decide_eq_true_eq] at hfound
      exact .inr ⟨hfound.1.1,rfl⟩
    · exact .inl hj
  · split_ifs at h
    cases h
    refine ⟨_,?_,rfl⟩
    intro i hi
    rcases List.mem_append.mp hi with hold | hnew
    · exact .inl hold
    · obtain rfl := List.mem_singleton.mp hnew
      exact .inr ⟨rfl,rfl⟩

theorem inviteUser_ok {invite : Invite} {password fullName : String} {user : User}
    (h : inviteUser env a invite password fullName = .ok (user,b)) :
    user.id = a.accountOf invite.email ∧ b.tables = a.tables := by
  unfold inviteUser at h
  unfold Store.accountOf
  split at h
  · next hnone =>
    cases h
    rw [hnone]
    exact ⟨rfl,rfl⟩
  · next found hsome =>
    split_ifs at h
    cases h
    rw [hsome]
    exact ⟨rfl,rfl⟩

theorem provision_account (store : Sso.Store) (orgId : OrgId) (assertion : SamlAssertion) :
    (store.provision orgId assertion).1.id =
        ((store.users.find? (·.email = assertion.email)).map (·.id)).getD store.nextUserId ∧
      (store.provision orgId assertion).2.members = store.members ∧
      (store.provision orgId assertion).2.connections = store.connections := by
  unfold Sso.Store.provision
  cases store.users.find? (·.email = assertion.email) <;> exact ⟨rfl,rfl,rfl⟩

theorem upsertMember_members {s t : Sso.Store} (h : s.members = t.members) (m : OrganizationMember) :
    (s.upsertMember m).members = (t.upsertMember m).members := by
  simp only [Sso.Store.upsertMember,h]

theorem consumeAcs_members {env : Sso.Environment} {uuid : String → Option Nat} {settings : Sso.Settings}
    {store after : Sso.Store} {request : AcsRequest} {answer : AcsAnswer}
    (h : Sso.consumeAcs env uuid settings store request = .ok (answer,after)) :
    ∃ connection assertion, store.resolveAcsConnection uuid request = .ok connection ∧
      parseSamlAssertion env request.samlResponse = .ok assertion ∧
      after.connections = store.connections ∧
      after.members = (store.upsertMember {
        orgId := request.orgId
        userId := ((store.users.find? (·.email = assertion.email)).map (·.id)).getD store.nextUserId
        role := resolveRoleFromMapping env assertion.groups connection.roleMappingRules
          connection.defaultRole }).members := by
  obtain ⟨connection,hconn,h⟩ := bind_eq_ok.mp h
  obtain ⟨_,_,h⟩ := bind_eq_ok.mp h
  obtain ⟨assertion,hparse,h⟩ := bind_eq_ok.mp h
  obtain ⟨huser,hmembers,hconnections⟩ := provision_account store request.orgId assertion
  obtain ⟨-,rfl⟩ := Prod.mk.inj (Except.ok.inj h)
  refine ⟨connection,assertion,hconn,hparse,hconnections,?_⟩
  rw [← huser]
  exact upsertMember_members hmembers _

/-- The invite that is accepted, and what accepting it does. -/
theorem acceptInvite_ok {now : Int} {token password fullName : String} {r : User × OrgId × Tokens}
    (h : acceptInvite env a now token password fullName = .ok (r,b)) :
    ∃ invite user t, a.invites.find? (·.tokenHash = env.sha256 token) = some invite ∧ invite.accepted = false ∧
      now ≤ invite.expiresAt ∧ inviteUser env a invite password fullName = .ok (user,t) ∧
      b = ((t.upsertMember { orgId := invite.orgId, userId := user.id, role := invite.role }).markAccepted
        invite).issue { userId := user.id, orgId := invite.orgId, role := invite.role } := by
  unfold acceptInvite at h
  split at h
  · cases h
  · next invite hinvite =>
    split_ifs at h with haccepted hexpired
    obtain ⟨⟨user,t⟩,huser,h⟩ := bind_eq_ok.mp h
    obtain ⟨-,rfl⟩ := Prod.mk.inj (Except.ok.inj h)
    exact ⟨invite,user,t,hinvite,by simpa using haccepted,Int.not_lt.mp hexpired,huser,rfl⟩

theorem consumeAcs_eq_ok {now : Int} {request : AcsRequest} {secret : String} {answer : AcsAnswer}
    (h : consumeAcs env settings a now request secret = .ok (answer,b)) :
    ∃ after hashedPasswords,
      Sso.consumeAcs { env.saml with now } env.uuid settings.toSettings a.toStore request = .ok (answer,after) ∧
      b = Store.issue { a with toStore := after, hashedPasswords } answer.tokens := by
  unfold consumeAcs at h
  split at h
  · cases h
  · next answer after hacs =>
    obtain ⟨rfl,rfl⟩ := Prod.mk.inj (Except.ok.inj h)
    exact ⟨after,_,hacs,rfl⟩

theorem acceptInvite_change {l : Label} {token password fullName : String} {r : User × OrgId × Tokens}
    (hrequest : l.request = .acceptInvite token password fullName)
    (h : acceptInvite env a l.now token password fullName = .ok (r,b)) : Change env settings a l b := by
  obtain ⟨invite,user,t,hinvite,haccepted,-,huser,rfl⟩ := acceptInvite_ok h
  obtain ⟨hid,htables⟩ := inviteUser_ok huser
  have hinvites : t.invites = a.invites := congrArg Tables.invites htables
  have hmembers : t.members = a.members := congrArg Tables.members htables
  have hother : t.orgs = a.orgs ∧ t.connections = a.connections :=
    ⟨congrArg Tables.orgs htables,congrArg Tables.connections htables⟩
  have hrows : ∀ i ∈ a.invites.map fun i => if i.id = invite.id then { i with accepted := true } else i,
      i ∈ a.invites ∨ i.accepted = true := by
    intro i hi
    obtain ⟨j,hj,rfl⟩ := List.mem_map.mp hi
    split
    · exact .inr rfl
    · exact .inl hj
  apply Change.accepted hrequest hinvite haccepted hrows
  rw [← hid]
  simp only [Store.tables,Store.issue,Store.markAccepted,Store.upsertMember,hinvites,hother,
    upsertMember_members hmembers]
  simp [Sso.Store.upsertMember,hother]

theorem consumeAcs_change {l : Label} {request : AcsRequest} {secret : String} {answer : AcsAnswer}
    (hrequest : l.request = .consumeAcs request secret)
    (h : consumeAcs env settings a l.now request secret = .ok (answer,b)) : Change env settings a l b := by
  obtain ⟨after,_,hacs,rfl⟩ := consumeAcs_eq_ok h
  obtain ⟨connection,assertion,hconn,hparse,hconnections,hmembers⟩ := consumeAcs_members hacs
  refine .loggedIn hrequest hconn hparse ?_
  simp only [Store.tables,Store.issue,hconnections,hmembers]
  rfl

theorem perform_change {l : Label} (h : perform env settings a l = .ok b) : Change env settings a l b := by
  cases performed_of_ok h with
  | registered hrequest _ =>
    have hfounder : founder env settings a l = some a.nextUserId := by simp only [founder,hrequest]
    exact .founded hfounder rfl
  | loggedIn hrequest | refreshed hrequest | keyed hrequest => exact .kept (by simp only [upserted,hrequest]) rfl
  | founded hrequest hactor huser =>
    refine .founded ?_ rfl
    simp [founder,hrequest,hactor,Except.toOption,huser]
  | added hrequest => exact .added hrequest rfl
  | invited hrequest hok =>
    obtain ⟨invites,hinvites,htables⟩ := createInvite_row hok
    exact .invited hrequest hinvites htables
  | accepted hrequest hok => exact acceptInvite_change hrequest hok
  | connected hrequest horg hrole hrules => exact .connected hrequest horg hrole hrules rfl
  | remapped hrequest hexisting horg =>
    obtain ⟨hmem,hid⟩ := getConnection_ok hexisting
    exact .remapped hrequest hmem hid horg rfl
  | consumed hrequest hok => exact consumeAcs_change hrequest hok

end effects

/-- An upsert keeps the other memberships and leaves the one that was written. -/
theorem mem_upsertMember {store : Sso.Store} {m x : OrganizationMember} :
    x ∈ (store.upsertMember m).members ↔
      (x ∈ store.members ∧ ¬(x.orgId = m.orgId ∧ x.userId = m.userId)) ∨ x = m := by
  obtain ⟨orgId,userId,role⟩ := m
  unfold Sso.Store.upsertMember
  dsimp only
  split
  · next hany =>
    obtain ⟨y,hy,hsame⟩ := List.any_eq_true.mp hany
    rw [List.mem_map]
    constructor
    · rintro ⟨z,hz,rfl⟩
      split
      · next h =>
        simp only [Bool.and_eq_true,decide_eq_true_eq] at h
        obtain ⟨rfl,rfl⟩ := h
        exact .inr rfl
      · next h => exact .inl ⟨hz,by simpa using h⟩
    · rintro (⟨hx,hne⟩ | rfl)
      · exact ⟨x,hx,if_neg (by simpa using hne)⟩
      · refine ⟨y,hy,?_⟩
        simp only [Bool.and_eq_true,decide_eq_true_eq] at hsame
        obtain ⟨rfl,rfl⟩ := hsame
        simp
  · next hnone =>
    simp only [List.any_eq_true,not_exists,not_and,Bool.and_eq_true,decide_eq_true_eq] at hnone
    rw [List.mem_append,List.mem_singleton]
    constructor
    · rintro (hx | rfl)
      · exact .inl ⟨hx,fun h => hnone x hx h.1 h.2⟩
      · exact .inr rfl
    · rintro (⟨hx,-⟩ | rfl)
      · exact .inl hx
      · exact .inr rfl

def OwnedBy (store : Store) (orgId : OrgId) (userId : UserId) : Prop :=
  { orgId, userId, role := .owner } ∈ store.members

/-- Every organisation has a membership with role `OWNER`. -/
def AllOwned (store : Store) : Prop := ∀ org ∈ store.orgs, ∃ userId, OwnedBy store org.id userId

section owned
variable (env : Environment) (settings : Settings)

/-- An accepted invite or a SAML login writes a lower role for the only owner. -/
def DemotesSoleOwner (store : Store) (l : Label) : Prop :=
  ∃ m, upserted env store l = some m ∧ m.role ≠ .owner ∧ (∃ org ∈ store.orgs, org.id = m.orgId) ∧
    OwnedBy store m.orgId m.userId ∧ ∀ userId, OwnedBy store m.orgId userId → userId = m.userId

variable {env settings} {a b : Store} {l : Label}

theorem allOwned_upsert_iff {m : OrganizationMember} (ha : AllOwned a) (hm : upserted env a l = some m)
    (horgs : b.orgs = a.orgs) (hmembers : b.members = (a.toStore.upsertMember m).members) :
    AllOwned b ↔ ¬ DemotesSoleOwner env a l := by
  have hmem (orgId : OrgId) (userId : UserId) : OwnedBy b orgId userId ↔
      (OwnedBy a orgId userId ∧ ¬(orgId = m.orgId ∧ userId = m.userId)) ∨
        { orgId, userId, role := .owner } = m := by
    unfold OwnedBy
    rw [hmembers,mem_upsertMember]
  constructor
  · rintro hb ⟨m',hm',hrole,⟨org,horg,hid⟩,-,honly⟩
    obtain rfl : m = m' := Option.some.inj (hm.symm.trans hm')
    obtain ⟨userId,howner⟩ := hb org (horgs ▸ horg)
    rcases (hmem org.id userId).mp howner with ⟨hold,hother⟩ | hwritten
    · exact hother ⟨hid,honly userId (hid ▸ hold)⟩
    · exact hrole (by rw [← hwritten])
  · intro hok org horg
    rw [horgs] at horg
    obtain ⟨userId,howner⟩ := ha org horg
    by_cases hsame : org.id = m.orgId ∧ userId = m.userId
    · by_cases hrole : m.role = .owner
      · refine ⟨userId,(hmem org.id userId).mpr (.inr ?_)⟩
        rw [hsame.1,hsame.2,← hrole]
      · -- the written role is lower, so there is another owner
        have hother : ∃ u, OwnedBy a m.orgId u ∧ u ≠ m.userId := by
          by_contra hnone
          push Not at hnone
          exact hok ⟨m,hm,hrole,⟨org,horg,hsame.1⟩,hsame.1 ▸ hsame.2 ▸ howner,hnone⟩
        obtain ⟨u,hu,hne⟩ := hother
        exact ⟨u,(hmem org.id u).mpr (.inl ⟨hsame.1 ▸ hu,fun h => hne h.2⟩)⟩
    · exact ⟨userId,(hmem org.id userId).mpr (.inl ⟨howner,hsame⟩)⟩

theorem not_demotes (hnone : upserted env a l = none) : ¬ DemotesSoleOwner env a l := by
  rintro ⟨m,hm,-⟩
  rw [hnone] at hm
  cases hm

theorem upserted_of_founder {userId : UserId} (h : founder env settings a l = some userId) :
    upserted env a l = none := by
  unfold founder at h
  unfold upserted
  split at h
  · next hr => rw [hr]
  · next hr => rw [hr]
  · cases h

/-- What keeps the memberships and the organisations keeps their owners. -/
theorem allOwned_of_subset (ha : AllOwned a) (horgs : b.orgs = a.orgs) (hmembers : a.members ⊆ b.members) :
    AllOwned b := by
  intro org horg
  rw [horgs] at horg
  obtain ⟨userId,howner⟩ := ha org horg
  exact ⟨userId,hmembers howner⟩

theorem allOwned_step_iff (ha : AllOwned a) (h : step env settings a l = some b) :
    AllOwned b ↔ ¬ DemotesSoleOwner env a l := by
  have hkept (hnone : upserted env a l = none) (horgs : b.orgs = a.orgs) (hmembers : a.members ⊆ b.members) :
      AllOwned b ↔ ¬ DemotesSoleOwner env a l :=
    iff_of_true (allOwned_of_subset ha horgs hmembers) (not_demotes hnone)
  cases perform_change (toOption_eq_some.mp h) with
  | kept hnone h =>
    have hmembers : b.members = a.members := congrArg Tables.members h
    exact hkept hnone (congrArg Tables.orgs h) (fun x hx => hmembers ▸ hx)
  | @founded userId name hfounder h =>
    have horgs : b.orgs = a.orgs ++ [{ id := a.nextId, name }] := congrArg Tables.orgs h
    have hmembers : b.members = a.members ++ [{ orgId := a.nextId, userId, role := .owner }] :=
      congrArg Tables.members h
    refine iff_of_true ?_ (not_demotes (upserted_of_founder hfounder))
    intro org horg
    rw [horgs] at horg
    rcases List.mem_append.mp horg with hold | hnew
    · obtain ⟨u,hu⟩ := ha org hold
      refine ⟨u,?_⟩
      unfold OwnedBy
      rw [hmembers]
      exact List.mem_append_left _ hu
    · obtain rfl := List.mem_singleton.mp hnew
      refine ⟨userId,?_⟩
      unfold OwnedBy
      rw [hmembers]
      exact List.mem_append_right _ (List.mem_singleton.mpr rfl)
  | added hrequest h =>
    have hmembers : b.members = a.members ++ _ := congrArg Tables.members h
    refine hkept (by simp [upserted,hrequest]) (congrArg Tables.orgs h) ?_
    rw [hmembers]
    exact List.subset_append_left _ _
  | invited hrequest _ h =>
    have hmembers : b.members = a.members := congrArg Tables.members h
    exact hkept (by simp [upserted,hrequest]) (congrArg Tables.orgs h) (fun x hx => hmembers ▸ hx)
  | accepted hrequest hinvite _ _ h =>
    refine allOwned_upsert_iff ha ?_ (congrArg Tables.orgs h) (congrArg Tables.members h)
    simp [upserted,hrequest,hinvite]
  | connected hrequest _ _ _ h =>
    have hmembers : b.members = a.members := congrArg Tables.members h
    exact hkept (by simp [upserted,hrequest]) (congrArg Tables.orgs h) (fun x hx => hmembers ▸ hx)
  | remapped hrequest _ _ _ h =>
    have hmembers : b.members = a.members := congrArg Tables.members h
    exact hkept (by simp [upserted,hrequest]) (congrArg Tables.orgs h) (fun x hx => hmembers ▸ hx)
  | loggedIn hrequest hconnection hassertion h =>
    refine allOwned_upsert_iff ha ?_ (congrArg Tables.orgs h) (congrArg Tables.members h)
    simp [upserted,hrequest,hconnection,hassertion,Except.toOption]

variable (env settings)

/-- Every organisation has an owner in every committed state of a run exactly if no accepted
invite and no SAML login of the run writes a lower role over the only owner's. -/
theorem organizations_owned_iff (ls : List Label) :
    (∀ b, Visits (step env settings) empty ls b → AllOwned b) ↔
      ∀ a l b, Fires (step env settings) empty ls a l b → ¬ DemotesSoleOwner env a l := by
  have hinv : ∀ a l b, True → step env settings a l = some b → True := fun _ _ _ _ _ => trivial
  refine visits_good_iff trivial ?_ hinv ?_
  · intro org horg
    cases horg
  · exact fun a l b _ ha h => allOwned_step_iff ha h

end owned

/-- Hashes that are the text itself; a SAML response that no one parses. -/
def plainEnvironment : Environment where
  saml := {
    b64decode _ := none
    lxmlFromstring _ := none
    etreeFromstring _ := none
    verify _ _ := .error .invalidSignature
    fromisoformat _ := none
    lower text := text
    now := 0 }
  uuid _ := none
  hashPassword password := password
  verifyPassword password hashed := password = hashed
  sha256 text := text
  hashApiKey rawKey := rawKey

/-- An owner invites its own address as a `MEMBER` and accepts. -/
def ownInviteRun : List Label :=
  [{ request := .register "ada@example.com" "secret" "Ada" "acme" },
    { credential := .bearer ⟨1,1,.owner⟩, request := .createInvite 1 "ada@example.com" .member "token" },
    { request := .acceptInvite "token" "secret" "Ada" }]

theorem own_invite_leaves_no_owner :
    ∃ b, run (step plainEnvironment {}) empty ownInviteRun = some b ∧ ¬ AllOwned b := by
  have hrun : (run (step plainEnvironment {}) empty ownInviteRun).map (fun b => (b.orgs,b.members)) =
      some ([⟨1,"acme"⟩],[⟨1,1,.member⟩]) := by decide +kernel
  obtain ⟨b,hb,hrows⟩ := Option.map_eq_some_iff.mp hrun
  obtain ⟨horgs,hmembers⟩ := Prod.mk.inj hrows
  refine ⟨b,hb,fun howned => ?_⟩
  obtain ⟨userId,howner⟩ := howned ⟨1,"acme"⟩ (by rw [horgs]; exact List.mem_singleton.mpr rfl)
  unfold OwnedBy at howner
  rw [hmembers] at howner
  simp at howner

end VoxForge.Auth
