import VoxForge.Auth.ApiKeys

/-! Whose requests change what an organisation has: its name, its memberships, invites,
SAML connections and API keys. -/
namespace VoxForge.Auth
open Foundation Core Sso

/-- The rows of an organisation. -/
@[ext] structure Tenant where
  orgs : List Organization
  members : List OrganizationMember
  invites : List Invite
  connections : List SamlConnection
  apiKeys : List ApiKey

def Store.tenant (store : Store) (orgId : OrgId) : Tenant where
  orgs := store.orgs.filter (·.id = orgId)
  members := store.members.filter (·.orgId = orgId)
  invites := store.invites.filter (·.orgId = orgId)
  connections := store.connections.filter (·.orgId = orgId)
  apiKeys := store.apiKeys.filter (·.orgId = orgId)

/-- The organisation that a request works on and the scope that it needs there. -/
def guard : Request → Option (OrgId × Scope)
  | .addMember orgId _ _ => some (orgId,"orgs:manage_members")
  | .createInvite orgId _ _ _ => some (orgId,"orgs:manage_members")
  | .createConnection orgId _ => some (orgId,"orgs:write")
  | .updateConnection orgId _ _ _ => some (orgId,"orgs:write")
  | _ => none

section tenants
variable (env : Environment) (settings : Settings)

/-- A caller of the organisation has the scope. -/
def Insider (a : Store) (now : Int) (credential : Credential) (orgId : OrgId) (scope : Scope) : Prop :=
  ∃ actor, currentPrincipal env settings a now credential = .ok actor ∧ actor.orgId = orgId ∧
    actor.hasScope scope = true

/-- What entitles an event to change the rows of an organisation: it founds it, its caller
has the scope there, it offers the token of a pending invite, or it comes with an
assertion that an active connection accepts. -/
inductive Entitled (a : Store) (orgId : OrgId) : ApiEvent → Prop
  | registering {l : Label} {email password fullName orgName : String}
      (hrequest : l.request = .register email password fullName orgName) (hnew : orgId = a.nextId) :
      Entitled a orgId (.request l)
  | founding {l : Label} {name : String} (hrequest : l.request = .createOrg name) (hnew : orgId = a.nextId) :
      Entitled a orgId (.request l)
  | managing {l : Label} {scope : Scope} (hguard : guard l.request = some (orgId,scope))
      (hactor : Insider env settings a l.now l.credential orgId scope) : Entitled a orgId (.request l)
  | keying {l : Label} {name rawKey : String} {scopes : List Scope} {expiresAt : Option Int}
      (hrequest : l.request = .createApiKey name scopes expiresAt rawKey)
      (hactor : Insider env settings a l.now l.credential orgId "api_keys:write") : Entitled a orgId (.request l)
  | revoking {credential : Credential} {now : Int} {keyId : Nat}
      (hactor : Insider env settings a now credential orgId "api_keys:delete") :
      Entitled a orgId (.revoke credential now keyId)
  | disconnecting {credential : Credential} {now : Int} {connectionId : Nat}
      (hactor : Insider env settings a now credential orgId "orgs:write") :
      Entitled a orgId (.disconnect credential now orgId connectionId)
  | accepting {l : Label} {token password fullName : String} {invite : Invite}
      (hrequest : l.request = .acceptInvite token password fullName) (hinvite : invite ∈ a.invites)
      (htoken : invite.tokenHash = env.sha256 token) (hpending : invite.accepted = false)
      (hfresh : l.now ≤ invite.expiresAt) (horg : invite.orgId = orgId) : Entitled a orgId (.request l)
  | asserting {l : Label} {request : AcsRequest} {secret : String} {connection : SamlConnection}
      (hrequest : l.request = .consumeAcs request secret) (hconnection : connection ∈ a.connections)
      (horg : connection.orgId = orgId) (hactive : connection.status = .active)
      (hvalid : validateSamlResponse { env.saml with now := l.now } request.samlResponse connection
        settings.samlRequireSignedAssertions settings.samlClockSkewSeconds = .ok ()) :
      Entitled a orgId (.request l)

/-- Invites, connections and keys are numbered one after another. -/
structure Ordered (a : Store) : Prop where
  invites : Serial Invite.id a.nextId a.invites
  connections : Serial SamlConnection.id a.nextId a.connections
  apiKeys : Serial ApiKey.id a.nextId a.apiKeys

variable {env settings} {a b : Store} {orgId : OrgId}

theorem insider_of_guard {l : Label} {scope : Scope} (h : perform env settings a l = .ok b)
    (hguard : guard l.request = some (orgId,scope)) : Insider env settings a l.now l.credential orgId scope := by
  obtain ⟨credential,now,request⟩ := l
  cases request with
  | addMember other userId role =>
    cases hguard
    obtain ⟨actor,hactor,h⟩ := bind_eq_ok.mp h
    obtain ⟨r,hok,-⟩ := map_eq_ok.mp h
    obtain ⟨_,hscope,-⟩ := bind_eq_ok.mp hok
    exact ⟨actor,hactor,requireOrgScope_ok hscope⟩
  | createInvite other email role rawToken =>
    cases hguard
    obtain ⟨actor,hactor,h⟩ := bind_eq_ok.mp h
    obtain ⟨r,hok,-⟩ := map_eq_ok.mp h
    unfold createInvite at hok
    split_ifs at hok
    obtain ⟨_,hscope,-⟩ := bind_eq_ok.mp hok
    exact ⟨actor,hactor,requireOrgScope_ok hscope⟩
  | createConnection other details =>
    cases hguard
    obtain ⟨actor,hactor,h⟩ := bind_eq_ok.mp h
    obtain ⟨r,hok,-⟩ := map_eq_ok.mp h
    obtain ⟨_,hscope,-⟩ := bind_eq_ok.mp hok
    exact ⟨actor,hactor,requireOrgScope_ok hscope⟩
  | updateConnection other connectionId status rules =>
    cases hguard
    obtain ⟨actor,hactor,h⟩ := bind_eq_ok.mp h
    obtain ⟨r,hok,-⟩ := map_eq_ok.mp h
    obtain ⟨_,hscope,-⟩ := bind_eq_ok.mp hok
    exact ⟨actor,hactor,requireOrgScope_ok hscope⟩
  | _ => cases hguard

theorem createConnection_ok {orgId : OrgId} {details : ConnectionDetails} {actor : Principal}
    {connection : SamlConnection} (h : createConnection a orgId details actor = .ok (connection,b)) :
    connection.id = a.nextId ∧ connection.orgId = orgId ∧
      b = { a with connections := a.connections ++ [connection], nextId := a.nextId + 1 } := by
  obtain ⟨_,-,h⟩ := bind_eq_ok.mp h
  split_ifs at h
  obtain ⟨rfl,rfl⟩ := Prod.mk.inj (Except.ok.inj h)
  exact ⟨rfl,rfl,rfl⟩

theorem connected_ok {l : Label} {orgId : OrgId} {details : ConnectionDetails}
    (hrequest : l.request = .createConnection orgId details) (h : perform env settings a l = .ok b) :
    ∃ connection, connection.id = a.nextId ∧ connection.orgId = orgId ∧
      b = { a with connections := a.connections ++ [connection], nextId := a.nextId + 1 } := by
  unfold perform at h
  rw [hrequest] at h
  obtain ⟨actor,-,h⟩ := bind_eq_ok.mp h
  obtain ⟨⟨connection,after⟩,hok,rfl⟩ := map_eq_ok.mp h
  exact ⟨connection,createConnection_ok hok⟩

/-- A new user leaves the rows of organisations alone. -/
theorem inviteUser_rows {invite : Invite} {password fullName : String} {user : User}
    (h : inviteUser env a invite password fullName = .ok (user,b)) (orgId : OrgId) :
    b.tenant orgId = a.tenant orgId ∧ b.invites = a.invites ∧ b.connections = a.connections ∧
      b.apiKeys = a.apiKeys ∧ b.nextId = a.nextId := by
  unfold inviteUser at h
  split at h
  · cases h
    exact ⟨rfl,rfl,rfl,rfl,rfl⟩
  · split_ifs at h
    cases h
    exact ⟨rfl,rfl,rfl,rfl,rfl⟩

theorem pendingInvite_some {email : String} {existing : Invite} (h : a.pendingInvite orgId email = some existing) :
    existing ∈ a.invites ∧ existing.orgId = orgId := by
  have hmatch := List.find?_some h
  simp only [Bool.and_eq_true,decide_eq_true_eq] at hmatch
  exact ⟨List.mem_of_find?_eq_some h,hmatch.1.1⟩

theorem createInvite_ordered {email tokenHash : String} {role : OrgRole} {inviter : Option UserId}
    {expiresAt : Int} {invite : Invite} (ha : Ordered a)
    (h : a.createInvite orgId email role tokenHash inviter expiresAt = .ok (invite,b)) : Ordered b := by
  unfold Store.createInvite at h
  split at h
  · split_ifs at h
    cases h
    refine ⟨ha.invites.map fun i _ => ?_,ha.connections,ha.apiKeys⟩
    split_ifs with hid
    · exact hid.symm
    · rfl
  · split_ifs at h
    cases h
    exact ⟨ha.invites.append rfl,ha.connections.mono (Nat.le_succ _),ha.apiKeys.mono (Nat.le_succ _)⟩

theorem ordered_step {e : ApiEvent} (ha : Ordered a) (hs : apiStep env settings a e = some b) : Ordered b := by
  cases e with
  | revoke credential now keyId =>
    cases apiStep_change hs with
    | kept _ _ _ _ hrevokes => simpa [ApiEvent.revokes] using hrevokes keyId
    | created _ _ _ _ _ hdrawn => cases hdrawn
    | revoked _ _ hstore =>
      subst hstore
      exact ⟨ha.invites,ha.connections,ha.apiKeys.map fun _ _ => rfl⟩
  | disconnect credential now orgId connectionId =>
    obtain ⟨_,_,-,-,-,-,rfl⟩ := disconnectStep_ok (toOption_eq_some.mp hs)
    exact ⟨ha.invites,ha.connections.filter _,ha.apiKeys⟩
  | request l =>
    have hok := toOption_eq_some.mp hs
    have hlater : Serial Invite.id (a.nextId + 1) a.invites ∧
        Serial SamlConnection.id (a.nextId + 1) a.connections ∧ Serial ApiKey.id (a.nextId + 1) a.apiKeys :=
      ⟨ha.invites.mono (Nat.le_succ _),ha.connections.mono (Nat.le_succ _),ha.apiKeys.mono (Nat.le_succ _)⟩
    cases performed_of_ok hok with
    | registered => exact ⟨hlater.1,hlater.2.1,hlater.2.2⟩
    | founded => exact ⟨hlater.1,hlater.2.1,hlater.2.2⟩
    | loggedIn => exact ⟨ha.invites,ha.connections,ha.apiKeys⟩
    | refreshed => exact ⟨ha.invites,ha.connections,ha.apiKeys⟩
    | added => exact ⟨ha.invites,ha.connections,ha.apiKeys⟩
    | invited _ hcreate => exact createInvite_ordered ha hcreate
    | accepted _ haccept =>
      obtain ⟨invite,user,t,-,-,-,huser,rfl⟩ := acceptInvite_ok haccept
      obtain ⟨-,hinvites,hconnections,hkeys,hnext⟩ := inviteUser_rows huser 0
      have ht : Ordered t := ⟨hinvites ▸ hnext ▸ ha.invites,hconnections ▸ hnext ▸ ha.connections,
        hkeys ▸ hnext ▸ ha.apiKeys⟩
      refine ⟨ht.invites.map fun i _ => ?_,ht.connections,ht.apiKeys⟩
      split_ifs <;> rfl
    | connected hrequest =>
      obtain ⟨connection,hid,-,hb⟩ := connected_ok hrequest hok
      rw [hb]
      exact ⟨hlater.1,ha.connections.append hid,hlater.2.2⟩
    | remapped hrequest hexisting =>
      refine ⟨ha.invites,ha.connections.map fun c _ => ?_,ha.apiKeys⟩
      split_ifs with hid
      · exact (getConnection_ok hexisting).2.trans hid.symm
      · rfl
    | consumed _ hconsume =>
      obtain ⟨after,_,hacs,rfl⟩ := consumeAcs_eq_ok hconsume
      obtain ⟨_,_,-,-,hconnections,-⟩ := consumeAcs_members hacs
      exact ⟨ha.invites,hconnections ▸ ha.connections,ha.apiKeys⟩
    | keyed hrequest =>
      cases request_change hok with
      | kept hkeys hnext hnone hdrawn =>
        simp [ApiEvent.rawKey,hrequest] at hdrawn
      | revoked _ _ _ _ hdrawn => simp [ApiEvent.rawKey,hrequest] at hdrawn
      | created c hcreates _ hkeys hnext =>
        refine ⟨hlater.1,hlater.2.1,?_⟩
        have hid : ApiKey.id (c.row env) = a.nextId := hcreates.id
        exact hkeys ▸ ha.apiKeys.append hid

/-! What a request leaves of other organisations. -/

theorem filter_append_other {α : Type} {p : α → Bool} {rows : List α} {row : α} (h : p row = false) :
    (rows ++ [row]).filter p = rows.filter p := by
  rw [List.filter_append,List.filter_singleton,h,cond_false,List.append_nil]

theorem upsertMember_other {store : Sso.Store} {m : OrganizationMember} (h : m.orgId ≠ orgId) :
    (store.upsertMember m).members.filter (·.orgId = orgId) = store.members.filter (·.orgId = orgId) := by
  unfold Sso.Store.upsertMember
  dsimp only
  split_ifs
  · refine filter_update fun x _ hsame => ?_
    rw [Bool.and_eq_true,decide_eq_true_eq,decide_eq_true_eq] at hsame
    exact ⟨decide_eq_false (hsame.1 ▸ h),decide_eq_false (hsame.1 ▸ h)⟩
  · exact filter_append_other (decide_eq_false h)

theorem createInvite_other {other : OrgId} {email tokenHash : String} {role : OrgRole} {inviter : Option UserId}
    {expiresAt : Int} {invite : Invite} (ha : Ordered a) (hne : other ≠ orgId)
    (h : a.createInvite other email role tokenHash inviter expiresAt = .ok (invite,b)) :
    b.tenant orgId = a.tenant orgId := by
  unfold Store.createInvite at h
  split at h
  · next existing hpending =>
    obtain ⟨hexisting,horg⟩ := pendingInvite_some hpending
    split_ifs at h
    cases h
    refine Tenant.ext rfl rfl (filter_update fun i hi hid => ?_) rfl rfl
    obtain rfl := ha.invites.unique hi hexisting hid
    exact ⟨decide_eq_false (horg ▸ hne),decide_eq_false (horg ▸ hne)⟩
  · split_ifs at h
    cases h
    exact Tenant.ext rfl rfl (filter_append_other (decide_eq_false hne)) rfl rfl

theorem acceptInvite_other (orgId : OrgId) {now : Int} {token password fullName : String}
    {r : User × OrgId × Tokens} (ha : Ordered a) (h : acceptInvite env a now token password fullName = .ok (r,b)) :
    ∃ invite ∈ a.invites, invite.tokenHash = env.sha256 token ∧ invite.accepted = false ∧
      now ≤ invite.expiresAt ∧ (invite.orgId ≠ orgId → b.tenant orgId = a.tenant orgId) := by
  obtain ⟨invite,user,t,hfound,hpending,hfresh,huser,rfl⟩ := acceptInvite_ok h
  have hin := List.mem_of_find?_eq_some hfound
  have hhash : invite.tokenHash = env.sha256 token := by simpa using List.find?_some hfound
  refine ⟨invite,hin,hhash,hpending,hfresh,fun hne => ?_⟩
  obtain ⟨htenant,hinvites,-⟩ := inviteUser_rows huser orgId
  rw [← htenant]
  refine Tenant.ext rfl (upsertMember_other hne) (filter_update fun i hi hid => ?_) rfl rfl
  have hi' : i ∈ a.invites := hinvites ▸ hi
  obtain rfl := ha.invites.unique hi' hin hid
  exact ⟨decide_eq_false hne,decide_eq_false hne⟩

theorem consumeAcs_other (orgId : OrgId) {now : Int} {request : AcsRequest} {secret : String} {answer : AcsAnswer}
    (h : consumeAcs env settings a now request secret = .ok (answer,b)) :
    ∃ connection ∈ a.connections, connection.orgId = request.orgId ∧ connection.status = .active ∧
      validateSamlResponse { env.saml with now } request.samlResponse connection
        settings.samlRequireSignedAssertions settings.samlClockSkewSeconds = .ok () ∧
      (request.orgId ≠ orgId → b.tenant orgId = a.tenant orgId) := by
  obtain ⟨after,_,hacs,rfl⟩ := consumeAcs_eq_ok h
  obtain ⟨connection,assertion,hresolve,-,hconnections,hmembers⟩ := consumeAcs_members hacs
  obtain ⟨hin,horg,hactive⟩ := resolveAcsConnection_ok hresolve
  have hvalid : validateSamlResponse { env.saml with now } request.samlResponse connection
      settings.samlRequireSignedAssertions settings.samlClockSkewSeconds = .ok () := by
    obtain ⟨connection',hresolve',hacs⟩ := bind_eq_ok.mp hacs
    obtain rfl := Except.ok.inj (hresolve.symm.trans hresolve')
    obtain ⟨_,hvalid,-⟩ := bind_eq_ok.mp hacs
    exact hvalid
  refine ⟨connection,hin,horg,hactive,hvalid,fun hne => ?_⟩
  refine Tenant.ext rfl ?_ rfl ?_ rfl
  · exact (congrArg (List.filter _) hmembers).trans (upsertMember_other hne)
  · exact congrArg (List.filter _) hconnections

/-- A request that changes the rows of an organisation is entitled to. -/
theorem entitled_of_request {l : Label} (ha : Ordered a) (h : perform env settings a l = .ok b)
    (hchanged : b.tenant orgId ≠ a.tenant orgId) : Entitled env settings a orgId (.request l) := by
  cases performed_of_ok h with
  | registered hrequest =>
    by_cases hnew : orgId = a.nextId
    · exact .registering hrequest hnew
    · refine (hchanged (Tenant.ext ?_ ?_ rfl rfl rfl)).elim
      · exact filter_append_other (decide_eq_false (Ne.symm hnew))
      · exact filter_append_other (decide_eq_false (Ne.symm hnew))
  | founded hrequest =>
    by_cases hnew : orgId = a.nextId
    · exact .founding hrequest hnew
    · refine (hchanged (Tenant.ext ?_ ?_ rfl rfl rfl)).elim
      · exact filter_append_other (decide_eq_false (Ne.symm hnew))
      · exact filter_append_other (decide_eq_false (Ne.symm hnew))
  | loggedIn => exact absurd rfl hchanged
  | refreshed => exact absurd rfl hchanged
  | @added other userId role hrequest =>
    by_cases horg : other = orgId
    · subst horg
      have hguard : guard l.request = some (other,"orgs:manage_members") := by rw [hrequest]; rfl
      exact .managing hguard (insider_of_guard h hguard)
    · exact (hchanged (Tenant.ext rfl (filter_append_other (decide_eq_false horg)) rfl rfl rfl)).elim
  | @invited other email rawToken role inviter expiresAt invite _ hrequest hcreate =>
    by_cases horg : other = orgId
    · subst horg
      have hguard : guard l.request = some (other,"orgs:manage_members") := by rw [hrequest]; rfl
      exact .managing hguard (insider_of_guard h hguard)
    · exact absurd (createInvite_other ha horg hcreate) hchanged
  | accepted hrequest haccept =>
    obtain ⟨invite,hin,hhash,hpending,hfresh,hother⟩ := acceptInvite_other orgId ha haccept
    by_cases horg : invite.orgId = orgId
    · exact .accepting hrequest hin hhash hpending hfresh horg
    · exact absurd (hother horg) hchanged
  | @connected other details connection hrequest horg' =>
    by_cases horg : other = orgId
    · subst horg
      have hguard : guard l.request = some (connection.orgId,"orgs:write") := by rw [hrequest,horg']; rfl
      exact horg' ▸ .managing hguard (insider_of_guard h hguard)
    · subst horg'
      exact (hchanged (Tenant.ext rfl rfl rfl (filter_append_other (decide_eq_false horg)) rfl)).elim
  | @remapped other connectionId status rules existing hrequest hexisting horg' =>
    by_cases horg : other = orgId
    · subst horg
      have hguard : guard l.request = some (existing.orgId,"orgs:write") := by rw [hrequest,horg']; rfl
      exact horg' ▸ .managing hguard (insider_of_guard h hguard)
    · subst horg'
      refine (hchanged (Tenant.ext rfl rfl rfl (filter_update fun c hc hid => ?_) rfl)).elim
      obtain ⟨hin,hid'⟩ := getConnection_ok hexisting
      obtain rfl := ha.connections.unique hc hin (hid.trans hid'.symm)
      exact ⟨decide_eq_false horg,decide_eq_false horg⟩
  | consumed hrequest hconsume =>
    obtain ⟨connection,hin,horg',hactive,hvalid,hother⟩ := consumeAcs_other orgId hconsume
    by_cases horg : connection.orgId = orgId
    · exact .asserting hrequest hin horg hactive hvalid
    · exact absurd (hother (horg' ▸ horg)) hchanged
  | keyed hrequest =>
    unfold perform at h
    rw [hrequest] at h
    obtain ⟨actor,hactor,h⟩ := bind_eq_ok.mp h
    obtain ⟨⟨row,after⟩,hok,hafter⟩ := map_eq_ok.mp h
    obtain ⟨_,hscope,-⟩ := bind_eq_ok.mp hok
    obtain ⟨hrow,rfl⟩ := createApiKey_ok hok
    by_cases horg : actor.orgId = orgId
    · exact .keying hrequest ⟨actor,hactor,horg,(requireOrgScope_ok hscope).2⟩
    · have hother : row.orgId ≠ orgId := hrow ▸ horg
      rw [← hafter] at hchanged
      exact (hchanged (Tenant.ext rfl rfl rfl rfl (filter_append_other (decide_eq_false hother)))).elim

theorem entitled_of_event {e : ApiEvent} (ha : Ordered a) (hs : apiStep env settings a e = some b)
    (hchanged : b.tenant orgId ≠ a.tenant orgId) : Entitled env settings a orgId e := by
  cases e with
  | request l => exact entitled_of_request ha (toOption_eq_some.mp hs) hchanged
  | revoke credential now keyId =>
    obtain ⟨actor,hactor,h⟩ := bind_eq_ok.mp (toOption_eq_some.mp hs)
    obtain ⟨⟨key,after⟩,hok,rfl⟩ := map_eq_ok.mp h
    unfold revokeApiKey at hok
    split at hok
    · cases hok
    · next found hfound =>
      obtain ⟨_,hscope,hok⟩ := bind_eq_ok.mp hok
      obtain ⟨-,rfl⟩ := Prod.mk.inj (Except.ok.inj hok)
      obtain ⟨horg,hscope⟩ := requireOrgScope_ok hscope
      have hid : found.id = keyId := by simpa using List.find?_some hfound
      by_cases hmine : found.orgId = orgId
      · exact .revoking ⟨actor,hactor,horg.trans hmine,hscope⟩
      · refine (hchanged (Tenant.ext rfl rfl rfl rfl ?_)).elim
        have hrevoke : (a.revoke keyId).apiKeys = a.apiKeys.map fun key =>
            if key.id = keyId then { key with revoked := true } else key := by
          refine List.map_congr_left fun key _ => ?_
          split_ifs with hkey
          · simp [hkey]
          · simp [hkey]
        refine (congrArg (List.filter _) hrevoke).trans (filter_update fun key hkey hkeyId => ?_)
        obtain rfl := ha.apiKeys.unique hkey (List.mem_of_find?_eq_some hfound) (hkeyId.trans hid.symm)
        exact ⟨decide_eq_false hmine,decide_eq_false hmine⟩

  | disconnect credential now other connectionId =>
    obtain ⟨actor,existing,hactor,hscope,hexisting,horg,rfl⟩ := disconnectStep_ok (toOption_eq_some.mp hs)
    by_cases hmine : other = orgId
    · subst hmine
      exact .disconnecting ⟨actor,hactor,requireOrgScope_ok hscope⟩
    · refine (hchanged (Tenant.ext rfl rfl rfl ?_ rfl)).elim
      obtain ⟨hin,hid⟩ := getConnection_ok hexisting
      refine (List.filter_filter ..).trans (List.filter_congr fun c hc => ?_)
      by_cases hsame : c.orgId = orgId
      · have hother : c.id ≠ connectionId := by
          intro heq
          obtain rfl := ha.connections.unique hc hin (heq.trans hid.symm)
          exact hmine (horg.symm.trans hsame)
        simp [hother]
      · simp [hsame]

theorem ordered_empty : Ordered empty := ⟨.nil,.nil,.nil⟩

/-- In every run, whatever changes the rows of an organisation is entitled to: the founding
itself, a caller with the scope there, the token of a pending invite of it, or an assertion
that one of its active connections accepts. -/
theorem tenants_isolated {events : List ApiEvent} {e : ApiEvent}
    (hf : Fires (apiStep env settings) empty events a e b) (orgId : OrgId)
    (hchanged : b.tenant orgId ≠ a.tenant orgId) : Entitled env settings a orgId e := by
  obtain ⟨_,_,_,hs⟩ := id hf
  have hordered : Ordered a := hf.before.invariant ordered_empty fun _ _ _ h hs => ordered_step h hs
  exact entitled_of_event hordered hs hchanged

end tenants

/-- The first key gives its organisation a second one. -/
def delegation : ApiEvent :=
  .request {
    credential := .apiKey "vxf_first"
    request := .createApiKey "bot" ["sessions:read"] (some 9) "vxf_second" }

theorem delegation_entitled :
    ∃ a, run (apiStep plainEnvironment {}) empty (delegatedKeyRun.take 2) = some a ∧
      Entitled plainEnvironment {} a 1 delegation := by
  have hrun : ((run (apiStep plainEnvironment {}) empty (delegatedKeyRun.take 2)).bind fun a =>
      (apiStep plainEnvironment {} a delegation).map fun b =>
        ((a.tenant 1).apiKeys.length,(b.tenant 1).apiKeys.length)) = some (1,2) := by decide +kernel
  obtain ⟨a,ha,hrest⟩ := Option.bind_eq_some_iff.mp hrun
  obtain ⟨b,hb,hkeys⟩ := Option.map_eq_some_iff.mp hrest
  have hf : Fires (apiStep plainEnvironment {}) empty (delegatedKeyRun.take 3) a delegation b :=
    ⟨delegatedKeyRun.take 2,by simp [delegatedKeyRun,delegation],ha,hb⟩
  refine ⟨a,ha,tenants_isolated hf 1 fun heq => ?_⟩
  rw [heq] at hkeys
  obtain ⟨hbefore,hafter⟩ := Prod.mk.inj hkeys
  omega
end VoxForge.Auth
