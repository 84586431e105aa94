import VoxForge.Core.Uuid
import VoxForge.Foundation.Fallible
import VoxForge.Sso.AssertionConsumer

/-! Which connection a login goes through: named in the request, read out of the relay
state that the start of the login minted, or the organisation's only active one. -/
namespace VoxForge.Sso
open Foundation Core

structure SamlLoginRedirect where
  connectionId : Nat
  relayState : String
  binding : String
  status : String := "redirect"
  deriving DecidableEq, Repr

structure LoginInitiated where
  orgId : OrgId
  userId : Option UserId
  resourceId : Nat
  relayState : String
  binding : String
  deriving DecidableEq, Repr

def httpRedirectBinding : String := "urn:oasis:names:tc:SAML:2.0:bindings:HTTP-Redirect"

def requireOrgScope (actor : Principal) (orgId : OrgId) (scope : Scope) : Except SsoError Unit :=
  if actor.orgId ≠ orgId then .error (.forbidden "Access denied for this organization")
  else if actor.hasScope scope then .ok ()
  else .error (.forbidden ("Missing required scope: " ++ scope))

def relayStateOf (orgId : OrgId) (connectionId : Nat) : String :=
  "org:" ++ uuidText orgId ++ ":connection:" ++ uuidText connectionId

/-- The redirect to the identity provider, and the entry in the audit log. -/
def beginLogin (store : Store) (orgId : OrgId) (connectionId : Nat) (actor : Option Principal) :
    Except SsoError (SamlLoginRedirect × LoginInitiated) := do
  let connection ← store.requireActiveConnection orgId connectionId
  actor.elim (.ok ()) (requireOrgScope · orgId "orgs:read")
  let relayState := relayStateOf orgId connection.id
  return ({
    connectionId := connection.id
    relayState
    binding := httpRedirectBinding },{
    orgId
    userId := actor.bind (·.userId)
    resourceId := connection.id
    relayState
    binding := httpRedirectBinding })

section resolution
variable {store : Store} {uuid : String → Option Nat} {request : AcsRequest} {connection : SamlConnection}

theorem getConnection_ok {connectionId : Nat} (h : store.getConnection connectionId = .ok connection) :
    connection ∈ store.connections ∧ connection.id = connectionId := by
  unfold Store.getConnection at h
  split at h
  · cases h
  · next hsome =>
    cases h
    exact ⟨List.mem_of_find?_eq_some hsome,by simpa using List.find?_some hsome⟩

theorem requireActiveConnection_ok_iff {orgId : OrgId} {connectionId : Nat} :
    store.requireActiveConnection orgId connectionId = .ok connection ↔
      store.getConnection connectionId = .ok connection ∧ connection.orgId = orgId ∧
        connection.status = .active := by
  unfold Store.requireActiveConnection
  constructor
  · intro h
    obtain ⟨found,hfound,h⟩ := bind_eq_ok.mp h
    split_ifs at h with horg hstatus
    cases h
    exact ⟨hfound,not_not.mp horg,not_not.mp hstatus⟩
  · rintro ⟨hfound,horg,hstatus⟩
    refine bind_eq_ok.mpr ⟨connection,hfound,?_⟩
    rw [if_neg (not_not.mpr horg),if_neg (not_not.mpr hstatus)]

/-- Without an id in the request or in the relay state, only a single active connection will do. -/
theorem resolveAcsConnection_fallback (hid : request.connectionId = none)
    (hrelay : Store.connectionIdFromRelayState uuid request.relayState = none) :
    store.resolveAcsConnection uuid request = .ok connection ↔
      store.connections.filter (fun c => c.orgId = request.orgId && c.status = .active) = [connection] := by
  unfold Store.resolveAcsConnection
  rw [hid,hrelay]
  dsimp only
  split
  · next only => rw [only,Except.ok.injEq,List.singleton_inj]
  · next none => rw [none]; exact ⟨nofun,nofun⟩
  · next hnil hsingle =>
    refine ⟨nofun,fun hone => ?_⟩
    exact absurd hone (hnil connection)

theorem resolveAcsConnection_relayed {connectionId : Nat} (hid : request.connectionId = none)
    (hrelay : Store.connectionIdFromRelayState uuid request.relayState = some connectionId) :
    store.resolveAcsConnection uuid request = store.requireActiveConnection request.orgId connectionId := by
  unfold Store.resolveAcsConnection
  rw [hid,hrelay]

/-- However it is chosen, the connection is an active one of the organisation. -/
theorem resolveAcsConnection_ok (h : store.resolveAcsConnection uuid request = .ok connection) :
    connection ∈ store.connections ∧ connection.orgId = request.orgId ∧ connection.status = .active := by
  have hactive {id : Nat} (h : store.requireActiveConnection request.orgId id = .ok connection) :
      connection ∈ store.connections ∧ connection.orgId = request.orgId ∧ connection.status = .active := by
    obtain ⟨hfound,horg,hstatus⟩ := requireActiveConnection_ok_iff.mp h
    exact ⟨(getConnection_ok hfound).1,horg,hstatus⟩
  cases hid : request.connectionId with
  | some id =>
    unfold Store.resolveAcsConnection at h
    rw [hid] at h
    exact hactive h
  | none =>
    cases hrelay : Store.connectionIdFromRelayState uuid request.relayState with
    | some id => exact hactive (resolveAcsConnection_relayed hid hrelay ▸ h)
    | none =>
      have hmem : connection ∈ store.connections.filter fun c => c.orgId = request.orgId && c.status = .active := by
        rw [(resolveAcsConnection_fallback hid hrelay).mp h]
        exact List.mem_singleton.mpr rfl
      simpa using List.mem_filter.mp hmem

end resolution

theorem colon_notMem_uuidText (id : Nat) : ':' ∉ (uuidText id).toList := by
  intro h
  rcases mem_uuidText h with h | h
  · cases h
  · exact absurd h (by decide)

/-- A minted relay state has the four parts it was made from. -/
theorem relayStateOf_parts (orgId : OrgId) (connectionId : Nat) :
    (relayStateOf orgId connectionId).splitOn ":" =
      ["org",uuidText orgId,"connection",uuidText connectionId] := by
  have hparts : (relayStateOf orgId connectionId).toList =
      [':'].intercalate (["org",uuidText orgId,"connection",uuidText connectionId].map String.toList) := by
    simp [relayStateOf,List.intercalate,List.intersperse]
  refine (splitOn_singleton _ ':').trans ?_
  rw [hparts,List.splitOn_intercalate]
  · simp
  · intro part hpart
    simp only [List.map_cons,List.map_nil,List.mem_cons,List.not_mem_nil,or_false] at hpart
    rcases hpart with hpart | hpart | hpart | hpart <;> rw [hpart]
    · decide
    · exact colon_notMem_uuidText orgId
    · decide
    · exact colon_notMem_uuidText connectionId
  · simp

theorem connectionIdFromRelayState_minted (uuid : String → Option Nat) (orgId : OrgId) (connectionId : Nat) :
    Store.connectionIdFromRelayState uuid (some (relayStateOf orgId connectionId)) =
      uuid (uuidText connectionId) := by
  have hne : truthy (some (relayStateOf orgId connectionId)) = some (relayStateOf orgId connectionId) := by
    simp [truthy,relayStateOf]
  have horg : uuidText orgId ≠ "connection" := by
    intro heq
    have hmem : 'o' ∈ (uuidText orgId).toList := by rw [heq]; decide
    rcases mem_uuidText hmem with h | h
    · cases h
    · exact absurd h (by decide)
  unfold Store.connectionIdFromRelayState
  rw [hne]
  dsimp only
  rw [relayStateOf_parts]
  simp [horg]

theorem beginLogin_ok {store : Store} {orgId : OrgId} {connectionId : Nat} {actor : Option Principal}
    {redirect : SamlLoginRedirect} {entry : LoginInitiated}
    (h : beginLogin store orgId connectionId actor = .ok (redirect,entry)) :
    ∃ connection ∈ store.connections, connection.id = connectionId ∧ redirect.connectionId = connectionId ∧
      redirect.relayState = relayStateOf orgId connectionId := by
  obtain ⟨connection,hconn,h⟩ := bind_eq_ok.mp h
  obtain ⟨_,_,h⟩ := bind_eq_ok.mp h
  obtain ⟨rfl,-⟩ := Prod.mk.inj (Except.ok.inj h)
  obtain ⟨hmem,hid⟩ := getConnection_ok (requireActiveConnection_ok_iff.mp hconn).1
  exact ⟨connection,hmem,hid,hid,congrArg (relayStateOf orgId) hid⟩

/-- Logins over a table of connections stay within the connection that is theirs. -/
structure WithinConnection (env : Environment) (uuid : String → Option Nat) (settings : Settings)
    (store : Store) : Prop where
  consumed : ∀ request answer after, consumeAcs env uuid settings store request = .ok (answer,after) →
    ∃ connection ∈ store.connections, connection.orgId = request.orgId ∧ connection.status = .active ∧
      validateSamlResponse env request.samlResponse connection settings.samlRequireSignedAssertions
        settings.samlClockSkewSeconds = .ok () ∧
      answer.orgId = request.orgId ∧ answer.tokens.orgId = request.orgId
  begun : ∀ orgId connectionId actor redirect entry,
    beginLogin store orgId connectionId actor = .ok (redirect,entry) →
    redirect.connectionId = connectionId ∧ ∀ (later : Store) (request : AcsRequest) found,
      request.connectionId = none → request.relayState = some redirect.relayState →
      (later.resolveAcsConnection uuid request = .ok found ↔
        later.getConnection connectionId = .ok found ∧ found.orgId = request.orgId ∧ found.status = .active)
  fallback : ∀ request found, request.connectionId = none →
    Store.connectionIdFromRelayState uuid request.relayState = none →
    (store.resolveAcsConnection uuid request = .ok found ↔
      store.connections.filter (fun c => c.orgId = request.orgId && c.status = .active) = [found])

/-- Every login stays within its connection, where the text of an id is read as that id. -/
theorem login_within_connection (env : Environment) (uuid : String → Option Nat) (settings : Settings)
    (store : Store) (huuid : ∀ connection ∈ store.connections, uuid (uuidText connection.id) = some connection.id) :
    WithinConnection env uuid settings store := by
  refine ⟨?_,?_,fun request found => resolveAcsConnection_fallback⟩
  · intro request answer after h
    obtain ⟨connection,hconn,h⟩ := bind_eq_ok.mp h
    obtain ⟨_,hvalid,h⟩ := bind_eq_ok.mp h
    obtain ⟨assertion,-,h⟩ := bind_eq_ok.mp h
    obtain ⟨hmem,horg,hactive⟩ := resolveAcsConnection_ok hconn
    obtain ⟨rfl,rfl⟩ := Prod.mk.inj (Except.ok.inj h)
    exact ⟨connection,hmem,horg,hactive,hvalid,rfl,rfl⟩
  · intro orgId connectionId actor redirect entry h
    obtain ⟨connection,hmem,rfl,hid,hrelay⟩ := beginLogin_ok h
    refine ⟨hid,fun later request found hnone hstate => ?_⟩
    have hread : Store.connectionIdFromRelayState uuid request.relayState = some connection.id := by
      rw [hstate,hrelay,connectionIdFromRelayState_minted]
      exact huuid connection hmem
    rw [resolveAcsConnection_relayed hnone hread]
    exact requireActiveConnection_ok_iff

private def twoOrganisations : Store where
  connections :=
    let row (id : Nat) (orgId : OrgId) (status : SamlConnectionStatus) : SamlConnection :=
      { id, orgId, status, idpX509Cert := "", spEntityId := "sp", defaultRole := .member }
    [row 11 1 .active,row 12 1 .active,row 21 2 .active,row 22 2 .disabled]
  users := []
  members := []
  nextUserId := 1

private def blankEnvironment : Environment where
  b64decode _ := none
  lxmlFromstring _ := none
  etreeFromstring _ := none
  verify _ _ := .error .invalidSignature
  fromisoformat _ := none
  lower text := text
  now := 0

theorem twoOrganisations_within : WithinConnection blankEnvironment readUuid {} twoOrganisations := by
  refine login_within_connection _ _ _ _ fun connection hmem => readUuid_uuidText ?_
  have hsmall : ∀ c ∈ twoOrganisations.connections, c.id < 16 ^ 32 := by decide
  exact hsmall connection hmem

end VoxForge.Sso
