import VoxForge.Auth.Deactivation
import VoxForge.Auth.Delegation
import VoxForge.Core.Uuid
import VoxForge.Foundation.Rows

/-! The life of an API key over every run of the organisation API: when it authenticates,
and on whose authority. -/
namespace VoxForge.Auth
open Foundation Core Sso

/-- `ApiKeyRepository.list_for_org`, the latest first. -/
def Store.listForOrg (store : Store) (orgId : OrgId) : List ApiKey :=
  (store.apiKeys.filter fun key => key.orgId = orgId && !key.revoked).reverse

def Store.revoke (store : Store) (keyId : Nat) : Store :=
  { store with apiKeys := store.apiKeys.map fun key => { key with revoked := key.revoked || key.id = keyId } }

/-- The route and `AuthService.list_api_keys`. -/
def listApiKeys (store : Store) (actor : Principal) : Except AuthError (List ApiKey) := do
  requireOrgScope actor "api_keys:read" actor.orgId
  return store.listForOrg actor.orgId

/-- The route and `AuthService.revoke_api_key`. -/
def revokeApiKey (store : Store) (keyId : Nat) (actor : Principal) : Except AuthError (ApiKey × Store) :=
  match store.apiKeys.find? (·.id = keyId) with
  | none => .error (.http 404 ("API key not found: " ++ uuidText keyId))
  | some key => do
    requireOrgScope actor "api_keys:delete" key.orgId
    return ({ key with revoked := true },store.revoke keyId)

def deleteConnection (store : Store) (orgId : OrgId) (connectionId : Nat) (actor : Principal) :
    Except AuthError Store := do
  requireOrgScope actor "orgs:write" orgId
  match store.toStore.getConnection connectionId with
  | .error e => .error (.saml e)
  | .ok existing =>
    if existing.orgId ≠ orgId then .error (.forbidden "Access denied for this organization")
    else return { store with connections := store.connections.filter (·.id ≠ connectionId) }

/-- A request to the API, the revocation of a key or the deletion of a SAML connection. -/
inductive ApiEvent where
  | request (l : Label)
  | revoke (credential : Credential) (now : Int) (keyId : Nat)
  | disconnect (credential : Credential) (now : Int) (orgId : OrgId) (connectionId : Nat)

def ApiEvent.revokes : ApiEvent → Nat → Bool
  | .revoke _ _ keyId, id => keyId = id
  | _, _ => false

def ApiEvent.rawKey : ApiEvent → Option String
  | .request l =>
    match l.request with
    | .createApiKey _ _ _ rawKey => some rawKey
    | _ => none
  | _ => none

/-- What creates a key: the id of its row, the principal, and what the request says. -/
structure Creation where
  id : Nat
  creator : Principal
  name : String
  scopes : List Scope
  expiresAt : Option Int
  rawKey : String

section keys
variable (env : Environment) (settings : Settings)

def Creation.row (c : Creation) : ApiKey where
  id := c.id
  orgId := c.creator.orgId
  name := c.name
  keyPrefix := keyPrefixOf c.rawKey
  keyHash := env.hashApiKey c.rawKey
  scopes := c.scopes
  createdByUserId := c.creator.userId
  expiresAt := c.expiresAt

def revokeStep (store : Store) (credential : Credential) (now : Int) (keyId : Nat) : Except AuthError Store := do
  let actor ← currentPrincipal env settings store now credential
  (revokeApiKey store keyId actor).map Prod.snd

def disconnectStep (store : Store) (credential : Credential) (now : Int) (orgId : OrgId) (connectionId : Nat) :
    Except AuthError Store := do
  let actor ← currentPrincipal env settings store now credential
  deleteConnection store orgId connectionId actor

def apiStep (store : Store) : ApiEvent → Option Store
  | .request l => step env settings store l
  | .revoke credential now keyId => (revokeStep env settings store credential now keyId).toOption
  | .disconnect credential now orgId connectionId =>
    (disconnectStep env settings store credential now orgId connectionId).toOption

/-- A request creates a key in these tables. -/
structure CreatesAt (a : Store) (e : ApiEvent) (c : Creation) : Prop where
  request : ∃ l, e = .request l ∧ l.request = .createApiKey c.name c.scopes c.expiresAt c.rawKey ∧
    currentPrincipal env settings a l.now l.credential = .ok c.creator
  id : c.id = a.nextId

/-- A request of the run creates a key. -/
def Creates (events : List ApiEvent) (c : Creation) : Prop :=
  ∃ a e b, Fires (apiStep env settings) empty events a e b ∧ CreatesAt env settings a e c

def drawnKeys (events : List ApiEvent) : List String := events.filterMap (·.rawKey)

/-- The row of a created key after the run. -/
def rowAfter (events : List ApiEvent) (c : Creation) : ApiKey :=
  { c.row env with revoked := events.any (·.revokes c.id) }

/-- What a request that succeeds does to the keys. -/
inductive KeyChange (a : Store) (e : ApiEvent) (b : Store) : Prop
  | kept (hkeys : b.apiKeys = a.apiKeys) (hnext : a.nextId ≤ b.nextId) (hnone : ∀ c, ¬CreatesAt env settings a e c)
      (hdrawn : e.rawKey = none) (hrevokes : ∀ id, e.revokes id = false)
  | created (c : Creation) (hcreates : CreatesAt env settings a e c)
      (hgranted : ∀ scope ∈ c.scopes, c.creator.hasScope scope = true)
      (hkeys : b.apiKeys = a.apiKeys ++ [c.row env]) (hnext : b.nextId = a.nextId + 1)
      (hdrawn : e.rawKey = some c.rawKey) (hrevokes : ∀ id, e.revokes id = false)
  | revoked {keyId : Nat} {key : ApiKey} (hfound : key ∈ a.apiKeys) (hid : key.id = keyId)
      (hstore : b = a.revoke keyId) (hnone : ∀ c, ¬CreatesAt env settings a e c) (hdrawn : e.rawKey = none)
      (hrevokes : ∀ id, e.revokes id = decide (keyId = id))

variable {env settings} {a b : Store}

theorem createApiKey_ok {name rawKey : String} {scopes : List Scope} {actor : Principal}
    {expiresAt : Option Int} {key : ApiKey}
    (h : createApiKey env a name scopes actor expiresAt rawKey = .ok (key,b)) :
    key = (Creation.mk a.nextId actor name scopes expiresAt rawKey).row env ∧
      b = { a with apiKeys := a.apiKeys ++ [key], nextId := a.nextId + 1 } := by
  obtain ⟨_,-,h⟩ := bind_eq_ok.mp h
  dsimp only at h
  split at h
  · cases h
  · split at h
    · cases h
    · split_ifs at h
      obtain ⟨rfl,rfl⟩ := Prod.mk.inj (Except.ok.inj h)
      exact ⟨rfl,rfl⟩

theorem createInvite_apiKeys {orgId : OrgId} {email tokenHash : String} {role : OrgRole}
    {inviter : Option UserId} {expiresAt : Int} {invite : Invite}
    (h : a.createInvite orgId email role tokenHash inviter expiresAt = .ok (invite,b)) :
    b.apiKeys = a.apiKeys ∧ a.nextId ≤ b.nextId := by
  unfold Store.createInvite at h
  split at h
  · split_ifs at h
    cases h
    exact ⟨rfl,Nat.le.refl⟩
  · split_ifs at h
    cases h
    exact ⟨rfl,Nat.le_succ a.nextId⟩

theorem acceptInvite_apiKeys {now : Int} {token password fullName : String} {r : User × OrgId × Tokens}
    (h : acceptInvite env a now token password fullName = .ok (r,b)) :
    b.apiKeys = a.apiKeys ∧ a.nextId ≤ b.nextId := by
  obtain ⟨invite,user,t,-,-,-,huser,rfl⟩ := acceptInvite_ok h
  unfold inviteUser at huser
  split at huser
  · cases huser
    exact ⟨rfl,Nat.le.refl⟩
  · split_ifs at huser
    cases huser
    exact ⟨rfl,Nat.le.refl⟩

theorem request_change {l : Label} (h : perform env settings a l = .ok b) :
    KeyChange env settings a (.request l) b := by
  have hkept {request : Request} (hrequest : l.request = request) (hkeys : b.apiKeys = a.apiKeys)
      (hnext : a.nextId ≤ b.nextId)
      (hother : ∀ name scopes expiresAt rawKey, request ≠ .createApiKey name scopes expiresAt rawKey) :
      KeyChange env settings a (.request l) b := by
    subst hrequest
    refine .kept hkeys hnext ?_ ?_ fun _ => rfl
    · rintro c ⟨⟨l',hl,hcreate,-⟩,-⟩
      cases hl
      exact hother _ _ _ _ hcreate
    · unfold ApiEvent.rawKey
      dsimp only
      split
      · next heq => exact absurd heq (hother _ _ _ _)
      · rfl
  cases performed_of_ok h with
  | registered hrequest => exact hkept hrequest rfl (Nat.le_succ a.nextId) nofun
  | founded hrequest => exact hkept hrequest rfl (Nat.le_succ a.nextId) nofun
  | connected hrequest => exact hkept hrequest rfl (Nat.le_succ a.nextId) nofun
  | loggedIn hrequest => exact hkept hrequest rfl Nat.le.refl nofun
  | refreshed hrequest => exact hkept hrequest rfl Nat.le.refl nofun
  | added hrequest => exact hkept hrequest rfl Nat.le.refl nofun
  | remapped hrequest => exact hkept hrequest rfl Nat.le.refl nofun
  | consumed hrequest hok =>
    obtain ⟨after,_,-,rfl⟩ := consumeAcs_eq_ok hok
    exact hkept hrequest rfl Nat.le.refl nofun
  | invited hrequest hok =>
    obtain ⟨hkeys,hnext⟩ := createInvite_apiKeys hok
    exact hkept hrequest hkeys hnext nofun
  | accepted hrequest hok =>
    obtain ⟨hkeys,hnext⟩ := acceptInvite_apiKeys hok
    exact hkept hrequest hkeys hnext nofun
  | @keyed name rawKey scopes expiresAt key hrequest =>
    unfold perform at h
    rw [hrequest] at h
    obtain ⟨creator,hcreator,h⟩ := bind_eq_ok.mp h
    obtain ⟨⟨row,after⟩,hok,hafter⟩ := map_eq_ok.mp h
    obtain ⟨rfl,rfl⟩ := createApiKey_ok hok
    refine .created ⟨a.nextId,creator,name,scopes,expiresAt,rawKey⟩ ⟨⟨l,rfl,hrequest,hcreator⟩,rfl⟩
      (createApiKey_scopes hok) ?_ ?_ ?_ fun _ => rfl
    · rw [← hafter]
    · rw [← hafter]
    · unfold ApiEvent.rawKey
      dsimp only
      rw [hrequest]

/-- What a deletion finds and removes. -/
theorem disconnectStep_ok {credential : Credential} {now : Int} {orgId : OrgId} {connectionId : Nat}
    (h : disconnectStep env settings a credential now orgId connectionId = .ok b) :
    ∃ actor existing, currentPrincipal env settings a now credential = .ok actor ∧
      requireOrgScope actor "orgs:write" orgId = .ok () ∧
      a.toStore.getConnection connectionId = .ok existing ∧ existing.orgId = orgId ∧
      b = { a with connections := a.connections.filter (·.id ≠ connectionId) } := by
  obtain ⟨actor,hactor,h⟩ := bind_eq_ok.mp h
  obtain ⟨_,hscope,h⟩ := bind_eq_ok.mp h
  split at h
  · cases h
  · next existing hexisting =>
    split_ifs at h with horg
    obtain rfl := Except.ok.inj h
    exact ⟨actor,existing,hactor,hscope,hexisting,not_not.mp horg,rfl⟩

theorem apiStep_change {e : ApiEvent} (h : apiStep env settings a e = some b) : KeyChange env settings a e b := by
  cases e with
  | request l => exact request_change (toOption_eq_some.mp h)
  | revoke credential now keyId =>
    obtain ⟨actor,-,h⟩ := bind_eq_ok.mp (toOption_eq_some.mp h)
    obtain ⟨⟨key,after⟩,hok,rfl⟩ := map_eq_ok.mp h
    unfold revokeApiKey at hok
    split at hok
    · cases hok
    · next found hfound =>
      obtain ⟨_,-,hok⟩ := bind_eq_ok.mp hok
      obtain ⟨rfl,rfl⟩ := Prod.mk.inj (Except.ok.inj hok)
      refine .revoked (List.mem_of_find?_eq_some hfound) (by simpa using List.find?_some hfound) rfl ?_ rfl
        fun _ => rfl
      rintro c ⟨⟨l,hl,-⟩,-⟩
      cases hl
  | disconnect credential now orgId connectionId =>
    obtain ⟨_,_,-,-,-,-,rfl⟩ := disconnectStep_ok (toOption_eq_some.mp h)
    refine .kept rfl Nat.le.refl ?_ rfl fun _ => rfl
    rintro c ⟨⟨l,hl,-⟩,-⟩
    cases hl

theorem creates_concat {events : List ApiEvent} {e : ApiEvent} {c : Creation}
    (hrun : run (apiStep env settings) empty events = some a) (hs : apiStep env settings a e = some b) :
    Creates env settings (events ++ [e]) c ↔ Creates env settings events c ∨ CreatesAt env settings a e c := by
  constructor
  · rintro ⟨a',e',b',hf,hc⟩
    rcases fires_concat_iff.mp hf with hbefore | ⟨rfl,ha',-⟩
    · exact .inl ⟨a',e',b',hbefore,hc⟩
    · obtain rfl := Option.some.inj (hrun.symm.trans ha')
      exact .inr hc
  · rintro (⟨a',e',b',hf,hc⟩ | hc)
    · exact ⟨a',e',b',hf.append,hc⟩
    · exact ⟨a,e,b,fires_concat_iff.mpr (.inr ⟨rfl,hrun,hs⟩),hc⟩

theorem drawnKeys_concat (events : List ApiEvent) (e : ApiEvent) :
    drawnKeys (events ++ [e]) = drawnKeys events ++ e.rawKey.toList := by
  unfold drawnKeys
  rw [List.filterMap_append]
  cases h : e.rawKey <;> simp [h]

theorem any_revokes_concat (events : List ApiEvent) (e : ApiEvent) (id : Nat) :
    (events ++ [e]).any (·.revokes id) = (events.any (·.revokes id) || e.revokes id) := by
  simp

/-- One event creates one key. -/
theorem CreatesAt.unique {e : ApiEvent} {c d : Creation} (hc : CreatesAt env settings a e c)
    (hd : CreatesAt env settings a e d) : c = d := by
  obtain ⟨⟨l,rfl,hrequest,hcreator⟩,hid⟩ := hc
  obtain ⟨⟨l',hl,hrequest',hcreator'⟩,hid'⟩ := hd
  cases hl
  obtain ⟨hname,hscopes,hexpires,hraw⟩ := Request.createApiKey.inj (hrequest.symm.trans hrequest')
  cases c
  cases d
  cases Except.ok.inj (hcreator.symm.trans hcreator')
  simp only [Creation.mk.injEq]
  exact ⟨hid.trans hid'.symm,trivial,hname,hscopes,hexpires,hraw⟩

/-- The rows tell what the run has done: a row for every key created, revoked if the run
revokes it. -/
structure Told (env : Environment) (settings : Settings) (events : List ApiEvent) (b : Store) : Prop where
  rows : ∀ key, key ∈ b.apiKeys ↔ ∃ c, Creates env settings events c ∧ key = rowAfter env events c
  below : ∀ c, Creates env settings events c → c.id < b.nextId
  revoked : ∀ id, events.any (·.revokes id) = true → id < b.nextId
  drawn : ∀ c, Creates env settings events c → c.rawKey ∈ drawnKeys events
  unique : (drawnKeys events).Nodup → ∀ c d, Creates env settings events c → Creates env settings events d →
    c.rawKey = d.rawKey → c = d

theorem rowAfter_concat {events : List ApiEvent} {e : ApiEvent} {c : Creation} (h : e.revokes c.id = false) :
    rowAfter env (events ++ [e]) c = rowAfter env events c := by
  unfold rowAfter
  rw [any_revokes_concat,h,Bool.or_false]

theorem told_nil : Told env settings [] empty where
  rows key := by
    constructor
    · intro h
      cases h
    · rintro ⟨c,⟨_,_,_,hf,-⟩,-⟩
      exact absurd hf not_fires_nil
  below c := fun ⟨_,_,_,hf,_⟩ => absurd hf not_fires_nil
  revoked id h := by cases h
  drawn c := fun ⟨_,_,_,hf,_⟩ => absurd hf not_fires_nil
  unique _ c d := fun ⟨_,_,_,hf,_⟩ => absurd hf not_fires_nil

/-- An event that creates no key leaves the creations as they are. -/
theorem told_quiet {events : List ApiEvent} {e : ApiEvent} (h : Told env settings events a)
    (hcreates : ∀ c, Creates env settings (events ++ [e]) c ↔ Creates env settings events c)
    (hdrawn : e.rawKey = none) (hnext : a.nextId ≤ b.nextId)
    (hrevokes : ∀ id, e.revokes id = true → id < a.nextId)
    (hrows : ∀ key, key ∈ b.apiKeys ↔
      ∃ c, Creates env settings events c ∧ key = rowAfter env (events ++ [e]) c) :
    Told env settings (events ++ [e]) b := by
  have hkeys : drawnKeys (events ++ [e]) = drawnKeys events := by
    rw [drawnKeys_concat,hdrawn,Option.toList_none,List.append_nil]
  refine ⟨?_,?_,?_,?_,?_⟩
  · simpa only [hcreates] using hrows
  · exact fun c hc => Nat.lt_of_lt_of_le (h.below c ((hcreates c).mp hc)) hnext
  · intro id hid
    rw [any_revokes_concat,Bool.or_eq_true] at hid
    exact Nat.lt_of_lt_of_le (hid.elim (h.revoked id) (hrevokes id)) hnext
  · exact fun c hc => hkeys ▸ h.drawn c ((hcreates c).mp hc)
  · rw [hkeys]
    exact fun hnodup c d hc hd => h.unique hnodup c d ((hcreates c).mp hc) ((hcreates d).mp hd)

theorem told_step {events : List ApiEvent} {e : ApiEvent} (h : Told env settings events a)
    (hrun : run (apiStep env settings) empty events = some a) (hs : apiStep env settings a e = some b) :
    Told env settings (events ++ [e]) b := by
  have hconcat (c : Creation) := creates_concat (c := c) hrun hs
  cases apiStep_change hs with
  | kept hkeys hnext hnone hdrawn hrevokes =>
    refine told_quiet h (fun c => ?_) hdrawn hnext ?_ ?_
    · rw [hconcat c,or_iff_left (hnone c)]
    · intro id hid
      rw [hrevokes id] at hid
      cases hid
    · intro key
      simp only [rowAfter_concat (hrevokes _)]
      rw [hkeys]
      exact h.rows key
  | revoked hfound hid hstore hnone hdrawn hrevokes =>
    rename_i keyId key
    subst hstore hid
    have hbelow : key.id < a.nextId := by
      obtain ⟨c,hc,rfl⟩ := (h.rows key).mp hfound
      exact h.below c hc
    refine told_quiet h (fun c => ?_) hdrawn Nat.le.refl ?_ ?_
    · rw [hconcat c,or_iff_left (hnone c)]
    · intro id hrevoked
      rw [hrevokes id,decide_eq_true_eq] at hrevoked
      exact hrevoked ▸ hbelow
    · have hrow (c : Creation) : rowAfter env (events ++ [e]) c =
          { rowAfter env events c with revoked := (rowAfter env events c).revoked || c.id = key.id } := by
        unfold rowAfter
        rw [any_revokes_concat,hrevokes c.id]
        simp only [eq_comm]
      intro k
      constructor
      · intro hk
        obtain ⟨old,hold,rfl⟩ := List.mem_map.mp hk
        obtain ⟨c,hc,rfl⟩ := (h.rows old).mp hold
        exact ⟨c,hc,(hrow c).symm⟩
      · rintro ⟨c,hc,rfl⟩
        exact List.mem_map.mpr ⟨rowAfter env events c,(h.rows _).mpr ⟨c,hc,rfl⟩,(hrow c).symm⟩
  | created new hcreates _ hkeys hnext hdrawn hrevokes =>
    have hkeysDrawn : drawnKeys (events ++ [e]) = drawnKeys events ++ [new.rawKey] := by
      rw [drawnKeys_concat,hdrawn,Option.toList_some]
    have hnew (c : Creation) : Creates env settings (events ++ [e]) c ↔ Creates env settings events c ∨ c = new := by
      rw [hconcat c]
      exact or_congr_right ⟨fun hc => hc.unique hcreates,fun hc => hc ▸ hcreates⟩
    have hunrevoked : events.any (·.revokes new.id) = false := by
      rw [Bool.eq_false_iff]
      intro hrevoked
      have hlt := h.revoked new.id hrevoked
      rw [hcreates.id] at hlt
      exact Nat.lt_irrefl _ hlt
    refine ⟨?_,?_,?_,?_,?_⟩
    · intro key
      simp only [rowAfter_concat (hrevokes _),hnew]
      rw [hkeys,List.mem_append,List.mem_singleton,h.rows key]
      have hrow : rowAfter env events new = new.row env := by
        unfold rowAfter
        rw [hunrevoked]
        rfl
      constructor
      · rintro (⟨c,hc,rfl⟩ | rfl)
        · exact ⟨c,.inl hc,rfl⟩
        · exact ⟨new,.inr rfl,hrow.symm⟩
      · rintro ⟨c,hc | rfl,rfl⟩
        · exact .inl ⟨c,hc,rfl⟩
        · exact .inr hrow
    · intro c hc
      rw [hnext]
      rcases (hnew c).mp hc with hold | rfl
      · exact Nat.lt_succ_of_lt (h.below c hold)
      · exact hcreates.id ▸ Nat.lt_succ_self _
    · intro id hid
      rw [any_revokes_concat,hrevokes id,Bool.or_false] at hid
      exact hnext ▸ Nat.lt_succ_of_lt (h.revoked id hid)
    · intro c hc
      rw [hkeysDrawn]
      rcases (hnew c).mp hc with hold | rfl
      · exact List.mem_append_left _ (h.drawn c hold)
      · exact List.mem_append_right _ (List.mem_singleton_self _)
    · intro hnodup c d hc hd hraw
      rw [hkeysDrawn] at hnodup
      obtain ⟨hbefore,-,hapart⟩ := List.nodup_append.mp hnodup
      have hfresh (c : Creation) (hc : Creates env settings events c) : c.rawKey ≠ new.rawKey :=
        hapart _ (h.drawn c hc) _ (List.mem_singleton_self _)
      rcases (hnew c).mp hc with hold | rfl
      · rcases (hnew d).mp hd with hold' | rfl
        · exact h.unique hbefore c d hold hold' hraw
        · exact absurd hraw (hfresh c hold)
      · rcases (hnew d).mp hd with hold' | rfl
        · exact absurd hraw.symm (hfresh d hold')
        · rfl

theorem told_run {events : List ApiEvent} (hrun : run (apiStep env settings) empty events = some b) :
    Told env settings events b := by
  induction events using List.reverseRecOn generalizing b with
  | nil =>
    cases hrun
    exact told_nil
  | append_singleton events e ih =>
    obtain ⟨a,ha,hs⟩ := run_concat_eq_some.mp hrun
    exact told_step (ih ha) ha hs

/-- A raw key that has the hash of one row only authenticates as that row says. -/
theorem resolve_iff {now : Int} {rawKey : String} {p : Principal} {key : ApiKey} (hkey : key ∈ a.apiKeys)
    (hpre : key.keyPrefix = keyPrefixOf rawKey) (hhash : key.keyHash = env.hashApiKey rawKey)
    (hunique : ∀ k ∈ a.apiKeys, k.keyHash = env.hashApiKey rawKey → k = key) :
    resolvePrincipalFromApiKey env settings a now rawKey = .ok p ↔
      settings.apiKeyPrefix.toList.isPrefixOf rawKey.toList = true ∧ key.revoked = false ∧
        key.expiresAt.any (· < now) = false ∧ p = principalFromApiKeyRecord key.orgId key.scopes := by
  have hfind := find?_only (p := fun k => k.keyPrefix = keyPrefixOf rawKey && !k.revoked &&
    k.keyHash = env.hashApiKey rawKey) hkey fun k hk hmatch =>
      hunique k hk (by simpa using (Bool.and_eq_true_iff.mp hmatch).2)
  simp only [hpre,hhash,decide_true,Bool.true_and,Bool.and_true] at hfind
  unfold resolvePrincipalFromApiKey
  rw [hfind]
  cases hformat : settings.apiKeyPrefix.toList.isPrefixOf rawKey.toList with
  | false => simp
  | true =>
    cases hrevoked : key.revoked with
    | true => simp
    | false =>
      cases hexpired : key.expiresAt.any (· < now) with
      | true => simp [hexpired]
      | false =>
        simp only [Bool.not_true,Bool.false_eq_true,if_false,Bool.not_false,if_true,hexpired,true_and]
        exact ⟨fun h => (Except.ok.inj h).symm,fun h => congrArg Except.ok h.symm⟩

/-- No row, no principal. -/
theorem resolve_stranger {now : Int} {rawKey : String} {p : Principal}
    (h : ∀ k ∈ a.apiKeys, k.keyHash ≠ env.hashApiKey rawKey) :
    resolvePrincipalFromApiKey env settings a now rawKey ≠ .ok p := by
  intro hok
  obtain ⟨key,hkey,hhash,-⟩ := resolvePrincipalFromApiKey_ok hok
  exact h key hkey hhash

theorem rowAfter_rawKey {events : List ApiEvent} {rawKey : String} (h : Told env settings events b)
    (hhash : ∀ k ∈ drawnKeys events, env.hashApiKey k = env.hashApiKey rawKey → k = rawKey) {c : Creation}
    (hc : Creates env settings events c) (heq : (rowAfter env events c).keyHash = env.hashApiKey rawKey) :
    c.rawKey = rawKey :=
  hhash c.rawKey (h.drawn c hc) heq

/-- A raw key that authenticates was drawn by the run, which has not revoked it. -/
theorem created_of_resolve {events : List ApiEvent} {rawKey : String} {now : Int} {p : Principal}
    (h : Told env settings events b)
    (hhash : ∀ k ∈ drawnKeys events, env.hashApiKey k = env.hashApiKey rawKey → k = rawKey)
    (hok : resolvePrincipalFromApiKey env settings b now rawKey = .ok p) :
    ∃ c, Creates env settings events c ∧ c.rawKey = rawKey ∧ events.any (·.revokes c.id) = false ∧
      p = principalFromApiKeyRecord c.creator.orgId c.scopes := by
  obtain ⟨key,hkey,heq,hrevoked,rfl⟩ := resolvePrincipalFromApiKey_ok hok
  obtain ⟨c,hc,rfl⟩ := (h.rows key).mp hkey
  exact ⟨c,hc,rowAfter_rawKey h hhash hc heq,hrevoked,rfl⟩

/-- After every run, a raw key authenticates exactly if a request of the run created its
key, no event of the run revoked it, and it has not expired; it does so with the scopes of
that request, in the organisation of the caller who made it. No two keys are drawn alike,
and no drawn key has the hash of another. -/
theorem api_key_authenticates_iff {events : List ApiEvent}
    (hrun : run (apiStep env settings) empty events = some b) (hdrawn : (drawnKeys events).Nodup)
    {rawKey : String} (hhash : ∀ k ∈ drawnKeys events, env.hashApiKey k = env.hashApiKey rawKey → k = rawKey)
    (now : Int) (p : Principal) :
    resolvePrincipalFromApiKey env settings b now rawKey = .ok p ↔
      settings.apiKeyPrefix.toList.isPrefixOf rawKey.toList = true ∧
        ∃ c, Creates env settings events c ∧ c.rawKey = rawKey ∧ events.any (·.revokes c.id) = false ∧
          c.expiresAt.any (· < now) = false ∧ p = principalFromApiKeyRecord c.creator.orgId c.scopes := by
  have htold := told_run hrun
  by_cases hcreated : ∃ c, Creates env settings events c ∧ c.rawKey = rawKey
  · obtain ⟨c,hc,rfl⟩ := hcreated
    have hunique (d : Creation) (hd : Creates env settings events d) (heq : d.rawKey = c.rawKey) : d = c :=
      htold.unique hdrawn d c hd hc heq
    have hmem : rowAfter env events c ∈ b.apiKeys := (htold.rows _).mpr ⟨c,hc,rfl⟩
    have halone (k : ApiKey) (hk : k ∈ b.apiKeys) (heq : k.keyHash = env.hashApiKey c.rawKey) :
        k = rowAfter env events c := by
      obtain ⟨d,hd,rfl⟩ := (htold.rows k).mp hk
      rw [hunique d hd (rowAfter_rawKey htold hhash hd heq)]
    rw [resolve_iff hmem rfl rfl halone]
    refine and_congr_right fun _ => ⟨fun ⟨hrevoked,hexpired,hp⟩ => ⟨c,hc,rfl,hrevoked,hexpired,hp⟩,?_⟩
    rintro ⟨d,hd,heq,hrevoked,hexpired,hp⟩
    obtain rfl := hunique d hd heq
    exact ⟨hrevoked,hexpired,hp⟩
  · constructor
    · intro h
      obtain ⟨c,hc,heq,-⟩ := created_of_resolve htold hhash h
      exact absurd ⟨c,hc,heq⟩ hcreated
    · rintro ⟨-,c,hc,heq,-⟩
      exact absurd ⟨c,hc,heq⟩ hcreated

/-- Ada registers and creates a key, which creates a second one; she revokes the first. -/
def delegatedKeyRun : List ApiEvent :=
  let ada : Credential := .bearer ⟨1,1,.owner⟩
  [.request { request := .register "ada@example.com" "secret" "Ada" "acme" },
    .request { credential := ada, request := .createApiKey "ci" ["api_keys:write","sessions:read"] none "vxf_first" },
    .request { credential := .apiKey "vxf_first", request := .createApiKey "bot" ["sessions:read"] (some 9) "vxf_second" },
    .revoke ada 5 2]

theorem second_key_authenticates :
    ∃ b c, run (apiStep plainEnvironment {}) empty delegatedKeyRun = some b ∧
      Creates plainEnvironment {} delegatedKeyRun c ∧ c.rawKey = "vxf_second" ∧
      delegatedKeyRun.any (·.revokes c.id) = false := by
  have hrun : ((run (apiStep plainEnvironment {}) empty delegatedKeyRun).bind fun b =>
      (resolvePrincipalFromApiKey plainEnvironment {} b 9 "vxf_second").toOption) =
      some (principalFromApiKeyRecord 1 ["sessions:read"]) := by decide +kernel
  obtain ⟨b,hb,hok⟩ := Option.bind_eq_some_iff.mp hrun
  obtain ⟨-,c,hc,hraw,hrevoked,-⟩ := (api_key_authenticates_iff hb (by decide +kernel) (fun _ _ heq => heq) 9 _).mp
    (toOption_eq_some.mp hok)
  exact ⟨b,c,hb,hc,hraw,hrevoked⟩

theorem creates_append {events later : List ApiEvent} {c : Creation} (h : Creates env settings events c) :
    Creates env settings (events ++ later) c := by
  obtain ⟨a,e,b,hf,hc⟩ := h
  exact ⟨a,e,b,hf.append,hc⟩

theorem revokeApiKey_of_mem {key : ApiKey} {actor : Principal} (hkey : key ∈ a.apiKeys)
    (hids : ∀ k ∈ a.apiKeys, k.id = key.id → k.orgId = key.orgId) (horg : actor.orgId = key.orgId)
    (hscope : actor.hasScope "api_keys:delete" = true) :
    ∃ revoked, revokeApiKey a key.id actor = .ok (revoked,a.revoke key.id) := by
  unfold revokeApiKey
  cases hfound : a.apiKeys.find? (·.id = key.id) with
  | none => exact absurd (decide_eq_true rfl) (List.find?_eq_none.mp hfound key hkey)
  | some found =>
    have hid : found.id = key.id := by simpa using List.find?_some hfound
    have hsame := hids found (List.mem_of_find?_eq_some hfound) hid
    exact ⟨{ found with revoked := true },by
      simp [requireOrgScope,requireScope,horg,hsame,hscope,bind,Except.bind,pure,Except.pure]⟩

/-- Different keys of a run have different ids. -/
theorem creates_ids {events : List ApiEvent} (hrun : run (apiStep env settings) empty events = some b) {c d : Creation}
    (hc : Creates env settings events c) (hd : Creates env settings events d) (hid : c.id = d.id) : c = d := by
  induction events using List.reverseRecOn generalizing b with
  | nil =>
    obtain ⟨_,_,_,hf,-⟩ := hc
    exact absurd hf not_fires_nil
  | append_singleton events e ih =>
    obtain ⟨a,ha,hs⟩ := run_concat_eq_some.mp hrun
    have hbelow := (told_run ha).below
    rcases (creates_concat ha hs).mp hc with hc | hc
    · rcases (creates_concat ha hs).mp hd with hd | hd
      · exact ih ha hc hd
      · exact absurd (hid.trans hd.id) (Nat.ne_of_lt (hbelow c hc))
    · rcases (creates_concat ha hs).mp hd with hd | hd
      · exact absurd (hid.symm.trans hc.id) (Nat.ne_of_lt (hbelow d hd))
      · exact hc.unique hd

/-- A raw key that authenticates belongs to a key listed for its organisation, and who may
delete keys there can revoke it, once and for all. -/
theorem authenticating_key_revocable {events : List ApiEvent}
    (hrun : run (apiStep env settings) empty events = some b) {rawKey : String} {now : Int} {p : Principal}
    (hhash : ∀ k ∈ drawnKeys events, env.hashApiKey k = env.hashApiKey rawKey → k = rawKey)
    (hok : resolvePrincipalFromApiKey env settings b now rawKey = .ok p) :
    ∃ key ∈ b.listForOrg p.orgId, ∀ credential time actor,
      currentPrincipal env settings b time credential = .ok actor → actor.orgId = p.orgId →
        actor.hasScope "api_keys:delete" = true →
        ∃ after, apiStep env settings b (.revoke credential time key.id) = some after ∧
          ∀ later last, run (apiStep env settings) after later = some last →
            (drawnKeys (events ++ later)).Nodup →
            (∀ k ∈ drawnKeys (events ++ later), env.hashApiKey k = env.hashApiKey rawKey → k = rawKey) →
            ∀ now p, resolvePrincipalFromApiKey env settings last now rawKey ≠ .ok p := by
  have htold := told_run hrun
  obtain ⟨c,hc,rfl,hrevoked,rfl⟩ := created_of_resolve htold hhash hok
  have hmem : rowAfter env events c ∈ b.apiKeys := (htold.rows _).mpr ⟨c,hc,rfl⟩
  refine ⟨rowAfter env events c,?_,?_⟩
  · refine List.mem_reverse.mpr (List.mem_filter.mpr ⟨hmem,?_⟩)
    simp only [rowAfter,hrevoked,Bool.not_false,Bool.and_true]
    exact decide_eq_true rfl
  · intro credential time actor hactor horg hscope
    have hids (k : ApiKey) (hk : k ∈ b.apiKeys) (hid : k.id = (rowAfter env events c).id) :
        k.orgId = (rowAfter env events c).orgId := by
      obtain ⟨d,hd,rfl⟩ := (htold.rows k).mp hk
      rw [creates_ids hrun hd hc hid]
    obtain ⟨revoked,hrevoke⟩ := revokeApiKey_of_mem hmem hids horg hscope
    have hstep : apiStep env settings b (.revoke credential time c.id) = some (b.revoke c.id) := by
      refine toOption_eq_some.mpr (bind_eq_ok.mpr ⟨actor,hactor,map_eq_ok.mpr ⟨_,hrevoke,rfl⟩⟩)
    refine ⟨_,hstep,fun later last hlater hdrawn hhash' now p hok' => ?_⟩
    have hlast : run (apiStep env settings) empty (events ++ .revoke credential time c.id :: later) = some last := by
      rw [run_append,hrun,Option.bind_some,run_cons,hstep]
      exact hlater
    have hsame : drawnKeys (events ++ .revoke credential time c.id :: later) = drawnKeys (events ++ later) := by
      unfold drawnKeys
      rw [List.filterMap_append,List.filterMap_append,List.filterMap_cons_none rfl]
    have hafter := told_run hlast
    obtain ⟨d,hd,hraw,hunrevoked,-⟩ := created_of_resolve hafter (hsame ▸ hhash') hok'
    obtain rfl := hafter.unique (hsame ▸ hdrawn) d c hd (creates_append hc) hraw
    rw [List.any_append,List.any_cons] at hunrevoked
    simp [ApiEvent.revokes] at hunrevoked

theorem first_key_revocable :
    ∃ b, run (apiStep plainEnvironment {}) empty (delegatedKeyRun.take 2) = some b ∧
      ∃ key ∈ b.listForOrg 1, ∃ after,
        apiStep plainEnvironment {} b (.revoke (.bearer ⟨1,1,.owner⟩) 5 key.id) = some after := by
  have hrun : ((run (apiStep plainEnvironment {}) empty (delegatedKeyRun.take 2)).bind fun b =>
      (resolvePrincipalFromApiKey plainEnvironment {} b 9 "vxf_first").toOption.bind fun p =>
        (currentPrincipal plainEnvironment {} b 5 (.bearer ⟨1,1,.owner⟩)).toOption.map fun actor => (p,actor)) =
      some (principalFromApiKeyRecord 1 ["api_keys:write","sessions:read"],⟨some 1,1,some .owner,[]⟩) := by
    decide +kernel
  obtain ⟨b,hb,hrest⟩ := Option.bind_eq_some_iff.mp hrun
  obtain ⟨p,hp,hrest⟩ := Option.bind_eq_some_iff.mp hrest
  obtain ⟨actor,hactor,hpair⟩ := Option.map_eq_some_iff.mp hrest
  obtain ⟨rfl,rfl⟩ := Prod.mk.inj hpair
  obtain ⟨key,hkey,hrevocable⟩ := authenticating_key_revocable hb (fun _ _ heq => heq) (toOption_eq_some.mp hp)
  obtain ⟨after,hstep,-⟩ := hrevocable _ 5 _ (toOption_eq_some.mp hactor) rfl (by decide)
  exact ⟨b,hb,key,hkey,after,hstep⟩

/-! Where the authority of a key comes from. -/

/-- The principal stays within what a user of its organisation may do, who has a signed
token, unless the deployment does without. -/
def Rooted (settings : Settings) (store : Store) (p : Principal) : Prop :=
  ∃ root : Principal, root.userId ≠ none ∧ root.orgId = p.orgId ∧
    (settings.authRequired = true → ∃ tokens ∈ store.issued, root = principalFromAccessToken tokens) ∧
    ∀ scope, p.hasScope scope = true → root.hasScope scope = true

def ApiKey.principal (key : ApiKey) : Principal := principalFromApiKeyRecord key.orgId key.scopes

theorem Rooted.mono {p : Principal} (h : Rooted settings a p) (hissued : a.issued <+: b.issued) :
    Rooted settings b p := by
  obtain ⟨root,huser,horg,htokens,hscopes⟩ := h
  refine ⟨root,huser,horg,fun hrequired => ?_,hscopes⟩
  obtain ⟨tokens,hin,hroot⟩ := htokens hrequired
  exact ⟨tokens,hissued.subset hin,hroot⟩

/-- A principal that may do no more than a rooted one of its organisation is rooted. -/
theorem Rooted.within {p q : Principal} (h : Rooted settings a p) (horg : q.orgId = p.orgId)
    (hscopes : ∀ scope, q.hasScope scope = true → p.hasScope scope = true) : Rooted settings a q := by
  obtain ⟨root,huser,hroot,htokens,hall⟩ := h
  exact ⟨root,huser,hroot.trans horg.symm,htokens,fun scope hs => hall scope (hscopes scope hs)⟩

theorem currentPrincipal_rooted {now : Int} {credential : Credential} {p : Principal}
    (hkeys : ∀ key ∈ a.apiKeys, Rooted settings a key.principal)
    (h : currentPrincipal env settings a now credential = .ok p) : Rooted settings a p := by
  have hself (huser : p.userId ≠ none)
      (htokens : settings.authRequired = true → ∃ tokens ∈ a.issued, p = principalFromAccessToken tokens) :
      Rooted settings a p := ⟨p,huser,rfl,htokens,fun _ => id⟩
  unfold currentPrincipal at h
  split at h
  · next hopen =>
    split at h
    · cases h
    · cases h
      refine hself nofun fun hrequired => ?_
      rw [hrequired] at hopen
      cases hopen
  · split at h
    · next tokens =>
      split at h
      · next hissued =>
        cases h
        exact hself nofun fun _ => ⟨tokens,hissued,rfl⟩
      · cases h
    · split at h
      · next hresolve =>
        cases h
        obtain ⟨key,hkey,-,-,rfl⟩ := resolvePrincipalFromApiKey_ok hresolve
        exact hkeys key hkey
      · cases h
      · cases h
    · cases h

theorem keys_rooted_step {e : ApiEvent} (h : ∀ key ∈ a.apiKeys, Rooted settings a key.principal)
    (hs : apiStep env settings a e = some b) : ∀ key ∈ b.apiKeys, Rooted settings b key.principal := by
  have hissued : a.issued <+: b.issued := by
    cases e with
    | request l => exact issued_prefix (e := .request l) hs
    | revoke credential now keyId =>
      cases apiStep_change hs with
      | kept _ _ _ _ hrevokes => simpa [ApiEvent.revokes] using hrevokes keyId
      | created _ _ _ _ _ hdrawn => cases hdrawn
      | revoked _ _ hstore => exact hstore ▸ List.prefix_rfl
    | disconnect credential now orgId connectionId =>
      obtain ⟨_,_,-,-,-,-,rfl⟩ := disconnectStep_ok (toOption_eq_some.mp hs)
      exact List.prefix_rfl
  cases apiStep_change hs with
  | kept hkeys => exact fun key hkey => (h key (hkeys ▸ hkey)).mono hissued
  | revoked _ _ hstore =>
    subst hstore
    intro key hkey
    obtain ⟨old,hold,rfl⟩ := List.mem_map.mp hkey
    exact (h old hold).mono hissued
  | created c hcreates hgranted hkeys =>
    intro key hkey
    rw [hkeys] at hkey
    rcases List.mem_append.mp hkey with hold | hnew
    · exact (h key hold).mono hissued
    · obtain rfl := List.mem_singleton.mp hnew
      obtain ⟨l,rfl,-,hcreator⟩ := hcreates.request
      have hwithin : Rooted settings a (c.row env).principal := by
        refine (currentPrincipal_rooted h hcreator).within rfl fun scope hscope => ?_
        exact (hasScope_key.mp hscope).elim (hgranted scope) hasScope_of_member
      exact hwithin.mono hissued

/-- After every run, whoever a credential authenticates, a key created by a key included,
stays within what a user of the same organisation with a signed token may do. -/
theorem principal_rooted {events : List ApiEvent} (hrun : run (apiStep env settings) empty events = some b)
    {now : Int} {credential : Credential} {p : Principal}
    (h : currentPrincipal env settings b now credential = .ok p) : Rooted settings b p := by
  refine currentPrincipal_rooted ?_ h
  refine (Visits.of_run hrun).invariant (I := fun s => ∀ key ∈ s.apiKeys, Rooted settings s key.principal) ?_
    fun a e b => keys_rooted_step
  intro key hkey
  cases hkey

end keys

theorem second_key_rooted :
    ∃ b p, run (apiStep plainEnvironment {}) empty delegatedKeyRun = some b ∧
      currentPrincipal plainEnvironment {} b 9 (.apiKey "vxf_second") = .ok p ∧ Rooted {} b p := by
  have hrun : ((run (apiStep plainEnvironment {}) empty delegatedKeyRun).bind fun b =>
      (currentPrincipal plainEnvironment {} b 9 (.apiKey "vxf_second")).toOption) =
      some (principalFromApiKeyRecord 1 ["sessions:read"]) := by decide +kernel
  obtain ⟨b,hb,hok⟩ := Option.bind_eq_some_iff.mp hrun
  have hp := toOption_eq_some.mp hok
  exact ⟨b,_,hb,hp,principal_rooted hb hp⟩

end VoxForge.Auth
