import VoxForge.Auth.Service

/-! What a principal may do: the check of one scope against the list of all of them, and
keys that create keys. -/
namespace VoxForge.Auth
open Core

/-- The scopes that a role gives whatever is listed; no role counts as `MEMBER`. -/
def givenByRole : Option OrgRole → List Scope
  | some .owner | some .admin => allApiKeyScopes
  | _ => OrgRole.member.scopes

theorem member_scopes_subset (role : OrgRole) : OrgRole.member.scopes ⊆ role.scopes := by
  cases role <;> decide

theorem scopes_subset_all (role : OrgRole) : role.scopes ⊆ allApiKeyScopes := by
  cases role <;> decide

theorem all_subset_owner : allApiKeyScopes ⊆ OrgRole.owner.scopes := by
  decide

theorem not_orgs_delete {scope : Scope} (h : scope ∈ allApiKeyScopes) :
    "orgs:delete".toList.isPrefixOf scope.toList = false := by
  revert scope
  decide

/-- A listed scope is granted if it is in the principal's list or comes with its role. -/
theorem hasScope_iff {p : Principal} {scope : Scope} (h : scope ∈ allApiKeyScopes) :
    p.hasScope scope = true ↔ scope ∈ p.scopes ∨ scope ∈ givenByRole p.role := by
  have hdelete := not_orgs_delete h
  cases hrole : p.role with
  | none => simp [Principal.hasScope,givenByRole,hrole]
  | some role =>
    cases role with
    | owner => simp [Principal.hasScope,givenByRole,hrole,h]
    | admin =>
      simp only [Principal.hasScope,hrole,hdelete]
      simp [givenByRole,h]
    | member => simp [Principal.hasScope,givenByRole,hrole]

theorem hasScope_of_member {p : Principal} {scope : Scope} (h : scope ∈ OrgRole.member.scopes) :
    p.hasScope scope = true := by
  have hrole : scope ∈ (p.role.getD .member).scopes := member_scopes_subset _ h
  simp [Principal.hasScope,hrole]

/-- A principal without a role has its own scopes and those of a `MEMBER`. -/
theorem hasScope_key {orgId : OrgId} {scopes : List Scope} {scope : Scope} :
    (principalFromApiKeyRecord orgId scopes).hasScope scope = true ↔
      scope ∈ scopes ∨ scope ∈ OrgRole.member.scopes := by
  unfold Principal.hasScope principalFromApiKeyRecord
  simp only [Option.getD_none,reduceCtorEq,decide_false,Bool.or_false,Bool.false_and,Bool.or_eq_true,
    decide_eq_true_eq]

/-- Both functions agree on every scope there is. -/
def Coherent (p : Principal) : Prop :=
  ∀ scope ∈ allApiKeyScopes, p.hasScope scope = true ↔ scope ∈ effectiveScopes p

def coherentWhen (p : Principal) : Prop :=
  if p.scopes = [] then p.role = some .owner ∨ p.role = some .member else givenByRole p.role ⊆ p.scopes

theorem coherent_iff (p : Principal) : Coherent p ↔ coherentWhen p := by
  unfold Coherent coherentWhen effectiveScopes
  by_cases hscopes : p.scopes = []
  · rw [if_pos hscopes]
    constructor
    · intro h
      cases hrole : p.role with
      | none =>
        have hread := (h "sessions:read" (by decide)).mp (hasScope_of_member (by decide))
        simp [hscopes,hrole] at hread
      | some role =>
        cases role with
        | owner => exact .inl rfl
        | member => exact .inr rfl
        | admin =>
          have hwrite := (h "orgs:write" (by decide)).mp ((hasScope_iff (by decide)).mpr (by
            rw [hrole]
            exact .inr (by decide)))
          simp [hscopes,hrole,OrgRole.scopes] at hwrite
    · rintro (hrole | hrole) scope hs
      · rw [hasScope_iff hs,hrole,hscopes]
        exact ⟨fun _ => all_subset_owner hs,fun _ => .inr hs⟩
      · rw [hasScope_iff hs,hrole,hscopes]
        simp [givenByRole]
  · rw [if_neg hscopes,if_pos hscopes]
    constructor
    · intro h scope hs
      have hall : scope ∈ allApiKeyScopes := by
        revert hs
        cases p.role with
        | none => exact fun hs => scopes_subset_all .member hs
        | some role =>
          cases role with
          | member => exact fun hs => scopes_subset_all .member hs
          | _ => exact id
      exact (h scope hall).mp ((hasScope_iff hall).mpr (.inr hs))
    · intro hgiven scope hs
      rw [hasScope_iff hs]
      exact ⟨fun h => h.elim id fun h => hgiven h,.inl⟩

/-- A key's principal has exactly what is stored with the key. -/
def LeastPrivilege (key : ApiKey) : Prop :=
  ∀ scope, (principalFromApiKeyRecord key.orgId key.scopes).hasScope scope = true ↔ scope ∈ key.scopes

theorem leastPrivilege_iff (key : ApiKey) : LeastPrivilege key ↔ OrgRole.member.scopes ⊆ key.scopes := by
  unfold LeastPrivilege
  constructor
  · exact fun h scope hs => (h scope).mp (hasScope_of_member hs)
  · intro h scope
    rw [hasScope_key]
    exact ⟨fun hs => hs.elim id fun hs => h hs,.inl⟩

/-- A resolved principal is that of a key in the tables. -/
theorem resolvePrincipalFromApiKey_ok {env : Environment} {settings : Settings} {store : Store} {now : Int}
    {rawKey : String} {p : Principal} (h : resolvePrincipalFromApiKey env settings store now rawKey = .ok p) :
    ∃ key ∈ store.apiKeys, key.keyHash = env.hashApiKey rawKey ∧ key.revoked = false ∧
      p = principalFromApiKeyRecord key.orgId key.scopes := by
  unfold resolvePrincipalFromApiKey at h
  split at h
  · cases h
  · split at h
    · cases h
    · next key hkey =>
      have hfound := List.find?_some hkey
      simp only [Bool.and_eq_true,decide_eq_true_eq,Bool.not_eq_true'] at hfound
      split at h
      · cases h
      · cases h
        exact ⟨key,List.mem_of_find?_eq_some hkey,hfound.2,hfound.1.2,rfl⟩

/-- Keys created one with another, the first by a given principal. -/
inductive Chain (env : Environment) : Principal → List ApiKey → Prop
  | nil (p : Principal) : Chain env p []
  | cons {p : Principal} {store after : Store} {name rawKey : String} {scopes : List Scope}
      {expiresAt : Option Int} {key : ApiKey} {keys : List ApiKey}
      (hcreate : createApiKey env store name scopes p expiresAt rawKey = .ok (key,after))
      (hrest : Chain env (principalFromApiKeyRecord key.orgId key.scopes) keys) : Chain env p (key :: keys)

/-- A created key carries scopes that its creator has. -/
theorem createApiKey_scopes {env : Environment} {store after : Store} {name rawKey : String}
    {scopes : List Scope} {p : Principal} {expiresAt : Option Int} {key : ApiKey}
    (h : createApiKey env store name scopes p expiresAt rawKey = .ok (key,after)) :
    ∀ scope ∈ key.scopes, p.hasScope scope = true := by
  unfold createApiKey at h
  cases hallowed : requireOrgScope p "api_keys:write" p.orgId with
  | error e =>
    rw [hallowed] at h
    cases h
  | ok u =>
    simp only [hallowed,bind,Except.bind] at h
    split at h
    · cases h
    · split at h
      · cases h
      · next hnone =>
        split at h
        · cases h
        · cases h
          intro scope hs
          simpa using List.find?_eq_none.mp hnone scope hs

/-- What the keys of a chain may do, or are listed to do, its first principal may do. -/
theorem chain_contained {env : Environment} {p : Principal} {keys : List ApiKey} (h : Chain env p keys) :
    ∀ key ∈ keys, ∀ scope, (principalFromApiKeyRecord key.orgId key.scopes).hasScope scope = true ∨
      scope ∈ effectiveScopes (principalFromApiKeyRecord key.orgId key.scopes) → p.hasScope scope = true := by
  induction h with
  | nil p => exact fun key hkey => by cases hkey
  | @cons p store after name rawKey scopes expiresAt key keys hcreate hrest ih =>
    have hfirst (scope : Scope)
        (hs : (principalFromApiKeyRecord key.orgId key.scopes).hasScope scope = true) :
        p.hasScope scope = true :=
      (hasScope_key.mp hs).elim (createApiKey_scopes hcreate scope) hasScope_of_member
    intro key' hkey' scope hscope
    rcases List.mem_cons.mp hkey' with rfl | hmem
    · rcases hscope with hs | hs
      · exact hfirst scope hs
      · refine hfirst scope (hasScope_key.mpr (.inl ?_))
        unfold effectiveScopes at hs
        split at hs
        · exact hs
        · cases hs
    · exact hfirst scope (ih key' hmem scope hscope)

/-- One authority: the two functions agree on the principal, a key has what is stored with
it, and keys created from the principal on stay within its authority. -/
structure ScopeModel (p : Principal) (key : ApiKey) : Prop where
  coherent : Coherent p
  leastPrivilege : LeastPrivilege key
  delegation : ∀ env keys, Chain env p keys → ∀ k ∈ keys, ∀ scope,
    (principalFromApiKeyRecord k.orgId k.scopes).hasScope scope = true → p.hasScope scope = true

/-- The scope model holds exactly if the principal's list has all that its role gives (or
it has no list and is an `OWNER` or a `MEMBER`) and the key's list has the scopes of a `MEMBER`. -/
theorem scope_model_iff (p : Principal) (key : ApiKey) :
    ScopeModel p key ↔ coherentWhen p ∧ OrgRole.member.scopes ⊆ key.scopes := by
  constructor
  · exact fun h => ⟨(coherent_iff p).mp h.coherent,(leastPrivilege_iff key).mp h.leastPrivilege⟩
  · rintro ⟨hp,hkey⟩
    refine ⟨(coherent_iff p).mpr hp,(leastPrivilege_iff key).mpr hkey,?_⟩
    exact fun env keys hchain k hk scope hs => chain_contained hchain k hk scope (.inl hs)

/-- An administrator may do what its list of scopes does not say, and a key stored with no
scope at all may write sessions. -/
theorem admin_and_empty_key_incoherent :
    let admin : Principal := ⟨some 2,1,some .admin,[]⟩
    let key : ApiKey := ⟨3,1,"ci","","",[],some 2,none,false⟩
    admin.hasScope "orgs:write" = true ∧ "orgs:write" ∉ effectiveScopes admin ∧
      (principalFromApiKeyRecord key.orgId key.scopes).hasScope "sessions:write" = true ∧
      ¬ ScopeModel admin key := by
  intro admin key
  have hlisted : "orgs:write" ∉ effectiveScopes admin := by decide
  refine ⟨by decide,hlisted,by decide,fun h => hlisted ?_⟩
  exact (h.coherent "orgs:write" (by decide)).mp (by decide)

end VoxForge.Auth
