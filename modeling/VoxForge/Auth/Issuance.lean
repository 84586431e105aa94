import VoxForge.Auth.Memberships

/-! What a request of the organisation API does to the accounts and to the tokens that
have been issued. -/
namespace VoxForge.Auth
open Foundation Core Sso

section issuance
variable (env : Environment) (settings : Settings)

/-- The address under which a request looks an account up. -/
def presented (store : Store) (l : Label) : Option String :=
  match l.request with
  | .register email _ _ _ => some email
  | .login email _ => some email
  | .acceptInvite token _ _ =>
    (store.invites.find? (·.tokenHash = env.sha256 token)).map (·.email)
  | .consumeAcs request _ =>
    (parseSamlAssertion { env.saml with now := l.now } request.samlResponse).toOption.map (·.email)
  | _ => none

/-- The existing account that a refresh, an accepted invite or a SAML login signs in. -/
def signedIn (store : Store) (l : Label) : Option UserId :=
  match l.request with
  | .refresh userId _ => some userId
  | .acceptInvite .. | .consumeAcs .. => ((presented env store l).bind store.userByEmail).map (·.id)
  | _ => none

/-- What a request that succeeds does to the accounts and the issued tokens. -/
inductive Issuance (a : Store) (l : Label) (b : Store) : Prop
  | nothing (hnone : signedIn env a l = none) (hsilent : presented env a l = none)
      (husers : b.users = a.users) (hnext : b.nextUserId = a.nextUserId) (hissued : b.issued = a.issued)
  | checked {user : User} {tokens : Tokens} (hnone : signedIn env a l = none)
      (haddress : presented env a l = some user.email) (hin : user ∈ a.users)
      (hactive : user.isActive = true) (hid : tokens.userId = user.id) (husers : b.users = a.users)
      (hnext : b.nextUserId = a.nextUserId) (hissued : b.issued = a.issued ++ [tokens])
  | unchecked {tokens : Tokens} (hsome : signedIn env a l = some tokens.userId) (husers : b.users = a.users)
      (hnext : b.nextUserId = a.nextUserId) (hissued : b.issued = a.issued ++ [tokens])
  | created {user : User} {tokens : Tokens} (hnone : signedIn env a l = none)
      (haddress : presented env a l = some user.email) (hfree : a.userByEmail user.email = none)
      (hactive : user.isActive = true) (hid : user.id = a.nextUserId) (htokens : tokens.userId = user.id)
      (husers : b.users = a.users ++ [user]) (hnext : b.nextUserId = a.nextUserId + 1)
      (hissued : b.issued = a.issued ++ [tokens])

variable {env settings} {a b : Store}

theorem inviteUser_users {invite : Invite} {password fullName : String} {user : User}
    (h : inviteUser env a invite password fullName = .ok (user,b)) :
    b.issued = a.issued ∧
    ((a.userByEmail invite.email = some user ∧ b.users = a.users ∧ b.nextUserId = a.nextUserId) ∨
    (a.userByEmail invite.email = none ∧ user.email = invite.email ∧ user.isActive = true ∧
      user.id = a.nextUserId ∧ b.users = a.users ++ [user] ∧ b.nextUserId = a.nextUserId + 1)) := by
  unfold inviteUser at h
  split at h
  · next hnone =>
    cases h
    exact ⟨rfl,.inr ⟨hnone,rfl,rfl,rfl,rfl,rfl⟩⟩
  · next found hsome =>
    split_ifs at h
    cases h
    exact ⟨rfl,.inl ⟨hsome,rfl,rfl⟩⟩

theorem createInvite_kept {orgId : OrgId} {email tokenHash : String} {role : OrgRole}
    {inviter : Option UserId} {expiresAt : Int} {invite : Invite}
    (h : a.createInvite orgId email role tokenHash inviter expiresAt = .ok (invite,b)) :
    b.issued = a.issued ∧ b.users = a.users ∧ b.nextUserId = a.nextUserId := by
  unfold Store.createInvite at h
  split at h
  · split_ifs at h
    cases h
    exact ⟨rfl,rfl,rfl⟩
  · split_ifs at h
    cases h
    exact ⟨rfl,rfl,rfl⟩

theorem provision_users (store : Sso.Store) (orgId : OrgId) (assertion : SamlAssertion) :
    (store.users.find? (·.email = assertion.email) = some (store.provision orgId assertion).1 ∧
      (store.provision orgId assertion).2.users = store.users ∧
      (store.provision orgId assertion).2.nextUserId = store.nextUserId) ∨
    (store.users.find? (·.email = assertion.email) = none ∧
      (store.provision orgId assertion).1.isActive = true ∧
      (store.provision orgId assertion).1.id = store.nextUserId ∧
      (store.provision orgId assertion).2.users = store.users ++ [(store.provision orgId assertion).1] ∧
      (store.provision orgId assertion).2.nextUserId = store.nextUserId + 1) := by
  unfold Sso.Store.provision
  cases h : store.users.find? (·.email = assertion.email) with
  | some user => exact .inl ⟨rfl,rfl,rfl⟩
  | none => exact .inr ⟨rfl,rfl,rfl,rfl,rfl⟩

theorem consumeAcs_users {env : Sso.Environment} {uuid : String → Option Nat} {settings : Sso.Settings}
    {store after : Sso.Store} {request : AcsRequest} {answer : AcsAnswer}
    (h : Sso.consumeAcs env uuid settings store request = .ok (answer,after)) :
    ∃ assertion, parseSamlAssertion env request.samlResponse = .ok assertion ∧
      answer.userId = (store.provision request.orgId assertion).1.id ∧
      answer.tokens.userId = answer.userId ∧
      after.users = (store.provision request.orgId assertion).2.users ∧
      after.nextUserId = (store.provision request.orgId assertion).2.nextUserId := by
  obtain ⟨connection,hconn,h⟩ := bind_eq_ok.mp h
  obtain ⟨_,_,h⟩ := bind_eq_ok.mp h
  obtain ⟨assertion,hparse,h⟩ := bind_eq_ok.mp h
  obtain ⟨rfl,rfl⟩ := Prod.mk.inj (Except.ok.inj h)
  exact ⟨assertion,hparse,rfl,rfl,rfl,rfl⟩

theorem acceptInvite_issuance {l : Label} {token password fullName : String} {r : User × OrgId × Tokens}
    (hrequest : l.request = .acceptInvite token password fullName)
    (h : acceptInvite env a l.now token password fullName = .ok (r,b)) : Issuance env a l b := by
  obtain ⟨invite,user,t,hinvite,-,-,huser,rfl⟩ := acceptInvite_ok h
  let tokens : Tokens := { userId := user.id, orgId := invite.orgId, role := invite.role }
  obtain ⟨hissued,⟨hfound,husers,hnext⟩ | ⟨hnone,hemail,hactive,hid,husers,hnext⟩⟩ := inviteUser_users huser
  · refine .unchecked ?_ husers hnext (congrArg (· ++ [tokens]) hissued)
    simp [signedIn,presented,hrequest,hinvite,hfound,tokens]
  · refine .created ?_ ?_ (hemail ▸ hnone) hactive hid ?_ husers hnext
      (congrArg (· ++ [tokens]) hissued)
    · simp [signedIn,presented,hrequest,hinvite,hnone]
    · simp [presented,hrequest,hinvite,hemail]
    · rfl

theorem consumeAcs_issuance {l : Label} {request : AcsRequest} {secret : String} {answer : AcsAnswer}
    (hrequest : l.request = .consumeAcs request secret)
    (h : consumeAcs env settings a l.now request secret = .ok (answer,b)) : Issuance env a l b := by
  obtain ⟨after,_,hacs,rfl⟩ := consumeAcs_eq_ok h
  obtain ⟨assertion,hparse,hanswer,htokens,husers,hnext⟩ := consumeAcs_users hacs
  have haddress := (a.toStore.provision_email request.orgId assertion).1
  rcases provision_users a.toStore request.orgId assertion with
    ⟨hfound,hu,hn⟩ | ⟨hnone,hactive,hid,hu,hn⟩
  · refine .unchecked ?_ (husers.trans hu) (hnext.trans hn) (congrArg (a.issued ++ [·]) (Eq.refl answer.tokens))
    have hemail : a.userByEmail assertion.email = some (a.toStore.provision request.orgId assertion).1 := hfound
    simp [signedIn,presented,hrequest,hparse,Except.toOption,hemail,htokens,hanswer]
  · have hemail : a.userByEmail assertion.email = none := hnone
    refine .created ?_ ?_ (haddress ▸ hemail) hactive hid (htokens.trans hanswer) (husers.trans hu)
      (hnext.trans hn) rfl
    · simp [signedIn,presented,hrequest,hparse,Except.toOption,hemail]
    · simp [presented,hrequest,hparse,Except.toOption,haddress]

theorem perform_issuance {l : Label} (h : perform env settings a l = .ok b) : Issuance env a l b := by
  cases performed_of_ok h with
  | registered hrequest hfree =>
    refine .created ?_ ?_ hfree rfl rfl rfl rfl rfl rfl
    · simp only [signedIn,hrequest]
    · simp only [presented,hrequest]
  | @loggedIn email _ user _ hrequest huser hactive hid =>
    have hemail : user.email = email := by simpa using List.find?_some huser
    refine .checked ?_ ?_ (List.mem_of_find?_eq_some huser) hactive hid rfl rfl rfl
    · simp only [signedIn,hrequest]
    · simp only [presented,hrequest,hemail]
  | refreshed hrequest hid =>
    refine .unchecked ?_ rfl rfl rfl
    simp only [signedIn,hrequest,hid]
  | founded hrequest | added hrequest | connected hrequest | remapped hrequest | keyed hrequest =>
    refine .nothing ?_ ?_ rfl rfl rfl
    · simp only [signedIn,hrequest]
    · simp only [presented,hrequest]
  | invited hrequest hok =>
    obtain ⟨hissued,husers,hnext⟩ := createInvite_kept hok
    refine .nothing ?_ ?_ husers hnext hissued
    · simp only [signedIn,hrequest]
    · simp only [presented,hrequest]
  | accepted hrequest hok => exact acceptInvite_issuance hrequest hok
  | consumed hrequest hok => exact consumeAcs_issuance hrequest hok

end issuance
end VoxForge.Auth
