import VoxForge.Auth.Memberships
import Mathlib.Data.List.Pairwise

/-! The life of an invite over every sequence of calls: its token is accepted at most
once, and never again after it was replaced, was accepted or has expired. An address whose
invite has been accepted keeps its row, and with it cannot be invited again. -/
namespace VoxForge.Auth
open Foundation Core Sso

section calls
variable (env : Environment) (settings : Settings)

/-- A call, after which the tables are the new ones or, where it raises, the old ones. -/
def attempt (store : Store) (l : Label) : Store := (step env settings store l).getD store

/-- The tables after a sequence of calls. -/
def reached (ls : List Label) : Store := ls.foldl (attempt env settings) empty

def normalizedAddress (email : String) : String := strip (env.saml.lower email)

/-- The hash of the token that a call draws. -/
def drawn (l : Label) : Option String :=
  match l.request with
  | .createInvite _ _ _ rawToken => some (env.sha256 rawToken)
  | _ => none

/-- A call offers a token for acceptance. -/
def offers (l : Label) (token : String) : Prop :=
  ∃ password fullName, l.request = .acceptInvite token password fullName

/-- What a call that succeeds does to the invites. -/
inductive InviteChange (a : Store) (l : Label) (b : Store) : Prop
  | kept (hinvites : b.invites = a.invites) (hnext : a.nextId ≤ b.nextId)
      (hoffers : ∀ token, ¬offers l token) (hdrawn : drawn env l = none)
  | created {orgId : OrgId} {email rawToken : String} {role : OrgRole} {invite : Invite}
      (hrequest : l.request = .createInvite orgId email role rawToken) (hid : invite.id = a.nextId)
      (horg : invite.orgId = orgId) (hemail : invite.email = normalizedAddress env email)
      (hhash : invite.tokenHash = env.sha256 rawToken) (hpending : invite.accepted = false)
      (hnone : a.pendingInvite orgId (normalizedAddress env email) = none)
      (hfree : ∀ i ∈ a.invites, i.tokenHash ≠ env.sha256 rawToken ∧
        ¬(i.orgId = orgId ∧ i.email = normalizedAddress env email))
      (hinvites : b.invites = a.invites ++ [invite]) (hnext : b.nextId = a.nextId + 1)
  | refreshed {orgId : OrgId} {email rawToken : String} {role : OrgRole} {existing invite : Invite}
      (hrequest : l.request = .createInvite orgId email role rawToken)
      (hexisting : a.pendingInvite orgId (normalizedAddress env email) = some existing)
      (hid : invite.id = existing.id) (horg : invite.orgId = existing.orgId)
      (hemail : invite.email = existing.email) (hhash : invite.tokenHash = env.sha256 rawToken)
      (hpending : invite.accepted = false)
      (hfree : ∀ i ∈ a.invites, i.tokenHash = env.sha256 rawToken → i.id = existing.id)
      (hinvites : b.invites = a.invites.map fun i => if i.id = existing.id then invite else i)
      (hnext : b.nextId = a.nextId)
  | accepted {token password fullName : String} {invite : Invite}
      (hrequest : l.request = .acceptInvite token password fullName)
      (hinvite : a.invites.find? (·.tokenHash = env.sha256 token) = some invite)
      (hpending : invite.accepted = false) (hfresh : l.now ≤ invite.expiresAt)
      (hinvites : b.invites = a.invites.map fun i =>
        if i.id = invite.id then { i with accepted := true } else i)
      (hnext : b.nextId = a.nextId)

variable {env settings} {a b : Store} {l : Label}

theorem createInvite_change {orgId : OrgId} {email rawToken : String} {role : OrgRole}
    {inviter : Option UserId} {expiresAt : Int} {invite : Invite}
    (hrequest : l.request = .createInvite orgId email role rawToken)
    (h : a.createInvite orgId (normalizedAddress env email) role (env.sha256 rawToken) inviter expiresAt =
      .ok (invite,b)) : InviteChange env a l b := by
  unfold Store.createInvite at h
  split at h
  · next existing hexisting =>
    split_ifs at h with hhash
    cases h
    let invite : Invite := { existing with
      role
      tokenHash := env.sha256 rawToken
      invitedByUserId := inviter
      expiresAt
      accepted := false }
    have hid : invite.id = existing.id := rfl
    refine .refreshed hrequest hexisting hid rfl rfl rfl rfl ?_ rfl rfl
    intro i hi heq
    by_contra hne
    exact hhash (List.any_eq_true.mpr ⟨i,hi,by simp [heq,hne]⟩)
  · next hnone =>
    split_ifs at h with hrow
    cases h
    refine .created hrequest rfl rfl rfl rfl rfl hnone ?_ rfl rfl
    intro i hi
    have hfree := List.any_eq_false.mp (Bool.eq_false_iff.mpr hrow) i hi
    simpa [not_or] using hfree

theorem acceptInvite_invites {token password fullName : String} {r : User × OrgId × Tokens}
    (hrequest : l.request = .acceptInvite token password fullName)
    (h : acceptInvite env a l.now token password fullName = .ok (r,b)) : InviteChange env a l b := by
  obtain ⟨invite,user,t,hinvite,haccepted,hexpires,huser,rfl⟩ := acceptInvite_ok h
  have hrows : t.invites = a.invites ∧ t.nextId = a.nextId := by
    unfold inviteUser at huser
    split at huser
    · cases huser
      exact ⟨rfl,rfl⟩
    · split_ifs at huser
      cases huser
      exact ⟨rfl,rfl⟩
  refine .accepted hrequest hinvite haccepted hexpires ?_ hrows.2
  exact congrArg _ hrows.1

theorem consumeAcs_invites {request : AcsRequest} {secret : String} {answer : AcsAnswer}
    (h : consumeAcs env settings a l.now request secret = .ok (answer,b)) :
    b.invites = a.invites ∧ b.nextId = a.nextId := by
  obtain ⟨after,_,-,rfl⟩ := consumeAcs_eq_ok h
  exact ⟨rfl,rfl⟩

theorem perform_invites (h : perform env settings a l = .ok b) : InviteChange env a l b := by
  have hkept {request : Request} (hrequest : l.request = request) (hinvites : b.invites = a.invites)
      (hnext : a.nextId ≤ b.nextId) (hoffers : ∀ token password fullName, request ≠ .acceptInvite token password fullName)
      (hdrawn : ∀ orgId email role rawToken, request ≠ .createInvite orgId email role rawToken) :
      InviteChange env a l b := by
    subst hrequest
    refine .kept hinvites hnext (fun token ⟨password,fullName,heq⟩ => hoffers token password fullName heq) ?_
    unfold drawn
    split
    · next heq => exact absurd heq (hdrawn _ _ _ _)
    · rfl
  cases performed_of_ok h with
  | registered hrequest => exact hkept hrequest rfl (Nat.le_succ a.nextId) nofun nofun
  | founded hrequest => exact hkept hrequest rfl (Nat.le_succ a.nextId) nofun nofun
  | connected hrequest => exact hkept hrequest rfl (Nat.le_succ a.nextId) nofun nofun
  | keyed hrequest => exact hkept hrequest rfl (Nat.le_succ a.nextId) nofun nofun
  | loggedIn hrequest => exact hkept hrequest rfl Nat.le.refl nofun nofun
  | refreshed hrequest => exact hkept hrequest rfl Nat.le.refl nofun nofun
  | added hrequest => exact hkept hrequest rfl Nat.le.refl nofun nofun
  | remapped hrequest => exact hkept hrequest rfl Nat.le.refl nofun nofun
  | consumed hrequest hok =>
    obtain ⟨hinvites,hnext⟩ := consumeAcs_invites hok
    exact hkept hrequest hinvites (Nat.le_of_eq hnext.symm) nofun nofun
  | invited hrequest hok => exact createInvite_change hrequest hok
  | accepted hrequest hok => exact acceptInvite_invites hrequest hok

/-! What holds of the invites after every sequence of calls. -/

/-- Different rows differ in id, in token hash, and in organisation or address. -/
def Apart (i j : Invite) : Prop :=
  i.id ≠ j.id ∧ i.tokenHash ≠ j.tokenHash ∧ ¬(i.orgId = j.orgId ∧ i.email = j.email)

instance : Std.Symm Apart where
  symm _ _ h := ⟨h.1.symm,h.2.1.symm,fun heq => h.2.2 ⟨heq.1.symm,heq.2.symm⟩⟩

structure InviteTable (a : Store) (hashes : List String) : Prop where
  apart : a.invites.Pairwise Apart
  below : ∀ i ∈ a.invites, i.id < a.nextId
  drawnBefore : ∀ i ∈ a.invites, i.tokenHash ∈ hashes

theorem InviteTable.same {hashes : List String} (h : InviteTable a hashes) {i j : Invite}
    (hi : i ∈ a.invites) (hj : j ∈ a.invites) (hn : ¬Apart i j) : i = j := by
  by_contra hne
  exact hn (h.apart.forall hi hj hne)

theorem InviteTable.same_id {hashes : List String} (h : InviteTable a hashes) {i j : Invite}
    (hi : i ∈ a.invites) (hj : j ∈ a.invites) (hid : i.id = j.id) : i = j :=
  h.same hi hj fun hn => hn.1 hid

theorem InviteTable.same_hash {hashes : List String} (h : InviteTable a hashes) {i j : Invite}
    (hi : i ∈ a.invites) (hj : j ∈ a.invites) (hhash : i.tokenHash = j.tokenHash) : i = j :=
  h.same hi hj fun hn => hn.2.1 hhash

theorem pendingInvite_found {orgId : OrgId} {email : String} {existing : Invite}
    (h : a.pendingInvite orgId email = some existing) : existing ∈ a.invites ∧
      existing.orgId = orgId ∧ existing.email = email ∧ existing.accepted = false := by
  have hfound := List.find?_some h
  simp only [Bool.and_eq_true,decide_eq_true_eq,Bool.not_eq_true'] at hfound
  exact ⟨List.mem_of_find?_eq_some h,hfound.1.1,hfound.1.2,hfound.2⟩

theorem inviteTable_change {hashes : List String} (h : InviteTable a hashes) (hc : InviteChange env a l b) :
    InviteTable b ((drawn env l).toList ++ hashes) := by
  cases hc with
  | kept hinvites hnext _ hdrawn =>
    refine ⟨hinvites ▸ h.apart,fun i hi => ?_,fun i hi => ?_⟩
    · exact (h.below i (hinvites ▸ hi)).trans_le hnext
    · exact List.mem_append_right _ (h.drawnBefore i (hinvites ▸ hi))
  | @created orgId email rawToken role invite hrequest hid horg hemail hhash hpending hnone hfree hinvites hnext =>
    have hdrawn : drawn env l = some (env.sha256 rawToken) := by simp [drawn,hrequest]
    refine ⟨?_,fun i hi => ?_,fun i hi => ?_⟩
    · rw [hinvites]
      refine List.pairwise_append.mpr ⟨h.apart,List.pairwise_singleton _ _,fun i hi j hj => ?_⟩
      rw [List.mem_singleton.mp hj]
      refine ⟨?_,?_,?_⟩
      · rw [hid]
        exact Nat.ne_of_lt (h.below i hi)
      · rw [hhash]
        exact (hfree i hi).1
      · rw [horg,hemail]
        exact (hfree i hi).2
    · rw [hnext]
      rw [hinvites] at hi
      rcases List.mem_append.mp hi with hold | hnew
      · exact Nat.lt_succ_of_lt (h.below i hold)
      · rw [List.mem_singleton.mp hnew,hid]
        exact Nat.lt_succ_self _
    · rw [hdrawn]
      rw [hinvites] at hi
      rcases List.mem_append.mp hi with hold | hnew
      · exact List.mem_append_right _ (h.drawnBefore i hold)
      · rw [List.mem_singleton.mp hnew,hhash]
        exact List.mem_append_left _ (List.mem_singleton_self _)
  | @refreshed orgId email rawToken role existing invite hrequest hexisting hid horg hemail hhash hpending
      hfree hinvites hnext =>
    have hdrawn : drawn env l = some (env.sha256 rawToken) := by simp [drawn,hrequest]
    obtain ⟨hin,-,-,-⟩ := pendingInvite_found hexisting
    refine ⟨?_,fun i hi => ?_,fun i hi => ?_⟩
    · rw [hinvites,List.pairwise_map]
      refine h.apart.imp_of_mem fun {i j} hi hj hij => ?_
      have hreplaced {x : Invite} (hx : x ∈ a.invites) (hne : x.id ≠ existing.id) (hapart : Apart existing x) :
          Apart invite x := by
        refine ⟨hid ▸ hapart.1,fun heq => hne (hfree x hx (heq.symm.trans hhash)),?_⟩
        rw [horg,hemail]
        exact hapart.2.2
      split_ifs with hi' hj' hj'
      · exact absurd (hi'.trans hj'.symm) hij.1
      · obtain rfl := h.same_id hi hin hi'
        exact hreplaced hj hj' hij
      · obtain rfl := h.same_id hj hin hj'
        exact Std.Symm.symm _ _ (hreplaced hi hi' (Std.Symm.symm _ _ hij))
      · exact hij
    · rw [hnext]
      rw [hinvites] at hi
      obtain ⟨j,hj,rfl⟩ := List.mem_map.mp hi
      split_ifs with hj'
      · rw [hid]
        exact h.below existing hin
      · exact h.below j hj
    · rw [hdrawn]
      rw [hinvites] at hi
      obtain ⟨j,hj,rfl⟩ := List.mem_map.mp hi
      split_ifs with hj'
      · rw [hhash]
        exact List.mem_append_left _ (List.mem_singleton_self _)
      · exact List.mem_append_right _ (h.drawnBefore j hj)
  | @accepted token password fullName invite hrequest hinvite _ _ hinvites hnext =>
    refine ⟨?_,fun i hi => ?_,fun i hi => ?_⟩
    · rw [hinvites,List.pairwise_map]
      refine h.apart.imp fun {i j} hij => ?_
      split_ifs <;> exact hij
    · rw [hnext]
      rw [hinvites] at hi
      obtain ⟨j,hj,rfl⟩ := List.mem_map.mp hi
      split_ifs <;> exact h.below j hj
    · rw [hinvites] at hi
      obtain ⟨j,hj,rfl⟩ := List.mem_map.mp hi
      refine List.mem_append_right _ ?_
      split_ifs <;> exact h.drawnBefore j hj

theorem InviteTable.mono {hashes more : List String} (h : InviteTable a hashes) (hsub : hashes ⊆ more) :
    InviteTable a more :=
  ⟨h.apart,h.below,fun i hi => hsub (h.drawnBefore i hi)⟩

theorem attempt_cases (env : Environment) (settings : Settings) (a : Store) (l : Label) :
    (∃ b, perform env settings a l = .ok b ∧ attempt env settings a l = b) ∨
      (∃ e, perform env settings a l = .error e) ∧ attempt env settings a l = a := by
  unfold attempt step
  cases h : perform env settings a l with
  | ok b => exact .inl ⟨b,rfl,rfl⟩
  | error e => exact .inr ⟨⟨e,rfl⟩,rfl⟩

/-- What the changes of successful calls keep, every call keeps. -/
theorem attempt_invites {P : Store → Prop} (ha : P a)
    (hc : ∀ b, InviteChange env a l b → P b) : P (attempt env settings a l) := by
  rcases attempt_cases env settings a l with ⟨b,hok,hb⟩ | ⟨-,hsame⟩
  · rw [hb]
    exact hc b (perform_invites hok)
  · rw [hsame]
    exact ha

def drawnHashes (env : Environment) (ls : List Label) : List String := ls.filterMap (drawn env)

theorem reached_concat (ls : List Label) (l : Label) :
    reached env settings (ls ++ [l]) = attempt env settings (reached env settings ls) l := by
  unfold reached
  rw [List.foldl_append]
  rfl

theorem inviteTable_reached (env : Environment) (settings : Settings) (ls : List Label) :
    InviteTable (reached env settings ls) (drawnHashes env ls) := by
  induction ls using List.reverseRecOn with
  | nil => exact ⟨List.Pairwise.nil,fun _ hi => absurd hi List.not_mem_nil,fun _ hi => absurd hi List.not_mem_nil⟩
  | append_singleton ls l ih =>
    have hhashes : drawnHashes env (ls ++ [l]) = drawnHashes env ls ++ (drawn env l).toList := by
      unfold drawnHashes
      rw [List.filterMap_append]
      cases h : drawn env l <;> simp [h]
    rw [reached_concat,hhashes]
    refine attempt_invites (P := (InviteTable · _)) (ih.mono (List.subset_append_left _ _)) fun b hc => ?_
    exact (inviteTable_change ih hc).mono (List.append_subset.mpr
      ⟨List.subset_append_right _ _,List.subset_append_left _ _⟩)

/-- An accepted invite has this token. -/
def Spent (a : Store) (hash : String) : Prop := ∃ i ∈ a.invites, i.tokenHash = hash ∧ i.accepted = true

/-- No invite has this token. -/
def Absent (a : Store) (hash : String) : Prop := ∀ i ∈ a.invites, i.tokenHash ≠ hash

theorem spent_change {hashes : List String} {hash : String} (h : InviteTable a hashes) (hs : Spent a hash)
    (hc : InviteChange env a l b) : Spent b hash := by
  obtain ⟨i,hi,hhash,haccepted⟩ := hs
  cases hc with
  | kept hinvites _ _ _ => exact ⟨i,hinvites ▸ hi,hhash,haccepted⟩
  | created _ _ _ _ _ _ _ _ hinvites _ =>
    exact ⟨i,hinvites ▸ List.mem_append_left _ hi,hhash,haccepted⟩
  | refreshed _ hexisting _ _ _ _ _ _ hinvites _ =>
    obtain ⟨hin,-,-,hpending⟩ := pendingInvite_found hexisting
    refine ⟨i,hinvites ▸ List.mem_map.mpr ⟨i,hi,if_neg fun hid => ?_⟩,hhash,haccepted⟩
    rw [h.same_id hi hin hid,hpending] at haccepted
    cases haccepted
  | accepted _ _ _ _ hinvites _ =>
    refine ⟨_,hinvites ▸ List.mem_map_of_mem hi,?_⟩
    split_ifs
    · exact ⟨hhash,rfl⟩
    · exact ⟨hhash,haccepted⟩

theorem absent_change {hash : String} (hs : Absent a hash) (hd : drawn env l ≠ some hash)
    (hc : InviteChange env a l b) : Absent b hash := by
  intro i hi
  cases hc with
  | kept hinvites _ _ _ => exact hs i (hinvites ▸ hi)
  | @created orgId email rawToken role invite hrequest _ _ _ hhash _ _ _ hinvites _ =>
    rw [hinvites] at hi
    rcases List.mem_append.mp hi with hold | hnew
    · exact hs i hold
    · rw [List.mem_singleton.mp hnew,hhash]
      exact fun heq => hd (by simp [drawn,hrequest,heq])
  | @refreshed orgId email rawToken role existing invite hrequest _ _ _ _ hhash _ _ hinvites _ =>
    rw [hinvites] at hi
    obtain ⟨j,hj,rfl⟩ := List.mem_map.mp hi
    split_ifs
    · rw [hhash]
      exact fun heq => hd (by simp [drawn,hrequest,heq])
    · exact hs j hj
  | accepted _ _ _ _ hinvites _ =>
    rw [hinvites] at hi
    obtain ⟨j,hj,rfl⟩ := List.mem_map.mp hi
    split_ifs <;> exact hs j hj

/-- A token that is spent or absent is refused. -/
theorem not_accepted {hashes : List String} {token : String} (h : InviteTable a hashes)
    (hs : Spent a (env.sha256 token) ∨ Absent a (env.sha256 token)) (ho : offers l token) :
    ¬∃ b, perform env settings a l = .ok b := by
  rintro ⟨b,hok⟩
  obtain ⟨password,fullName,hrequest⟩ := ho
  cases perform_invites hok with
  | kept _ _ hoffers _ => exact hoffers token ⟨password,fullName,hrequest⟩
  | created hother => rw [hrequest] at hother; cases hother
  | refreshed hother => rw [hrequest] at hother; cases hother
  | @accepted _ _ _ invite hother hinvite hpending =>
    rw [hrequest] at hother
    cases hother
    have hin := List.mem_of_find?_eq_some hinvite
    have hhash : invite.tokenHash = env.sha256 token := by simpa using List.find?_some hinvite
    rcases hs with ⟨i,hi,hihash,haccepted⟩ | habsent
    · rw [h.same_hash hi hin (hihash.trans hhash.symm),hpending] at haccepted
      cases haccepted
    · exact habsent _ hin hhash

theorem spent_reached {past : List Label} {hash : String} (h : Spent (reached env settings past) hash)
    (mid : List Label) : Spent (reached env settings (past ++ mid)) hash := by
  induction mid using List.reverseRecOn with
  | nil => rwa [List.append_nil]
  | append_singleton mid m ih =>
    rw [← List.append_assoc,reached_concat]
    exact attempt_invites (P := (Spent · hash)) ih fun b hc =>
      spent_change (inviteTable_reached env settings (past ++ mid)) ih hc

theorem absent_reached {past : List Label} {hash : String} (h : Absent (reached env settings past) hash)
    (mid : List Label) (hmid : hash ∉ drawnHashes env mid) :
    Absent (reached env settings (past ++ mid)) hash := by
  induction mid using List.reverseRecOn with
  | nil => rwa [List.append_nil]
  | append_singleton mid m ih =>
    unfold drawnHashes at hmid
    rw [List.filterMap_append,List.mem_append,not_or] at hmid
    rw [← List.append_assoc,reached_concat]
    refine attempt_invites (P := (Absent · hash)) (ih hmid.1) fun b hc =>
      absent_change (ih hmid.1) (fun heq => hmid.2 ?_) hc
    exact List.mem_filterMap.mpr ⟨m,List.mem_singleton_self m,heq⟩

variable (env settings)

/-- The call after a sequence of calls returns. -/
def Succeeds (past : List Label) (l : Label) : Prop :=
  ∃ b, perform env settings (reached env settings past) l = .ok b

/-- The life of the invites in a sequence of calls, as it should be. -/
structure Lifecycle (ls : List Label) : Prop where
  acceptedOnce : ∀ past l mid m rest token, ls = past ++ l :: (mid ++ m :: rest) → offers l token →
    offers m token → Succeeds env settings past l → ¬Succeeds env settings (past ++ l :: mid) m
  replaced : ∀ past l mid m rest orgId email role rawToken old token,
    ls = past ++ l :: (mid ++ m :: rest) → l.request = .createInvite orgId email role rawToken →
    (reached env settings past).pendingInvite orgId (normalizedAddress env email) = some old →
    Succeeds env settings past l → offers m token → env.sha256 token = old.tokenHash →
    ¬Succeeds env settings (past ++ l :: mid) m
  settled : ∀ past l rest token invite, ls = past ++ l :: rest → offers l token →
    (reached env settings past).invites.find? (·.tokenHash = env.sha256 token) = some invite →
    invite.accepted = true ∨ invite.expiresAt < l.now →
    (reached env settings (past ++ [l])).members = (reached env settings past).members
  reinvitable : ∀ past l rest orgId email role rawToken, ls = past ++ l :: rest →
    l.request = .createInvite orgId email role rawToken →
    perform env settings (reached env settings past) l ≠ .error .integrity

/-- An authorised actor invites an address whose invite in the organisation was accepted. -/
def ReinvitesAccepted (a : Store) (l : Label) : Prop :=
  ∃ orgId email role rawToken actor, l.request = .createInvite orgId email role rawToken ∧
    a.orgs.any (·.id = orgId) = true ∧ currentPrincipal env settings a l.now l.credential = .ok actor ∧
    requireOrgScope actor "orgs:manage_members" orgId = .ok () ∧
    ¬(normalizedAddress env email = "" ∨ '@' ∉ (normalizedAddress env email).toList) ∧
    ∃ i ∈ a.invites, i.orgId = orgId ∧ i.email = normalizedAddress env email ∧ i.accepted = true

variable {env settings}

theorem resolvePrincipalFromApiKey_error {now : Int} {rawKey : String} {e : AuthError}
    (h : resolvePrincipalFromApiKey env settings a now rawKey = .error e) :
    ∃ message, e = .unauthorized message := by
  unfold resolvePrincipalFromApiKey at h
  split_ifs at h
  · cases h
    exact ⟨_,rfl⟩
  · split at h
    · cases h
      exact ⟨_,rfl⟩
    · split_ifs at h
      cases h
      exact ⟨_,rfl⟩

theorem currentPrincipal_error {now : Int} {credential : Credential} :
    currentPrincipal env settings a now credential ≠ .error .integrity := by
  intro h
  unfold currentPrincipal at h
  split_ifs at h
  · cases h
  · cases credential with
    | bearer tokens =>
      dsimp only at h
      split_ifs at h
      cases h
    | anonymous => cases h
    | apiKey rawKey =>
      dsimp only at h
      cases hr : resolvePrincipalFromApiKey env settings a now rawKey with
      | ok principal => rw [hr] at h; cases h
      | error e =>
        obtain ⟨message,rfl⟩ := resolvePrincipalFromApiKey_error hr
        rw [hr] at h
        cases h

theorem requireOrgScope_error {actor : Principal} {scope : Scope} {orgId : OrgId} :
    requireOrgScope actor scope orgId ≠ .error .integrity := by
  unfold requireOrgScope requireScope
  split_ifs <;> simp

/-- An invite with a fresh token breaks a constraint exactly if the address has an
accepted invite and no pending one. -/
theorem createInvite_integrity_iff {hashes : List String} {orgId : OrgId} {email tokenHash : String}
    {role : OrgRole} {inviter : Option UserId} {expiresAt : Int} (h : InviteTable a hashes)
    (hfresh : tokenHash ∉ hashes) :
    a.createInvite orgId email role tokenHash inviter expiresAt = .error .integrity ↔
      ∃ i ∈ a.invites, i.orgId = orgId ∧ i.email = email ∧ i.accepted = true := by
  have hhash : ∀ i ∈ a.invites, i.tokenHash ≠ tokenHash := fun i hi heq => hfresh (heq ▸ h.drawnBefore i hi)
  unfold Store.createInvite
  split
  · next existing hexisting =>
    obtain ⟨hin,horg,hemail,hpending⟩ := pendingInvite_found hexisting
    rw [if_neg]
    · refine iff_of_false nofun ?_
      rintro ⟨i,hi,hiorg,hiemail,haccepted⟩
      have hsame := h.same hi hin fun hn => hn.2.2 ⟨hiorg.trans horg.symm,hiemail.trans hemail.symm⟩
      rw [hsame,hpending] at haccepted
      cases haccepted
    · rw [List.any_eq_true]
      rintro ⟨i,hi,hbad⟩
      simp only [Bool.and_eq_true,decide_eq_true_eq] at hbad
      exact hhash i hi hbad.1
  · next hnone =>
    have hrow : (a.invites.any fun i => i.tokenHash = tokenHash || (i.orgId = orgId && i.email = email)) = true ↔
        ∃ i ∈ a.invites, i.orgId = orgId ∧ i.email = email ∧ i.accepted = true := by
      rw [List.any_eq_true]
      constructor
      · rintro ⟨i,hi,hbad⟩
        simp only [Bool.or_eq_true,Bool.and_eq_true,decide_eq_true_eq] at hbad
        obtain ⟨horg,hemail⟩ := hbad.resolve_left (hhash i hi)
        have hout := List.find?_eq_none.mp hnone i hi
        simp only [horg,hemail,decide_true,Bool.true_and,Bool.not_eq_true',Bool.not_eq_false] at hout
        exact ⟨i,hi,horg,hemail,hout⟩
      · rintro ⟨i,hi,horg,hemail,-⟩
        exact ⟨i,hi,by simp [horg,hemail]⟩
    rw [← hrow]
    split_ifs with hbad
    · exact iff_of_true rfl hbad
    · exact iff_of_false nofun hbad

/-- The same for the service, behind its checks. -/
theorem service_integrity_iff {hashes : List String} {now : Int} {orgId : OrgId} {email rawToken : String}
    {role : OrgRole} {actor : Principal} (h : InviteTable a hashes) (hfresh : env.sha256 rawToken ∉ hashes) :
    createInvite env settings a now orgId email role actor rawToken = .error .integrity ↔
      a.orgs.any (·.id = orgId) = true ∧ requireOrgScope actor "orgs:manage_members" orgId = .ok () ∧
      ¬(normalizedAddress env email = "" ∨ '@' ∉ (normalizedAddress env email).toList) ∧
      ∃ i ∈ a.invites, i.orgId = orgId ∧ i.email = normalizedAddress env email ∧ i.accepted = true := by
  unfold createInvite
  by_cases horg : a.orgs.any (·.id = orgId) = true
  · rw [if_neg (by simp [horg])]
    cases hscope : requireOrgScope actor "orgs:manage_members" orgId with
    | error e =>
      refine iff_of_false (fun heq => ?_) fun hall => by cases hall.2.1
      have he : e = .integrity := Except.error.inj heq
      exact requireOrgScope_error (he ▸ hscope)
    | ok _ =>
      have hnormalized : strip (env.saml.lower email) = normalizedAddress env email := rfl
      dsimp only [bind,Except.bind]
      rw [hnormalized]
      by_cases haddress : normalizedAddress env email = "" ∨ '@' ∉ (normalizedAddress env email).toList
      · rw [if_pos haddress]
        exact iff_of_false nofun fun hall => hall.2.2.1 haddress
      · have hrow : a.createInvite orgId (normalizedAddress env email) role (env.sha256 rawToken) actor.userId
            (now + settings.inviteTtlHours * 3600000000) = .error .integrity ↔
            ∃ i ∈ a.invites, i.orgId = orgId ∧ i.email = normalizedAddress env email ∧ i.accepted = true :=
          createInvite_integrity_iff h hfresh
        rw [if_neg haddress]
        exact hrow.trans ⟨fun hrow => ⟨horg,rfl,haddress,hrow⟩,fun hall => hall.2.2.2⟩
  · rw [if_pos (by simpa using horg)]
    exact iff_of_false nofun fun hall => horg hall.1

theorem map_eq_error {α β : Type} {x : Except AuthError α} {f : α → β} {e : AuthError} :
    x.map f = .error e ↔ x = .error e := by
  cases x <;> simp [Except.map]

theorem perform_integrity_iff {hashes : List String} {orgId : OrgId} {email rawToken : String}
    {role : OrgRole} (hrequest : l.request = .createInvite orgId email role rawToken)
    (h : InviteTable a hashes) (hfresh : env.sha256 rawToken ∉ hashes) :
    perform env settings a l = .error .integrity ↔ ReinvitesAccepted env settings a l := by
  obtain ⟨credential,now,request⟩ := l
  obtain rfl := hrequest
  cases hactor : currentPrincipal env settings a now credential with
  | error e =>
    have hperform : perform env settings a ⟨credential,now,.createInvite orgId email role rawToken⟩ = .error e := by
      unfold perform
      simp only [hactor]
      rfl
    rw [hperform]
    refine iff_of_false (fun heq => ?_) ?_
    · rw [Except.error.inj heq] at hactor
      exact currentPrincipal_error hactor
    · rintro ⟨_,_,_,_,actor,-,-,hok,-⟩
      rw [hactor] at hok
      cases hok
  | ok actor =>
    have hperform : perform env settings a ⟨credential,now,.createInvite orgId email role rawToken⟩ =
        (createInvite env settings a now orgId email role actor rawToken).map Prod.snd := by
      unfold perform
      simp only [hactor]
      rfl
    rw [hperform,map_eq_error,service_integrity_iff h hfresh]
    constructor
    · rintro ⟨horg,hscope,haddress,hrow⟩
      exact ⟨orgId,email,role,rawToken,actor,rfl,horg,hactor,hscope,haddress,hrow⟩
    · rintro ⟨_,_,_,_,other,hrequest,horg,hother,hscope,haddress,hrow⟩
      cases hrequest
      rw [hactor] at hother
      cases hother
      exact ⟨horg,hscope,haddress,hrow⟩

theorem reached_append_cons (past mid : List Label) (l : Label) :
    past ++ l :: mid = (past ++ [l]) ++ mid := by
  rw [List.append_assoc,List.singleton_append]

/-- Once a token was accepted it is spent. -/
theorem spent_of_accepted {past : List Label} {token : String} (ho : offers l token)
    (hs : Succeeds env settings past l) : Spent (reached env settings (past ++ [l])) (env.sha256 token) := by
  obtain ⟨b,hok⟩ := hs
  obtain ⟨password,fullName,hrequest⟩ := ho
  have hb : reached env settings (past ++ [l]) = b := by
    rw [reached_concat]
    unfold attempt step
    rw [hok]
    rfl
  rw [hb]
  cases perform_invites hok with
  | kept _ _ hoffers _ => exact absurd ⟨password,fullName,hrequest⟩ (hoffers token)
  | created hother => rw [hrequest] at hother; cases hother
  | refreshed hother => rw [hrequest] at hother; cases hother
  | @accepted _ _ _ invite hother hinvite _ _ hinvites =>
    rw [hrequest] at hother
    cases hother
    have hhash : invite.tokenHash = env.sha256 token := by simpa using List.find?_some hinvite
    refine ⟨{ invite with accepted := true },?_,hhash,rfl⟩
    rw [hinvites]
    exact List.mem_map.mpr ⟨invite,List.mem_of_find?_eq_some hinvite,if_pos rfl⟩

theorem absent_of_replaced {past : List Label} {orgId : OrgId} {email rawToken : String} {role : OrgRole}
    {old : Invite} (hrequest : l.request = .createInvite orgId email role rawToken)
    (hold : (reached env settings past).pendingInvite orgId (normalizedAddress env email) = some old)
    (hfresh : env.sha256 rawToken ∉ drawnHashes env past) (hs : Succeeds env settings past l) :
    Absent (reached env settings (past ++ [l])) old.tokenHash := by
  obtain ⟨b,hok⟩ := hs
  have htable := inviteTable_reached env settings past
  obtain ⟨hin,-,-,-⟩ := pendingInvite_found hold
  have hb : reached env settings (past ++ [l]) = b := by
    rw [reached_concat]
    unfold attempt step
    rw [hok]
    rfl
  rw [hb]
  cases perform_invites hok with
  | kept _ _ _ hdrawn => simp [drawn,hrequest] at hdrawn
  | created hother _ _ _ _ _ hnone =>
    rw [hrequest] at hother
    cases hother
    rw [hold] at hnone
    cases hnone
  | accepted hother => rw [hrequest] at hother; cases hother
  | refreshed hother hexisting _ _ _ hhash _ _ hinvites =>
    rw [hrequest] at hother
    cases hother
    obtain rfl := Option.some.inj (hold.symm.trans hexisting)
    intro i hi heq
    rw [hinvites] at hi
    obtain ⟨j,hj,rfl⟩ := List.mem_map.mp hi
    split_ifs at heq with hid
    · exact hfresh ((heq.symm.trans hhash) ▸ htable.drawnBefore old hin)
    · exact hid (congrArg Invite.id (htable.same_hash hj hin heq))

theorem reached_settled {past : List Label} {token : String} {invite : Invite} (ho : offers l token)
    (hinvite : (reached env settings past).invites.find? (·.tokenHash = env.sha256 token) = some invite)
    (hover : invite.accepted = true ∨ invite.expiresAt < l.now) :
    reached env settings (past ++ [l]) = reached env settings past := by
  rw [reached_concat]
  rcases attempt_cases env settings (reached env settings past) l with ⟨b,hok,-⟩ | ⟨-,hsame⟩
  · obtain ⟨password,fullName,hrequest⟩ := ho
    cases perform_invites hok with
    | kept _ _ hoffers _ => exact absurd ⟨password,fullName,hrequest⟩ (hoffers token)
    | created hother => rw [hrequest] at hother; cases hother
    | refreshed hother => rw [hrequest] at hother; cases hother
    | accepted hother hfound hpending hfresh =>
      rw [hrequest] at hother
      cases hother
      obtain rfl := Option.some.inj (hinvite.symm.trans hfound)
      rcases hover with haccepted | hexpired
      · rw [hpending] at haccepted
        cases haccepted
      · exact absurd hexpired (Int.not_lt.mpr hfresh)
  · exact hsame

/-- With distinct hashes of the drawn tokens, the life of the invites in a sequence of
calls is as it should be exactly if no call of it invites an address whose invite in the
organisation has been accepted. -/
theorem invite_lifecycle_iff (env : Environment) (settings : Settings) (ls : List Label)
    (hdrawn : (drawnHashes env ls).Nodup) :
    Lifecycle env settings ls ↔ ∀ past l rest, ls = past ++ l :: rest →
      ¬ReinvitesAccepted env settings (reached env settings past) l := by
  have hsplit (past : List Label) (l : Label) (rest : List Label) (hls : ls = past ++ l :: rest)
      (hash : String) (hd : drawn env l = some hash) :
      hash ∉ drawnHashes env past ∧ ∀ other ∈ drawnHashes env past, other ∉ drawnHashes env rest := by
    have hhashes : drawnHashes env ls = drawnHashes env past ++ hash :: drawnHashes env rest := by
      unfold drawnHashes
      rw [hls,List.filterMap_append,List.filterMap_cons,hd]
    rw [hhashes] at hdrawn
    have hapart := (List.nodup_append.mp hdrawn).2.2
    exact ⟨fun hin => hapart hash hin hash List.mem_cons_self rfl,
      fun other hin hrest => hapart other hin other (List.mem_cons_of_mem _ hrest) rfl⟩
  constructor
  · rintro h past l rest hls ⟨orgId,email,role,rawToken,actor,hrequest,hall⟩
    have hfresh := (hsplit past l rest hls (env.sha256 rawToken) (by simp [drawn,hrequest])).1
    refine h.reinvitable past l rest orgId email role rawToken hls hrequest ?_
    rw [perform_integrity_iff hrequest (inviteTable_reached env settings past) hfresh]
    exact ⟨orgId,email,role,rawToken,actor,hrequest,hall⟩
  · intro h
    refine ⟨?_,?_,?_,?_⟩
    · intro past l mid m rest token hls hl hm hs
      refine not_accepted (inviteTable_reached env settings (past ++ l :: mid)) (.inl ?_) hm
      rw [reached_append_cons]
      exact spent_reached (spent_of_accepted hl hs) mid
    · intro past l mid m rest orgId email role rawToken old token hls hrequest hold hs hm hhash
      have hd : drawn env l = some (env.sha256 rawToken) := by simp [drawn,hrequest]
      obtain ⟨hfresh,hlater⟩ := hsplit past l (mid ++ m :: rest) hls _ hd
      refine not_accepted (inviteTable_reached env settings (past ++ l :: mid)) (.inr ?_) hm
      rw [reached_append_cons,hhash]
      refine absent_reached (absent_of_replaced hrequest hold hfresh hs) mid fun hin => ?_
      refine hlater old.tokenHash
        ((inviteTable_reached env settings past).drawnBefore old (pendingInvite_found hold).1) ?_
      unfold drawnHashes
      rw [List.filterMap_append]
      exact List.mem_append_left _ hin
    · intro past l rest token invite hls hl hinvite hover
      rw [reached_settled hl hinvite hover]
    · intro past l rest orgId email role rawToken hls hrequest hbad
      have hfresh := (hsplit past l rest hls (env.sha256 rawToken) (by simp [drawn,hrequest])).1
      rw [perform_integrity_iff hrequest (inviteTable_reached env settings past) hfresh] at hbad
      exact h past l rest hls hbad

end calls

/-- Bob is invited twice and accepts the second invite. -/
def invitedTwice : List Label :=
  [{ request := .register "ada@example.com" "secret" "Ada" "acme" },
    { credential := .bearer ⟨1,1,.owner⟩, request := .createInvite 1 "bob@example.com" .member "first" },
    { credential := .bearer ⟨1,1,.owner⟩, request := .createInvite 1 "bob@example.com" .admin "second" },
    { request := .acceptInvite "second" "secret" "Bob" }]

theorem invited_twice_lifecycle : Lifecycle plainEnvironment {} invitedTwice := by
  refine (invite_lifecycle_iff plainEnvironment {} invitedTwice (by decide)).mpr ?_
  intro past l rest h hbad
  obtain ⟨orgId,email,role,rawToken,actor,hrequest,-,-,-,-,i,hi,-,-,haccepted⟩ := hbad
  have hnone (n : Nat) (hn : (reached plainEnvironment {} (invitedTwice.take n)).invites.all (!·.accepted) = true)
      (hpast : past = invitedTwice.take n) : False := by
    rw [hpast] at hi
    have hpending := List.all_eq_true.mp hn i hi
    rw [haccepted] at hpending
    cases hpending
  rcases past with _ | ⟨first,_ | ⟨second,_ | ⟨third,past⟩⟩⟩
  · exact hnone 0 (by decide +kernel) rfl
  · cases h
    exact hnone 1 (by decide +kernel) rfl
  · cases h
    exact hnone 2 (by decide +kernel) rfl
  · cases past with
    | nil => cases h; cases hrequest
    | cons fourth past => simp [invitedTwice] at h

/-- Bob is invited, accepts, and is invited again by the same owner. -/
def reinvitedRun : List Label :=
  [{ request := .register "ada@example.com" "secret" "Ada" "acme" },
    { credential := .bearer ⟨1,1,.owner⟩, request := .createInvite 1 "bob@example.com" .member "first" },
    { request := .acceptInvite "first" "secret" "Bob" },
    { credential := .bearer ⟨1,1,.owner⟩, request := .createInvite 1 "bob@example.com" .admin "second" }]

theorem accepted_address_not_reinvited :
    ¬∀ env settings ls, (drawnHashes env ls).Nodup → Lifecycle env settings ls := by
  intro h
  have hlife := h plainEnvironment {} reinvitedRun (by decide)
  exact hlife.reinvitable (reinvitedRun.take 3) _ [] 1 "bob@example.com" .admin "second" rfl rfl
    (by decide +kernel)

end VoxForge.Auth
