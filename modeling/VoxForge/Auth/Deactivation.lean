import VoxForge.Auth.Issuance
import Mathlib.Data.List.Nodup

/-! Deactivated accounts. Only a login reads the flag; the flows that sign an existing
account in without it decide whether a deactivated user gets tokens. -/
namespace VoxForge.Auth
open Foundation Core Sso

/-- A request to the API, or the deactivation of an account. -/
inductive Event where
  | request (l : Label)
  | deactivate (userId : UserId)

def Store.deactivate (store : Store) (userId : UserId) : Store :=
  { store with users := store.users.map fun user =>
      if user.id = userId then { user with isActive := false } else user }

/-- No account with this id is deactivated. -/
def Active (store : Store) (userId : UserId) : Prop :=
  ∀ user ∈ store.users, user.id = userId → user.isActive = true

/-- Account ids are distinct and below the next one. -/
structure Numbered (store : Store) : Prop where
  distinct : (store.users.map (·.id)).Nodup
  below : ∀ user ∈ store.users, user.id < store.nextUserId

section events
variable (env : Environment) (settings : Settings)

def eventStep (store : Store) : Event → Option Store
  | .request l => step env settings store l
  | .deactivate userId => some (store.deactivate userId)

/-- The tokens that a step issues belong to accounts that are active then. -/
def IssuesToActive (a b : Store) : Prop :=
  ∀ tokens ∈ b.issued.drop a.issued.length, Active b tokens.userId

/-- The account that a request signs in without a look at the flag is active. -/
def SignsInActive (a : Store) : Event → Prop
  | .request l => ∀ userId, signedIn env a l = some userId → Active a userId
  | .deactivate _ => True

variable {env settings} {a b : Store}

theorem Numbered.unique (h : Numbered a) {u v : User} (hu : u ∈ a.users) (hv : v ∈ a.users)
    (hid : u.id = v.id) : u = v :=
  List.inj_on_of_nodup_map h.distinct hu hv hid

theorem numbered_users (h : Numbered a) (husers : b.users = a.users)
    (hnext : b.nextUserId = a.nextUserId) : Numbered b where
  distinct := husers ▸ h.distinct
  below user hu := hnext ▸ h.below user (husers ▸ hu)

theorem numbered_created (h : Numbered a) {user : User} (hid : user.id = a.nextUserId)
    (husers : b.users = a.users ++ [user]) (hnext : b.nextUserId = a.nextUserId + 1) : Numbered b where
  distinct := by
    rw [husers,List.map_append,List.map_singleton]
    refine List.nodup_append.mpr ⟨h.distinct,List.nodup_singleton _,?_⟩
    intro x hx y hy
    obtain ⟨u,hu,rfl⟩ := List.mem_map.mp hx
    rw [List.mem_singleton.mp hy,hid]
    exact Nat.ne_of_lt (h.below u hu)
  below u hu := by
    rw [husers] at hu
    rw [hnext]
    rcases List.mem_append.mp hu with hold | hnew
    · exact Nat.lt_succ_of_lt (h.below u hold)
    · rw [List.mem_singleton.mp hnew,hid]
      exact Nat.lt_succ_self _

theorem numbered_deactivate (h : Numbered a) (userId : UserId) : Numbered (a.deactivate userId) where
  distinct := by
    have hids : (a.deactivate userId).users.map (·.id) = a.users.map (·.id) := by
      unfold Store.deactivate
      rw [List.map_map]
      refine List.map_congr_left fun user _ => ?_
      dsimp only [Function.comp]
      split_ifs <;> rfl
    rw [hids]
    exact h.distinct
  below user hu := by
    obtain ⟨old,hold,rfl⟩ := List.mem_map.mp hu
    have hlt := h.below old hold
    split_ifs <;> exact hlt

theorem numbered_step {e : Event} (h : Numbered a) (hs : eventStep env settings a e = some b) :
    Numbered b := by
  cases e with
  | deactivate userId =>
    cases hs
    exact numbered_deactivate h userId
  | request l =>
    cases perform_issuance (toOption_eq_some.mp hs) with
    | nothing _ _ husers hnext _ => exact numbered_users h husers hnext
    | checked _ _ _ _ _ husers hnext _ => exact numbered_users h husers hnext
    | unchecked _ husers hnext _ => exact numbered_users h husers hnext
    | created _ _ _ _ hid _ husers hnext _ => exact numbered_created h hid husers hnext

theorem active_congr {userId : UserId} (husers : b.users = a.users) : Active b userId ↔ Active a userId := by
  unfold Active
  rw [husers]

theorem issuesToActive_nothing (hissued : b.issued = a.issued) : IssuesToActive a b := by
  intro tokens ht
  rw [hissued,List.drop_length] at ht
  exact absurd ht List.not_mem_nil

theorem issuesToActive_iff {tokens : Tokens} (hissued : b.issued = a.issued ++ [tokens]) :
    IssuesToActive a b ↔ Active b tokens.userId := by
  unfold IssuesToActive
  rw [hissued,List.drop_left]
  simp

/-- Whether a step issues to an active account is decided by the unchecked sign-ins. -/
theorem issuesToActive_step_iff {e : Event} (h : Numbered a) (hs : eventStep env settings a e = some b) :
    IssuesToActive a b ↔ SignsInActive env a e := by
  cases e with
  | deactivate userId =>
    cases hs
    exact iff_of_true (issuesToActive_nothing rfl) trivial
  | request l =>
    have hfree (hnone : signedIn env a l = none) : SignsInActive env a (.request l) := by
      intro userId hsome
      rw [hnone] at hsome
      cases hsome
    cases perform_issuance (toOption_eq_some.mp hs) with
    | nothing hnone _ _ _ hissued => exact iff_of_true (issuesToActive_nothing hissued) (hfree hnone)
    | @checked user tokens hnone _ hin hactive hid husers _ hissued =>
      refine iff_of_true ((issuesToActive_iff hissued).mpr ?_) (hfree hnone)
      intro v hv hvid
      rw [husers] at hv
      exact h.unique hv hin (hvid.trans hid) ▸ hactive
    | @unchecked tokens hsome husers _ hissued =>
      rw [issuesToActive_iff hissued,active_congr husers]
      constructor
      · intro hactive userId hu
        exact Option.some.inj (hsome.symm.trans hu) ▸ hactive
      · exact fun hall => hall tokens.userId hsome
    | @created user tokens hnone _ _ hactive hid htokens husers _ hissued =>
      refine iff_of_true ((issuesToActive_iff hissued).mpr ?_) (hfree hnone)
      intro v hv hvid
      rw [husers] at hv
      rcases List.mem_append.mp hv with hold | hnew
      · have hlt := h.below v hold
        rw [hvid,htokens,hid] at hlt
        exact absurd hlt (Nat.lt_irrefl _)
      · exact List.mem_singleton.mp hnew ▸ hactive

theorem numbered_empty : Numbered empty where
  distinct := List.nodup_nil
  below _ hu := absurd hu List.not_mem_nil

/-- An account that was deactivated stays so. -/
theorem deactivated_step {e : Event} {userId : UserId}
    (hd : ∃ user ∈ a.users, user.id = userId ∧ user.isActive = false)
    (hs : eventStep env settings a e = some b) :
    ∃ user ∈ b.users, user.id = userId ∧ user.isActive = false := by
  obtain ⟨user,hu,hid,hoff⟩ := hd
  have hkept (husers : b.users = a.users) : ∃ user ∈ b.users, user.id = userId ∧ user.isActive = false :=
    ⟨user,husers ▸ hu,hid,hoff⟩
  cases e with
  | deactivate other =>
    cases hs
    refine ⟨_,List.mem_map_of_mem hu,?_⟩
    split_ifs
    · exact ⟨hid,rfl⟩
    · exact ⟨hid,hoff⟩
  | request l =>
    cases perform_issuance (toOption_eq_some.mp hs) with
    | nothing _ _ husers _ _ => exact hkept husers
    | checked _ _ _ _ _ husers _ _ => exact hkept husers
    | unchecked _ husers _ _ => exact hkept husers
    | created _ _ _ _ _ _ husers _ _ =>
      exact ⟨user,husers ▸ List.mem_append_left _ hu,hid,hoff⟩

theorem issued_prefix {e : Event} (hs : eventStep env settings a e = some b) : a.issued <+: b.issued := by
  cases e with
  | deactivate userId =>
    cases hs
    exact List.prefix_rfl
  | request l =>
    cases perform_issuance (toOption_eq_some.mp hs) with
    | nothing _ _ _ _ hissued => exact hissued ▸ List.prefix_rfl
    | checked _ _ _ _ _ _ _ hissued => exact hissued ▸ List.prefix_append _ _
    | unchecked _ _ _ hissued => exact hissued ▸ List.prefix_append _ _
    | created _ _ _ _ _ _ _ _ hissued => exact hissued ▸ List.prefix_append _ _

/-- Where every step issues to active accounts, a deactivated user gets no more tokens. -/
theorem no_tokens_after_deactivation {events : List Event} {userId : UserId}
    (hd : ∃ user ∈ a.users, user.id = userId ∧ user.isActive = false)
    (hissues : ∀ s e t, Fires (eventStep env settings) a events s e t → IssuesToActive s t)
    (hv : Visits (eventStep env settings) a events b) :
    ∀ tokens ∈ b.issued, tokens.userId = userId → tokens ∈ a.issued := by
  refine (hv.induction (I := fun s => (∃ user ∈ s.users, user.id = userId ∧ user.isActive = false) ∧
    ∀ tokens ∈ s.issued, tokens.userId = userId → tokens ∈ a.issued) ⟨hd,fun _ ht _ => ht⟩ ?_).2
  rintro s e t hf ⟨hoff,hold⟩
  obtain ⟨_,_,_,hs⟩ := id hf
  have hoff' := deactivated_step hoff hs
  refine ⟨hoff',fun tokens ht hid => ?_⟩
  obtain ⟨new,hnew⟩ := issued_prefix hs
  rw [← hnew] at ht
  rcases List.mem_append.mp ht with hin | hin
  · exact hold tokens hin hid
  · have hactive := hissues s e t hf tokens (by rw [← hnew,List.drop_left]; exact hin)
    obtain ⟨user,hu,huid,huoff⟩ := hoff'
    have hon := hactive user hu (huid.trans hid.symm)
    rw [huoff] at hon
    cases hon

variable (env settings)

/-- Over every run, tokens are issued to active accounts only exactly if no refresh, no
accepted invite and no SAML login of the run signs a deactivated account in. -/
theorem tokens_to_active_iff (events : List Event) :
    (∀ a e b, Fires (eventStep env settings) empty events a e b → IssuesToActive a b) ↔
      ∀ a e b, Fires (eventStep env settings) empty events a e b → SignsInActive env a e := by
  have hiff (a : Store) (e : Event) (b : Store) (hf : Fires (eventStep env settings) empty events a e b) :
      IssuesToActive a b ↔ SignsInActive env a e := by
    obtain ⟨_,_,_,hs⟩ := id hf
    refine issuesToActive_step_iff ?_ hs
    exact hf.before.invariant numbered_empty fun _ _ _ h hs => numbered_step h hs
  constructor
  · exact fun h a e b hf => (hiff a e b hf).mp (h a e b hf)
  · exact fun h a e b hf => (hiff a e b hf).mpr (h a e b hf)

end events

/-- Ada registers, is deactivated, and refreshes the token of her registration. -/
def refreshAfterDeactivation : List Event :=
  [.request { request := .register "ada@example.com" "secret" "Ada" "acme" },.deactivate 1,
    .request { request := .refresh 1 1 }]

theorem deactivated_user_refreshes :
    ¬∀ env settings events a e b, Fires (eventStep env settings) empty events a e b → IssuesToActive a b := by
  intro h
  have hrun : ((run (eventStep plainEnvironment {}) empty (refreshAfterDeactivation.take 2)).bind fun a =>
      (eventStep plainEnvironment {} a (.request { request := .refresh 1 1 })).map fun b =>
        (a.issued,b.issued,b.users)) =
      some ([⟨1,1,.owner⟩],[⟨1,1,.owner⟩,⟨1,1,.owner⟩],[⟨1,"ada@example.com","Ada",false⟩]) := by
    decide +kernel
  obtain ⟨a,ha,hstep⟩ := Option.bind_eq_some_iff.mp hrun
  obtain ⟨b,hb,hrows⟩ := Option.map_eq_some_iff.mp hstep
  simp only [Prod.mk.injEq] at hrows
  obtain ⟨hbefore,hissued,husers⟩ := hrows
  have hf : Fires (eventStep plainEnvironment {}) empty refreshAfterDeactivation a
      (.request { request := .refresh 1 1 }) b := ⟨refreshAfterDeactivation.take 2,by simp [refreshAfterDeactivation],ha,hb⟩
  have hactive := h plainEnvironment {} refreshAfterDeactivation a _ b hf ⟨1,1,.owner⟩
    (by rw [hbefore,hissued]; decide)
  have hoff := hactive ⟨1,"ada@example.com","Ada",false⟩ (by rw [husers]; exact List.mem_singleton.mpr rfl) rfl
  cases hoff

end VoxForge.Auth
