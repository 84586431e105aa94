import VoxForge.Auth.Invites
import VoxForge.Auth.Issuance

/-! One account for each e-mail address. The table of accounts compares addresses exactly; an
invite and a SAML login bring theirs in lower case, a registration as it was typed. -/
namespace VoxForge.Auth
open Foundation Core Sso

section accounts
variable (env : Environment) (settings : Settings)

/-- Equal up to letter case. -/
def SameAddress (x y : String) : Prop := env.saml.lower x = env.saml.lower y

def DistinctAddresses (store : Store) : Prop :=
  ∀ u ∈ store.users, ∀ v ∈ store.users, SameAddress env u.email v.email → u = v

/-- A call reaches an account by an address: it issues tokens for the account. -/
structure Reaches (a : Store) (l : Label) (b : Store) (address : String) (userId : UserId) : Prop where
  presented : presented env a l = some address
  issued : ∃ tokens, b.issued = a.issued ++ [tokens] ∧ tokens.userId = userId

/-- Over a run there is one account for an address, however its case is given. -/
structure OneAccount (ls : List Label) : Prop where
  distinct : ∀ s, Visits (step env settings) empty ls s → DistinctAddresses env s
  together : ∀ past l later a b c m d, ls = past ++ l :: later →
    run (step env settings) empty past = some a → step env settings a l = some b →
    Fires (step env settings) b later c m d → ∀ x y i j, Reaches env a l b x i →
    Reaches env c m d y j → SameAddress env x y → i = j
  logsIn : ∀ past l later a b c, ls = past ++ l :: later →
    run (step env settings) empty past = some a → step env settings a l = some b →
    Visits (step env settings) b later c → ∀ x i, Reaches env a l b x i →
    (c.userByEmail x).map (·.id) = some i

/-- An account with the address that a call presents has it in the form presented. -/
def StoredAsPresented (a : Store) (l : Label) : Prop :=
  ∀ x, presented env a l = some x → ∀ u ∈ a.users, SameAddress env u.email x → u.email = x

variable {env settings} {a b : Store} {l : Label}

theorem userByEmail_some {email : String} {u : User} (h : a.userByEmail email = some u) :
    u ∈ a.users ∧ u.email = email :=
  ⟨List.mem_of_find?_eq_some h,by simpa using List.find?_some h⟩

theorem userByEmail_none {email : String} (h : a.userByEmail email = none) {u : User} (hu : u ∈ a.users) :
    u.email ≠ email := by
  simpa using List.find?_eq_none.mp h u hu

theorem DistinctAddresses.userByEmail (h : DistinctAddresses env a) {u : User} (hu : u ∈ a.users) :
    a.userByEmail u.email = some u := by
  cases hfound : a.userByEmail u.email with
  | none => exact absurd rfl (userByEmail_none hfound hu)
  | some v =>
    obtain ⟨hv,hemail⟩ := userByEmail_some hfound
    rw [h v hv u hu (congrArg env.saml.lower hemail)]

/-- An unchecked sign-in by an address finds the account that has it. -/
theorem signedIn_presented {x : String} {userId : UserId} (hx : presented env a l = some x)
    (hsome : signedIn env a l = some userId) : ∃ u, a.userByEmail x = some u ∧ u.id = userId := by
  obtain ⟨credential,now,request⟩ := l
  cases request with
  | refresh => cases hx
  | acceptInvite token password fullName =>
    have hfound := Option.map_eq_some_iff.mp hsome
    rwa [hx,Option.bind_some] at hfound
  | consumeAcs request secret =>
    have hfound := Option.map_eq_some_iff.mp hsome
    rwa [hx,Option.bind_some] at hfound
  | _ => cases hsome

/-- What a call that presents an address does: it signs the account with it in or creates it. -/
theorem address_cases {x : String} (hx : presented env a l = some x) (hs : step env settings a l = some b) :
    ∃ u tokens, u.email = x ∧ tokens.userId = u.id ∧ b.issued = a.issued ++ [tokens] ∧
      ((u ∈ a.users ∧ b.users = a.users) ∨ (a.userByEmail x = none ∧ b.users = a.users ++ [u])) := by
  cases perform_issuance (toOption_eq_some.mp hs) with
  | nothing _ hsilent => rw [hx] at hsilent; cases hsilent
  | @checked user tokens _ haddress hin _ hid husers _ hissued =>
    obtain rfl := Option.some.inj (hx.symm.trans haddress)
    exact ⟨user,tokens,rfl,hid,hissued,.inl ⟨hin,husers⟩⟩
  | @unchecked tokens hsome husers _ hissued =>
    obtain ⟨u,hu,hid⟩ := signedIn_presented hx hsome
    obtain ⟨hin,hemail⟩ := userByEmail_some hu
    exact ⟨u,tokens,hemail,hid.symm,hissued,.inl ⟨hin,husers⟩⟩
  | @created user tokens _ haddress hfree _ _ htokens husers _ hissued =>
    obtain rfl := Option.some.inj (hx.symm.trans haddress)
    exact ⟨user,tokens,rfl,htokens,hissued,.inr ⟨hfree,husers⟩⟩

/-- A call that presents no address leaves the accounts as they are. -/
theorem users_of_silent (hx : presented env a l = none) (hs : step env settings a l = some b) :
    b.users = a.users := by
  cases perform_issuance (toOption_eq_some.mp hs) with
  | nothing _ _ husers => exact husers
  | checked _ haddress => rw [hx] at haddress; cases haddress
  | unchecked _ husers => exact husers
  | created _ haddress => rw [hx] at haddress; cases haddress

theorem users_step (hs : step env settings a l = some b) : a.users ⊆ b.users := by
  cases hx : presented env a l with
  | none => rw [users_of_silent hx hs]; exact fun _ => id
  | some x =>
    obtain ⟨u,tokens,-,-,-,⟨-,husers⟩ | ⟨-,husers⟩⟩ := address_cases hx hs
    · rw [husers]; exact fun _ => id
    · rw [husers]; exact List.subset_append_left _ _

theorem users_visits {s : Store} {ls : List Label} (hv : Visits (step env settings) a ls s) :
    a.users ⊆ s.users :=
  hv.invariant (fun _ => id) fun _ _ _ h hs => List.Subset.trans h (users_step hs)

/-- A call keeps the addresses distinct exactly if the account it means has its address in
the form in which the call presents it. -/
theorem distinct_step_iff (h : DistinctAddresses env a) (hs : step env settings a l = some b) :
    DistinctAddresses env b ↔ StoredAsPresented env a l := by
  cases hx : presented env a l with
  | none =>
    have hkept : DistinctAddresses env b := by
      unfold DistinctAddresses
      rw [users_of_silent hx hs]
      exact h
    refine iff_of_true hkept fun x hpresented => ?_
    rw [hx] at hpresented
    cases hpresented
  | some x =>
    obtain ⟨w,tokens,rfl,-,-,⟨hw,husers⟩ | ⟨hfree,husers⟩⟩ := address_cases hx hs
    · have hkept : DistinctAddresses env b := by
        unfold DistinctAddresses
        rw [husers]
        exact h
      refine iff_of_true hkept fun y hy u hu hsame => ?_
      obtain rfl := Option.some.inj (hx.symm.trans hy)
      rw [h u hu w hw hsame]
    · constructor
      · intro hb y hy u hu hsame
        obtain rfl := Option.some.inj (hx.symm.trans hy)
        have huw := hb u (husers ▸ List.mem_append_left _ hu) w
          (husers ▸ List.mem_append_right _ List.mem_cons_self) hsame
        rw [huw]
      · intro hstored
        have hnew (u : User) (hu : u ∈ a.users) : ¬SameAddress env u.email w.email :=
          fun hsame => userByEmail_none hfree hu (hstored _ hx u hu hsame)
        intro u hu v hv hsame
        rw [husers,List.mem_append,List.mem_singleton] at hu hv
        rcases hu with hu | rfl
        · rcases hv with hv | rfl
          · exact h u hu v hv hsame
          · exact absurd hsame (hnew u hu)
        · rcases hv with hv | rfl
          · exact absurd hsame.symm (hnew v hv)
          · rfl

/-- The account that a call reaches is in the table after it, under the address presented. -/
theorem Reaches.account {x : String} {i : UserId} (h : Reaches env a l b x i)
    (hs : step env settings a l = some b) : ∃ u ∈ b.users, u.id = i ∧ u.email = x := by
  obtain ⟨u,tokens,hemail,hid,hissued,hcases⟩ := address_cases h.presented hs
  obtain ⟨tokens',hissued',rfl⟩ := h.issued
  obtain rfl : tokens = tokens' :=
    List.singleton_inj.mp (List.append_cancel_left (hissued.symm.trans hissued'))
  refine ⟨u,?_,hid.symm,hemail⟩
  rcases hcases with ⟨hin,husers⟩ | ⟨-,husers⟩
  · exact husers ▸ hin
  · exact husers ▸ List.mem_append_right _ List.mem_cons_self

theorem visits_later {past later : List Label} {ls : List Label} {c : Store} (hls : ls = past ++ l :: later)
    (ha : run (step env settings) empty past = some a) (hs : step env settings a l = some b)
    (hv : Visits (step env settings) b later c) : Visits (step env settings) empty ls c := by
  obtain ⟨p,hp,hc⟩ := hv
  refine ⟨past ++ l :: p,?_,?_⟩
  · rw [hls]
    exact (List.prefix_append_right_inj past).mpr ((List.prefix_cons_inj l).mpr hp)
  · rw [run_append,ha,Option.bind_some,run_cons,hs]
    exact hc

theorem distinctAddresses_empty : DistinctAddresses env empty := fun _ hu => absurd hu List.not_mem_nil

variable (env settings)

/-- A run has one account for each address exactly if at each of its calls the account with
the address that the call presents, in whatever case, has it in the form presented. -/
theorem one_account_iff (ls : List Label) :
    OneAccount env settings ls ↔
      ∀ a l b, Fires (step env settings) empty ls a l b → StoredAsPresented env a l := by
  have hdistinct : (∀ s, Visits (step env settings) empty ls s → DistinctAddresses env s) ↔
      ∀ a l b, Fires (step env settings) empty ls a l b → StoredAsPresented env a l :=
    visits_good_iff (I := fun _ => True) trivial distinctAddresses_empty (fun _ _ _ _ _ => trivial)
      fun _ _ _ _ h hs => distinct_step_iff h hs
  refine ⟨fun h => hdistinct.mp h.distinct,fun h => ?_⟩
  have hrows := hdistinct.mpr h
  refine ⟨hrows,?_,?_⟩
  · intro past l later a b c m d hls ha hs hf x y i j hx hy hsame
    obtain ⟨u,hu,rfl,rfl⟩ := hx.account hs
    obtain ⟨_,_,_,hm⟩ := id hf
    obtain ⟨v,hv,rfl,rfl⟩ := hy.account hm
    have hkept := users_visits hf.after hu
    rw [hrows d (visits_later hls ha hs hf.after) u hkept v hv hsame]
  · intro past l later a b c hls ha hs hv x i hreach
    obtain ⟨u,hu,rfl,rfl⟩ := hreach.account hs
    rw [(hrows c (visits_later hls ha hs hv)).userByEmail (users_visits hv hu)]
    rfl

/-- What lowering a text leaves of it. -/
structure Lowering (lower : String → String) : Prop where
  idem : ∀ s, lower (lower s) = lower s
  strip : ∀ s, lower (strip s) = strip (lower s)

/-- The addresses of accounts and invites are in lower case. -/
structure Lowercase (store : Store) : Prop where
  users : ∀ u ∈ store.users, env.saml.lower u.email = u.email
  invites : ∀ i ∈ store.invites, env.saml.lower i.email = i.email

variable {env settings}

theorem parseSamlAssertion_lower {saml : Sso.Environment} (h : Lowering saml.lower) {samlResponse : String}
    {assertion : SamlAssertion} (hp : parseSamlAssertion saml samlResponse = .ok assertion) :
    saml.lower assertion.email = assertion.email := by
  obtain ⟨xml,-,hp⟩ := bind_eq_ok.mp hp
  obtain ⟨⟨_,element⟩,-,hp⟩ := bind_eq_ok.mp hp
  unfold readAssertion at hp
  dsimp only at hp
  split at hp
  · cases hp
  · cases hp
    exact h.idem _

theorem login_account {credential : Credential} {now : Int} {email password : String}
    (hs : step env settings a { credential, now, request := .login email password } = some b) :
    ∃ u ∈ a.users, u.email = email := by
  obtain ⟨r,hok,-⟩ := map_eq_ok.mp (toOption_eq_some.mp hs)
  unfold login at hok
  split at hok
  · cases hok
  · next user hfound => exact ⟨user,userByEmail_some hfound⟩

/-- Calls present addresses in lower case, once a registration does. -/
theorem Lowercase.presented (hl : Lowering env.saml.lower) (h : Lowercase env a)
    (hregister : ∀ email password fullName orgName,
      l.request = .register email password fullName orgName → env.saml.lower email = email)
    {x : String} (hx : presented env a l = some x) (hs : step env settings a l = some b) :
    env.saml.lower x = x := by
  obtain ⟨credential,now,request⟩ := l
  cases request with
  | register email password fullName orgName =>
    cases hx
    exact hregister _ _ _ _ rfl
  | login email password =>
    obtain ⟨u,hu,hemail⟩ := login_account hs
    obtain rfl := Option.some.inj hx
    exact hemail ▸ h.users u hu
  | acceptInvite token password fullName =>
    obtain ⟨invite,hinvite,rfl⟩ := Option.map_eq_some_iff.mp hx
    exact h.invites invite (List.mem_of_find?_eq_some hinvite)
  | consumeAcs request secret =>
    obtain ⟨assertion,hparse,rfl⟩ := Option.map_eq_some_iff.mp hx
    exact parseSamlAssertion_lower hl (toOption_eq_some.mp hparse)
  | _ => cases hx

theorem lowercase_step (hl : Lowering env.saml.lower) (h : Lowercase env a)
    (hregister : ∀ email password fullName orgName,
      l.request = .register email password fullName orgName → env.saml.lower email = email)
    (hs : step env settings a l = some b) : Lowercase env b where
  users u hu := by
    cases hx : Auth.presented env a l with
    | none => exact h.users u (users_of_silent hx hs ▸ hu)
    | some x =>
      obtain ⟨w,tokens,rfl,-,-,⟨-,husers⟩ | ⟨-,husers⟩⟩ := address_cases hx hs
      · exact h.users u (husers ▸ hu)
      · rw [husers,List.mem_append,List.mem_singleton] at hu
        rcases hu with hu | rfl
        · exact h.users u hu
        · exact h.presented hl hregister hx hs
  invites i hi := by
    cases perform_invites (toOption_eq_some.mp hs) with
    | kept hinvites => exact h.invites i (hinvites ▸ hi)
    | @created orgId email rawToken role invite _ _ _ hemail _ _ _ _ hinvites =>
      rw [hinvites,List.mem_append,List.mem_singleton] at hi
      rcases hi with hi | rfl
      · exact h.invites i hi
      · rw [hemail,normalizedAddress,hl.strip,hl.idem]
    | @refreshed orgId email rawToken role existing invite _ hexisting _ _ hemail _ _ _ hinvites =>
      rw [hinvites] at hi
      obtain ⟨j,hj,rfl⟩ := List.mem_map.mp hi
      split_ifs
      · rw [hemail]
        exact h.invites existing (pendingInvite_found hexisting).1
      · exact h.invites j hj
    | accepted _ _ _ _ hinvites =>
      rw [hinvites] at hi
      obtain ⟨j,hj,rfl⟩ := List.mem_map.mp hi
      split_ifs <;> exact h.invites j hj

theorem lowercase_empty : Lowercase env empty where
  users _ hu := absurd hu List.not_mem_nil
  invites _ hi := absurd hi List.not_mem_nil

/-- Where every registration gives its address in lower case there is one account for each. -/
theorem one_account_of_lowercase (hl : Lowering env.saml.lower) {ls : List Label}
    (hregister : ∀ l ∈ ls, ∀ email password fullName orgName,
      l.request = .register email password fullName orgName → env.saml.lower email = email) :
    OneAccount env settings ls := by
  have hgives {a b : Store} {l : Label} (hf : Fires (step env settings) empty ls a l b) :
      ∀ email password fullName orgName,
        l.request = .register email password fullName orgName → env.saml.lower email = email := by
    obtain ⟨p,hp,-,-⟩ := hf
    exact hregister l (hp.subset (List.mem_append_right p List.mem_cons_self))
  refine (one_account_iff env settings ls).mpr fun a l b hf => ?_
  obtain ⟨_,_,_,hs⟩ := id hf
  have hlower : Lowercase env a := by
    refine hf.before.induction lowercase_empty fun c m d hfires hc => ?_
    obtain ⟨_,_,_,hstep⟩ := id hfires
    exact lowercase_step hl hc (hgives hfires) hstep
  intro x hx u hu hsame
  calc u.email = env.saml.lower u.email := (hlower.users u hu).symm
    _ = env.saml.lower x := hsame
    _ = x := hlower.presented hl (hgives hf) hx hs

end accounts

/-- The environment of the plain runs, with the lower case of ASCII. -/
def lowercasing : Environment :=
  { plainEnvironment with saml := { plainEnvironment.saml with
      lower := fun text => String.ofList (text.toList.map Char.toLower) } }

/-- Bob registers with a capital, and is then invited under the same address. -/
def capitalRun : List Label :=
  [{ request := .register "ada@example.com" "secret" "Ada" "acme" },
    { request := .register "Bob@example.com" "secret" "Bob" "bobs" },
    { credential := .bearer ⟨1,1,.owner⟩, request := .createInvite 1 "Bob@example.com" .member "token" },
    { request := .acceptInvite "token" "secret" "Bob" }]

theorem capital_gets_second_account : ¬∀ env settings ls, OneAccount env settings ls := by
  intro h
  have hrun : (run (step lowercasing {}) empty capitalRun).map (·.users) =
      some [⟨1,"ada@example.com","Ada",true⟩,⟨2,"Bob@example.com","Bob",true⟩,
        ⟨3,"bob@example.com","Bob",true⟩] := by decide +kernel
  obtain ⟨s,hs,husers⟩ := Option.map_eq_some_iff.mp hrun
  have hd := (h lowercasing {} capitalRun).distinct s (Visits.of_run hs)
  have heq := hd ⟨2,"Bob@example.com","Bob",true⟩ (by rw [husers]; simp)
    ⟨3,"bob@example.com","Bob",true⟩ (by rw [husers]; simp) (by unfold SameAddress; decide +kernel)
  cases heq

end VoxForge.Auth
