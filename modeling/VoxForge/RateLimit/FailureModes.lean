import VoxForge.RateLimit.Limiter

/-! What the three enforcement points make of a check in which Redis raised. -/
namespace VoxForge.RateLimit
open Core

/-- A request at one of the enforcement points. -/
inductive Call where
  | middleware (request : Request)
  | authenticated (path category orgId : String) (userId apiKeyId : Option String)
  | wsConnect (socket : Request) (orgId : Option String)
  deriving DecidableEq, Repr

/-- The policy that an enforcement point applies. -/
def Call.policy : Call → Option RateLimitPolicy
  | .middleware request => resolvePolicy request.method request.path
  | .authenticated _ category .. => getPolicyByCategory category
  | .wsConnect .. => getPolicyByCategory "voice_ws"

section verdicts
variable (settings : Settings) (server : Server)

/-- Whether the request goes on. A socket whose result is not allowed is closed, and an
unknown category raises. -/
def admits (call : Call) (world : World) : Bool × World :=
  match call with
  | .middleware request =>
    let (answer,world) := dispatch settings server request world
    (answer.isOk,world)
  | .authenticated path category orgId userId apiKeyId =>
    match enforceAuthenticatedLimits settings server path category orgId userId apiKeyId world with
    | none => (false,world)
    | some (answer,world) => (answer.isOk,world)
  | .wsConnect socket orgId =>
    match enforceWsConnectLimit settings server socket orgId world with
    | none => (false,world)
    | some (result,world) => (result.allowed,world)

/-- Redis raised in a check of this call. -/
def Raised (call : Call) (world : World) : Prop :=
  (admits settings server call world).2.metrics.rateLimitRedisErrors ≠ world.metrics.rateLimitRedisErrors

/-- A check of this call found its limit exceeded. -/
def Exceeded (call : Call) (world : World) : Prop :=
  (admits settings server call world).2.metrics.rateLimitBlocked ≠ world.metrics.rateLimitBlocked

end verdicts

/-- The failure mode of a policy: where Redis raised in a check, a call under fail-open goes
on unless some check found a limit exceeded, a call under fail-closed does not go on, and
any two calls under the policy fare alike, whichever enforcement point they are at. -/
structure FailureLaw (settings : Settings) (policy : RateLimitPolicy) : Prop where
  failOpen : ∀ server call world, call.policy = some policy → Raised settings server call world →
    effectiveFailMode settings policy = .open → ¬Exceeded settings server call world →
    (admits settings server call world).1 = true
  failClosed : ∀ server call world, call.policy = some policy → Raised settings server call world →
    effectiveFailMode settings policy = .closed → (admits settings server call world).1 = false
  agree : ∀ server call world server' call' world', call.policy = some policy → call'.policy = some policy →
    Raised settings server call world → ¬Exceeded settings server call world →
    Raised settings server' call' world' → ¬Exceeded settings server' call' world' →
    (admits settings server call world).1 = (admits settings server' call' world').1

section points
variable (settings : Settings) (server : Server)

theorem incr_metrics (key : String) (world : World) : (incr server key world).2.metrics = world.metrics := by
  unfold incr
  dsimp only
  split <;> rfl

theorem expire_metrics (world : World) : (expire server world).2.metrics = world.metrics := rfl

theorem count_metrics (key : String) (world : World) : (count server key world).2.metrics = world.metrics := by
  have h := incr_metrics server key world
  unfold count
  split
  · next after hincr => rwa [hincr] at h
  · next n after hincr =>
    rw [hincr] at h
    split
    · have hexpire := expire_metrics server after
      split <;> next hcall => rw [hcall] at hexpire; exact hexpire.trans h
    · exact h

theorem counted_metrics (category : String) (dimension : Dimension) (identifier : String) (world : World) :
    (counted server category dimension identifier world).2.metrics = world.metrics := by
  unfold counted
  split
  · rfl
  · dsimp only
    split
    · next after hburst =>
      have h := congrArg (fun r => r.2.metrics) hburst
      exact h.symm.trans (count_metrics server _ world)
    · next n middle hburst =>
      have hfirst : middle.metrics = world.metrics :=
        (congrArg (fun r => r.2.metrics) hburst).symm.trans (count_metrics server _ world)
      split
      · next after hsustained =>
        have h := congrArg (fun r => r.2.metrics) hsustained
        exact (h.symm.trans (count_metrics server _ middle)).trans hfirst
      · next m after hsustained =>
        have h := congrArg (fun r => r.2.metrics) hsustained
        exact (h.symm.trans (count_metrics server _ middle)).trans hfirst

/-- What one check finds, and what it records. -/
inductive Checked (policy : RateLimitPolicy) (before : Metrics) (result : RateLimitResult) (after : Metrics) : Prop
  | passed (hallowed : result.allowed = true) (hblocked : result.blocked = false)
      (herror : result.redisError = false) (hbefore : after.rateLimitRedisErrors = before.rateLimitRedisErrors)
  | exceeded (hallowed : result.allowed = false) (hblocked : result.blocked = true)
  | raised (hallowed : result.allowed = decide (effectiveFailMode settings policy = .open))
      (herror : result.redisError = true)

theorem check_checked (policy : RateLimitPolicy) (dimension : Dimension) (identifier : String)
    (sustainedLimit burstLimit : Nat) (world : World) :
    Checked settings policy world.metrics
      (check settings server policy dimension identifier sustainedLimit burstLimit world).1
      (check settings server policy dimension identifier sustainedLimit burstLimit world).2.metrics := by
  have hmetrics := counted_metrics server policy.category dimension identifier world
  unfold check
  split
  · exact .passed rfl rfl rfl rfl
  · dsimp only
    split
    · next burstCount sustainedCount after hcounted =>
      rw [hcounted] at hmetrics
      split
      · exact .exceeded rfl rfl
      · have hafter : after.metrics = world.metrics := hmetrics
        exact .passed rfl rfl rfl (by rw [← hafter]; rfl)
    · exact .raised rfl rfl

/-- Wherever Redis raises in the rest of the checks, the answer is an error. -/
def Refuses (next : World → Except HttpException Unit × World) : Prop :=
  ∀ world, (next world).2.metrics.rateLimitRedisErrors ≠ world.metrics.rateLimitRedisErrors →
    (next world).1.isOk = false

/-- A check that may be left out. -/
def Checks (policy : RateLimitPolicy) (checked : World → Option RateLimitResult × World) : Prop :=
  ∀ world, checked world = (none,world) ∨ ∃ result after, checked world = (some result,after) ∧
    Checked settings policy world.metrics result after.metrics

theorem checkOrg_checks (policy : RateLimitPolicy) (orgId : String) :
    Checks settings policy (checkOrg settings server policy orgId) := by
  intro world
  unfold checkOrg
  split
  · exact .inl rfl
  · exact .inr ⟨_,_,rfl,check_checked ..⟩

theorem checkSession_checks (policy : RateLimitPolicy) (sessionId : String) :
    Checks settings policy (checkSession settings server policy sessionId) := by
  intro world
  unfold checkSession
  split
  · exact .inl rfl
  · exact .inr ⟨_,_,rfl,check_checked ..⟩

theorem checkCaller_checks (policy : RateLimitPolicy) (dimension : Dimension) (identifier : String) :
    Checks settings policy (checkCaller settings server policy dimension identifier) :=
  fun _ => .inr ⟨_,_,rfl,check_checked ..⟩

theorem checkPresent_checks {policy : RateLimitPolicy} (id : Option String)
    {checked : String → World → Option RateLimitResult × World} (h : ∀ i, Checks settings policy (checked i)) :
    Checks settings policy (checkPresent id checked) := by
  cases id with
  | none => exact fun _ => .inl rfl
  | some i => exact h i

variable {settings server}

theorem Checked.answer {policy : RateLimitPolicy} {before after : Metrics} {result : RateLimitResult}
    (h : Checked settings policy before result after) :
    (raiseOrResponse result = .ok () ∧ after.rateLimitRedisErrors = before.rateLimitRedisErrors) ∨
      ∃ e, raiseOrResponse result = .error e := by
  unfold raiseOrResponse
  cases h with
  | passed hallowed hblocked herror hbefore => exact .inl ⟨by simp [hblocked,herror],hbefore⟩
  | exceeded hallowed hblocked => exact .inr ⟨exceededResponse,by simp [hblocked]⟩
  | raised hallowed herror =>
    cases hblocked : result.blocked with
    | true => exact .inr ⟨exceededResponse,by simp⟩
    | false => exact .inr ⟨unavailableResponse,by simp [herror]⟩

theorem proceed_refuses {policy : RateLimitPolicy} {checked : World → Option RateLimitResult × World}
    {next : World → Except HttpException Unit × World} (hchecked : Checks settings policy checked)
    (hnext : Refuses next) : Refuses fun world => proceed (checked world) next := by
  intro world hraised
  unfold proceed at hraised ⊢
  rcases hchecked world with hnone | ⟨result,after,hsome,hresult⟩
  · simp only [hnone] at hraised ⊢
    exact hnext world hraised
  · simp only [hsome] at hraised ⊢
    rcases hresult.answer with ⟨hok,hbefore⟩ | ⟨e,herr⟩
    · simp only [hok] at hraised ⊢
      exact hnext after (hbefore ▸ hraised)
    · simp only [herr]
      rfl

/-- A request at the middleware or after authentication is refused if Redis raised, in
either mode. -/
theorem dispatch_refuses (request : Request) : Refuses (dispatch settings server request) := by
  intro world hraised
  unfold dispatch at hraised ⊢
  split
  · next hdisabled =>
    rw [if_pos hdisabled] at hraised
    exact absurd rfl hraised
  · next henabled =>
    rw [if_neg henabled] at hraised
    cases hpolicy : resolvePolicy request.method request.path with
    | none =>
      rw [hpolicy] at hraised
      exact absurd rfl hraised
    | some policy =>
      simp only [hpolicy] at hraised ⊢
      have hchecked := check_checked settings server policy .ip (getClientIp request) policy.sustainedPerMinute
        policy.burstPer10Seconds world
      change Checked settings policy world.metrics (checkIp settings server policy (getClientIp request) world).1
        (checkIp settings server policy (getClientIp request) world).2.metrics at hchecked
      cases hchecked with
      | passed hallowed hblocked herror hbefore =>
        simp only [hblocked,herror] at hraised
        exact absurd hbefore hraised
      | exceeded hallowed hblocked =>
        simp only [hblocked]
        rfl
      | raised hallowed herror =>
        simp only [herror]
        split <;> rfl

theorem enforceAuthenticatedLimits_refuses {path category orgId : String} {userId apiKeyId : Option String}
    {world after : World} {answer : Except HttpException Unit}
    (h : enforceAuthenticatedLimits settings server path category orgId userId apiKeyId world = some (answer,after))
    (hraised : after.metrics.rateLimitRedisErrors ≠ world.metrics.rateLimitRedisErrors) : answer.isOk = false := by
  unfold enforceAuthenticatedLimits at h
  split at h
  · cases h
    exact absurd rfl hraised
  · obtain ⟨policy,-,h⟩ := Option.map_eq_some_iff.mp h
    have hdone : Refuses fun world => (.ok (),world) := fun world hraised => absurd rfl hraised
    have hkey := proceed_refuses
      (checkPresent_checks settings (truthy apiKeyId) (checkCaller_checks settings server policy .apiKey)) hdone
    have huser := proceed_refuses
      (checkPresent_checks settings (truthy userId) (checkCaller_checks settings server policy .user)) hkey
    have hsession := proceed_refuses
      (checkPresent_checks settings (extractSessionId path) (checkSession_checks settings server policy)) huser
    have hall := proceed_refuses (checkOrg_checks settings server policy orgId) hsession world
    dsimp only at hall
    rw [h] at hall
    exact hall hraised

theorem voiceWs_closed (settings : Settings) {policy : RateLimitPolicy} (h : getPolicyByCategory "voice_ws" = some policy) :
    effectiveFailMode settings policy = .closed := by
  have hmode : ∀ p ∈ getPolicyByCategory "voice_ws", p.failMode = .closed := by decide
  unfold effectiveFailMode
  rw [hmode policy h]
  split <;> rfl

/-- Under fail-closed a result is not allowed if Redis raised. -/
theorem Checked.not_allowed {policy : RateLimitPolicy} {before after : Metrics} {result : RateLimitResult}
    (h : Checked settings policy before result after) (hmode : effectiveFailMode settings policy = .closed)
    (hraised : after.rateLimitRedisErrors ≠ before.rateLimitRedisErrors) : result.allowed = false := by
  cases h with
  | passed hallowed hblocked herror hbefore => exact absurd hbefore hraised
  | exceeded hallowed hblocked => exact hallowed
  | raised hallowed herror => simp [hallowed,hmode]

theorem enforceWsConnectLimit_refuses {socket : Request} {orgId : Option String} {world after : World}
    {result : RateLimitResult} (h : enforceWsConnectLimit settings server socket orgId world = some (result,after))
    (hraised : after.metrics.rateLimitRedisErrors ≠ world.metrics.rateLimitRedisErrors) :
    result.allowed = false := by
  obtain ⟨policy,hpolicy,h⟩ := Option.map_eq_some_iff.mp h
  have hmode := voiceWs_closed settings hpolicy
  have hip := check_checked settings server policy .ip (getClientIp socket) policy.sustainedPerMinute
    policy.burstPer10Seconds world
  change Checked settings policy world.metrics (checkIp settings server policy (getClientIp socket) world).1
    (checkIp settings server policy (getClientIp socket) world).2.metrics at hip
  generalize checkIp settings server policy (getClientIp socket) world = checked at h hip
  obtain ⟨ipResult,middle⟩ := checked
  dsimp only at h hip
  have hfirst (hm : middle.metrics.rateLimitRedisErrors ≠ world.metrics.rateLimitRedisErrors) :
      ipResult.allowed = false := hip.not_allowed hmode hm
  split at h
  · next hrefused =>
    cases h
    exact hfirst hraised
  · next hallowed =>
    have hmiddle : middle.metrics.rateLimitRedisErrors = world.metrics.rateLimitRedisErrors := by
      by_contra hm
      simp [hfirst hm] at hallowed
    split at h
    · cases h
      exact absurd hmiddle hraised
    · next id _ =>
      rcases checkOrg_checks settings server policy id middle with hnone | ⟨orgResult,final,hsome,horg⟩
      · rw [hnone] at h
        cases h
        exact absurd hmiddle hraised
      · rw [hsome] at h
        have hlast (hm : final.metrics.rateLimitRedisErrors ≠ middle.metrics.rateLimitRedisErrors) :
            orgResult.allowed = false := horg.not_allowed hmode hm
        dsimp only at h
        split at h
        · cases h
          exact hlast (hmiddle ▸ hraised)
        · next hok =>
          cases h
          simp [hlast (hmiddle ▸ hraised)] at hok

/-- Where Redis raised, no enforcement point lets the request go on, whatever its mode. -/
theorem refused_of_raised {call : Call} {world : World} (h : Raised settings server call world) :
    (admits settings server call world).1 = false := by
  unfold Raised at h
  cases call with
  | middleware request => exact dispatch_refuses request world h
  | authenticated path category orgId userId apiKeyId =>
    unfold admits at h ⊢
    dsimp only at h ⊢
    split
    · rfl
    · next answer after henforce =>
      rw [henforce] at h
      exact enforceAuthenticatedLimits_refuses henforce h
  | wsConnect socket orgId =>
    unfold admits at h ⊢
    dsimp only at h ⊢
    split
    · rfl
    · next result after henforce =>
      rw [henforce] at h
      exact enforceWsConnectLimit_refuses henforce h

end points

/-- Categories are distinct, so each policy is found under its own. -/
theorem getPolicyByCategory_self {policy : RateLimitPolicy} (h : policy ∈ rateLimitPolicies) :
    getPolicyByCategory policy.category = some policy := by
  revert policy
  decide

theorem not_raised_of_disabled {settings : Settings} {server : Server} {call : Call} {world : World}
    (h : settings.rateLimitEnabled = false) : ¬Raised settings server call world := by
  have hcheck (policy : RateLimitPolicy) (dimension : Dimension) (identifier : String) (sustained burst : Nat) :
      check settings server policy dimension identifier sustained burst world =
        ({ allowed := true, category := policy.category, dimension },world) := by
    simp [check,h]
  refine not_not.mpr ?_
  cases call with
  | middleware request => simp [admits,dispatch,h]
  | authenticated path category orgId userId apiKeyId => simp [admits,enforceAuthenticatedLimits,h]
  | wsConnect socket orgId =>
    cases hpolicy : getPolicyByCategory "voice_ws" with
    | none => simp [admits,enforceWsConnectLimit,hpolicy]
    | some policy =>
      cases horg : truthy orgId with
      | none => simp [admits,enforceWsConnectLimit,hpolicy,checkIp,hcheck,horg]
      | some id =>
        cases hlimit : policy.orgSustainedPerMinute with
        | none => simp [admits,enforceWsConnectLimit,hpolicy,checkIp,hcheck,horg,checkOrg,hlimit]
        | some sustained => simp [admits,enforceWsConnectLimit,hpolicy,checkIp,hcheck,horg,checkOrg,hlimit]

/-- A Redis that was never initialised. -/
def uninitialized : Server := { initialized := false }

theorem check_uninitialized {settings : Settings} (henabled : settings.rateLimitEnabled = true)
    (policy : RateLimitPolicy) (dimension : Dimension) (identifier : String) (sustainedLimit burstLimit : Nat)
    (world : World) :
    check settings uninitialized policy dimension identifier sustainedLimit burstLimit world =
      ({ allowed := effectiveFailMode settings policy = .open
         redisError := true
         category := policy.category
         dimension },world.redisError (policy.category,effectiveFailMode settings policy)) := by
  simp [check,henabled,counted,uninitialized]

theorem check_allowed {settings : Settings} {policy : RateLimitPolicy} (henabled : settings.rateLimitEnabled = true)
    (hmode : effectiveFailMode settings policy = .open) (dimension : Dimension) (identifier : String)
    (sustainedLimit burstLimit : Nat) (world : World) :
    (check settings uninitialized policy dimension identifier sustainedLimit burstLimit world).1.allowed = true := by
  rw [check_uninitialized henabled]
  exact decide_eq_true hmode

/-- The first check of a caller raises. -/
theorem raised_uninitialized {settings : Settings} (henabled : settings.rateLimitEnabled = true)
    {policy : RateLimitPolicy} (h : policy ∈ rateLimitPolicies) :
    Raised settings uninitialized (.authenticated "" policy.category "" (some "caller") none) {} ∧
      ¬Exceeded settings uninitialized (.authenticated "" policy.category "" (some "caller") none) {} := by
  have hsession : extractSessionId "" = none := by decide
  have huser : truthy (some "caller") = some "caller" := by decide
  unfold Raised Exceeded admits enforceAuthenticatedLimits
  dsimp only
  rw [getPolicyByCategory_self h,if_neg (by simp [henabled]),Option.map_some,hsession,huser]
  cases hlimit : policy.orgSustainedPerMinute with
  | none =>
    simp [proceed,checkOrg,hlimit,checkPresent,checkCaller,check_uninitialized henabled,raiseOrResponse,
      World.redisError]
  | some sustained =>
    simp [proceed,checkOrg,hlimit,check_uninitialized henabled,raiseOrResponse,World.redisError]

/-- The law of a policy holds exactly if its effective mode is fail-closed (or limits are off). -/
theorem failure_law_iff (settings : Settings) (policy : RateLimitPolicy) (h : policy ∈ rateLimitPolicies) :
    FailureLaw settings policy ↔
      (settings.rateLimitEnabled = true → effectiveFailMode settings policy = .closed) := by
  constructor
  · intro law henabled
    cases hmode : effectiveFailMode settings policy with
    | closed => rfl
    | «open» =>
      obtain ⟨hraised,hexceeded⟩ := raised_uninitialized henabled h
      have hopen := law.failOpen uninitialized (.authenticated "" policy.category "" (some "caller") none) {}
        (getPolicyByCategory_self h) hraised hmode hexceeded
      rw [refused_of_raised hraised] at hopen
      cases hopen
  · intro hclosed
    refine ⟨?_,?_,?_⟩
    · intro server call world _ hraised hmode _
      cases henabled : settings.rateLimitEnabled with
      | false => exact absurd hraised (not_raised_of_disabled henabled)
      | true =>
        rw [hclosed henabled] at hmode
        cases hmode
    · intro server call world _ hraised _
      exact refused_of_raised hraised
    · intro server call world server' call' world' _ _ hraised _ hraised' _
      rw [refused_of_raised hraised,refused_of_raised hraised']

theorem replay_closed :
    FailureLaw {} ⟨"replay",[],some ⟨"/api/v1/sessions/","/replay"⟩,some ["GET"],30,10,.closed,some 100,some 25,
      some 15,some 5⟩ :=
  (failure_law_iff {} _ (by decide)).mpr fun _ => ite_self _

theorem failClosedCategories_default : ({} : Settings).failClosedCategories =
    ["auth","auth_login","demo","sessions_create","voice_ws","livekit","knowledge_upload","knowledge_reindex",
      "knowledge_collections","replay","onboarding_sample","onboarding","api_keys"] := by
  simp only [Settings.failClosedCategories,String.toList_append]
  decide +kernel

def dashboardPolicy : RateLimitPolicy where
  category := "dashboard"
  pathPrefixes := ["/api/v1/dashboard"]
  methods := some ["GET"]
  sustainedPerMinute := 120
  burstPer10Seconds := 30
  failMode := .open
  orgSustainedPerMinute := some 300
  orgBurstPer10Seconds := some 60

/-- With the default settings and Redis down, a check of the dashboard is fail-open and
allowed, and the middleware answers 503 all the same. -/
theorem dashboard_refused :
    let request : Request := { method := "GET", path := "/api/v1/dashboard/overview" }
    resolvePolicy "GET" "/api/v1/dashboard/overview" = some dashboardPolicy ∧
      effectiveFailMode {} dashboardPolicy = .open ∧
      (check {} uninitialized dashboardPolicy .ip "unknown" 120 30 {}).1.allowed = true ∧
      (dispatch {} uninitialized request {}).1 = .error unavailableResponse ∧
      ¬FailureLaw {} dashboardPolicy := by
  intro request
  have hmode : effectiveFailMode {} dashboardPolicy = .open := by
    rw [effectiveFailMode,failClosedCategories_default]
    decide
  have hpolicy : resolvePolicy "GET" "/api/v1/dashboard/overview" = some dashboardPolicy := by decide +kernel
  have hdispatch : dispatch {} uninitialized request {} =
      (.error unavailableResponse,World.redisError {} ("dashboard",effectiveFailMode {} dashboardPolicy)) := by
    unfold dispatch
    rw [if_neg (by decide),hpolicy]
    dsimp only
    rw [checkIp,check_uninitialized rfl]
    rfl
  refine ⟨hpolicy,hmode,?_,congrArg Prod.fst hdispatch,?_⟩
  · exact check_allowed rfl hmode _ _ _ _ _
  · intro law
    have hraised : Raised {} uninitialized (.middleware request) {} := by
      unfold Raised admits
      dsimp only
      rw [hdispatch]
      exact List.cons_ne_nil _ _
    have hexceeded : ¬Exceeded {} uninitialized (.middleware request) {} := by
      unfold Exceeded admits
      dsimp only
      rw [hdispatch]
      exact not_not.mpr rfl
    have hopen := law.failOpen uninitialized (.middleware request) {} hpolicy hraised hmode hexceeded
    rw [refused_of_raised hraised] at hopen
    cases hopen

end VoxForge.RateLimit
