import VoxForge.RateLimit.Endpoints
import VoxForge.RateLimit.FailureModes
import VoxForge.RateLimit.Resolution
import VoxForge.RateLimit.Windows

/-! Whether the requests of a category get the limits and the failure mode that the table in
`docs/architecture/rate-limiting.md` gives it. -/
namespace VoxForge.RateLimit
open Foundation Core

/-- A row of the table. -/
structure DocumentedCategory where
  category : String
  ipSustained : Nat
  ipBurst : Nat
  orgSustained : Option Nat
  failMode : FailMode
  sessionSustained : Option Nat := none
  deriving DecidableEq, Repr

def documentedCategories : List DocumentedCategory := [
  { category := "auth_login", ipSustained := 20, ipBurst := 5, orgSustained := none, failMode := .closed },
  { category := "auth", ipSustained := 40, ipBurst := 10, orgSustained := none, failMode := .closed },
  { category := "demo", ipSustained := 10, ipBurst := 3, orgSustained := none, failMode := .closed },
  { category := "api_keys", ipSustained := 10, ipBurst := 3, orgSustained := some 20, failMode := .closed },
  { category := "sessions_create", ipSustained := 30, ipBurst := 5, orgSustained := some 100, failMode := .closed },
  { category := "voice_ws", ipSustained := 20, ipBurst := 5, orgSustained := some 60, failMode := .closed },
  { category := "livekit", ipSustained := 30, ipBurst := 5, orgSustained := some 80, failMode := .closed,
    sessionSustained := some 20 },
  { category := "knowledge_upload", ipSustained := 10, ipBurst := 2, orgSustained := some 30, failMode := .closed },
  { category := "knowledge_reindex", ipSustained := 5, ipBurst := 2, orgSustained := some 20, failMode := .closed },
  { category := "knowledge_search", ipSustained := 60, ipBurst := 15, orgSustained := some 200, failMode := .open },
  { category := "knowledge_collections", ipSustained := 20, ipBurst := 5, orgSustained := some 50, failMode := .closed },
  { category := "memory_search", ipSustained := 60, ipBurst := 15, orgSustained := some 200, failMode := .open },
  { category := "replay", ipSustained := 30, ipBurst := 10, orgSustained := some 100, failMode := .closed,
    sessionSustained := some 15 },
  { category := "onboarding_sample", ipSustained := 5, ipBurst := 2, orgSustained := some 15, failMode := .closed },
  { category := "onboarding", ipSustained := 30, ipBurst := 8, orgSustained := some 60, failMode := .closed },
  { category := "dashboard", ipSustained := 120, ipBurst := 30, orgSustained := some 300, failMode := .open },
  { category := "sessions", ipSustained := 120, ipBurst := 30, orgSustained := some 300, failMode := .open,
    sessionSustained := some 60 },
  { category := "api_default", ipSustained := 120, ipBurst := 30, orgSustained := some 500, failMode := .open }]

/-- Of all policies that match a request, that of its category is the most specific one. -/
def InCategory (category method path : String) : Prop :=
  path ∉ exemptPaths ∧ startsWith path "/api/v1" = true ∧
    ∃ p ∈ rateLimitPolicies, p.category = category ∧ p.matches method path = true ∧
      ∀ r ∈ rateLimitPolicies, r ≠ p → r.matches method path = true → r.specificity path < p.specificity path

section law
variable (settings : Settings) (server : Server) (d : DocumentedCategory)

/-- The documented mode, which a setting can turn to fail-closed. -/
def documentedMode : FailMode := if d.category ∈ settings.failClosedCategories then .closed else d.failMode

/-- What the table says a request gets: its limits by address, and its mode where Redis raises. -/
def documentedAnswer (clientIp : String) (world : World) : Except HttpException Unit :=
  match (counted server d.category .ip clientIp world).1 with
  | none => if documentedMode settings d = .closed then .error unavailableResponse else .ok ()
  | some (burst,sustained) =>
    if burst > scaled settings d.ipBurst ∨ sustained > scaled settings d.ipSustained then .error exceededResponse
    else .ok ()

end law

/-- The limits and the mode of a row really apply to the requests for a path of a route, and
the limits of an organisation and of a session to those of an authenticated caller. -/
structure Applies (d : DocumentedCategory) (endpoint : Endpoint) (path : String) : Prop where
  request : endpoint.webSocket = false → ∀ settings server (request : Request) world,
    settings.rateLimitEnabled = true → request.method = endpoint.method → request.path = path →
    (dispatch settings server request world).1 = documentedAnswer settings server d (getClientIp request) world
  socket : endpoint.webSocket = true → ∀ settings server (socket : Request) world, settings.rateLimitEnabled = true →
    (enforceWsConnectLimit settings server socket none world).map (·.1.allowed) =
      some (documentedAnswer settings server d (getClientIp socket) world).isOk
  org : ∀ limit, d.orgSustained = some limit → ∀ settings server caller world burst sustained,
    settings.rateLimitEnabled = true →
    (counted server d.category .org caller.orgId world).1 = some (burst,sustained) → sustained > scaled settings limit →
    (endpoint.enforce settings server path caller world).map Prod.fst = some (.error exceededResponse)
  orgDown : ∀ limit, d.orgSustained = some limit → ∀ settings server caller world, settings.rateLimitEnabled = true →
    (counted server d.category .org caller.orgId world).1 = none → documentedMode settings d = .closed →
    (endpoint.enforce settings server path caller world).map Prod.fst = some (.error unavailableResponse)
  session : ∀ limit, d.sessionSustained = some limit → ∃ id, extractSessionId path = some id ∧
    ∀ settings server caller world burst sustained, settings.rateLimitEnabled = true →
    (counted server d.category .session id (counted server d.category .org caller.orgId world).2).1 =
      some (burst,sustained) → sustained > scaled settings limit →
    (endpoint.enforce settings server path caller world).map (·.1.isOk) = some false

/-- The row of each category a request is in applies to it. -/
def DocumentedLaw (endpoint : Endpoint) (path : String) : Prop :=
  ∀ d ∈ documentedCategories, InCategory d.category endpoint.method path → Applies d endpoint path

/-- A row other than the demo's, documented as fail-closed; where it limits organisations the
route has the dependency of its category, and where it limits sessions the path has an id of
36 characters. -/
structure Enforceable (d : DocumentedCategory) (endpoint : Endpoint) (path : String) : Prop where
  numbers : d.category ≠ "demo"
  mode : d.failMode = .closed
  org : d.orgSustained.isSome → endpoint.limits = some d.category
  session : d.sessionSustained.isSome → (extractSessionId path).isSome

section categories
variable {method path : String} {p : RateLimitPolicy} {d : DocumentedCategory}

/-- But for the demo, the rows are the policies of the table. -/
theorem row_policy (hd : d ∈ documentedCategories) (hp : p ∈ rateLimitPolicies) (h : p.category = d.category) :
    p.failMode = d.failMode ∧ p.orgSustainedPerMinute = d.orgSustained ∧
      p.sessionSustainedPerMinute = d.sessionSustained ∧
      (d.category ≠ "demo" → p.sustainedPerMinute = d.ipSustained ∧ p.burstPer10Seconds = d.ipBurst) := by
  have hall : ∀ d ∈ documentedCategories, ∀ p ∈ rateLimitPolicies, p.category = d.category →
      p.failMode = d.failMode ∧ p.orgSustainedPerMinute = d.orgSustained ∧
        p.sessionSustainedPerMinute = d.sessionSustained ∧
        (d.category ≠ "demo" → p.sustainedPerMinute = d.ipSustained ∧ p.burstPer10Seconds = d.ipBurst) := by
    decide +kernel
  exact hall d hd p hp h

theorem specificity_le (h : p.matches method path = true) : p.specificity path ≤ 2 * (path.length + 1) + 1 := by
  have hextent : p.extent path ≤ path.length + 1 := by
    by_cases hpattern : p.pathRegex.any (·.search path) = true
    · exact (if_pos hpattern).le
    · obtain ⟨a,-,hstarts,heq⟩ := extent_eq hpattern ((matches_iff.mp h).2.resolve_left hpattern)
      rw [heq]
      exact (length_le_of_startsWith hstarts).trans (Nat.le_succ _)
  unfold RateLimitPolicy.specificity
  split <;> omega

/-- No policy is more specific for a search in a memory than its own. -/
theorem memorySearch_most_specific (h : MemorySearch method path) (hp : p.matches method path = true) :
    ∃ r ∈ rateLimitPolicies, r.category = "memory_search" ∧ r.matches method path = true ∧
      p.specificity path ≤ r.specificity path := by
  have hpolicy : ∃ r ∈ rateLimitPolicies, r.category = "memory_search" := by decide
  obtain ⟨r,hr,hcategory⟩ := hpolicy
  obtain ⟨hmethods,hpattern,-⟩ := memorySearch_policy hr hcategory
  refine ⟨r,hr,hcategory,(memorySearch_matches_iff hr hcategory).mpr h,?_⟩
  have hspecificity : r.specificity path = 2 * (path.length + 1) + 1 := by
    have hextent : r.extent path = path.length + 1 := if_pos (by rw [hpattern]; exact h.2)
    rw [RateLimitPolicy.specificity,hextent,hmethods]
    rfl
  rw [hspecificity]
  exact specificity_le hp

theorem exists_resolved (hexempt : path ∉ exemptPaths) (hapi : startsWith path "/api/v1" = true)
    (hp : p ∈ rateLimitPolicies) (hmatches : p.matches method path = true) :
    ∃ q, resolvePolicy method path = some q := by
  rw [resolvePolicy_eq hexempt hapi]
  exact Option.isSome_iff_exists.mp (List.find?_isSome.mpr ⟨p,hp,hmatches⟩)

/-- A request gets the policy of its category, unless that is the one for searches in a memory. -/
theorem InCategory.resolved {category : String} (h : InCategory category method path)
    (hother : category ≠ "memory_search") :
    ∃ p ∈ rateLimitPolicies, p.category = category ∧ resolvePolicy method path = some p := by
  obtain ⟨hexempt,hapi,p,hp,rfl,hmatches,hmost⟩ := h
  refine ⟨p,hp,rfl,?_⟩
  have hsearch : ¬MemorySearch method path := by
    intro hsearch
    obtain ⟨r,hr,hcategory,hr',hle⟩ := memorySearch_most_specific hsearch hmatches
    have hne : r ≠ p := by
      rintro rfl
      exact hother hcategory
    exact absurd (hmost r hr hne hr') (Nat.not_lt.mpr hle)
  obtain ⟨q,hq⟩ := exists_resolved hexempt hapi hp hmatches
  by_cases heq : q = p
  · rw [hq,heq]
  · have hless := resolvePolicy_specific hsearch hq p hp (Ne.symm heq) hmatches
    have hq' : q ∈ rateLimitPolicies := List.mem_of_find?_eq_some (find?_of_resolvePolicy hq)
    exact absurd hless (hmost q hq' heq (matches_of_resolvePolicy hq)).asymm

theorem socket_category (h : InCategory d.category "GET" "/api/v1/ws/voice") : d.category = "voice_ws" := by
  have hresolved : (resolvePolicy "GET" "/api/v1/ws/voice").map (·.category) = some "voice_ws" := by decide +kernel
  have hother : d.category ≠ "memory_search" := by
    intro hsearch
    obtain ⟨-,-,p,hp,hcategory,hmatches,-⟩ := h
    have hmethod := ((memorySearch_matches_iff hp (hcategory.trans hsearch)).mp hmatches).1
    revert hmethod
    decide +kernel
  obtain ⟨p,-,hcategory,hp⟩ := h.resolved hother
  rw [hp,Option.map_some,hcategory] at hresolved
  exact Option.some.inj hresolved

theorem documentedMode_eq (settings : Settings) (hd : d ∈ documentedCategories) (hp : p ∈ rateLimitPolicies)
    (h : p.category = d.category) : effectiveFailMode settings p = documentedMode settings d := by
  unfold effectiveFailMode documentedMode
  rw [h,(row_policy hd hp h).1]

end categories

section enforcement
variable {settings : Settings} {server : Server} {p : RateLimitPolicy} {world : World}

/-- What the middleware answers, whatever the mode of the policy. -/
theorem dispatch_resolved (henabled : settings.rateLimitEnabled = true) {request : Request}
    (h : resolvePolicy request.method request.path = some p) :
    (dispatch settings server request world).1 =
      match (counted server p.category .ip (getClientIp request) world).1 with
      | none => .error unavailableResponse
      | some (burst,sustained) =>
        if burst > scaled settings p.burstPer10Seconds ∨ sustained > scaled settings p.sustainedPerMinute then
          .error exceededResponse
        else .ok () := by
  unfold dispatch checkIp check
  rw [h]
  rcases hcounted : counted server p.category .ip (getClientIp request) world with ⟨_ | ⟨burst,sustained⟩,after⟩
  · simp [henabled,hcounted]
  · simp only [henabled,hcounted,Bool.not_true,Bool.false_eq_true,if_false]
    split <;> rfl

theorem connect_eq (henabled : settings.rateLimitEnabled = true) {socket : Request}
    (h : getPolicyByCategory "voice_ws" = some p) :
    (enforceWsConnectLimit settings server socket none world).map (·.1.allowed) =
      some (match (counted server p.category .ip (getClientIp socket) world).1 with
      | none => decide (effectiveFailMode settings p = .open)
      | some (burst,sustained) =>
        !decide (burst > scaled settings p.burstPer10Seconds ∨ sustained > scaled settings p.sustainedPerMinute)) := by
  unfold enforceWsConnectLimit checkIp check
  rw [h]
  rcases hcounted : counted server p.category .ip (getClientIp socket) world with ⟨_ | ⟨burst,sustained⟩,after⟩
  · by_cases hmode : effectiveFailMode settings p = .open <;> simp [henabled,hcounted,hmode,truthy]
  · by_cases hlimit : burst > scaled settings p.burstPer10Seconds ∨ sustained > scaled settings p.sustainedPerMinute
    · simp [henabled,hcounted,hlimit]
    · simp [henabled,hcounted,hlimit,truthy]

/-- A check counts, and then only records. -/
theorem check_world (henabled : settings.rateLimitEnabled = true) (server : Server) (p : RateLimitPolicy)
    (dimension : Dimension) (identifier : String) (sustainedLimit burstLimit : Nat) (world : World) : ∃ metrics,
    (check settings server p dimension identifier sustainedLimit burstLimit world).2 =
      { (counted server p.category dimension identifier world).2 with metrics } := by
  unfold check
  rcases hcounted : counted server p.category dimension identifier world with ⟨_ | ⟨burst,sustained⟩,after⟩
  · simp only [henabled,Bool.not_true,Bool.false_eq_true,if_false]
    exact ⟨_,rfl⟩
  · simp only [henabled,Bool.not_true,Bool.false_eq_true,if_false]
    split <;> exact ⟨_,rfl⟩

theorem count_with_metrics (key : String) (metrics : Metrics) :
    count server key { world with metrics } = ((count server key world).1,{ (count server key world).2 with metrics }) := by
  unfold count incr expire
  by_cases hraises : server.raises world.calls = true
  · simp [hraises]
  · by_cases hone : (world.counts.get? key).getD 0 = 0
    · by_cases hlater : server.raises (world.calls + 1) = true <;> simp [hraises,hone,hlater]
    · simp [hraises,hone]

/-- What was recorded has no say in a count. -/
theorem counted_with_metrics (category : String) (dimension : Dimension) (identifier : String) (metrics : Metrics) :
    (counted server category dimension identifier { world with metrics }).1 =
      (counted server category dimension identifier world).1 := by
  unfold counted
  split
  · rfl
  · dsimp only
    generalize "ratelimit:" ++ "burst" ++ ":" ++ dimension.value ++ ":" ++ identifier ++ ":" ++ category ++ ":" ++
      toString (server.time world.calls / 10) = burstKey
    generalize "ratelimit:" ++ "sustained" ++ ":" ++ dimension.value ++ ":" ++ identifier ++ ":" ++ category ++ ":" ++
      toString (server.time world.calls / 60) = sustainedKey
    rw [count_with_metrics]
    rcases count server burstKey world with ⟨_ | burst,middle⟩
    · rfl
    · dsimp only
      rw [count_with_metrics]
      rcases count server sustainedKey middle with ⟨_ | sustained,after⟩ <;> rfl

theorem check_exceeded (henabled : settings.rateLimitEnabled = true) {dimension : Dimension} {identifier : String}
    {sustainedLimit burst sustained : Nat} (burstLimit : Nat)
    (hcounted : (counted server p.category dimension identifier world).1 = some (burst,sustained))
    (hlimit : sustained > scaled settings sustainedLimit) :
    raiseOrResponse (check settings server p dimension identifier sustainedLimit burstLimit world).1 =
      .error exceededResponse := by
  unfold check
  rcases hcalled : counted server p.category dimension identifier world with ⟨counts,after⟩
  obtain rfl : counts = some (burst,sustained) := (congrArg Prod.fst hcalled).symm.trans hcounted
  simp [henabled,hlimit,raiseOrResponse]

theorem check_down (henabled : settings.rateLimitEnabled = true) {dimension : Dimension} {identifier : String}
    (sustainedLimit burstLimit : Nat) (hcounted : (counted server p.category dimension identifier world).1 = none) :
    raiseOrResponse (check settings server p dimension identifier sustainedLimit burstLimit world).1 =
      .error unavailableResponse := by
  unfold check
  rcases hcalled : counted server p.category dimension identifier world with ⟨counts,after⟩
  obtain rfl : counts = none := (congrArg Prod.fst hcalled).symm.trans hcounted
  simp [henabled,raiseOrResponse]

theorem proceed_error {result : RateLimitResult} {error : HttpException} (h : raiseOrResponse result = .error error)
    (next : World → Except HttpException Unit × World) : proceed (some result,world) next = (.error error,world) := by
  unfold proceed
  dsimp only
  rw [h]

theorem proceed_ok {result : RateLimitResult} (h : raiseOrResponse result = .ok ())
    (next : World → Except HttpException Unit × World) : proceed (some result,world) next = next world := by
  unfold proceed
  dsimp only
  rw [h]

theorem checkOrg_some {limit : Nat} (h : p.orgSustainedPerMinute = some limit) (orgId : String) :
    checkOrg settings server p orgId world =
      (some (check settings server p .org orgId limit (orDefault p.orgBurstPer10Seconds p.burstPer10Seconds) world).1,
        (check settings server p .org orgId limit (orDefault p.orgBurstPer10Seconds p.burstPer10Seconds) world).2) := by
  rw [checkOrg,h]

theorem checkSession_some {limit : Nat} (h : p.sessionSustainedPerMinute = some limit) (sessionId : String) :
    checkSession settings server p sessionId world =
      (some (check settings server p .session sessionId limit
          (orDefault p.sessionBurstPer10Seconds p.burstPer10Seconds) world).1,
        (check settings server p .session sessionId limit
          (orDefault p.sessionBurstPer10Seconds p.burstPer10Seconds) world).2) := by
  rw [checkSession,h]

variable {endpoint : Endpoint} {path : String} {caller : Caller}

theorem enforce_eq (henabled : settings.rateLimitEnabled = true) (hp : p ∈ rateLimitPolicies)
    (h : endpoint.limits = some p.category) :
    endpoint.enforce settings server path caller world =
      some (proceed (checkOrg settings server p caller.orgId world) fun world =>
        proceed (checkPresent (extractSessionId path) (checkSession settings server p) world) fun world =>
        proceed (checkPresent (truthy caller.userId) (checkCaller settings server p .user) world) fun world =>
        proceed (checkPresent (truthy caller.apiKeyId) (checkCaller settings server p .apiKey) world) fun world =>
        (.ok (),world)) := by
  unfold Endpoint.enforce enforceAuthenticatedLimits
  rw [h]
  dsimp only
  rw [if_neg (by simp [henabled]),getPolicyByCategory_self hp]
  rfl

theorem enforce_org (henabled : settings.rateLimitEnabled = true) (hp : p ∈ rateLimitPolicies)
    (h : endpoint.limits = some p.category) {limit : Nat} (hlimit : p.orgSustainedPerMinute = some limit)
    {error : HttpException} (hcheck : raiseOrResponse (check settings server p .org caller.orgId limit
      (orDefault p.orgBurstPer10Seconds p.burstPer10Seconds) world).1 = .error error) :
    (endpoint.enforce settings server path caller world).map Prod.fst = some (.error error) := by
  rw [enforce_eq henabled hp h,checkOrg_some hlimit,proceed_error hcheck]
  rfl

theorem enforce_session (henabled : settings.rateLimitEnabled = true) (hp : p ∈ rateLimitPolicies)
    (h : endpoint.limits = some p.category) {id : String} (hid : extractSessionId path = some id) {org limit : Nat}
    (horg : p.orgSustainedPerMinute = some org) (hlimit : p.sessionSustainedPerMinute = some limit)
    {burst sustained : Nat} (hcounted : (counted server p.category .session id
      (counted server p.category .org caller.orgId world).2).1 = some (burst,sustained))
    (hexceeded : sustained > scaled settings limit) :
    (endpoint.enforce settings server path caller world).map (·.1.isOk) = some false := by
  rw [enforce_eq henabled hp h,checkOrg_some horg]
  obtain ⟨metrics,hafter⟩ := check_world henabled server p .org caller.orgId org
    (orDefault p.orgBurstPer10Seconds p.burstPer10Seconds) world
  generalize check settings server p .org caller.orgId org (orDefault p.orgBurstPer10Seconds p.burstPer10Seconds) world =
    checked at hafter ⊢
  obtain ⟨result,after⟩ := checked
  cases hresult : raiseOrResponse result with
  | error e =>
    rw [proceed_error hresult]
    rfl
  | ok _ =>
    have hcheck := check_exceeded henabled (orDefault p.sessionBurstPer10Seconds p.burstPer10Seconds)
      ((counted_with_metrics p.category .session id metrics).trans hcounted) hexceeded
    rw [proceed_ok hresult,hid,checkPresent]
    dsimp only at hafter ⊢
    rw [hafter,checkSession_some hlimit,proceed_error hcheck]
    rfl

end enforcement

/-! Counters of one category have no say in another -/

section fresh
variable {world : World} {p : RateLimitPolicy} {endpoint : Endpoint} {path : String}

theorem healthy : Healthy {} := ⟨rfl,fun _ => rfl⟩

theorem exists_holds (past : List (String × ℚ≥0)) : ∃ world, Holds past world := by
  induction past using List.reverseRecOn with
  | nil => exact ⟨{},fun _ => rfl⟩
  | append_singleton past hit ih =>
    obtain ⟨world,hworld⟩ := ih
    obtain ⟨world',-,hworld'⟩ := count_holds healthy hworld hit
    exact ⟨world',hworld'⟩

/-- A check of a caller that was not counted before passes. -/
theorem check_fresh {before : List CheckedCall} (hworld : Holds (pastHits before) world) (call : CheckedCall)
    (htime : call.time = 0) (hnew : ∀ other ∈ before, other.triple ≠ call.triple) (sustained burst : Nat) :
    ∃ result world', check {} {} call.policy call.dimension call.identifier sustained burst world = (result,world') ∧
      raiseOrResponse result = .ok () ∧ Holds (pastHits (before ++ [call])) world' := by
  have henabled : ({} : Settings).rateLimitEnabled = true := rfl
  have hcounts : Counters.Counts (pastHits before) (redisAfter {} (fun _ => ⟨burst,sustained⟩) before) :=
    counts_redisAfter henabled before
  have hfloor : ({} : Server).time world.calls = ⌊call.time⌋₊ := by rw [htime,Nat.floor_zero]
  obtain ⟨world',hcheck,hworld'⟩ :=
    @check_agrees {} (fun _ => ⟨burst,sustained⟩) {} world henabled healthy before call _ hcounts hworld hfloor
  refine ⟨_,world',hcheck,?_,hworld'⟩
  have hzero (window : Window) : before.countP (call.beside window) = 0 := by
    refine List.countP_eq_zero.mpr fun other hother => ?_
    simp [CheckedCall.beside,hnew other hother]
  have hpos (limit : Nat) : (1 : Int) ≤ scaled {} limit := le_max_left 1 _
  rw [(checkAt_counts henabled call hcounts).1,hzero,hzero,if_neg]
  · rfl
  · rintro (hlimit | hlimit)
    · exact absurd (hpos burst) (not_le_of_gt hlimit)
    · exact absurd (hpos sustained) (not_le_of_gt hlimit)

/-- A route that enforces another category lets a caller go on whom it did not count. -/
theorem enforce_fresh (hp : p ∈ rateLimitPolicies) (hlimits : endpoint.limits = some p.category)
    {before : List CheckedCall} (hworld : Holds (pastHits before) world)
    (hother : ∀ other ∈ before, other.policy.category ≠ p.category) (orgId : String) :
    (endpoint.enforce {} {} path { orgId } world).map Prod.fst = some (.ok ()) := by
  have horg : ∃ before' world', Holds (pastHits before') world' ∧
      (∀ other ∈ before', other.policy.category ≠ p.category ∨ other.dimension = .org) ∧
      ∀ next, proceed (checkOrg {} {} p orgId world) next = next world' := by
    cases hlimit : p.orgSustainedPerMinute with
    | none =>
      refine ⟨before,world,hworld,fun other h => .inl (hother other h),fun next => ?_⟩
      rw [checkOrg,hlimit]
      rfl
    | some limit =>
      let call : CheckedCall := { policy := p, dimension := .org, identifier := orgId, time := 0, known := hp }
      obtain ⟨result,world',hcheck,hok,hworld'⟩ := check_fresh hworld call rfl
        (fun other h heq => hother other h (congrArg Triple.category heq)) limit
        (orDefault p.orgBurstPer10Seconds p.burstPer10Seconds)
      refine ⟨before ++ [call],world',hworld',fun other h => ?_,fun next => ?_⟩
      · rcases List.mem_append.mp h with h | h
        · exact .inl (hother other h)
        · rw [List.mem_singleton.mp h]
          exact .inr rfl
      · rw [checkOrg_some hlimit,hcheck]
        exact proceed_ok hok next
  obtain ⟨before',world',hworld',hother',horg⟩ := horg
  have hsession : ∃ world'', ∀ next, proceed (checkPresent (extractSessionId path) (checkSession {} {} p) world') next =
      next world'' := by
    cases hid : extractSessionId path with
    | none => exact ⟨world',fun next => rfl⟩
    | some id =>
      cases hlimit : p.sessionSustainedPerMinute with
      | none =>
        refine ⟨world',fun next => ?_⟩
        rw [checkPresent,checkSession,hlimit]
        rfl
      | some limit =>
        let call : CheckedCall := { policy := p, dimension := .session, identifier := id, time := 0, known := hp }
        have hnew : ∀ other ∈ before', other.triple ≠ call.triple := by
          intro other h heq
          rcases hother' other h with hcategory | hdimension
          · exact hcategory (congrArg Triple.category heq)
          · have hsession : Dimension.org = .session := hdimension.symm.trans (congrArg Triple.dimension heq)
            cases hsession
        obtain ⟨result,world'',hcheck,hok,-⟩ := check_fresh hworld' call rfl hnew limit
          (orDefault p.sessionBurstPer10Seconds p.burstPer10Seconds)
        refine ⟨world'',fun next => ?_⟩
        rw [checkPresent,checkSession_some hlimit,hcheck]
        exact proceed_ok hok next
  obtain ⟨world'',hsession⟩ := hsession
  rw [enforce_eq rfl hp hlimits,horg,hsession]
  rfl

/-- Redis after some checks of one caller, and what the next one finds. -/
theorem counted_again (call : CheckedCall) (htime : call.time = 0) (n : Nat) :
    ∃ world, Holds (pastHits (List.replicate n call)) world ∧
      (counted {} call.policy.category call.dimension call.identifier world).1 = some (n + 1,n + 1) := by
  obtain ⟨world,hworld⟩ := exists_holds (pastHits (List.replicate n call))
  have hfloor : ({} : Server).time world.calls = ⌊call.time⌋₊ := by rw [htime,Nat.floor_zero]
  obtain ⟨after,hcounted,-⟩ := counted_holds healthy call hworld hfloor
  have hself (window : Window) : (List.replicate n call).countP (call.beside window) = n := by
    simp [List.countP_replicate,CheckedCall.beside]
  rw [hself,hself] at hcounted
  exact ⟨world,hworld,congrArg Prod.fst hcounted⟩

end fresh

section rows
variable {d : DocumentedCategory} {endpoint : Endpoint} {path : String}

theorem InCategory.voice_ws (h : InCategory d.category endpoint.method path) (he : endpoint ∈ endpoints)
    (hpath : endpoint.takes path = true) (hsocket : endpoint.webSocket = true) : d.category = "voice_ws" := by
  obtain ⟨hmethod,rfl⟩ := webSocket_path he hsocket hpath
  rw [hmethod] at h
  exact socket_category h

theorem documentedMode_closed (settings : Settings) (h : d.failMode = .closed) : documentedMode settings d = .closed := by
  unfold documentedMode
  rw [h]
  split <;> rfl

theorem Enforceable.applies (h : Enforceable d endpoint path) (he : endpoint ∈ endpoints)
    (hpath : endpoint.takes path = true) (hd : d ∈ documentedCategories)
    (hin : InCategory d.category endpoint.method path) : Applies d endpoint path := by
  have hother : d.category ≠ "memory_search" := by
    have hall : ∀ d ∈ documentedCategories, d.failMode = .closed → d.category ≠ "memory_search" := by decide +kernel
    exact hall d hd h.mode
  obtain ⟨p,hp,hcategory,hresolved⟩ := hin.resolved hother
  obtain ⟨-,horg,hsession,hnumbers⟩ := row_policy hd hp hcategory
  obtain ⟨hsustained,hburst⟩ := hnumbers h.numbers
  have hlimits {limit : Nat} (hlimit : d.orgSustained = some limit) : endpoint.limits = some p.category := by
    rw [hcategory]
    exact h.org (by rw [hlimit]; rfl)
  refine ⟨?_,?_,?_,?_,?_⟩
  · rintro - settings server request world henabled hmethod rfl
    rw [← hmethod] at hresolved
    rw [dispatch_resolved henabled hresolved,documentedAnswer,documentedMode_closed settings h.mode,hcategory,hburst,
      hsustained,if_pos rfl]
  · intro hsocket settings server socket world henabled
    have hfound : getPolicyByCategory "voice_ws" = some p := by
      rw [← hin.voice_ws he hpath hsocket,← hcategory]
      exact getPolicyByCategory_self hp
    rw [connect_eq henabled hfound,documentedMode_eq settings hd hp hcategory,documentedAnswer,
      documentedMode_closed settings h.mode,hcategory,hburst,hsustained]
    rcases (counted server d.category .ip (getClientIp socket) world).1 with _ | ⟨burst,sustained⟩
    · rfl
    · dsimp only
      split
      · next hlimit => simp [hlimit,Except.isOk,Except.toBool]
      · next hlimit => simp [hlimit,Except.isOk,Except.toBool]
  · intro limit hlimit settings server caller world burst sustained henabled hcounted hexceeded
    rw [← hcategory] at hcounted
    exact enforce_org henabled hp (hlimits hlimit) (horg.trans hlimit) (check_exceeded henabled _ hcounted hexceeded)
  · intro limit hlimit settings server caller world henabled hcounted _
    rw [← hcategory] at hcounted
    exact enforce_org henabled hp (hlimits hlimit) (horg.trans hlimit) (check_down henabled _ _ hcounted)
  · intro limit hlimit
    obtain ⟨id,hid⟩ := Option.isSome_iff_exists.mp (h.session (by rw [hlimit]; rfl))
    have hall : ∀ d ∈ documentedCategories, d.sessionSustained.isSome → d.orgSustained.isSome := by decide +kernel
    obtain ⟨org,horg'⟩ := Option.isSome_iff_exists.mp (hall d hd (by rw [hlimit]; rfl))
    refine ⟨id,hid,fun settings server caller world burst sustained henabled hcounted hexceeded => ?_⟩
    rw [← hcategory] at hcounted
    exact enforce_session henabled hp (hlimits horg') hid (horg.trans horg') (hsession.trans hlimit) hcounted hexceeded

theorem Applies.enforceable (h : Applies d endpoint path) (he : endpoint ∈ endpoints)
    (hpath : endpoint.takes path = true) (hd : d ∈ documentedCategories)
    (hin : InCategory d.category endpoint.method path) : Enforceable d endpoint path := by
  have hweb (hvoice : d.category ≠ "voice_ws") : endpoint.webSocket = false := by
    by_contra hsocket
    exact hvoice (hin.voice_ws he hpath (Bool.eq_true_of_not_eq_false hsocket))
  let request : Request := { method := endpoint.method, path }
  obtain ⟨p,hp,hcategory,hmatches,-⟩ := hin.2.2
  refine ⟨?_,?_,?_,?_⟩
  · -- the fourth request of an address within ten seconds goes on
    intro hdemo
    obtain ⟨q,hq,hq',hresolved⟩ := hin.resolved (by rw [hdemo]; decide)
    let call : CheckedCall := { policy := q, dimension := .ip, identifier := "unknown", time := 0, known := hq }
    obtain ⟨world,-,hcounted⟩ := counted_again call rfl 3
    have hcounted' : (counted {} d.category .ip (getClientIp request) world).1 = some (4,4) := by
      rw [← hq']
      exact hcounted
    have hnumbers : q.burstPer10Seconds = 30 ∧ q.sustainedPerMinute = 120 ∧ d.ipBurst = 3 ∧ d.ipSustained = 10 := by
      have hall : ∀ d ∈ documentedCategories, ∀ q ∈ rateLimitPolicies, d.category = "demo" → q.category = d.category →
          q.burstPer10Seconds = 30 ∧ q.sustainedPerMinute = 120 ∧ d.ipBurst = 3 ∧ d.ipSustained = 10 := by decide +kernel
      exact hall d hd q hq hdemo hq'
    have hanswer := h.request (hweb (by rw [hdemo]; decide)) {} {} request world rfl rfl rfl
    rw [dispatch_resolved rfl hresolved,documentedAnswer,hq',hcounted',hnumbers.1,hnumbers.2.1,hnumbers.2.2.1,
      hnumbers.2.2.2] at hanswer
    dsimp only at hanswer
    rw [if_neg (by decide +kernel),if_pos (by decide +kernel)] at hanswer
    cases hanswer
  · -- with Redis down, a request documented as fail-open is answered 503
    cases hmode : d.failMode with
    | closed => rfl
    | «open» =>
      have hall : ∀ d ∈ documentedCategories, d.failMode = .open →
          d.category ≠ "voice_ws" ∧ d.category ∉ ({} : Settings).failClosedCategories := by
        rw [failClosedCategories_default]
        decide +kernel
      obtain ⟨hvoice,hopen⟩ := hall d hd hmode
      obtain ⟨q,hresolved⟩ := exists_resolved hin.1 hin.2.1 hp hmatches
      have hdown (category : String) (world : World) :
          (counted uninitialized category .ip (getClientIp request) world).1 = none := by
        simp [counted,uninitialized]
      have hanswer := h.request (hweb hvoice) {} uninitialized request {} rfl rfl rfl
      rw [dispatch_resolved rfl hresolved,documentedAnswer,hdown,hdown,documentedMode,if_neg hopen,hmode] at hanswer
      cases hanswer
  · -- an organisation over its limit goes on where another category, or none, is enforced
    intro hsome
    obtain ⟨limit,hlimit⟩ := Option.isSome_iff_exists.mp hsome
    by_contra hne
    let call : CheckedCall := { policy := p, dimension := .org, identifier := "org", time := 0, known := hp }
    obtain ⟨world,hworld,hcounted⟩ := counted_again call rfl (limit + 1)
    have hexceeded : ((limit + 1 + 1 : Nat) : Int) > scaled {} limit := by
      have hscaled : scaled {} limit = max 1 (limit : Int) := rfl
      rw [hscaled]
      omega
    rw [show call.policy.category = d.category from hcategory] at hcounted
    have hrefused := h.org limit hlimit {} {} { orgId := "org" } world _ _ rfl hcounted hexceeded
    cases hlimits : endpoint.limits with
    | none =>
      rw [Endpoint.enforce,hlimits] at hrefused
      cases hrefused
    | some category =>
      cases hfound : getPolicyByCategory category with
      | none =>
        rw [Endpoint.enforce,hlimits] at hrefused
        dsimp only at hrefused
        rw [enforceAuthenticatedLimits,hfound] at hrefused
        cases hrefused
      | some q =>
        have hq : q ∈ rateLimitPolicies := List.mem_of_find?_eq_some hfound
        have hq' : q.category = category := by
          have htest := List.find?_some hfound
          exact of_decide_eq_true htest
        have hother : ∀ other ∈ List.replicate (limit + 1) call, other.policy.category ≠ q.category := by
          intro other hin heq
          rw [List.eq_of_mem_replicate hin] at heq
          exact hne (by rw [hlimits,← hq',← heq,← hcategory])
        rw [enforce_fresh hq (by rw [hlimits,hq']) hworld hother] at hrefused
        cases hrefused
  · intro hsome
    obtain ⟨limit,hlimit⟩ := Option.isSome_iff_exists.mp hsome
    obtain ⟨id,hid,-⟩ := h.session limit hlimit
    rw [hid]
    rfl

end rows

/-- Requests are resolved to the most specific policy, and policies are returned, exactly but for
the searches in a memory; and what is documented for the category of a request applies to it
exactly if it can be enforced. -/
theorem resolution_exact (method path : String) :
    (ResolutionLaw method path ↔ ¬MemorySearch method path) ∧
    (∀ p ∈ rateLimitPolicies, (∃ m q, resolvePolicy m q = some p) ↔ p.category ≠ "memory_search") ∧
    ∀ endpoint ∈ endpoints, endpoint.takes path = true →
      (DocumentedLaw endpoint path ↔ ∀ d ∈ documentedCategories,
        InCategory d.category endpoint.method path → Enforceable d endpoint path) := by
  refine ⟨resolutionLaw_iff,fun p hp => returned_iff hp,fun endpoint he hpath => ?_⟩
  constructor
  · exact fun law d hd hin => (law d hd hin).enforceable he hpath hd hin
  · exact fun h d hd hin => (h d hd hin).applies he hpath hd hin

/-- The replay of a session is limited as documented. -/
example : Applies { category := "replay", ipSustained := 30, ipBurst := 10, orgSustained := some 100, failMode := .closed,
                    sessionSustained := some 15 }
    { method := "GET", template := "/api/v1/sessions/{session_id}/replay", limits := some "replay" }
    "/api/v1/sessions/00000000-0000-0000-0000-000000000000/replay" := by
  have hin : InCategory "replay" "GET" "/api/v1/sessions/00000000-0000-0000-0000-000000000000/replay" := by
    unfold InCategory
    decide +kernel
  have hfits : Enforceable { category := "replay", ipSustained := 30, ipBurst := 10, orgSustained := some 100,
                             failMode := .closed, sessionSustained := some 15 }
      { method := "GET", template := "/api/v1/sessions/{session_id}/replay", limits := some "replay" }
      "/api/v1/sessions/00000000-0000-0000-0000-000000000000/replay" :=
    ⟨by decide,rfl,fun _ => rfl,fun _ => by decide +kernel⟩
  exact hfits.applies (by decide +kernel) (by decide +kernel) (by decide) hin

end VoxForge.RateLimit
