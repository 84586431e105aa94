import VoxForge.Core.Text
import VoxForge.Foundation.Dict

/-! The rate limiter: policies by category, counters in Redis, and the three places that
enforce them. -/
namespace VoxForge.RateLimit
open Foundation Core

inductive FailMode where
  | open | closed
  deriving DecidableEq, Repr

inductive Dimension where
  | ip | user | org | apiKey | session
  deriving DecidableEq, Repr

def Dimension.value : Dimension → String
  | ip => "ip"
  | user => "user"
  | org => "org"
  | apiKey => "api_key"
  | session => "session"

/-- A pattern `^before[^/]+after$`. -/
structure PathPattern where
  before : String
  after : String
  deriving DecidableEq, Repr

def PathPattern.fits (pattern : PathPattern) (path : List Char) : Bool :=
  let outer := pattern.before.length + pattern.after.length
  let segment := (path.drop pattern.before.length).take (path.length - outer)
  outer < path.length && pattern.before.toList.isPrefixOf path && pattern.after.toList.isSuffixOf path &&
    '/' ∉ segment

/-- `search`; the end of the pattern also matches before a last line break. -/
def PathPattern.search (pattern : PathPattern) (path : String) : Bool :=
  pattern.fits path.toList || (path.toList.getLast? = some '\n' && pattern.fits path.toList.dropLast)

structure RateLimitPolicy where
  category : String
  pathPrefixes : List String := []
  pathRegex : Option PathPattern := none
  methods : Option (List String) := none
  sustainedPerMinute : Nat := 60
  burstPer10Seconds : Nat := 10
  failMode : FailMode := .open
  orgSustainedPerMinute : Option Nat := none
  orgBurstPer10Seconds : Option Nat := none
  sessionSustainedPerMinute : Option Nat := none
  sessionBurstPer10Seconds : Option Nat := none
  deriving DecidableEq, Repr

def startsWith (path start : String) : Bool := start.toList.isPrefixOf path.toList

def upper (method : String) : String := String.ofList (method.toList.map Char.toUpper)

def RateLimitPolicy.matches (policy : RateLimitPolicy) (method path : String) : Bool :=
  if policy.methods.any fun methods => upper method ∉ methods then false
  else policy.pathRegex.any (·.search path) || policy.pathPrefixes.any (startsWith path)

/-- Ordered: the first match wins. -/
def rateLimitPolicies : List RateLimitPolicy := [
  { category := "auth_login"
    pathPrefixes := ["/api/v1/auth/login","/api/v1/auth/register","/api/v1/auth/refresh"]
    methods := some ["POST"]
    sustainedPerMinute := 20
    burstPer10Seconds := 5
    failMode := .closed },
  { category := "auth"
    pathPrefixes := ["/api/v1/auth"]
    sustainedPerMinute := 40
    burstPer10Seconds := 10
    failMode := .closed },
  { category := "demo"
    pathPrefixes := ["/api/v1/demo"]
    sustainedPerMinute := 120
    burstPer10Seconds := 30
    failMode := .closed },
  { category := "api_keys"
    pathPrefixes := ["/api/v1/api-keys"]
    methods := some ["POST"]
    sustainedPerMinute := 10
    burstPer10Seconds := 3
    failMode := .closed
    orgSustainedPerMinute := some 20
    orgBurstPer10Seconds := some 5 },
  { category := "sessions_create"
    pathPrefixes := ["/api/v1/sessions"]
    methods := some ["POST"]
    sustainedPerMinute := 30
    burstPer10Seconds := 5
    failMode := .closed
    orgSustainedPerMinute := some 100
    orgBurstPer10Seconds := some 20 },
  { category := "voice_ws"
    pathPrefixes := ["/api/v1/ws/voice"]
    sustainedPerMinute := 20
    burstPer10Seconds := 5
    failMode := .closed
    orgSustainedPerMinute := some 60
    orgBurstPer10Seconds := some 15 },
  { category := "livekit"
    pathPrefixes := ["/api/v1/livekit"]
    methods := some ["POST"]
    sustainedPerMinute := 30
    burstPer10Seconds := 5
    failMode := .closed
    orgSustainedPerMinute := some 80
    orgBurstPer10Seconds := some 15
    sessionSustainedPerMinute := some 20
    sessionBurstPer10Seconds := some 5 },
  { category := "knowledge_upload"
    pathRegex := some ⟨"/api/v1/knowledge/collections/","/documents"⟩
    methods := some ["POST"]
    sustainedPerMinute := 10
    burstPer10Seconds := 2
    failMode := .closed
    orgSustainedPerMinute := some 30
    orgBurstPer10Seconds := some 5 },
  { category := "knowledge_reindex"
    pathRegex := some ⟨"/api/v1/knowledge/documents/","/reindex"⟩
    methods := some ["POST"]
    sustainedPerMinute := 5
    burstPer10Seconds := 2
    failMode := .closed
    orgSustainedPerMinute := some 20
    orgBurstPer10Seconds := some 5 },
  { category := "knowledge_search"
    pathPrefixes := ["/api/v1/knowledge/search"]
    methods := some ["POST"]
    sustainedPerMinute := 60
    burstPer10Seconds := 15
    failMode := .open
    orgSustainedPerMinute := some 200
    orgBurstPer10Seconds := some 40 },
  { category := "knowledge_collections"
    pathPrefixes := ["/api/v1/knowledge/collections"]
    methods := some ["POST"]
    sustainedPerMinute := 20
    burstPer10Seconds := 5
    failMode := .closed
    orgSustainedPerMinute := some 50
    orgBurstPer10Seconds := some 10 },
  { category := "memory_search"
    pathRegex := some ⟨"/api/v1/sessions/","/memory/search"⟩
    methods := some ["POST"]
    sustainedPerMinute := 60
    burstPer10Seconds := 15
    failMode := .open
    orgSustainedPerMinute := some 200
    orgBurstPer10Seconds := some 40 },
  { category := "replay"
    pathRegex := some ⟨"/api/v1/sessions/","/replay"⟩
    methods := some ["GET"]
    sustainedPerMinute := 30
    burstPer10Seconds := 10
    failMode := .closed
    orgSustainedPerMinute := some 100
    orgBurstPer10Seconds := some 25
    sessionSustainedPerMinute := some 15
    sessionBurstPer10Seconds := some 5 },
  { category := "onboarding_sample"
    pathPrefixes := ["/api/v1/onboarding/run-sample-call"]
    methods := some ["POST"]
    sustainedPerMinute := 5
    burstPer10Seconds := 2
    failMode := .closed
    orgSustainedPerMinute := some 15
    orgBurstPer10Seconds := some 3 },
  { category := "onboarding"
    pathPrefixes := ["/api/v1/onboarding"]
    sustainedPerMinute := 30
    burstPer10Seconds := 8
    failMode := .closed
    orgSustainedPerMinute := some 60
    orgBurstPer10Seconds := some 15 },
  { category := "dashboard"
    pathPrefixes := ["/api/v1/dashboard"]
    methods := some ["GET"]
    sustainedPerMinute := 120
    burstPer10Seconds := 30
    failMode := .open
    orgSustainedPerMinute := some 300
    orgBurstPer10Seconds := some 60 },
  { category := "sessions"
    pathPrefixes := ["/api/v1/sessions"]
    sustainedPerMinute := 120
    burstPer10Seconds := 30
    failMode := .open
    orgSustainedPerMinute := some 300
    orgBurstPer10Seconds := some 60
    sessionSustainedPerMinute := some 60
    sessionBurstPer10Seconds := some 15 },
  { category := "api_default"
    pathPrefixes := ["/api/v1/"]
    sustainedPerMinute := 120
    burstPer10Seconds := 30
    failMode := .open
    orgSustainedPerMinute := some 500
    orgBurstPer10Seconds := some 100 }]

def exemptPaths : List String :=
  ["/api/v1/health","/api/v1/ready","/api/v1/metrics","/api/v1/docs","/api/v1/redoc","/api/v1/openapi.json"]

def resolvePolicy (method path : String) : Option RateLimitPolicy :=
  if path ∈ exemptPaths then none
  else if !startsWith path "/api/v1" then none
  else rateLimitPolicies.find? (·.matches method path)

/-- `none` stands for the `KeyError` of an unknown category. -/
def getPolicyByCategory (category : String) : Option RateLimitPolicy :=
  rateLimitPolicies.find? (·.category = category)

/-- `scale limit` is the limit times `rate_limit_multiplier`, a float, cut to an integer. -/
structure Settings where
  rateLimitEnabled : Bool := true
  scale : Nat → Int := fun limit => limit
  rateLimitFailClosedCategories : String :=
    "auth,auth_login,demo,sessions_create,voice_ws,livekit," ++
    "knowledge_upload,knowledge_reindex,knowledge_collections," ++
    "replay,onboarding_sample,onboarding,api_keys"

def Settings.failClosedCategories (settings : Settings) : List String :=
  ((settings.rateLimitFailClosedCategories.toList.splitOn ',').map fun c => strip (String.ofList c)).filter (· ≠ "")

structure RateLimitResult where
  allowed : Bool
  blocked : Bool := false
  redisError : Bool := false
  dimension : Dimension := .ip
  category : String := ""
  deriving DecidableEq, Repr

/-- How Redis and the clock behave from call to call of the client. -/
structure Server where
  initialized : Bool := true
  raises : Nat → Bool := fun _ => false
  time : Nat → Nat := fun _ => 0

structure Metrics where
  rateLimitAllowed : List (String × Dimension) := []
  rateLimitBlocked : List (String × Dimension) := []
  rateLimitRedisErrors : List (String × FailMode) := []
  deriving DecidableEq, Repr

/-- The counters, the calls made so far, and what was recorded. -/
structure World where
  counts : Dict String Nat := Dict.empty
  calls : Nat := 0
  metrics : Metrics := {}

namespace World

def allowed (world : World) (labels : String × Dimension) : World :=
  { world with metrics.rateLimitAllowed := world.metrics.rateLimitAllowed ++ [labels] }

def blocked (world : World) (labels : String × Dimension) : World :=
  { world with metrics.rateLimitBlocked := world.metrics.rateLimitBlocked ++ [labels] }

def redisError (world : World) (labels : String × FailMode) : World :=
  { world with metrics.rateLimitRedisErrors := world.metrics.rateLimitRedisErrors ++ [labels] }

end World

section limiter
variable (settings : Settings) (server : Server)

def incr (key : String) (world : World) : Option Nat × World :=
  let after := { world with calls := world.calls + 1 }
  if server.raises world.calls then (none,after)
  else
    let count := (world.counts.get? key).getD 0 + 1
    (some count,{ after with counts := world.counts.set key count })

/-- A key names its window, so it is not read again after it expires. -/
def expire (world : World) : Option Unit × World :=
  (if server.raises world.calls then none else some (),{ world with calls := world.calls + 1 })

/-- Count a request in one window. -/
def count (key : String) (world : World) : Option Nat × World :=
  match incr server key world with
  | (none,world) => (none,world)
  | (some n,world) =>
    if n = 1 then
      match expire server world with
      | (none,world) => (none,world)
      | (some _,world) => (some n,world)
    else (some n,world)

/-- The burst and the sustained count of a request, or `none` where Redis raises. -/
def counted (category : String) (dimension : Dimension) (identifier : String) (world : World) :
    Option (Nat × Nat) × World :=
  if !server.initialized then (none,world)
  else
    let now := server.time world.calls
    let key (window : String) (bucket : Nat) :=
      "ratelimit:" ++ window ++ ":" ++ dimension.value ++ ":" ++ identifier ++ ":" ++ category ++ ":" ++
        toString bucket
    match count server (key "burst" (now / 10)) world with
    | (none,world) => (none,world)
    | (some burstCount,world) =>
      match count server (key "sustained" (now / 60)) world with
      | (none,world) => (none,world)
      | (some sustainedCount,world) => (some (burstCount,sustainedCount),world)

def scaled (limit : Nat) : Int := max 1 (settings.scale limit)

def effectiveFailMode (policy : RateLimitPolicy) : FailMode :=
  if policy.category ∈ settings.failClosedCategories then .closed else policy.failMode

def check (policy : RateLimitPolicy) (dimension : Dimension) (identifier : String)
    (sustainedLimit burstLimit : Nat) (world : World) : RateLimitResult × World :=
  if !settings.rateLimitEnabled then
    ({ allowed := true, category := policy.category, dimension },world)
  else
    let failMode := effectiveFailMode settings policy
    match counted server policy.category dimension identifier world with
    | (some (burstCount,sustainedCount),world) =>
      if burstCount > scaled settings burstLimit ∨ sustainedCount > scaled settings sustainedLimit then
        ({ allowed := false, blocked := true, category := policy.category, dimension },
          world.blocked (policy.category,dimension))
      else
        ({ allowed := true, category := policy.category, dimension },
          world.allowed (policy.category,dimension))
    | (none,world) =>
      ({ allowed := failMode = .open, redisError := true, category := policy.category, dimension },
        world.redisError (policy.category,failMode))

def checkIp (policy : RateLimitPolicy) (clientIp : String) (world : World) : RateLimitResult × World :=
  check settings server policy .ip clientIp policy.sustainedPerMinute policy.burstPer10Seconds world

/-- `a or b`, where `a` may be missing or zero. -/
def orDefault (limit : Option Nat) (other : Nat) : Nat := (limit.filter (· ≠ 0)).getD other

def checkOrg (policy : RateLimitPolicy) (orgId : String) (world : World) : Option RateLimitResult × World :=
  match policy.orgSustainedPerMinute with
  | none => (none,world)
  | some sustained =>
    let (result,world) := check settings server policy .org orgId sustained
      (orDefault policy.orgBurstPer10Seconds policy.burstPer10Seconds) world
    (some result,world)

def checkSession (policy : RateLimitPolicy) (sessionId : String) (world : World) :
    Option RateLimitResult × World :=
  match policy.sessionSustainedPerMinute with
  | none => (none,world)
  | some sustained =>
    let (result,world) := check settings server policy .session sessionId sustained
      (orDefault policy.sessionBurstPer10Seconds policy.burstPer10Seconds) world
    (some result,world)

/-- The check of a user or an API key, against the limits of the organisation. -/
def checkCaller (policy : RateLimitPolicy) (dimension : Dimension) (identifier : String) (world : World) :
    Option RateLimitResult × World :=
  let (result,world) := check settings server policy dimension identifier
    (orDefault policy.orgSustainedPerMinute policy.sustainedPerMinute)
    (orDefault policy.orgBurstPer10Seconds policy.burstPer10Seconds) world
  (some result,world)

/-- The check of an id that the request may not have. -/
def checkPresent (id : Option String) (checked : String → World → Option RateLimitResult × World)
    (world : World) : Option RateLimitResult × World :=
  match id with
  | none => (none,world)
  | some id => checked id world

structure HttpException where
  statusCode : Nat
  detail : String
  deriving DecidableEq, Repr

def exceededResponse : HttpException := ⟨429,"Rate limit exceeded. Try again shortly."⟩

def unavailableResponse : HttpException := ⟨503,"Rate limiting temporarily unavailable. Try again shortly."⟩

def raiseOrResponse (result : RateLimitResult) : Except HttpException Unit :=
  if result.blocked then .error exceededResponse
  else if result.redisError then .error unavailableResponse
  else .ok ()

/-- Go on with the next check unless the result of this one raises. -/
def proceed (checked : Option RateLimitResult × World) (next : World → Except HttpException Unit × World) :
    Except HttpException Unit × World :=
  match checked.1 with
  | none => next checked.2
  | some result =>
    match raiseOrResponse result with
    | .error e => (.error e,checked.2)
    | .ok () => next checked.2

def isSessionIdChar (c : Char) : Bool :=
  ('0' ≤ c && c ≤ '9') || ('a' ≤ c && c ≤ 'f') || ('A' ≤ c && c ≤ 'F') || c = '-'

/-- The 36 characters after the first part of the path that names a session. -/
def extractSessionId (path : String) : Option String :=
  path.toList.tails.findSome? fun rest =>
    ["/api/v1/sessions/","/api/v1/livekit/sessions/"].findSome? fun start =>
      let id := (rest.drop start.length).take 36
      if start.toList.isPrefixOf rest && id.length = 36 && id.all isSessionIdChar then some (String.ofList id)
      else none

def truthy (id : Option String) : Option String := id.filter (· ≠ "")

/-- `none` stands for the `KeyError` of an unknown category. -/
def enforceAuthenticatedLimits (path category orgId : String) (userId apiKeyId : Option String) (world : World) :
    Option (Except HttpException Unit × World) :=
  if !settings.rateLimitEnabled then some (.ok (),world)
  else (getPolicyByCategory category).map fun policy =>
    proceed (checkOrg settings server policy orgId world) fun world =>
    proceed (checkPresent (extractSessionId path) (checkSession settings server policy) world) fun world =>
    proceed (checkPresent (truthy userId) (checkCaller settings server policy .user) world) fun world =>
    proceed (checkPresent (truthy apiKeyId) (checkCaller settings server policy .apiKey) world) fun world =>
    (.ok (),world)

structure Request where
  method : String
  path : String
  forwardedFor : Option String := none
  clientHost : Option String := none
  deriving DecidableEq, Repr

def getClientIp (request : Request) : String :=
  match truthy request.forwardedFor with
  | some forwarded => strip (String.ofList ((forwarded.toList.splitOn ',').headD []))
  | none => request.clientHost.getD "unknown"

/-- `none` stands for the `KeyError` of an unknown category. -/
def enforceWsConnectLimit (socket : Request) (orgId : Option String) (world : World) :
    Option (RateLimitResult × World) :=
  (getPolicyByCategory "voice_ws").map fun policy =>
    let (ipResult,world) := checkIp settings server policy (getClientIp socket) world
    if !ipResult.allowed then (ipResult,world)
    else
      match truthy orgId with
      | none => ({ allowed := true, category := policy.category },world)
      | some orgId =>
        match checkOrg settings server policy orgId world with
        | (some orgResult,world) =>
          if !orgResult.allowed then (orgResult,world)
          else ({ allowed := true, category := policy.category },world)
        | (none,world) => ({ allowed := true, category := policy.category },world)

/-- `RateLimitMiddleware.dispatch`, up to the call of the route. -/
def dispatch (request : Request) (world : World) : Except HttpException Unit × World :=
  if !settings.rateLimitEnabled then (.ok (),world)
  else
    match resolvePolicy request.method request.path with
    | none => (.ok (),world)
    | some policy =>
      let (result,world) := checkIp settings server policy (getClientIp request) world
      if result.blocked then (.error exceededResponse,world)
      else if result.redisError then (.error unavailableResponse,world)
      else (.ok (),world)

end limiter

end VoxForge.RateLimit
