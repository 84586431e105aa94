import VoxForge.RateLimit.Limiter

/-! The routes under `/api/v1`, and the category whose limits each of them enforces after
authentication. -/
namespace VoxForge.RateLimit

/-- A route; `limits` is the category of its `rate_limit_category` (or `_optional`) dependency, if
it has one. -/
structure Endpoint where
  method : String
  template : String
  limits : Option String := none
  webSocket : Bool := false
  deriving DecidableEq, Repr

/-- A part in braces takes any part that is not empty, another one just itself. -/
def takesPart (template part : List Char) : Bool :=
  if template.head? = some '\x7b' then !part.isEmpty else part = template

def Endpoint.takes (endpoint : Endpoint) (path : String) : Bool :=
  let parts := path.toList.splitOn '/'
  let templates := endpoint.template.toList.splitOn '/'
  parts.length = templates.length && (templates.zip parts).all fun (template,part) => takesPart template part

def route (start : String) (methods : List (String × String × Option String)) : List Endpoint :=
  methods.map fun (method,path,limits) => { method, template := "/api/v1" ++ start ++ path, limits }

/-- In the order in which the routers are included. -/
def endpoints : List Endpoint :=
  route "" [("GET","/health",none),("GET","/ready",none),("GET","/metrics",none)] ++
  route "/auth" [("POST","/register",none),("POST","/login",none),("POST","/refresh",none),("POST","/logout",none),
    ("POST","/invites/accept",none),("GET","/me",none)] ++
  route "/orgs" [("POST","",none),("GET","",none),("GET","/{org_id}",none),("GET","/{org_id}/members",none),
    ("POST","/{org_id}/members",none),("POST","/{org_id}/invites",none),("GET","/{org_id}/audit-logs",none),
    ("GET","/{org_id}/audit-logs/export",none)] ++
  route "/api-keys" [("POST","",some "api_keys"),("GET","",none),("DELETE","/{key_id}",none)] ++
  route "/sessions" [("POST","",some "sessions_create"),("GET","/{session_id}",none),
    ("POST","/{session_id}/handoff",none),("GET","/{session_id}/messages",none),("DELETE","/{session_id}",none),
    ("GET","/{session_id}/replay",some "replay")] ++
  route "/orgs/{org_id}/sso/saml" [("GET","",none),("POST","",none),("PATCH","/{connection_id}",none),
    ("DELETE","/{connection_id}",none),("GET","/{connection_id}/metadata",none),
    ("GET","/{connection_id}/login",none),("POST","/acs",none)] ++
  route "/livekit" [("POST","/sessions/{session_id}/token",some "livekit")] ++
  route "/sessions" [("GET","/{session_id}/memory",none),
    ("POST","/{session_id}/memory/search",some "memory_search")] ++
  route "/knowledge" [("POST","/collections",some "knowledge_collections"),("GET","/collections",none),
    ("GET","/documents",none),("GET","/collections/{collection_id}/documents",none),
    ("DELETE","/collections/{collection_id}",some "knowledge_collections"),
    ("DELETE","/documents/{document_id}",some "knowledge_collections"),
    ("POST","/collections/{collection_id}/documents",some "knowledge_upload"),("GET","/documents/{document_id}",none),
    ("GET","/documents/{document_id}/jobs",none),("POST","/documents/{document_id}/reindex",some "knowledge_reindex"),
    ("POST","/search",some "knowledge_search")] ++
  route "/handoffs" [("GET","",none),("GET","/{handoff_id}",none),("GET","/{handoff_id}/context",none),
    ("POST","/{handoff_id}/accept",none),("POST","/{handoff_id}/complete",none),("POST","/{handoff_id}/cancel",none)] ++
  route "/onboarding" [("POST","/start",none),("POST","/connect-token",none),
    ("POST","/run-sample-call",some "onboarding_sample"),("GET","/status",none)] ++
  route "/templates" [("GET","/support/default",none)] ++
  route "/agent-configs" [("GET","/presets",none),("POST","/presets/{preset_slug}/apply",none),("GET","",none),
    ("GET","/active",none),("POST","",none),("POST","/rollback",none)] ++
  route "/tools" [("GET","",none),("GET","/mcp/health",none),("GET","/mcp/servers",none)] ++
  route "/sessions" [("GET","/{session_id}/tool-calls",none),("GET","/{session_id}/evaluations",none)] ++
  route "/evaluations" [("GET","/{run_id}",none)] ++
  route "/dashboard" [("GET","/overview",some "dashboard"),("GET","/sessions",some "dashboard"),
    ("GET","/latency",some "dashboard"),("GET","/evaluations",some "dashboard"),("GET","/activity",some "dashboard"),
    ("GET","/outcomes",some "dashboard"),("GET","/alerts",some "dashboard")] ++
  route "/demo" [("GET","/info",none),("POST","/quickstart",none),("POST","/speak",none),("POST","/hear",none),
    ("POST","/chat",none),("POST","/voice",none),("POST","/trust-loop",none)] ++
  [{ method := "GET", template := "/api/v1/ws/voice", limits := some "voice_ws", webSocket := true }]

/-- Whom a request is authenticated as. -/
structure Caller where
  orgId : String
  userId : Option String := none
  apiKeyId : Option String := none
  deriving DecidableEq, Repr

/-- The limits that a route enforces for an authenticated caller; a socket does so at its start
message. -/
def Endpoint.enforce (settings : Settings) (server : Server) (endpoint : Endpoint) (path : String) (caller : Caller)
    (world : World) : Option (Except HttpException Unit × World) :=
  match endpoint.limits with
  | none => some (.ok (),world)
  | some category => enforceAuthenticatedLimits settings server path category caller.orgId caller.userId caller.apiKeyId world

theorem parts_eq {templates parts : List (List Char)} (hlength : parts.length = templates.length)
    (hparts : ((templates.zip parts).all fun (template,part) => takesPart template part) = true)
    (hplain : ∀ template ∈ templates, template.head? ≠ some '\x7b') : parts = templates := by
  induction templates generalizing parts with
  | nil => exact List.length_eq_zero_iff.mp hlength
  | cons template templates ih =>
    obtain ⟨part,parts,rfl⟩ := List.exists_cons_of_length_eq_add_one hlength
    rw [List.zip_cons_cons,List.all_cons,Bool.and_eq_true] at hparts
    obtain ⟨hfirst,hrest⟩ := hparts
    have hpart : takesPart template part = true := hfirst
    rw [takesPart,if_neg (hplain template List.mem_cons_self),decide_eq_true_eq] at hpart
    rw [hpart,ih (Nat.succ.inj hlength) hrest fun t ht => hplain t (List.mem_cons_of_mem template ht)]

/-- A route without parts in braces has one path. -/
theorem Endpoint.takes_eq {endpoint : Endpoint} {path : String} (h : endpoint.takes path = true)
    (hplain : ∀ template ∈ endpoint.template.toList.splitOn '/', template.head? ≠ some '\x7b') :
    path = endpoint.template := by
  unfold Endpoint.takes at h
  rw [Bool.and_eq_true,decide_eq_true_eq] at h
  have hparts := parts_eq h.1 h.2 hplain
  have hpath : ['/'].intercalate (path.toList.splitOn '/') = path.toList := List.intercalate_splitOn '/'
  rw [hparts,List.intercalate_splitOn] at hpath
  exact (String.toList_injective hpath).symm

theorem webSocket_path {endpoint : Endpoint} (h : endpoint ∈ endpoints) (hsocket : endpoint.webSocket = true)
    {path : String} (hpath : endpoint.takes path = true) : endpoint.method = "GET" ∧ path = "/api/v1/ws/voice" := by
  have hall : (endpoints.all fun e => !e.webSocket || (e.method = "GET" && e.template = "/api/v1/ws/voice")) = true := by
    decide +kernel
  have hrow := List.all_eq_true.mp hall endpoint h
  simp only [hsocket,Bool.not_true,Bool.false_or,Bool.and_eq_true,decide_eq_true_eq] at hrow
  refine ⟨hrow.1,hrow.2 ▸ Endpoint.takes_eq hpath ?_⟩
  rw [hrow.2]
  decide +kernel

end VoxForge.RateLimit
