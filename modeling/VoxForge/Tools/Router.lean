import VoxForge.Tools.Registry

/-! The router that executes a tool by name: the scope check against the merged
definitions, then the body that the handler table or the MCP registry yields. -/
namespace VoxForge.Tools
open Foundation Core

/-- What runs when a name is executed: an in-process handler, or a tool of an MCP
server together with the definition the registry holds for it. -/
inductive Body where
  | handler (tool : Handler)
  | mcp (definition : ToolDefinition) (server : ServerConfig)

def Body.requiredScopes : Body → List Scope
  | .handler tool => tool.scopes
  | .mcp definition _ => definition.requiredScopes

/-- The server that an invocation of `name` reaches, or why there is none. -/
def MCPRuntimeRegistry.route (reg : MCPRuntimeRegistry) (name : String) :
    Except ToolResult ServerConfig :=
  let failed (error : String) : ToolResult :=
    { toolName := name, output := "", status := .error, error := some error }
  match reg.toolServerMap.get? name with
  | none => .error (failed ("MCP tool '" ++ name ++ "' not found in registry"))
  | some serverId =>
    match reg.servers.find? (·.serverId = some serverId) with
    | none => .error (failed ("MCP server '" ++ serverId ++ "' not found"))
    | some server =>
      if (reg.serverRecords.get? serverId).any (·.status = .offline) then
        .error (failed ("MCP server '" ++ serverId ++ "' is offline"))
      else .ok server

theorem MCPRuntimeRegistry.route_error_status (reg : MCPRuntimeRegistry) {name : String}
    {result : ToolResult} (h : reg.route name = .error result) : result.status = .error := by
  unfold MCPRuntimeRegistry.route at h
  dsimp only at h
  split at h
  · cases h; rfl
  · split at h
    · cases h; rfl
    · split_ifs at h
      cases h; rfl

structure ToolCallRecord where
  toolName : String
  arguments : Arguments
  result : String
  status : ToolCallStatus
  error : Option String
  deriving DecidableEq, Repr

structure ToolRouter where
  registry : ToolRegistry
  /-- The client that calls a tool of an MCP server, cut off at the tool time limit. -/
  invocation : ServerConfig → String → Arguments → Except Fault ToolResult
  repository : Bool := true

/-- The answer to a call, the body that ran for it and the audit record it left. -/
structure Execution where
  result : ToolResult
  ran : Option Body := none
  recorded : Option ToolCallRecord := none

namespace ToolRouter

def checkRequiredScopes (router : ToolRouter) (toolName : String) (callerScopes : List Scope) :
    Option String :=
  let definitions := Dict.empty.setAll (·.name) id router.registry.listDefinitions
  match definitions.get? toolName with
  | none => none
  | some definition =>
    let missing := definition.requiredScopes.filter (· ∉ callerScopes)
    if missing = [] then none
    else some ("Missing required scope(s) for tool '" ++ toolName ++ "': " ++ ", ".intercalate missing)

/-- The body that is run, with its answer. A handler's text becomes a successful result. -/
def invoke (router : ToolRouter) (toolName : String) (arguments : Arguments) :
    Option Body × Except Fault ToolResult :=
  match router.registry.mcpRegistry.bind (fun mcp => (mcp.getTool toolName).map (mcp,·)) with
  | some (mcp,definition) =>
    match mcp.route toolName with
    | .error result => (none,.ok result)
    | .ok server => (some (.mcp definition server),router.invocation server toolName arguments)
  | none =>
    match router.registry.getHandler toolName with
    | none => (none,.error (.raised ("Unknown tool: " ++ toolName)))
    | some tool =>
      (some (.handler tool),(tool.invoke arguments).map fun output => { toolName, output })

def settle (toolName : String) : Except Fault ToolResult → ToolResult
  | .ok result => { result with toolName }
  | .error .timeout =>
    { toolName, output := "", status := .timeout, error := some ("Tool '" ++ toolName ++ "' timed out") }
  | .error (.raised message) => { toolName, output := "", status := .error, error := some message }

/-- A call made without scopes (`None`) is a call with none. -/
def execute (router : ToolRouter) (toolName : String) (arguments : Arguments)
    (callerScopes : Option (List Scope)) : Execution :=
  match router.checkRequiredScopes toolName (callerScopes.getD []) with
  | some error => { result := { toolName, output := "", status := .error, error := some error } }
  | none =>
    let (ran,answer) := router.invoke toolName arguments
    let result := settle toolName answer
    { result, ran
      recorded := if router.repository then
        some { toolName, arguments, result := result.output, status := result.status, error := result.error }
        else none }

/-- The body that a name stands for in the tables that execution reads. -/
def body? (router : ToolRouter) (toolName : String) : Option Body :=
  match router.registry.mcpRegistry.bind (·.getTool toolName) with
  | some definition =>
    (router.registry.mcpRegistry.bind fun mcp => (mcp.route toolName).toOption).map (.mcp definition)
  | none => (router.registry.getHandler toolName).map .handler

theorem invoke_fst (router : ToolRouter) (toolName : String) (arguments : Arguments) :
    (router.invoke toolName arguments).1 = router.body? toolName := by
  unfold invoke body?
  cases router.registry.mcpRegistry with
  | none => cases router.registry.getHandler toolName <;> rfl
  | some mcp =>
    cases h : mcp.getTool toolName with
    | none => cases router.registry.getHandler toolName <;> simp [h]
    | some definition => cases hr : mcp.route toolName <;> simp [h,hr,Except.toOption]

/-- A call that reaches no body answers with an error. -/
theorem invoke_none (router : ToolRouter) (toolName : String) (arguments : Arguments)
    (h : router.body? toolName = none) :
    (settle toolName (router.invoke toolName arguments).2).status = .error := by
  rw [← invoke_fst router toolName arguments] at h
  unfold invoke at h ⊢
  cases hm : router.registry.mcpRegistry.bind fun mcp => (mcp.getTool toolName).map (mcp,·) with
  | none =>
    cases hh : router.registry.getHandler toolName with
    | none => rfl
    | some tool => simp [hm,hh] at h
  | some found =>
    obtain ⟨mcp,definition⟩ := found
    cases hr : mcp.route toolName with
    | ok server => simp [hm,hr] at h
    | error result =>
      have hs := mcp.route_error_status hr
      simp only [hr,settle,hs]

/-- The check and the execution of one call, as one case analysis. -/
theorem execute_cases (router : ToolRouter) (toolName : String) (arguments : Arguments)
    (callerScopes : Option (List Scope)) :
    (router.checkRequiredScopes toolName (callerScopes.getD []) ≠ none ∧
      (router.execute toolName arguments callerScopes).ran = none ∧
      (router.execute toolName arguments callerScopes).result.status = .error) ∨
    (router.checkRequiredScopes toolName (callerScopes.getD []) = none ∧
      (router.execute toolName arguments callerScopes).ran = router.body? toolName ∧
      (router.body? toolName = none →
        (router.execute toolName arguments callerScopes).result.status = .error)) := by
  unfold execute
  cases hc : router.checkRequiredScopes toolName (callerScopes.getD []) with
  | some error => exact .inl ⟨by simp,rfl,rfl⟩
  | none =>
    refine .inr ⟨rfl,invoke_fst router toolName arguments,fun h => ?_⟩
    exact invoke_none router toolName arguments h

end ToolRouter
end VoxForge.Tools
