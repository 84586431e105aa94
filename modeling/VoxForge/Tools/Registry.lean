import VoxForge.Core.Auth
import VoxForge.Core.Text
import VoxForge.Foundation.Dict

/-! The two tables a tool name is looked up in: the in-process handlers and the
runtime registry of MCP servers, with the operations that fill them. -/
namespace VoxForge.Tools
open Foundation Core

abbrev Arguments := String

inductive ToolCallStatus where
  | success | error | timeout
  deriving DecidableEq, Repr

structure ToolResult where
  toolName : String
  output : String
  status : ToolCallStatus := .success
  error : Option String := none
  deriving DecidableEq, Repr

structure ToolDefinition where
  name : String
  description : String
  source : String := "builtin"
  serverId : Option String := none
  version : Option String := none
  requiredScopes : List Scope := []
  deriving DecidableEq, Repr

/-- How a tool body can fail: past its time limit, or with an exception. -/
inductive Fault where
  | timeout
  | raised (message : String)
  deriving DecidableEq, Repr

/-- An in-process tool. The class attribute `required_scopes` may be absent. -/
structure Handler where
  name : String
  description : String
  requiredScopes : Option (List Scope) := none
  invoke : Arguments → Except Fault String

/-- `list(getattr(handler, "required_scopes", []) or [])`. -/
def Handler.scopes (handler : Handler) : List Scope := handler.requiredScopes.getD []

def Handler.definition (handler : Handler) : ToolDefinition where
  name := handler.name
  description := handler.description
  requiredScopes := handler.scopes

inductive MCPServerStatus where
  | healthy | degraded | offline | unknown
  deriving DecidableEq, Repr

structure MCPServerRecord where
  serverId : String
  name : String
  transport : String
  status : MCPServerStatus
  toolCount : Nat := 0
  discoverySource : String := "runtime"
  lastError : Option String := none
  deriving DecidableEq, Repr

/-- What a config has under a key: a string, or another JSON value, of which only the truth value
and `str` of it are read. -/
inductive ConfigValue where
  | str (text : String)
  | other (truthy : Bool) (text : String)
  deriving DecidableEq, Repr

instance : Coe String ConfigValue := ⟨.str⟩

def ConfigValue.truthy : ConfigValue → Bool
  | .str text => text ≠ ""
  | .other truthy _ => truthy

def ConfigValue.text : ConfigValue → String
  | .str text => text
  | .other _ text => text

/-- A server configuration, with the keys it has; `serverId` is its `_server_id` entry and `rest`
what the registry only compares (arguments, static tools, permissions). -/
structure ServerConfig where
  id : Option ConfigValue := none
  name : Option ConfigValue := none
  command : Option ConfigValue := none
  transport : Option ConfigValue := none
  serverId : Option String := none
  rest : List (String × String) := []
  deriving DecidableEq, Repr

/-- `isinstance(value, str) and value.strip()`, with the stripped text. -/
def strippedText : Option ConfigValue → Option String
  | some (.str text) => if strip text ≠ "" then some (strip text) else none
  | _ => none

def serverIdFor (server : ServerConfig) (index : Nat) : String :=
  let explicit := if server.id.any (·.truthy) then server.id else server.name
  let command := (server.command.map (·.text)).getD "server"
  (strippedText explicit).getD s!"{command}-{index}"

/-- pydantic's refusal of a record: the fields that are no strings. -/
structure ValidationError where
  fields : List String
  deriving DecidableEq, Repr

/-- The record of a server whose discovery failed; pydantic takes strings only. -/
def failedRecord (server : ServerConfig) (error : String) : Except ValidationError MCPServerRecord :=
  let serverId := server.serverId.getD ""
  match server.name.getD serverId,server.transport.getD "stdio" with
  | .str name,.str transport => .ok { serverId, name, transport, status := .offline, lastError := some error }
  | .str _,.other .. => .error ⟨["transport"]⟩
  | .other ..,.str _ => .error ⟨["name"]⟩
  | .other ..,.other .. => .error ⟨["name","transport"]⟩

structure MCPRuntimeRegistry where
  servers : List ServerConfig := []
  serverRecords : Dict String MCPServerRecord := .empty
  toolIndex : Dict String ToolDefinition := .empty
  toolServerMap : Dict String String := .empty
  internalDiscoveryTools : List ToolDefinition := []
  internalServer : Option MCPServerRecord := none

namespace MCPRuntimeRegistry

/-- The registry as its constructor leaves it, for the configured servers. -/
def init (configs : List ServerConfig) : MCPRuntimeRegistry where
  servers := configs.mapIdx fun index server =>
    { server with serverId := some (serverIdFor server index) }

def registerServerTools (reg : MCPRuntimeRegistry) (serverId : String)
    (tools : List ToolDefinition) (record : MCPServerRecord) : MCPRuntimeRegistry :=
  { reg with
    serverRecords := reg.serverRecords.set serverId record
    toolIndex := reg.toolIndex.setAll (·.name) id tools
    toolServerMap := reg.toolServerMap.setAll (·.name) (fun _ => serverId) tools }

def registerFailedServer (reg : MCPRuntimeRegistry) (server : ServerConfig) (error : String) :
    Except ValidationError MCPRuntimeRegistry := do
  let record ← failedRecord server error
  return { reg with serverRecords := reg.serverRecords.set (server.serverId.getD "") record }

/-- One server's discovery, and the next: a failure is recorded, and only an exception from
recording it ends the loop. -/
def discoverServers (discover : ServerConfig → Except String (List ToolDefinition × MCPServerRecord)) :
    List ServerConfig → MCPRuntimeRegistry → MCPRuntimeRegistry × Except ValidationError Unit
  | [],reg => (reg,.ok ())
  | server :: rest,reg =>
    match discover server with
    | .ok (tools,record) =>
      discoverServers discover rest (reg.registerServerTools (server.serverId.getD "") tools record)
    | .error message =>
      match reg.registerFailedServer server message with
      | .ok reg => discoverServers discover rest reg
      | .error e => (reg,.error e)

/-- Discovery over the configured servers: the registry it leaves, and whether it raises. -/
def discoverAll (reg : MCPRuntimeRegistry) (enabled : Bool)
    (discover : ServerConfig → Except String (List ToolDefinition × MCPServerRecord)) :
    MCPRuntimeRegistry × Except ValidationError Unit :=
  if !enabled || reg.servers.isEmpty then (reg,.ok ()) else discoverServers discover reg.servers reg

def registerServer (reg : MCPRuntimeRegistry) (config : ServerConfig)
    (tools : List ToolDefinition) (record : MCPServerRecord) : MCPRuntimeRegistry :=
  let serverId := (config.serverId.filter (· ≠ "")).getD (serverIdFor config reg.servers.length)
  let config := { config with serverId := some serverId }
  let reg := { reg with
    servers := if config ∈ reg.servers then reg.servers else reg.servers ++ [config] }
  reg.registerServerTools serverId tools record

def unregisterServer (reg : MCPRuntimeRegistry) (serverId : String) : MCPRuntimeRegistry :=
  if reg.internalServer.any (·.serverId = serverId) then
    { reg with internalServer := none, internalDiscoveryTools := [] }
  else
    let mapped (name : String) : Bool := reg.toolServerMap.get? name = some serverId
    { reg with
      servers := reg.servers.filter (·.serverId ≠ some serverId)
      serverRecords := reg.serverRecords.pop serverId
      toolIndex := reg.toolIndex.popWhere mapped
      toolServerMap := reg.toolServerMap.popWhere mapped }

/-- The discovery metadata of an in-process support tool. -/
def supportDefinition (tool : Handler) : ToolDefinition where
  name := tool.name
  description := tool.description
  source := "internal"
  serverId := some "voxforge-support"
  version := some "1.0.0"

def registerInternalSupportTools (reg : MCPRuntimeRegistry) (tools : List Handler) :
    MCPRuntimeRegistry :=
  { reg with
    internalDiscoveryTools := tools.map supportDefinition
    internalServer := some {
      serverId := "voxforge-support"
      name := "VoxForge Customer Support"
      transport := "internal"
      status := .healthy
      toolCount := tools.length
      discoverySource := "internal" } }

def listToolDefinitions (reg : MCPRuntimeRegistry) : List ToolDefinition :=
  reg.toolIndex.values ++ reg.internalDiscoveryTools

def getTool (reg : MCPRuntimeRegistry) (name : String) : Option ToolDefinition :=
  reg.toolIndex.get? name

def isMcpTool (reg : MCPRuntimeRegistry) (name : String) : Bool := (reg.toolIndex.get? name).isSome

/-- The operations that change the registry at run time. -/
inductive Op where
  | discoverAll (enabled : Bool)
      (discover : ServerConfig → Except String (List ToolDefinition × MCPServerRecord))
  | registerServer (config : ServerConfig) (tools : List ToolDefinition) (record : MCPServerRecord)
  | unregisterServer (serverId : String)
  | registerInternalSupportTools (tools : List Handler)

/-- What an operation leaves, whether or not it raises. -/
def apply (reg : MCPRuntimeRegistry) : Op → MCPRuntimeRegistry
  | .discoverAll enabled discover => (reg.discoverAll enabled discover).1
  | .registerServer config tools record => reg.registerServer config tools record
  | .unregisterServer serverId => reg.unregisterServer serverId
  | .registerInternalSupportTools tools => reg.registerInternalSupportTools tools

/-- The registry after its constructor and any run of operations. -/
def reached (configs : List ServerConfig) (ops : List Op) : MCPRuntimeRegistry :=
  ops.foldl apply (init configs)

end MCPRuntimeRegistry

structure ToolRegistry where
  handlers : Dict String Handler
  mcpRegistry : Option MCPRuntimeRegistry

namespace ToolRegistry

/-- The constructor: the built-in tools, then the extra tools, each under its name. -/
def create (builtinTools extraTools : List Handler) (mcpRegistry : Option MCPRuntimeRegistry) :
    ToolRegistry where
  handlers := (Dict.empty.setAll (·.name) id builtinTools).setAll (·.name) id extraTools
  mcpRegistry := mcpRegistry

def listDefinitions (reg : ToolRegistry) : List ToolDefinition :=
  reg.handlers.values.map Handler.definition ++
    (reg.mcpRegistry.map (·.listToolDefinitions)).getD []

def getHandler (reg : ToolRegistry) (name : String) : Option Handler := reg.handlers.get? name

def isMcpTool (reg : ToolRegistry) (name : String) : Bool := reg.mcpRegistry.any (·.isMcpTool name)

end ToolRegistry

/-! The tools the repository ships, with their scopes; `body` is what each runs. -/
section shipped
variable (body : Arguments → Except Fault String)

def getCurrentTimeTool : Handler where
  name := "get_current_time"
  description := "Get the current UTC date and time."
  requiredScopes := some []
  invoke := body

def calculatorTool : Handler where
  name := "calculate"
  description := "Evaluate a basic math expression (numbers, +, -, *, /, parentheses)."
  requiredScopes := some []
  invoke := body

def echoTool : Handler where
  name := "echo"
  description := "Echo back a message (useful for testing)."
  requiredScopes := some []
  invoke := body

def knowledgeBaseLookupTool : Handler where
  name := "knowledge_base_lookup"
  description := "Search the customer knowledge base for articles relevant to the caller's question. " ++
    "Use before creating tickets when self-service answers may exist."
  requiredScopes := some ["knowledge:read"]
  invoke := body

def ticketLookupTool : Handler where
  name := "ticket_lookup"
  description := "Look up an existing support ticket by ticket ID or customer email. " ++
    "Use when the caller references a prior case or asks about ticket status."
  requiredScopes := some ["sessions:read"]
  invoke := body

def ticketCreateTool : Handler where
  name := "ticket_create"
  description := "Create a new support ticket when the issue cannot be resolved via the knowledge base " ++
    "or requires human follow-up. Include a clear subject and description."
  requiredScopes := some ["handoffs:write"]
  invoke := body

def handoffToHumanTool : Handler where
  name := "handoff_to_human"
  description := "Escalate the conversation to a human agent. Creates a support ticket, " ++
    "packages conversation context, and assigns a human operator."
  requiredScopes := some ["handoffs:write"]
  invoke := body

end shipped

def builtinTools (body : Handler → Arguments → Except Fault String) : List Handler :=
  [getCurrentTimeTool,calculatorTool,echoTool].map fun tool =>
    tool (body (tool fun _ => .ok ""))

def buildSupportTools (body : Arguments → Except Fault String) : List Handler :=
  [knowledgeBaseLookupTool body,ticketLookupTool body,ticketCreateTool body]

end VoxForge.Tools
