import VoxForge.Foundation.Fallible
import VoxForge.Tools.RegistryRuns
import VoxForge.Tools.ScopeEnforcement

/-! Discovery of the tools of a configured MCP server, from the server itself or from what its
config declares. The permissions of a config bind every call that reaches its server. -/
namespace VoxForge.Tools
open Foundation Core

/-- A tool that a config declares. -/
structure StaticTool where
  name : Option String
  description : String := ""
  version : Option String := none

/-- A tool that a running server lists. -/
structure McpTool where
  name : String
  description : Option String := none
  version : Option String := none

/-- The entries of a config that only discovery reads. `listed` fails where the permissions or
capabilities are no lists; `parameters` is what the MCP library makes of `StdioServerParameters`
with the command and its arguments. -/
structure ServerEntries where
  listed : Except Fault Unit := .ok ()
  permissions : List Scope := []
  tools : List StaticTool := []
  parameters : Except Fault Unit := .ok ()

def serverDisplayName (server : ServerConfig) (serverId : String) : String :=
  (strippedText server.name).getD serverId

/-- `_tool_definitions_from_static`; a tool without a name is a `KeyError`. -/
def toolDefinitionsFromStatic (tools : List StaticTool) (serverId : String) (permissions : List Scope) :
    Except Fault (List ToolDefinition) :=
  tools.mapM fun tool =>
    match tool.name with
    | none => .error (.raised "'name'")
    | some name => .ok {
        name
        description := tool.description
        source := "mcp"
        serverId := some serverId
        version := tool.version
        requiredScopes := permissions }

def mcpToolToDefinition (tool : McpTool) (serverId : String) (permissions : List Scope) : ToolDefinition where
  name := tool.name
  description := tool.description.getD ""
  source := "mcp"
  serverId := some serverId
  version := tool.version
  requiredScopes := permissions

section discovery
variable (entries : ServerConfig → ServerEntries)

def discoveredId (server : ServerConfig) : String := server.serverId.getD (serverIdFor server 0)

/-- The record before anything is known. -/
def unknownRecord (server : ServerConfig) (transport : String) : MCPServerRecord where
  serverId := discoveredId server
  name := serverDisplayName server (discoveredId server)
  transport := transport
  status := .unknown

/-- What the config declares takes the place of what the server would have said. -/
def fallBack (server : ServerConfig) (record : MCPServerRecord) (degraded offline : String) :
    Except Fault (List ToolDefinition × MCPServerRecord) := do
  let tools ← toolDefinitionsFromStatic (entries server).tools (discoveredId server) (entries server).permissions
  if tools ≠ [] then
    return (tools,{ record with
      status := .degraded, toolCount := tools.length, discoverySource := "static", lastError := some degraded })
  else return ([],{ record with status := .offline, lastError := some offline })

/-- `StdioMCPDiscoveryClient.discover`. A session starts the command and lists its tools; a
time limit cuts it off from outside. -/
def discover (installed : Bool) (session : ServerConfig → Except Fault (List McpTool)) (server : ServerConfig) :
    Except Fault (List ToolDefinition × MCPServerRecord) := do
  (entries server).listed
  match server.transport.getD "stdio" with
  | .other .. => .error (.raised "validation error for MCPServerRecord: transport")
  | .str transport =>
    let record := unknownRecord server transport
    if transport ≠ "stdio" then
      .ok ([],{ record with
        status := .offline, lastError := some ("Unsupported MCP transport: " ++ transport) })
    else if ¬server.command.any (·.truthy) then
      fallBack entries server record "MCP server command not configured; using static tool metadata"
        "MCP server command not configured"
    else if !installed then
      fallBack entries server record "MCP client not installed (pip install mcp)"
        "MCP client not installed (pip install mcp)"
    else
      -- refused parameters are outside the `try`: nothing that the config declares is used
      match (entries server).parameters with
      | .error fault => .error fault
      | .ok _ =>
        match session server with
        | .ok listed =>
          let tools := listed.map fun tool =>
            mcpToolToDefinition tool (discoveredId server) (entries server).permissions
          .ok (tools,{ record with status := .healthy, toolCount := tools.length })
        | .error .timeout => .error .timeout
        | .error (.raised message) => fallBack entries server record message message

/-- What `discover_all` makes of it. -/
def discovery (timeoutMs : Nat) (installed : Bool) (session : ServerConfig → Except Fault (List McpTool))
    (server : ServerConfig) : Except String (List ToolDefinition × MCPServerRecord) :=
  match discover entries installed session server with
  | .ok found => .ok found
  | .error .timeout => .error s!"Discovery timed out after {timeoutMs}ms"
  | .error (.raised message) => .error message

/-- A tool is marked as its server's, with all permissions of the server's config. -/
structure Marked (server : ServerConfig) (tool : ToolDefinition) : Prop where
  scopes : tool.requiredScopes = (entries server).permissions
  origin : tool.serverId = some (discoveredId server)

/-- What discovery brings: marked tools, counted by a record that says how they were found. -/
structure Discovered (server : ServerConfig) (found : List ToolDefinition × MCPServerRecord) : Prop where
  marked : ∀ tool ∈ found.1, Marked entries server tool
  counted : found.2.toolCount = found.1.length
  known : found.2.status ≠ .unknown
  online : found.1 ≠ [] → found.2.status ≠ .offline

variable {entries}

theorem marked_static {tools : List StaticTool} {server : ServerConfig} {found : List ToolDefinition}
    (h : toolDefinitionsFromStatic tools (discoveredId server) (entries server).permissions = .ok found) :
    ∀ tool ∈ found, Marked entries server tool := by
  refine forall_of_mapM_ok h fun entry tool htool => ?_
  cases hname : entry.name with
  | none =>
    rw [hname] at htool
    cases htool
  | some name =>
    rw [hname] at htool
    obtain rfl := Except.ok.inj htool
    exact ⟨rfl,rfl⟩

theorem discovered_offline {server : ServerConfig} {record : MCPServerRecord} (hstatus : record.status = .offline)
    (hcount : record.toolCount = 0) : Discovered entries server ([],record) where
  marked tool htool := (List.not_mem_nil htool).elim
  counted := hcount
  known h := by
    rw [hstatus] at h
    cases h
  online h := absurd rfl h

theorem discovered_fallBack {server : ServerConfig} {record : MCPServerRecord} {degraded offline : String}
    {found : List ToolDefinition × MCPServerRecord} (hcount : record.toolCount = 0)
    (h : fallBack entries server record degraded offline = .ok found) :
    Discovered entries server found := by
  obtain ⟨tools,htools,h⟩ := bind_eq_ok.mp h
  by_cases hsome : tools ≠ []
  · obtain rfl := Except.ok.inj ((if_pos hsome).symm.trans h)
    exact ⟨marked_static htools,rfl,(fun h => by cases h),(fun _ h => by cases h)⟩
  · obtain rfl := Except.ok.inj ((if_neg hsome).symm.trans h)
    exact discovered_offline rfl hcount

theorem discovered_discover {installed : Bool} {session : ServerConfig → Except Fault (List McpTool)}
    {server : ServerConfig} {found : List ToolDefinition × MCPServerRecord}
    (h : discover entries installed session server = .ok found) : Discovered entries server found := by
  unfold discover at h
  obtain ⟨-,-,h⟩ := bind_eq_ok.mp h
  cases htransport : server.transport.getD "stdio" with
  | other truthy text =>
    rw [htransport] at h
    cases h
  | str transport =>
    rw [htransport] at h
    dsimp only at h
    split at h
    · obtain rfl := Except.ok.inj h
      exact discovered_offline rfl rfl
    split at h
    · exact discovered_fallBack rfl h
    split at h
    · exact discovered_fallBack rfl h
    cases hparameters : (entries server).parameters with
    | error fault =>
      rw [hparameters] at h
      cases h
    | ok _ =>
      rw [hparameters] at h
      cases hsession : session server with
      | ok listed =>
        rw [hsession] at h
        obtain rfl := Except.ok.inj h
        refine ⟨fun tool htool => ?_,rfl,(fun h => by cases h),(fun _ h => by cases h)⟩
        obtain ⟨own,-,rfl⟩ := List.mem_map.mp htool
        exact ⟨rfl,rfl⟩
      | error fault =>
        rw [hsession] at h
        cases fault with
        | timeout => cases h
        | raised message => exact discovered_fallBack rfl h

theorem discovered_discovery {timeoutMs : Nat} {installed : Bool} {session : ServerConfig → Except Fault (List McpTool)}
    {server : ServerConfig} {found : List ToolDefinition × MCPServerRecord}
    (h : discovery entries timeoutMs installed session server = .ok found) : Discovered entries server found := by
  rw [discovery] at h
  split at h
  · next own hown =>
    obtain rfl := Except.ok.inj h
    exact discovered_discover hown
  · cases h
  · cases h

/-! Runs of the registry -/

variable (entries)

/-- What changes the registry while the program runs; every discovery finds its servers in
some state. -/
inductive RegistryChange where
  | discoverAll (enabled : Bool) (timeoutMs : Nat) (installed : Bool)
      (session : ServerConfig → Except Fault (List McpTool))
  | unregisterServer (serverId : String)
  | registerInternalSupportTools (tools : List Handler)

def RegistryChange.op : RegistryChange → MCPRuntimeRegistry.Op
  | .discoverAll enabled timeoutMs installed session =>
    .discoverAll enabled (discovery entries timeoutMs installed session)
  | .unregisterServer serverId => .unregisterServer serverId
  | .registerInternalSupportTools tools => .registerInternalSupportTools tools

/-- Every tool in the index is routed to the configured server that marked it. -/
structure MCPRuntimeRegistry.Permitted (servers : List ServerConfig) (reg : MCPRuntimeRegistry) : Prop where
  known : reg.servers ⊆ servers
  marked : ∀ name definition, reg.toolIndex.get? name = some definition →
    ∃ server ∈ servers, reg.toolServerMap.get? name = server.serverId ∧ Marked entries server definition

variable {entries} {servers : List ServerConfig} {reg : MCPRuntimeRegistry}
open MCPRuntimeRegistry

theorem permitted_registerServerTools {server : ServerConfig} {tools : List ToolDefinition} {record : MCPServerRecord}
    {serverId : String} (h : reg.Permitted entries servers) (hin : server ∈ servers)
    (hid : server.serverId = some serverId) (htools : ∀ tool ∈ tools, Marked entries server tool) :
    (reg.registerServerTools serverId tools record).Permitted entries servers where
  known := h.known
  marked name definition hget := by
    have hindex := Dict.get?_setAll ToolDefinition.name id reg.toolIndex tools name
    have hmap := Dict.get?_setAll ToolDefinition.name (fun _ => serverId) reg.toolServerMap tools name
    rw [registerServerTools,hindex] at hget
    rw [registerServerTools,hmap]
    cases hfind : tools.reverse.find? (·.name = name) with
    | some tool =>
      rw [hfind] at hget
      obtain rfl : tool = definition := Option.some.inj hget
      have htool := List.mem_reverse.mp (List.mem_of_find?_eq_some hfind)
      exact ⟨server,hin,hid.symm,htools tool htool⟩
    | none =>
      rw [hfind] at hget
      exact h.marked name definition hget

theorem permitted_settleDiscovery {timeoutMs : Nat} {installed : Bool}
    {session : ServerConfig → Except Fault (List McpTool)} {server : ServerConfig} (h : reg.Permitted entries servers)
    (hin : server ∈ servers) (hid : server.serverId.isSome) :
    (Runtime.settleDiscovery reg server (discovery entries timeoutMs installed session server)).Permitted
      entries servers := by
  obtain ⟨serverId,hid⟩ := Option.isSome_iff_exists.mp hid
  cases hfound : discovery entries timeoutMs installed session server with
  | ok found =>
    rw [Runtime.settleDiscovery,hid]
    exact permitted_registerServerTools h hin hid (discovered_discovery hfound).marked
  | error message =>
    dsimp only [Runtime.settleDiscovery]
    cases hfailed : reg.registerFailedServer server message with
    | ok left =>
      obtain ⟨records,rfl⟩ := Runtime.registerFailedServer_ok hfailed
      exact ⟨h.known,h.marked⟩
    | error e => exact h

theorem permitted_discoverAll {enabled : Bool} {timeoutMs : Nat} {installed : Bool}
    {session : ServerConfig → Except Fault (List McpTool)} (h : reg.Permitted entries servers)
    (hids : ∀ server ∈ servers, server.serverId.isSome) :
    (reg.discoverAll enabled (discovery entries timeoutMs installed session)).1.Permitted entries servers := by
  rw [(Runtime.discoverAll_eq _ reg enabled).1]
  have hvisited : (if enabled then Runtime.visits (discovery entries timeoutMs installed session) reg.servers
      else []) ⊆ servers := by
    split
    · exact List.Subset.trans (Runtime.visits_subset _ _) h.known
    · exact List.nil_subset _
  revert hvisited
  generalize (if enabled then Runtime.visits (discovery entries timeoutMs installed session) reg.servers
    else []) = visited
  intro hvisited
  induction visited generalizing reg with
  | nil => exact h
  | cons server visited ih =>
    have hin := hvisited List.mem_cons_self
    rw [List.foldl_cons]
    exact ih (permitted_settleDiscovery h hin (hids server hin)) (List.subset_of_cons_subset hvisited)

theorem permitted_unregisterServer (h : reg.Permitted entries servers) (serverId : String) :
    (reg.unregisterServer serverId).Permitted entries servers := by
  rw [MCPRuntimeRegistry.unregisterServer]
  split_ifs with hinternal
  · exact ⟨h.known,h.marked⟩
  · refine ⟨fun server hin => h.known (List.mem_of_mem_filter hin),fun name definition hget => ?_⟩
    dsimp only at hget ⊢
    rw [Dict.get?_popWhere] at hget ⊢
    split_ifs at hget with hmapped
    rw [if_neg hmapped]
    exact h.marked name definition hget

theorem permitted_apply (h : reg.Permitted entries servers) (hids : ∀ server ∈ servers, server.serverId.isSome)
    (change : RegistryChange) : (reg.apply (change.op entries)).Permitted entries servers := by
  cases change with
  | discoverAll enabled timeoutMs installed session => exact permitted_discoverAll h hids
  | unregisterServer serverId => exact permitted_unregisterServer h serverId
  | registerInternalSupportTools tools => exact ⟨h.known,h.marked⟩

theorem identified_init (configs : List ServerConfig) : ∀ server ∈ (init configs).servers, server.serverId.isSome := by
  intro server hin
  obtain ⟨index,hindex,rfl⟩ := List.mem_mapIdx.mp hin
  rfl

theorem permitted_reached (configs : List ServerConfig) (changes : List RegistryChange) :
    (reached configs (changes.map (·.op entries))).Permitted entries (init configs).servers := by
  have hfold (reg : MCPRuntimeRegistry) (h : reg.Permitted entries (init configs).servers) :
      ((changes.map (·.op entries)).foldl MCPRuntimeRegistry.apply reg).Permitted entries (init configs).servers := by
    induction changes generalizing reg with
    | nil => exact h
    | cons change changes ih => exact ih _ (permitted_apply h (identified_init configs) change)
  refine hfold (init configs) ⟨fun server hin => hin,fun name definition hget => ?_⟩
  cases hget

/-- What a routed tool comes from. -/
theorem route_ok {name : String} {server : ServerConfig} (h : reg.route name = .ok server) :
    server ∈ reg.servers ∧ reg.toolServerMap.get? name = server.serverId := by
  rw [route] at h
  dsimp only at h
  split at h
  · cases h
  · next serverId hmapped =>
    split at h
    · cases h
    · next found hfound =>
      split_ifs at h
      obtain rfl := Except.ok.inj h
      have hid : found.serverId = some serverId := by simpa using List.find?_some hfound
      exact ⟨List.mem_of_find?_eq_some hfound,hmapped.trans hid.symm⟩

theorem body?_mcp {router : ToolRouter} {name : String} {definition : ToolDefinition} {server : ServerConfig}
    (h : router.body? name = some (.mcp definition server)) :
    ∃ mcp, router.registry.mcpRegistry = some mcp ∧ mcp.toolIndex.get? name = some definition ∧
      mcp.route name = .ok server := by
  rw [ToolRouter.body?] at h
  cases hmcp : router.registry.mcpRegistry with
  | none =>
    rw [hmcp] at h
    obtain ⟨tool,-,htool⟩ := Option.map_eq_some_iff.mp h
    cases htool
  | some mcp =>
    rw [hmcp] at h
    cases htool : mcp.getTool name with
    | none =>
      rw [Option.bind_some,htool] at h
      obtain ⟨tool,-,htool⟩ := Option.map_eq_some_iff.mp h
      cases htool
    | some found =>
      rw [Option.bind_some,htool] at h
      obtain ⟨own,hroute,hbody⟩ := Option.map_eq_some_iff.mp h
      obtain ⟨rfl,rfl⟩ := Body.mcp.inj hbody
      exact ⟨mcp,rfl,htool,toOption_eq_some.mp hroute⟩

/-- Servers with ids of their own are told apart by them. -/
theorem server_unique {configs : List ServerConfig}
    (hids : (configs.mapIdx fun index server => serverIdFor server index).Nodup) {a b : ServerConfig}
    (ha : a ∈ (init configs).servers) (hb : b ∈ (init configs).servers) (hab : a.serverId = b.serverId) : a = b := by
  have hkeys : (init configs).servers.map (·.serverId) =
      (configs.mapIdx fun index server => serverIdFor server index).map some := by
    refine List.ext_getElem? fun index => ?_
    simp only [init,List.getElem?_map,List.getElem?_mapIdx,Option.map_map]
    rfl
  have hnodup : ((init configs).servers.map (·.serverId)).Nodup := by
    rw [hkeys]
    exact hids.map fun _ _ h => Option.some.inj h
  exact List.inj_on_of_nodup_map hnodup ha hb hab

/-- Whatever the servers answer whenever they are discovered, a call that reaches one of them is
made with all the permissions of its config, unless in-process metadata has the tool's name. -/
theorem mcp_permissions_enforced (builtinTools extraTools : List Handler) (configs : List ServerConfig)
    (hids : (configs.mapIdx fun index server => serverIdFor server index).Nodup) (changes : List RegistryChange)
    (invocation : ServerConfig → String → Arguments → Except Fault ToolResult) (repository : Bool)
    (name : String) (arguments : Arguments) (callerScopes : Option (List Scope)) {definition : ToolDefinition}
    {server : ServerConfig} :
    let router : ToolRouter :=
      { registry := .build builtinTools extraTools (some (configs,changes.map (·.op entries))), invocation, repository }
    ¬router.registry.advertises name →
    (router.execute name arguments callerScopes).ran = some (.mcp definition server) →
      server ∈ (init configs).servers ∧ definition.serverId = server.serverId ∧
        (entries server).permissions ⊆ callerScopes.getD [] := by
  intro router hplain hran
  have hwell : router.registry.WellFormed := ToolRegistry.wellFormed_build ..
  rcases router.execute_cases name arguments callerScopes with ⟨-,hnone,-⟩ | ⟨hchecked,hbody,-⟩
  · rw [hnone] at hran
    cases hran
  rw [hbody] at hran
  obtain ⟨mcp,hmcp,hindex,hroute⟩ := body?_mcp hran
  obtain rfl : reached configs (changes.map (·.op entries)) = mcp := Option.some.inj hmcp
  obtain ⟨hserver,hmapped⟩ := route_ok hroute
  obtain ⟨origin,horigin,hown,hmarked⟩ := (permitted_reached configs changes).marked name definition hindex
  have hin := (permitted_reached configs changes).known hserver
  obtain rfl := server_unique hids horigin hin (hown.symm.trans hmapped)
  obtain ⟨checked,hdefinition,hscopes⟩ := router.checked?_body hwell name hplain hran
  have hallowed := (router.checkRequiredScopes_eq_none name _).mp hchecked checked hdefinition
  rw [hscopes] at hallowed
  obtain ⟨serverId,hid⟩ := Option.isSome_iff_exists.mp (identified_init configs origin hin)
  refine ⟨hin,hmarked.origin.trans ?_,hmarked.scopes ▸ hallowed⟩
  rw [discoveredId,hid]
  rfl

/-- A server whose config asks for a scope, and lists one tool when it runs. -/
def guardedServer : ServerConfig where
  name := some "crm"
  command := some "crm-mcp"

def guardedEntries (_ : ServerConfig) : ServerEntries where
  permissions := ["crm:read"]

def listsLookup : RegistryChange := .discoverAll true 1000 true fun _ => .ok [{ name := "lookup" }]

def guardedRouter : ToolRouter where
  registry := .build [] [] (some ([guardedServer],[listsLookup].map (·.op guardedEntries)))
  invocation _ name _ := .ok { toolName := name, output := "" }

def Body.remote : Body → Bool
  | .mcp .. => true
  | .handler _ => false

theorem guarded_permissions : ∃ definition server,
    (guardedRouter.execute "lookup" "" (some ["crm:read"])).ran = some (.mcp definition server) ∧
      (guardedEntries server).permissions ⊆ ["crm:read"] := by
  have hremote : (guardedRouter.execute "lookup" "" (some ["crm:read"])).ran.any
      Body.remote = true := by decide +kernel
  obtain ⟨body,hran,hbody⟩ := (Option.any_eq_true _ _).mp hremote
  cases body with
  | handler tool => cases hbody
  | mcp definition server =>
    have hallowed := mcp_permissions_enforced [] [] [guardedServer] (by decide +kernel) [listsLookup]
      guardedRouter.invocation true "lookup" "" (some ["crm:read"]) (by decide +kernel) hran
    exact ⟨definition,server,hran,hallowed.2.2⟩

end discovery
end VoxForge.Tools
