import VoxForge.Foundation.Fallible
import VoxForge.Foundation.Runs
import VoxForge.Tools.Router

/-! The runtime registry of MCP servers over whole runs, beside a ledger of what each
registered server last declared. The tables agree with the ledger as long as no
registration drops a tool or changes a config, and no unregistration takes a name
that another server declares. -/
namespace VoxForge.Tools
open Foundation Core

/-- What the latest successful registration of a server brought: its config and tools. -/
structure Registration where
  config : ServerConfig
  tools : List ToolDefinition

def toolNames (tools : List ToolDefinition) : List String := tools.map (·.name)

/-- The registry, the servers that a discovery under way has still to visit, and the
ledger of the registered servers. -/
structure Runtime where
  registry : MCPRuntimeRegistry
  pending : List ServerConfig := []
  ledger : Dict String Registration := .empty

/-- One step of the registry: an operation, or the outcome of the next server's
discovery. -/
inductive RuntimeEvent where
  | discoverAll (enabled : Bool)
  | discovered (tools : List ToolDefinition) (record : MCPServerRecord)
  | failed (error : String)
  | registerServer (config : ServerConfig) (tools : List ToolDefinition) (record : MCPServerRecord)
  | unregisterServer (serverId : String)
  | registerInternalSupportTools (tools : List Handler)

/-- The id under which a config is registered by hand. -/
def MCPRuntimeRegistry.registeredId (reg : MCPRuntimeRegistry) (config : ServerConfig) : String :=
  (config.serverId.filter (· ≠ "")).getD (serverIdFor config reg.servers.length)

namespace Runtime

def start (configs : List ServerConfig) : Runtime where
  registry := .init configs

def record (s : Runtime) (serverId : String) (config : ServerConfig)
    (tools : List ToolDefinition) : Dict String Registration :=
  s.ledger.set serverId { config, tools }

/-- Operations follow one another: none begins while a discovery is under way. -/
def step (s : Runtime) : RuntimeEvent → Option Runtime
  | .discoverAll enabled =>
    if s.pending = [] then some { s with pending := if enabled then s.registry.servers else [] }
    else none
  | .discovered tools record =>
    match s.pending with
    | [] => none
    | server :: pending =>
      let serverId := server.serverId.getD ""
      some {
        registry := s.registry.registerServerTools serverId tools record
        pending
        ledger := s.record serverId server tools }
  | .failed error =>
    match s.pending with
    | [] => none
    | server :: pending =>
      match s.registry.registerFailedServer server error with
      | .ok registry => some { s with registry, pending }
      | .error _ => some { s with pending := [] }
  | .registerServer config tools record =>
    let serverId := s.registry.registeredId config
    if s.pending = [] then some { s with
      registry := s.registry.registerServer config tools record
      ledger := s.record serverId { config with serverId := some serverId } tools }
    else none
  | .unregisterServer serverId =>
    if s.pending = [] then some { s with
      registry := s.registry.unregisterServer serverId
      ledger := s.ledger.pop serverId }
    else none
  | .registerInternalSupportTools tools =>
    if s.pending = [] then
      some { s with registry := s.registry.registerInternalSupportTools tools }
    else none

/-- The outcome of one server's discovery, as an event. -/
def outcome (discover : ServerConfig → Except String (List ToolDefinition × MCPServerRecord))
    (server : ServerConfig) : RuntimeEvent :=
  match discover server with
  | .ok (tools,record) => .discovered tools record
  | .error message => .failed message

/-- The tables after one server's discovery. -/
def settleDiscovery (reg : MCPRuntimeRegistry) (server : ServerConfig) :
    Except String (List ToolDefinition × MCPServerRecord) → MCPRuntimeRegistry
  | .ok found => reg.registerServerTools (server.serverId.getD "") found.1 found.2
  | .error message =>
    match reg.registerFailedServer server message with
    | .ok reg => reg
    | .error _ => reg

section visits
variable (discover : ServerConfig → Except String (List ToolDefinition × MCPServerRecord))

/-- The discovery brings tools or a failure that can be recorded. -/
def settles (server : ServerConfig) : Bool :=
  match discover server with
  | .ok _ => true
  | .error message => (failedRecord server message).isOk

def visits : List ServerConfig → List ServerConfig
  | [] => []
  | server :: rest => server :: if settles discover server then visits rest else []

theorem visits_subset (servers : List ServerConfig) : visits discover servers ⊆ servers := by
  induction servers with
  | nil => exact List.nil_subset _
  | cons server rest ih =>
    rw [visits]
    refine List.cons_subset.mpr ⟨List.mem_cons_self,?_⟩
    split
    · exact List.subset_cons_of_subset _ ih
    · exact List.nil_subset _

/-- A discovery comes to every server if each settles. -/
theorem visits_all {servers : List ServerConfig} (h : ∀ server ∈ servers, settles discover server = true) :
    visits discover servers = servers := by
  induction servers with
  | nil => rfl
  | cons server rest ih =>
    obtain ⟨hfirst,hrest⟩ := List.forall_mem_cons.mp h
    rw [visits,if_pos hfirst,ih hrest]

theorem registerFailedServer_isOk (reg : MCPRuntimeRegistry) (server : ServerConfig) (message : String) :
    (reg.registerFailedServer server message).isOk = (failedRecord server message).isOk := by
  unfold MCPRuntimeRegistry.registerFailedServer
  cases failedRecord server message <;> rfl

/-- A server that settles hands on to the next. -/
theorem discoverServers_settled {server : ServerConfig} (h : settles discover server = true)
    (rest : List ServerConfig) (reg : MCPRuntimeRegistry) :
    MCPRuntimeRegistry.discoverServers discover (server :: rest) reg =
      MCPRuntimeRegistry.discoverServers discover rest (settleDiscovery reg server (discover server)) := by
  unfold settles at h
  rw [MCPRuntimeRegistry.discoverServers]
  cases hfound : discover server with
  | ok found => rfl
  | error message =>
    rw [hfound] at h
    dsimp only at h
    rw [← registerFailedServer_isOk reg] at h
    dsimp only [settleDiscovery]
    cases hfailed : reg.registerFailedServer server message with
    | ok left => rfl
    | error e =>
      rw [hfailed] at h
      cases h

theorem discoverServers_raised {server : ServerConfig} (h : settles discover server = false)
    (rest : List ServerConfig) (reg : MCPRuntimeRegistry) :
    ∃ e, MCPRuntimeRegistry.discoverServers discover (server :: rest) reg =
      (settleDiscovery reg server (discover server),.error e) := by
  unfold settles at h
  rw [MCPRuntimeRegistry.discoverServers]
  cases hfound : discover server with
  | ok found =>
    rw [hfound] at h
    cases h
  | error message =>
    rw [hfound] at h
    dsimp only at h
    rw [← registerFailedServer_isOk reg] at h
    dsimp only [settleDiscovery]
    cases hfailed : reg.registerFailedServer server message with
    | ok left =>
      rw [hfailed] at h
      cases h
    | error e => exact ⟨e,rfl⟩

/-- The loop, server by server: what it leaves, and when it returns. -/
theorem discoverServers_eq (servers : List ServerConfig) (reg : MCPRuntimeRegistry) :
    (MCPRuntimeRegistry.discoverServers discover servers reg).1 = (visits discover servers).foldl
      (fun reg server => settleDiscovery reg server (discover server)) reg ∧
    ((MCPRuntimeRegistry.discoverServers discover servers reg).2 = .ok () ↔
      ∀ server ∈ servers, settles discover server = true) := by
  induction servers generalizing reg with
  | nil => exact ⟨rfl,by simp [MCPRuntimeRegistry.discoverServers]⟩
  | cons server rest ih =>
    rw [visits,List.foldl_cons,List.forall_mem_cons]
    by_cases h : settles discover server = true
    · obtain ⟨hleft,hreturns⟩ := ih (settleDiscovery reg server (discover server))
      rw [discoverServers_settled discover h,if_pos h]
      exact ⟨hleft,hreturns.trans (and_iff_right h).symm⟩
    · obtain ⟨e,he⟩ := discoverServers_raised discover (Bool.eq_false_iff.mpr h) rest reg
      rw [he,if_neg h]
      exact ⟨rfl,iff_of_false nofun fun hall => h hall.1⟩

theorem discoverAll_eq (reg : MCPRuntimeRegistry) (enabled : Bool) :
    (reg.discoverAll enabled discover).1 = (if enabled then visits discover reg.servers else []).foldl
      (fun reg server => settleDiscovery reg server (discover server)) reg ∧
    ((reg.discoverAll enabled discover).2 = .ok () ↔
      ∀ server ∈ if enabled then reg.servers else [], settles discover server = true) := by
  unfold MCPRuntimeRegistry.discoverAll
  cases enabled with
  | false => simp
  | true =>
    rw [if_pos rfl,if_pos rfl]
    split_ifs with h
    · have hnil : reg.servers = [] := by simpa using h
      rw [hnil]
      exact ⟨rfl,by simp⟩
    · exact discoverServers_eq discover reg.servers reg

theorem step_outcome (s : Runtime) (server : ServerConfig) (pending : List ServerConfig)
    (hp : s.pending = server :: pending) : ∃ ledger, s.step (outcome discover server) = some {
      registry := settleDiscovery s.registry server (discover server)
      pending := if settles discover server then pending else []
      ledger } := by
  cases hfound : discover server with
  | ok found =>
    have hsettles : settles discover server = true := by rw [settles,hfound]
    rw [outcome,hfound,hsettles]
    exact ⟨_,by simp only [step,hp]; rfl⟩
  | error message =>
    have hsettles : settles discover server = (s.registry.registerFailedServer server message).isOk := by
      rw [settles,hfound,registerFailedServer_isOk]
    rw [outcome,hfound,hsettles]
    refine ⟨s.ledger,?_⟩
    simp only [step,hp,settleDiscovery]
    cases s.registry.registerFailedServer server message <;> rfl

theorem run_outcomes (servers : List ServerConfig) (s : Runtime) (hp : s.pending = servers) :
    ∃ ledger, run step s ((visits discover servers).map (outcome discover)) = some {
      registry := (visits discover servers).foldl
        (fun reg server => settleDiscovery reg server (discover server)) s.registry
      pending := []
      ledger } := by
  induction servers generalizing s with
  | nil => exact ⟨s.ledger,by rw [visits,List.map_nil,run_nil,List.foldl_nil,← hp]⟩
  | cons server rest ih =>
    obtain ⟨ledger,hs⟩ := step_outcome discover s server rest hp
    rw [visits,List.map_cons,run_cons,hs,Option.bind_some,List.foldl_cons]
    cases settles discover server with
    | true =>
      obtain ⟨last,hrest⟩ := ih { registry := _, pending := rest, ledger } rfl
      exact ⟨last,hrest⟩
    | false => exact ⟨ledger,rfl⟩

/-- A discovery step by step leaves the tables that `discover_all` computes. -/
theorem run_discoverAll (enabled : Bool) (s : Runtime) (hp : s.pending = []) :
    ∃ ledger, run step s (.discoverAll enabled ::
      (if enabled then visits discover s.registry.servers else []).map (outcome discover)) = some {
        registry := (s.registry.discoverAll enabled discover).1, pending := [], ledger } := by
  have hstep : s.step (.discoverAll enabled) =
      some { s with pending := if enabled then s.registry.servers else [] } := if_pos hp
  rw [run_cons,hstep,Option.bind_some,(discoverAll_eq discover s.registry enabled).1]
  cases enabled with
  | false => exact ⟨s.ledger,rfl⟩
  | true => exact run_outcomes discover s.registry.servers { s with pending := s.registry.servers } rfl

end visits

/-- A registered server declares a tool of this name. -/
def Declares (s : Runtime) (serverId name : String) : Prop :=
  ∃ entry, s.ledger.get? serverId = some entry ∧ name ∈ toolNames entry.tools

/-- The tables agree with the ledger: the names that resolve are those that some
registered server declares, and each is routed to one of them under its latest config. -/
structure Consistent (s : Runtime) : Prop where
  resolvable : ∀ name, s.registry.isMcpTool name ↔ ∃ serverId, s.Declares serverId name
  routed : ∀ name, s.registry.isMcpTool name → ∃ serverId entry,
    s.registry.toolServerMap.get? name = some serverId ∧ s.ledger.get? serverId = some entry ∧
      name ∈ toolNames entry.tools ∧
      s.registry.servers.find? (·.serverId = some serverId) = some entry.config

/-- A name that is routed as it should be is declared by the server it is routed to. -/
theorem Consistent.of_routed {s : Runtime}
    (hrouted : ∀ name, s.registry.isMcpTool name → ∃ serverId entry,
      s.registry.toolServerMap.get? name = some serverId ∧ s.ledger.get? serverId = some entry ∧
        name ∈ toolNames entry.tools ∧ s.registry.servers.find? (·.serverId = some serverId) = some entry.config)
    (hdeclared : ∀ name serverId, s.Declares serverId name → s.registry.isMcpTool name) : s.Consistent := by
  refine ⟨fun name => ⟨fun hn => ?_,fun ⟨serverId,hd⟩ => hdeclared name serverId hd⟩,hrouted⟩
  obtain ⟨serverId,entry,-,hentry,hdecl,-⟩ := hrouted name hn
  exact ⟨serverId,entry,hentry,hdecl⟩

/-- An invocation then goes to the latest config of a server that declares the tool,
unless that server is offline. -/
theorem Consistent.route {s : Runtime} (h : s.Consistent) {name : String}
    (hn : s.registry.isMcpTool name) : ∃ serverId entry,
      s.ledger.get? serverId = some entry ∧ name ∈ toolNames entry.tools ∧
      ((s.registry.serverRecords.get? serverId).any (·.status = .offline) ∨
        s.registry.route name = .ok entry.config) := by
  obtain ⟨serverId,entry,hid,hentry,hdecl,hfind⟩ := h.routed name hn
  refine ⟨serverId,entry,hentry,hdecl,?_⟩
  by_cases hoff : (s.registry.serverRecords.get? serverId).any (·.status = .offline)
  · exact .inl hoff
  · refine .inr ?_
    unfold MCPRuntimeRegistry.route
    simp only [hid,hfind]
    exact if_neg hoff

/-- A registration that keeps the tables right: it declares every name that is mapped
to its server, and the first config of that id is its own (or it declares nothing). -/
def Supersedes (s : Runtime) (serverId : String) (config : ServerConfig)
    (tools : List ToolDefinition) : Prop :=
  (∀ name, s.registry.toolServerMap.get? name = some serverId → name ∈ toolNames tools) ∧
  (tools = [] ∨
    ∀ first, s.registry.servers.find? (·.serverId = some serverId) = some first → first = config)

/-- An unregistration that keeps the tables right: no other registered server declares
a name mapped to the one that goes. The id of the in-process server stands for that
server, and nothing may be mapped to it. -/
def Releases (s : Runtime) (serverId : String) : Prop :=
  ∀ name, s.registry.toolServerMap.get? name = some serverId →
    ¬s.registry.internalServer.any (·.serverId = serverId) ∧
      ∀ other, other ≠ serverId → ¬s.Declares other name

def Careful (s : Runtime) : RuntimeEvent → Prop
  | .discovered tools _ =>
    ∀ server ∈ s.pending.head?, s.Supersedes (server.serverId.getD "") server tools
  | .registerServer config tools _ =>
    let serverId := s.registry.registeredId config
    s.Supersedes serverId { config with serverId := some serverId } tools
  | .unregisterServer serverId => s.Releases serverId
  | _ => True

/-- What every run keeps: the two tool tables hold the same names, and every server,
also one still to be visited, stands in the list under its id. -/
structure Tabulated (s : Runtime) : Prop where
  sameNames : ∀ name, s.registry.isMcpTool name ↔ (s.registry.toolServerMap.get? name).isSome
  identified : ∀ server ∈ s.registry.servers, server.serverId.isSome
  queued : s.pending ⊆ s.registry.servers

theorem tabulated_start (configs : List ServerConfig) : (start configs).Tabulated where
  sameNames name := by simp [start,MCPRuntimeRegistry.init,MCPRuntimeRegistry.isMcpTool]
  identified server hs := by
    obtain ⟨index,-,-,rfl⟩ := by simpa [start,MCPRuntimeRegistry.init] using List.mem_mapIdx.mp hs
    rfl
  queued := List.nil_subset _

theorem consistent_start (configs : List ServerConfig) : (start configs).Consistent where
  resolvable name := by simp [start,MCPRuntimeRegistry.init,MCPRuntimeRegistry.isMcpTool,Declares]
  routed name h := by simp [start,MCPRuntimeRegistry.init,MCPRuntimeRegistry.isMcpTool] at h

section registration
variable {s : Runtime} {servers pending : List ServerConfig} {serverId : String}
  {config : ServerConfig} {tools : List ToolDefinition}

def registered (s : Runtime) (servers pending : List ServerConfig) (serverId : String)
    (config : ServerConfig) (tools : List ToolDefinition) (entry : MCPServerRecord) : Runtime where
  registry := { s.registry with servers }.registerServerTools serverId tools entry
  pending := pending
  ledger := s.record serverId config tools

theorem isMcpTool_registered (entry : MCPServerRecord) (name : String) :
    (s.registered servers pending serverId config tools entry).registry.isMcpTool name ↔
      name ∈ toolNames tools ∨ s.registry.isMcpTool name :=
  Dict.isSome_get?_setAll ToolDefinition.name id s.registry.toolIndex tools name

theorem toolServerMap_registered (entry : MCPServerRecord) (name : String) :
    (s.registered servers pending serverId config tools entry).registry.toolServerMap.get? name =
      if name ∈ toolNames tools then some serverId else s.registry.toolServerMap.get? name :=
  Dict.get?_setAll_const ToolDefinition.name serverId s.registry.toolServerMap tools name

theorem ledger_registered (entry : MCPServerRecord) (other : String) :
    (s.registered servers pending serverId config tools entry).ledger.get? other =
      if other = serverId then some { config, tools } else s.ledger.get? other :=
  Dict.get?_set s.ledger serverId other { config, tools }

theorem declares_registered (entry : MCPServerRecord) (other name : String) :
    (s.registered servers pending serverId config tools entry).Declares other name ↔
      if other = serverId then name ∈ toolNames tools else s.Declares other name := by
  unfold Declares
  rw [ledger_registered]
  split_ifs <;> simp

theorem Tabulated.registered (h : s.Tabulated) (entry : MCPServerRecord)
    (hid : ∀ server ∈ servers, server.serverId.isSome) (hq : pending ⊆ servers) :
    (s.registered servers pending serverId config tools entry).Tabulated where
  sameNames name := by
    rw [isMcpTool_registered,toolServerMap_registered,h.sameNames]
    split_ifs with hn <;> simp [hn]
  identified := hid
  queued := hq

/-- A registration keeps the tables right exactly when every name mapped to the server
is declared again and the config found under its id is the new one. -/
theorem consistent_registered_iff (ht : s.Tabulated) (hc : s.Consistent) (entry : MCPServerRecord)
    (hothers : ∀ other, other ≠ serverId → servers.find? (·.serverId = some other) =
      s.registry.servers.find? (·.serverId = some other)) :
    (s.registered servers pending serverId config tools entry).Consistent ↔
      (∀ name, s.registry.toolServerMap.get? name = some serverId → name ∈ toolNames tools) ∧
      (tools = [] ∨ servers.find? (·.serverId = some serverId) = some config) := by
  constructor
  · intro h
    constructor
    · intro name hm
      by_contra hn
      have hres : s.registry.isMcpTool name := (ht.sameNames name).mpr (by rw [hm]; rfl)
      obtain ⟨id,found,hid,hf,hin,-⟩ := h.routed name ((isMcpTool_registered entry name).mpr (.inr hres))
      rw [toolServerMap_registered,if_neg hn,hm] at hid
      obtain rfl := Option.some.inj hid
      rw [ledger_registered,if_pos rfl] at hf
      obtain rfl := Option.some.inj hf
      exact hn hin
    · rcases tools with _ | ⟨tool,tools⟩
      · exact .inl rfl
      · have hn : tool.name ∈ toolNames (tool :: tools) := List.mem_cons_self
        obtain ⟨id,found,hid,hf,-,hfind⟩ :=
          h.routed tool.name ((isMcpTool_registered entry tool.name).mpr (.inl hn))
        rw [toolServerMap_registered,if_pos hn] at hid
        obtain rfl := Option.some.inj hid
        rw [ledger_registered,if_pos rfl] at hf
        obtain rfl := Option.some.inj hf
        exact .inr hfind
  · rintro ⟨hkept,hfirst⟩
    refine Consistent.of_routed (fun name hn => ?_) (fun name id hd => ?_)
    · by_cases hin : name ∈ toolNames tools
      · refine ⟨serverId,{ config, tools },?_,?_,hin,?_⟩
        · rw [toolServerMap_registered,if_pos hin]
        · rw [ledger_registered,if_pos rfl]
        · refine hfirst.resolve_left fun hnil => ?_
          rw [hnil] at hin
          exact absurd hin List.not_mem_nil
      · have hres := ((isMcpTool_registered entry name).mp hn).resolve_left hin
        obtain ⟨id,found,hid,hf,hdecl,hfind⟩ := hc.routed name hres
        have hne : id ≠ serverId := fun heq => hin (hkept name (heq ▸ hid))
        refine ⟨id,found,?_,?_,hdecl,(hothers id hne).trans hfind⟩
        · rw [toolServerMap_registered,if_neg hin,hid]
        · rw [ledger_registered,if_neg hne,hf]
    · rw [declares_registered] at hd
      rw [isMcpTool_registered]
      split_ifs at hd with heq
      · exact .inl hd
      · exact .inr ((hc.resolvable name).mpr ⟨id,hd⟩)

end registration

/-- The first entry of an id, after a config of that id was appended unless present. -/
theorem find?_appended {servers : List ServerConfig} {serverId : String} {config : ServerConfig}
    (hid : config.serverId = some serverId) :
    (if config ∈ servers then servers else servers ++ [config]).find? (·.serverId = some serverId) =
      some config ↔
    ∀ first, servers.find? (·.serverId = some serverId) = some first → first = config := by
  cases hf : servers.find? (·.serverId = some serverId) with
  | none =>
    have hout : config ∉ servers := fun hin =>
      List.find?_eq_none.mp hf config hin (by simpa using hid)
    simp [hout,hf,hid]
  | some first =>
    split_ifs <;> simp [hf]

theorem find?_appended_ne {servers : List ServerConfig} {serverId other : String}
    {config : ServerConfig} (hid : config.serverId = some serverId) (hne : other ≠ serverId) :
    (if config ∈ servers then servers else servers ++ [config]).find? (·.serverId = some other) =
      servers.find? (·.serverId = some other) := by
  split_ifs
  · rfl
  · rw [List.find?_append]
    simp [hid,Ne.symm hne]

/-- Recording a failure touches the records alone. -/
theorem registerFailedServer_ok {reg left : MCPRuntimeRegistry} {server : ServerConfig} {error : String}
    (h : reg.registerFailedServer server error = .ok left) :
    ∃ records, left = { reg with serverRecords := records } := by
  obtain ⟨record,-,hrecord⟩ := bind_eq_ok.mp h
  exact ⟨_,(Except.ok.inj hrecord).symm⟩

/-- What one step leaves, by event; a registration is a registration whether it comes
from a discovery or by hand. -/
theorem step_cases {s t : Runtime} {event : RuntimeEvent} (h : s.step event = some t) :
    (∃ enabled, event = .discoverAll enabled ∧
      t = { s with pending := if enabled then s.registry.servers else [] }) ∨
    (∃ tools entry server pending, event = .discovered tools entry ∧ s.pending = server :: pending ∧
      t = s.registered s.registry.servers pending (server.serverId.getD "") server tools entry) ∨
    (∃ error server pending left records, event = .failed error ∧ s.pending = server :: pending ∧ left ⊆ pending ∧
      t = { s with registry := { s.registry with serverRecords := records }, pending := left }) ∨
    (∃ config tools entry, event = .registerServer config tools entry ∧ s.pending = [] ∧
      let serverId := s.registry.registeredId config
      let config := { config with serverId := some serverId }
      t = s.registered (if config ∈ s.registry.servers then s.registry.servers
        else s.registry.servers ++ [config]) [] serverId config tools entry) ∨
    (∃ serverId, event = .unregisterServer serverId ∧ s.pending = [] ∧
      t = { s with registry := s.registry.unregisterServer serverId, ledger := s.ledger.pop serverId }) ∨
    (∃ tools, event = .registerInternalSupportTools tools ∧
      t = { s with registry := s.registry.registerInternalSupportTools tools }) := by
  cases event with
  | discoverAll enabled =>
    obtain ⟨-,rfl⟩ := by simpa [step] using h
    exact .inl ⟨enabled,rfl,rfl⟩
  | discovered tools entry =>
    cases hp : s.pending with
    | nil => simp [step,hp] at h
    | cons server pending =>
      obtain rfl := by simpa [step,hp] using h
      exact .inr (.inl ⟨tools,entry,server,pending,rfl,rfl,rfl⟩)
  | failed error =>
    cases hp : s.pending with
    | nil => simp [step,hp] at h
    | cons server pending =>
      refine .inr (.inr (.inl ?_))
      unfold step at h
      rw [hp] at h
      dsimp only at h
      split at h
      · next registry hfailed =>
        obtain rfl := Option.some.inj h
        obtain ⟨records,rfl⟩ := registerFailedServer_ok hfailed
        exact ⟨error,server,pending,pending,records,rfl,rfl,List.Subset.refl _,rfl⟩
      · obtain rfl := Option.some.inj h
        exact ⟨error,server,pending,[],s.registry.serverRecords,rfl,rfl,List.nil_subset _,rfl⟩
  | registerServer config tools entry =>
    obtain ⟨hp,rfl⟩ := by simpa [step] using h
    refine .inr (.inr (.inr (.inl ⟨config,tools,entry,rfl,hp,?_⟩)))
    rw [hp]
    rfl
  | unregisterServer serverId =>
    obtain ⟨hp,rfl⟩ := by simpa [step] using h
    exact .inr (.inr (.inr (.inr (.inl ⟨serverId,rfl,hp,rfl⟩))))
  | registerInternalSupportTools tools =>
    obtain ⟨-,rfl⟩ := by simpa [step] using h
    exact .inr (.inr (.inr (.inr (.inr ⟨tools,rfl,rfl⟩))))

section unregistration
variable {s : Runtime} {serverId : String}

def unregistered (s : Runtime) (serverId : String) : Runtime :=
  { s with registry := s.registry.unregisterServer serverId, ledger := s.ledger.pop serverId }

theorem ledger_unregistered (other : String) :
    (s.unregistered serverId).ledger.get? other = if other = serverId then none else s.ledger.get? other :=
  Dict.get?_pop s.ledger serverId other

theorem declares_unregistered (other name : String) :
    (s.unregistered serverId).Declares other name ↔ other ≠ serverId ∧ s.Declares other name := by
  unfold Declares unregistered
  rw [Dict.get?_pop]
  split_ifs with h <;> simp [h]

/-- The id of the in-process server takes nothing out of the tool tables. -/
theorem unregisterServer_internal (h : s.registry.internalServer.any (·.serverId = serverId)) :
    s.registry.unregisterServer serverId =
      { s.registry with internalServer := none, internalDiscoveryTools := [] } :=
  if_pos h

theorem unregisterServer_external (h : ¬s.registry.internalServer.any (·.serverId = serverId)) :
    s.registry.unregisterServer serverId = { s.registry with
      servers := s.registry.servers.filter (·.serverId ≠ some serverId)
      serverRecords := s.registry.serverRecords.pop serverId
      toolIndex := s.registry.toolIndex.popWhere
        fun name => s.registry.toolServerMap.get? name = some serverId
      toolServerMap := s.registry.toolServerMap.popWhere
        fun name => s.registry.toolServerMap.get? name = some serverId } :=
  if_neg h

theorem isMcpTool_unregistered (h : ¬s.registry.internalServer.any (·.serverId = serverId))
    (name : String) : (s.unregistered serverId).registry.isMcpTool name ↔
      s.registry.toolServerMap.get? name ≠ some serverId ∧ s.registry.isMcpTool name := by
  unfold unregistered MCPRuntimeRegistry.isMcpTool
  rw [unregisterServer_external h,Dict.get?_popWhere]
  split_ifs with hm <;> simp_all

theorem toolServerMap_unregistered (h : ¬s.registry.internalServer.any (·.serverId = serverId))
    (name : String) : (s.unregistered serverId).registry.toolServerMap.get? name =
      if s.registry.toolServerMap.get? name = some serverId then none
      else s.registry.toolServerMap.get? name := by
  unfold unregistered
  rw [unregisterServer_external h,Dict.get?_popWhere]
  simp

theorem find?_unregistered (h : ¬s.registry.internalServer.any (·.serverId = serverId))
    {other : String} (hne : other ≠ serverId) :
    (s.unregistered serverId).registry.servers.find? (·.serverId = some other) =
      s.registry.servers.find? (·.serverId = some other) := by
  unfold unregistered
  rw [unregisterServer_external h,List.find?_filter]
  congr 1
  funext server
  by_cases hid : server.serverId = some other <;> simp [hid,hne]

theorem Tabulated.unregistered (h : s.Tabulated) (hp : s.pending = []) :
    (s.unregistered serverId).Tabulated := by
  by_cases hin : s.registry.internalServer.any (·.serverId = serverId)
  · unfold Runtime.unregistered
    rw [unregisterServer_internal hin]
    exact ⟨h.sameNames,h.identified,h.queued⟩
  · refine ⟨fun name => ?_,fun server hs => ?_,fun server hs => ?_⟩
    · rw [isMcpTool_unregistered hin,toolServerMap_unregistered hin,h.sameNames]
      split_ifs with hm <;> simp [hm]
    · unfold Runtime.unregistered at hs
      rw [unregisterServer_external hin] at hs
      exact h.identified server (List.mem_filter.mp hs).1
    · change server ∈ s.pending at hs
      rw [hp] at hs
      exact absurd hs List.not_mem_nil

/-- The in-process server takes its ledger entry along, and leaves the names routed to it. -/
theorem consistent_unregistered_internal_iff (ht : s.Tabulated) (hc : s.Consistent)
    (hin : s.registry.internalServer.any (·.serverId = serverId)) :
    (s.unregistered serverId).Consistent ↔ s.Releases serverId := by
  have hregistry : (s.unregistered serverId).registry =
      { s.registry with internalServer := none, internalDiscoveryTools := [] } := unregisterServer_internal hin
  have hindex : (s.unregistered serverId).registry.isMcpTool = s.registry.isMcpTool := by rw [hregistry]; rfl
  have hmap : (s.unregistered serverId).registry.toolServerMap = s.registry.toolServerMap := by rw [hregistry]
  have hservers : (s.unregistered serverId).registry.servers = s.registry.servers := by rw [hregistry]
  constructor
  · intro h name hm
    have hres : s.registry.isMcpTool name := (ht.sameNames name).mpr (by rw [hm]; rfl)
    obtain ⟨id,found,hid,hf,-,-⟩ := h.routed name (by rw [hindex]; exact hres)
    rw [hmap,hm] at hid
    obtain rfl := Option.some.inj hid
    rw [ledger_unregistered,if_pos rfl] at hf
    cases hf
  · intro h
    refine Consistent.of_routed (fun name hn => ?_) (fun name id hd => ?_)
    · rw [hindex] at hn
      obtain ⟨id,found,hid,hf,hdecl,hfind⟩ := hc.routed name hn
      have hne : id ≠ serverId := fun heq => (h name (heq ▸ hid)).1 hin
      refine ⟨id,found,hmap ▸ hid,?_,hdecl,hservers ▸ hfind⟩
      rw [ledger_unregistered,if_neg hne,hf]
    · rw [hindex]
      exact (hc.resolvable name).mpr ⟨id,((declares_unregistered id name).mp hd).2⟩

theorem consistent_unregistered_external_iff (hc : s.Consistent)
    (hin : ¬s.registry.internalServer.any (·.serverId = serverId)) :
    (s.unregistered serverId).Consistent ↔ s.Releases serverId := by
  constructor
  · intro h name hm
    refine ⟨hin,fun other hne hd => ?_⟩
    have hres := (h.resolvable name).mpr ⟨other,(declares_unregistered other name).mpr ⟨hne,hd⟩⟩
    exact ((isMcpTool_unregistered hin name).mp hres).1 hm
  · intro h
    refine Consistent.of_routed (fun name hn => ?_) (fun name id hd => ?_)
    · obtain ⟨hm,hres⟩ := (isMcpTool_unregistered hin name).mp hn
      obtain ⟨id,found,hid,hf,hdecl,hfind⟩ := hc.routed name hres
      have hne : id ≠ serverId := fun heq => hm (heq ▸ hid)
      refine ⟨id,found,?_,?_,hdecl,(find?_unregistered hin hne).trans hfind⟩
      · rw [toolServerMap_unregistered hin,if_neg hm,hid]
      · rw [ledger_unregistered,if_neg hne,hf]
    · obtain ⟨hne,hd⟩ := (declares_unregistered id name).mp hd
      refine (isMcpTool_unregistered hin name).mpr ⟨fun hm => ?_,(hc.resolvable name).mpr ⟨id,hd⟩⟩
      exact (h name hm).2 id hne hd

/-- An unregistration keeps the tables right exactly when it releases its names. -/
theorem consistent_unregistered_iff (ht : s.Tabulated) (hc : s.Consistent) :
    (s.unregistered serverId).Consistent ↔ s.Releases serverId := by
  by_cases hin : s.registry.internalServer.any (·.serverId = serverId)
  · exact consistent_unregistered_internal_iff ht hc hin
  · exact consistent_unregistered_external_iff hc hin

end unregistration

theorem Tabulated.step {s t : Runtime} {event : RuntimeEvent} (h : s.Tabulated)
    (hs : s.step event = some t) : t.Tabulated := by
  obtain ⟨enabled,-,rfl⟩ | ⟨tools,entry,server,pending,-,hp,rfl⟩ | ⟨error,server,pending,left,records,-,hp,hleft,rfl⟩ |
    ⟨config,tools,entry,-,hp,rfl⟩ | ⟨serverId,-,hp,rfl⟩ | ⟨tools,-,rfl⟩ := step_cases hs
  · refine ⟨h.sameNames,h.identified,?_⟩
    cases enabled with
    | false => exact List.nil_subset _
    | true => exact List.Subset.refl _
  · refine h.registered entry h.identified fun other hin => h.queued ?_
    rw [hp]
    exact List.mem_cons_of_mem server hin
  · refine ⟨h.sameNames,h.identified,fun other hin => h.queued ?_⟩
    rw [hp]
    exact List.mem_cons_of_mem server (hleft hin)
  · refine h.registered entry (fun server hin => ?_) (List.nil_subset _)
    split_ifs at hin
    · exact h.identified server hin
    · rcases List.mem_append.mp hin with hin | hin
      · exact h.identified server hin
      · obtain rfl := List.mem_singleton.mp hin
        rfl
  · exact h.unregistered hp
  · exact ⟨h.sameNames,h.identified,h.queued⟩

/-- From a consistent state a step leads to a consistent one exactly if it is careful. -/
theorem consistent_step_iff {s t : Runtime} {event : RuntimeEvent} (ht : s.Tabulated)
    (hc : s.Consistent) (hs : s.step event = some t) : t.Consistent ↔ s.Careful event := by
  obtain ⟨enabled,rfl,rfl⟩ | ⟨tools,entry,server,pending,rfl,hp,rfl⟩ | ⟨error,server,pending,left,records,rfl,hp,hleft,rfl⟩ |
    ⟨config,tools,entry,rfl,hp,rfl⟩ | ⟨serverId,rfl,hp,rfl⟩ | ⟨tools,rfl,rfl⟩ := step_cases hs
  · exact ⟨fun _ => trivial,fun _ => ⟨hc.resolvable,hc.routed⟩⟩
  · rw [consistent_registered_iff ht hc entry fun other _ => rfl]
    have hin : server ∈ s.registry.servers := ht.queued (by rw [hp]; exact List.mem_cons_self)
    have hid : server.serverId = some (server.serverId.getD "") := by
      obtain ⟨serverId,hid⟩ := Option.isSome_iff_exists.mp (ht.identified server hin)
      rw [hid,Option.getD_some]
    have hfirst : s.registry.servers.find? (·.serverId = some (server.serverId.getD "")) = some server ↔ _ :=
      if_pos hin ▸ find?_appended hid
    rw [hfirst]
    unfold Careful
    rw [hp]
    simp only [List.head?_cons,Option.mem_some_iff,forall_eq']
    rfl
  · exact ⟨fun _ => trivial,fun _ => ⟨hc.resolvable,hc.routed⟩⟩
  · rw [consistent_registered_iff ht hc entry fun other hne => find?_appended_ne rfl hne,
      find?_appended rfl]
    rfl
  · exact consistent_unregistered_iff ht hc
  · exact ⟨fun _ => trivial,fun _ => ⟨hc.resolvable,hc.routed⟩⟩

/-- In a run from the constructor's registry every state is consistent exactly when
every step is careful. -/
theorem registry_consistent_iff (configs : List ServerConfig) (events : List RuntimeEvent) :
    (∀ s, Visits step (start configs) events s → s.Consistent) ↔
      ∀ s event t, Fires step (start configs) events s event t → s.Careful event :=
  visits_good_iff (tabulated_start configs) (consistent_start configs)
    (fun _ _ _ ht hs => ht.step hs) fun _ _ _ ht hc hs => consistent_step_iff ht hc hs

/-- A server registered again after its command was repaired: its tool resolves, and the
broken command is what an invocation still finds. -/
private def repair : List RuntimeEvent :=
  let server (command : String) : ServerConfig := { id := some "crm", command := some command }
  let tool : ToolDefinition := { name := "lookup", description := "" }
  let entry : MCPServerRecord := { serverId := "crm", name := "crm", transport := "stdio", status := .healthy }
  [.registerServer (server "broken") [tool] entry,.registerServer (server "repaired") [tool] entry]

theorem repaired_config_unused :
    ¬∀ configs events s, Visits step (start configs) events s → s.Consistent := by
  intro h
  obtain ⟨s,hs⟩ : ∃ s, run step (start []) repair = some s := Option.isSome_iff_exists.mp (by decide +kernel)
  have hc := h [] repair s (Visits.of_run hs)
  have hfacts : (run step (start []) repair).all (fun s =>
      s.registry.isMcpTool "lookup" && s.registry.toolServerMap.get? "lookup" = some "crm" &&
      (s.registry.servers.find? (·.serverId = some "crm")).map (·.command) = some (some (.str "broken")) &&
      (s.ledger.get? "crm").map (·.config.command) = some (some (.str "repaired"))) := by decide +kernel
  rw [hs] at hfacts
  simp only [Option.all_some,Bool.and_eq_true,decide_eq_true_eq] at hfacts
  obtain ⟨⟨⟨hres,hmap⟩,hfirst⟩,hlatest⟩ := hfacts
  obtain ⟨id,entry,hid,hentry,-,hfind⟩ := hc.routed "lookup" hres
  obtain rfl := Option.some.inj (hmap.symm.trans hid)
  rw [hfind] at hfirst
  rw [hentry] at hlatest
  have heq := hfirst.symm.trans hlatest
  exact absurd heq (by decide +kernel)

end Runtime
end VoxForge.Tools
