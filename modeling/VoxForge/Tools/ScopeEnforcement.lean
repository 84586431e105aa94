import VoxForge.Foundation.Fallible
import VoxForge.Tools.Router

/-! Scope enforcement over every registry the program can build. The check reads
one merged table of definitions and the execution reads two others; they name the
same object except where in-process discovery metadata shadows it. -/
namespace VoxForge.Tools
open Foundation Core

/-- What a caller with `scopes` may obtain: a body only with all its scopes, and
an error where nothing runs. -/
structure Enforced (scopes : List Scope) (execution : Execution) : Prop where
  allowed : ∀ body, execution.ran = some body → body.requiredScopes ⊆ scopes
  refused : execution.ran = none → execution.result.status = .error

namespace MCPRuntimeRegistry

/-- Tools are indexed under their own names, and the metadata of in-process tools
carries no scopes. -/
structure WellIndexed (reg : MCPRuntimeRegistry) : Prop where
  keyed : ∀ name definition, reg.toolIndex.get? name = some definition → definition.name = name
  unscoped : ∀ definition ∈ reg.internalDiscoveryTools, definition.requiredScopes = []

theorem wellIndexed_init (configs : List ServerConfig) : (init configs).WellIndexed where
  keyed name definition h := by simp [init] at h
  unscoped definition h := by simp [init] at h

theorem WellIndexed.registerServerTools {reg : MCPRuntimeRegistry} (h : reg.WellIndexed)
    (serverId : String) (tools : List ToolDefinition) (record : MCPServerRecord) :
    (reg.registerServerTools serverId tools record).WellIndexed where
  keyed := Dict.setAll_forall h.keyed fun _ _ => rfl
  unscoped := h.unscoped

theorem WellIndexed.registerFailedServer {reg left : MCPRuntimeRegistry} (h : reg.WellIndexed)
    {server : ServerConfig} {error : String} (hleft : reg.registerFailedServer server error = .ok left) :
    left.WellIndexed := by
  obtain ⟨record,-,hrecord⟩ := bind_eq_ok.mp hleft
  obtain rfl := Except.ok.inj hrecord
  exact ⟨h.keyed,h.unscoped⟩

theorem WellIndexed.discoverServers {reg : MCPRuntimeRegistry} (h : reg.WellIndexed)
    (discover : ServerConfig → Except String (List ToolDefinition × MCPServerRecord)) (servers : List ServerConfig) :
    (discoverServers discover servers reg).1.WellIndexed := by
  induction servers generalizing reg with
  | nil => exact h
  | cons server servers ih =>
    unfold MCPRuntimeRegistry.discoverServers
    cases discover server with
    | ok found => exact ih (h.registerServerTools _ _ _)
    | error message =>
      cases hleft : reg.registerFailedServer server message with
      | ok left =>
        dsimp only
        rw [hleft]
        exact ih (h.registerFailedServer hleft)
      | error e =>
        dsimp only
        rw [hleft]
        exact h

theorem WellIndexed.discoverAll {reg : MCPRuntimeRegistry} (h : reg.WellIndexed) (enabled : Bool)
    (discover : ServerConfig → Except String (List ToolDefinition × MCPServerRecord)) :
    (reg.discoverAll enabled discover).1.WellIndexed := by
  unfold MCPRuntimeRegistry.discoverAll
  split_ifs
  · exact h
  · exact h.discoverServers discover reg.servers

theorem WellIndexed.unregisterServer {reg : MCPRuntimeRegistry} (h : reg.WellIndexed)
    (serverId : String) : (reg.unregisterServer serverId).WellIndexed := by
  unfold MCPRuntimeRegistry.unregisterServer
  split_ifs
  · exact ⟨h.keyed,fun definition hd => absurd hd List.not_mem_nil⟩
  · refine ⟨fun name definition hd => ?_,h.unscoped⟩
    dsimp only at hd
    rw [Dict.get?_popWhere] at hd
    split_ifs at hd
    exact h.keyed name definition hd

theorem WellIndexed.registerInternalSupportTools {reg : MCPRuntimeRegistry} (h : reg.WellIndexed)
    (tools : List Handler) : (reg.registerInternalSupportTools tools).WellIndexed := by
  refine ⟨h.keyed,fun definition hd => ?_⟩
  obtain ⟨tool,-,rfl⟩ := List.mem_map.mp hd
  rfl

theorem WellIndexed.apply {reg : MCPRuntimeRegistry} (h : reg.WellIndexed) (op : Op) :
    (reg.apply op).WellIndexed := by
  cases op with
  | discoverAll enabled discover => exact h.discoverAll enabled discover
  | registerServer config tools record =>
    refine WellIndexed.registerServerTools ?_ _ tools record
    exact ⟨h.keyed,h.unscoped⟩
  | unregisterServer serverId => exact h.unregisterServer serverId
  | registerInternalSupportTools tools => exact h.registerInternalSupportTools tools

theorem wellIndexed_reached (configs : List ServerConfig) (ops : List Op) :
    (reached configs ops).WellIndexed := by
  unfold reached
  generalize hreg : init configs = reg
  have h : reg.WellIndexed := hreg ▸ wellIndexed_init configs
  clear hreg
  induction ops generalizing reg with
  | nil => exact h
  | cons op ops ih => exact ih (reg.apply op) (h.apply op)

/-- The in-process metadata holds a tool of this name. -/
def advertises (reg : MCPRuntimeRegistry) (name : String) : Bool :=
  reg.internalDiscoveryTools.any (·.name = name)

end MCPRuntimeRegistry

namespace ToolRegistry

/-- The registry over the built-in and the extra tools, with the MCP registry that
the operations so far have left (or none). -/
def build (builtinTools extraTools : List Handler)
    (mcp : Option (List ServerConfig × List MCPRuntimeRegistry.Op)) : ToolRegistry :=
  create builtinTools extraTools (mcp.map fun built => MCPRuntimeRegistry.reached built.1 built.2)

def advertises (reg : ToolRegistry) (name : String) : Bool := reg.mcpRegistry.any (·.advertises name)

/-- Handlers stand under their own names, over a well-indexed MCP registry. -/
structure WellFormed (reg : ToolRegistry) : Prop where
  keyed : ∀ name tool, reg.handlers.get? name = some tool → tool.name = name
  indexed : ∀ mcp, reg.mcpRegistry = some mcp → mcp.WellIndexed

theorem wellFormed_build (builtinTools extraTools : List Handler)
    (mcp : Option (List ServerConfig × List MCPRuntimeRegistry.Op)) :
    (build builtinTools extraTools mcp).WellFormed where
  keyed := Dict.setAll_forall (Dict.setAll_forall (by simp) fun _ _ => rfl) fun _ _ => rfl
  indexed reached h := by
    cases mcp with
    | none => simp [build,create] at h
    | some built =>
      have heq : MCPRuntimeRegistry.reached built.1 built.2 = reached := by
        simpa [build,create] using h
      exact heq ▸ MCPRuntimeRegistry.wellIndexed_reached built.1 built.2

/-- The definition that the scope check finds for a name. -/
def checked? (reg : ToolRegistry) (name : String) : Option ToolDefinition :=
  (Dict.empty.setAll (·.name) id reg.listDefinitions).get? name

private theorem checked?_eq (reg : ToolRegistry) (h : reg.WellFormed) (name : String) :
    reg.checked? name =
      ((reg.mcpRegistry.bind fun mcp =>
        (mcp.internalDiscoveryTools.reverse.find? (·.name = name)).or (mcp.getTool name))).or
      ((reg.getHandler name).map Handler.definition) := by
  have hhandlers : (reg.handlers.values.map Handler.definition).reverse.find? (·.name = name) =
      (reg.getHandler name).map Handler.definition := by
    rw [← List.map_reverse,List.find?_map]
    exact congrArg _ (Dict.find?_values h.keyed name)
  unfold checked? listDefinitions
  rw [Dict.get?_setAll]
  cases hm : reg.mcpRegistry with
  | none => simpa using hhandlers
  | some mcp =>
    have hindex := Dict.find?_values (h.indexed mcp hm).keyed name
    simp only [Option.map_some,Option.getD_some,MCPRuntimeRegistry.listToolDefinitions,
      List.reverse_append,List.find?_append,hhandlers,hindex,MCPRuntimeRegistry.getTool,
      Option.map_id,Dict.get?_empty,Option.or_none,Option.bind_some,id_eq]

/-- Shadowed by in-process metadata, a name is checked against no scopes. -/
theorem checked?_advertised (reg : ToolRegistry) (h : reg.WellFormed) (name : String)
    (ha : reg.advertises name) :
    ∃ definition, reg.checked? name = some definition ∧ definition.requiredScopes = [] := by
  obtain ⟨mcp,hm,hmcp⟩ := (Option.any_eq_true _ _).mp ha
  obtain ⟨d,hd,hname⟩ := List.any_eq_true.mp hmcp
  have hfound : (mcp.internalDiscoveryTools.reverse.find? (·.name = name)).isSome :=
    List.find?_isSome.mpr ⟨d,List.mem_reverse.mpr hd,hname⟩
  obtain ⟨definition,hdef⟩ := Option.isSome_iff_exists.mp hfound
  refine ⟨definition,?_,?_⟩
  · rw [checked?_eq reg h,hm,Option.bind_some,hdef]
    rfl
  · exact (h.indexed mcp hm).unscoped definition
      (List.mem_reverse.mp (List.mem_of_find?_eq_some hdef))

/-- Otherwise the check reads the definition of what would run. -/
theorem checked?_plain (reg : ToolRegistry) (h : reg.WellFormed) (name : String)
    (ha : ¬reg.advertises name) :
    reg.checked? name =
      (reg.mcpRegistry.bind (·.getTool name)).or ((reg.getHandler name).map Handler.definition) := by
  rw [checked?_eq reg h]
  cases hm : reg.mcpRegistry with
  | none => rfl
  | some mcp =>
    have hnone : mcp.internalDiscoveryTools.reverse.find? (·.name = name) = none := by
      rw [List.find?_eq_none]
      intro d hd hname
      apply ha
      rw [advertises,hm]
      exact List.any_eq_true.mpr ⟨d,List.mem_reverse.mp hd,hname⟩
    rw [Option.bind_some,Option.bind_some,hnone,Option.none_or]

end ToolRegistry

namespace ToolRouter

theorem checkRequiredScopes_eq_none (router : ToolRouter) (name : String) (scopes : List Scope) :
    router.checkRequiredScopes name scopes = none ↔
      ∀ definition, router.registry.checked? name = some definition →
        definition.requiredScopes ⊆ scopes := by
  have hchecked : (Dict.empty.setAll (·.name) id router.registry.listDefinitions).get? name =
      router.registry.checked? name := rfl
  simp only [checkRequiredScopes]
  rw [hchecked]
  cases router.registry.checked? name with
  | none => simp
  | some definition => simp [List.filter_eq_nil_iff,List.subset_def]

/-- The definition that the check should have read: that of the body. -/
theorem checked?_body (router : ToolRouter) (h : router.registry.WellFormed) (name : String)
    (ha : ¬router.registry.advertises name) {body : Body} (hb : router.body? name = some body) :
    ∃ definition, router.registry.checked? name = some definition ∧
      definition.requiredScopes = body.requiredScopes := by
  rw [router.registry.checked?_plain h name ha]
  unfold body? at hb
  cases hd : router.registry.mcpRegistry.bind (·.getTool name) with
  | some definition =>
    rw [hd] at hb
    obtain ⟨server,-,rfl⟩ := Option.map_eq_some_iff.mp hb
    exact ⟨definition,rfl,rfl⟩
  | none =>
    rw [hd] at hb
    obtain ⟨tool,ht,rfl⟩ := Option.map_eq_some_iff.mp hb
    exact ⟨tool.definition,by simp [ht],rfl⟩

end ToolRouter

/-- Over every registry the program can build, a call is enforced exactly when no
in-process metadata shadows the name, or the caller holds the scopes of the body
the name stands for. -/
theorem scopes_enforced_iff (builtinTools extraTools : List Handler)
    (mcp : Option (List ServerConfig × List MCPRuntimeRegistry.Op))
    (invocation : ServerConfig → String → Arguments → Except Fault ToolResult) (repository : Bool)
    (name : String) (arguments : Arguments) (callerScopes : Option (List Scope)) :
    let router : ToolRouter :=
      { registry := .build builtinTools extraTools mcp, invocation, repository }
    Enforced (callerScopes.getD []) (router.execute name arguments callerScopes) ↔
      ¬router.registry.advertises name ∨
        ∀ body, router.body? name = some body → body.requiredScopes ⊆ callerScopes.getD [] := by
  intro router
  have hw : router.registry.WellFormed := ToolRegistry.wellFormed_build builtinTools extraTools mcp
  constructor
  · intro henf
    by_contra hcon
    rw [not_or,not_not] at hcon
    obtain ⟨ha,hbody⟩ := hcon
    obtain ⟨definition,hdef,hnone⟩ := router.registry.checked?_advertised hw name ha
    have hc : router.checkRequiredScopes name (callerScopes.getD []) = none := by
      rw [router.checkRequiredScopes_eq_none]
      intro d hd
      rw [hdef] at hd
      cases hd
      simp [hnone]
    rcases router.execute_cases name arguments callerScopes with ⟨hne,-,-⟩ | ⟨-,hran,-⟩
    · exact hne hc
    · exact hbody fun body hb => henf.allowed body (hran.trans hb)
  · intro hcond
    rcases router.execute_cases name arguments callerScopes with ⟨-,hran,hst⟩ | ⟨hc,hran,hst⟩
    · exact ⟨fun body hb => by simp [hran] at hb,fun _ => hst⟩
    · refine ⟨fun body hb => ?_,fun hn => hst (hran.symm.trans hn)⟩
      have hbody := hran.symm.trans hb
      rcases hcond with ha | hall
      · obtain ⟨definition,hdef,hscopes⟩ := router.checked?_body hw name ha hbody
        exact hscopes ▸ (router.checkRequiredScopes_eq_none name _).mp hc definition hdef
      · exact hall body hbody

/-- With the support tools registered for discovery, as at start-up, a caller
without any scope creates a ticket. -/
theorem ticket_created_without_scope :
    ¬Enforced [] (ToolRouter.execute
      { registry := .build (builtinTools fun _ _ => .ok "") (buildSupportTools fun _ => .ok "created")
          (some ([],[.registerInternalSupportTools (buildSupportTools fun _ => .ok "created")]))
        invocation := fun _ name _ => .ok { toolName := name, output := "" } }
      "ticket_create" "" (some [])) := by
  intro h
  have hran := h.allowed (.handler (ticketCreateTool fun _ => .ok "created")) rfl
  exact absurd (hran (by decide : "handoffs:write" ∈ ["handoffs:write"])) (by decide)

end VoxForge.Tools
