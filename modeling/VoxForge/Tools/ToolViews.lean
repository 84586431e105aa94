import VoxForge.Foundation.Fallible
import VoxForge.Tools.ScopeEnforcement

/-! Three views of the tools: the names listed to the executor, the names bound to its
model, and the names that execution resolves. Only handlers are bound, and only if
LangChain accepts every one of them; the views then agree exactly where the MCP registry
adds no name of its own. -/
namespace VoxForge.Tools
open Foundation Core

/-- LangChain's class of tools. Its constructor may raise; what it builds has the given name. -/
structure StructuredTool where
  Tool : Type
  init : (name description : String) → (coroutine : Arguments → Except Fault String) → Except Fault Tool
  name : Tool → String
  name_init : ∀ toolName description coroutine tool, init toolName description coroutine = .ok tool → name tool = toolName

section langchain
variable (lc : StructuredTool)

def StructuredTool.ofHandler (handler : Handler) : Except Fault lc.Tool :=
  lc.init handler.name handler.description handler.invoke

def ToolRegistry.getLangchainTools (reg : ToolRegistry) : Except Fault (List lc.Tool) :=
  reg.handlers.values.mapM lc.ofHandler

end langchain

/-- A name is executed as an MCP tool or through a handler. -/
def ToolRegistry.resolves (reg : ToolRegistry) (name : String) : Bool :=
  reg.isMcpTool name || (reg.getHandler name).isSome

namespace ToolRouter

def listTools (router : ToolRouter) (toolsEnabled : Bool) : List ToolDefinition :=
  if !toolsEnabled then [] else router.registry.listDefinitions

def getLangchainTools (lc : StructuredTool) (router : ToolRouter) (toolsEnabled : Bool) :
    Except Fault (List lc.Tool) :=
  if !toolsEnabled then .ok [] else router.registry.getLangchainTools lc

/-- Every other name is answered as unknown, and only such a name is. -/
theorem invoke_unknown_iff (router : ToolRouter) (name : String) (arguments : Arguments) :
    router.invoke name arguments = (none,.error (.raised ("Unknown tool: " ++ name))) ↔
      router.registry.resolves name = false := by
  unfold invoke ToolRegistry.resolves ToolRegistry.isMcpTool MCPRuntimeRegistry.isMcpTool
  cases hm : router.registry.mcpRegistry with
  | none => cases hh : router.registry.getHandler name <;> simp
  | some mcp =>
    cases hd : mcp.getTool name with
    | none =>
      have hindex : mcp.toolIndex.get? name = none := hd
      cases hh : router.registry.getHandler name <;> simp [hd,hindex]
    | some definition =>
      have hindex : mcp.toolIndex.get? name = some definition := hd
      cases hr : mcp.route name <;> simp [hd,hindex,hr]

/-- Tools are bound, and the views agree on their names: what is listed is bound, and what is
bound is what execution resolves. -/
def ViewsAgree (lc : StructuredTool) (router : ToolRouter) (toolsEnabled : Bool) : Prop :=
  ∃ tools, router.getLangchainTools lc toolsEnabled = .ok tools ∧
    (∀ name, name ∈ (router.listTools toolsEnabled).map (·.name) ↔ name ∈ tools.map lc.name) ∧
    ∀ name, name ∈ tools.map lc.name ↔ router.registry.resolves name

end ToolRouter

namespace ToolRegistry
variable {reg : ToolRegistry}

/-- Tools are built for a registry exactly if LangChain accepts every handler. -/
theorem exists_getLangchainTools (lc : StructuredTool) :
    (∃ tools, reg.getLangchainTools lc = .ok tools) ↔ ∀ handler ∈ reg.handlers.values, ∃ tool, lc.ofHandler handler = .ok tool :=
  exists_mapM_ok

theorem mem_bound (h : reg.WellFormed) {lc : StructuredTool} {tools : List lc.Tool}
    (hbound : reg.getLangchainTools lc = .ok tools) (name : String) :
    name ∈ tools.map lc.name ↔ (reg.getHandler name).isSome := by
  have hnames : tools.map lc.name = reg.handlers.values.map (·.name) :=
    map_of_mapM_ok hbound fun handler tool htool => lc.name_init _ _ _ tool htool
  rw [hnames]
  exact Dict.mem_map_values h.keyed name

theorem mem_listed (h : reg.WellFormed) (name : String) :
    name ∈ reg.listDefinitions.map (·.name) ↔
      (reg.getHandler name).isSome ∨ reg.isMcpTool name ∨ reg.advertises name := by
  unfold listDefinitions
  rw [List.map_append,List.map_map,List.mem_append]
  refine or_congr (Dict.mem_map_values h.keyed name) ?_
  cases hm : reg.mcpRegistry with
  | none => simp [isMcpTool,advertises,hm]
  | some mcp =>
    rw [Option.map_some,Option.getD_some,MCPRuntimeRegistry.listToolDefinitions,List.map_append,
      List.mem_append]
    refine or_congr ?_ ?_
    · unfold isMcpTool
      rw [hm]
      exact Dict.mem_map_values (h.indexed mcp hm).keyed name
    · unfold advertises MCPRuntimeRegistry.advertises
      rw [hm]
      simp

theorem resolves_iff (name : String) :
    reg.resolves name ↔ reg.isMcpTool name ∨ (reg.getHandler name).isSome :=
  Bool.or_eq_true_iff

end ToolRegistry

/-- With tools enabled the three views agree exactly when LangChain accepts every handler and
every name that an MCP server or the in-process metadata adds is also the name of a handler;
with tools disabled, exactly when there is nothing to execute. -/
theorem views_agree_iff (lc : StructuredTool) (builtinTools extraTools : List Handler)
    (mcp : Option (List ServerConfig × List MCPRuntimeRegistry.Op))
    (invocation : ServerConfig → String → Arguments → Except Fault ToolResult)
    (repository toolsEnabled : Bool) :
    let router : ToolRouter :=
      { registry := .build builtinTools extraTools mcp, invocation, repository }
    router.ViewsAgree lc toolsEnabled ↔
      if toolsEnabled then
        (∀ handler ∈ router.registry.handlers.values, ∃ tool, lc.ofHandler handler = .ok tool) ∧
        ∀ name, router.registry.isMcpTool name ∨ router.registry.advertises name →
          (router.registry.getHandler name).isSome
      else ∀ name, ¬router.registry.isMcpTool name ∧ router.registry.getHandler name = none := by
  intro router
  have hw : router.registry.WellFormed := ToolRegistry.wellFormed_build builtinTools extraTools mcp
  cases toolsEnabled with
  | false =>
    constructor
    · rintro ⟨tools,hbound,-,hexecuted⟩ name
      obtain rfl : [] = tools := Except.ok.inj hbound
      have hres : ¬router.registry.resolves name := fun hres =>
        absurd ((hexecuted name).mpr hres) List.not_mem_nil
      rw [ToolRegistry.resolves_iff,not_or] at hres
      exact ⟨hres.1,by simpa using hres.2⟩
    · intro h
      refine ⟨[],rfl,fun name => Iff.rfl,fun name => ⟨fun hn => absurd hn List.not_mem_nil,fun hres => ?_⟩⟩
      obtain ⟨hmcp,hhandler⟩ := h name
      rcases (ToolRegistry.resolves_iff name).mp hres with hm | hh
      · exact absurd hm hmcp
      · rw [hhandler] at hh
        cases hh
  | true =>
    constructor
    · rintro ⟨tools,hbound,hlisted,-⟩
      refine ⟨(ToolRegistry.exists_getLangchainTools lc).mp ⟨tools,hbound⟩,fun name hn => ?_⟩
      have hlist := (ToolRegistry.mem_listed hw name).mpr (.inr hn)
      exact (ToolRegistry.mem_bound hw hbound name).mp ((hlisted name).mp hlist)
    · rintro ⟨haccepted,h⟩
      obtain ⟨tools,hbound⟩ := (ToolRegistry.exists_getLangchainTools lc).mpr haccepted
      refine ⟨tools,hbound,fun name => ?_,fun name => ?_⟩
      · refine (ToolRegistry.mem_listed hw name).trans (Iff.trans ?_ (ToolRegistry.mem_bound hw hbound name).symm)
        exact ⟨fun hn => hn.elim id (h name),Or.inl⟩
      · refine (ToolRegistry.mem_bound hw hbound name).trans (Iff.trans ?_ (ToolRegistry.resolves_iff name).symm)
        exact ⟨Or.inr,fun hn => hn.elim (fun hm => h name (.inl hm)) id⟩

def readFile : ToolDefinition where
  name := "read_file"
  description := ""

def filesRecord : MCPServerRecord where
  serverId := "fs"
  name := "fs"
  transport := "stdio"
  status := .healthy

/-- The built-in tools and one MCP server, whose discovery has returned `read_file`. -/
def discoveredRouter : ToolRouter where
  registry := .build (builtinTools fun _ _ => .ok "") []
    (some ([{ id := some "fs" }],[.discoverAll true fun _ => .ok ([readFile],filesRecord)]))
  invocation _ name _ := .ok { toolName := name, output := "" }

/-- The built-in tools alone. -/
def startUpRouter : ToolRouter where
  registry := .build (builtinTools fun _ _ => .ok "") [] none
  invocation _ name _ := .ok { toolName := name, output := "" }

/-- A class whose constructor misses `args_schema`. -/
def schemaRequired : StructuredTool where
  Tool := Empty
  init _ _ _ := .error (.raised "args_schema: Field required")
  name tool := nomatch tool
  name_init _ _ _ tool := nomatch tool

/-- A discovered MCP tool is listed to the executor and executed, and whatever LangChain does with
the handlers, it is not bound. Where LangChain refuses them, nothing is bound at all. -/
theorem discovered_tool_unbound :
    "read_file" ∈ (discoveredRouter.listTools true).map (·.name) ∧
    discoveredRouter.registry.resolves "read_file" = true ∧
    (¬∃ lc, discoveredRouter.ViewsAgree lc true) ∧
    (∃ e, startUpRouter.getLangchainTools schemaRequired true = .error e) ∧
    ¬startUpRouter.ViewsAgree schemaRequired true := by
  have hrefused : ∃ e, startUpRouter.getLangchainTools schemaRequired true = .error e := ⟨_,rfl⟩
  refine ⟨by decide +kernel,by decide +kernel,?_,hrefused,?_⟩
  · rintro ⟨lc,tools,hbound,hlisted,-⟩
    have hw : discoveredRouter.registry.WellFormed := ToolRegistry.wellFormed_build _ _ _
    have hmem := (hlisted "read_file").mp (by decide +kernel)
    exact absurd ((ToolRegistry.mem_bound hw hbound "read_file").mp hmem) (by decide +kernel)
  · rintro ⟨tools,hbound,-⟩
    obtain ⟨e,he⟩ := hrefused
    cases hbound.symm.trans he

end VoxForge.Tools
