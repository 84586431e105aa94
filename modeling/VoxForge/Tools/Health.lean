import VoxForge.Foundation.Rows
import VoxForge.Tools.Discovery

/-! The first discovery of the configured servers: what one of them answers settles its own
record and its own tools, whatever becomes of the others, and the health report counts it. The
exception is a failure that cannot be recorded, which ends the discovery. -/
namespace VoxForge.Tools
open Foundation Core MCPRuntimeRegistry

structure MCPRegistryHealth where
  status : String
  serverCount : Nat
  healthyCount : Nat
  degradedCount : Nat
  offlineCount : Nat
  toolCount : Nat
  servers : List MCPServerRecord
  deriving DecidableEq, Repr

namespace MCPRuntimeRegistry

def listServers (reg : MCPRuntimeRegistry) : List MCPServerRecord :=
  reg.serverRecords.values ++ reg.internalServer.toList

def getHealth (reg : MCPRuntimeRegistry) : MCPRegistryHealth :=
  let servers := reg.listServers
  let healthy := servers.countP (·.status = .healthy)
  let degraded := servers.countP (·.status = .degraded)
  let offline := servers.countP (·.status = .offline)
  { status :=
      if servers = [] then "idle"
      else if offline = servers.length then "offline"
      else if healthy = servers.length then "healthy"
      else "degraded"
    serverCount := servers.length
    healthyCount := healthy
    degradedCount := degraded
    offlineCount := offline
    toolCount := reg.toolIndex.values.length + reg.internalDiscoveryTools.length
    servers }

end MCPRuntimeRegistry

section settled
variable (discover : ServerConfig → Except String (List ToolDefinition × MCPServerRecord))

/-- The id that a configured server has been given. -/
def ServerConfig.key (server : ServerConfig) : String := server.serverId.getD ""

def ConfigValue.isStr : ConfigValue → Bool
  | .str _ => true
  | .other .. => false

/-- What is known of the server without its answer makes a record. -/
def ServerConfig.WellTyped (server : ServerConfig) : Prop :=
  server.name.all (·.isStr) = true ∧ server.transport.all (·.isStr) = true

/-- Its answer, or its failure to answer, can be recorded. -/
def Recordable (server : ServerConfig) : Prop := (discover server).isOk = true ∨ server.WellTyped

/-- The record that a server's own answer leaves. -/
def settledRecord (server : ServerConfig) : Except ValidationError MCPServerRecord :=
  match discover server with
  | .ok found => .ok found.2
  | .error message => failedRecord server message

/-- The tools that a server's own answer brings. -/
def settledTools (server : ServerConfig) : List ToolDefinition :=
  match discover server with
  | .ok found => found.1
  | .error _ => []

/-- The registry after the answers of some servers. -/
def visit (reg : MCPRuntimeRegistry) (visited : List ServerConfig) : MCPRuntimeRegistry :=
  visited.foldl (fun reg server => Runtime.settleDiscovery reg server (discover server)) reg

variable {discover} {reg : MCPRuntimeRegistry}

section tables
variable (server : ServerConfig)

theorem failedRecord_isOk (message : String) : (failedRecord server message).isOk = true ↔ server.WellTyped := by
  unfold failedRecord ServerConfig.WellTyped
  rcases server.name with _ | _ | _
  all_goals
    rcases server.transport with _ | _ | _
    all_goals simp [Except.isOk,Except.toBool,ConfigValue.isStr]

theorem recordable_iff : Recordable discover server ↔ ∃ record, settledRecord discover server = .ok record := by
  unfold Recordable settledRecord
  cases discover server with
  | ok found => exact iff_of_true (.inl rfl) ⟨found.2,rfl⟩
  | error message =>
    dsimp only
    rw [← failedRecord_isOk server message]
    cases failedRecord server message <;> simp [Except.isOk,Except.toBool]

theorem settles_iff : Runtime.settles discover server = true ↔ Recordable discover server := by
  unfold Runtime.settles Recordable
  cases discover server with
  | ok found => exact iff_of_true rfl (.inl rfl)
  | error message =>
    dsimp only
    rw [failedRecord_isOk]
    exact (or_iff_right (by simp [Except.isOk,Except.toBool])).symm

/-- What an answer leaves of the registry, apart from its own tools. -/
theorem settle_cases : ∃ records,
    Runtime.settleDiscovery reg server (discover server) = { reg with
      serverRecords := records
      toolIndex := reg.toolIndex.setAll (·.name) id (settledTools discover server)
      toolServerMap := reg.toolServerMap.setAll (·.name) (fun _ => server.key) (settledTools discover server) } ∧
    ∀ record, settledRecord discover server = .ok record → records = reg.serverRecords.set server.key record := by
  unfold settledTools settledRecord Runtime.settleDiscovery
  cases discover server with
  | ok found =>
    refine ⟨_,rfl,?_⟩
    rintro _ ⟨⟩
    rfl
  | error message =>
    unfold registerFailedServer
    dsimp only
    cases failedRecord server message with
    | ok record =>
      refine ⟨_,rfl,?_⟩
      rintro _ ⟨⟩
      rfl
    | error e => exact ⟨reg.serverRecords,rfl,nofun⟩

theorem serverRecords_settle {record : MCPServerRecord} (h : settledRecord discover server = .ok record) :
    (Runtime.settleDiscovery reg server (discover server)).serverRecords = reg.serverRecords.set server.key record := by
  obtain ⟨records,heq,hrecords⟩ := @settle_cases discover reg server
  rw [heq]
  exact hrecords record h

theorem toolIndex_settle : (Runtime.settleDiscovery reg server (discover server)).toolIndex =
    reg.toolIndex.setAll (·.name) id (settledTools discover server) := by
  obtain ⟨records,heq,-⟩ := @settle_cases discover reg server
  rw [heq]

theorem toolServerMap_settle : (Runtime.settleDiscovery reg server (discover server)).toolServerMap =
    reg.toolServerMap.setAll (·.name) (fun _ => server.key) (settledTools discover server) := by
  obtain ⟨records,heq,-⟩ := @settle_cases discover reg server
  rw [heq]

theorem servers_settle : (Runtime.settleDiscovery reg server (discover server)).servers = reg.servers := by
  obtain ⟨records,heq,-⟩ := @settle_cases discover reg server
  rw [heq]

theorem internalServer_settle :
    (Runtime.settleDiscovery reg server (discover server)).internalServer = reg.internalServer := by
  obtain ⟨records,heq,-⟩ := @settle_cases discover reg server
  rw [heq]

end tables

variable {visited : List ServerConfig}

theorem servers_visit : (visit discover reg visited).servers = reg.servers := by
  induction visited generalizing reg with
  | nil => rfl
  | cons server visited ih => exact ih.trans (servers_settle server)

theorem internalServer_visit : (visit discover reg visited).internalServer = reg.internalServer := by
  induction visited generalizing reg with
  | nil => rfl
  | cons server visited ih => exact ih.trans (internalServer_settle server)

/-- Servers not visited keep their records. -/
theorem record_unvisited {serverId : String} (hall : ∀ server ∈ visited, Recordable discover server)
    (h : serverId ∉ visited.map ServerConfig.key) :
    (visit discover reg visited).serverRecords.get? serverId = reg.serverRecords.get? serverId := by
  induction visited generalizing reg with
  | nil => rfl
  | cons server visited ih =>
    rw [List.map_cons,List.mem_cons,not_or] at h
    obtain ⟨hfirst,hall⟩ := List.forall_mem_cons.mp hall
    obtain ⟨record,hrecord⟩ := (recordable_iff server).mp hfirst
    refine (ih hall h.2).trans ?_
    rw [serverRecords_settle server hrecord,Dict.get?_set,if_neg h.1]

theorem record_visited (hall : ∀ server ∈ visited, Recordable discover server)
    (hids : (visited.map ServerConfig.key).Nodup) {server : ServerConfig} (hin : server ∈ visited) :
    ∃ record, settledRecord discover server = .ok record ∧
      (visit discover reg visited).serverRecords.get? server.key = some record := by
  induction visited generalizing reg with
  | nil => cases hin
  | cons first visited ih =>
    rw [List.map_cons,List.nodup_cons] at hids
    obtain ⟨hfirst,hothers⟩ := List.forall_mem_cons.mp hall
    rcases List.mem_cons.mp hin with rfl | hin
    · obtain ⟨record,hrecord⟩ := (recordable_iff server).mp hfirst
      refine ⟨record,hrecord,?_⟩
      have hlater := @record_unvisited discover (Runtime.settleDiscovery reg server (discover server)) visited _ hothers hids.1
      refine hlater.trans ?_
      rw [serverRecords_settle server hrecord,Dict.get?_set,if_pos rfl]
    · exact ih hothers hids.2 hin

/-- Servers visited for the first time add their records. -/
theorem records_visited (hall : ∀ server ∈ visited, Recordable discover server)
    (hids : (visited.map ServerConfig.key).Nodup)
    (hnew : ∀ server ∈ visited, reg.serverRecords.get? server.key = none) :
    ((visit discover reg visited).serverRecords.values.map Except.ok).Perm
      (visited.map (settledRecord discover) ++ reg.serverRecords.values.map Except.ok) := by
  induction visited generalizing reg with
  | nil => exact List.Perm.refl _
  | cons server visited ih =>
    rw [List.map_cons,List.nodup_cons] at hids
    obtain ⟨hfirst,hall⟩ := List.forall_mem_cons.mp hall
    obtain ⟨record,hrecord⟩ := (recordable_iff server).mp hfirst
    have hadd := Dict.values_set_perm reg.serverRecords server.key record
    rw [hnew server List.mem_cons_self] at hadd
    have hrest (other : ServerConfig) (hin : other ∈ visited) :
        (Runtime.settleDiscovery reg server (discover server)).serverRecords.get? other.key = none := by
      have hne : other.key ≠ server.key := fun h => hids.1 (h ▸ List.mem_map_of_mem hin)
      rw [serverRecords_settle server hrecord,Dict.get?_set,if_neg hne]
      exact hnew other (List.mem_cons_of_mem _ hin)
    refine (ih hall hids.2 hrest).trans ?_
    rw [serverRecords_settle server hrecord,List.map_cons,List.cons_append,hrecord]
    exact ((hadd.map Except.ok).append_left _).trans List.perm_middle

/-- Names that no visited server lists resolve as before. -/
theorem tool_unlisted {name : String} (h : ∀ server ∈ visited, name ∉ toolNames (settledTools discover server)) :
    (visit discover reg visited).toolIndex.get? name = reg.toolIndex.get? name ∧
      (visit discover reg visited).toolServerMap.get? name = reg.toolServerMap.get? name := by
  induction visited generalizing reg with
  | nil => exact ⟨rfl,rfl⟩
  | cons server visited ih =>
    have hnone : (settledTools discover server).reverse.find? (·.name = name) = none := by
      refine List.find?_eq_none.mpr fun tool htool hname => h server List.mem_cons_self ?_
      exact List.mem_map.mpr ⟨tool,List.mem_reverse.mp htool,of_decide_eq_true hname⟩
    obtain ⟨hindex,hmap⟩ := @ih (Runtime.settleDiscovery reg server (discover server)) fun other hin =>
      h other (List.mem_cons_of_mem _ hin)
    refine ⟨hindex.trans ?_,hmap.trans ?_⟩
    · rw [toolIndex_settle,Dict.get?_setAll,hnone]
      rfl
    · rw [toolServerMap_settle,Dict.get?_setAll,hnone]
      rfl

/-- A name that one visited server lists and no other resolves to that server. -/
theorem tool_listed {server : ServerConfig} {name : String} (hids : visited.Nodup) (hin : server ∈ visited)
    (hlisted : name ∈ toolNames (settledTools discover server))
    (hown : ∀ other ∈ visited, other ≠ server → name ∉ toolNames (settledTools discover other)) :
    (∃ tool ∈ settledTools discover server, tool.name = name ∧
      (visit discover reg visited).toolIndex.get? name = some tool) ∧
      (visit discover reg visited).toolServerMap.get? name = some server.key := by
  induction visited generalizing reg with
  | nil => cases hin
  | cons first visited ih =>
    rw [List.nodup_cons] at hids
    have hrest (other : ServerConfig) (hother : other ∈ visited) := hown other (List.mem_cons_of_mem _ hother)
    by_cases hfirst : first = server
    · subst hfirst
      obtain ⟨hindex,hmap⟩ := @tool_unlisted discover (Runtime.settleDiscovery reg first (discover first)) visited name
        fun other hother => hrest other hother fun h => hids.1 (h ▸ hother)
      obtain ⟨tool,htool,hname⟩ := List.mem_map.mp hlisted
      cases hfind : (settledTools discover first).reverse.find? (·.name = name) with
      | none => exact absurd (List.find?_eq_none.mp hfind tool (List.mem_reverse.mpr htool)) (by simpa using hname)
      | some found =>
        have hfound : found.name = name := by simpa using List.find?_some hfind
        refine ⟨⟨found,List.mem_reverse.mp (List.mem_of_find?_eq_some hfind),hfound,hindex.trans ?_⟩,hmap.trans ?_⟩
        · rw [toolIndex_settle,Dict.get?_setAll,hfind]
          rfl
        · rw [toolServerMap_settle,Dict.get?_setAll,hfind]
          rfl
    · have hlater : server ∈ visited := (List.mem_cons.mp hin).resolve_left fun h => hfirst h.symm
      exact ih hids.2 hlater hrest

/-- Every server's answer settles its own record and, where no other server lists them too, its
own tools; the health report counts the answers. -/
structure OwnAnswers (discover : ServerConfig → Except String (List ToolDefinition × MCPServerRecord))
    (servers : List ServerConfig) (reg : MCPRuntimeRegistry) : Prop where
  records : ∀ server ∈ servers, ∃ record,
    settledRecord discover server = .ok record ∧ reg.serverRecords.get? server.key = some record
  tools : ∀ server ∈ servers, ∀ name ∈ toolNames (settledTools discover server),
    (∀ other ∈ servers, other ≠ server → name ∉ toolNames (settledTools discover other)) →
      reg.isMcpTool name ∧ reg.route name = .ok server
  shown : (reg.getHealth.servers.map Except.ok).Perm (servers.map (settledRecord discover))
  accounted : reg.getHealth.healthyCount + reg.getHealth.degradedCount + reg.getHealth.offlineCount = servers.length

end settled

section start
variable {entries : ServerConfig → ServerEntries} {timeoutMs : Nat} {installed : Bool}
  {session : ServerConfig → Except Fault (List McpTool)}

theorem settledRecord_known {server : ServerConfig} {record : MCPServerRecord}
    (h : settledRecord (discovery entries timeoutMs installed session) server = .ok record) : record.status ≠ .unknown := by
  unfold settledRecord at h
  cases hfound : discovery entries timeoutMs installed session server with
  | ok found =>
    rw [hfound] at h
    obtain rfl := Except.ok.inj h
    exact (discovered_discovery hfound).known
  | error message =>
    rw [hfound] at h
    unfold failedRecord at h
    dsimp only at h
    split at h
    · obtain rfl := Except.ok.inj h
      exact fun hstatus => by cases hstatus
    all_goals cases h

theorem settledRecord_online {server : ServerConfig} {record : MCPServerRecord} {name : String}
    (hrecord : settledRecord (discovery entries timeoutMs installed session) server = .ok record)
    (h : name ∈ toolNames (settledTools (discovery entries timeoutMs installed session) server)) :
    record.status ≠ .offline := by
  unfold settledTools at h
  unfold settledRecord at hrecord
  cases hfound : discovery entries timeoutMs installed session server with
  | ok found =>
    rw [hfound] at h hrecord
    obtain rfl := Except.ok.inj hrecord
    have hlisted : name ∈ toolNames found.1 := h
    refine (discovered_discovery hfound).online fun hnil => ?_
    rw [hnil] at hlisted
    cases hlisted
  | error message =>
    rw [hfound] at h
    cases h

/-- Every status but `unknown` is counted once. -/
theorem countP_statuses {records : List MCPServerRecord} (h : ∀ record ∈ records, record.status ≠ .unknown) :
    records.countP (·.status = .healthy) + records.countP (·.status = .degraded) +
      records.countP (·.status = .offline) = records.length := by
  induction records with
  | nil => rfl
  | cons record records ih =>
    have hrest := ih fun other hin => h other (List.mem_cons_of_mem _ hin)
    have hknown := h record List.mem_cons_self
    rw [List.countP_cons,List.countP_cons,List.countP_cons,List.length_cons]
    cases hstatus : record.status with
    | unknown => exact absurd hstatus hknown
    | healthy => simp; omega
    | degraded => simp; omega
    | offline => simp; omega

/-- Where every answer can be recorded, failures are isolated: whatever becomes of the other
servers, each server ends up with the record and the tools of its own answer. -/
theorem ownAnswers_visit (configs : List ServerConfig)
    (hids : (configs.mapIdx fun index server => serverIdFor server index).Nodup)
    (hall : ∀ server ∈ (init configs).servers, Recordable (discovery entries timeoutMs installed session) server) :
    OwnAnswers (discovery entries timeoutMs installed session) (init configs).servers
      (visit (discovery entries timeoutMs installed session) (init configs) (init configs).servers) := by
  have hkeys : ((init configs).servers.map ServerConfig.key).Nodup := by
    have hmap : (init configs).servers.map ServerConfig.key =
        configs.mapIdx fun index server => serverIdFor server index := by
      refine List.ext_getElem? fun index => ?_
      simp only [init,List.getElem?_map,List.getElem?_mapIdx,Option.map_map]
      rfl
    rwa [hmap]
  have hshown : ((visit (discovery entries timeoutMs installed session) (init configs)
      (init configs).servers).listServers.map Except.ok).Perm
        ((init configs).servers.map (settledRecord (discovery entries timeoutMs installed session))) := by
    have hnew : ∀ server ∈ (init configs).servers, (init configs).serverRecords.get? server.key = none :=
      fun server _ => Dict.get?_empty server.key
    have hrecords := records_visited hall hkeys hnew
    have hnone : (init configs).serverRecords.values = [] := rfl
    have hinternal : (init configs).internalServer.toList = [] := rfl
    rw [hnone,List.map_nil,List.append_nil] at hrecords
    rwa [listServers,internalServer_visit,hinternal,List.append_nil]
  refine ⟨fun server hin => record_visited hall hkeys hin,fun server hin name hname hown => ?_,hshown,?_⟩
  · obtain ⟨⟨tool,-,-,hindex⟩,hmap⟩ := @tool_listed _ (init configs) _ server name hkeys.of_map hin hname hown
    have hmcp : (visit (discovery entries timeoutMs installed session) (init configs)
        (init configs).servers).isMcpTool name := by
      rw [isMcpTool,hindex]
      rfl
    obtain ⟨serverId,hid⟩ := Option.isSome_iff_exists.mp (identified_init configs server hin)
    have hkey : server.key = serverId := by
      rw [ServerConfig.key,hid]
      rfl
    have hfind : (init configs).servers.find? (·.serverId = some serverId) = some server :=
      (find?_only hin fun other hother hsame => server_unique hids hother hin
        ((of_decide_eq_true hsame).trans hid.symm)).trans (if_pos (decide_eq_true hid))
    obtain ⟨record,hsettled,hrecord⟩ := @record_visited _ (init configs) _ hall hkeys server hin
    have honline := settledRecord_online hsettled hname
    rw [hkey] at hmap hrecord
    refine ⟨hmcp,?_⟩
    rw [route,hmap]
    dsimp only
    rw [servers_visit,hfind,hrecord]
    dsimp only
    rw [if_neg]
    simpa using honline
  · have hknown : ∀ record ∈ (visit (discovery entries timeoutMs installed session) (init configs)
        (init configs).servers).listServers, record.status ≠ .unknown := by
      intro record hrecord
      obtain ⟨server,-,hsettled⟩ := List.mem_map.mp (hshown.mem_iff.mp (List.mem_map_of_mem hrecord))
      exact settledRecord_known hsettled
    have hcount := countP_statuses hknown
    have hlength := hshown.length_eq
    rw [List.length_map,List.length_map] at hlength
    rw [hlength] at hcount
    exact hcount

/-- `discover_all` returns exactly if every failure can be recorded, and exactly then every server
ends up with the record and the tools of its own answer. -/
theorem discovery_isolated (configs : List ServerConfig)
    (hids : (configs.mapIdx fun index server => serverIdFor server index).Nodup) :
    let servers := (init configs).servers
    let left := (init configs).discoverAll true (discovery entries timeoutMs installed session)
    (left.2 = .ok () ↔
      ∀ server ∈ servers, Recordable (discovery entries timeoutMs installed session) server) ∧
    (OwnAnswers (discovery entries timeoutMs installed session) servers left.1 ↔
      ∀ server ∈ servers, Recordable (discovery entries timeoutMs installed session) server) := by
  intro servers left
  obtain ⟨htables,hreturns⟩ :=
    Runtime.discoverAll_eq (discovery entries timeoutMs installed session) (init configs) true
  rw [if_pos rfl] at htables hreturns
  refine ⟨hreturns.trans (forall₂_congr fun server _ => settles_iff server),fun h server hin => ?_,fun hall => ?_⟩
  · obtain ⟨record,hrecord,-⟩ := h.records server hin
    exact (recordable_iff server).mpr ⟨record,hrecord⟩
  · have hvisits : Runtime.visits (discovery entries timeoutMs installed session) servers = servers :=
      Runtime.visits_all _ fun server hin => (settles_iff server).mpr (hall server hin)
    have hleft : left.1 = visit (discovery entries timeoutMs installed session) (init configs) servers := by
      rw [htables,hvisits]
      rfl
    rw [hleft]
    exact ownAnswers_visit configs hids hall

/-- One server runs, one crashes and falls back on nothing, and one does not start in time. -/
def crmRuns (server : ServerConfig) : Except Fault (List McpTool) :=
  if server.key = "crm" then .ok [{ name := "lookup" }]
  else if server.key = "mail" then .error (.raised "connection closed")
  else .error .timeout

def mailServer : ServerConfig where
  id := some "mail"
  command := some "mail-mcp"
  name := some (.other false "None")

def billingServer : ServerConfig where
  name := some "billing"
  command := some "billing-mcp"

theorem crm_isolated :
    OwnAnswers (discovery guardedEntries 1000 true crmRuns) (init [guardedServer,mailServer,billingServer]).servers
      ((init [guardedServer,mailServer,billingServer]).discoverAll true (discovery guardedEntries 1000 true crmRuns)).1 := by
  refine (discovery_isolated [guardedServer,mailServer,billingServer] (by decide +kernel)).2.mpr fun server hin => ?_
  have hservers : (init [guardedServer,mailServer,billingServer]).servers =
      [{ guardedServer with serverId := some "crm" },{ mailServer with serverId := some "mail" },
        { billingServer with serverId := some "billing" }] := by decide +kernel
  rw [hservers] at hin
  simp only [List.mem_cons,List.not_mem_nil,or_false] at hin
  obtain rfl | rfl | rfl := hin
  · exact .inl (by decide +kernel)
  · exact .inl (by decide +kernel)
  · exact .inr ⟨rfl,rfl⟩

end start
end VoxForge.Tools
