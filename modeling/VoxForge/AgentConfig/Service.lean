import VoxForge.Core.Json
import VoxForge.Core.Session
import VoxForge.Foundation.Dict
import VoxForge.Foundation.Transactions

/-! Versions of an organisation's agent config: `AgentConfigService` and `AgentConfigRepository`,
each request one transaction. -/
namespace VoxForge.AgentConfig
open Foundation Core Prog

/-- A JSON object. -/
abbrev Document := List (String × Json)

/-- `given or default`: an empty document counts as absent. -/
def orDefault (given : Option Document) (default : Document) : Document :=
  match given with
  | some (entry :: entries) => entry :: entries
  | _ => default

/-- What `create_version` of the repository is given for a row. -/
structure VersionDraft where
  orgId : OrgId
  version : Nat
  label : String
  promptConfig : Document
  orchestratorConfig : Document
  evalThresholds : Document
  isActive : Bool
  createdByUserId : Option UserId
  changeNote : Option String

/-- `AgentConfigVersionModel`. -/
structure AgentConfigVersion extends VersionDraft where
  id : Nat
  createdAt : Time

abbrev VersionTable := List AgentConfigVersion

def versionsOf (orgId : OrgId) (table : VersionTable) : VersionTable := table.filter (·.orgId = orgId)

def version? (orgId : OrgId) (version : Nat) (table : VersionTable) : Option AgentConfigVersion :=
  table.find? fun row => row.orgId = orgId && row.version = version

structure SupportTemplate where
  name : String
  slug : String
  promptConfig : Document
  toolConfig : Document
  evalThresholds : Document

structure PolicyPreset where
  slug : String
  name : String
  description : String
  source : String
  promptConfig : Document := []
  orchestratorConfig : Document := []
  evalThresholds : Document := []
  toolConfig : Document := []

inductive ConfigErr where
  | configVersionNotFound (version : Nat)
  | configPresetNotFound (presetSlug : String)
  /-- A unique constraint. -/
  | integrity
  /-- A row is gone. -/
  | noRow
  | fault
  deriving DecidableEq, Repr

inductive ConfigOp where
  | selectTemplates
  | selectDefaultTemplate
  | selectVersion (orgId : OrgId) (version : Nat)
  | selectMaxVersion (orgId : OrgId)
  /-- `UPDATE … SET is_active = FALSE WHERE org_id = …`. -/
  | deactivateAll (orgId : OrgId)
  | insertVersion (draft : VersionDraft)
  | refresh (id : Nat)

abbrev ConfigReply : ConfigOp → Type
  | .selectTemplates => List SupportTemplate
  | .selectDefaultTemplate => Option SupportTemplate
  | .selectVersion _ _ | .refresh _ => Option AgentConfigVersion
  | .selectMaxVersion _ => Option Nat
  | .deactivateAll _ => Unit
  | .insertVersion _ => Nat

abbrev ConfigAction (α : Type) := Prog ConfigOp ConfigReply ConfigErr α

def execute (o : ConfigOp) : ConfigAction (ConfigReply o) := Prog.perform o

inductive ConfigWrite where
  | insert (row : AgentConfigVersion)
  /-- The rows that an update has seen; it sees none that another transaction has not committed. -/
  | deactivate (orgId : OrgId) (versions : List Nat)

def ConfigWrite.apply (table : VersionTable) : ConfigWrite → VersionTable
  | .insert row => table ++ [row]
  | .deactivate orgId versions => table.map fun row =>
    if row.orgId = orgId ∧ row.version ∈ versions then { row with isActive := false } else row

/-- The entry of `uq_agent_config_versions_org_version` that an insertion keeps locked. That an
update waits for rows that others have updated is left out: it only restricts the runs. -/
def ConfigWrite.lock : ConfigWrite → Option (OrgId × Nat)
  | .insert row => some (row.orgId,row.version)
  | .deactivate _ _ => none

/-- What the rest of the database and the clock add to an answer. -/
structure Surroundings where
  templates : List SupportTemplate := []
  defaultTemplate : Option SupportTemplate := none
  id : Nat := 1
  now : Time := 0

def perform (env : Surroundings) (table : VersionTable) (_ : Unit) :
    (o : ConfigOp) → Except ConfigErr (ConfigReply o) × List ConfigWrite × Unit
  | .selectTemplates => (.ok env.templates,[],())
  | .selectDefaultTemplate => (.ok env.defaultTemplate,[],())
  | .selectVersion orgId version => (.ok (version? orgId version table),[],())
  | .selectMaxVersion orgId => (.ok ((versionsOf orgId table).map (·.version)).max?,[],())
  | .deactivateAll orgId => (.ok (),[.deactivate orgId ((versionsOf orgId table).map (·.version))],())
  | .insertVersion draft =>
    if table.any fun row => row.orgId = draft.orgId && row.version = draft.version then (.error .integrity,[],())
    else (.ok env.id,[.insert { draft with id := env.id, createdAt := env.now }],())
  | .refresh id => (.ok (table.find? (·.id = id)),[],())

def database : Database ConfigOp ConfigReply ConfigErr VersionTable ConfigWrite Unit Surroundings (OrgId × Nat) where
  apply := ConfigWrite.apply
  lock := ConfigWrite.lock
  perform := perform
  faults e := e = .fault

namespace AgentConfigRepository

def getByVersion (orgId : OrgId) (version : Nat) : ConfigAction AgentConfigVersion := do
  match ← execute (.selectVersion orgId version) with
  | none => .raise (.configVersionNotFound version)
  | some row => return row

def nextVersionNumber (orgId : OrgId) : ConfigAction Nat := do
  let current ← execute (.selectMaxVersion orgId)
  return current.getD 0 + 1

def deactivateAll (orgId : OrgId) : ConfigAction Unit := execute (.deactivateAll orgId)

def createVersion (draft : VersionDraft) : ConfigAction AgentConfigVersion := do
  if draft.isActive then
    deactivateAll draft.orgId
  let id ← execute (.insertVersion draft)
  match ← execute (.refresh id) with
  | none => .raise .noRow
  | some row => return row

end AgentConfigRepository

private def thresholds (taskSuccessMin qualityMin escalationMax : ℚ) : Document :=
  [("task_success_min",.float (.finite taskSuccessMin)),("quality_min",.float (.finite qualityMin)),
    ("escalation_max",.float (.finite escalationMax))]

private def orchestrator (mode : String) (maxAgentIterations : Int) : Document :=
  [("mode",.str mode),("max_agent_iterations",.int maxAgentIterations)]

def builtinPolicyPresets : List PolicyPreset := [
  { slug := "strict-compliance"
    name := "Strict Compliance"
    description := "Conservative policy-safe responses with a high quality bar and low escalation tolerance."
    source := "builtin"
    promptConfig := [
      ("system_prompt",.str ("You are a compliance-focused support voice agent. Follow policy exactly, " ++
        "avoid speculation, and escalate when uncertain.")),
      ("style",.str "formal, policy-safe, verification-first")]
    orchestratorConfig := orchestrator "single" 1
    evalThresholds := thresholds (85 / 100) (85 / 100) (2 / 10)
    toolConfig := [("fallback_to_human",.bool true)] },
  { slug := "aggressive-deflection"
    name := "Aggressive Deflection"
    description := "Optimize for self-serve resolution with tighter escalation thresholds."
    source := "builtin"
    promptConfig := [
      ("system_prompt",.str ("You are a deflection-focused support voice agent. Resolve issues quickly " ++
        "using available tools before escalating.")),
      ("style",.str "concise, action-oriented")]
    orchestratorConfig := orchestrator "single" 3
    evalThresholds := thresholds (75 / 100) (7 / 10) (25 / 100)
    toolConfig := [("fallback_to_human",.bool true)] },
  { slug := "high-touch-escalation"
    name := "High-Touch Escalation"
    description := "Prioritize empathetic handoff when confidence is moderate or risk is high."
    source := "builtin"
    promptConfig := [
      ("system_prompt",.str ("You are a high-touch support voice agent. Prioritize customer trust and " ++
        "escalate early when policy risk or frustration is detected.")),
      ("style",.str "empathetic, escalation-ready")]
    orchestratorConfig := orchestrator "multi_agent" 2
    evalThresholds := thresholds (8 / 10) (8 / 10) (5 / 10)
    toolConfig := [("fallback_to_human",.bool true)] }]

def templatePreset (template : SupportTemplate) : PolicyPreset where
  slug := template.slug
  name := template.name
  description := "Support template: " ++ template.name
  source := "template"
  promptConfig := template.promptConfig
  orchestratorConfig := orchestrator "single" 2
  evalThresholds := template.evalThresholds
  toolConfig := template.toolConfig

/-- A template takes the place of the preset with its slug. -/
def listPolicyPresets : ConfigAction (List PolicyPreset) := do
  let templates ← execute .selectTemplates
  let presets := (Dict.empty.setAll PolicyPreset.slug id builtinPolicyPresets).setAll
    SupportTemplate.slug templatePreset templates
  return presets.values.mergeSort fun a b => a.source < b.source || (a.source = b.source && a.name ≤ b.name)

def getPolicyPreset (presets : List PolicyPreset) (slug : String) : Option PolicyPreset :=
  presets.find? (·.slug = slug)

namespace AgentConfigService

structure DefaultConfigs where
  promptConfig : Document
  orchestratorConfig : Document
  evalThresholds : Document

def defaultConfigs : ConfigAction DefaultConfigs := do
  match ← execute .selectDefaultTemplate with
  | none => return {
      promptConfig := [("system_prompt",.str
        "You are a support voice agent focused on rapid resolution and safe escalation.")]
      orchestratorConfig := orchestrator "single" 2
      evalThresholds := thresholds (8 / 10) (75 / 100) (35 / 100) }
  | some template => return {
      promptConfig := template.promptConfig
      orchestratorConfig := orchestrator "single" 2
      evalThresholds := template.evalThresholds }

def noteOr (changeNote : Option String) (note : String) : String :=
  if changeNote.getD "" = "" then note else changeNote.getD ""

def applyPreset (orgId : OrgId) (userId : Option UserId) (presetSlug : String) (changeNote : Option String)
    (activate : Bool) : ConfigAction AgentConfigVersion := do
  let presets ← listPolicyPresets
  match getPolicyPreset presets presetSlug with
  | none => .raise (.configPresetNotFound presetSlug)
  | some preset =>
    let version ← AgentConfigRepository.nextVersionNumber orgId
    AgentConfigRepository.createVersion {
      orgId
      version
      label := "preset:" ++ preset.slug
      promptConfig := preset.promptConfig
      orchestratorConfig := preset.orchestratorConfig
      evalThresholds := preset.evalThresholds
      createdByUserId := userId
      changeNote := some (noteOr changeNote ("Applied policy preset: " ++ preset.name))
      isActive := activate }

def createVersion (orgId : OrgId) (userId : Option UserId) (label : String)
    (promptConfig orchestratorConfig evalThresholds : Option Document) (changeNote : Option String)
    (activate : Bool) : ConfigAction AgentConfigVersion := do
  let defaults ← defaultConfigs
  let version ← AgentConfigRepository.nextVersionNumber orgId
  AgentConfigRepository.createVersion {
    orgId
    version
    label
    promptConfig := orDefault promptConfig defaults.promptConfig
    orchestratorConfig := orDefault orchestratorConfig defaults.orchestratorConfig
    evalThresholds := orDefault evalThresholds defaults.evalThresholds
    createdByUserId := userId
    changeNote
    isActive := activate }

def rollback (orgId : OrgId) (userId : Option UserId) (targetVersion : Nat) (changeNote : Option String) :
    ConfigAction AgentConfigVersion := do
  let source ← AgentConfigRepository.getByVersion orgId targetVersion
  let version ← AgentConfigRepository.nextVersionNumber orgId
  AgentConfigRepository.createVersion {
    orgId
    version
    label := "rollback-from-v" ++ toString targetVersion
    promptConfig := source.promptConfig
    orchestratorConfig := source.orchestratorConfig
    evalThresholds := source.evalThresholds
    createdByUserId := userId
    changeNote := some (noteOr changeNote ("Rollback to version " ++ toString targetVersion))
    isActive := true }

end AgentConfigService

/-- A request, committed when its method returns. -/
inductive ConfigRequest where
  | applyPreset (orgId : OrgId) (userId : Option UserId) (presetSlug : String) (changeNote : Option String)
      (activate : Bool)
  | createVersion (orgId : OrgId) (userId : Option UserId) (label : String)
      (promptConfig orchestratorConfig evalThresholds : Option Document) (changeNote : Option String) (activate : Bool)
  | rollback (orgId : OrgId) (userId : Option UserId) (targetVersion : Nat) (changeNote : Option String)

namespace ConfigRequest

def orgId : ConfigRequest → OrgId
  | .applyPreset orgId _ _ _ _ | .createVersion orgId _ _ _ _ _ _ _ | .rollback orgId _ _ _ => orgId

def program : ConfigRequest → ConfigAction Unit
  | .applyPreset orgId userId presetSlug changeNote activate =>
    discard (AgentConfigService.applyPreset orgId userId presetSlug changeNote activate)
  | .createVersion orgId userId label promptConfig orchestratorConfig evalThresholds changeNote activate =>
    discard (AgentConfigService.createVersion orgId userId label promptConfig orchestratorConfig evalThresholds
      changeNote activate)
  | .rollback orgId userId targetVersion changeNote =>
    discard (AgentConfigService.rollback orgId userId targetVersion changeNote)

end ConfigRequest
end VoxForge.AgentConfig
