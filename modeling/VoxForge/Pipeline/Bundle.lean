import VoxForge.Core.Auth
import VoxForge.Core.Text
import VoxForge.Foundation.Dict

/-! The bundle of one voice connection: its response generators, the references to
them, and the operations that set the scopes tools are executed with. Each
operation is a stretch of code without an `await`, so turns run before or after it. -/
namespace VoxForge.Pipeline
open Foundation Core

abbrev SessionId := Nat

/-- `AgentOrchestrator`, or `ConversationEngine`, which executes no tools and
ignores scopes. -/
structure ResponseGenerator where
  multiAgent : Bool
  callerScopes : Dict SessionId (List Scope) := .empty

namespace ResponseGenerator

def setCallerScopes (gen : ResponseGenerator) (session : SessionId) (scopes : List Scope) :
    ResponseGenerator :=
  if gen.multiAgent then { gen with callerScopes := gen.callerScopes.set session scopes } else gen

def clearSession (gen : ResponseGenerator) (session : SessionId) : ResponseGenerator :=
  { gen with callerScopes := gen.callerScopes.pop session }

/-- The `caller_scopes` of a turn's graph state, which every tool call of the turn gets. -/
def toolScopes (gen : ResponseGenerator) (session : SessionId) : Option (List Scope) :=
  if gen.multiAgent then some ((gen.callerScopes.get? session).getD []) else none

@[simp] theorem multiAgent_setCallerScopes (gen : ResponseGenerator) (session : SessionId)
    (scopes : List Scope) : (gen.setCallerScopes session scopes).multiAgent = gen.multiAgent := by
  unfold setCallerScopes
  split_ifs <;> rfl

theorem get?_setCallerScopes (gen : ResponseGenerator) (session : SessionId)
    (scopes : List Scope) (other : SessionId) :
    (gen.setCallerScopes session scopes).callerScopes.get? other =
      if gen.multiAgent ∧ other = session then some scopes else gen.callerScopes.get? other := by
  unfold setCallerScopes
  by_cases hm : gen.multiAgent <;> simp [hm]

end ResponseGenerator

/-- What decides the orchestrator mode: the `orchestrator` entry of the session
config, and the `mode` entry of the active agent config, if there is one. -/
structure LoadedConfig where
  sessionMode : Option String := none
  activeMode : Option String := none
  deriving DecidableEq, Repr

def effectiveOrchestratorMode (config : LoadedConfig) (settingsMode : String) : String :=
  let ofActive := match config.activeMode with
    | some mode => if strip mode ≠ "" then strip mode else settingsMode
    | none => settingsMode
  match config.sessionMode with
  | some mode => if strip mode ∈ ["single","multi_agent"] then strip mode else ofActive
  | none => ofActive

def createResponseGenerator (orchestratorMode : String) : ResponseGenerator :=
  { multiAgent := orchestratorMode = "multi_agent" }

inductive Transport where
  | websocket | livekit
  /-- A scripted turn of the onboarding and demo routes. -/
  | scripted
  deriving DecidableEq, Repr

/-- Who starts or created a session, and the organisation of its row. -/
structure Starter where
  principal : Principal
  orgId : Option OrgId
  deriving DecidableEq, Repr

/-- A turn as it ran: its tools' scopes, and who had started the session then. -/
structure Turn where
  session : SessionId
  toolScopes : Option (List Scope)
  starter : Option Starter
  deriving DecidableEq, Repr

/-- One connection or worker. Generators are objects: the bundle, the pipeline and the
handler (or the runner) each hold a reference, here an index of `generators`. -/
structure Process where
  transport : Transport
  settingsMode : String
  generators : List ResponseGenerator
  bundleRef : Nat := 0
  pipelineRef : Nat := 0
  handlerRef : Nat := 0
  starters : Dict SessionId Starter := .empty
  turns : List Turn := []

namespace Process

/-- `build_voice_pipeline_bundle`. -/
def build (transport : Transport) (settingsMode : String) : Process where
  transport := transport
  settingsMode := settingsMode
  generators := [createResponseGenerator settingsMode]

def generator (p : Process) (ref : Nat) : ResponseGenerator :=
  p.generators.getD ref (createResponseGenerator p.settingsMode)

def setCallerScopes (p : Process) (ref : Nat) (session : SessionId) (scopes : List Scope) : Process :=
  { p with generators := p.generators.modify ref (·.setCallerScopes session scopes) }

/-- A new generator replaces the pipeline's when the mode differs. -/
def applyActiveAgentConfig (p : Process) (config : LoadedConfig) : Process × Nat :=
  let mode := effectiveOrchestratorMode config p.settingsMode
  let needMulti : Bool := mode = "multi_agent"
  if needMulti ≠ (p.generator p.bundleRef).multiAgent then
    let ref := p.generators.length
    ({ p with generators := p.generators ++ [createResponseGenerator mode], pipelineRef := ref },ref)
  else (p,p.bundleRef)

/-- The bootstrap ends with the owner's scopes on the pipeline's generator. -/
def bootstrapSessionAgentConfig (p : Process) (session : SessionId) (config : LoadedConfig) : Process :=
  let (p,ref) := p.applyActiveAgentConfig config
  { p with bundleRef := ref }.setCallerScopes p.pipelineRef session OrgRole.owner.scopes

/-- The stretches of the transports' code that touch scopes. -/
inductive Label where
  /-- Socket: a start frame that names a session has resumed it. -/
  | resumed (session : SessionId) (starter : Starter)
  /-- Socket: a start frame, from the bootstrap on. -/
  | started (session : SessionId) (starter : Starter) (config : LoadedConfig)
  /-- Worker or script: the session is taken over with its creator. -/
  | entrypoint (session : SessionId) (creator : Starter) (config : LoadedConfig)
  | turn (session : SessionId)
  | clearSession (session : SessionId)
  deriving DecidableEq, Repr

def resumed (p : Process) (session : SessionId) (starter : Starter) : Process :=
  { p.setCallerScopes p.handlerRef session (effectiveScopes starter.principal) with
    starters := p.starters.set session starter }

/-- From the bootstrap on, a start frame sets the owner's scopes and then the principal's. -/
def started (p : Process) (session : SessionId) (starter : Starter) (config : LoadedConfig) : Process :=
  let p := p.bootstrapSessionAgentConfig session config
  { p with handlerRef := p.bundleRef }.resumed session starter

def entrypoint (p : Process) (session : SessionId) (creator : Starter) (config : LoadedConfig) : Process :=
  let p := if creator.orgId.isSome then p.bootstrapSessionAgentConfig session config else p
  { p with handlerRef := p.bundleRef, starters := p.starters.set session creator }

def runTurn (p : Process) (session : SessionId) : Process :=
  let toolScopes := (p.generator p.pipelineRef).toolScopes session
  { p with turns := p.turns ++ [{ session, toolScopes, starter := p.starters.get? session }] }

def clearSession (p : Process) (session : SessionId) : Process :=
  { p with
    generators := p.generators.modify p.handlerRef (·.clearSession session)
    starters := p.starters.pop session }

def apply (p : Process) : Label → Process
  | .resumed session starter => p.resumed session starter
  | .started session starter config => p.started session starter config
  | .entrypoint session creator config => p.entrypoint session creator config
  | .turn session => p.runTurn session
  | .clearSession session => p.clearSession session

/-- Start frames come on the socket. A worker serves one session, whose row and so
whose creator does not change, and runs turns until it has cleared it. -/
def Enabled (p : Process) : Label → Prop
  | .resumed _ _ | .started _ _ _ => p.transport = .websocket
  | .entrypoint session creator _ =>
    p.transport ≠ .websocket ∧ ∀ e ∈ p.starters.entries, e = (session,creator)
  | .turn session => p.transport = .websocket ∨ p.starters.get? session ≠ none
  | .clearSession _ => True

instance (p : Process) (label : Label) : Decidable (p.Enabled label) := by
  cases label <;> unfold Enabled <;> infer_instance

def step (p : Process) (label : Label) : Option Process :=
  if p.Enabled label then some (p.apply label) else none

end Process
end VoxForge.Pipeline
