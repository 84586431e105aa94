import VoxForge.Handoffs.Orchestrator

/-! One turn of the voice pipeline, as far as it touches the session and its handoff. -/
namespace VoxForge.Pipeline
open Foundation Core Persistence Sessions Handoffs HandoffOrchestrator

/-- The arguments of the `handoff_to_human` tool. -/
structure HandoffArguments where
  reason : String
  priority : String := "normal"
  customerEmail : Option String := none
  deriving DecidableEq, Repr

/-- What a turn brings with it: the words, the tool calls of the agents and the
decision of the escalation policy. -/
structure VoiceTurn where
  orgId : Option OrgId
  transcript : String
  tools : List HandoffArguments := []
  assistantText : String := ""
  /-- The handoff services are wired and `handoff_enabled` is set. -/
  handoffEnabled : Bool := true
  failedTools : Int := 0
  policy : EscalationPolicy := {}
  escalation : Option (HandoffTrigger × String) := none
  deriving DecidableEq, Repr

variable (settings : HandoffOrchestrator.Settings)

/-- `HandoffToHumanTool.invoke`, in the context of a session. -/
def invokeHandoffTool (orgId : Option OrgId) (arguments : HandoffArguments) : Action Unit :=
  match orgId with
  | none => .raise (.value "handoff_to_human requires active session context")
  | some orgId =>
    let reason := strip arguments.reason
    if reason = "" then .raise (.value "reason is required")
    else discard (initiateHandoff settings {
      orgId
      trigger := .agentExplicit
      reason
      customerEmail := arguments.customerEmail
      priority := arguments.priority })

/-- `ToolRouter.execute` turns exceptions and timeouts of a tool into its result. -/
def executeTool (tool : Action Unit) : Action Unit :=
  .tryCatch tool fun e => if e = .cancelled then .raise e else return ()

def runTools (orgId : Option OrgId) : List HandoffArguments → Action Unit
  | [] => return ()
  | arguments :: rest => do
    executeTool (invokeHandoffTool settings orgId arguments)
    runTools orgId rest

/-- The policy branch at the end of a turn. -/
def escalate (turn : VoiceTurn) : Action Unit :=
  match turn.orgId with
  | none => return ()
  | some orgId => do
    if turn.handoffEnabled then
      discard SessionManager.getSessionConfig
      discard (SessionManager.trackToolFailures settings.toSettings turn.failedTools)
      match turn.escalation with
      | none => return ()
      | some (trigger,reason) =>
        discard (initiateHandoff settings { orgId, trigger, reason, policy := turn.policy })

/-- `_process_turn` up to its commit. -/
def turnBeforeCommit (turn : VoiceTurn) : Action Unit := do
  discard (StateStore.updatePhase settings.toSettings .processing)
  execute (.insertMessage ⟨.user,turn.transcript⟩)
  discard (StateStore.updatePhase settings.toSettings .speaking)
  discard SessionManager.getSessionConfig
  runTools settings turn.orgId turn.tools
  if turn.assistantText ≠ "" then execute (.insertMessage ⟨.assistant,turn.assistantText⟩)
  escalate settings turn

def turnAfterCommit : Action Unit := do
  discard (StateStore.clearInterrupt settings.toSettings)
  discard (StateStore.updatePhase settings.toSettings .listening)

def processTurn (turn : VoiceTurn) : Action Unit := do
  turnBeforeCommit settings turn
  turnAfterCommit settings

end VoxForge.Pipeline
