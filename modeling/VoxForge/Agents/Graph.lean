import VoxForge.Core.Handoff
import VoxForge.Core.JsonDecoder
import VoxForge.Foundation.StateGraph
import VoxForge.Tools.Registry

/-! The agent graph: planner, safety, executor, critic and coordinator over one state,
with the models and the tool router as operations. -/
namespace VoxForge.Agents
open Foundation Core Tools

inductive Agent where
  | planner | safety | executor | critic | coordinator
  deriving DecidableEq, Repr

def Agent.value : Agent → String
  | .planner => "planner"
  | .safety => "safety"
  | .executor => "executor"
  | .critic => "critic"
  | .coordinator => "coordinator"

structure ToolCall where
  name : String
  args : Option Arguments := none
  id : String
  deriving DecidableEq, Repr

/-- A model's answer; its content is a string or a list of blocks. -/
structure AIMessage where
  content : Json
  toolCalls : List ToolCall := []

inductive BaseMessage where
  | system (content : String)
  | ai (content : String)
  | human (content : String)
  | response (message : AIMessage)
  | tool (content : String) (toolCallId : String)

structure RecordedCall where
  tool : String
  arguments : Arguments
  status : ToolCallStatus
  output : String
  deriving DecidableEq, Repr

structure OrchestratorState where
  messages : List Message
  userInput : String
  plan : String := ""
  draftResponse : String := ""
  safetyPassed : Bool := true
  safetyReason : String := ""
  criticApproved : Bool := false
  criticFeedback : String := ""
  finalResponse : String := ""
  iteration : Nat := 0
  sessionId : Option String := none
  orgId : Option String := none
  callerScopes : List Scope := []
  agentTrace : List Json := []
  toolCalls : List RecordedCall := []

/-- What a node returns: the entries it sets, and those it appends. -/
structure Update where
  plan : Option String := none
  draftResponse : Option String := none
  safetyPassed : Option Bool := none
  safetyReason : Option String := none
  criticApproved : Option Bool := none
  criticFeedback : Option String := none
  finalResponse : Option String := none
  iteration : Option Nat := none
  agentTrace : List Json := []
  toolCalls : List RecordedCall := []

def OrchestratorState.merge (s : OrchestratorState) (update : Update) : OrchestratorState :=
  { s with
    plan := update.plan.getD s.plan
    draftResponse := update.draftResponse.getD s.draftResponse
    safetyPassed := update.safetyPassed.getD s.safetyPassed
    safetyReason := update.safetyReason.getD s.safetyReason
    criticApproved := update.criticApproved.getD s.criticApproved
    criticFeedback := update.criticFeedback.getD s.criticFeedback
    finalResponse := update.finalResponse.getD s.finalResponse
    iteration := update.iteration.getD s.iteration
    agentTrace := s.agentTrace ++ update.agentTrace
    toolCalls := s.toolCalls ++ update.toolCalls }

inductive GraphError where
  | attributeError (message : String)
  | loads (e : LoadsError)
  | recursionLimit
  | raised (message : String)
  deriving DecidableEq, Repr

/-- What the nodes ask of a model, with the tools bound to it, and of the tool router. A tool
that is built for LangChain appears under its name. -/
inductive Op where
  | ainvoke (agent : Agent) (messages : List BaseMessage)
  | execute (toolName : String) (args : Arguments) (orgId sessionId : Option String)
      (callerScopes : List Scope)
  | getLangchainTools
  | bindTools (lcTools : List String)

abbrev Op.Reply : Op → Type
  | .ainvoke .. => AIMessage
  | .execute .. => ToolResult
  | .getLangchainTools => List String
  | .bindTools .. => Unit

abbrev Steps (α : Type) := Prog Op Op.Reply GraphError α

/-- The settings and the wiring of a graph. `recursionLimit` is how deep `json.loads` reads;
`render` is `str` of what is no string; `parseUuid` is `_parse_uuid`. -/
structure GraphConfig where
  maxAgentIterations : Int
  maxToolIterations : Int
  toolsEnabled : Bool
  toolRouter : Option (List ToolDefinition)
  recursionLimit : Nat
  render : Json → String
  parseUuid : Option String → Option String

def plannerPrompt : String :=
  "You are a planning agent. Given the conversation and latest user message, " ++
  "produce a brief step-by-step plan for how the assistant should respond. " ++
  "Keep the plan short (3-5 bullet points max)."

def executorPrompt : String :=
  "You are an executor agent. Follow the plan and conversation history to draft " ++
  "a helpful response. Use available tools when they help answer the user. " ++
  "Keep it concise and conversational for voice output."

def criticPrompt : String :=
  "You are a critic agent. Review the draft response for accuracy, helpfulness, " ++
  "and conversational tone. Reply with JSON: " ++
  "\x7b\"approved\": true/false, \"feedback\": \"...\"\x7d"

def safetyPrompt : String :=
  "You are a safety agent. Check if the user request and planned response are safe " ++
  "to fulfill. Reply with JSON: " ++
  "\x7b\"passed\": true/false, \"reason\": \"...\"\x7d"

def refusal : String := "I'm sorry, but I can't help with that request."

/-- `text[:n]`. -/
def clip (n : Nat) (text : String) : String := String.ofList (text.toList.take n)

def toLcMessages (messages : List Message) : List BaseMessage :=
  messages.map fun message =>
    match message.role with
    | .system => .system message.content
    | .assistant => .ai message.content
    | .user => .human message.content

/-- `_trace`. -/
def traceStep (agent status summary : String) : Json :=
  .obj [("agent",.str agent),("status",.str status),("summary",.str summary)]

def statusValue : ToolCallStatus → String
  | .success => "success"
  | .error => "error"
  | .timeout => "timeout"

/-- `tool_result.output or tool_result.error or ""`. -/
def outputOf (result : ToolResult) : String :=
  if result.output ≠ "" then result.output else result.error.getD ""

/-- The trace entry of an executed tool. -/
def toolStep (toolName : String) (result : ToolResult) : Json :=
  traceStep "tool" (statusValue result.status) (toolName ++ ": " ++ clip 120 (outputOf result))

/-- `parsed.get(key, default)`, on an object. -/
def getEntry (key : String) (default : Json) : Json → Except GraphError Json
  | .obj entries => .ok ((entries.lookup key).getD default)
  | _ => .error (.attributeError "object has no attribute 'get'")

def lift {α : Type} : Except GraphError α → Steps α
  | .ok a => return a
  | .error e => .raise e

section graph
variable (config : GraphConfig)

/-- The text between the first two fences, without a language name. -/
def unfence (text : String) : String :=
  let text := strip text
  if "```".toList.isPrefixOf text.toList then
    let fenced := (text.splitOn "```").getD 1 ""
    if "json".toList.isPrefixOf fenced.toList then String.ofList (fenced.toList.drop 4) else fenced
  else text

/-- Only a `JSONDecodeError` is caught. -/
def parseJson (text : String) : Except GraphError Json :=
  match JsonDecoder.loads config.recursionLimit (unfence text) with
  | .ok v => .ok v
  | .error .decodeError => .ok (.obj [])
  | .error e => .error (.loads e)

def contentOf (response : AIMessage) : String := response.content.text config.render

/-- What a reviewing model says under two keys: its verdict, which passes unless it says
otherwise, and its explanation. -/
def reviewOf (verdictKey textKey : String) (response : AIMessage) : Except GraphError (Bool × String) := do
  let parsed ← parseJson config (contentOf config response)
  let verdict ← getEntry verdictKey (.bool true) parsed
  let explanation ← getEntry textKey (.str "") parsed
  return (verdict.truthy,explanation.text config.render)

def invokeModel (agent : Agent) (messages : List BaseMessage) : Steps AIMessage :=
  Prog.perform (.ainvoke agent messages : Op)

def planner (s : OrchestratorState) : Steps Update := do
  let prompt := plannerPrompt ++ "\n\nUser message: " ++ s.userInput ++ "\nIteration: " ++ toString s.iteration
  let prompt :=
    if s.criticFeedback ≠ "" then prompt ++ "\nCritic feedback to address: " ++ s.criticFeedback else prompt
  let response ← invokeModel .planner (toLcMessages s.messages ++ [.human prompt])
  let plan := contentOf config response
  return { plan := some plan, agentTrace := [traceStep "planner" "completed" (clip 200 plan)] }

def safetyMessages (userInput plan : String) : List BaseMessage :=
  [.human (safetyPrompt ++ "\n\nUser: " ++ userInput ++ "\nPlan: " ++ plan)]

def safety (s : OrchestratorState) : Steps Update := do
  let response ← invokeModel .safety (safetyMessages s.userInput s.plan)
  let (passed,reason) ← lift (reviewOf config "passed" "reason" response)
  let status := if passed then "completed" else "blocked"
  return {
    safetyPassed := some passed
    safetyReason := some reason
    finalResponse := if passed then none else some refusal
    agentTrace := [traceStep "safety" status (if reason ≠ "" then reason else "passed")] }

/-- What the executor's loop carries on: its messages, trace and recorded calls. -/
structure Progress where
  lcMessages : List BaseMessage
  toolTrace : List Json := []
  recordedCalls : List RecordedCall := []

def callTool (s : OrchestratorState) (call : ToolCall) (progress : Progress) : Steps Progress := do
  if config.toolRouter.isNone then
    .raise (.attributeError "'NoneType' object has no attribute 'execute'")
  else
    let args := call.args.getD "\x7b\x7d"
    let result ← (Prog.perform (.execute call.name args (config.parseUuid s.orgId)
      (config.parseUuid s.sessionId) s.callerScopes : Op) : Steps ToolResult)
    let output := outputOf result
    return {
      lcMessages := progress.lcMessages ++ [.tool output call.id]
      toolTrace := progress.toolTrace ++ [toolStep call.name result]
      recordedCalls := progress.recordedCalls ++ [⟨call.name,args,result.status,clip 500 output⟩] }

def callTools (s : OrchestratorState) : List ToolCall → Progress → Steps Progress
  | [],progress => return progress
  | call :: calls,progress => do
    let progress ← callTool config s call progress
    callTools s calls progress

/-- The loop of the executor, with the answer of the last pass; it ends in the draft. -/
def converse (s : OrchestratorState) : Nat → Option AIMessage → Progress → Steps (String × Progress)
  | 0,response,progress => return ((response.map (contentOf config)).getD "",progress)
  | n + 1,_,progress => do
    let response ← invokeModel .executor progress.lcMessages
    if response.toolCalls = [] then return (contentOf config response,progress)
    else
      let progress := { progress with lcMessages := progress.lcMessages ++ [.response response] }
      let progress ← callTools config s response.toolCalls progress
      converse s n (some response) progress

def toolList : String :=
  match config.toolRouter with
  | none => ""
  | some tools =>
    if config.toolsEnabled ∧ tools ≠ [] then
      "\n\nAvailable tools:\n" ++
        "\n".intercalate (tools.map fun tool => "- " ++ tool.name ++ ": " ++ tool.description)
    else ""

/-- The executor's model gets the tools, if they are enabled and there are any. -/
def bindLlm : Steps Unit :=
  if config.toolRouter.isSome ∧ config.toolsEnabled then do
    let lcTools ← (Prog.perform (.getLangchainTools : Op) : Steps (List String))
    if lcTools = [] then return () else Prog.perform (.bindTools lcTools : Op)
  else return ()

def executor (s : OrchestratorState) : Steps Update := do
  let prompt := executorPrompt ++ toolList config ++ "\n\nPlan:\n" ++ s.plan ++
    "\n\nUser message: " ++ s.userInput
  let start : Progress := { lcMessages := toLcMessages s.messages ++ [.human prompt] }
  bindLlm config
  let (draft,progress) ← converse config s (config.maxToolIterations + 1).toNat none start
  return {
    draftResponse := some draft
    agentTrace := traceStep "executor" "completed" (clip 200 draft) :: progress.toolTrace
    toolCalls := progress.recordedCalls }

/-- The trace entry of a critic pass. -/
def criticStep (approved : Bool) (feedback : String) : Json :=
  traceStep "critic" (if approved then "completed" else "revised")
    (if feedback ≠ "" then clip 200 feedback else "approved")

def critic (s : OrchestratorState) : Steps Update := do
  let prompt := criticPrompt ++ "\n\nDraft response:\n" ++ s.draftResponse ++
    "\n\nUser message: " ++ s.userInput
  let response ← invokeModel .critic [.human prompt]
  let (approved,feedback) ← lift (reviewOf config "approved" "feedback" response)
  return {
    criticApproved := some approved
    criticFeedback := some feedback
    iteration := some (s.iteration + if approved then 0 else 1)
    agentTrace := [criticStep approved feedback] }

def coordinator (s : OrchestratorState) : Steps Update :=
  if s.finalResponse ≠ "" then
    return { agentTrace := [traceStep "coordinator" "blocked" s.safetyReason] }
  else
    return {
      finalResponse := some s.draftResponse
      agentTrace := [traceStep "coordinator" "completed" (clip 200 s.draftResponse)] }

def node : Agent → OrchestratorState → Steps Update
  | .planner => planner config
  | .safety => safety config
  | .executor => executor config
  | .critic => critic config
  | .coordinator => coordinator

def routeAfterSafety (s : OrchestratorState) : Agent :=
  if s.safetyPassed then .executor else .coordinator

def routeAfterCritic (s : OrchestratorState) : Agent :=
  if s.criticApproved then .coordinator
  else if (s.iteration : Int) ≥ config.maxAgentIterations then .coordinator
  else .planner

def buildAgentGraph : StateGraph Agent OrchestratorState Op Op.Reply GraphError where
  node agent s := do return s.merge (← node config agent s)
  next
    | .planner,_ => some .safety
    | .safety,s => some (routeAfterSafety s)
    | .executor,_ => some .critic
    | .critic,s => some (routeAfterCritic config s)
    | .coordinator,_ => none

/-- `ainvoke` from `START`, for at most `steps` nodes. -/
def ainvoke (steps : Nat) (initial : OrchestratorState) : Steps OrchestratorState :=
  (buildAgentGraph config).invoke .recursionLimit steps .planner initial

end graph
end VoxForge.Agents
