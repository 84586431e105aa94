import VoxForge.Agents.GraphRuns
import VoxForge.Foundation.Fallible
import VoxForge.Foundation.Ranking
import VoxForge.Outcomes.KpiTable
import VoxForge.Replay.Link

/-! `ReplayRepository.get_session_replay`: the rows of a session as one timeline, and what
the traces of its agents explain. -/
namespace VoxForge.Replay
open Foundation Core Outcomes

/-! The rows -/

structure MessageRow where
  id : Nat
  sessionId : SessionId
  role : String
  content : String
  contentType : String := "text"
  providerMetadata : Json := .obj []
  createdAt : Time

structure ToolCallRow where
  id : Nat
  sessionId : Option SessionId
  toolName : String
  arguments : Json := .obj []
  result : Option String := none
  status : String
  latencyMs : Option PyFloat := none
  error : Option String := none
  createdAt : Time

structure EvaluationMetricRow where
  name : String
  score : PyFloat
  value : Option PyFloat := none
  unit : Option String := none
  status : String

structure EvaluationRow where
  id : Nat
  sessionId : SessionId
  userTranscript : String
  assistantResponse : String
  overallScore : PyFloat
  overallStatus : String
  metrics : List EvaluationMetricRow := []
  createdAt : Time

structure SessionMetricRow where
  sessionId : SessionId
  metricName : String
  valueMs : PyFloat
  recordedAt : Time

structure HandoffEventRow where
  handoffId : HandoffId
  eventType : String
  payload : Json := .obj []
  createdAt : Time

structure SessionRow where
  id : SessionId
  orgId : Option OrgId
  status : String
  transportType : String
  metadata : Json := .obj []
  startedAt : Time
  endedAt : Option Time := none
  handoffId : Option HandoffId := none

structure Rows where
  sessions : List SessionRow := []
  messages : List MessageRow := []
  toolCalls : List ToolCallRow := []
  evaluations : List EvaluationRow := []
  metrics : List SessionMetricRow := []
  handoffEvents : List HandoffEventRow := []
  outcomes : KpiTable := []

/-! The replay -/

inductive EventType where
  | message | toolCall | evaluation | metric | handoff | outcome
  deriving DecidableEq, Repr

/-- The order in which the kinds are collected. -/
def EventType.rank : EventType → Nat
  | message => 0
  | toolCall => 1
  | evaluation => 2
  | metric => 3
  | handoff => 4
  | outcome => 5

structure SessionReplayEvent where
  eventType : EventType
  timestamp : Time
  summary : String
  status : Option String := none
  role : Option String := none
  payload : Json

inductive ExplanationKind where
  | safety | critic | tool | outcome
  deriving DecidableEq, Repr

structure ExplainabilityItem where
  kind : ExplanationKind
  decision : String
  reason : String
  deriving DecidableEq, Repr

structure SessionReplay where
  sessionId : SessionId
  status : String
  startedAt : Time
  endedAt : Option Time
  transportType : String
  metadata : Json
  outcome : Option OutcomeValues
  explanations : List ExplainabilityItem
  events : List SessionReplayEvent

/-- The agents whose steps are explained. -/
def explained : List String := ["safety","critic","tool"]

/-- How the host language writes a float with some decimals, and what is no string. No number,
list or object reads like the name of an agent. -/
structure Writer where
  fixed : Nat → PyFloat → String
  render : Json → String
  render_other : ∀ value, (∀ s, value ≠ .str s) → render value ∉ explained

/-- `value or {}`. -/
def orEmpty (value : Json) : Json := if value.truthy then value else .obj []

def ofText (text : Option String) : Json := (text.map .str).getD .null

def ofFloat (value : Option PyFloat) : Json := (value.map .float).getD .null

def boolText (value : Bool) : String := if value then "True" else "False"

section events
variable (writer : Writer)

def messageEvent (message : MessageRow) : SessionReplayEvent where
  eventType := .message
  timestamp := message.createdAt
  summary := Agents.clip 160 message.content
  role := some message.role
  payload := .obj [("message_id",.str (uuidText message.id)),("content_type",.str message.contentType),
    ("provider_metadata",orEmpty message.providerMetadata)]

def toolCallEvent (call : ToolCallRow) : SessionReplayEvent where
  eventType := .toolCall
  timestamp := call.createdAt
  summary := call.toolName ++ ": " ++ call.status
  status := some call.status
  payload := .obj [("tool_call_id",.str (uuidText call.id)),("tool_name",.str call.toolName),
    ("arguments",orEmpty call.arguments),("result",ofText call.result),("latency_ms",ofFloat call.latencyMs),
    ("error",ofText call.error)]

def metricPayload (metric : EvaluationMetricRow) : Json :=
  .obj [("name",.str metric.name),("score",.float metric.score),("value",ofFloat metric.value),
    ("unit",ofText metric.unit),("status",.str metric.status)]

def evaluationEvent (run : EvaluationRow) : SessionReplayEvent where
  eventType := .evaluation
  timestamp := run.createdAt
  summary := "Score " ++ writer.fixed 2 run.overallScore ++ " — " ++ run.overallStatus
  status := some run.overallStatus
  payload := .obj [("evaluation_id",.str (uuidText run.id)),("overall_score",.float run.overallScore),
    ("user_transcript",.str run.userTranscript),("assistant_response",.str run.assistantResponse),
    ("metrics",.arr (run.metrics.map metricPayload))]

def metricEvent (metric : SessionMetricRow) : SessionReplayEvent where
  eventType := .metric
  timestamp := metric.recordedAt
  summary := metric.metricName ++ "=" ++ writer.fixed 1 metric.valueMs ++ "ms"
  payload := .obj [("metric_name",.str metric.metricName),("value_ms",.float metric.valueMs)]

def handoffEvent (event : HandoffEventRow) : SessionReplayEvent where
  eventType := .handoff
  timestamp := event.createdAt
  summary := "handoff:" ++ event.eventType
  status := some event.eventType
  payload := orEmpty event.payload

def outcomeEvent (outcome : OutcomeValues) : SessionReplayEvent where
  eventType := .outcome
  timestamp := outcome.recordedAt
  summary := "intent=" ++ outcome.intent ++ " success=" ++ boolText outcome.taskSuccess ++
    " escalation=" ++ boolText outcome.escalation
  status := some (if outcome.taskSuccess then "success" else "unsuccessful")
  payload := .obj [("intent",.str outcome.intent),("task_success",.bool outcome.taskSuccess),
    ("escalation",.bool outcome.escalation),
    ("resolution_time_seconds",.float (.finite outcome.resolutionTimeSeconds))]

/-! The rows that the queries select, before `ORDER BY`. -/

def Rows.messagesOf (rows : Rows) (session : SessionRow) : List MessageRow :=
  rows.messages.filter (·.sessionId = session.id)

def Rows.toolCallsOf (rows : Rows) (session : SessionRow) : List ToolCallRow :=
  rows.toolCalls.filter (·.sessionId = some session.id)

def Rows.evaluationsOf (rows : Rows) (session : SessionRow) : List EvaluationRow :=
  rows.evaluations.filter (·.sessionId = session.id)

def Rows.metricsOf (rows : Rows) (session : SessionRow) : List SessionMetricRow :=
  rows.metrics.filter (·.sessionId = session.id)

/-- No query where the session has no handoff. -/
def Rows.handoffEventsOf (rows : Rows) (session : SessionRow) : List HandoffEventRow :=
  match session.handoffId with
  | none => []
  | some handoffId => rows.handoffEvents.filter (·.handoffId = handoffId)

def Rows.outcomeOf (rows : Rows) (session : SessionRow) : Option OutcomeValues :=
  (rows.outcomes.find? (·.sessionId = session.id)).map (·.values)

/-! The explanations -/

def explainStep (step : Json) : Option ExplainabilityItem :=
  match step with
  | .obj _ =>
    let agent := ((step.get? "agent").getD (.str "")).text writer.render
    let status := ((step.get? "status").getD (.str "completed")).text writer.render
    let summary := strip (((step.get? "summary").getD (.str "")).text writer.render)
    if agent = "safety" then
      some ⟨.safety,if status = "completed" then "allowed" else "blocked",if summary ≠ "" then summary else status⟩
    else if agent = "critic" then
      some ⟨.critic,if status = "completed" then "approved" else "revise",if summary ≠ "" then summary else status⟩
    else if agent = "tool" then some ⟨.tool,status,if summary ≠ "" then summary else "tool step"⟩
    else none
  | _ => none

def explainMessage (message : MessageRow) : List ExplainabilityItem :=
  if message.role ≠ "assistant" then []
  else
    match (orEmpty message.providerMetadata).get? "agent_trace" with
    | some (.arr trace) => trace.filterMap (explainStep writer)
    | _ => []

def explainOutcome (outcome : OutcomeValues) : ExplainabilityItem :=
  if outcome.taskSuccess then
    ⟨.outcome,"resolved","Intent `" ++ outcome.intent ++ "` completed without escalation."⟩
  else if outcome.escalation then
    ⟨.outcome,"escalated","Intent `" ++ outcome.intent ++ "` required handoff/escalation."⟩
  else ⟨.outcome,"unresolved","Intent `" ++ outcome.intent ++ "` did not complete successfully."⟩

def buildExplanations (messages : List MessageRow) (outcome : Option OutcomeValues) : List ExplainabilityItem :=
  messages.flatMap (explainMessage writer) ++ (outcome.map explainOutcome).toList

/-! The replay -/

/-- The events of selected rows, kind by kind. -/
def collect (messages : List MessageRow) (toolCalls : List ToolCallRow) (evaluations : List EvaluationRow)
    (metrics : List SessionMetricRow) (handoffEvents : List HandoffEventRow) (outcome : Option OutcomeValues) :
    List SessionReplayEvent :=
  [messages.map messageEvent,toolCalls.map toolCallEvent,evaluations.map (evaluationEvent writer),
    metrics.map (metricEvent writer),handoffEvents.map handoffEvent,(outcome.map outcomeEvent).toList].flatten

structure SessionNotFoundError where
  message : String
  deriving DecidableEq, Repr

variable (database : Sorter)

/-- `ReplayRepository.get_session_replay`, of a session that has been found. -/
def replayOf (rows : Rows) (session : SessionRow) : SessionReplay :=
  let messages := database.sortBy (·.createdAt) (rows.messagesOf session)
  let toolCalls := database.sortBy (·.createdAt) (rows.toolCallsOf session)
  let evaluations := database.sortBy (·.createdAt) (rows.evaluationsOf session)
  let metrics := database.sortBy (·.recordedAt) (rows.metricsOf session)
  let handoffEvents := database.sortBy (·.createdAt) (rows.handoffEventsOf session)
  let outcome := rows.outcomeOf session
  let events := collect writer messages toolCalls evaluations metrics handoffEvents outcome
  { sessionId := session.id
    status := session.status
    startedAt := session.startedAt
    endedAt := session.endedAt
    transportType := session.transportType
    metadata := orEmpty session.metadata
    outcome
    explanations := buildExplanations writer messages outcome
    events := events.mergeSort (·.timestamp ≤ ·.timestamp) }

def getSessionReplay (rows : Rows) (sessionId : SessionId) (orgId : Option OrgId) :
    Except SessionNotFoundError SessionReplay :=
  match rows.sessions.find? (·.id = sessionId) with
  | none => .error ⟨"Session not found: " ++ uuidText sessionId⟩
  | some session =>
    if orgId.isSome ∧ session.orgId ≠ orgId then .error ⟨"Session not found: " ++ uuidText sessionId⟩
    else .ok (replayOf writer database rows session)

/-- The route. -/
def readReplay (mac : Mac) (settings : Settings) (handoffs : Dict SessionId HandoffRecord) (now : Time)
    (rows : Rows) (request : Request) : Except Failure SessionReplay := do
  let orgId ← resolveReplayOrgId mac settings handoffs now request
  match getSessionReplay writer database rows request.sessionId (some orgId) with
  | .error _ => .error (.httpException 404 "Session not found")
  | .ok replay => return replay

/-! The timeline -/

/-- An event comes earlier, or at the same time and is of no later kind. -/
def Before (a b : SessionReplayEvent) : Prop :=
  a.timestamp < b.timestamp ∨ a.timestamp = b.timestamp ∧ a.eventType.rank ≤ b.eventType.rank

/-- All that the rows hold about a session and nothing else, in the order of time; at one
time, in the order of the kinds. -/
structure Timeline (rows : Rows) (session : SessionRow) (events : List SessionReplayEvent) : Prop where
  complete : events.Perm (collect writer (rows.messagesOf session) (rows.toolCallsOf session)
    (rows.evaluationsOf session) (rows.metricsOf session) (rows.handoffEventsOf session) (rows.outcomeOf session))
  ordered : events.Pairwise Before

variable {writer database}

theorem collect_perm {messages messages' : List MessageRow} {toolCalls toolCalls' : List ToolCallRow}
    {evaluations evaluations' : List EvaluationRow} {metrics metrics' : List SessionMetricRow}
    {handoffEvents handoffEvents' : List HandoffEventRow} {outcome : Option OutcomeValues}
    (hmessages : messages.Perm messages') (htools : toolCalls.Perm toolCalls')
    (hevaluations : evaluations.Perm evaluations') (hmetrics : metrics.Perm metrics')
    (hhandoffs : handoffEvents.Perm handoffEvents') :
    (collect writer messages toolCalls evaluations metrics handoffEvents outcome).Perm
      (collect writer messages' toolCalls' evaluations' metrics' handoffEvents' outcome) := by
  unfold collect
  simp only [List.flatten_cons]
  refine (hmessages.map _).append ((htools.map _).append ((hevaluations.map _).append ?_))
  exact (hmetrics.map _).append ((hhandoffs.map _).append (List.Perm.refl _))

theorem collect_ranked (messages : List MessageRow) (toolCalls : List ToolCallRow)
    (evaluations : List EvaluationRow) (metrics : List SessionMetricRow) (handoffEvents : List HandoffEventRow)
    (outcome : Option OutcomeValues) :
    (collect writer messages toolCalls evaluations metrics handoffEvents outcome).Pairwise fun a b =>
      a.eventType.rank ≤ b.eventType.rank := by
  refine (pairwise_flatten_rank (k := 0) fun part hpart event hevent => ?_).1
  simp only [List.zipIdx_cons,List.zipIdx_nil,List.mem_cons,List.not_mem_nil,or_false] at hpart
  rcases hpart with rfl | rfl | rfl | rfl | rfl | rfl
  · obtain ⟨row,-,rfl⟩ := List.mem_map.mp hevent
    rfl
  · obtain ⟨row,-,rfl⟩ := List.mem_map.mp hevent
    rfl
  · obtain ⟨row,-,rfl⟩ := List.mem_map.mp hevent
    rfl
  · obtain ⟨row,-,rfl⟩ := List.mem_map.mp hevent
    rfl
  · obtain ⟨row,-,rfl⟩ := List.mem_map.mp hevent
    rfl
  · cases outcome with
    | none => cases hevent
    | some values =>
      obtain rfl := List.mem_singleton.mp hevent
      rfl

theorem replayOf_timeline (rows : Rows) (session : SessionRow) :
    Timeline writer rows session (replayOf writer database rows session).events where
  complete := (List.mergeSort_perm _ _).trans (collect_perm (database.perm _ _) (database.perm _ _)
    (database.perm _ _) (database.perm _ _) (database.perm _ _))
  ordered := pairwise_mergeSort_stable SessionReplayEvent.timestamp (collect_ranked _ _ _ _ _ _)

theorem readReplay_ok {mac : Mac} {settings : Settings} {handoffs : Dict SessionId HandoffRecord} {now : Time}
    {rows : Rows} {request : Request} {replay : SessionReplay}
    (h : readReplay writer database mac settings handoffs now rows request = .ok replay) :
    ∃ orgId, ∃ session ∈ rows.sessions, resolveReplayOrgId mac settings handoffs now request = .ok orgId ∧
      session.id = request.sessionId ∧ session.orgId = some orgId ∧
      replay = replayOf writer database rows session := by
  obtain ⟨orgId,horg,h⟩ := bind_eq_ok.mp h
  unfold getSessionReplay at h
  split at h
  · cases h
  · next found hfound =>
    split at hfound
    · cases hfound
    · next session hsession =>
      split_ifs at hfound with hother
      obtain rfl := Except.ok.inj hfound
      obtain rfl := Except.ok.inj h
      have hmine : session.orgId = some orgId := by
        by_contra hne
        exact hother ⟨rfl,hne⟩
      exact ⟨orgId,session,List.mem_of_find?_eq_some hsession,horg,by simpa using List.find?_some hsession,hmine,rfl⟩

/-- A replay that is given out is of the session asked for, which belongs to the organisation
of the link or of the caller; its events are all that is stored about that session, in the
order of time, and it explains the session's messages in that order. -/
theorem replay_timeline (mac : Mac) (settings : Settings) (handoffs : Dict SessionId HandoffRecord) (now : Time)
    (rows : Rows) (request : Request) {replay : SessionReplay}
    (h : readReplay writer database mac settings handoffs now rows request = .ok replay) :
    ∃ orgId, ∃ session ∈ rows.sessions, resolveReplayOrgId mac settings handoffs now request = .ok orgId ∧
      session.id = request.sessionId ∧ session.orgId = some orgId ∧ replay.sessionId = request.sessionId ∧
      Timeline writer rows session replay.events ∧
      ∃ messages : List MessageRow, messages.Perm (rows.messagesOf session) ∧
        messages.Pairwise (fun a b => a.createdAt ≤ b.createdAt) ∧
        replay.explanations = buildExplanations writer messages replay.outcome := by
  obtain ⟨orgId,session,hin,horg,hid,hmine,rfl⟩ := readReplay_ok h
  refine ⟨orgId,session,hin,horg,hid,hmine,hid,replayOf_timeline rows session,?_⟩
  exact ⟨_,database.perm _ _,database.sorted _ _,rfl⟩

end events

def blankWriter : Writer where
  fixed _ _ := ""
  render _ := ""
  render_other _ _ := by decide

/-- A question and a tool call, at one time. -/
def askedSession : Rows where
  sessions := [{ id := 7, orgId := some 1, status := "ended", transportType := "websocket", startedAt := 3 }]
  messages := [{ id := 1, sessionId := 7, role := "user", content := "hello", createdAt := 4 },
    { id := 2, sessionId := 8, role := "user", content := "other", createdAt := 4 }]
  toolCalls := [{ id := 3, sessionId := some 7, toolName := "echo", status := "success", createdAt := 4 }]

def readByMember : Request where
  sessionId := 7
  principal := some { userId := some 2, orgId := 1, role := some .member }

theorem askedSession_timeline :
    ∃ replay, readReplay blankWriter .stable (fun _ _ => "") { jwtSecretKey := "" } .empty 0 askedSession
        readByMember = .ok replay ∧
      ∃ session ∈ askedSession.sessions, Timeline blankWriter askedSession session replay.events := by
  refine ⟨_,rfl,?_⟩
  obtain ⟨orgId,session,hin,-,-,-,-,htimeline,-⟩ := @replay_timeline blankWriter .stable
    (fun _ _ => "") { jwtSecretKey := "" } .empty 0 askedSession readByMember _ rfl
  exact ⟨session,hin,htimeline⟩

/-! What the replay of a session explains about the runs of its agents -/

section explains
open Foundation.Prog Agents Tools
variable {writer : Writer} {database : Sorter}

def toolItem (call : String × ToolResult) : ExplainabilityItem where
  kind := .tool
  decision := statusValue call.2.status
  reason := strip (call.1 ++ ": " ++ clip 120 (outputOf call.2))

def criticItem (review : Bool × String) : ExplainabilityItem where
  kind := .critic
  decision := if review.1 then "approved" else "revise"
  reason :=
    let summary := strip (if review.2 ≠ "" then clip 200 review.2 else "approved")
    if summary ≠ "" then summary else if review.1 then "completed" else "revised"

/-- The agent whose steps are explained so; no agent has the name of an outcome. -/
def ExplanationKind.agent : ExplanationKind → String
  | safety => "safety"
  | critic => "critic"
  | tool => "tool"
  | outcome => "outcome"

theorem eq_of_agent {kind kind' : ExplanationKind} (h : kind.agent = kind'.agent) : kind = kind' := by
  revert kind kind'
  intro kind kind'
  cases kind <;> cases kind' <;> decide

theorem text_word {value : Json} {word : String} (hword : word ∈ explained)
    (h : value.text writer.render = word) : value = .str word := by
  by_cases hstr : ∃ s, value = .str s
  · obtain ⟨s,rfl⟩ := hstr
    exact congrArg Json.str h
  · have hother := writer.render_other value fun s hs => hstr ⟨s,hs⟩
    have htext : value.text writer.render = writer.render value := by
      cases value <;> first | rfl | exact (hstr ⟨_,rfl⟩).elim
    rw [htext] at h
    exact absurd (h ▸ hword) hother

theorem agent_of_text {step : Json} {word : String} (hword : word ∈ explained)
    (h : ((step.get? "agent").getD (.str "")).text writer.render = word) :
    step.get? "agent" = some (.str word) := by
  have hvalue := text_word hword h
  cases hagent : step.get? "agent" with
  | some value =>
    rw [hagent] at hvalue
    exact congrArg some hvalue
  | none =>
    rw [hagent] at hvalue
    obtain rfl := Json.str.inj hvalue
    exact absurd hword (by decide)

theorem explainStep_agent {step : Json} {item : ExplainabilityItem} (h : explainStep writer step = some item) :
    step.get? "agent" = some (.str item.kind.agent) := by
  unfold explainStep at h
  split at h
  · next entries =>
    dsimp only at h
    have hsafety : "safety" ∈ explained := by decide
    have hcritic : "critic" ∈ explained := by decide
    have htool : "tool" ∈ explained := by decide
    split at h
    · next hagent =>
      obtain rfl := Option.some.inj h
      exact agent_of_text hsafety hagent
    · split at h
      · next hagent =>
        obtain rfl := Option.some.inj h
        exact agent_of_text hcritic hagent
      · split at h
        · next hagent =>
          obtain rfl := Option.some.inj h
          exact agent_of_text htool hagent
        · cases h
  · cases h

theorem explanations_of_kind (kind : ExplanationKind) (trace : List Json) :
    (trace.filterMap (explainStep writer)).filter (·.kind = kind) =
      (stepsOf kind.agent trace).filterMap (explainStep writer) := by
  rw [stepsOf,List.filter_filterMap,List.filterMap_filter]
  refine List.filterMap_congr fun step _ => ?_
  cases hstep : explainStep writer step with
  | none =>
    split
    · rfl
    · rfl
  | some item =>
    rw [explainStep_agent hstep]
    by_cases hkind : item.kind = kind
    · subst hkind
      simp
    · have hagent : item.kind.agent ≠ kind.agent := fun h => hkind (eq_of_agent h)
      simp [hkind,hagent]

theorem strip_call (name output : String) : strip (name ++ ": " ++ output) ≠ "" := by
  intro h
  have hall := strip_eq_empty_iff.mp h
  have hcolon : ':' ∈ (name ++ ": " ++ output).toList := by simp
  exact absurd (hall ':' hcolon) (by decide)

theorem explainStep_tool (call : String × ToolResult) :
    explainStep writer (toolStep call.1 call.2) = some (toolItem call) := by
  have hsummary := strip_call call.1 (clip 120 (outputOf call.2))
  have hitem : explainStep writer (toolStep call.1 call.2) = some ⟨.tool,statusValue call.2.status,
      if strip (call.1 ++ ": " ++ clip 120 (outputOf call.2)) ≠ "" then
        strip (call.1 ++ ": " ++ clip 120 (outputOf call.2))
      else "tool step"⟩ := rfl
  rw [hitem,if_pos hsummary]
  rfl

theorem explainStep_critic (review : Bool × String) :
    explainStep writer (criticStep review.1 review.2) = some (criticItem review) := by
  obtain ⟨approved,feedback⟩ := review
  cases approved with
  | true => rfl
  | false => rfl

/-- A run of the agent graph: what its models and tools answered. -/
structure AgentRun where
  config : GraphConfig
  events : List GraphEvent

def AgentRun.calls (run : AgentRun) : List (String × ToolResult) := (ledgerOf run.config run.events).calls

def AgentRun.reviews (run : AgentRun) : List (Bool × String) := (ledgerOf run.config run.events).reviews

/-- A message holds the trace of a run, as the voice pipeline stores it. -/
def Recorded (run : AgentRun) (message : MessageRow) : Prop :=
  ∃ (request : Agents.Request) (steps : Nat) (strategy : Strategy Op Op.Reply GraphError) (final : OrchestratorState),
    4 * run.config.rounds < steps ∧
    play strategy (ainvoke run.config steps request.initial) = (.ok final,run.events) ∧
    message.providerMetadata = .obj [("agent_trace",.arr final.agentTrace)]

variable {run : AgentRun} {message : MessageRow}

theorem Recorded.traced (h : Recorded run message) :
    ∃ trace, message.providerMetadata = .obj [("agent_trace",.arr trace)] ∧
      stepsOf "tool" trace = toolSteps run.calls ∧ stepsOf "critic" trace = criticSteps run.reviews := by
  obtain ⟨request,steps,strategy,final,hsteps,hplay,hmetadata⟩ := h
  obtain ⟨-,hsettled⟩ := wp_play strategy (fun _ _ => trivial) (ainvoke_spec request hsteps)
  rw [hplay] at hsettled
  have hdelivered : Delivered run.config (ledgerOf run.config run.events) final := hsettled
  exact ⟨_,hmetadata,hdelivered.traced.tools,hdelivered.traced.critics⟩

theorem filterMap_toolSteps (calls : List (String × ToolResult)) :
    (toolSteps calls).filterMap (explainStep writer) = calls.map toolItem := by
  induction calls with
  | nil => rfl
  | cons call calls ih =>
    rw [toolSteps,List.map_cons,List.filterMap_cons_some (explainStep_tool call),List.map_cons]
    exact congrArg _ ih

theorem filterMap_criticSteps (reviews : List (Bool × String)) :
    (criticSteps reviews).filterMap (explainStep writer) = reviews.map criticItem := by
  induction reviews with
  | nil => rfl
  | cons review reviews ih =>
    rw [criticSteps,List.map_cons,List.filterMap_cons_some (explainStep_critic review),List.map_cons]
    exact congrArg _ ih

/-- A recorded message of an assistant is explained by its run's calls and reviews. -/
theorem Recorded.explained (h : Recorded run message) (hrole : message.role = "assistant") :
    (explainMessage writer message).filter (·.kind = .tool) = run.calls.map toolItem ∧
    (explainMessage writer message).filter (·.kind = .critic) = run.reviews.map criticItem := by
  obtain ⟨trace,hmetadata,htools,hcritics⟩ := h.traced
  have hexplain : explainMessage writer message = trace.filterMap (explainStep writer) := by
    unfold explainMessage
    rw [if_neg (not_not_intro hrole),hmetadata]
    rfl
  rw [hexplain,explanations_of_kind,explanations_of_kind]
  refine ⟨?_,?_⟩
  · rw [ExplanationKind.agent,htools,filterMap_toolSteps]
  · rw [ExplanationKind.agent,hcritics,filterMap_criticSteps]

/-- Messages of others are not explained. -/
theorem filter_flatMap_explain {kind : ExplanationKind} {items : MessageRow → List ExplainabilityItem}
    {messages : List MessageRow}
    (h : ∀ message ∈ messages, message.role = "assistant" →
      (explainMessage writer message).filter (·.kind = kind) = items message) :
    (messages.flatMap (explainMessage writer)).filter (·.kind = kind) =
      (messages.filter (·.role = "assistant")).flatMap items := by
  induction messages with
  | nil => rfl
  | cons message messages ih =>
    have hrest := ih fun m hm => h m (List.mem_cons_of_mem _ hm)
    rw [List.flatMap_cons,List.filter_append,hrest]
    by_cases hrole : message.role = "assistant"
    · rw [h message List.mem_cons_self hrole,List.filter_cons_of_pos (by simpa using hrole),List.flatMap_cons]
    · have hnone : explainMessage writer message = [] := if_pos hrole
      rw [hnone,List.filter_cons_of_neg (by simpa using hrole)]
      rfl

theorem filter_outcome {kind : ExplanationKind} (hkind : kind ≠ .outcome) (outcome : Option OutcomeValues) :
    (outcome.map explainOutcome).toList.filter (·.kind = kind) = [] := by
  cases outcome with
  | none => rfl
  | some outcome =>
    have hother : (explainOutcome outcome).kind = .outcome := by
      unfold explainOutcome
      split_ifs <;> rfl
    exact List.filter_cons_of_neg (by simpa [hother] using hkind.symm)

/-- Where the assistant's messages of a session hold the traces of runs of the agent graph, the
replay explains every tool call and every review of these runs once, in the order of the
messages and of the run, and explains no other. -/
theorem replay_explains_runs (rows : Rows) (session : SessionRow) (runOf : MessageRow → AgentRun)
    (hrecorded : ∀ message ∈ rows.messagesOf session, message.role = "assistant" → Recorded (runOf message) message) :
    ∃ messages : List MessageRow, messages.Perm (rows.messagesOf session) ∧
      messages.Pairwise (fun a b => a.createdAt ≤ b.createdAt) ∧
      (replayOf writer database rows session).explanations.filter (·.kind = .tool) =
        (messages.filter (·.role = "assistant")).flatMap (fun message => (runOf message).calls.map toolItem) ∧
      (replayOf writer database rows session).explanations.filter (·.kind = .critic) =
        (messages.filter (·.role = "assistant")).flatMap (fun message => (runOf message).reviews.map criticItem) := by
  have hperm := database.perm MessageRow.createdAt (rows.messagesOf session)
  have hrun (message : MessageRow) (hin : message ∈ database.sortBy (·.createdAt) (rows.messagesOf session)) :=
    hrecorded message (hperm.mem_iff.mp hin)
  refine ⟨_,hperm,database.sorted _ _,?_,?_⟩
  · refine (List.filter_append ..).trans ?_
    rw [filter_flatMap_explain fun message hin hrole => ((hrun message hin hrole).explained hrole).1,
      filter_outcome (by decide),List.append_nil]
  · refine (List.filter_append ..).trans ?_
    rw [filter_flatMap_explain fun message hin hrole => ((hrun message hin hrole).explained hrole).2,
      filter_outcome (by decide),List.append_nil]

/-- The run that looks a ticket up, and what its state is in the end. -/
def ticketRun : AgentRun := ⟨twoRounds,(play ticketAnswered (ainvoke twoRounds 9 greeting.initial)).2⟩

def ticketTrace : List Json :=
  match (play ticketAnswered (ainvoke twoRounds 9 greeting.initial)).1 with
  | .ok final => final.agentTrace
  | .error _ => []

def greeted : MessageRow where
  id := 2
  sessionId := 7
  role := "assistant"
  content := "Your ticket is open."
  providerMetadata := .obj [("agent_trace",.arr ticketTrace)]
  createdAt := 5

def greetedSession : SessionRow where
  id := 7
  orgId := some 1
  status := "ended"
  transportType := "websocket"
  startedAt := 3

def greetedRows : Rows where
  sessions := [greetedSession]
  messages := [greeted,{ id := 1, sessionId := 7, role := "user", content := "hello", createdAt := 4 }]

theorem ticketRun_recorded : Recorded ticketRun greeted := by
  cases hplay : (play ticketAnswered (ainvoke twoRounds 9 greeting.initial)).1 with
  | error e =>
    have hok : (play ticketAnswered (ainvoke twoRounds 9 greeting.initial)).1.isOk = true := by decide +kernel
    rw [hplay] at hok
    cases hok
  | ok final =>
    have hrounds : 4 * twoRounds.rounds < 9 := by decide
    refine ⟨greeting,9,ticketAnswered,final,hrounds,Prod.ext hplay rfl,?_⟩
    have htrace : ticketTrace = final.agentTrace := by rw [ticketTrace,hplay]
    exact congrArg (fun trace => Json.obj [("agent_trace",.arr trace)]) htrace

theorem ticketRun_explained :
    ∃ messages : List MessageRow, messages.Perm (greetedRows.messagesOf greetedSession) ∧
      (replayOf blankWriter .stable greetedRows greetedSession).explanations.filter (·.kind = .tool) =
        (messages.filter (·.role = "assistant")).flatMap (fun _ => ticketRun.calls.map toolItem) ∧
      (replayOf blankWriter .stable greetedRows greetedSession).explanations.filter (·.kind = .critic) =
        (messages.filter (·.role = "assistant")).flatMap fun _ => ticketRun.reviews.map criticItem := by
  obtain ⟨messages,hperm,-,htools,hcritics⟩ := @replay_explains_runs blankWriter .stable greetedRows greetedSession
    (fun _ => ticketRun) fun message hin hrole => by
      obtain rfl | rfl := List.mem_pair.mp hin
      · exact ticketRun_recorded
      · exact absurd hrole (by decide)
  exact ⟨messages,hperm,htools,hcritics⟩

end explains
end VoxForge.Replay
