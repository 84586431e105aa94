import VoxForge.Agents.GraphRuns
import VoxForge.Core.Coercions

/-! `build_turn_handoff_context`, the reader of the agent trace, and the traces that the
agent graph writes. -/
namespace VoxForge.Handoffs
open Foundation Core Prog Tools Agents

inductive MetricName where
  | latency | taskCompletion | toolAccuracy | conversationQuality | cost | hallucination
  deriving DecidableEq, Repr

structure EvaluationMetric where
  name : MetricName
  score : PyFloat
  deriving DecidableEq, Repr

structure EvaluationRun where
  metrics : List EvaluationMetric
  deriving DecidableEq, Repr

def criticalTools : List String := ["knowledge_base_lookup","ticket_lookup","handoff_to_human"]

/-- The keyword arguments of `build_turn_handoff_context`. -/
structure TurnData where
  userTranscript : String
  assistantResponse : String
  interrupted : Bool
  confidence : Option PyFloat
  agentTrace : Option (List Json)
  evaluationRun : Option EvaluationRun
  consecutiveToolFailures : Int

section context
variable (host : Host)

/-- `str(step.get("status", "")).lower()`. -/
def statusOf (step : Json) : String := host.lower (((step.get? "status").getD (.str "")).text host.render)

/-- `str(step.get("tool") or step.get("summary") or "unknown")`. -/
def toolName (step : Json) : String :=
  let named := ((step.get? "tool").filter (·.truthy)).or ((step.get? "summary").filter (·.truthy))
  (named.getD (.str "unknown")).text host.render

def stepFailed (step : Json) : Bool := statusOf host step ∈ ["error","timeout","failed"]

def stepSucceeded (step : Json) : Bool := statusOf host step ∈ ["completed","success","ok"]

def criticApproved (trace : List Json) : Option Bool :=
  (stepsOf "critic" trace).head?.map fun step => statusOf host step ∈ ["completed","approved","success"]

/-- The similarity that a step reports, if it is a lookup's and completed. -/
def stepSimilarity (step : Json) : Except CoercionError (Option PyFloat) :=
  if (step.get? "tool").any (Json.isStr "knowledge_base_lookup") ∧ (step.get? "status").any (Json.isStr "completed") then
    let payload := ((step.get? "payload").filter (·.truthy)).getD (.obj [])
    match payload.get? "top_similarity" with
    | none | some .null => .ok none
    | some value => (value.toFloat host).map some
  else .ok none

/-- The loop over the steps: the last similarity stays. -/
def kbSimilarity : List Json → Option PyFloat → Except CoercionError (Option PyFloat)
  | [],found => .ok found
  | step :: rest,found => do
    let similarity ← stepSimilarity host step
    kbSimilarity rest (similarity.or found)

def buildTurnHandoffContext (turn : TurnData) : Except CoercionError TurnHandoffContext := do
  let trace := turn.agentTrace.getD []
  let toolSteps := stepsOf "tool" trace
  let failedTools := (toolSteps.filter (stepFailed host)).map (toolName host)
  let toolSuccessRatio : Option PyFloat :=
    if toolSteps.length = 0 then none
    else some (.finite (toolSteps.countP (stepSucceeded host) / toolSteps.length))
  let hallucinationScore := turn.evaluationRun.bind fun run =>
    (run.metrics.find? (·.name = .hallucination)).map (·.score)
  let kbTopSimilarity ← kbSimilarity host toolSteps none
  return {
    userTranscript := turn.userTranscript
    assistantResponse := turn.assistantResponse
    interrupted := turn.interrupted
    confidenceSignals := {
      criticApproved := criticApproved host trace
      hallucinationScore
      toolSuccessRatio
      sttConfidence := turn.confidence
      kbTopSimilarity }
    toolFailuresThisTurn := toolSteps.countP (stepFailed host)
    consecutiveToolFailures := turn.consecutiveToolFailures
    failedTools
    criticalToolFailed := failedTools.any (· ∈ criticalTools) }

end context

/-! What the reader makes of the entries that the graph writes -/

section produced
variable {host : Host}

/-- What the entry of a tool gives as the tool's name. -/
def entryName (call : String × ToolResult) : String := call.1 ++ ": " ++ clip 120 (outputOf call.2)

theorem statusOf_toolStep (name : String) (result : ToolResult) :
    statusOf host (toolStep name result) = statusValue result.status := by
  have hlower (status : ToolCallStatus) : host.lower (statusValue status) = statusValue status := by
    cases status <;> exact host.lower_ascii (by decide)
  exact hlower result.status

theorem toolName_toolStep (name : String) (result : ToolResult) :
    toolName host (toolStep name result) = entryName (name,result) := by
  have htruthy : (Json.str (entryName (name,result))).truthy = true := by
    have hne : entryName (name,result) ≠ "" := by
      intro h
      have hlength := congrArg String.length h
      simp [entryName] at hlength
    simpa [Json.truthy] using hne
  have htool : (toolStep name result).get? "tool" = none := rfl
  have hsummary : (toolStep name result).get? "summary" = some (.str (entryName (name,result))) := rfl
  unfold toolName
  rw [htool,hsummary,Option.filter_none,Option.none_or,Option.filter_some,if_pos htruthy]
  rfl

def failedCall (call : String × ToolResult) : Bool := call.2.status = .error ∨ call.2.status = .timeout

def succeededCall (call : String × ToolResult) : Bool := call.2.status = .success

theorem stepFailed_toolStep (call : String × ToolResult) :
    stepFailed host (toolStep call.1 call.2) = failedCall call := by
  unfold stepFailed failedCall
  rw [statusOf_toolStep]
  cases call.2.status <;> decide

theorem stepSucceeded_toolStep (call : String × ToolResult) :
    stepSucceeded host (toolStep call.1 call.2) = succeededCall call := by
  unfold stepSucceeded succeededCall
  rw [statusOf_toolStep]
  cases call.2.status <;> decide

theorem failed_toolSteps (calls : List (String × ToolResult)) :
    ((toolSteps calls).filter (stepFailed host)).map (toolName host) = (calls.filter failedCall).map entryName := by
  induction calls with
  | nil => rfl
  | cons call calls ih =>
    have hcons : toolSteps (call :: calls) = toolStep call.1 call.2 :: toolSteps calls := rfl
    rw [hcons,List.filter_cons,List.filter_cons,stepFailed_toolStep]
    split
    · rw [List.map_cons,List.map_cons,ih,toolName_toolStep]
    · exact ih

theorem countP_toolSteps {p : Json → Bool} {q : String × ToolResult → Bool}
    (h : ∀ call, p (toolStep call.1 call.2) = q call) (calls : List (String × ToolResult)) :
    (toolSteps calls).countP p = calls.countP q := by
  unfold toolSteps
  rw [List.countP_map]
  exact congrArg (calls.countP ·) (funext h)

/-- No entry says which tool it is from, so none reports a similarity. -/
theorem kbSimilarity_toolSteps (calls : List (String × ToolResult)) (found : Option PyFloat) :
    kbSimilarity host (toolSteps calls) found = .ok found := by
  induction calls with
  | nil => rfl
  | cons call calls ih => exact ih

theorem criticApproved_eq {trace : List Json} {reviews : List (Bool × String)}
    (h : stepsOf "critic" trace = criticSteps reviews) :
    criticApproved host trace = reviews.head?.map Prod.fst := by
  have hcompleted : host.lower "completed" = "completed" := host.lower_ascii (by decide)
  have hrevised : host.lower "revised" = "revised" := host.lower_ascii (by decide)
  unfold criticApproved
  rw [h]
  cases reviews with
  | nil => rfl
  | cons review reviews =>
    have hstatus : statusOf host (criticStep review.1 review.2) = if review.1 then "completed" else "revised" := by
      unfold statusOf criticStep
      cases review.1
      · exact hrevised
      · exact hcompleted
    refine congrArg some ?_
    dsimp only
    rw [hstatus]
    cases review.1 <;> decide

end produced

/-! Whether the signals agree with what the agents did -/

/-- A lookup that brought a similarity. -/
def similarityFound (similarityOf : ToolResult → Option PyFloat) (calls : List (String × ToolResult)) : Prop :=
  ∃ call ∈ calls, call.1 = "knowledge_base_lookup" ∧ succeededCall call ∧ (similarityOf call.2).isSome

structure Agrees (similarityOf : ToolResult → Option PyFloat) (calls : List (String × ToolResult))
    (reviews : List (Bool × String)) (context : TurnHandoffContext) : Prop where
  failures : context.toolFailuresThisTurn = calls.countP failedCall
  failedTools : context.failedTools = (calls.filter failedCall).map Prod.fst
  critical : context.criticalToolFailed = true ↔ ∃ call ∈ calls, failedCall call ∧ call.1 ∈ criticalTools
  ratio : context.confidenceSignals.toolSuccessRatio =
    if calls.length = 0 then none else some (.finite (calls.countP succeededCall / calls.length))
  critic : context.confidenceSignals.criticApproved = reviews.getLast?.map Prod.fst
  similarity : similarityFound similarityOf calls → context.confidenceSignals.kbTopSimilarity.isSome

section agreement
variable (host : Host)

theorem entryName_ne (call : String × ToolResult) : entryName call ≠ call.1 := by
  intro h
  have hlength := congrArg String.length h
  unfold entryName at hlength
  rw [String.length_append,String.length_append] at hlength
  have hseparator : ": ".length = 2 := rfl
  omega

/-- The names agree only where there is none. -/
theorem entryNames_eq_iff (calls : List (String × ToolResult)) :
    calls.map entryName = calls.map Prod.fst ↔ calls = [] := by
  constructor
  · intro h
    cases calls with
    | nil => rfl
    | cons call calls => exact absurd (List.cons.inj h).1 (entryName_ne call)
  · rintro rfl
    rfl

theorem context_of_traced {trace : List Json} {calls : List (String × ToolResult)} {reviews : List (Bool × String)}
    (htools : stepsOf "tool" trace = toolSteps calls) (hcritics : stepsOf "critic" trace = criticSteps reviews)
    (turn : TurnData) (hturn : turn.agentTrace = some trace) :
    ∃ context, buildTurnHandoffContext host turn = .ok context ∧
      context.toolFailuresThisTurn = calls.countP failedCall ∧
      context.failedTools = (calls.filter failedCall).map entryName ∧
      context.criticalToolFailed = ((calls.filter failedCall).map entryName).any (· ∈ criticalTools) ∧
      context.confidenceSignals.toolSuccessRatio =
        (if calls.length = 0 then none else some (.finite (calls.countP succeededCall / calls.length))) ∧
      context.confidenceSignals.criticApproved = reviews.head?.map Prod.fst ∧
      context.confidenceSignals.kbTopSimilarity = none := by
  have hlength : (toolSteps calls).length = calls.length := List.length_map ..
  have htrace : turn.agentTrace.getD [] = trace := by rw [hturn]; rfl
  unfold buildTurnHandoffContext
  rw [htrace]
  dsimp only
  rw [htools,kbSimilarity_toolSteps]
  refine ⟨_,rfl,?_,failed_toolSteps calls,?_,?_,criticApproved_eq hcritics,rfl⟩
  · exact congrArg Nat.cast (countP_toolSteps stepFailed_toolStep calls)
  · exact congrArg (List.any · _) (failed_toolSteps calls)
  · dsimp only
    rw [hlength,countP_toolSteps stepSucceeded_toolStep]

/-- Over every run of the graph: the signals agree with the calls and verdicts unless a call failed, a
lookup brought a similarity, or the first verdict was not the last. -/
theorem escalation_signals (config : GraphConfig) (request : Request) (steps : Nat)
    (hsteps : 4 * config.rounds < steps) (strategy : Strategy Agents.Op Agents.Op.Reply GraphError)
    (final : OrchestratorState) (events : List GraphEvent)
    (hplay : play strategy (ainvoke config steps request.initial) = (.ok final,events))
    (turn : TurnData) (hturn : turn.agentTrace = some final.agentTrace)
    (similarityOf : ToolResult → Option PyFloat) :
    ∃ context, buildTurnHandoffContext host turn = .ok context ∧
      (Agrees similarityOf (ledgerOf config events).calls (ledgerOf config events).reviews context ↔
        (∀ call ∈ (ledgerOf config events).calls, ¬failedCall call) ∧
        ¬similarityFound similarityOf (ledgerOf config events).calls ∧
        (ledgerOf config events).reviews.head?.map Prod.fst = (ledgerOf config events).reviews.getLast?.map Prod.fst) := by
  obtain ⟨-,hsettled⟩ := wp_play strategy (fun _ _ => trivial) (ainvoke_spec request hsteps)
  rw [hplay] at hsettled
  have hdelivered : Delivered config (ledgerOf config events) final := hsettled
  obtain ⟨context,hcontext,hfailures,hnames,hcritical,hratio,hcritic,hsimilarity⟩ :=
    context_of_traced host hdelivered.traced.tools hdelivered.traced.critics turn hturn
  refine ⟨context,hcontext,?_⟩
  constructor
  · intro h
    refine ⟨?_,fun hfound => ?_,?_⟩
    · have hnone : (ledgerOf config events).calls.filter failedCall = [] := by
        rw [← entryNames_eq_iff,← hnames]
        exact h.failedTools
      exact fun call hcall => List.filter_eq_nil_iff.mp hnone call hcall
    · have hsome := h.similarity hfound
      rw [hsimilarity] at hsome
      cases hsome
    · rw [← hcritic]
      exact h.critic
  · rintro ⟨hclean,hfound,hverdict⟩
    have hnone : (ledgerOf config events).calls.filter failedCall = [] := List.filter_eq_nil_iff.mpr hclean
    refine ⟨hfailures,?_,?_,hratio,hcritic.trans hverdict,fun h => (hfound h).elim⟩
    · rw [hnames,hnone]
      rfl
    · rw [hcritical,hnone]
      constructor
      · intro h
        cases h
      · rintro ⟨call,hcall,hfailed,-⟩
        exact (hclean call hcall hfailed).elim

end agreement

/-- The executor asks for a ticket once, and the lookup fails; the other answers are no JSON. -/
def failedLookup : Strategy Agents.Op Agents.Op.Reply GraphError
  | past,.ainvoke .executor _ =>
    .ok { content := .str "Hello.", toolCalls := if past.any isToolCall then [] else [{ name := "ticket_lookup", id := "1" }] }
  | _,.ainvoke .. => .ok { content := .str "Fine." }
  | _,.execute toolName .. => .ok { toolName, output := "", status := .error, error := some "no such ticket" }
  | _,.getLangchainTools => .ok ["ticket_lookup"]
  | _,.bindTools _ => .ok ()

def finalOf (strategy : Strategy Agents.Op Agents.Op.Reply GraphError) : OrchestratorState :=
  (play strategy (ainvoke twoRounds 9 greeting.initial)).1.toOption.getD greeting.initial

def bareHost : Host where
  render _ := ""
  parseInt _ := none
  parseFloat _ := none
  lowerOther text := text

def turnOf (trace : List Json) : TurnData where
  userTranscript := "hello"
  assistantResponse := "Hello."
  interrupted := false
  confidence := none
  agentTrace := some trace
  evaluationRun := none
  consecutiveToolFailures := 0

private theorem ok_getD {ε α : Type} {x : Except ε α} {a : α} (h : x.isOk = true) : x = .ok (x.toOption.getD a) := by
  cases x with
  | error e => cases h
  | ok a => rfl

theorem escalation_signals_ticket :
    ∃ context, buildTurnHandoffContext bareHost (turnOf (finalOf ticketAnswered).agentTrace) = .ok context ∧
      Agrees (fun _ => some (.finite 1))
        [("ticket_lookup",{ toolName := "ticket_lookup", output := "open" }),
          ("get_current_time",{ toolName := "get_current_time", output := "open" })] [(true,"")] context := by
  let events := (play ticketAnswered (ainvoke twoRounds 9 greeting.initial)).2
  have hrun : (play ticketAnswered (ainvoke twoRounds 9 greeting.initial)).1.isOk = true := by decide +kernel
  obtain ⟨context,hcontext,hiff⟩ := escalation_signals bareHost twoRounds greeting 9 (by decide) ticketAnswered
    (finalOf ticketAnswered) events (Prod.ext (ok_getD hrun) rfl) (turnOf (finalOf ticketAnswered).agentTrace) rfl
    fun _ => some (.finite 1)
  have hcalls : (ledgerOf twoRounds events).calls =
      [("ticket_lookup",{ toolName := "ticket_lookup", output := "open" }),
        ("get_current_time",{ toolName := "get_current_time", output := "open" })] := by decide +kernel
  have hreviews : (ledgerOf twoRounds events).reviews = [(true,"")] := by decide +kernel
  rw [hcalls,hreviews] at hiff
  refine ⟨context,hcontext,hiff.mpr ⟨by decide,?_,rfl⟩⟩
  rintro ⟨call,hcall,hname,-⟩
  simp only [List.mem_cons,List.not_mem_nil,or_false] at hcall
  obtain rfl | rfl := hcall
  · exact absurd hname (by decide)
  · exact absurd hname (by decide)

/-- The failure is counted, but its tool goes by another name and is not seen to be critical. -/
theorem failedLookup_misread :
    ∃ context, buildTurnHandoffContext bareHost (turnOf (finalOf failedLookup).agentTrace) = .ok context ∧
      context.failedTools = ["ticket_lookup: no such ticket"] ∧ context.criticalToolFailed = false ∧
      ¬Agrees (fun _ => none)
        (ledgerOf twoRounds (play failedLookup (ainvoke twoRounds 9 greeting.initial)).2).calls
        (ledgerOf twoRounds (play failedLookup (ainvoke twoRounds 9 greeting.initial)).2).reviews context := by
  have hbuilt : ((buildTurnHandoffContext bareHost (turnOf (finalOf failedLookup).agentTrace)).toOption.map
      fun context => (context.failedTools,context.criticalToolFailed)) =
        some (["ticket_lookup: no such ticket"],false) := by decide +kernel
  have hcalls : ((ledgerOf twoRounds (play failedLookup (ainvoke twoRounds 9 greeting.initial)).2).calls.filter
      failedCall).map Prod.fst = ["ticket_lookup"] := by decide +kernel
  cases hcontext : buildTurnHandoffContext bareHost (turnOf (finalOf failedLookup).agentTrace) with
  | error e =>
    rw [hcontext] at hbuilt
    cases hbuilt
  | ok context =>
    rw [hcontext] at hbuilt
    obtain ⟨htools,hcritical⟩ := Prod.mk.inj (Option.some.inj hbuilt)
    refine ⟨context,rfl,htools,hcritical,fun h => ?_⟩
    have hagreed := h.failedTools
    rw [htools,hcalls] at hagreed
    exact absurd hagreed (by decide)

end VoxForge.Handoffs
