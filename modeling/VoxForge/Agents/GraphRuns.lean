import VoxForge.Agents.Ledger

/-! Runs of the agent graph: every node leaves the state as the ledger says, round after
round, until a run delivers. -/
namespace VoxForge.Agents
open Foundation Prog Core Tools

/-! The trace, by agent -/

section trace

/-- The entries of one agent. -/
def stepsOf (agent : String) (trace : List Json) : List Json :=
  trace.filter fun step => (step.get? "agent").any (Json.isStr agent)

theorem stepsOf_append (agent : String) (trace trace' : List Json) :
    stepsOf agent (trace ++ trace') = stepsOf agent trace ++ stepsOf agent trace' :=
  List.filter_append ..

theorem stepsOf_cons (agent other status summary : String) (trace : List Json) :
    stepsOf agent (traceStep other status summary :: trace) =
      if other = agent then traceStep other status summary :: stepsOf agent trace else stepsOf agent trace := by
  unfold stepsOf
  rw [List.filter_cons]
  simp [traceStep,Json.get?]

@[simp] theorem stepsOf_nil (agent : String) : stepsOf agent [] = [] := rfl

theorem stepsOf_toolSteps (agent : String) (calls : List (String × ToolResult)) :
    stepsOf agent (toolSteps calls) = if "tool" = agent then toolSteps calls else [] := by
  induction calls with
  | nil => simp [toolSteps]
  | cons call calls ih =>
    have hhead : stepsOf agent (toolSteps (call :: calls)) =
        if "tool" = agent then toolStep call.1 call.2 :: stepsOf agent (toolSteps calls)
        else stepsOf agent (toolSteps calls) := stepsOf_cons ..
    rw [hhead,ih]
    split
    · rfl
    · rfl

def criticSteps (reviews : List (Bool × String)) : List Json :=
  reviews.map fun (approved,feedback) => criticStep approved feedback

/-- The trace holds the entries of the calls and of the reviews, each in their order. -/
structure Traced (s : OrchestratorState) (l : Ledger) : Prop where
  tools : stepsOf "tool" s.agentTrace = toolSteps l.calls
  critics : stepsOf "critic" s.agentTrace = criticSteps l.reviews

/-- Entries of other agents do not count. -/
theorem Traced.other {s t : OrchestratorState} {l m : Ledger} {agent status summary : String} (h : Traced s l)
    (htrace : t.agentTrace = s.agentTrace ++ [traceStep agent status summary]) (htool : agent ≠ "tool")
    (hcritic : agent ≠ "critic") (hcalls : m.calls = l.calls) (hreviews : m.reviews = l.reviews) :
    Traced t m := by
  constructor
  · rw [htrace,stepsOf_append,stepsOf_cons,if_neg htool,hcalls,h.tools]
    simp
  · rw [htrace,stepsOf_append,stepsOf_cons,if_neg hcritic,hreviews,h.critics]
    simp

end trace

/-! The loop -/

section loop
variable (config : GraphConfig) (userInput : String)

/-- A round that nothing has ended yet. -/
structure Open (s : OrchestratorState) (l : Ledger) : Prop where
  orderly : l.orderly = true
  blocked : l.blocked = false
  asked : s.userInput = userInput
  unanswered : s.finalResponse = ""
  round : s.iteration < config.rounds
  traced : Traced s l

/-- The end: the last verdict decides between the refusal and the last draft. -/
structure Delivered (l : Ledger) (s : OrchestratorState) : Prop where
  orderly : l.orderly = true
  visits : l.visits ≤ config.rounds
  judged : l.verdict.isSome = true
  response : s.finalResponse = l.reply
  traced : Traced s l

/-- What holds when a node is entered, with `steps` nodes left at the most. -/
def Entered (steps : Nat) : Agent → OrchestratorState → Ledger → Prop
  | .planner,s,l => Open config userInput s l ∧ l.visits = s.iteration ∧
      4 * (config.rounds - s.iteration) < steps
  | .safety,s,l => Open config userInput s l ∧ l.visits = s.iteration + 1 ∧
      4 * (config.rounds - s.iteration) ≤ steps ∧ l.verdict = none ∧ l.draft = "" ∧ s.plan = l.plan
  | .executor,s,l => Open config userInput s l ∧ l.visits = s.iteration + 1 ∧
      4 * (config.rounds - s.iteration) ≤ steps + 1 ∧ l.verdict = some true ∧ l.draft = ""
  | .critic,s,l => Open config userInput s l ∧ l.visits = s.iteration + 1 ∧
      4 * (config.rounds - s.iteration) ≤ steps + 2 ∧ l.verdict = some true ∧ s.draftResponse = l.draft
  | .coordinator,s,l => 0 < steps ∧ l.orderly = true ∧ l.visits ≤ config.rounds ∧ Traced s l ∧
      ((l.verdict = some false ∧ s.finalResponse = refusal) ∨
        (l.verdict = some true ∧ s.finalResponse = "" ∧ s.draftResponse = l.draft))

variable {config userInput} {steps : Nat} {s : OrchestratorState} {l : Ledger}

theorem not_entered_zero (agent : Agent) : ¬Entered config userInput 0 agent s l := by
  intro h
  cases agent with
  | planner => exact absurd h.2.2 (Nat.not_lt_zero _)
  | safety =>
    have := h.1.round
    have := h.2.2.1
    omega
  | executor =>
    have := h.1.round
    have := h.2.2.1
    omega
  | critic =>
    have := h.1.round
    have := h.2.2.1
    omega
  | coordinator => exact absurd h.1 (Nat.lt_irrefl 0)

/-- What a node has to leave. -/
abbrev Leaves (config : GraphConfig) (userInput : String) (steps : Nat) (agent : Agent) :
    Ledger → Except GraphError OrchestratorState → Prop :=
  (buildAgentGraph config).Leads (Entered config userInput) (settled config (Delivered config)) steps agent

/-- A node whose update, merged into the state, enters the next node or ends the run. -/
theorem node_leaves {agent : Agent} {q : Ledger → Update → Prop}
    (hp : wp (watch config userInput) l (node config agent s) (settled config q))
    (hq : ∀ l' update, q l' update → Leaves config userInput steps agent l' (.ok (s.merge update))) :
    wp (watch config userInput) l ((buildAgentGraph config).node agent s) (Leaves config userInput steps agent) := by
  have hnode : (buildAgentGraph config).node agent s =
      node config agent s >>= fun update => pure (s.merge update) := rfl
  rw [hnode,wp_bind]
  apply wp_mono hp
  intro l' r hr
  cases r with
  | ok update => exact hq l' update hr
  | error e => exact hr

theorem planner_leaves (h : Entered config userInput (steps + 1) .planner s l) :
    wp (watch config userInput) l ((buildAgentGraph config).node .planner s)
      (Leaves config userInput steps .planner) := by
  obtain ⟨hopen,hvisits,hsteps⟩ := h
  refine node_leaves (planner_spec hopen.blocked (hvisits ▸ hopen.round)) ?_
  rintro l' update ⟨plan,rfl,rfl⟩
  refine ⟨⟨hopen.orderly,hopen.blocked,hopen.asked,hopen.unanswered,hopen.round,?_⟩,?_,?_,rfl,rfl,rfl⟩
  · exact hopen.traced.other rfl (by decide) (by decide) rfl rfl
  · exact congrArg (· + 1) hvisits
  · exact Nat.lt_succ_iff.mp hsteps

theorem safety_leaves (h : Entered config userInput (steps + 1) .safety s l) :
    wp (watch config userInput) l ((buildAgentGraph config).node .safety s)
      (Leaves config userInput steps .safety) := by
  obtain ⟨hopen,hvisits,hsteps,hverdict,hdraft,hplan⟩ := h
  have hbound : l.visits ≤ config.rounds := by
    have := hopen.round
    omega
  refine node_leaves (safety_spec hopen.blocked hverdict hopen.asked hplan hbound) ?_
  rintro l' update ⟨passed,reason,rfl,rfl⟩
  have htraced := hopen.traced.other (t := s.merge { agentTrace := [traceStep "safety"
    (if passed then "completed" else "blocked") (if reason ≠ "" then reason else "passed")] })
    (m := l) rfl (by decide) (by decide) rfl rfl
  cases passed with
  | true =>
    refine ⟨⟨hopen.orderly,rfl,hopen.asked,hopen.unanswered,hopen.round,?_⟩,hvisits,hsteps,rfl,hdraft⟩
    exact ⟨htraced.tools,htraced.critics⟩
  | false =>
    refine ⟨?_,hopen.orderly,hbound,⟨htraced.tools,htraced.critics⟩,.inl ⟨rfl,rfl⟩⟩
    have := hopen.round
    omega

theorem executor_leaves (h : Entered config userInput (steps + 1) .executor s l) :
    wp (watch config userInput) l ((buildAgentGraph config).node .executor s)
      (Leaves config userInput steps .executor) := by
  obtain ⟨hopen,hvisits,hsteps,hverdict,hdraft⟩ := h
  have hbound : l.visits ≤ config.rounds := by
    have := hopen.round
    omega
  refine node_leaves (executor_spec hopen.blocked hverdict hbound hdraft) ?_
  rintro l' update ⟨draft,calls,recorded,rfl,rfl⟩
  refine ⟨⟨hopen.orderly,hopen.blocked,hopen.asked,hopen.unanswered,hopen.round,?_⟩,hvisits,hsteps,hverdict,rfl⟩
  constructor
  · have htrace : stepsOf "tool" (s.agentTrace ++
        (traceStep "executor" "completed" (clip 200 draft) :: toolSteps calls)) = toolSteps (l.calls ++ calls) := by
      rw [stepsOf_append,stepsOf_cons,if_neg (by decide),stepsOf_toolSteps,if_pos rfl,hopen.traced.tools]
      exact (List.map_append ..).symm
    exact htrace
  · have htrace : stepsOf "critic" (s.agentTrace ++
        (traceStep "executor" "completed" (clip 200 draft) :: toolSteps calls)) = criticSteps l.reviews := by
      rw [stepsOf_append,stepsOf_cons,if_neg (by decide),stepsOf_toolSteps,if_neg (by decide),
        hopen.traced.critics,List.append_nil]
    exact htrace

/-- The critic's entry follows the calls and the earlier reviews. -/
theorem Traced.review {s t : OrchestratorState} {l : Ledger} {approved : Bool} {feedback : String}
    (h : Traced s l) (htrace : t.agentTrace = s.agentTrace ++ [criticStep approved feedback]) :
    Traced t { l with reviews := l.reviews ++ [(approved,feedback)] } := by
  have hstep : criticStep approved feedback = traceStep "critic" (if approved then "completed" else "revised")
    (if feedback ≠ "" then clip 200 feedback else "approved") := rfl
  constructor
  · rw [htrace,stepsOf_append,hstep,stepsOf_cons,if_neg (by decide),h.tools]
    simp
  · rw [htrace,stepsOf_append,hstep,stepsOf_cons,if_pos rfl,h.critics,← hstep]
    simp [criticSteps]

theorem critic_leaves (h : Entered config userInput (steps + 1) .critic s l) :
    wp (watch config userInput) l ((buildAgentGraph config).node .critic s)
      (Leaves config userInput steps .critic) := by
  obtain ⟨hopen,hvisits,hsteps,hverdict,hdraft⟩ := h
  have hround := hopen.round
  have hbound : l.visits ≤ config.rounds := by omega
  refine node_leaves (critic_spec hopen.blocked hbound) ?_
  rintro l' update ⟨approved,feedback,rfl,rfl⟩
  have htraced := hopen.traced.review (t := s.merge {
    criticApproved := some approved
    criticFeedback := some feedback
    iteration := some (s.iteration + if approved then 0 else 1)
    agentTrace := [criticStep approved feedback] }) rfl
  generalize hs : s.merge _ = s' at htraced ⊢
  have hiteration : s'.iteration = s.iteration + if approved then 0 else 1 := by rw [← hs]; rfl
  have happroved : s'.criticApproved = approved := by rw [← hs]; rfl
  have hfinal : s'.finalResponse = "" := by rw [← hs]; exact hopen.unanswered
  have hlast : s'.draftResponse = l.draft := by rw [← hs]; exact hdraft
  have hasked : s'.userInput = userInput := by rw [← hs]; exact hopen.asked
  have hend : Entered config userInput steps .coordinator s'
      { l with reviews := l.reviews ++ [(approved,feedback)] } :=
    ⟨by omega,hopen.orderly,hbound,htraced,.inr ⟨hverdict,hfinal,hlast⟩⟩
  have hgoal : Entered config userInput steps (routeAfterCritic config s') s'
      { l with reviews := l.reviews ++ [(approved,feedback)] } := by
    unfold routeAfterCritic
    rw [happroved]
    cases approved with
    | true => exact hend
    | false =>
      simp only [Bool.false_eq_true,if_false] at hiteration ⊢
      split_ifs with hlimit
      · exact hend
      · have hnext : s'.iteration < config.rounds := by
          unfold GraphConfig.rounds
          omega
        refine ⟨⟨hopen.orderly,hopen.blocked,hasked,hfinal,hnext,htraced⟩,?_,?_⟩
        · exact hvisits.trans hiteration.symm
        · omega
  exact hgoal

theorem coordinator_leaves (h : Entered config userInput (steps + 1) .coordinator s l) :
    wp (watch config userInput) l ((buildAgentGraph config).node .coordinator s)
      (Leaves config userInput steps .coordinator) := by
  obtain ⟨-,horderly,hvisits,htraced,⟨hverdict,hfinal⟩ | ⟨hverdict,hfinal,hdraft⟩⟩ := h
  · have hrefused : s.finalResponse ≠ "" := by
      rw [hfinal]
      decide
    refine node_leaves (q := fun l' update => l' = l ∧
      update = { agentTrace := [traceStep "coordinator" "blocked" s.safetyReason] }) ?_ ?_
    · have hnode : node config .coordinator s =
          pure { agentTrace := [traceStep "coordinator" "blocked" s.safetyReason] } := if_pos hrefused
      rw [hnode]
      exact ⟨rfl,rfl⟩
    · rintro l' update ⟨rfl,rfl⟩
      refine ⟨horderly,hvisits,by rw [hverdict]; rfl,?_,?_⟩
      · rw [Ledger.reply,if_pos hverdict]
        exact hfinal
      · exact htraced.other rfl (by decide) (by decide) rfl rfl
  · refine node_leaves (q := fun l' update => l' = l ∧ update = {
        finalResponse := some s.draftResponse
        agentTrace := [traceStep "coordinator" "completed" (clip 200 s.draftResponse)] }) ?_ ?_
    · have hnode : node config .coordinator s = pure {
          finalResponse := some s.draftResponse
          agentTrace := [traceStep "coordinator" "completed" (clip 200 s.draftResponse)] } :=
        if_neg (not_not_intro hfinal)
      rw [hnode]
      exact ⟨rfl,rfl⟩
    · rintro l' update ⟨rfl,rfl⟩
      refine ⟨horderly,hvisits,by rw [hverdict]; rfl,?_,?_⟩
      · rw [Ledger.reply,hverdict,if_neg (by decide)]
        exact hdraft
      · exact htraced.other rfl (by decide) (by decide) rfl rfl

/-- The entries of the state that `generate_response` fills in; the others start empty. -/
structure Request where
  messages : List Message
  userInput : String
  sessionId : Option String
  orgId : Option String
  callerScopes : List Scope

def Request.initial (request : Request) : OrchestratorState where
  messages := request.messages
  userInput := request.userInput
  sessionId := request.sessionId
  orgId := request.orgId
  callerScopes := request.callerScopes

/-- With enough steps every run of the graph delivers, or ends at an unusable answer. -/
theorem ainvoke_spec (request : Request) (hsteps : 4 * config.rounds < steps) :
    wp (watch config request.userInput) {} (ainvoke config steps request.initial)
      (settled config (Delivered config)) := by
  refine StateGraph.wp_invoke (I := Entered config request.userInput) ?_ ?_ ?_
  · intro agent s l
    exact not_entered_zero agent
  · intro steps agent s l h
    cases agent with
    | planner => exact planner_leaves h
    | safety => exact safety_leaves h
    | executor => exact executor_leaves h
    | critic => exact critic_leaves h
    | coordinator => exact coordinator_leaves h
  · have hround : 0 < config.rounds := Nat.lt_of_lt_of_le Nat.one_pos (Nat.le_max_left 1 _)
    exact ⟨⟨rfl,rfl,rfl,rfl,hround,⟨rfl,rfl⟩⟩,rfl,hsteps⟩

end loop

/-! Every run -/

section runs
variable (config : GraphConfig) (request : Request)

def isToolCall : GraphEvent → Bool
  | ⟨.execute ..,_⟩ => true
  | _ => false

theorem visits_ledgerOf (events : List GraphEvent) :
    (ledgerOf config events).visits = events.countP isPlannerVisit := by
  have hfold (l : Ledger) : (events.foldl (Ledger.note config) l).visits =
      l.visits + events.countP isPlannerVisit := by
    induction events generalizing l with
    | nil => rfl
    | cons event events ih =>
      rw [List.foldl_cons,ih,note_visits,List.countP_cons]
      omega
  exact (hfold {}).trans (Nat.zero_add _)

variable {config request}

theorem visits_of_settled {l : Ledger} {outcome : Except GraphError OrchestratorState}
    (h : settled config (Delivered config) l outcome) : l.visits ≤ config.rounds := by
  cases outcome with
  | ok final => exact h.visits
  | error e => exact h.2

/-- An orderly run ends with the state delivered. -/
theorem delivered_of_settled {l : Ledger} {outcome : Except GraphError OrchestratorState}
    (h : settled config (Delivered config) l outcome) (horderly : l.orderly = true) :
    ∃ final, outcome = .ok final ∧ Delivered config l final := by
  cases outcome with
  | ok final => exact ⟨final,rfl,h⟩
  | error e =>
    have hdisorder : l.orderly = false := h.1
    rw [horderly] at hdisorder
    cases hdisorder

/-- A tool is called only in a round whose plan has passed, and never after a block. -/
theorem passed_of_tool (request : Request) {before : List GraphEvent} {event : GraphEvent}
    (h : (watch config request.userInput).allowed (ledgerOf config before) event.1)
    (htool : isToolCall event = true) :
    (ledgerOf config before).verdict = some true ∧ (ledgerOf config before).blocked = false := by
  obtain ⟨o,r⟩ := event
  cases o with
  | execute => exact ⟨h.2,h.1⟩
  | ainvoke agent messages => cases htool
  | getLangchainTools => cases htool
  | bindTools lcTools => cases htool

/-- Whatever the models and tools answer, planning is limited, the safety model reviews the
plan of the round, tools wait for its verdict, and the last verdict decides the response. -/
theorem run_of_agent_graph (config : GraphConfig) (request : Request) {steps : Nat}
    (hsteps : 4 * config.rounds < steps) (strategy : Strategy Op Op.Reply GraphError)
    (outcome : Except GraphError OrchestratorState) (events : List GraphEvent)
    (hplay : play strategy (ainvoke config steps request.initial) = (outcome,events)) :
    events.countP isPlannerVisit ≤ max 1 config.maxAgentIterations.toNat ∧
    (∀ before messages r rest, events = before ++ ⟨.ainvoke .safety messages,r⟩ :: rest →
      messages = safetyMessages request.userInput (ledgerOf config before).plan) ∧
    (∀ before event rest, events = before ++ event :: rest → isToolCall event = true →
      (ledgerOf config before).verdict = some true ∧ (ledgerOf config before).blocked = false) ∧
    (events.all (usable config) = true → ∃ final, outcome = .ok final ∧
      (ledgerOf config events).verdict.isSome = true ∧
      final.finalResponse =
        if (ledgerOf config events).verdict = some false then refusal else (ledgerOf config events).draft) := by
  obtain ⟨hobeyed,hsettled⟩ := wp_play strategy (fun _ _ => trivial) (ainvoke_spec request hsteps)
  rw [hplay] at hobeyed hsettled
  refine ⟨?_,?_,?_,?_⟩
  · rw [← visits_ledgerOf config]
    exact visits_of_settled hsettled
  · intro before messages r rest heq
    exact (hobeyed before _ rest heq).2.2
  · intro before event rest heq htool
    exact passed_of_tool request (hobeyed before event rest heq) htool
  · intro husable
    rw [← orderly_ledgerOf] at husable
    obtain ⟨final,hfinal,hdelivered⟩ := delivered_of_settled hsettled husable
    exact ⟨final,hfinal,hdelivered.judged,hdelivered.response⟩

/-- Every model answers with the text of the refusal, which is no JSON: all reviews pass. -/
def echoRefusal : Strategy Op Op.Reply GraphError
  | _,.ainvoke .. => .ok { content := .str refusal }
  | _,.execute toolName .. => .ok { toolName, output := "" }
  | _,.getLangchainTools => .ok ["ticket_lookup"]
  | _,.bindTools _ => .ok ()

def ticketLookup : ToolDefinition where
  name := "ticket_lookup"
  description := "Look up an existing support ticket by ticket ID or customer email. " ++
    "Use when the caller references a prior case or asks about ticket status."
  requiredScopes := ["sessions:read"]

/-- The tools are switched off: nothing is bound, and the router still executes what is called. -/
def twoRounds : GraphConfig where
  maxAgentIterations := 2
  maxToolIterations := 5
  toolsEnabled := false
  toolRouter := some [ticketLookup]
  recursionLimit := 1000
  render _ := ""
  parseUuid := id

def greeting : Request where
  messages := [⟨.user,"hello"⟩]
  userInput := "hello"
  sessionId := none
  orgId := none
  callerScopes := ["sessions:read"]

/-- The executor looks up a ticket and the time before it answers; nobody objects. -/
def ticketAnswered : Strategy Op Op.Reply GraphError
  | past,.ainvoke .executor _ => .ok {
      content := .str "Your ticket is open."
      toolCalls := if past.any isToolCall then [] else
        [{ name := "ticket_lookup", args := some "\x7b\"ticket_id\": \"TKT-1001\"\x7d", id := "1" },
          { name := "get_current_time", id := "2" }] }
  | _,.ainvoke .. => .ok { content := .str "Fine." }
  | _,.execute toolName .. => .ok { toolName, output := "open" }
  | _,.getLangchainTools => .ok ["ticket_lookup","get_current_time"]
  | _,.bindTools _ => .ok ()

theorem run_of_agent_graph_ticket :
    let run := play ticketAnswered (ainvoke twoRounds 9 greeting.initial)
    run.2.countP isPlannerVisit ≤ 2 ∧ run.2.countP isToolCall = 2 ∧
      ∃ final, run.1 = .ok final ∧ final.finalResponse = "Your ticket is open." := by
  intro run
  obtain ⟨hvisits,-,-,hresponse⟩ :=
    run_of_agent_graph twoRounds greeting (by decide) ticketAnswered run.1 run.2 rfl
  obtain ⟨husable,hverdict,hdraft,hcalls⟩ : run.2.all (usable twoRounds) = true ∧
      (ledgerOf twoRounds run.2).verdict = some true ∧ (ledgerOf twoRounds run.2).draft = "Your ticket is open." ∧
      run.2.countP isToolCall = 2 := by
    decide +kernel
  obtain ⟨final,hfinal,-,hreply⟩ := hresponse husable
  rw [hverdict,hdraft] at hreply
  exact ⟨hvisits,hcalls,final,hfinal,hreply⟩

/-- The refusal's text can also be a draft that nothing has blocked. -/
theorem refusal_without_block :
    ¬∀ (config : GraphConfig) (request : Request) (steps : Nat) (strategy : Strategy Op Op.Reply GraphError)
      (outcome : Except GraphError OrchestratorState) (events : List GraphEvent),
      4 * config.rounds < steps →
      play strategy (ainvoke config steps request.initial) = (outcome,events) →
      events.all (usable config) = true →
      ∃ final, outcome = .ok final ∧
        (final.finalResponse = refusal ↔ (ledgerOf config events).verdict = some false) := by
  intro h
  let run := play echoRefusal (ainvoke twoRounds 9 greeting.initial)
  obtain ⟨husable,hresponse,hpassed⟩ : run.2.all (usable twoRounds) = true ∧
      run.1.toOption.map (·.finalResponse) = some refusal ∧ (ledgerOf twoRounds run.2).verdict = some true := by
    decide +kernel
  obtain ⟨final,hfinal,hiff⟩ := h twoRounds greeting 9 echoRefusal run.1 run.2 (by decide) rfl husable
  rw [hfinal] at hresponse
  rw [hpassed] at hiff
  cases hiff.mp (Option.some.inj hresponse)

end runs
end VoxForge.Agents
