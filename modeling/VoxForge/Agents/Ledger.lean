import Mathlib.Tactic.Common
import VoxForge.Agents.Graph
import VoxForge.Foundation.Strategies

/-! An observer of the agent graph keeps a ledger of the awaited answers. What each node
awaits, and what it adds to the ledger and to the state. -/
namespace VoxForge.Agents
open Foundation Prog Core Tools

/-- What the answers so far have said. The verdict is the one on the current plan, the
draft the executor's last answer since that plan. -/
structure Ledger where
  visits : Nat := 0
  plan : String := ""
  verdict : Option Bool := none
  blocked : Bool := false
  draft : String := ""
  calls : List (String × ToolResult) := []
  reviews : List (Bool × String) := []
  orderly : Bool := true

abbrev GraphEvent := Event Op Op.Reply GraphError

/-- The fixed refusal is given after a block, and otherwise what the executor drafted. -/
def Ledger.reply (l : Ledger) : String := if l.verdict = some false then refusal else l.draft

section watch
variable (config : GraphConfig)

def isObject : Except GraphError Json → Bool
  | .ok (.obj _) => true
  | _ => false

/-- An answer the nodes can use: no exception, an object where one is parsed, and tool
calls only where there is a router. -/
def usable : GraphEvent → Bool
  | ⟨.ainvoke .safety _,.ok response⟩ => isObject (parseJson config (contentOf config response))
  | ⟨.ainvoke .critic _,.ok response⟩ => isObject (parseJson config (contentOf config response))
  | ⟨.ainvoke .executor _,.ok response⟩ => response.toolCalls = [] || config.toolRouter.isSome
  | ⟨_,.ok _⟩ => true
  | ⟨_,.error _⟩ => false

/-- The verdict of an answer to the safety model. -/
def passedOf (response : AIMessage) : Bool :=
  match reviewOf config "passed" "reason" response with
  | .ok (passed,_) => passed
  | .error _ => false

/-- The verdict and feedback of an answer to the critic. -/
def feedbackOf (response : AIMessage) : Bool × String :=
  match reviewOf config "approved" "feedback" response with
  | .ok review => review
  | .error _ => (false,"")

/-- One event read by the observer. -/
def Ledger.note (l : Ledger) (event : GraphEvent) : Ledger :=
  let l := { l with orderly := l.orderly && usable config event }
  match event with
  | ⟨.ainvoke .planner _,.ok response⟩ =>
    { l with visits := l.visits + 1, plan := contentOf config response, verdict := none, draft := "" }
  | ⟨.ainvoke .planner _,.error _⟩ => { l with visits := l.visits + 1, verdict := none, draft := "" }
  | ⟨.ainvoke .safety _,.ok response⟩ =>
    let passed := passedOf config response
    { l with verdict := some passed, blocked := l.blocked || !passed }
  | ⟨.ainvoke .executor _,.ok response⟩ => { l with draft := contentOf config response }
  | ⟨.ainvoke .critic _,.ok response⟩ => { l with reviews := l.reviews ++ [feedbackOf config response] }
  | ⟨.execute toolName .., .ok result⟩ => { l with calls := l.calls ++ [(toolName,result)] }
  | _ => l

def ledgerOf (events : List GraphEvent) : Ledger := events.foldl (Ledger.note config) {}

/-- `max(1, max_agent_iterations)`. -/
def GraphConfig.rounds : Nat := max 1 config.maxAgentIterations.toNat

/-- Nothing is awaited after a block; a plan is reviewed as it stands, the executor and its
tools go on only after the plan has passed, and plans are made for a limited number of rounds. -/
def watch (userInput : String) : Discipline Op Op.Reply GraphError Ledger where
  allowed l
    | .ainvoke .planner _ => l.blocked = false ∧ l.visits < config.rounds
    | .ainvoke .safety messages =>
      l.blocked = false ∧ l.verdict = none ∧ messages = safetyMessages userInput l.plan
    | .ainvoke .executor _ | .execute .. | .getLangchainTools | .bindTools _ =>
      l.blocked = false ∧ l.verdict = some true
    | .ainvoke _ _ => l.blocked = false
  possible _ _ := True
  after l o r := l.note config ⟨o,r⟩

def isPlannerVisit : GraphEvent → Bool
  | ⟨.ainvoke .planner _,_⟩ => true
  | _ => false

theorem note_orderly (l : Ledger) (event : GraphEvent) :
    (l.note config event).orderly = (l.orderly && usable config event) := by
  unfold Ledger.note
  split <;> rfl

theorem note_visits (l : Ledger) (event : GraphEvent) :
    (l.note config event).visits = l.visits + if isPlannerVisit event then 1 else 0 := by
  rcases event with ⟨⟨_ | _ | _ | _ | _,_⟩ | _ | _ | _,_ | _⟩ <;> rfl

/-- The observer's account is orderly as long as every answer is usable. -/
theorem orderly_ledgerOf (events : List GraphEvent) :
    (ledgerOf config events).orderly = events.all (usable config) := by
  have hfold (l : Ledger) : (events.foldl (Ledger.note config) l).orderly =
      (l.orderly && events.all (usable config)) := by
    induction events generalizing l with
    | nil => simp
    | cons event events ih => rw [List.foldl_cons,ih,note_orderly,List.all_cons,Bool.and_assoc]
  exact (hfold {}).trans (Bool.true_and _)

/-- A review is read exactly from an object. -/
theorem isObject_eq_isOk (verdictKey textKey : String) (response : AIMessage) :
    isObject (parseJson config (contentOf config response)) =
      (reviewOf config verdictKey textKey response).isOk := by
  unfold reviewOf
  cases parseJson config (contentOf config response) with
  | error e => rfl
  | ok parsed => cases parsed <;> rfl

end watch

/-! What each event adds to the ledger -/

section note
variable {config : GraphConfig} {l : Ledger} {response : AIMessage} {messages : List BaseMessage}

theorem note_error_orderly {o : Op} {e : GraphError} : (l.note config ⟨o,.error e⟩).orderly = false := by
  have husable : usable config ⟨o,.error e⟩ = false := by
    rcases o with ⟨_ | _ | _ | _ | _,_⟩ | _ | _ | _ <;> rfl
  rw [note_orderly,husable,Bool.and_false]

/-- A usable answer leaves the account as orderly as it was. -/
theorem note_of_usable {event : GraphEvent} {m : Ledger} (husable : usable config event = true)
    (hnote : l.note config event = { m with orderly := l.orderly && usable config event })
    (horderly : m.orderly = l.orderly) : l.note config event = m := by
  rw [hnote,husable,Bool.and_true,← horderly]

@[simp] theorem note_planner : l.note config ⟨.ainvoke .planner messages,.ok response⟩ =
    { l with visits := l.visits + 1, plan := contentOf config response, verdict := none, draft := "" } :=
  note_of_usable rfl rfl rfl

theorem note_safety {passed : Bool} {reason : String}
    (h : reviewOf config "passed" "reason" response = .ok (passed,reason)) :
    l.note config ⟨.ainvoke .safety messages,.ok response⟩ =
      { l with verdict := some passed, blocked := l.blocked || !passed } := by
  have husable := isObject_eq_isOk config "passed" "reason" response
  have hpassed : passedOf config response = passed := by rw [passedOf,h]
  rw [h] at husable
  rw [← hpassed]
  exact note_of_usable husable rfl rfl

theorem note_critic {review : Bool × String} (h : reviewOf config "approved" "feedback" response = .ok review) :
    l.note config ⟨.ainvoke .critic messages,.ok response⟩ = { l with reviews := l.reviews ++ [review] } := by
  have husable := isObject_eq_isOk config "approved" "feedback" response
  have hreview : feedbackOf config response = review := by rw [feedbackOf,h]
  rw [h] at husable
  rw [← hreview]
  exact note_of_usable husable rfl rfl

theorem note_executor (h : response.toolCalls = [] ∨ config.toolRouter.isSome = true) :
    l.note config ⟨.ainvoke .executor messages,.ok response⟩ =
      { l with draft := contentOf config response } := by
  have husable : (decide (response.toolCalls = []) || config.toolRouter.isSome) = true := by simpa using h
  exact note_of_usable husable rfl rfl

@[simp] theorem note_execute {toolName : String} {args : Arguments} {orgId sessionId : Option String}
    {callerScopes : List Scope} {result : ToolResult} :
    l.note config ⟨.execute toolName args orgId sessionId callerScopes,.ok result⟩ =
      { l with calls := l.calls ++ [(toolName,result)] } :=
  note_of_usable rfl rfl rfl

@[simp] theorem note_getLangchainTools {lcTools : List String} :
    l.note config ⟨.getLangchainTools,.ok lcTools⟩ = l :=
  note_of_usable rfl rfl rfl

@[simp] theorem note_bindTools {lcTools : List String} :
    l.note config ⟨.bindTools lcTools,.ok ()⟩ = l :=
  note_of_usable rfl rfl rfl

end note

/-! What a run of the nodes leaves -/

section specs
variable {config : GraphConfig} {userInput : String} {l : Ledger} {s : OrchestratorState} {α β : Type}

/-- The program returns as asked, or an answer it could not use has ended it. -/
def settled (config : GraphConfig) (q : Ledger → α → Prop) : Ledger → Except GraphError α → Prop
  | l,.ok a => q l a
  | l,.error _ => l.orderly = false ∧ l.visits ≤ config.rounds

theorem settled_then {p : Steps α} {f : α → Steps β} {m : Ledger → α → Prop} {q : Ledger → β → Prop}
    (hp : wp (watch config userInput) l p (settled config m))
    (hf : ∀ l a, m l a → wp (watch config userInput) l (f a) (settled config q)) :
    wp (watch config userInput) l (p >>= f) (settled config q) := by
  rw [wp_bind]
  apply wp_mono hp
  intro l' r hr
  cases r with
  | ok a => exact hf l' a hr
  | error e => exact hr

theorem settled_mono {p : Steps α} {q q' : Ledger → α → Prop}
    (hp : wp (watch config userInput) l p (settled config q)) (hq : ∀ l a, q l a → q' l a) :
    wp (watch config userInput) l p (settled config q') := by
  apply wp_mono hp
  intro l' r hr
  cases r with
  | ok a => exact hq l' a hr
  | error e => exact hr

/-- One awaited answer; its exception ends the program. -/
theorem settled_await {o : Op} {f : o.Reply → Steps β} {q : Ledger → β → Prop}
    (hallowed : (watch config userInput).allowed l o)
    (hvisits : ∀ e, (l.note config ⟨o,.error e⟩).visits ≤ config.rounds)
    (hf : ∀ a, wp (watch config userInput) (l.note config ⟨o,.ok a⟩) (f a) (settled config q)) :
    wp (watch config userInput) l (perform o >>= f) (settled config q) :=
  wp_perform_then hallowed (fun e => ⟨note_error_orderly,hvisits e⟩) hf

theorem planner_spec (hblocked : l.blocked = false) (hvisits : l.visits < config.rounds) :
    wp (watch config userInput) l (planner config s) (settled config fun l' update => ∃ plan,
      l' = { l with visits := l.visits + 1, plan := plan, verdict := none, draft := "" } ∧
      update = { plan := some plan, agentTrace := [traceStep "planner" "completed" (clip 200 plan)] }) := by
  refine settled_await ⟨hblocked,hvisits⟩ (fun _ => hvisits) fun response => ?_
  exact ⟨contentOf config response,note_planner,rfl⟩

/-- The review of an answer is lifted where it can be read; otherwise it ends the node. -/
theorem lift_review {verdictKey textKey : String} {response : AIMessage} {q : Ledger → Bool × String → Prop}
    (hvisits : l.visits ≤ config.rounds)
    (hunread : isObject (parseJson config (contentOf config response)) = false → l.orderly = false)
    (hread : ∀ review, reviewOf config verdictKey textKey response = .ok review → q l review) :
    wp (watch config userInput) l (lift (reviewOf config verdictKey textKey response)) (settled config q) := by
  have hobject := isObject_eq_isOk config verdictKey textKey response
  cases hreview : reviewOf config verdictKey textKey response with
  | ok review => exact hread review hreview
  | error e =>
    rw [hreview] at hobject
    exact ⟨hunread hobject,hvisits⟩

theorem safety_spec (hblocked : l.blocked = false) (hverdict : l.verdict = none)
    (huser : s.userInput = userInput) (hplan : s.plan = l.plan) (hvisits : l.visits ≤ config.rounds) :
    wp (watch config userInput) l (safety config s) (settled config fun l' update => ∃ passed reason,
      l' = { l with verdict := some passed, blocked := !passed } ∧
      update = {
        safetyPassed := some passed
        safetyReason := some reason
        finalResponse := if passed then none else some refusal
        agentTrace := [traceStep "safety" (if passed then "completed" else "blocked")
          (if reason ≠ "" then reason else "passed")] }) := by
  refine settled_await ⟨hblocked,hverdict,by rw [huser,hplan]⟩ (fun _ => hvisits) fun response => ?_
  have hread : wp (watch config userInput)
      (l.note config ⟨.ainvoke .safety (safetyMessages s.userInput s.plan),.ok response⟩)
      (lift (reviewOf config "passed" "reason" response))
      (settled config fun l' review => l' = { l with verdict := some review.1, blocked := !review.1 }) := by
    apply lift_review
    · exact hvisits
    · intro hnot
      rw [note_orderly]
      exact (congrArg _ hnot).trans (Bool.and_false _)
    · intro review hreview
      rw [note_safety hreview,hblocked,Bool.false_or]
  refine settled_then hread fun l' review hl' => ?_
  exact ⟨review.1,review.2,hl',rfl⟩

theorem critic_spec (hblocked : l.blocked = false) (hvisits : l.visits ≤ config.rounds) :
    wp (watch config userInput) l (critic config s) (settled config fun l' update => ∃ approved feedback,
      l' = { l with reviews := l.reviews ++ [(approved,feedback)] } ∧
      update = {
        criticApproved := some approved
        criticFeedback := some feedback
        iteration := some (s.iteration + if approved then 0 else 1)
        agentTrace := [criticStep approved feedback] }) := by
  refine settled_await hblocked (fun _ => hvisits) fun response => ?_
  refine settled_then (m := fun l' review => l' = { l with reviews := l.reviews ++ [review] }) ?_
    fun l' review hl' => ⟨review.1,review.2,hl',rfl⟩
  apply lift_review
  · exact hvisits
  · intro hnot
    rw [note_orderly]
    exact (congrArg _ hnot).trans (Bool.and_false _)
  · intro review hreview
    exact note_critic hreview

/-- The trace entries of executed tools. -/
def toolSteps (calls : List (String × ToolResult)) : List Json :=
  calls.map fun (toolName,result) => toolStep toolName result

/-- The executor's loop adds calls to the ledger and their entries to the trace. -/
def Extends (l l' : Ledger) (draft : String) (progress progress' : Progress) : Prop :=
  ∃ calls, l' = { l with draft := draft, calls := l.calls ++ calls } ∧
    progress'.toolTrace = progress.toolTrace ++ toolSteps calls

theorem Extends.trans {l l' l'' : Ledger} {draft draft' : String} {p p' p'' : Progress}
    (h : Extends l l' draft p p') (h' : Extends l' l'' draft' p' p'') : Extends l l'' draft' p p'' := by
  obtain ⟨calls,rfl,htrace⟩ := h
  obtain ⟨calls',rfl,htrace'⟩ := h'
  refine ⟨calls ++ calls',?_,?_⟩
  · simp
  · rw [htrace',htrace]
    simp [toolSteps]

theorem callTools_spec (calls : List ToolCall) {progress : Progress} (hrouter : config.toolRouter.isSome = true)
    (hblocked : l.blocked = false) (hverdict : l.verdict = some true) (hvisits : l.visits ≤ config.rounds) :
    wp (watch config userInput) l (callTools config s calls progress)
      (settled config fun l' progress' => Extends l l' l.draft progress progress') := by
  induction calls generalizing l progress with
  | nil => exact ⟨[],by simp,by simp [toolSteps]⟩
  | cons call calls ih =>
    have hcall : wp (watch config userInput) l (callTool config s call progress)
        (settled config fun l' progress' => Extends l l' l.draft progress progress') := by
      obtain ⟨tools,htools⟩ := Option.isSome_iff_exists.mp hrouter
      unfold callTool
      rw [htools]
      refine settled_await ⟨hblocked,hverdict⟩ (fun _ => hvisits) fun result => ?_
      exact ⟨[(call.name,result)],note_execute,rfl⟩
    refine settled_then hcall fun l' progress' hfirst => ?_
    obtain ⟨_,rfl,_⟩ := id hfirst
    exact settled_mono (ih hblocked hverdict hvisits) fun _ _ hrest => hfirst.trans hrest

/-- Without a router the first tool call of an answer raises. -/
theorem callTools_unrouted {calls : List ToolCall} {progress : Progress} {q : Ledger → Progress → Prop}
    (hrouter : config.toolRouter.isSome = false) (hcalls : calls ≠ []) (horderly : l.orderly = false)
    (hvisits : l.visits ≤ config.rounds) :
    wp (watch config userInput) l (callTools config s calls progress) (settled config q) := by
  have hnone : config.toolRouter = none := by simpa using hrouter
  cases calls with
  | nil => exact absurd rfl hcalls
  | cons call calls =>
    refine settled_then (m := fun _ _ => False) ?_ fun _ _ h => h.elim
    unfold callTool
    rw [hnone]
    exact ⟨horderly,hvisits⟩

theorem converse_spec (n : Nat) {r : Option AIMessage} {progress : Progress}
    (hblocked : l.blocked = false) (hverdict : l.verdict = some true) (hvisits : l.visits ≤ config.rounds)
    (hdraft : (r.map (contentOf config)).getD "" = l.draft) :
    wp (watch config userInput) l (converse config s n r progress)
      (settled config fun l' result => Extends l l' result.1 progress result.2) := by
  induction n generalizing l r progress with
  | zero =>
    refine ⟨[],?_,by simp [toolSteps]⟩
    dsimp only
    rw [hdraft,List.append_nil]
  | succ n ih =>
    refine settled_await ⟨hblocked,hverdict⟩ (fun _ => hvisits) fun response => ?_
    by_cases hcalls : response.toolCalls = []
    · rw [if_pos hcalls,note_executor (.inl hcalls)]
      exact ⟨[],by simp,by simp [toolSteps]⟩
    · rw [if_neg hcalls]
      cases hrouter : config.toolRouter.isSome with
      | false =>
        refine settled_then (callTools_unrouted (q := fun _ _ => False) hrouter hcalls ?_ hvisits) fun _ _ h => h.elim
        rw [note_orderly]
        simp [usable,hcalls,hrouter]
      | true =>
        rw [note_executor (.inr hrouter)]
        refine settled_then (callTools_spec response.toolCalls hrouter hblocked hverdict hvisits)
          fun l' progress' hcalled => ?_
        have hanswer : Extends l { l with draft := contentOf config response } (contentOf config response)
            progress { progress with lcMessages := progress.lcMessages ++ [.response response] } :=
          ⟨[],by simp,by simp [toolSteps]⟩
        obtain ⟨calls,rfl,_⟩ := id hcalled
        refine settled_mono (ih (r := some response) hblocked hverdict hvisits rfl) fun _ _ hrest => ?_
        exact (hanswer.trans hcalled).trans hrest

/-- The tools are bound, or the binding has ended the node. -/
theorem bindLlm_spec (hblocked : l.blocked = false) (hverdict : l.verdict = some true)
    (hvisits : l.visits ≤ config.rounds) :
    wp (watch config userInput) l (bindLlm config) (settled config fun l' _ => l' = l) := by
  unfold bindLlm
  split
  · refine settled_await ⟨hblocked,hverdict⟩ (fun _ => hvisits) fun lcTools => ?_
    rw [note_getLangchainTools]
    split
    · exact rfl
    · refine (wp_perform _ _).mpr ⟨⟨hblocked,hverdict⟩,fun r _ => ?_⟩
      cases r with
      | error e => exact ⟨note_error_orderly,hvisits⟩
      | ok _ => exact note_bindTools
  · exact rfl

theorem executor_spec (hblocked : l.blocked = false) (hverdict : l.verdict = some true)
    (hvisits : l.visits ≤ config.rounds) (hdraft : l.draft = "") :
    wp (watch config userInput) l (executor config s) (settled config fun l' update => ∃ draft calls recorded,
      l' = { l with draft := draft, calls := l.calls ++ calls } ∧
      update = {
        draftResponse := some draft
        agentTrace := traceStep "executor" "completed" (clip 200 draft) :: toolSteps calls
        toolCalls := recorded }) := by
  refine settled_then (bindLlm_spec hblocked hverdict hvisits) ?_
  rintro _ - rfl
  refine settled_then (converse_spec _ hblocked hverdict hvisits hdraft.symm) fun l' result hresult => ?_
  obtain ⟨calls,hl',htrace⟩ := hresult
  refine ⟨result.1,calls,result.2.recordedCalls,hl',?_⟩
  rw [← List.nil_append (toolSteps calls),← htrace]

end specs

end VoxForge.Agents
