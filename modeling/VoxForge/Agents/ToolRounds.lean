import VoxForge.Agents.Graph
import VoxForge.Foundation.Strategies

/-! The rounds of tools that the executor runs, and which answer of its model it drafts from. -/
namespace VoxForge.Agents
open Foundation Prog Core Tools

/-- What the executor has been answered. -/
structure Rounds where
  /-- The messages of the last call of the model. -/
  asked : List BaseMessage := []
  answers : List AIMessage := []
  /-- The outputs of the tools. -/
  outputs : List String := []
  /-- How often tools were run after a call of the model. -/
  rounds : Nat := 0
  /-- No tool has been run since the last call of the model. -/
  fresh : Bool := true

def Rounds.after (c : Rounds) : (o : Op) → Except GraphError o.Reply → Rounds
  | .ainvoke _ messages,.ok (response : AIMessage) =>
    { c with asked := messages, answers := c.answers ++ [response], fresh := true }
  | .ainvoke _ messages,.error _ => { c with asked := messages, fresh := true }
  | .execute ..,r =>
    { c with
      rounds := c.rounds + if c.fresh then 1 else 0
      fresh := false
      outputs := c.outputs ++ match r with
        | .ok (result : ToolResult) => [outputOf result]
        | .error _ => [] }
  | .getLangchainTools,_ | .bindTools _,_ => c

def toolRounds : Discipline Op Op.Reply GraphError Rounds where
  allowed _ _ := True
  possible _ _ := True
  after := Rounds.after

/-- The results of tools among messages, with the calls they answer. -/
def toolMessages (messages : List BaseMessage) : List (String × String) :=
  messages.filterMap fun
    | .tool content toolCallId => some (content,toolCallId)
    | _ => none

/-- The draft is the last answer, which calls no tool, and the model gave it on the results of
all the tools that were run, each under its call. -/
structure Answered (config : GraphConfig) (c : Rounds) (draft : String) : Prop where
  last : ∃ response, c.answers.getLast? = some response ∧ response.toolCalls = [] ∧ draft = contentOf config response
  since : c.fresh = true
  outputs : (toolMessages c.asked).map Prod.fst = c.outputs
  calls : (toolMessages c.asked).map Prod.snd = (c.answers.flatMap (·.toolCalls)).map (·.id)

/-- The rounds of tools stay within the limit, and a draft answers them. -/
def WithinRounds (config : GraphConfig) (limit : Nat) (c : Rounds) (result : Except GraphError Update) : Prop :=
  c.rounds ≤ limit ∧ ∀ update, result = .ok update → ∃ draft, update.draftResponse = some draft ∧ Answered config c draft

@[simp] theorem toolMessages_append (l m : List BaseMessage) :
    toolMessages (l ++ m) = toolMessages l ++ toolMessages m := List.filterMap_append ..

theorem toolMessages_history (messages : List Message) (prompt : String) :
    toolMessages (toLcMessages messages ++ [.human prompt]) = [] := by
  rw [toolMessages_append,List.append_eq_nil_iff]
  refine ⟨List.filterMap_eq_nil_iff.mpr fun message hmem => ?_,rfl⟩
  obtain ⟨m,-,rfl⟩ := List.mem_map.mp hmem
  cases m.role <;> rfl

section run
variable {config : GraphConfig} {s : OrchestratorState} {c : Rounds} {progress : Progress}

/-- What the tool calls of an answer leave. -/
structure Ran (c : Rounds) (calls : List ToolCall) (progress : Progress) (c' : Rounds) (progress' : Progress) : Prop where
  answers : c'.answers = c.answers
  rounds : c'.rounds = c.rounds + if c.fresh = true ∧ calls ≠ [] then 1 else 0
  messages : ∃ outputs, c'.outputs = c.outputs ++ outputs ∧ outputs.length = calls.length ∧
    toolMessages progress'.lcMessages = toolMessages progress.lcMessages ++ outputs.zip (calls.map (·.id))

/-- The calls of an answer run, or a tool has raised. -/
def RanOrRaised (c : Rounds) (calls : List ToolCall) (progress : Progress) (c' : Rounds) :
    Except GraphError Progress → Prop
  | .ok progress' => Ran c calls progress c' progress'
  | .error _ => c'.answers = c.answers ∧ c'.rounds = c.rounds + if c.fresh = true then 1 else 0

theorem callTool_ran (call : ToolCall) (hrouter : config.toolRouter.isSome = true) :
    wp toolRounds c (callTool config s call progress) fun c' r =>
      c'.fresh = false ∧ RanOrRaised c [call] progress c' r := by
  obtain ⟨tools,htools⟩ := Option.isSome_iff_exists.mp hrouter
  unfold callTool
  rw [htools]
  refine wp_perform_then trivial (fun e => ⟨rfl,rfl,rfl⟩) fun result => ?_
  exact ⟨rfl,rfl,by simp [toolRounds,Rounds.after],[outputOf result],rfl,rfl,by simp [toolMessages]⟩

theorem callTools_ran (calls : List ToolCall) (hrouter : config.toolRouter.isSome = true) :
    wp toolRounds c (callTools config s calls progress) (RanOrRaised c calls progress) := by
  induction calls generalizing c progress with
  | nil => exact ⟨rfl,by simp,[],by simp⟩
  | cons call calls ih =>
    refine (wp_bind _ _ _).mpr (wp_mono (callTool_ran call hrouter) fun c₁ r hfirst => ?_)
    obtain ⟨hfresh,hfirst⟩ := hfirst
    cases r with
    | error e => exact hfirst
    | ok progress₁ =>
      obtain ⟨outputs₁,houtputs₁,hlength₁,hmessages₁⟩ := hfirst.messages
      have hrounds₁ := hfirst.rounds
      refine wp_mono ih fun c₂ r hrest => ?_
      cases r with
      | error e =>
        obtain ⟨hanswers,hrounds⟩ := hrest
        refine ⟨hanswers.trans hfirst.answers,?_⟩
        simpa [hfresh,hrounds₁] using hrounds
      | ok progress₂ =>
        obtain ⟨outputs₂,houtputs₂,hlength₂,hmessages₂⟩ := hrest.messages
        refine ⟨hrest.answers.trans hfirst.answers,?_,outputs₁ ++ outputs₂,?_,?_,?_⟩
        · simpa [hfresh,hrounds₁] using hrest.rounds
        · rw [houtputs₂,houtputs₁,List.append_assoc]
        · simp [hlength₁,hlength₂,Nat.add_comm]
        · have hzip : (outputs₁ ++ outputs₂).zip ([call.id] ++ calls.map (·.id)) =
              outputs₁.zip [call.id] ++ outputs₂.zip (calls.map (·.id)) := List.zip_append hlength₁
          rw [hmessages₂,hmessages₁,List.append_assoc]
          exact congrArg _ hzip.symm

/-- Before a call of the model: every answer so far has run a round of tools, whose results are
among the messages. -/
structure Looping (k : Nat) (c : Rounds) (messages : List BaseMessage) : Prop where
  answers : c.answers.length = k
  calling : ∀ response ∈ c.answers, response.toolCalls ≠ []
  rounds : c.rounds = k
  outputs : (toolMessages messages).map Prod.fst = c.outputs
  calls : (toolMessages messages).map Prod.snd = (c.answers.flatMap (·.toolCalls)).map (·.id)

/-- The answer after the last round that is allowed calls tools. -/
def Exhausts (limit : Nat) (c : Rounds) : Prop := ∃ response, c.answers[limit]? = some response ∧ response.toolCalls ≠ []

/-- What the loop leaves. -/
def Conversed (config : GraphConfig) (limit : Nat) (c : Rounds) (r : Except GraphError (String × Progress)) : Prop :=
  (Exhausts limit c ∧ limit < c.rounds) ∨
    (¬Exhausts limit c ∧ c.rounds ≤ limit ∧ ∀ draft progress, r = .ok (draft,progress) → Answered config c draft)

/-- An answer that the model gives after fewer rounds than allowed, or just as many. -/
theorem exhausts_answer {limit : Nat} {answers : List AIMessage} {response : AIMessage} (hshort : answers.length ≤ limit) :
    (∃ r, (answers ++ [response])[limit]? = some r ∧ r.toolCalls ≠ []) ↔
      answers.length = limit ∧ response.toolCalls ≠ [] := by
  rw [List.getElem?_append_right hshort]
  rcases Nat.eq_or_lt_of_le hshort with heq | hlt
  · simp [heq]
  · obtain ⟨d,hd⟩ : ∃ d, limit - answers.length = d + 1 := ⟨limit - answers.length - 1,by omega⟩
    rw [hd]
    simp [hlt.ne]

theorem converse_conversed {limit k n : Nat} (response : Option AIMessage) (hn : k + n = limit + 1)
    (hrouter : config.toolRouter.isSome = true) (h : Looping k c progress.lcMessages) :
    wp toolRounds c (converse config s n response progress) (Conversed config limit) := by
  induction n generalizing k c response progress with
  | zero =>
    have hlast : limit < c.answers.length := by have := h.answers; omega
    refine .inl ⟨⟨c.answers[limit],List.getElem?_eq_getElem hlast,h.calling _ (List.getElem_mem hlast)⟩,?_⟩
    have := h.rounds
    omega
  | succ n ih =>
    obtain ⟨hlength,hrounds⟩ : c.answers.length = k ∧ c.rounds = k := ⟨h.answers,h.rounds⟩
    have hwithin : c.rounds ≤ limit := by omega
    refine wp_perform_then trivial (fun e => .inr ⟨?_,hwithin,nofun⟩) fun response => ?_
    · rintro ⟨response,hresponse,-⟩
      have hnone : c.answers[limit]? = none := List.getElem?_eq_none (by omega)
      cases hnone.symm.trans hresponse
    have hexhausts : Exhausts limit (toolRounds.after c (.ainvoke .executor progress.lcMessages) (.ok response)) ↔
        c.answers.length = limit ∧ response.toolCalls ≠ [] := exhausts_answer (by omega)
    by_cases hcalls : response.toolCalls = []
    · -- the draft
      rw [if_pos hcalls]
      refine .inr ⟨fun hex => (hexhausts.mp hex).2 hcalls,hwithin,?_⟩
      rintro _ _ ⟨⟩
      refine ⟨⟨response,by simp [toolRounds,Rounds.after],hcalls,rfl⟩,rfl,h.outputs,?_⟩
      simpa [toolRounds,Rounds.after,hcalls] using h.calls
    rw [if_neg hcalls]
    refine (wp_bind _ _ _).mpr (wp_mono (callTools_ran response.toolCalls hrouter) fun c' r hran => ?_)
    have hexhausts' (hanswers : c'.answers = c.answers ++ [response]) : Exhausts limit c' ↔ c.answers.length = limit := by
      unfold Exhausts
      rw [hanswers]
      exact hexhausts.trans (and_iff_left hcalls)
    cases r with
    | error e =>
      obtain ⟨hanswers,hran⟩ := hran
      have hrounds' : c'.rounds = c.rounds + 1 := hran
      by_cases heq : c.answers.length = limit
      · exact .inl ⟨(hexhausts' hanswers).mpr heq,by omega⟩
      · exact .inr ⟨mt (hexhausts' hanswers).mp heq,by omega,nofun⟩
    | ok progress' =>
      obtain ⟨outputs,houtputs,houtlength,hmessages⟩ := hran.messages
      have hrounds' : c'.rounds = c.rounds + 1 := by simpa [toolRounds,Rounds.after,hcalls] using hran.rounds
      have hanswers : c'.answers = c.answers ++ [response] := hran.answers
      refine ih (k := k + 1) (some response) (by omega) ⟨by simp [hanswers,hlength],?_,by omega,?_,?_⟩
      · intro r hr
        rw [hanswers] at hr
        rcases List.mem_append.mp hr with hold | hnew
        · exact h.calling r hold
        · rw [List.mem_singleton.mp hnew]
          exact hcalls
      · have hnew : (outputs.zip (response.toolCalls.map (·.id))).map Prod.fst = outputs :=
          List.map_fst_zip (by simp [houtlength])
        rw [hmessages,houtputs,toolMessages_append,List.map_append,List.map_append,h.outputs,hnew]
        exact congrArg (· ++ outputs) (List.append_nil _)
      · have hnew : (outputs.zip (response.toolCalls.map (·.id))).map Prod.snd = response.toolCalls.map (·.id) :=
          List.map_snd_zip (by simp [houtlength])
        rw [hmessages,hanswers,toolMessages_append,List.map_append,List.map_append,h.calls,hnew,List.flatMap_append,
          List.map_append,List.flatMap_singleton]
        exact congrArg (· ++ response.toolCalls.map (·.id)) (List.append_nil _)

/-- Without a router the first answer that calls tools raises. -/
theorem converse_unrouted {n : Nat} (response : Option AIMessage) (hrouter : config.toolRouter = none)
    (h : Looping 0 c progress.lcMessages) :
    wp toolRounds c (converse config s (n + 1) response progress) fun c' r =>
      c'.rounds = 0 ∧ ∀ draft progress, r = .ok (draft,progress) → Answered config c' draft := by
  refine wp_perform_then trivial (fun e => ⟨h.rounds,nofun⟩) fun response => ?_
  by_cases hcalls : response.toolCalls = []
  · rw [if_pos hcalls]
    refine ⟨h.rounds,?_⟩
    rintro _ _ ⟨⟩
    refine ⟨⟨response,by simp [toolRounds,Rounds.after],hcalls,rfl⟩,rfl,h.outputs,?_⟩
    simpa [toolRounds,Rounds.after,hcalls] using h.calls
  · rw [if_neg hcalls]
    obtain ⟨call,calls,heq⟩ := List.exists_cons_of_ne_nil hcalls
    rw [heq]
    unfold callTools callTool
    rw [hrouter]
    exact ⟨h.rounds,nofun⟩

/-- Binding the tools runs none of them. -/
theorem bindLlm_kept : wp toolRounds c (bindLlm config) fun c' _ => c' = c := by
  unfold bindLlm
  split
  · refine wp_perform_then trivial (fun _ => rfl) fun lcTools => ?_
    split
    · exact rfl
    · exact (wp_perform _ _).mpr ⟨trivial,fun _ _ => rfl⟩
  · exact rfl

end run

section executor
variable (config : GraphConfig) (limit : Nat) (s : OrchestratorState)

/-- The executor with a limit, and what it has been answered. -/
def executorRun (strategy : Strategy Op Op.Reply GraphError) : Except GraphError Update × Rounds :=
  let (result,events) := play strategy (executor { config with maxToolIterations := limit } s)
  (result,toolRounds.follow {} events)

variable {config limit} in
theorem withinRounds_ok {c : Rounds} {update : Update} {draft : String} (hdraft : update.draftResponse = some draft) :
    WithinRounds config limit c (.ok update) ↔ c.rounds ≤ limit ∧ Answered config c draft := by
  refine and_congr_right fun _ => ⟨fun h => ?_,fun h => ?_⟩
  · obtain ⟨draft',hdraft',hanswered⟩ := h update rfl
    obtain rfl : draft = draft' := Option.some.inj (hdraft.symm.trans hdraft')
    exact hanswered
  · rintro _ ⟨⟩
    exact ⟨draft,hdraft,h⟩

variable {config limit} in
theorem withinRounds_error {c : Rounds} {e : GraphError} :
    WithinRounds config limit c (.error e) ↔ c.rounds ≤ limit := by
  refine and_iff_left fun update h => ?_
  cases h

theorem executor_within : wp toolRounds {} (executor { config with maxToolIterations := limit } s) fun c r =>
    WithinRounds config limit c r ↔ (config.toolRouter.isSome = true → ¬Exhausts limit c) := by
  have hlimit : ((limit : Int) + 1).toNat = limit + 1 := rfl
  unfold executor
  dsimp only
  rw [hlimit]
  have hstart (prompt : String) : Looping 0 {} (toLcMessages s.messages ++ [.human prompt]) :=
    ⟨rfl,nofun,rfl,by rw [toolMessages_history]; rfl,by rw [toolMessages_history]; rfl⟩
  refine (wp_bind _ _ _).mpr (wp_mono bindLlm_kept ?_)
  rintro _ (_ | _) rfl
  · -- without an answer there is no round
    refine iff_of_true (withinRounds_error.mpr (Nat.zero_le limit)) ?_
    rintro - ⟨response,hresponse,-⟩
    cases hresponse
  refine (wp_bind _ _ _).mpr ?_
  by_cases hrouter : config.toolRouter.isSome = true
  · refine wp_mono (converse_conversed none (Nat.zero_add _) hrouter (hstart _)) fun c r hconversed => ?_
    cases r with
    | error e =>
      refine withinRounds_error.trans ?_
      rcases hconversed with ⟨hex,hrounds⟩ | ⟨hex,hrounds,-⟩
      · exact iff_of_false (by omega) fun h => h hrouter hex
      · exact iff_of_true hrounds fun _ => hex
    | ok result =>
      refine (withinRounds_ok rfl).trans ?_
      rcases hconversed with ⟨hex,hrounds⟩ | ⟨hex,hrounds,hanswered⟩
      · exact iff_of_false (fun h => by have := h.1; omega) fun h => h hrouter hex
      · exact iff_of_true ⟨hrounds,{ hanswered _ _ rfl with }⟩ fun _ => hex
  · have hnone : config.toolRouter = none := by simpa using hrouter
    refine wp_mono (converse_unrouted none hnone (hstart _)) fun c r hunrouted => ?_
    obtain ⟨hrounds,hanswered⟩ := hunrouted
    cases r with
    | error e => exact iff_of_true (withinRounds_error.mpr (by omega)) fun h => absurd h hrouter
    | ok result =>
      exact iff_of_true ((withinRounds_ok rfl).mpr ⟨by omega,{ hanswered _ _ rfl with }⟩) fun h => absurd h hrouter

/-- The executor stays within its rounds of tools, and drafts from an answer to all their results,
exactly where the answer of its model that follows the last round, if it comes to that, calls no
tool. -/
theorem withinRounds_iff (strategy : Strategy Op Op.Reply GraphError) :
    WithinRounds config limit (executorRun config limit s strategy).2 (executorRun config limit s strategy).1 ↔
      (config.toolRouter.isSome = true → ¬Exhausts limit (executorRun config limit s strategy).2) :=
  (wp_play strategy (fun _ _ => trivial) (executor_within config limit s)).2

end executor

/-- A model that calls a tool in every answer. -/
def insistent : Strategy Op Op.Reply GraphError
  | _,.ainvoke .. => .ok { content := .str "One moment.", toolCalls := [{ name := "get_current_time", id := "1" }] }
  | _,.execute .. => .ok { toolName := "get_current_time", output := "2026-07-01 12:00:00 UTC" }
  | _,.getLangchainTools => .ok ["get_current_time"]
  | _,.bindTools _ => .ok ()

def routed : GraphConfig where
  maxAgentIterations := 1
  maxToolIterations := 1
  toolsEnabled := false
  toolRouter := some [{ name := "get_current_time", description := "Get the current UTC date and time." }]
  recursionLimit := 0
  render _ := ""
  parseUuid := id

/-- With a limit of one, the tool runs twice, and what is drafted is what the model says before the
second result. -/
theorem insistent_overruns :
    (executorRun routed 1 { messages := [], userInput := "Where is it?" } insistent).2.rounds = 2 ∧
    ((executorRun routed 1 { messages := [], userInput := "Where is it?" } insistent).1.toOption.map
      (·.draftResponse)) = some (some "One moment.") ∧
    ¬WithinRounds routed 1 (executorRun routed 1 { messages := [], userInput := "Where is it?" } insistent).2
      (executorRun routed 1 { messages := [], userInput := "Where is it?" } insistent).1 := by
  have hrounds : (executorRun routed 1 { messages := [], userInput := "Where is it?" } insistent).2.rounds = 2 := rfl
  refine ⟨hrounds,rfl,fun h => ?_⟩
  have hbounded := h.1
  omega

end VoxForge.Agents
