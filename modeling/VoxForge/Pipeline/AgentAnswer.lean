import VoxForge.Agents.GraphRuns
import VoxForge.Foundation.Words
import VoxForge.Pipeline.WholeTurn

/-! The answer of an agent run on its way to the caller: `AgentOrchestrator.generate_response`
streams it word by word, and a turn says the sentences of that stream. -/
namespace VoxForge.Agents
open Foundation Core Prog

def apology : String := "I'm sorry, I couldn't generate a response."

/-- `result.get("final_response") or result.get("draft_response", "")`, or else the apology. -/
def finalAnswer (result : OrchestratorState) : String :=
  let final := if result.finalResponse ≠ "" then result.finalResponse else result.draftResponse
  if final = "" then apology else final

/-- What the caller is to hear of a run: its reply, or the apology. -/
def Ledger.answer (l : Ledger) : String := if l.reply = "" then apology else l.reply

/-- Every operation may be performed. -/
def unwatched : Discipline Op Op.Reply GraphError Unit where
  allowed _ _ := True
  possible _ _ := True
  after _ _ _ := ()

section answer
variable {config : GraphConfig} {request : Request} {steps : Nat}

/-- Where the final response is empty, so is the draft. -/
theorem unanswered_undrafted (s : OrchestratorState) :
    wp unwatched () (ainvoke config steps s)
      (returns fun _ result => result.finalResponse = "" → result.draftResponse = "") := by
  change wp unwatched () ((buildAgentGraph config).invoke .recursionLimit steps .planner s) _
  refine StateGraph.wp_invoke_last (fun agent s _ => ?_) steps Agent.planner s ()
  have hkeeps (p : Steps OrchestratorState) : Keeps unwatched (fun _ => True) p :=
    keeps_of_performs (performs_any p) fun _ _ _ _ => ⟨trivial,fun _ _ => trivial⟩
  have hgoes (h : ∀ result, (buildAgentGraph config).next agent result ≠ none) :
      wp unwatched () ((buildAgentGraph config).node agent s) (returns fun _ result =>
        (buildAgentGraph config).next agent result = none →
          result.finalResponse = "" → result.draftResponse = "") := by
    apply wp_mono (hkeeps _ () trivial)
    intro _ r _
    cases r with
    | ok result => exact fun hnone => absurd hnone (h result)
    | error e => trivial
  cases agent with
  | coordinator =>
    have hnode : (buildAgentGraph config).node .coordinator s =
        coordinator s >>= fun update => pure (s.merge update) := rfl
    rw [hnode]
    unfold coordinator
    by_cases hfinal : s.finalResponse = ""
    · rw [if_neg (not_not_intro hfinal)]
      exact fun _ hempty => hempty
    · rw [if_pos hfinal]
      exact fun _ hempty => absurd hempty hfinal
  | planner => exact hgoes nofun
  | safety => exact hgoes nofun
  | executor => exact hgoes nofun
  | critic => exact hgoes nofun

variable {strategy : Strategy Op Op.Reply GraphError} {result : OrchestratorState} {events : List GraphEvent}

/-- A run that returns has the answer of its ledger. -/
theorem finalAnswer_of_run (hsteps : 4 * config.rounds < steps)
    (hrun : play strategy (ainvoke config steps request.initial) = (.ok result,events)) :
    finalAnswer result = (ledgerOf config events).answer := by
  have hdelivered := (wp_play strategy (fun _ _ => trivial) (ainvoke_spec request hsteps)).2
  have hdrafted := (wp_play strategy (fun _ _ => trivial) (@unanswered_undrafted config steps request.initial)).2
  rw [hrun] at hdelivered hdrafted
  have hresponse : result.finalResponse = (ledgerOf config events).reply := hdelivered.response
  unfold finalAnswer Ledger.answer
  rw [← hresponse]
  by_cases hempty : result.finalResponse = ""
  · rw [if_neg (not_not_intro hempty),if_pos hempty,hdrafted hempty]
    rfl
  · rw [if_pos hempty,if_neg hempty]

end answer
end VoxForge.Agents

namespace VoxForge.Pipeline.VoicePipelineService
open Foundation Core

/-! Streams of words -/

namespace SentenceBuffer

def tokenOf (w : List Char) : String := String.ofList (w ++ [' '])

/-- A word is cut after its last mark. -/
def pieces (w : List Char) : List (List Char) := [upto w,after w].filter (!·.isEmpty)

theorem upto_token (w : List Char) : upto (w ++ [' ']) = upto w :=
  List.rdropWhile_concat_pos unmarked w ' ' rfl

theorem after_token (w : List Char) : after (w ++ [' ']) = after w ++ [' '] :=
  after_append_unmarked rfl

section word
variable {w : List Char} {before : List Char}

/-- A word without white space, and not empty. -/
def IsWord (w : List Char) : Prop := w ≠ [] ∧ ∀ c ∈ w, isSpace c = false

theorem isWord_of_mem {text : String} (h : w ∈ splitWords text) : IsWord w := mem_words h

theorem not_blank_upto (hw : IsWord w) (hmark : upto w ≠ []) (front : List Char) :
    isBlank (front ++ upto w) = false := by
  obtain ⟨c,hc⟩ := List.exists_mem_of_ne_nil _ hmark
  have hin : c ∈ w := by
    rw [← upto_append_after w]
    exact List.mem_append_left _ hc
  rw [isBlank,List.all_eq_false]
  exact ⟨c,List.mem_append_right _ hc,by simp [hw.2 c hin]⟩

theorem not_runsOver (hw : IsWord w) : ¬RunsOver before (tokenOf w) := by
  rintro ⟨hmark,hblank,-⟩
  rw [tokenOf,String.toList_ofList,upto_token] at hmark hblank
  rw [not_blank_upto hw hmark] at hblank
  cases hblank

theorem words_after (hw : IsWord w) : words isSpace (after w ++ [' ']) = [after w].filter (!·.isEmpty) := by
  rw [words_concat rfl]
  refine words_run fun c hc => hw.2 c ?_
  rw [← upto_append_after w]
  exact List.mem_append_right _ hc

theorem pieces_marked (hmark : upto w ≠ []) : pieces w = upto w :: [after w].filter (!·.isEmpty) := by
  unfold pieces
  rw [List.filter_cons,if_pos (by simpa using hmark)]

theorem pieces_unmarked (hw : IsWord w) (hmark : upto w = []) : pieces w = [w] := by
  have hafter : after w = w := by simpa [hmark] using upto_append_after w
  unfold pieces
  rw [hmark,hafter]
  simp [hw.1]

end word

/-- The sentences of a stream of words hold these words, each cut after its last mark. -/
theorem sentences_of_words (ws : List (List Char)) (hws : ∀ w ∈ ws, IsWord w) (before : List Char)
    (hseparated : Separated isSpace (after before)) :
    (tokenStreamToSentences (after before) (ws.map tokenOf)).2 = none ∧
      (tokenStreamToSentences (after before) (ws.map tokenOf)).1.flatMap splitWords =
        words isSpace (after before) ++ ws.flatMap pieces := by
  induction ws generalizing before with
  | nil =>
    refine ⟨rfl,?_⟩
    have hwords : splitWords (String.ofList (after before)) = words isSpace (after before) := by
      rw [splitWords,String.toList_ofList]
    rw [List.map_nil,tokenStreamToSentences,flush,← hwords,← splitWords_strip]
    split
    · next hblank =>
      rw [hblank]
      rfl
    · simp
  | cons w ws ih =>
    have hw : IsWord w := hws w (List.mem_cons_self ..)
    have hrest : ∀ v ∈ ws, IsWord v := fun v hv => hws v (List.mem_cons_of_mem _ hv)
    have htoken : (tokenOf w).toList = w ++ [' '] := String.toList_ofList
    rw [List.map_cons,List.flatMap_cons]
    by_cases hmark : upto w = []
    · -- the word stays in the buffer
      have hunmarked : upto (tokenOf w).toList = [] := by rw [htoken,upto_token,hmark]
      have hheld : after (before ++ (tokenOf w).toList) = after before ++ w ++ [' '] := by
        rw [after_append_unmarked hunmarked,htoken,List.append_assoc]
      have hnone : upto (after before ++ (tokenOf w).toList) = [] := by
        rw [upto_eq_nil_iff] at hunmarked ⊢
        intro c hc
        exact (List.mem_append.mp hc).elim unmarked_of_mem_after (hunmarked c)
      obtain ⟨hends,hwords⟩ := ih hrest (before ++ (tokenOf w).toList) (hheld ▸ separated_concat rfl)
      rcases tokenStreamToSentences_cons before (tokenOf w) (ws.map tokenOf) with
        ⟨hover,-⟩ | ⟨-,-,hstream⟩ | ⟨-,hblank,-⟩
      · exact absurd hover (not_runsOver hw)
      · rw [hstream]
        refine ⟨hends,?_⟩
        rw [hwords,hheld,words_concat rfl,words_append_solid hseparated hw.1 hw.2,pieces_unmarked hw hmark,
          List.append_assoc]
      · rw [hnone] at hblank
        cases hblank
    · -- its last mark lets a sentence out
      have hmarked : upto (tokenOf w).toList ≠ [] := by rwa [htoken,upto_token]
      have hheld : after (before ++ (tokenOf w).toList) = after w ++ [' '] := by
        rw [after_append hmarked,htoken,after_token]
      have hout : upto (after before ++ (tokenOf w).toList) = after before ++ upto w := by
        rw [upto_append hmarked,htoken,upto_token]
      obtain ⟨hends,hwords⟩ := ih hrest (before ++ (tokenOf w).toList) (hheld ▸ separated_concat rfl)
      rcases tokenStreamToSentences_cons before (tokenOf w) (ws.map tokenOf) with
        ⟨hover,-⟩ | ⟨-,hblank,-⟩ | ⟨-,-,hstream⟩
      · exact absurd hover (not_runsOver hw)
      · rw [hout,not_blank_upto hw hmark] at hblank
        cases hblank
      · rw [hstream]
        refine ⟨hends,?_⟩
        have hsolid : ∀ c ∈ upto w, isSpace c = false := by
          intro c hc
          refine hw.2 c ?_
          rw [← upto_append_after w]
          exact List.mem_append_left _ hc
        have hsentence : splitWords (strip (String.ofList (upto (after before ++ (tokenOf w).toList)))) =
            words isSpace (after before) ++ [upto w] := by
          rw [splitWords_strip,splitWords,String.toList_ofList,hout,words_append_solid hseparated hmark hsolid]
        rw [List.flatMap_cons,hsentence,hwords,hheld,words_after hw,pieces_marked hmark]
        simp

theorem losesNoText_words {ws : List (List Char)} (hws : ∀ w ∈ ws, IsWord w) : LosesNoText (ws.map tokenOf) := by
  rw [losesNoText_iff]
  intro read token rest heq
  have htoken : token ∈ ws.map tokenOf := by
    rw [heq]
    exact List.mem_append_right _ (List.mem_cons_self ..)
  obtain ⟨w,hin,rfl⟩ := List.mem_map.mp htoken
  exact not_runsOver (hws w hin)

theorem joined_words (ws : List (List Char)) : joined (ws.map tokenOf) = ws.flatMap (· ++ [' ']) := by
  unfold joined tokenOf
  rw [List.flatMap_map]
  simp

theorem splitWords_joined (ws : List (List Char)) (hws : ∀ w ∈ ws, IsWord w) :
    splitWords (String.ofList (joined (ws.map tokenOf))) = ws := by
  rw [splitWords,String.toList_ofList,joined_words]
  exact words_flatMap rfl hws

end SentenceBuffer

/-! The stream of `generate_response` -/

section stream
open Agents Handoffs HandoffOrchestrator Prog SentenceBuffer
open Persistence (Err)

/-- The events of one response: all tools run and all steps are reported before the first. -/
def eventsOf (tools : List HandoffArguments) (agentSteps : Nat) : List String → List GenerationEvent
  | [] => []
  | text :: texts => { text, tools, agentSteps } :: texts.map ({ text := · })

/-- What `generate_response` yields after a run of the graph. -/
def generateResponse (tools : List HandoffArguments) (result : OrchestratorState) : List GenerationEvent :=
  eventsOf tools result.agentTrace.length ((splitWords (finalAnswer result)).map tokenOf ++ [""])

variable {tools : List HandoffArguments} {agentSteps : Nat} {result : OrchestratorState}

theorem map_text_eventsOf (texts : List String) : (eventsOf tools agentSteps texts).map (·.text) = texts := by
  cases texts with
  | nil => rfl
  | cons text texts => exact congrArg (text :: ·) (List.map_map.trans (List.map_id texts))

theorem tokenOf_ne_empty (w : List Char) : tokenOf w ≠ "" := by
  intro hempty
  have hnil : w ++ [' '] = [] := by rw [← String.toList_ofList (l := w ++ [' ']),← tokenOf,hempty]; rfl
  exact absurd hnil (by simp)

theorem textsOf_generateResponse :
    textsOf (generateResponse tools result) = (splitWords (finalAnswer result)).map tokenOf := by
  unfold textsOf generateResponse
  rw [map_text_eventsOf,List.filter_append,List.filter_eq_self.mpr]
  · simp
  · intro token htoken
    obtain ⟨w,-,rfl⟩ := List.mem_map.mp htoken
    exact decide_eq_true (tokenOf_ne_empty w)

/-- The caller has been given every word of an answer: its tokens, its sentences and its row. -/
structure Voiced (answer : String) (d : Delivery) : Prop where
  tokens : d.tokens.map splitWords = (splitWords answer).map ([·])
  requested : d.requested.flatMap splitWords = (splitWords answer).flatMap pieces
  rows : d.rows.map splitWords = if splitWords answer = [] then [] else [splitWords answer]

theorem splitWords_tokenOf {w : List Char} (hw : IsWord w) : splitWords (tokenOf w) = [w] := by
  rw [splitWords,tokenOf,String.toList_ofList,words_concat rfl,words_solid hw.1 hw.2]

theorem rowOf_joined {ws : List (List Char)} (hws : ∀ w ∈ ws, IsWord w) :
    (rowOf (String.ofList (joined (ws.map tokenOf)))).map splitWords = if ws = [] then [] else [ws] := by
  have hsplit := splitWords_joined ws hws
  cases ws with
  | nil => rfl
  | cons w ws =>
    have hne : String.ofList (joined ((w :: ws).map tokenOf)) ≠ "" := by
      intro hempty
      rw [hempty] at hsplit
      cases hsplit
    rw [rowOf,if_neg hne,if_neg (List.cons_ne_nil w ws),List.map_cons,List.map_nil,hsplit]

theorem Told.voiced {answer : String} {d : Delivery} (h : Told ((splitWords answer).map tokenOf) d) :
    Voiced answer d := by
  have hws : ∀ w ∈ splitWords answer, IsWord w := fun _ => isWord_of_mem
  constructor
  · rw [h.tokens,List.map_map]
    exact List.map_congr_left fun w hw => splitWords_tokenOf (hws w hw)
  · rw [h.requested]
    exact (sentences_of_words (splitWords answer) hws [] separated_nil).2
  · rw [h.rows]
    exact rowOf_joined hws

/-- The answer of every run of the agents reaches the caller word for word in every turn that
nothing disturbs, and the sentences are cut without an exception. -/
theorem agents_answer_said {config : GraphConfig} {request : Request} {steps : Nat} (hsteps : 4 * config.rounds < steps)
    {strategy : Strategy Op Op.Reply GraphError} {graphEvents : List GraphEvent}
    (hgraph : play strategy (ainvoke config steps request.initial) = (.ok result,graphEvents))
    (settings : HandoffOrchestrator.Settings) (wiring : Wiring) (turn : TurnRequest)
    (hturn : turn.events = generateResponse tools result) (answers : Strategy TurnOp TurnReply Err)
    {events : List (Prog.Event TurnOp TurnReply Err)}
    (hrun : play answers (processTurn settings wiring turn) = (.ok (),events)) :
    LosesNoText (textsOf turn.events) ∧
      ((delivered events).disturbed = true ∨ Voiced (ledgerOf config graphEvents).answer (delivered events)) := by
  have htexts : textsOf turn.events = (splitWords (ledgerOf config graphEvents).answer).map tokenOf := by
    rw [hturn,textsOf_generateResponse,finalAnswer_of_run hsteps hgraph]
  have hplay := (wp_play answers (fun _ _ => trivial) (processTurn_told settings wiring turn)).2
  rw [hrun] at hplay
  rw [htexts]
  refine ⟨losesNoText_words fun _ => isWord_of_mem,?_⟩
  rcases hplay with hdisturbed | htold
  · exact .inl hdisturbed
  · exact .inr (Told.voiced (htexts ▸ htold))

/-- A run whose executor drafts the text of the refusal, its last state, and a smooth turn on it. -/
def refusalRun : Except GraphError OrchestratorState × List GraphEvent :=
  play echoRefusal (ainvoke twoRounds 9 Agents.greeting.initial)

def refusalState : OrchestratorState := refusalRun.1.toOption.getD Agents.greeting.initial

def refusalTurn : Except Err Unit × List (Prog.Event TurnOp TurnReply Err) :=
  play Conversation.smooth (processTurn {} {} (spoken (generateResponse [] refusalState)))

theorem refusalTurn_said : refusalTurn.1 = .ok () ∧ Voiced refusal (delivered refusalTurn.2) := by
  obtain ⟨hok,hanswer⟩ : refusalRun.1.toOption.isSome = true ∧ (ledgerOf twoRounds refusalRun.2).answer = refusal := by
    decide +kernel
  obtain ⟨hreturns,hcalm⟩ : refusalTurn.1 = .ok () ∧ ¬(delivered refusalTurn.2).disturbed = true := by decide +kernel
  have hgraph : refusalRun = (.ok refusalState,refusalRun.2) := by
    unfold refusalState
    generalize refusalRun = run at hok
    obtain ⟨e | result,graphEvents⟩ := run
    · cases hok
    · rfl
  rcases hturn : refusalTurn with ⟨outcome,events⟩
  rw [hturn] at hreturns hcalm
  obtain rfl : outcome = .ok () := hreturns
  have hsaid := (agents_answer_said (by decide) hgraph {} {} (spoken (generateResponse [] refusalState)) rfl
    Conversation.smooth hturn).2.resolve_left hcalm
  exact ⟨rfl,hanswer ▸ hsaid⟩

end stream
end VoxForge.Pipeline.VoicePipelineService
