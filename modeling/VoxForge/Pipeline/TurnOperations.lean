import VoxForge.Handoffs.Operations
import VoxForge.Pipeline.ProcessTurn

/-! Which operations the parts of a turn perform, whatever they are answered. -/
namespace VoxForge.Pipeline.VoicePipelineService
open Foundation Core Persistence Sessions Handoffs HandoffOrchestrator Prog

/-- What generation and synthesis call. -/
def Spoken : Callee → Prop
  | .nextEvent | .onAgentStep | .onToken _ | .interruptSet | .turnsInterrupted => True
  | .synthesizeStream _ | .nextChunk _ | .onAudio | .onError _ _ => True
  | _ => False

section tools
variable {C : (α : Type) → Action α → Prop} {settings : HandoffOrchestrator.Settings}

theorem composed_executeTool (hC : Compositional C) (hinitiate : ∀ req, C _ (initiateHandoff settings req))
    (orgId : Option OrgId) (arguments : HandoffArguments) :
    C _ (executeTool (invokeHandoffTool settings orgId arguments)) := by
  apply hC.tryCatch
  · unfold invokeHandoffTool
    cases orgId with
    | none => exact hC.raise _
    | some orgId =>
      dsimp only
      split
      · exact hC.raise _
      · exact hC.discard (hinitiate _)
  · intro e
    split
    · exact hC.raise _
    · exact hC.pure _

theorem composed_runTools (hC : Compositional C) (hinitiate : ∀ req, C _ (initiateHandoff settings req))
    (orgId : Option OrgId) (tools : List HandoffArguments) : C _ (runTools settings orgId tools) := by
  induction tools with
  | nil => exact hC.pure _
  | cons arguments rest ih => exact hC.bind (composed_executeTool hC hinitiate orgId arguments) fun _ => ih

end tools

/-! A turn speaks while it generates: a property of what it calls and of its tools is one of the whole. -/

section spoken
variable {C : (α : Type) → Awaits α → Prop} {settings : HandoffOrchestrator.Settings} {turn : TurnRequest}
  (hC : Compositional C) (hspoken : ∀ c, Spoken c → C _ (await c))
include hC

theorem composed_attempt {α : Type} {p : Awaits α} (h : C _ p) : C _ (attempt p) :=
  hC.tryCatch (hC.bind h fun _ => hC.pure _) fun _ => hC.pure _

include hspoken

theorem composed_reportSteps (n : Nat) : C _ (reportSteps n) := by
  induction n with
  | zero => exact hC.pure _
  | succ n ih => exact hC.bind (hspoken .onAgentStep trivial) fun _ => ih

theorem composed_synthesize (sentence : String) (n : Nat) : C _ (synthesize sentence n) := by
  induction n with
  | zero => exact hC.pure _
  | succ n ih =>
    apply hC.bind (hspoken .interruptSet trivial)
    intro interrupted
    split
    · exact hC.bind (hspoken .turnsInterrupted trivial) fun _ => hC.pure _
    · apply hC.bind (hspoken .onAudio trivial)
      intro _
      exact hC.bind (hspoken (.nextChunk sentence) trivial) fun _ => ih

theorem composed_say (sentence : String) : C _ (say sentence) := by
  apply hC.bind (hspoken .interruptSet trivial)
  intro interrupted
  split
  · exact hC.bind (hspoken .turnsInterrupted trivial) fun _ => hC.pure _
  · apply hC.bind (hspoken (.synthesizeStream sentence) trivial)
    intro chunks
    exact composed_synthesize hC hspoken sentence chunks

theorem composed_sayRest (buffer : List Char) (speech : Speech) : C _ (sayRest buffer speech) := by
  unfold sayRest
  split
  · exact hC.pure _
  · apply hC.bind (composed_attempt hC (composed_say hC hspoken _))
    intro outcome
    cases outcome <;> exact hC.pure _

variable (htools : ∀ orgId tools, C _ (statements (runTools settings orgId tools)))
include htools

theorem composed_produce (event : GenerationEvent) : C _ (produce settings turn event) := by
  apply hC.bind (htools _ _)
  intro _
  apply hC.bind (composed_reportSteps hC hspoken _)
  intro _
  exact hspoken .nextEvent trivial

theorem composed_converse (events : List GenerationEvent) (buffer : List Char) (speech : Speech) :
    C _ (converse settings turn events buffer speech) := by
  induction events generalizing buffer speech with
  | nil =>
    apply hC.bind (composed_attempt hC (hspoken .nextEvent trivial))
    intro outcome
    cases outcome with
    | error e => exact hC.pure _
    | ok u => exact composed_sayRest hC hspoken buffer speech
  | cons event rest ih =>
    apply hC.bind (composed_attempt hC (composed_produce hC hspoken htools event))
    intro outcome
    cases outcome with
    | error e => exact hC.pure _
    | ok u =>
      apply hC.bind (hspoken .interruptSet trivial)
      intro interrupted
      split
      · exact composed_sayRest hC hspoken buffer _
      · split
        · exact ih buffer speech
        · apply hC.bind (composed_attempt hC (hspoken (.onToken event.text) trivial))
          intro outcome
          cases outcome with
          | error e => exact hC.pure _
          | ok u =>
            dsimp only
            split
            · exact hC.pure _
            · exact ih _ _
            · apply hC.bind (composed_attempt hC (composed_say hC hspoken _))
              intro outcome
              match outcome with
              | .error e => exact hC.pure _
              | .ok .refused => exact hC.pure _
              | .ok .cutOff => exact ih _ _
              | .ok .whole => exact ih _ _

theorem composed_respond : C _ (respond settings turn) := by
  apply hC.bind (composed_converse hC hspoken htools _ _ _)
  intro outcome
  split
  · exact hC.pure _
  · exact hC.raise _
  · exact hC.bind (hspoken (.onError _ _) trivial) fun _ => hC.pure _

end spoken

section parts
variable {P : TurnOp → Prop} {settings : HandoffOrchestrator.Settings} {wiring : Wiring} {turn : TurnRequest}
  {α : Type}

theorem performs_statements {p : Action α} (hp : Performs Ordinary p)
    (hstatement : ∀ o, Ordinary o → P (.inl o)) : Performs P (statements p) :=
  performs_inl (performs_mono hp hstatement)

theorem performs_await {c : Callee} (h : P (.inr c)) : Performs P (await c) := performs_perform h

theorem performs_respond (hspoken : ∀ c, Spoken c → P (.inr c)) (hstatement : ∀ o, Ordinary o → P (.inl o)) :
    Performs P (respond settings turn) := by
  apply composed_respond (compositional_performs P)
  · intro c hc
    exact performs_await (hspoken c hc)
  · intro orgId tools
    have hordinary : Performs Ordinary (runTools settings orgId tools) :=
      composed_runTools (compositional_performs Ordinary) ordinary_initiateHandoff orgId tools
    exact performs_statements hordinary hstatement

theorem performs_remember (h : ∀ role content, P (.inr (.storeTurn role content))) (role : MessageRole)
    (content : String) : Performs P (remember wiring turn role content) := by
  unfold remember
  split
  · exact performs_await (h role content)
  · trivial

/-- What takes a message in: its row, its memory and the generator's history. -/
def Records : TurnOp → Prop
  | .inl (.insertMessage _) | .inr (.storeTurn _ _) => True
  | .inr (.addUserMessage _) | .inr (.addAssistantMessage _) => True
  | _ => False

theorem performs_prepare (h : ∀ o, Records o → P o) : Performs P (prepare wiring turn) := by
  apply performs_bind (performs_inl (performs_perform (h (.inl (.insertMessage _)) trivial)))
  intro _
  apply performs_bind (performs_remember (fun role content => h (.inr (.storeTurn role content)) trivial) _ _)
  intro _
  exact performs_await (h (.inr (.addUserMessage _)) trivial)

theorem performs_saveAnswer (h : ∀ o, Records o → P o) (htrace : P (.inr .getLastAgentTrace)) (text : String) :
    Performs P (saveAnswer wiring turn text) := by
  unfold saveAnswer
  split
  · apply performs_bind (performs_discard (performs_await htrace))
    intro _
    apply performs_bind (performs_await (h (.inr (.addAssistantMessage text)) trivial))
    intro _
    apply performs_bind (performs_inl (performs_perform (h (.inl (.insertMessage _)) trivial)))
    intro _
    exact performs_remember (fun role content => h (.inr (.storeTurn role content)) trivial) _ _
  · trivial

/-- What the evaluation of a turn calls. -/
def Evaluates (interrupted : Bool) : Callee → Prop
  | .getLastAgentTrace | .retrieveContext _ | .retrieveSnippets _ => True
  | .evaluateTurn told => told = interrupted
  | _ => False

theorem performs_evaluate {interrupted : Bool} (h : ∀ c, Evaluates interrupted c → P (.inr c)) :
    Performs P (evaluate wiring turn interrupted) := by
  have hcontext : Performs P (retrieveContext wiring turn) := by
    unfold retrieveContext
    split
    · exact performs_await (h _ trivial)
    · trivial
  have hsnippets : Performs P (retrieveSnippets wiring turn) := by
    unfold retrieveSnippets
    split
    · exact performs_await (h _ trivial)
    · trivial
  unfold evaluate
  split
  · apply performs_bind (performs_discard (performs_await (h .getLastAgentTrace trivial)))
    intro _
    apply performs_bind hcontext
    intro _
    apply performs_bind hsnippets
    intro _
    exact performs_await (h _ rfl)
  · trivial

theorem performs_escalate (hstatement : ∀ o, Ordinary o → P (.inl o)) (htrace : P (.inr .getLastAgentTrace))
    {interrupted : Bool} (hpolicy : P (.inr (.evaluatePolicy interrupted))) :
    Performs P (escalate settings wiring turn interrupted) := by
  unfold escalate
  split
  · trivial
  · next orgId =>
    split
    · apply performs_bind (performs_await htrace)
      intro trace
      apply performs_bind (performs_discard (performs_statements (ordinary_own own_getSessionConfig) hstatement))
      intro _
      apply performs_bind (performs_discard (performs_statements (ordinary_own (own_trackToolFailures _)) hstatement))
      intro _
      apply performs_bind (performs_await hpolicy)
      intro decision
      cases decision with
      | none => trivial
      | some decision => exact performs_discard (performs_statements (ordinary_initiateHandoff _) hstatement)
    · trivial

end parts
end VoxForge.Pipeline.VoicePipelineService
