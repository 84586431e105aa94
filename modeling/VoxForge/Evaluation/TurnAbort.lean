import VoxForge.Evaluation.Judging
import VoxForge.Foundation.Strategies
import VoxForge.Pipeline.TurnOperations

/-! A turn whose evaluation raises: it ends there, and commits nothing. -/
namespace VoxForge.Evaluation
open Foundation Prog Persistence Sessions Handoffs Pipeline VoicePipelineService

/-- No commit comes after an evaluation that raised; the context is whether one has. -/
def beforeCommit : Discipline TurnOp TurnReply Err Bool where
  allowed raised o := o = .inr .commit → raised = false
  possible _ _ := True
  after raised
    | .inr (.evaluateTurn _),.error _ => true
    | _,_ => raised

/-- Once an evaluation has raised, the rest of the program does. -/
def halts {α : Type} : Bool → Except Err α → Prop
  | raised,.ok _ => raised = false
  | _,.error _ => True

section halts
variable {α β : Type} {settings : HandoffOrchestrator.Settings} {wiring : Wiring} {turn : TurnRequest}

theorem halts_then {p : Awaits α} {f : α → Awaits β} (hp : wp beforeCommit false p halts)
    (hf : ∀ a, wp beforeCommit false (f a) halts) : wp beforeCommit false (p >>= f) halts := by
  rw [wp_bind]
  apply wp_mono hp
  intro raised r hr
  cases r with
  | ok a =>
    obtain rfl : raised = false := hr
    exact hf a
  | error e => trivial

def NotEvaluating : TurnOp → Prop
  | .inr (.evaluateTurn _) => False
  | _ => True

/-- What does not evaluate has nothing to halt for. -/
theorem halts_of_performs {p : Awaits α} (hp : Performs NotEvaluating p) : wp beforeCommit false p halts := by
  have hstay : wp beforeCommit false p fun raised _ => raised = false := by
    refine wp_of_performs hp fun o ho => ⟨fun _ => rfl,fun r => ?_⟩
    rcases o with o | o
    · rfl
    · cases o <;> first | rfl | exact ho.elim
  apply wp_mono hstay
  intro raised r hr
  cases r with
  | ok a => exact hr
  | error e => trivial

theorem halts_statements {p : Action α} (hp : Performs Own p) :
    wp beforeCommit false (discard (statements p)) halts :=
  halts_of_performs (performs_discard (performs_statements (ordinary_own hp) fun _ _ => trivial))

theorem halts_await {c : Callee} (h : NotEvaluating (.inr c)) : wp beforeCommit false (await c) halts :=
  halts_of_performs (performs_await h)

theorem halts_evaluateTurn (interrupted : Bool) :
    wp beforeCommit false (await (.evaluateTurn interrupted)) halts := by
  refine ⟨fun _ => rfl,fun r _ => ?_⟩
  cases r with
  | ok a => rfl
  | error e => trivial

theorem halts_evaluate (interrupted : Bool) :
    wp beforeCommit false (evaluate wiring turn interrupted) halts := by
  have hcontext : wp beforeCommit false (retrieveContext wiring turn) halts := by
    unfold retrieveContext
    split
    · exact halts_await trivial
    · rfl
  have hsnippets : wp beforeCommit false (retrieveSnippets wiring turn) halts := by
    unfold retrieveSnippets
    split
    · exact halts_await trivial
    · rfl
  unfold evaluate
  split
  · apply halts_then (halts_of_performs (performs_discard (performs_await (c := .getLastAgentTrace) trivial)))
    intro _
    apply halts_then hcontext
    intro _
    apply halts_then hsnippets
    intro _
    exact halts_evaluateTurn interrupted
  · rfl

theorem notEvaluating_of_records {o : TurnOp} (h : Records o) : NotEvaluating o := by
  rcases o with o | o
  · trivial
  · cases o <;> first | exact h.elim | trivial

theorem notEvaluating_of_spoken {c : Callee} (h : Spoken c) : NotEvaluating (.inr c) := by
  cases c <;> first | exact h.elim | trivial

theorem halts_answer : wp beforeCommit false (answer settings wiring turn) halts := by
  apply halts_then (halts_statements own_getSessionConfig)
  intro _
  apply halts_then (halts_of_performs (performs_respond (fun _ => notEvaluating_of_spoken) fun _ _ => trivial))
  intro speech
  apply halts_then (halts_of_performs (performs_saveAnswer (fun _ => notEvaluating_of_records) trivial speech.text))
  intro _
  apply halts_then (halts_await (c := .saveTurnMetrics) trivial)
  intro _
  apply halts_then (halts_evaluate speech.interrupted)
  intro _
  apply halts_then (halts_of_performs (performs_escalate (fun _ _ => trivial) trivial trivial))
  intro _
  dsimp only
  split
  · exact halts_then (halts_await trivial) fun _ => halts_await trivial
  · exact halts_await trivial

theorem halts_processTurn : wp beforeCommit false (processTurn settings wiring turn) halts := by
  apply halts_then (halts_statements (own_updatePhase _))
  intro _
  apply halts_then (halts_of_performs (performs_prepare fun _ => notEvaluating_of_records))
  intro _
  apply halts_then (halts_statements (own_updatePhase _))
  intro _
  apply halts_then halts_answer
  intro _
  apply halts_then (halts_await (c := .onMetrics) trivial)
  intro _
  apply halts_then (halts_statements own_clearInterrupt)
  intro _
  exact halts_statements (own_updatePhase _)

/-- Wherever a turn is called from, and whatever it is answered: no commit comes after an
evaluation that raised. -/
theorem failed_evaluation_commits_nothing (settings : HandoffOrchestrator.Settings) (wiring : Wiring)
    (turn : TurnRequest) (caller : Caller) (strategy : Strategy TurnOp TurnReply Err) :
    beforeCommit.Obeyed false (play strategy (caller.program settings wiring turn)).2 := by
  have hcaller : wp beforeCommit false (caller.program settings wiring turn) fun _ _ => True := by
    have hreport (raised : Bool) : wp beforeCommit raised
        (await (.onError "pipeline_error" "Voice pipeline failed")) fun _ _ => True :=
      (wp_perform _ _).mpr ⟨nofun,fun _ _ => trivial⟩
    cases caller with
    | runListening =>
      refine (wp_tryCatch _ _ _).mpr (wp_mono halts_processTurn fun raised r _ => ?_)
      cases r with
      | ok a => trivial
      | error e =>
        change wp beforeCommit raised (if e = .cancelled then _ else _) _
        split
        · trivial
        · exact hreport raised
    | runTextTurn =>
      refine (wp_tryCatch _ _ _).mpr (wp_mono halts_processTurn fun raised r _ => ?_)
      cases r <;> trivial
  exact (wp_play strategy (fun _ _ => trivial) hcaller).1

end halts
end VoxForge.Evaluation
