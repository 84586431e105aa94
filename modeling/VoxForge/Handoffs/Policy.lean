import Mathlib.Tactic.NormNum
import VoxForge.Handoffs.Context
import VoxForge.Sessions.Sequential

/-! `HandoffPolicyEngine.evaluate`, turn by turn, on the counter that `track_tool_failures` keeps. -/
namespace VoxForge.Handoffs
open Foundation Core Persistence Sessions Agents Prog

def explicitHumanPhrases : List String :=
  ["speak to a human","talk to a human","real person","live agent","human agent","representative","operator"]

def transferPhrases : List String := ["transfer me","escalate","handoff","hand off"]

def frustrationPhrases : List String :=
  ["this isn't working","this is not working","i've tried everything","useless","frustrated"]

/-- The first phrase in the text, with the reason it gives. -/
def detectPhrase (reason : String) (phrases : List String) (text : String) : Option String :=
  (phrases.find? (contains · text)).map fun phrase => reason ++ ": '" ++ phrase ++ "'"

/-- `UserRequestDetector.detect`: the reason, where a request is found. -/
def detect (host : Host) (requireExplicit : Bool) (transcript : String) : Option String :=
  let text := strip (host.lower transcript)
  if text = "" then none
  else
    match detectPhrase "explicit request" explicitHumanPhrases text with
    | some reason => some reason
    | none =>
      if requireExplicit then none
      else (detectPhrase "transfer request" transferPhrases text).or
        (detectPhrase "frustration signal" frustrationPhrases text)

/-- The signals that are there, each with its default weight. -/
def signalComponents (signals : ConfidenceSignals) : List (PyFloat × ℚ) :=
  let approval := signals.criticApproved.map fun approved => PyFloat.finite (if approved then 1 else 0)
  [(approval,30 / 100),(signals.hallucinationScore,25 / 100),(signals.toolSuccessRatio,20 / 100),
    (signals.sttConfidence,15 / 100),(signals.kbTopSimilarity,10 / 100)].filterMap fun
      | (some value,weight) => some (value,weight)
      | (none,_) => none

def computeConfidenceScore (signals : ConfidenceSignals) : Option PyFloat :=
  let components := signalComponents signals
  let totalWeight := (components.map Prod.snd).sum
  if components = [] ∨ totalWeight = 0 then none
  else
    let weighted := components.foldl (fun (total : PyFloat) component => total.add (component.1.scale component.2))
      (PyFloat.finite 0)
    some (weighted.scale totalWeight⁻¹)

def joinedOr (fallback : String) (tools : List String) : String :=
  let joined := ", ".intercalate tools
  if joined = "" then fallback else joined

/-- `HandoffPolicyEngine.evaluate`; `fixed` writes a float with two decimals. -/
def evaluate (host : Host) (fixed : PyFloat → String) (context : TurnHandoffContext) (policy : EscalationPolicy) :
    HandoffDecision :=
  if !policy.fallbackToHuman then { shouldEscalate := false, reason := "fallback_to_human disabled" }
  else
    let confidence := computeConfidenceScore context.confidenceSignals
    let escalate (trigger : HandoffTrigger) (reason : String) : HandoffDecision :=
      { shouldEscalate := true, trigger := some trigger, confidence, reason }
    match detect host policy.requireExplicitRequest context.userTranscript with
    | some userReason => escalate .userRequest userReason
    | none =>
      if policy.escalateOnCriticalToolFailure && context.criticalToolFailed then
        escalate .toolFailure ("critical tool failure: " ++ joinedOr "critical tool" context.failedTools)
      -- both of the next tests stand under the flag for single failures
      else if policy.escalateOnToolFailure && context.toolFailuresThisTurn > 0 then
        escalate .toolFailure ("tool failure this turn: " ++ joinedOr "unknown tool" context.failedTools)
      else if policy.escalateOnToolFailure && context.consecutiveToolFailures ≥ policy.maxToolFailures then
        escalate .toolFailure ("consecutive tool failures (" ++ toString context.consecutiveToolFailures ++
          " >= " ++ toString policy.maxToolFailures ++ ")")
      else
        match confidence.filter (PyFloat.lt · policy.minConfidence) with
        | some low =>
          escalate .confidenceThreshold
            ("confidence " ++ fixed low ++ " below threshold " ++ fixed policy.minConfidence)
        | none =>
          if context.interrupted then escalate .policy "user interrupted turn"
          else { shouldEscalate := false, confidence, reason := "no escalation triggers matched" }

/-- No trigger but those of tool failures that are not critical. -/
structure Quiet (host : Host) (policy : EscalationPolicy) (context : TurnHandoffContext) : Prop where
  request : detect host policy.requireExplicitRequest context.userTranscript = none
  critical : (policy.escalateOnCriticalToolFailure && context.criticalToolFailed) = false
  confidence : (computeConfidenceScore context.confidenceSignals).filter (PyFloat.lt · policy.minConfidence) = none
  interrupted : context.interrupted = false

section evaluate
variable {host : Host} (fixed : PyFloat → String) {policy : EscalationPolicy} {context : TurnHandoffContext}

/-- On a quiet turn the flag for single failures guards both kinds of tool failure. -/
theorem evaluate_quiet (hfallback : policy.fallbackToHuman = true) (h : Quiet host policy context) :
    ((evaluate host fixed context policy).shouldEscalate = true ∧
      (evaluate host fixed context policy).trigger = some .toolFailure) ↔
    policy.escalateOnToolFailure = true ∧
      (context.toolFailuresThisTurn > 0 ∨ context.consecutiveToolFailures ≥ policy.maxToolFailures) := by
  unfold evaluate
  simp only [hfallback,h.request,h.critical,h.confidence,h.interrupted]
  cases policy.escalateOnToolFailure with
  | false => simp
  | true =>
    by_cases hfailures : context.toolFailuresThisTurn > 0
    · simp [hfailures]
    · by_cases hconsecutive : context.consecutiveToolFailures ≥ policy.maxToolFailures
      · simp [hfailures,hconsecutive]
      · simp [hfailures,hconsecutive]

end evaluate

/-! The counter -/

/-- What the counter becomes after a turn. -/
def accumulate (current : Int) (failed : Int) : Int := if failed > 0 then current + failed else 0

/-- The counter that the next turn starts from: that of the document, or of the row it is rebuilt from. -/
def counterOf (s : Stores) : Int :=
  match s.keys.state with
  | some state => state.config.consecutiveToolFailures.getD 0
  | none => s.tables.session.metadata.consecutiveToolFailures.getD 0

section counter
variable {settings : Settings} {s : Stores}

/-- The counter grows by the failures of a failing turn and is cleared by any other. -/
theorem settles_trackToolFailures_counter (failed : Int) :
    Settles Stores.handle s (SessionManager.trackToolFailures settings failed) fun current t =>
      current = accumulate (counterOf s) failed ∧ counterOf t = current := by
  rcases s with ⟨⟨⟨status,orgId,metadata,endedAt,handoffId,handoffStatus⟩,handoffs,events,snapshots,messages⟩,
    ⟨stored,heartbeat⟩,answers⟩
  cases stored with
  | some state => exact Finishes.settles ⟨_,_,rfl,rfl,rfl⟩
  | none =>
    -- a document is made again from the row, unless the session has ended
    cases status with
    | completed => exact fun _ _ h => by cases h
    | failed => exact fun _ _ h => by cases h
    | _ => exact Finishes.settles ⟨_,_,rfl,rfl,rfl⟩

end counter

/-! Turn after turn -/

/-- The failing tool steps of a turn's trace. -/
def toolFailures (host : Host) (turn : TurnData) : Nat :=
  (stepsOf "tool" (turn.agentTrace.getD [])).countP (stepFailed host)

structure Evaluation where
  turn : TurnData
  context : TurnHandoffContext
  decision : HandoffDecision

section run
variable (host : Host) (fixed : PyFloat → String) (settings : Settings) (policy : EscalationPolicy)

/-- The part of a turn that looks for a handoff: failures are counted, then judged. -/
def evaluateTurn (turn : TurnData) : Action (Except CoercionError Evaluation) := do
  let consecutive ← SessionManager.trackToolFailures settings (toolFailures host turn)
  return (buildTurnHandoffContext host { turn with consecutiveToolFailures := consecutive }).map fun context =>
    { turn, context, decision := evaluate host fixed context policy }

/-- The turns of a session one after another; what happens between two leaves the counter alone. -/
inductive Evaluates : Stores → List Evaluation → Prop where
  | nil (s : Stores) : Evaluates s []
  | turn {s t u : Stores} {turn : TurnData} {e : Evaluation} {rest : List Evaluation}
      (hturn : exec Stores.handle (evaluateTurn host fixed settings policy turn) s = (.ok (.ok e),t))
      (hbetween : counterOf u = counterOf t) (hrest : Evaluates u rest) : Evaluates s (e :: rest)

/-- The failures of the failing turns up to here that follow one another. -/
def streak (start : Int) (done : List Evaluation) : Int :=
  done.foldl (fun current e => accumulate current (toolFailures host e.turn)) start

/-- A tool failure is seen at the first turn at which the failures in a row reach the limit. -/
def EscalatesInTime (start : Int) (evaluations : List Evaluation) : Prop :=
  ∀ past last, past ++ [last] <+: evaluations → streak host start (past ++ [last]) ≥ policy.maxToolFailures →
    (∀ done, done <+: past → done ≠ [] → ¬streak host start done ≥ policy.maxToolFailures) →
      last.decision.shouldEscalate = true ∧ last.decision.trigger = some .toolFailure

/-- What is asked of the trigger: it works in time, and somewhere it is the branch for failures in a
row that fires, on a turn without a failure of its own. -/
structure FailuresTrigger (s : Stores) (evaluations : List Evaluation) : Prop where
  inTime : EscalatesInTime host policy (counterOf s) evaluations
  reachable : ∃ policy s evaluations, Evaluates host fixed settings policy s evaluations ∧
    policy.fallbackToHuman = true ∧ ∃ e ∈ evaluations, Quiet host policy e.context ∧
      toolFailures host e.turn = 0 ∧ e.decision.shouldEscalate = true ∧ e.decision.trigger = some .toolFailure

end run

section run
variable {host : Host} {fixed : PyFloat → String} {settings : Settings} {policy : EscalationPolicy}
  {s : Stores} {evaluations : List Evaluation}

theorem buildTurnHandoffContext_counts {turn : TurnData} {context : TurnHandoffContext}
    (h : buildTurnHandoffContext host turn = .ok context) :
    context.toolFailuresThisTurn = toolFailures host turn ∧
      context.consecutiveToolFailures = turn.consecutiveToolFailures := by
  simp only [buildTurnHandoffContext] at h
  cases hsimilarity : kbSimilarity host (stepsOf "tool" (turn.agentTrace.getD [])) none with
  | error e =>
    rw [hsimilarity] at h
    cases h
  | ok similarity =>
    rw [hsimilarity] at h
    cases h
    exact ⟨rfl,rfl⟩

/-- What the engine is given and what it decides, at one turn. -/
structure Fed (host : Host) (fixed : PyFloat → String) (policy : EscalationPolicy) (counter : Int) (e : Evaluation) :
    Prop where
  failures : e.context.toolFailuresThisTurn = toolFailures host e.turn
  consecutive : e.context.consecutiveToolFailures = counter
  decision : e.decision = evaluate host fixed e.context policy

theorem fed_of_turn {turn : TurnData} {e : Evaluation} {t : Stores}
    (h : exec Stores.handle (evaluateTurn host fixed settings policy turn) s = (.ok (.ok e),t)) :
    Fed host fixed policy (accumulate (counterOf s) (toolFailures host e.turn)) e ∧
      counterOf t = accumulate (counterOf s) (toolFailures host e.turn) := by
  have hsettles : Settles Stores.handle s (evaluateTurn host fixed settings policy turn) fun result t =>
      ∀ e, result = .ok e → Fed host fixed policy (accumulate (counterOf s) (toolFailures host e.turn)) e ∧
        counterOf t = accumulate (counterOf s) (toolFailures host e.turn) := by
    refine settles_then (settles_trackToolFailures_counter _) fun consecutive t ⟨hconsecutive,hcounter⟩ => ?_
    apply settles_pure
    intro e he
    cases hcontext : buildTurnHandoffContext host { turn with consecutiveToolFailures := consecutive } with
    | error error =>
      rw [hcontext] at he
      cases he
    | ok context =>
      rw [hcontext] at he
      obtain rfl : Evaluation.mk turn context (evaluate host fixed context policy) = e := Except.ok.inj he
      obtain ⟨hfailures,hgiven⟩ := buildTurnHandoffContext_counts hcontext
      have hcounted : context.toolFailuresThisTurn = toolFailures host turn := hfailures
      have hcurrent : context.consecutiveToolFailures = consecutive := hgiven
      exact ⟨⟨hcounted,hcurrent.trans hconsecutive,by dsimp only⟩,hcounter.trans hconsecutive⟩
  exact hsettles _ _ h e rfl

/-- At every turn of a run the engine is given the failures in a row up to there. -/
theorem Evaluates.fed (h : Evaluates host fixed settings policy s evaluations) {past : List Evaluation}
    {last : Evaluation} (hp : past ++ [last] <+: evaluations) :
    Fed host fixed policy (streak host (counterOf s) (past ++ [last])) last := by
  induction h generalizing past with
  | nil s => simp at hp
  | turn hturn hbetween hrest ih =>
    obtain ⟨hfed,hcounter⟩ := fed_of_turn hturn
    cases past with
    | nil =>
      obtain ⟨rfl,-⟩ := List.cons_prefix_cons.mp hp
      exact hfed
    | cons first past =>
      obtain ⟨rfl,hpast⟩ := List.cons_prefix_cons.mp hp
      have hlast := ih hpast
      rw [hbetween,hcounter] at hlast
      exact hlast

/-- The trigger works exactly if single failures escalate too, or the limit is never reached. -/
theorem escalates_in_time_iff (hfallback : policy.fallbackToHuman = true)
    (h : Evaluates host fixed settings policy s evaluations)
    (hquiet : ∀ e ∈ evaluations, Quiet host policy e.context) :
    EscalatesInTime host policy (counterOf s) evaluations ↔
      policy.escalateOnToolFailure = true ∨
        ∀ done, done <+: evaluations → done ≠ [] → streak host (counterOf s) done < policy.maxToolFailures := by
  have hdecides {past : List Evaluation} {last : Evaluation} (hp : past ++ [last] <+: evaluations) :
      (last.decision.shouldEscalate = true ∧ last.decision.trigger = some .toolFailure) ↔
        policy.escalateOnToolFailure = true ∧ (toolFailures host last.turn > 0 ∨
          streak host (counterOf s) (past ++ [last]) ≥ policy.maxToolFailures) := by
    have hfed := h.fed hp
    have hlast := evaluate_quiet fixed hfallback (hquiet last (hp.subset (by simp)))
    rw [← hfed.decision,hfed.failures,hfed.consecutive] at hlast
    exact hlast.trans (by simp)
  constructor
  · intro hintime
    by_cases hflag : policy.escalateOnToolFailure = true
    · exact .inl hflag
    · refine .inr fun done hp hne => ?_
      by_contra hreached
      obtain ⟨past,last,hfirst,hreached,hbefore⟩ :=
        exists_first_past (P := fun done => streak host (counterOf s) done ≥ policy.maxToolFailures) hne
          (by omega)
      have hescalates := hintime past last (hfirst.trans hp) hreached hbefore
      exact hflag ((hdecides (hfirst.trans hp)).mp hescalates).1
  · intro hcond past last hp hreached _
    rcases hcond with hflag | hbelow
    · exact (hdecides hp).mpr ⟨hflag,.inr hreached⟩
    · have hlt := hbelow _ hp (by simp)
      omega

/-- With a positive limit the branch for failures in a row never decides: a turn that has no failure
of its own has cleared the counter. -/
theorem clean_turn_escalates_iff (hfallback : policy.fallbackToHuman = true)
    (h : Evaluates host fixed settings policy s evaluations) {past : List Evaluation} {last : Evaluation}
    (hp : past ++ [last] <+: evaluations) (hquiet : Quiet host policy last.context)
    (hclean : toolFailures host last.turn = 0) :
    (last.decision.shouldEscalate = true ∧ last.decision.trigger = some .toolFailure) ↔
      policy.escalateOnToolFailure = true ∧ policy.maxToolFailures ≤ 0 := by
  have hfed := h.fed hp
  have hcleared : streak host (counterOf s) (past ++ [last]) = 0 := by
    rw [streak,List.foldl_concat,hclean]
    rfl
  have hlast := evaluate_quiet fixed hfallback hquiet
  rw [← hfed.decision,hfed.failures,hfed.consecutive,hcleared,hclean] at hlast
  simpa using hlast

end run

private def silentTurn : TurnData := ⟨"","",false,none,none,none,0⟩

private def silentContext : TurnHandoffContext := { userTranscript := "" }

private theorem silent_quiet (host : Host) (policy : EscalationPolicy) : Quiet host policy silentContext where
  request := by
    have hlower : host.lower "" = "" := host.lower_ascii (by decide)
    rw [detect,silentContext,hlower]
    exact if_pos (by decide)
  critical := Bool.and_false _
  confidence := rfl
  interrupted := rfl

private theorem evaluates_silent (host : Host) (fixed : PyFloat → String) (settings : Settings)
    (policy : EscalationPolicy) :
    Evaluates host fixed settings policy ⟨{},{ state := some {} },[]⟩
      [⟨silentTurn,silentContext,evaluate host fixed silentContext policy⟩] := by
  have hturn : ∃ t, exec Stores.handle (evaluateTurn host fixed settings policy silentTurn)
      ⟨{},{ state := some {} },[]⟩ =
        (.ok (.ok ⟨silentTurn,silentContext,evaluate host fixed silentContext policy⟩),t) := ⟨_,rfl⟩
  obtain ⟨t,ht⟩ := hturn
  exact .turn ht rfl (.nil t)

/-- A limit that no failure is needed for makes the branch fire. -/
theorem failures_branch_reachable (host : Host) (fixed : PyFloat → String) (settings : Settings) :
    ∃ policy s evaluations, Evaluates host fixed settings policy s evaluations ∧
      policy.fallbackToHuman = true ∧ ∃ e ∈ evaluations, Quiet host policy e.context ∧
        toolFailures host e.turn = 0 ∧ e.decision.shouldEscalate = true ∧ e.decision.trigger = some .toolFailure := by
  refine ⟨{ maxToolFailures := 0 },_,_,evaluates_silent host fixed settings _,rfl,_,List.mem_singleton_self _,
    silent_quiet host _,rfl,?_⟩
  exact (evaluate_quiet fixed rfl (silent_quiet host _)).mpr ⟨rfl,.inr (by decide)⟩

/-- The trigger for failures in a row works exactly if single failures escalate too, or the failures
in a row stay below the limit. -/
theorem failuresTrigger_iff {host : Host} {fixed : PyFloat → String} {settings : Settings}
    {policy : EscalationPolicy} {s : Stores} {evaluations : List Evaluation}
    (hfallback : policy.fallbackToHuman = true) (h : Evaluates host fixed settings policy s evaluations)
    (hquiet : ∀ e ∈ evaluations, Quiet host policy e.context) :
    FailuresTrigger host fixed settings policy s evaluations ↔
      policy.escalateOnToolFailure = true ∨
        ∀ done, done <+: evaluations → done ≠ [] → streak host (counterOf s) done < policy.maxToolFailures :=
  ⟨fun htrigger => (escalates_in_time_iff hfallback h hquiet).mp htrigger.inTime,fun hcond =>
    ⟨(escalates_in_time_iff hfallback h hquiet).mpr hcond,failures_branch_reachable host fixed settings⟩⟩

/-- A ticket could not be created, and the critic still approves of the reply. -/
private def failedTurn : TurnData where
  userTranscript := "Is it booked?"
  assistantResponse := "Not yet."
  interrupted := false
  confidence := some (.finite 1)
  agentTrace := some [traceStep "tool" "error" "ticket_create: no answer",traceStep "critic" "completed" "approved"]
  evaluationRun := none
  consecutiveToolFailures := 0

private def failedContext (consecutive : Int) : TurnHandoffContext where
  userTranscript := "Is it booked?"
  assistantResponse := "Not yet."
  confidenceSignals :=
    { criticApproved := some true, toolSuccessRatio := some (.finite ((0 : Nat) / (1 : Nat))), sttConfidence := some (.finite 1) }
  toolFailuresThisTurn := 1
  consecutiveToolFailures := consecutive
  failedTools := ["ticket_create: no answer"]

private theorem failed_quiet (flag : Bool) (n : Int) :
    Quiet asciiHost { escalateOnToolFailure := flag } (failedContext n) where
  request := by
    have hsilent : detect asciiHost false "Is it booked?" = none := by decide +kernel
    exact hsilent
  critical := rfl
  confidence := by
    have hscore : computeConfidenceScore (failedContext n).confidenceSignals = some (.finite (45 / 65)) := by
      simp [computeConfidenceScore,signalComponents,failedContext,PyFloat.scale,PyFloat.add]
      norm_num
    have hlow : ¬ ((45 : ℚ) / 65 < 55 / 100) := by norm_num
    simp [hscore,PyFloat.lt,hlow]
  interrupted := rfl

private def storeWith (n : Int) : Stores :=
  ⟨{},{ state := some { config := { consecutiveToolFailures := some n } } },[]⟩

private def failedEvaluation (policy : EscalationPolicy) (n : Int) : Evaluation :=
  ⟨failedTurn,failedContext n,evaluate asciiHost (fun _ => "") (failedContext n) policy⟩

private theorem evaluates_failed {policy : EscalationPolicy} {n : Int} {rest : List Evaluation}
    (h : Evaluates asciiHost (fun _ => "") {} policy (storeWith (n + 1)) rest) :
    Evaluates asciiHost (fun _ => "") {} policy (storeWith n) (failedEvaluation policy (n + 1) :: rest) := by
  have hturn : ∃ t, exec Stores.handle (evaluateTurn asciiHost (fun _ => "") {} policy failedTurn) (storeWith n) =
      (.ok (.ok (failedEvaluation policy (n + 1))),t) ∧ counterOf t = n + 1 := ⟨_,rfl,rfl⟩
  obtain ⟨t,ht,hcounter⟩ := hturn
  have hbetween : counterOf (storeWith (n + 1)) = counterOf t := hcounter.symm
  exact .turn ht hbetween h

private theorem toolFailures_failed : toolFailures asciiHost failedTurn = 1 := by decide +kernel

private def twoFailures (policy : EscalationPolicy) : List Evaluation :=
  [failedEvaluation policy (0 + 1),failedEvaluation policy (0 + 1 + 1)]

private theorem evaluates_twoFailures (policy : EscalationPolicy) :
    Evaluates asciiHost (fun _ => "") {} policy (storeWith 0) (twoFailures policy) :=
  evaluates_failed (evaluates_failed (.nil _))

private theorem quiet_twoFailures (flag : Bool) :
    ∀ e ∈ twoFailures { escalateOnToolFailure := flag },
      Quiet asciiHost { escalateOnToolFailure := flag } e.context := by
  intro e he
  rcases List.mem_pair.mp he with rfl | rfl
  · exact failed_quiet flag _
  · exact failed_quiet flag _

theorem failuresTrigger_default :
    FailuresTrigger asciiHost (fun _ => "") {} {} (storeWith 0) (twoFailures {}) :=
  (failuresTrigger_iff rfl (evaluates_twoFailures {}) (quiet_twoFailures true)).mpr (.inl rfl)

/-- Two failing turns in a row reach the default limit, and nothing is decided. -/
theorem second_failure_ignored :
    Evaluates asciiHost (fun _ => "") {} { escalateOnToolFailure := false } (storeWith 0)
        (twoFailures { escalateOnToolFailure := false }) ∧
      (∀ e ∈ twoFailures { escalateOnToolFailure := false },
        Quiet asciiHost { escalateOnToolFailure := false } e.context) ∧
      ¬FailuresTrigger asciiHost (fun _ => "") {} { escalateOnToolFailure := false } (storeWith 0)
        (twoFailures { escalateOnToolFailure := false }) := by
  refine ⟨evaluates_twoFailures _,quiet_twoFailures false,fun h => ?_⟩
  have hfirst (done : List Evaluation)
      (hp : done <+: [failedEvaluation { escalateOnToolFailure := false } (0 + 1)]) (hne : done ≠ []) :
      ¬streak asciiHost (counterOf (storeWith 0)) done ≥ 2 := by
    rcases List.prefix_cons_iff.mp hp with rfl | ⟨rest,rfl,hrest⟩
    · exact absurd rfl hne
    · obtain rfl := List.prefix_nil.mp hrest
      simp [streak,accumulate,failedEvaluation,toolFailures_failed,counterOf,storeWith]
  have hreached : streak asciiHost (counterOf (storeWith 0)) (twoFailures { escalateOnToolFailure := false }) ≥ 2 := by
    simp [streak,accumulate,twoFailures,failedEvaluation,toolFailures_failed,counterOf,storeWith]
  have hescalates := h.inTime [failedEvaluation { escalateOnToolFailure := false } (0 + 1)]
    (failedEvaluation { escalateOnToolFailure := false } (0 + 1 + 1)) List.prefix_rfl hreached hfirst
  simp only [failedEvaluation] at hescalates
  have hflag := (evaluate_quiet (fun _ => "") rfl (failed_quiet false (0 + 1 + 1))).mp hescalates
  exact absurd hflag.1 (by decide)

end VoxForge.Handoffs
