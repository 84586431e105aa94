import VoxForge.Evaluation.Evaluators

/-! `HallucinationEvaluator` and `EvaluationEngine.evaluate_turn`: what is made of the text that a
judging model writes. -/
namespace VoxForge.Evaluation
open Core Foundation

/-- A model: for a prompt and a model's name the texts of its events, or the exception's text. -/
abbrev LLM := String → String → Except String (List String)

/-- `storable` is which documents the JSON column takes. -/
structure Engine where
  settings : Settings := {}
  host : Host
  recursionLimit : Nat
  llm : Option LLM
  storable : Json → Bool

def judgePrompt (turn : TurnEvaluationInput) : String :=
  let context := if turn.contextSnippets = [] then "(none)" else "\n".intercalate turn.contextSnippets
  "You are an evaluation judge for a voice AI assistant.\n" ++
  "Score whether the assistant response is grounded and free of hallucinations.\n\n" ++
  "User question:\n" ++ turn.userTranscript ++ "\n\n" ++
  "Assistant response:\n" ++ turn.assistantResponse ++ "\n\n" ++
  "Retrieved context (may be empty):\n" ++ context ++ "\n\n" ++
  "Reply with JSON only:\n" ++
  "\x7b\"score\": 0.0-1.0, \"hallucinated\": true/false, \"reason\": \"brief explanation\"\x7d\n"

/-- `re.search(r"\{.*\}", text, re.DOTALL)`: from the first opening brace to the last closing one. -/
def bracedSpan (text : String) : Option String :=
  let span := (text.toList.dropWhile (· ≠ '\x7b')).rdropWhile (· ≠ '\x7d')
  if span = [] then none else some (String.ofList span)

/-- `min(a, b)` and `max(a, b)` keep the first unless the second compares. -/
def pyMin (a b : PyFloat) : PyFloat := if b.lt a then b else a
def pyMax (a b : PyFloat) : PyFloat := if a.lt b then b else a

def clampFloat (score : PyFloat) : PyFloat := pyMax (.finite 0) (pyMin (.finite 1) score)

def roundFloat (digits : Nat) : PyFloat → PyFloat
  | .finite q => .finite (roundTo digits q)
  | x => x

def verdict (score : Json) (hallucinated reason : Json) : Json :=
  .obj [("score",score),("hallucinated",hallucinated),("reason",reason)]

section engine
variable (engine : Engine)

def parseJudgeResponse (text : String) : Except EvaluationError Json :=
  match bracedSpan text with
  | none => .ok (verdict (.float (.finite (1 / 2))) .null (.str "unparseable judge output"))
  | some span =>
    match JsonDecoder.loads engine.recursionLimit span with
    | .ok parsed => .ok parsed
    | .error .decodeError => .ok (verdict (.float (.finite (1 / 2))) .null (.str "invalid judge JSON"))
    | .error e => .error (.loads e)

/-- `parsed.get(key, default)`, on an object. -/
def getEntry (key : String) (default : Json) : Json → Except EvaluationError Json
  | .obj entries => .ok ((entries.lookup key).getD default)
  | _ => .error .attributeError

def toFloat (value : Json) : Except EvaluationError PyFloat :=
  match value.toFloat engine.host with
  | .ok x => .ok x
  | .error e => .error (.coercion e)

/-- The metric of what the judge wrote. -/
def judged (text : String) : Except EvaluationError EvaluationMetric := do
  let parsed ← parseJudgeResponse engine text
  let score ← toFloat engine (← getEntry "score" (.float (.finite (1 / 2))) parsed)
  let score := clampFloat score
  let hallucinated ← getEntry "hallucinated" .null parsed
  let reason ← getEntry "reason" .null parsed
  return {
    name := .hallucination
    score := roundFloat 3 score
    status := statusFromScore score
    details := .obj [("hallucinated",hallucinated),("reason",reason)] }

/-- `HallucinationEvaluator.evaluate`. -/
def hallucination (llm : LLM) (turn : TurnEvaluationInput) : Except EvaluationError EvaluationMetric :=
  if strip turn.assistantResponse = "" then
    .ok {
      name := .hallucination
      score := .finite 0
      status := .failed
      details := .obj [("reason",.str "empty response")] }
  else
    match llm (judgePrompt turn) engine.settings.judgeModel with
    | .error e =>
      .ok {
        name := .hallucination
        score := .finite (1 / 2)
        status := .warning
        details := .obj [("reason",.str "judge unavailable"),("error",.str e)] }
    | .ok parts => judged engine (String.join parts)

/-- The judge, where one is configured. -/
def judge : Option LLM := if engine.settings.hallucinationEnabled then engine.llm else none

structure EvaluationRun where
  userTranscript : String
  assistantResponse : String
  overallScore : PyFloat
  overallStatus : EvaluationStatus
  metrics : List EvaluationMetric

def overallStatus (metrics : List EvaluationMetric) : EvaluationStatus :=
  if metrics.any (·.status = .failed) then .failed
  else if metrics.any (·.status = .warning) then .warning
  else .passed

def saveRun (run : EvaluationRun) : Except EvaluationError EvaluationRun :=
  if run.metrics.all (engine.storable ·.details) then .ok run else .error .store

def measure (turn : TurnEvaluationInput) : Except EvaluationError (List EvaluationMetric) :=
  (evaluators engine.settings).mapM fun evaluate => evaluate turn

/-- The evaluators' metrics, with the judge's last. -/
def allMetrics (turn : TurnEvaluationInput) : Except EvaluationError (List EvaluationMetric) := do
  let measured ← measure engine turn
  match judge engine with
  | none => .ok measured
  | some llm =>
    let metric ← hallucination engine llm turn
    return measured ++ [metric]

def runOf (turn : TurnEvaluationInput) (metrics : List EvaluationMetric) : EvaluationRun where
  userTranscript := turn.userTranscript
  assistantResponse := turn.assistantResponse
  overallScore :=
    roundFloat 3 (PyFloat.scale (1 / metrics.length)
      (metrics.foldl (fun total metric => total.add metric.score) (.finite 0)))
  overallStatus := overallStatus metrics
  metrics := metrics

def evaluateTurn (turn : TurnEvaluationInput) : Except EvaluationError (Option EvaluationRun) :=
  if !engine.settings.evaluationEnabled then .ok none
  else do
    let metrics ← allMetrics engine turn
    let run ← saveRun engine (runOf turn metrics)
    return some run

end engine
end VoxForge.Evaluation
