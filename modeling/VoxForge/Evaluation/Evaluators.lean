import Mathlib.Algebra.Order.Ring.Rat
import Mathlib.Data.Rat.Floor
import Mathlib.Tactic.Linarith
import Mathlib.Tactic.Positivity
import VoxForge.Core.JsonDecoder

/-! What a turn is scored by: latency, task completion, tool accuracy, conversation quality and
cost. Every score is a number from 0 to 1. -/
namespace VoxForge.Evaluation
open Core Foundation

inductive EvaluationStatus where
  | passed | warning | failed
  deriving DecidableEq, Repr

inductive MetricName where
  | latency | taskCompletion | toolAccuracy | conversationQuality | cost | hallucination
  deriving DecidableEq, Repr

structure EvaluationMetric where
  name : MetricName
  score : PyFloat
  value : Option ℚ := none
  unit : Option String := none
  status : EvaluationStatus
  details : Json

/-- The tool calls by their status; of an estimate zero means that there is none. -/
structure TurnEvaluationInput where
  userTranscript : String
  assistantResponse : String
  sttMs : Option ℚ := none
  llmFirstTokenMs : Option ℚ := none
  ttsFirstByteMs : Option ℚ := none
  e2eMs : Option ℚ := none
  toolStatuses : List String := []
  interrupted : Bool := false
  estimatedInputTokens : Nat := 0
  estimatedOutputTokens : Nat := 0
  contextSnippets : List String := []

structure Settings where
  evaluationEnabled : Bool := true
  e2eTargetMs : ℚ := 2000
  llmInputCostPer1k : ℚ := 15 / 100000
  llmOutputCostPer1k : ℚ := 6 / 10000
  turnCostBudgetUsd : ℚ := 1 / 100
  hallucinationEnabled : Bool := true
  judgeModel : String := "gpt-4.1-mini"

inductive EvaluationError where
  | zeroDivision
  | loads (e : LoadsError)
  | attributeError
  | coercion (e : CoercionError)
  | store
  deriving DecidableEq, Repr

/-- The nearest integer, of two the even one. -/
def roundHalfEven (q : ℚ) : Int :=
  if q - q.floor < 1 / 2 then q.floor
  else if 1 / 2 < q - q.floor then q.floor + 1
  else if q.floor % 2 = 0 then q.floor
  else q.floor + 1

/-- `round(q, digits)`, of exact numbers where the code has doubles. -/
def roundTo (digits : Nat) (q : ℚ) : ℚ := roundHalfEven (q * 10 ^ digits) / 10 ^ digits

/-- `max(0.0, min(1.0, q))`. -/
def clamp (q : ℚ) : ℚ := max 0 (min 1 q)

def divide (p q : ℚ) : Except EvaluationError ℚ := if q = 0 then .error .zeroDivision else .ok (p / q)

def atLeast (bound : ℚ) : PyFloat → Bool
  | .finite q => bound ≤ q
  | .infinite negative => !negative
  | .nan => false

def statusFromScore (score : PyFloat) : EvaluationStatus :=
  if atLeast (8 / 10) score then .passed
  else if atLeast (5 / 10) score then .warning
  else .failed

def numberOrNull : Option ℚ → Json
  | some q => .float (.finite q)
  | none => .null

variable (settings : Settings) (turn : TurnEvaluationInput)

def latency : Except EvaluationError EvaluationMetric :=
  match turn.e2eMs with
  | none => .ok {
      name := .latency
      score := .finite 0
      status := .failed
      details := .obj [("reason",.str "no e2e measurement")] }
  | some e2e => do
    let late ← divide (e2e - settings.e2eTargetMs) settings.e2eTargetMs
    let score := if e2e ≤ settings.e2eTargetMs then 1 else clamp (1 - late)
    return {
      name := .latency
      score := .finite (roundTo 3 score)
      value := some e2e
      unit := some "ms"
      status := statusFromScore (.finite score)
      details := .obj [("stt_ms",numberOrNull turn.sttMs),
        ("llm_first_token_ms",numberOrNull turn.llmFirstTokenMs),
        ("tts_first_byte_ms",numberOrNull turn.ttsFirstByteMs),
        ("target_ms",.float (.finite settings.e2eTargetMs))] }

def taskCompletion : Except EvaluationError EvaluationMetric :=
  let score := if turn.interrupted then 3 / 10 else if strip turn.assistantResponse ≠ "" then 1 else 0
  .ok {
    name := .taskCompletion
    score := .finite score
    status := statusFromScore (.finite score)
    details := .obj [("interrupted",.bool turn.interrupted)] }

def toolAccuracy : Except EvaluationError EvaluationMetric :=
  let total := turn.toolStatuses.length
  let successes := turn.toolStatuses.countP (· = "success")
  if turn.toolStatuses = [] then
    .ok {
      name := .toolAccuracy
      score := .finite 1
      status := .passed
      details := .obj [("tool_calls",.int 0)] }
  else
    let score : ℚ := successes / total
    .ok {
      name := .toolAccuracy
      score := .finite (roundTo 3 score)
      value := some total
      unit := some "calls"
      status := statusFromScore (.finite score)
      details := .obj [("successes",.int successes),("total",.int total)] }

def conversationQuality : Except EvaluationError EvaluationMetric :=
  let length := (strip turn.assistantResponse).length
  let score :=
    if length = 0 then 0 else if length < 5 then 4 / 10 else if 2000 < length then 6 / 10 else 1
  .ok {
    name := .conversationQuality
    score := .finite score
    value := some length
    unit := some "chars"
    status := statusFromScore (.finite score)
    details := .obj [("response_length",.int length)] }

/-- `max(1, len(text.split()))`. -/
def estimateTokens (text : String) : Nat :=
  max 1 ((text.toList.splitOnP isSpace).countP (· ≠ []))

/-- `count or estimate`. -/
def tokensOr (count : Nat) (text : String) : Nat := if count ≠ 0 then count else estimateTokens text

def cost : Except EvaluationError EvaluationMetric := do
  let inputTokens := tokensOr turn.estimatedInputTokens turn.userTranscript
  let outputTokens := tokensOr turn.estimatedOutputTokens turn.assistantResponse
  let costUsd := inputTokens / 1000 * settings.llmInputCostPer1k +
    outputTokens / 1000 * settings.llmOutputCostPer1k
  let share ← divide costUsd settings.turnCostBudgetUsd
  let score := clamp (1 - share)
  return {
    name := .cost
    score := .finite (roundTo 3 score)
    value := some (roundTo 6 costUsd)
    unit := some "usd"
    status := statusFromScore (.finite score)
    details := .obj [("input_tokens",.int inputTokens),("output_tokens",.int outputTokens),
      ("budget_usd",.float (.finite settings.turnCostBudgetUsd))] }

def evaluators : List (TurnEvaluationInput → Except EvaluationError EvaluationMetric) :=
  [latency settings,taskCompletion,toolAccuracy,conversationQuality,cost settings]

/-! Scores -/

/-- A number from 0 to 1. -/
def InUnit (score : PyFloat) : Prop := ∃ q, score = .finite q ∧ 0 ≤ q ∧ q ≤ 1

theorem le_roundHalfEven {n : Int} {q : ℚ} (h : n ≤ q) : n ≤ roundHalfEven q := by
  have hfloor : n ≤ q.floor := Rat.le_floor_iff.mpr h
  unfold roundHalfEven
  split_ifs <;> omega

theorem roundHalfEven_le {n : Int} {q : ℚ} (h : q ≤ n) : roundHalfEven q ≤ n := by
  have hfloor : (q.floor : ℚ) ≤ q := Rat.floor_le q
  have hcast : (q.floor : ℚ) ≤ n := hfloor.trans h
  have hle : q.floor ≤ n := by exact_mod_cast hcast
  rcases hle.lt_or_eq with hlt | heq
  · unfold roundHalfEven
    split_ifs <;> omega
  · have hzero : q - q.floor < 1 / 2 := by
      have hn : (q.floor : ℚ) = n := by exact_mod_cast heq
      rw [hn]
      linarith
    unfold roundHalfEven
    rw [if_pos hzero]
    exact hle

theorem inUnit_roundTo {digits : Nat} {q : ℚ} (h0 : 0 ≤ q) (h1 : q ≤ 1) : InUnit (.finite (roundTo digits q)) := by
  have hpos : (0 : ℚ) < 10 ^ digits := by positivity
  have hlow : (0 : Int) ≤ roundHalfEven (q * 10 ^ digits) := le_roundHalfEven (by simpa using by positivity)
  have hhigh : roundHalfEven (q * 10 ^ digits) ≤ ((10 ^ digits : Nat) : Int) :=
    roundHalfEven_le (by push_cast; nlinarith)
  refine ⟨_,rfl,?_,?_⟩
  · unfold roundTo
    positivity
  · unfold roundTo
    rw [div_le_one hpos]
    exact_mod_cast hhigh

theorem inUnit_clamp (digits : Nat) (q : ℚ) : InUnit (.finite (roundTo digits (clamp q))) :=
  inUnit_roundTo (le_max_left _ _) (max_le zero_le_one (min_le_left _ _))

theorem latency_inUnit {metric : EvaluationMetric} (h : latency settings turn = .ok metric) : InUnit metric.score := by
  unfold latency at h
  split at h
  · obtain rfl := Except.ok.inj h
    exact ⟨0,rfl,le_rfl,zero_le_one⟩
  · next e2e _ =>
    obtain ⟨late,-,hmetric⟩ := bind_eq_ok.mp h
    obtain rfl := Except.ok.inj hmetric
    dsimp only
    split
    · exact inUnit_roundTo zero_le_one le_rfl
    · exact inUnit_clamp _ _

theorem cost_inUnit {metric : EvaluationMetric} (h : cost settings turn = .ok metric) : InUnit metric.score := by
  obtain ⟨share,-,hmetric⟩ := bind_eq_ok.mp h
  obtain rfl := Except.ok.inj hmetric
  exact inUnit_clamp _ _

theorem toolAccuracy_inUnit {metric : EvaluationMetric} (h : toolAccuracy turn = .ok metric) :
    InUnit metric.score := by
  unfold toolAccuracy at h
  dsimp only at h
  split at h
  · obtain rfl := Except.ok.inj h
    exact ⟨1,rfl,zero_le_one,le_rfl⟩
  · obtain rfl := Except.ok.inj h
    refine inUnit_roundTo (by positivity) (div_le_one_of_le₀ ?_ (by positivity))
    exact_mod_cast List.countP_le_length

theorem evaluators_inUnit {evaluate : TurnEvaluationInput → Except EvaluationError EvaluationMetric}
    (hmem : evaluate ∈ evaluators settings) {metric : EvaluationMetric} (h : evaluate turn = .ok metric) :
    InUnit metric.score := by
  simp only [evaluators,List.mem_cons,List.not_mem_nil,or_false] at hmem
  rcases hmem with rfl | rfl | rfl | rfl | rfl
  · exact latency_inUnit settings turn h
  · obtain rfl := Except.ok.inj h
    refine ⟨_,rfl,?_⟩
    split_ifs <;> norm_num
  · exact toolAccuracy_inUnit turn h
  · obtain rfl := Except.ok.inj h
    refine ⟨_,rfl,?_⟩
    split_ifs <;> norm_num
  · exact cost_inUnit settings turn h

end VoxForge.Evaluation
