import VoxForge.Outcomes.Dashboard

/-! `AlertService.get_alerts`: the outcome, evaluation and latency alerts of an organisation,
and when the outcome alerts are about the days that were asked for. -/
namespace VoxForge.Outcomes
open Foundation VoxForge.Core Evaluation

structure AlertThresholds where
  taskSuccessMin : ℚ := 8 / 10
  escalationMax : ℚ := 35 / 100
  qualityMin : ℚ := 75 / 100
  e2eLatencyMaxMs : ℚ := 2000
  failedEvaluationMaxRate : ℚ := 2 / 10
  deriving DecidableEq, Repr

inductive Severity where
  | warning | critical
  deriving DecidableEq, Repr

inductive AlertCode where
  | taskSuccessRegression | escalationSpike | qualityRegression | failedEvaluationRate | latencyRegression
  deriving DecidableEq, Repr

structure AlertItem where
  code : AlertCode
  severity : Severity
  metric : String
  observed : ℚ
  threshold : ℚ
  message : String
  deriving DecidableEq, Repr

structure AlertSummary where
  activeCount : Nat
  criticalCount : Nat
  warningCount : Nat
  thresholds : AlertThresholds
  alerts : List AlertItem
  deriving DecidableEq, Repr

/-- What the alerts read of the evaluation summary. -/
structure EvaluationSummary where
  totalRuns : Nat
  avgScore : Option ℚ
  failed : Nat
  deriving DecidableEq, Repr

structure LatencyBucket where
  metricName : String
  avgMs : ℚ
  deriving DecidableEq, Repr

/-- The format `.{digits}f`. -/
def fixed (digits : Nat) (q : ℚ) : String :=
  let n := (roundHalfEven (|q| * 10 ^ digits)).toNat
  let sign := if q < 0 then "-" else ""
  if digits = 0 then sign ++ toString n
  else sign ++ toString (n / 10 ^ digits) ++ "." ++ padded digits (n % 10 ^ digits)

/-- The format `.0%`. -/
def percent (q : ℚ) : String := fixed 0 (q * 100) ++ "%"

namespace AlertService

def alert (code : AlertCode) (severity : Severity) (metric : String) (observed threshold : ℚ) (message : String) :
    AlertItem :=
  { code, severity, metric, observed := roundTo 4 observed, threshold := roundTo 4 threshold, message }

def outcomeAlerts (outcomes : OutcomeSummary) (thresholds : AlertThresholds) : List AlertItem :=
  if outcomes.totalSessions = 0 then []
  else
    (if outcomes.taskSuccessRate < thresholds.taskSuccessMin then
      let severe := outcomes.taskSuccessRate < thresholds.taskSuccessMin * (85 / 100)
      [alert .taskSuccessRegression (if severe then .critical else .warning) "task_success_rate"
        outcomes.taskSuccessRate thresholds.taskSuccessMin
        ("Task success rate fell below template threshold (" ++ percent outcomes.taskSuccessRate ++ " < " ++
          percent thresholds.taskSuccessMin ++ ").")]
    else []) ++
    (if thresholds.escalationMax < outcomes.escalationRate then
      [alert .escalationSpike .warning "escalation_rate" outcomes.escalationRate thresholds.escalationMax
        ("Escalation rate exceeded threshold (" ++ percent outcomes.escalationRate ++ " > " ++
          percent thresholds.escalationMax ++ ").")]
    else [])

def evaluationAlerts (evals : EvaluationSummary) (thresholds : AlertThresholds) : List AlertItem :=
  if evals.totalRuns = 0 then []
  else
    let avgScore := evals.avgScore.getD 0
    let failedRate : ℚ := evals.failed / evals.totalRuns
    (if avgScore < thresholds.qualityMin then
      let severe := avgScore < thresholds.qualityMin * (85 / 100)
      [alert .qualityRegression (if severe then .critical else .warning) "avg_evaluation_score"
        avgScore thresholds.qualityMin
        ("Average evaluation score dropped below quality floor (" ++ fixed 2 avgScore ++ " < " ++
          fixed 2 thresholds.qualityMin ++ ").")]
    else []) ++
    (if thresholds.failedEvaluationMaxRate < failedRate then
      [alert .failedEvaluationRate .warning "failed_evaluation_rate" failedRate thresholds.failedEvaluationMaxRate
        ("Failed evaluation rate is elevated (" ++ percent failedRate ++ " > " ++
          percent thresholds.failedEvaluationMaxRate ++ ").")]
    else [])

def latencyAlerts (latency : List LatencyBucket) (thresholds : AlertThresholds) : List AlertItem :=
  match latency.find? (·.metricName = "e2e_ms") with
  | none => []
  | some e2e =>
    if e2e.avgMs ≤ thresholds.e2eLatencyMaxMs then []
    else
      let severe := thresholds.e2eLatencyMaxMs * (15 / 10) < e2e.avgMs
      [alert .latencyRegression (if severe then .critical else .warning) "avg_e2e_latency_ms"
        e2e.avgMs thresholds.e2eLatencyMaxMs
        ("Average E2E latency exceeds target (" ++ fixed 0 e2e.avgMs ++ "ms > " ++
          fixed 0 thresholds.e2eLatencyMaxMs ++ "ms).")]

def alertSummary (thresholds : AlertThresholds) (alerts : List AlertItem) : AlertSummary where
  activeCount := alerts.length
  criticalCount := alerts.countP (·.severity = .critical)
  warningCount := alerts.countP (·.severity = .warning)
  thresholds
  alerts

/-- `get_alerts`, with the thresholds it resolves and the other summaries it reads. -/
def getAlerts (byCount : ByIntentCount) (now : Time) (days : Nat) (orgId : OrgId) (table : KpiTable)
    (thresholds : AlertThresholds) (evals : EvaluationSummary) (latency : List LatencyBucket) :
    Except OverflowError AlertSummary := do
  let outcomes ← DashboardRepository.getOutcomeSummary byCount now days orgId table
  return alertSummary thresholds (outcomeAlerts outcomes thresholds ++ evaluationAlerts evals thresholds ++
    latencyAlerts latency thresholds)

/-- Every active alert is critical or a warning. -/
theorem alertSummary_counts (thresholds : AlertThresholds) (alerts : List AlertItem) :
    (alertSummary thresholds alerts).activeCount =
      (alertSummary thresholds alerts).criticalCount + (alertSummary thresholds alerts).warningCount := by
  change alerts.length = alerts.countP _ + alerts.countP _
  induction alerts with
  | nil => rfl
  | cons item rest ih =>
    rw [List.length_cons,List.countP_cons,List.countP_cons,ih]
    cases item.severity <;> simp <;> omega

section window
open DashboardRepository
variable (byCount : ByIntentCount) (now : Time) (orgId : OrgId) (table : KpiTable)
  (thresholds : AlertThresholds) (evals : EvaluationSummary) (latency : List LatencyBucket)

/-- What is raised for an organisation with rows is raised for all of them. -/
theorem getAlerts_eq {days : Nat} {start : Time} (hrows : rowsOfOrg orgId table ≠ [])
    (hstart : since now days = .ok start) :
    getAlerts byCount now days orgId table thresholds evals latency =
      .ok (alertSummary thresholds
        (outcomeAlerts (summaryOf byCount (rowsOfOrg orgId table) []) thresholds ++
          evaluationAlerts evals thresholds ++ latencyAlerts latency thresholds)) := by
  rw [getAlerts,getOutcomeSummary_eq,if_neg hrows,getOutcomeTrend,trendBuckets,hstart]
  rfl

/-- The number of days asked for has no part in the alerts. -/
theorem getAlerts_days {days days' : Nat} {start start' : Time} (hstart : since now days = .ok start)
    (hstart' : since now days' = .ok start') :
    getAlerts byCount now days orgId table thresholds evals latency =
      getAlerts byCount now days' orgId table thresholds evals latency := by
  by_cases hrows : rowsOfOrg orgId table = []
  · simp only [getAlerts,getOutcomeSummary_eq,if_pos hrows]
  · rw [getAlerts_eq byCount now orgId table thresholds evals latency hrows hstart,
      getAlerts_eq byCount now orgId table thresholds evals latency hrows hstart']

end window

/-- The table without the rows of an organisation that are older than the last days. -/
def withoutOlder (now : Time) (days : Nat) (orgId : OrgId) (table : KpiTable) : KpiTable :=
  table.filter fun row => !(row.orgId = orgId && row.values.recordedAt + days * dayLength < now)

/-- Summary and trend are of the window, and what is older makes no difference to the alerts. -/
structure LooksAtWindow (byCount : ByIntentCount) (now : Time) (days : Nat) (orgId : OrgId) (table : KpiTable) :
    Prop where
  summary : ∃ summary, DashboardRepository.getOutcomeSummary byCount now days orgId table = .ok summary ∧
    DashboardRepository.OfWindow now days orgId table summary
  alerts : ∀ thresholds evals latency,
    getAlerts byCount now days orgId table thresholds evals latency =
      getAlerts byCount now days orgId (withoutOlder now days orgId table) thresholds evals latency

theorem withoutOlder_eq_self {now : Time} {days : Nat} {orgId : OrgId} {table : KpiTable}
    (h : ∀ row ∈ rowsOfOrg orgId table, now ≤ row.values.recordedAt + days * dayLength) :
    withoutOlder now days orgId table = table := by
  refine List.filter_eq_self.mpr fun row hrow => ?_
  by_cases horg : row.orgId = orgId
  · have hrecent := h row (List.mem_filter.mpr ⟨hrow,decide_eq_true horg⟩)
    simp [horg,hrecent]
  · simp [horg]

/-- An organisation's outcomes are those of the last days if it has none, or if none is
older and the last days begin on a date. -/
theorem outcome_window_iff (byCount : ByIntentCount) (now : Time) (days : Nat) (orgId : OrgId) (table : KpiTable) :
    LooksAtWindow byCount now days orgId table ↔
      rowsOfOrg orgId table = [] ∨ days ≤ 999999999 ∧ days * dayLength ≤ now ∧
        ∀ row ∈ rowsOfOrg orgId table, now ≤ row.values.recordedAt + days * dayLength := by
  constructor
  · exact fun h => DashboardRepository.getOutcomeSummary_ofWindow_iff.mp h.summary
  · intro h
    have hrecent : ∀ row ∈ rowsOfOrg orgId table, now ≤ row.values.recordedAt + days * dayLength := by
      rcases h with hnone | ⟨-,-,hrecent⟩
      · simp [hnone]
      · exact hrecent
    refine ⟨DashboardRepository.getOutcomeSummary_ofWindow_iff.mpr h,fun thresholds evals latency => ?_⟩
    rw [withoutOlder_eq_self hrecent]

/-- Intents in the order of their first rows where their counts are equal. -/
def byFirst : ByIntentCount where
  order rows := (rows.map (·.values.intent)).dedup.mergeSort (intentCount rows · ≥ intentCount rows ·)
  perm _ := List.mergeSort_perm ..
  ranked rows := ranked_mergeSort (intentCount rows) _

/-- 25 April 2024. -/
def today : Time := 739000 * dayLength

/-- A call that succeeded today, and one of forty days ago that did not. -/
def oldFailure : KpiTable :=
  [⟨1,1,⟨"billing",true,false,30,today⟩⟩,⟨2,1,⟨"refund",false,false,40,today - 40 * dayLength⟩⟩]

def codes (result : Except OverflowError AlertSummary) : Option (List AlertCode) :=
  result.toOption.map fun summary => summary.alerts.map (·.code)

/-- The alert of the last seven days is about the call of forty days ago. -/
theorem old_failure_alerts :
    ¬ LooksAtWindow byFirst today 7 1 oldFailure ∧
      codes (getAlerts byFirst today 7 1 oldFailure {} ⟨0,none,0⟩ []) = some [.taskSuccessRegression] ∧
      codes (getAlerts byFirst today 7 1 (withoutOlder today 7 1 oldFailure) {} ⟨0,none,0⟩ []) = some [] := by
  have hstart : since today 7 = .ok (today - 7 * dayLength) := by decide +kernel
  have halerts : codes (getAlerts byFirst today 7 1 oldFailure {} ⟨0,none,0⟩ []) =
      some [.taskSuccessRegression] := by
    rw [getAlerts_eq _ _ _ _ _ _ _ (by decide +kernel) hstart]
    decide +kernel
  have hwithout : codes (getAlerts byFirst today 7 1 (withoutOlder today 7 1 oldFailure) {} ⟨0,none,0⟩ []) =
      some [] := by
    rw [getAlerts_eq _ _ _ _ _ _ _ (by decide +kernel) hstart]
    decide +kernel
  refine ⟨fun h => ?_,halerts,hwithout⟩
  rw [h.alerts,hwithout] at halerts
  cases halerts

end AlertService
end VoxForge.Outcomes
