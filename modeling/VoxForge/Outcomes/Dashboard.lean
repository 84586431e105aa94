import Mathlib.Algebra.Order.Ring.Rat
import Mathlib.Order.Lattice
import VoxForge.Evaluation.Evaluators
import VoxForge.Foundation.Fallible
import VoxForge.Foundation.Ranking
import VoxForge.Foundation.Tally
import VoxForge.Outcomes.KpiTable

/-! `DashboardRepository.get_outcome_summary`: what it counts over all rows of an
organisation, and the trend over those of the last days. -/
namespace VoxForge.Outcomes
open Foundation Core Evaluation

/-! Dates: times are microseconds from the start of year 1 in UTC. -/

def dayLength : Nat := 24 * 60 * 60 * 1000000

/-- `_DAYS_BEFORE_MONTH`, outside leap years. -/
def daysBeforeMonth (month : Nat) : Nat :=
  [0,0,31,59,90,120,151,181,212,243,273,304,334].getD month 0

/-- The year, month and day of a time: `_ord2ymd` of the standard library. -/
def dateOf (t : Time) : Nat × Nat × Nat :=
  let n := t / dayLength
  let n400 := n / 146097
  let n := n % 146097
  let n100 := n / 36524
  let n := n % 36524
  let n4 := n / 1461
  let n := n % 1461
  let n1 := n / 365
  let n := n % 365
  let year := n400 * 400 + 1 + n100 * 100 + n4 * 4 + n1
  if n1 = 4 ∨ n100 = 4 then (year - 1,12,31)
  else
    let leapyear := n1 = 3 ∧ (n4 ≠ 24 ∨ n100 = 3)
    let preceding (month : Nat) := daysBeforeMonth month + if 2 < month ∧ leapyear then 1 else 0
    let month := (n + 50) / 32
    let month := if n < preceding month then month - 1 else month
    (year,month,n - preceding month + 1)

def padded (width n : Nat) : String :=
  String.ofList (List.replicate (width - (toString n).length) '0') ++ toString n

/-- `recorded_at.date().isoformat()`. -/
def isoformat (t : Time) : String :=
  let (year,month,day) := dateOf t
  padded 4 year ++ "-" ++ padded 2 month ++ "-" ++ padded 2 day

/-- `OverflowError` with its message. -/
structure OverflowError where
  message : String
  deriving DecidableEq, Repr

/-- `now - timedelta(days=days)`. -/
def since (now : Time) (days : Nat) : Except OverflowError Time :=
  if 999999999 < days then
    .error ⟨"days=" ++ toString days ++ "; must have magnitude <= 999999999"⟩
  else if now < days * dayLength then .error ⟨"date value out of range"⟩
  else .ok (now - days * dayLength)

/-! The summary -/

structure OutcomeTrendPoint where
  day : String
  totalSessions : Nat
  taskSuccessRate : ℚ
  escalationRate : ℚ
  deriving DecidableEq, Repr

structure OutcomeSummary where
  totalSessions : Nat := 0
  taskSuccessRate : ℚ := 0
  escalationRate : ℚ := 0
  avgResolutionTimeSeconds : ℚ := 0
  topIntents : List String := []
  trend : List OutcomeTrendPoint := []
  deriving DecidableEq, Repr

def intentCount (rows : KpiTable) (intent : String) : Nat := rows.countP (·.values.intent = intent)

/-- `GROUP BY intent ORDER BY count(*) DESC`, with ties as the database has them. -/
structure ByIntentCount where
  order : KpiTable → List String
  perm : ∀ rows, (order rows).Perm (rows.map (·.values.intent)).dedup
  ranked : ∀ rows, Ranked (intentCount rows) (order rows)

structure Bucket where
  total : Nat := 0
  success : Nat := 0
  escalation : Nat := 0
  deriving DecidableEq, Repr

/-- What the loop over the rows adds to the bucket of a row's day. -/
def Bucket.count (bucket : Bucket) (row : OutcomeKpi) : Bucket where
  total := bucket.total + 1
  success := bucket.success + if row.values.taskSuccess then 1 else 0
  escalation := bucket.escalation + if row.values.escalation then 1 else 0

def successes (rows : KpiTable) : Nat := rows.countP (·.values.taskSuccess)

def escalations (rows : KpiTable) : Nat := rows.countP (·.values.escalation)

/-- `round(count / total, 3)`. -/
def rate (count total : Nat) : ℚ := roundTo 3 (count / total)

/-- `func.avg`, which is null over no rows. -/
def avgResolution (rows : KpiTable) : Option ℚ :=
  if rows = [] then none else some ((rows.map (·.values.resolutionTimeSeconds)).sum / rows.length)

def rowsOfOrg (orgId : OrgId) (table : KpiTable) : KpiTable := table.filter (·.orgId = orgId)

namespace DashboardRepository

def trendRows (start : Time) (orgId : OrgId) (table : KpiTable) : KpiTable :=
  (table.filter fun row => row.orgId = orgId && start ≤ row.values.recordedAt).mergeSort
    (·.values.recordedAt ≤ ·.values.recordedAt)

def buckets (rows : KpiTable) : Dict String Bucket := tally (isoformat ·.values.recordedAt) Bucket.count {} rows

def trendPoint (item : String × Bucket) : OutcomeTrendPoint where
  day := item.1
  totalSessions := item.2.total
  taskSuccessRate := rate item.2.success item.2.total
  escalationRate := rate item.2.escalation item.2.total

/-- The counts of each day of the last days. -/
def trendBuckets (now : Time) (days : Nat) (orgId : OrgId) (table : KpiTable) :
    Except OverflowError (Dict String Bucket) := do
  let start ← since now days
  return buckets (trendRows start orgId table)

def getOutcomeTrend (now : Time) (days : Nat) (orgId : OrgId) (table : KpiTable) :
    Except OverflowError (List OutcomeTrendPoint) := do
  let buckets ← trendBuckets now days orgId table
  return (buckets.entries.mergeSort (·.1 ≤ ·.1)).map trendPoint

def successCount (orgId : OrgId) (table : KpiTable) : Nat :=
  table.countP fun row => row.orgId = orgId && row.values.taskSuccess

def escalationCount (orgId : OrgId) (table : KpiTable) : Nat :=
  table.countP fun row => row.orgId = orgId && row.values.escalation

def getOutcomeSummary (byCount : ByIntentCount) (now : Time) (days : Nat) (orgId : OrgId) (table : KpiTable) :
    Except OverflowError OutcomeSummary :=
  let total := table.countP (·.orgId = orgId)
  if total = 0 then .ok {}
  else do
    let average := avgResolution (rowsOfOrg orgId table)
    let topIntents := (byCount.order (rowsOfOrg orgId table)).take 3
    let trend ← getOutcomeTrend now days orgId table
    return {
      totalSessions := total
      taskSuccessRate := rate (successCount orgId table) total
      escalationRate := rate (escalationCount orgId table) total
      avgResolutionTimeSeconds := roundTo 2 (average.getD 0)
      topIntents
      trend }

/-! The trend -/

@[simp] theorem foldl_count (bucket : Bucket) (rows : KpiTable) :
    rows.foldl Bucket.count bucket =
      ⟨bucket.total + rows.length,bucket.success + successes rows,bucket.escalation + escalations rows⟩ := by
  induction rows generalizing bucket with
  | nil => rfl
  | cons row rest ih =>
    rw [List.foldl_cons,ih]
    simp only [Bucket.count,successes,escalations,List.length_cons,List.countP_cons,Bucket.mk.injEq]
    refine ⟨?_,?_,?_⟩ <;> omega

/-- Each point of the trend is about the rows of its day, of which there are some. -/
theorem trend_point {rows : KpiTable} {day : String} {bucket : Bucket} (h : (day,bucket) ∈ (buckets rows).entries) :
    let ofDay := rows.filter (isoformat ·.values.recordedAt = day)
    0 < ofDay.length ∧ bucket = ⟨ofDay.length,successes ofDay,escalations ofDay⟩ := by
  rw [← Dict.get?_eq_some_iff,buckets,get?_tally] at h
  split_ifs at h with hday
  obtain ⟨row,hrow,hrowDay⟩ := List.mem_map.mp hday
  have hin : row ∈ rows.filter (isoformat ·.values.recordedAt = day) :=
    List.mem_filter.mpr ⟨hrow,decide_eq_true hrowDay⟩
  refine ⟨List.length_pos_of_mem hin,?_⟩
  simpa using (Option.some.inj h).symm

theorem sum_totals (rows : KpiTable) : ((buckets rows).values.map Bucket.total).sum = rows.length := by
  rw [buckets,sum_tally_countP Bucket.total (fun _ => true) rfl fun _ _ => rfl,List.countP_true]

theorem sum_successes (rows : KpiTable) : ((buckets rows).values.map Bucket.success).sum = successes rows := by
  rw [buckets,sum_tally_countP Bucket.success (fun row : OutcomeKpi => row.values.taskSuccess) rfl fun _ _ => rfl]
  rfl

/-- The rows that the trend is about, in whatever order they come. -/
theorem trendRows_perm (start : Time) (orgId : OrgId) (table : KpiTable) :
    (trendRows start orgId table).Perm
      (table.filter fun row => row.orgId = orgId && start ≤ row.values.recordedAt) :=
  List.mergeSort_perm ..

theorem trend_totals {now : Time} {days : Nat} {orgId : OrgId} {table : KpiTable}
    {trend : List OutcomeTrendPoint} (h : getOutcomeTrend now days orgId table = .ok trend) :
    ∃ start, since now days = .ok start ∧ (trend.map (·.totalSessions)).sum =
      (table.filter fun row => row.orgId = orgId && start ≤ row.values.recordedAt).length := by
  simp only [getOutcomeTrend,trendBuckets,bind_eq_ok] at h
  obtain ⟨_,⟨start,hstart,hbuckets⟩,htrend⟩ := h
  obtain rfl := Except.ok.inj hbuckets
  obtain rfl := Except.ok.inj htrend
  refine ⟨start,hstart,?_⟩
  have hsorted := List.mergeSort_perm (buckets (trendRows start orgId table)).entries (·.1 ≤ ·.1)
  rw [List.map_map]
  calc
    _ = ((buckets (trendRows start orgId table)).values.map Bucket.total).sum := by
      rw [Dict.values,List.map_map]
      exact (hsorted.map _).sum_eq
    _ = (trendRows start orgId table).length := sum_totals _
    _ = _ := (trendRows_perm start orgId table).length_eq

theorem trend_successes {now : Time} {days : Nat} {orgId : OrgId} {table : KpiTable} {counts : Dict String Bucket}
    (h : trendBuckets now days orgId table = .ok counts) :
    ∃ start, since now days = .ok start ∧ (counts.values.map Bucket.success).sum =
      successes (table.filter fun row => row.orgId = orgId && start ≤ row.values.recordedAt) := by
  simp only [trendBuckets,bind_eq_ok] at h
  obtain ⟨start,hstart,hbuckets⟩ := h
  obtain rfl := Except.ok.inj hbuckets
  exact ⟨start,hstart,(sum_successes _).trans ((trendRows_perm start orgId table).countP_eq _)⟩

/-! The window -/

/-- The rows of an organisation from the last days. -/
def windowRows (now : Time) (days : Nat) (orgId : OrgId) (table : KpiTable) : KpiTable :=
  table.filter fun row => row.orgId = orgId && now ≤ row.values.recordedAt + days * dayLength

/-- A summary that is about the rows of the window; rates of no rows are zero. -/
structure OfWindow (now : Time) (days : Nat) (orgId : OrgId) (table : KpiTable) (summary : OutcomeSummary) : Prop where
  total : summary.totalSessions = (windowRows now days orgId table).length
  successRate : summary.taskSuccessRate =
    rate (successes (windowRows now days orgId table)) (windowRows now days orgId table).length
  escalationRate : summary.escalationRate =
    rate (escalations (windowRows now days orgId table)) (windowRows now days orgId table).length
  topIntents : Best (intentCount (windowRows now days orgId table)) 3
    ((windowRows now days orgId table).map (·.values.intent)).dedup summary.topIntents
  trendTotals : summary.totalSessions = (summary.trend.map (·.totalSessions)).sum
  trendSuccesses : ∀ counts, trendBuckets now days orgId table = .ok counts →
    successCount orgId table = (counts.values.map Bucket.success).sum

theorem since_eq_ok {now start : Time} {days : Nat} :
    since now days = .ok start ↔
      days ≤ 999999999 ∧ days * dayLength ≤ now ∧ start = now - days * dayLength := by
  unfold since
  split_ifs with hdays hnow
  · simp [Nat.not_le.mpr hdays]
  · simp [Nat.not_le.mpr hnow]
  · simp [Nat.not_lt.mp hdays,Nat.not_lt.mp hnow,eq_comm]

/-- The trend's condition on the time is the window's. -/
theorem filter_start {now start : Time} {days : Nat} (h : since now days = .ok start) (orgId : OrgId)
    (table : KpiTable) :
    (table.filter fun row => row.orgId = orgId && start ≤ row.values.recordedAt) =
      windowRows now days orgId table := by
  obtain ⟨-,-,rfl⟩ := since_eq_ok.mp h
  simp only [windowRows,Nat.sub_le_iff_le_add]

theorem windowRows_eq (now : Time) (days : Nat) (orgId : OrgId) (table : KpiTable) :
    windowRows now days orgId table =
      (rowsOfOrg orgId table).filter fun row => now ≤ row.values.recordedAt + days * dayLength := by
  rw [rowsOfOrg,List.filter_filter,windowRows]
  simp only [Bool.and_comm]

theorem windowRows_eq_all {now : Time} {days : Nat} {orgId : OrgId} {table : KpiTable}
    (h : ∀ row ∈ rowsOfOrg orgId table, now ≤ row.values.recordedAt + days * dayLength) :
    windowRows now days orgId table = rowsOfOrg orgId table := by
  rw [windowRows_eq]
  exact List.filter_eq_self.mpr fun row hrow => decide_eq_true (h row hrow)

section summary
variable (byCount : ByIntentCount) (now : Time) (days : Nat) (orgId : OrgId) (table : KpiTable)

/-- The summary of an organisation's rows, whatever their times. -/
def summaryOf (rows : KpiTable) (trend : List OutcomeTrendPoint) : OutcomeSummary where
  totalSessions := rows.length
  taskSuccessRate := rate (successes rows) rows.length
  escalationRate := rate (escalations rows) rows.length
  avgResolutionTimeSeconds := roundTo 2 ((avgResolution rows).getD 0)
  topIntents := (byCount.order rows).take 3
  trend

theorem successCount_eq : successCount orgId table = successes (rowsOfOrg orgId table) := by
  simp only [successCount,successes,rowsOfOrg,List.countP_filter,Bool.and_comm]

theorem escalationCount_eq : escalationCount orgId table = escalations (rowsOfOrg orgId table) := by
  simp only [escalationCount,escalations,rowsOfOrg,List.countP_filter,Bool.and_comm]

theorem total_eq : table.countP (·.orgId = orgId) = (rowsOfOrg orgId table).length := List.countP_eq_length_filter

theorem getOutcomeSummary_eq :
    getOutcomeSummary byCount now days orgId table =
      if rowsOfOrg orgId table = [] then .ok {}
      else (getOutcomeTrend now days orgId table).map (summaryOf byCount (rowsOfOrg orgId table)) := by
  simp only [getOutcomeSummary,total_eq,successCount_eq,escalationCount_eq,List.length_eq_zero_iff]
  split_ifs with hnone
  · rfl
  · cases getOutcomeTrend now days orgId table <;> rfl

variable {byCount now days orgId table}

theorem ofWindow_of_recent {trend : List OutcomeTrendPoint} (htrend : getOutcomeTrend now days orgId table = .ok trend)
    (h : ∀ row ∈ rowsOfOrg orgId table, now ≤ row.values.recordedAt + days * dayLength) :
    OfWindow now days orgId table (summaryOf byCount (rowsOfOrg orgId table) trend) := by
  obtain ⟨start,hstart,htotals⟩ := trend_totals htrend
  rw [filter_start hstart,windowRows_eq_all h] at htotals
  have hwindow := windowRows_eq_all h
  exact {
    total := by rw [hwindow]; rfl
    successRate := by rw [hwindow]; rfl
    escalationRate := by rw [hwindow]; rfl
    topIntents := by
      rw [hwindow]
      exact (byCount.ranked _).best_take (byCount.perm _) 3
    trendTotals := htotals.symm
    trendSuccesses := fun counts hcounts => by
      obtain ⟨start,hstart,hsum⟩ := trend_successes hcounts
      rw [hsum,filter_start hstart,hwindow,successCount_eq] }

theorem ofWindow_nil (h : rowsOfOrg orgId table = []) : OfWindow now days orgId table {} := by
  have hwindow : windowRows now days orgId table = [] := by rw [windowRows_eq,h,List.filter_nil]
  have hrate : rate 0 0 = 0 := by decide +kernel
  exact {
    total := by rw [hwindow]; rfl
    successRate := by rw [hwindow]; exact hrate.symm
    escalationRate := by rw [hwindow]; exact hrate.symm
    topIntents := by
      rw [hwindow]
      exact ⟨.nil,rfl,[],.refl _,fun _ hin => nomatch hin⟩
    trendTotals := rfl
    trendSuccesses := fun counts hcounts => by
      obtain ⟨start,hstart,hsum⟩ := trend_successes hcounts
      rw [hsum,filter_start hstart,hwindow,successCount_eq,h] }

/-- The summary is the window's if there is nothing to sum up, or nothing is older than the
window and the window has a start. -/
theorem getOutcomeSummary_ofWindow_iff :
    (∃ summary, getOutcomeSummary byCount now days orgId table = .ok summary ∧
      OfWindow now days orgId table summary) ↔
    rowsOfOrg orgId table = [] ∨ days ≤ 999999999 ∧ days * dayLength ≤ now ∧
      ∀ row ∈ rowsOfOrg orgId table, now ≤ row.values.recordedAt + days * dayLength := by
  rw [getOutcomeSummary_eq]
  by_cases hnone : rowsOfOrg orgId table = []
  · rw [if_pos hnone]
    exact ⟨fun _ => .inl hnone,fun _ => ⟨{},rfl,ofWindow_nil hnone⟩⟩
  rw [if_neg hnone]
  constructor
  · rintro ⟨summary,hsummary,hlaw⟩
    obtain ⟨trend,htrend,rfl⟩ := map_eq_ok.mp hsummary
    obtain ⟨start,hstart,-⟩ := trend_totals htrend
    obtain ⟨hdays,hnow,-⟩ := since_eq_ok.mp hstart
    refine .inr ⟨hdays,hnow,fun row hrow => ?_⟩
    have htotal := hlaw.total
    rw [windowRows_eq] at htotal
    exact of_decide_eq_true (List.length_filter_eq_length_iff.mp htotal.symm row hrow)
  · rintro (h | ⟨hdays,hnow,hrecent⟩)
    · exact absurd h hnone
    · obtain ⟨trend,htrend⟩ : ∃ trend, getOutcomeTrend now days orgId table = .ok trend := by
        rw [getOutcomeTrend,trendBuckets,since_eq_ok.mpr ⟨hdays,hnow,rfl⟩]
        exact ⟨_,rfl⟩
      exact ⟨_,by rw [htrend]; rfl,ofWindow_of_recent htrend hrecent⟩

end summary

end DashboardRepository
end VoxForge.Outcomes
