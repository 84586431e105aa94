import VoxForge.Outcomes.Dashboard

/-! `DashboardRepository.get_recent_activity`: the latest rows of three tables, each cut to
the limit, merged and cut again. -/
namespace VoxForge.Outcomes
open Foundation Core Evaluation

/-! The rows -/

structure EvaluationRunModel where
  orgId : Option OrgId
  sessionId : Option SessionId
  overallScore : PyFloat
  overallStatus : String
  createdAt : Time

structure ToolCallModel where
  orgId : Option OrgId
  sessionId : Option SessionId
  toolName : String
  status : String
  createdAt : Time

structure VoiceSessionModel where
  id : SessionId
  orgId : Option OrgId
  status : String
  startedAt : Time

structure ActivityRows where
  evaluations : List EvaluationRunModel := []
  toolCalls : List ToolCallModel := []
  sessions : List VoiceSessionModel := []

/-! The items -/

inductive ActivityType where
  | evaluation | toolCall | session
  deriving DecidableEq, Repr

/-- The order in which the kinds are collected. -/
def ActivityType.rank : ActivityType → Nat
  | evaluation => 0
  | toolCall => 1
  | session => 2

structure ActivityItem where
  type : ActivityType
  timestamp : Time
  sessionId : Option SessionId
  summary : String
  status : String

section activity
variable (fixed : Nat → PyFloat → String)

def evaluationItem (run : EvaluationRunModel) : ActivityItem where
  type := .evaluation
  timestamp := run.createdAt
  sessionId := run.sessionId
  summary := "Score " ++ fixed 2 run.overallScore ++ " — " ++ run.overallStatus
  status := run.overallStatus

def toolCallItem (call : ToolCallModel) : ActivityItem where
  type := .toolCall
  timestamp := call.createdAt
  sessionId := call.sessionId
  summary := call.toolName ++ ": " ++ call.status
  status := call.status

def sessionItem (session : VoiceSessionModel) : ActivityItem where
  type := .session
  timestamp := session.startedAt
  sessionId := some session.id
  summary := "Session " ++ session.status
  status := session.status

/-! What the three queries select, before `ORDER BY` and `LIMIT`. -/

section selected
variable (rows : ActivityRows) (orgId : OrgId) (start : Time)

def ActivityRows.evaluationsSince : List EvaluationRunModel :=
  rows.evaluations.filter fun run => run.orgId = some orgId ∧ start ≤ run.createdAt

def ActivityRows.toolCallsSince : List ToolCallModel :=
  rows.toolCalls.filter fun call => call.orgId = some orgId ∧ start ≤ call.createdAt

def ActivityRows.sessionsSince : List VoiceSessionModel :=
  rows.sessions.filter fun session => session.orgId = some orgId ∧ start ≤ session.startedAt

/-- Everything that a look at the last days could show. -/
def ActivityRows.activity : List ActivityItem :=
  (rows.evaluationsSince orgId start).map (evaluationItem fixed) ++
    (rows.toolCallsSince orgId start).map toolCallItem ++ (rows.sessionsSince orgId start).map sessionItem

end selected

variable (database : Sorter)

def getRecentActivity (now : Time) (rows : ActivityRows) (orgId : OrgId) (limit : Nat) :
    Except OverflowError (List ActivityItem) := do
  let start ← since now 7
  let evals := database.latest (·.createdAt) limit (rows.evaluationsSince orgId start)
  let tools := database.latest (·.createdAt) limit (rows.toolCallsSince orgId start)
  let sessions := database.latest (·.startedAt) limit (rows.sessionsSince orgId start)
  let items := evals.map (evaluationItem fixed) ++ tools.map toolCallItem ++ sessions.map sessionItem
  return (items.mergeSort (·.timestamp ≥ ·.timestamp)).take limit

/-! What is shown -/

/-- An item is later, or of the same time and of no later kind. -/
def Precedes (a b : ActivityItem) : Prop :=
  b.timestamp < a.timestamp ∨ a.timestamp = b.timestamp ∧ a.type.rank ≤ b.type.rank

variable {fixed database}

theorem items_ranked (evals : List EvaluationRunModel) (tools : List ToolCallModel) (sessions : List VoiceSessionModel) :
    (evals.map (evaluationItem fixed) ++ tools.map toolCallItem ++ sessions.map sessionItem).Pairwise fun a b =>
      a.type.rank ≤ b.type.rank := by
  have hparts : evals.map (evaluationItem fixed) ++ tools.map toolCallItem ++ sessions.map sessionItem =
      [evals.map (evaluationItem fixed),tools.map toolCallItem,sessions.map sessionItem].flatten := by simp
  rw [hparts]
  refine (pairwise_flatten_rank (k := 0) fun part hpart item hitem => ?_).1
  simp only [List.zipIdx_cons,List.zipIdx_nil,List.mem_cons,List.not_mem_nil,or_false] at hpart
  rcases hpart with rfl | rfl | rfl
  · obtain ⟨row,-,rfl⟩ := List.mem_map.mp hitem
    rfl
  · obtain ⟨row,-,rfl⟩ := List.mem_map.mp hitem
    rfl
  · obtain ⟨row,-,rfl⟩ := List.mem_map.mp hitem
    rfl

theorem best_items {α : Type} {item : α → ActivityItem} {key : α → Time} (hkey : ∀ a, (item a).timestamp = key a)
    (n : Nat) (xs : List α) :
    Best ActivityItem.timestamp n (xs.map item) ((database.latest key n xs).map item) := by
  obtain rfl : (fun a => (item a).timestamp) = key := funext hkey
  exact (database.best_latest (fun a => (item a).timestamp) n xs).map

/-- Cutting each table to the limit first loses nothing: what is shown are the latest items of
all three tables since seven days ago, latest first, at one time in the order of the kinds. -/
theorem recent_activity_best (now : Time) (rows : ActivityRows) (orgId : OrgId) (limit : Nat)
    {items : List ActivityItem} (h : getRecentActivity fixed database now rows orgId limit = .ok items) :
    ∃ start, since now 7 = .ok start ∧
      Best ActivityItem.timestamp limit (rows.activity fixed orgId start) items ∧ items.Pairwise Precedes := by
  obtain ⟨start,hstart,h⟩ := bind_eq_ok.mp h
  obtain rfl := Except.ok.inj h
  refine ⟨start,hstart,?_,?_⟩
  · let parts : List (List ActivityItem × List ActivityItem) :=
      [((rows.evaluationsSince orgId start).map (evaluationItem fixed),
        (database.latest (·.createdAt) limit (rows.evaluationsSince orgId start)).map (evaluationItem fixed)),
       ((rows.toolCallsSince orgId start).map toolCallItem,
        (database.latest (·.createdAt) limit (rows.toolCallsSince orgId start)).map toolCallItem),
       ((rows.sessionsSince orgId start).map sessionItem,
        (database.latest (·.startedAt) limit (rows.sessionsSince orgId start)).map sessionItem)]
    have hbest : ∀ p ∈ parts, Best ActivityItem.timestamp limit p.1 p.2 := by
      intro p hp
      simp only [parts,List.mem_cons,List.not_mem_nil,or_false] at hp
      rcases hp with rfl | rfl | rfl
      · exact best_items (fun _ => rfl) limit _
      · exact best_items (fun _ => rfl) limit _
      · exact best_items (fun _ => rfl) limit _
    have hall : parts.flatMap Prod.fst = rows.activity fixed orgId start := by
      simp [parts,ActivityRows.activity]
    have hkept : parts.flatMap Prod.snd =
        (database.latest (·.createdAt) limit (rows.evaluationsSince orgId start)).map (evaluationItem fixed) ++
          (database.latest (·.createdAt) limit (rows.toolCallsSince orgId start)).map toolCallItem ++
          (database.latest (·.startedAt) limit (rows.sessionsSince orgId start)).map sessionItem := by
      simp [parts]
    rw [← hall,← hkept]
    exact Best.merge hbest (List.mergeSort_perm ..) (ranked_mergeSort ..)
  · have hstable := pairwise_mergeSort_stable (β := Timeᵒᵈ) ActivityItem.timestamp (@items_ranked fixed
      (database.latest (·.createdAt) limit (rows.evaluationsSince orgId start))
      (database.latest (·.createdAt) limit (rows.toolCallsSince orgId start))
      (database.latest (·.startedAt) limit (rows.sessionsSince orgId start)))
    exact hstable.sublist (List.take_sublist ..)

def echoCall (orgId : OrgId) (createdAt : Time) : ToolCallModel where
  orgId := some orgId
  sessionId := none
  toolName := "echo"
  status := "success"
  createdAt := createdAt

/-- Two calls of an organisation, one of them long ago, and one of another. -/
def recentRows : ActivityRows where
  toolCalls := [echoCall 1 (8 * dayLength),echoCall 2 (8 * dayLength),echoCall 1 0]
  sessions := [{ id := 7, orgId := some 1, status := "ended", startedAt := 2 * dayLength }]

theorem recentRows_best : ∃ items, getRecentActivity (fun _ _ => "1.00") .stable (8 * dayLength) recentRows 1 1 =
      .ok items ∧
    Best ActivityItem.timestamp 1 (recentRows.activity (fun _ _ => "1.00") 1 dayLength) items := by
  have hsince : since (8 * dayLength) 7 = .ok dayLength := rfl
  obtain ⟨start,hstart,hbest,-⟩ := @recent_activity_best (fun _ _ => "1.00") .stable
    (8 * dayLength) recentRows 1 1 _ rfl
  rw [hsince] at hstart
  obtain rfl := Except.ok.inj hstart
  exact ⟨_,rfl,hbest⟩

end activity
end VoxForge.Outcomes
