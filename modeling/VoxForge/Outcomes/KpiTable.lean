import Mathlib.Algebra.Order.Ring.Rat
import VoxForge.Core.Session
import VoxForge.Foundation.Transactions
import VoxForge.Outcomes.Extraction

/-! The table of outcome KPIs, with `OutcomeRepository.upsert_session_outcome` and
`record_outcome` as transactions: whatever runs beside them, a session has one row. -/
namespace VoxForge.Outcomes
open Foundation Core Prog

abbrev SessionId := Nat

structure OutcomeValues where
  intent : String
  taskSuccess : Bool
  escalation : Bool
  resolutionTimeSeconds : ℚ
  recordedAt : Time
  deriving DecidableEq, Repr

/-- `OutcomeKPIModel`; a row is addressed by its session. -/
structure OutcomeKpi where
  sessionId : SessionId
  orgId : OrgId
  values : OutcomeValues
  deriving DecidableEq, Repr

abbrev KpiTable := List OutcomeKpi

def rowsOf (sessionId : SessionId) (table : KpiTable) : KpiTable := table.filter (·.sessionId = sessionId)

/-- An update of a loaded row sets the columns whose values differ from those loaded. -/
def OutcomeValues.changed (loaded new current : OutcomeValues) : OutcomeValues where
  intent := if new.intent = loaded.intent then current.intent else new.intent
  taskSuccess := if new.taskSuccess = loaded.taskSuccess then current.taskSuccess else new.taskSuccess
  escalation := if new.escalation = loaded.escalation then current.escalation else new.escalation
  resolutionTimeSeconds :=
    if new.resolutionTimeSeconds = loaded.resolutionTimeSeconds then current.resolutionTimeSeconds
    else new.resolutionTimeSeconds
  recordedAt := if new.recordedAt = loaded.recordedAt then current.recordedAt else new.recordedAt

/-- With nobody between the two, the row gets all that is new. -/
theorem OutcomeValues.changed_current (current new : OutcomeValues) : changed current new current = new := by
  cases current with
  | mk intent taskSuccess escalation resolution recorded =>
    cases new with
    | mk intent' taskSuccess' escalation' resolution' recorded' =>
      simp only [changed,OutcomeValues.mk.injEq]
      refine ⟨?_,?_,?_,?_,?_⟩ <;> split <;> first | rfl | exact Eq.symm ‹_›

inductive KpiWrite where
  | insert (row : OutcomeKpi)
  | set (sessionId : SessionId) (values : OutcomeValues)
  deriving DecidableEq, Repr

def KpiWrite.apply (table : KpiTable) : KpiWrite → KpiTable
  | .insert row => table ++ [row]
  | .set sessionId values => table.map fun row => if row.sessionId = sessionId then { row with values } else row

/-- The entry of `uq_outcome_kpis_session` that a write keeps locked. -/
def KpiWrite.sessionId : KpiWrite → SessionId
  | .insert row => row.sessionId
  | .set sessionId _ => sessionId

inductive KpiErr where
  | runtime (message : String)
  /-- A loaded row is gone. -/
  | staleData
  | fault
  deriving DecidableEq, Repr

inductive KpiOp where
  | selectOutcome (sessionId : SessionId)
  | now
  | updateOutcome (loaded : OutcomeKpi) (values : OutcomeValues)
  /-- `INSERT … ON CONFLICT (session_id) DO UPDATE`. -/
  | upsertOutcome (row : OutcomeKpi)
  | getOutcome (sessionId : SessionId)
  deriving DecidableEq, Repr

abbrev KpiReply : KpiOp → Type
  | .selectOutcome _ | .getOutcome _ => Option OutcomeKpi
  | .now => Time
  | .updateOutcome _ _ | .upsertOutcome _ => Unit

abbrev KpiAction (α : Type) := Prog KpiOp KpiReply KpiErr α

def execute (o : KpiOp) : KpiAction (KpiReply o) := Prog.perform o

def row? (sessionId : SessionId) (table : KpiTable) : Option OutcomeKpi := table.find? (·.sessionId = sessionId)

/-- An operation at a time of the clock, on the table as its transaction sees it. -/
def perform (now : Time) (table : KpiTable) (_ : Unit) : (o : KpiOp) → Except KpiErr (KpiReply o) × List KpiWrite × Unit
  | .selectOutcome sessionId => (.ok (row? sessionId table),[],())
  | .now => (.ok now,[],())
  | .updateOutcome loaded values =>
    match row? loaded.sessionId table with
    | some row => (.ok (),[.set loaded.sessionId (loaded.values.changed values row.values)],())
    | none => (.error .staleData,[],())
  | .upsertOutcome row =>
    match row? row.sessionId table with
    | some _ => (.ok (),[.set row.sessionId row.values],())
    | none => (.ok (),[.insert row],())
  | .getOutcome sessionId => (.ok (row? sessionId table),[],())

def database : Database KpiOp KpiReply KpiErr KpiTable KpiWrite Unit Time SessionId where
  apply := KpiWrite.apply
  lock w := some w.sessionId
  perform := perform
  faults e := e = .fault

/-- The keyword arguments of `upsert_session_outcome`. -/
structure SessionOutcome where
  orgId : OrgId
  sessionId : SessionId
  intent : String
  taskSuccess : Bool
  escalation : Bool
  resolutionTimeSeconds : ℚ
  deriving DecidableEq, Repr

def SessionOutcome.valuesAt (outcome : SessionOutcome) (recordedAt : Time) : OutcomeValues :=
  ⟨outcome.intent,outcome.taskSuccess,outcome.escalation,outcome.resolutionTimeSeconds,recordedAt⟩

def SessionOutcome.row (outcome : SessionOutcome) (recordedAt : Time) : OutcomeKpi :=
  ⟨outcome.sessionId,outcome.orgId,outcome.valuesAt recordedAt⟩

namespace OutcomeRepository

/-- The row, and whether it was created. -/
def upsertSessionOutcome (outcome : SessionOutcome) : KpiAction (OutcomeKpi × Bool) := do
  let existing ← execute (.selectOutcome outcome.sessionId)
  let now ← execute .now
  match existing with
  | some row =>
    execute (.updateOutcome row (outcome.valuesAt now))
    match ← execute (.getOutcome row.sessionId) with
    | some row => return (row,false)
    | none => .raise .staleData
  | none =>
    execute (.upsertOutcome (outcome.row now))
    match ← execute (.getOutcome outcome.sessionId) with
    | some row => return (row,true)
    | none => .raise (.runtime "outcome not found after upsert")

end OutcomeRepository

/-- The keyword arguments of `record_outcome`. -/
structure TurnOutcome where
  orgId : Option OrgId
  sessionId : SessionId
  userTranscript : String
  assistantResponse : String
  interrupted : Bool
  resolutionTimeSeconds : Option ℚ
  userMetadata : Option Json := none
  assistantMetadata : Option Json := none

namespace OutcomeExtractionService

/-- What `record_outcome` derives for a session of an organisation. -/
def outcomeOf (host : Host) (turn : TurnOutcome) (orgId : OrgId) : SessionOutcome :=
  let metadata := turn.assistantMetadata.getD (.obj [])
  let escalation := deriveEscalation host turn.assistantResponse turn.interrupted metadata
  { orgId
    sessionId := turn.sessionId
    intent := deriveIntent host turn.userTranscript (turn.userMetadata.getD (.obj []))
    taskSuccess := deriveTaskSuccess host turn.assistantResponse turn.interrupted escalation metadata
    escalation
    resolutionTimeSeconds := max (turn.resolutionTimeSeconds.getD 0) 0 }

def recordOutcome (host : Host) (turn : TurnOutcome) : KpiAction Unit :=
  match turn.orgId with
  | none => pure ()
  | some orgId => discard (OutcomeRepository.upsertSessionOutcome (outcomeOf host turn orgId))

end OutcomeExtractionService
end VoxForge.Outcomes
