import VoxForge.Core.Handoff
import VoxForge.Outcomes.SingleRow

/-! What the turns of one session make of its outcome KPI: each completed turn replaces it. -/
namespace VoxForge.Outcomes
open Foundation Core Prog OutcomeRepository OutcomeExtractionService

/-- What a turn that runs to its commit hands to `record_outcome`, and whether one of its
tools has opened a handoff. -/
structure CompletedTurn where
  transcript : String
  assistantText : String
  wasInterrupted : Bool := false
  e2eMs : Option ℚ := none
  userMetadata : Json := .obj []
  agentTrace : List Json := []
  /-- The handoff that the policy engine asked for. -/
  package : Option HandoffPackage := none
  toolHandoff : Bool := false
  recordedAt : Time := 0

namespace CompletedTurn
variable (host : Host) (turn : CompletedTurn)

def assistantMetadata : Json :=
  .obj ((if turn.assistantText ≠ "" ∧ turn.agentTrace ≠ [] then [("agent_trace",.arr turn.agentTrace)] else []) ++
    match turn.package with
    | some package => [("escalation",.bool true),("handoff_id",.str (toString package.handoffId)),
        ("ticket_id",package.ticketId.elim .null .str)]
    | none => [])

def outcome (orgId : OrgId) (sessionId : SessionId) : TurnOutcome where
  orgId := some orgId
  sessionId := sessionId
  userTranscript := turn.transcript
  assistantResponse := turn.assistantText
  interrupted := turn.wasInterrupted
  resolutionTimeSeconds := turn.e2eMs.map (· / 1000)
  userMetadata := some turn.userMetadata
  assistantMetadata := some turn.assistantMetadata

/-- The turn itself tells of an escalation: the policy opens a handoff, the caller interrupts,
or the reply has one of the phrases. -/
def signals : Bool :=
  turn.package.isSome || turn.wasInterrupted || mentions host handoffPhrases turn.assistantText

/-- The turn opens a handoff, or what is recorded for it is an escalation. -/
def Escalates : Prop :=
  turn.package.isSome ∨ turn.toolHandoff ∨
    deriveEscalation host turn.assistantText turn.wasInterrupted turn.assistantMetadata

/-- The one flag in the metadata is the escalation of a handoff that the policy opened. -/
theorem flag?_assistantMetadata (key : String) (hkey : key ∉ ["agent_trace","handoff_id","ticket_id"]) :
    flag? key turn.assistantMetadata = if key = "escalation" then turn.package.map fun _ => true else none := by
  simp only [List.mem_cons,List.not_mem_nil,not_or,or_false] at hkey
  have htrace : (key == "agent_trace") = false := beq_false_of_ne hkey.1
  have hid : (key == "handoff_id") = false := beq_false_of_ne hkey.2.1
  have hticket : (key == "ticket_id") = false := beq_false_of_ne hkey.2.2
  have hlookup : turn.assistantMetadata.get? key =
      if key = "escalation" then turn.package.map fun _ => .bool true else none := by
    simp only [Json.get?,assistantMetadata]
    cases turn.package with
    | none => split_ifs <;> simp [List.lookup_cons,htrace]
    | some package =>
      by_cases hescalation : key = "escalation"
      · split_ifs <;> simp [List.lookup_cons,hescalation]
      · have hne : (key == "escalation") = false := beq_false_of_ne hescalation
        split_ifs <;> simp [List.lookup_cons,htrace,hid,hticket,hne]
  rw [flag?,hlookup]
  cases turn.package <;> split_ifs <;> rfl

theorem deriveEscalation_eq_signals :
    deriveEscalation host turn.assistantText turn.wasInterrupted turn.assistantMetadata = turn.signals host := by
  have hescalation := turn.flag?_assistantMetadata "escalation" (by decide)
  have hescalated := turn.flag?_assistantMetadata "escalated" (by decide)
  cases hpackage : turn.package with
  | some package =>
    rw [hpackage] at hescalation
    rw [deriveEscalation_flagged host hescalation,signals,hpackage]
    rfl
  | none =>
    rw [hpackage] at hescalation
    rw [deriveEscalation_unflagged host hescalation hescalated,signals,hpackage]
    rfl

theorem deriveTaskSuccess_of_signals (h : turn.signals host) :
    deriveTaskSuccess host turn.assistantText turn.wasInterrupted
      (deriveEscalation host turn.assistantText turn.wasInterrupted turn.assistantMetadata)
      turn.assistantMetadata = false := by
  rw [deriveEscalation_eq_signals,h]
  exact deriveTaskSuccess_escalated host (turn.flag?_assistantMetadata "task_success" (by decide))

theorem escalates_iff : turn.Escalates host ↔ turn.toolHandoff ∨ turn.signals host := by
  rw [Escalates,deriveEscalation_eq_signals]
  constructor
  · rintro (hpackage | htool | hsignals)
    · exact .inr (by simp [signals,hpackage])
    · exact .inl htool
    · exact .inr hsignals
  · exact .inr

end CompletedTurn

/-- A transaction with nothing beside it, at a time of the clock. -/
def alone (now : Time) (o : KpiOp) (table : KpiTable) : Except KpiErr (KpiReply o) × KpiTable :=
  ((perform now table () o).1,(perform now table () o).2.1.foldl KpiWrite.apply table)

section turns
variable {host : Host} {orgId : OrgId} {sessionId : SessionId} {table : KpiTable} {now : Time}

theorem finishes_execute {o : KpiOp} {reply : KpiReply o} (h : (perform now table () o).1 = .ok reply) :
    Finishes (alone now) table (execute o) fun a t =>
      reply = a ∧ (perform now table () o).2.1.foldl KpiWrite.apply table = t := by
  refine ⟨reply,_,?_,rfl,rfl⟩
  rw [execute,exec_perform,alone,h]

theorem row?_eq_some {row : OutcomeKpi} (h : rowsOf sessionId table = [row]) : row? sessionId table = some row := by
  rw [row?,← List.head?_filter]
  exact congrArg List.head? h

theorem finishes_write {o : KpiOp} {reply : KpiReply o} {w : KpiWrite}
    (h : perform now table () o = (.ok reply,[w],())) :
    Finishes (alone now) table (execute o) fun a t => reply = a ∧ w.apply table = t := by
  have hrun := finishes_execute (congrArg Prod.fst h)
  rw [h] at hrun
  exact hrun

theorem finishes_getOutcome {row : OutcomeKpi} (h : rowsOf sessionId table = [row]) :
    Finishes (alone now) table (execute (.getOutcome sessionId)) fun a t => some row = a ∧ table = t :=
  finishes_execute (congrArg Except.ok (row?_eq_some h))

/-- Alone, a recording leaves its own values in the one row of its session. -/
theorem finishes_upsertSessionOutcome (outcome : SessionOutcome)
    (hle : (rowsOf outcome.sessionId table).length ≤ 1) :
    Finishes (alone now) table (upsertSessionOutcome outcome) fun _ t =>
      ∃ row, rowsOf outcome.sessionId t = [row] ∧ row.values = outcome.valuesAt now := by
  apply finishes_then (finishes_execute rfl)
  rintro _ _ ⟨rfl,rfl⟩
  apply finishes_then (finishes_execute rfl)
  rintro _ _ ⟨rfl,rfl⟩
  cases hexisting : row? outcome.sessionId table with
  | some row =>
    have hsession := sessionId_of_row? hexisting
    have hperform : perform now table () (.updateOutcome row (outcome.valuesAt now)) =
        (.ok (),[.set row.sessionId (outcome.valuesAt now)],()) := by
      simp only [perform,hsession,hexisting,OutcomeValues.changed_current]
    have hrows : rowsOf outcome.sessionId
        (KpiWrite.apply table (.set row.sessionId (outcome.valuesAt now))) =
          [{ row with values := outcome.valuesAt now }] := by
      rw [rowsOf_apply,rowsOf_eq_singleton hle hexisting]
      simp [actOn,KpiWrite.sessionId,KpiWrite.apply,hsession]
    apply finishes_then (finishes_write hperform)
    rintro _ _ ⟨rfl,rfl⟩
    rw [← hsession] at hrows ⊢
    apply finishes_then (finishes_getOutcome hrows)
    rintro _ _ ⟨rfl,rfl⟩
    exact finishes_pure ⟨_,hrows,rfl⟩
  | none =>
    have hperform : perform now table () (.upsertOutcome (outcome.row now)) =
        (.ok (),[.insert (outcome.row now)],()) := by
      have hrow : (outcome.row now).sessionId = outcome.sessionId := rfl
      simp only [perform,hrow,hexisting]
    have hrows : rowsOf outcome.sessionId (KpiWrite.apply table (.insert (outcome.row now))) =
        [outcome.row now] := by
      rw [rowsOf_apply,rowsOf_eq_nil hexisting]
      simp [actOn,KpiWrite.sessionId,KpiWrite.apply,SessionOutcome.row]
    apply finishes_then (finishes_write hperform)
    rintro _ _ ⟨rfl,rfl⟩
    apply finishes_then (finishes_getOutcome hrows)
    rintro _ _ ⟨rfl,rfl⟩
    exact finishes_pure ⟨_,hrows,rfl⟩

end turns

section session
variable (host : Host) (orgId : OrgId) (sessionId : SessionId)

/-- The outcome of a turn, recorded and committed. -/
def record (table : KpiTable) (turn : CompletedTurn) : KpiTable :=
  (exec (alone turn.recordedAt) (recordOutcome host (turn.outcome orgId sessionId)) table).2

def recordAll (table : KpiTable) (turns : List CompletedTurn) : KpiTable :=
  turns.foldl (record host orgId sessionId) table

/-- What is asked of the KPI of a session: an escalation stays, and the session has one row,
also when recordings of any sessions run beside each other. -/
structure EscalationSticks (table : KpiTable) (turns : List CompletedTurn) : Prop where
  sticky : ∀ past last, past ++ [last] <+: turns → (∃ turn ∈ past, turn.Escalates host) →
    ∃ row, rowsOf sessionId (recordAll host orgId sessionId table (past ++ [last])) = [row] ∧
      row.values.escalation = true ∧ row.values.taskSuccess = false
  single : ∀ done, done <+: turns → done ≠ [] →
    (rowsOf sessionId (recordAll host orgId sessionId table done)).length = 1
  concurrent : ∀ ls q,
    run (Pool.step database (recordOutcome host)) { committed := table, shared := () } ls = some q →
      (rowsOf sessionId q.committed).length ≤ 1 ∧ ∀ a l b,
        Fires (Pool.step database (recordOutcome host)) { committed := table, shared := () } ls a l b →
          Commits sessionId a l → (rowsOf sessionId q.committed).length = 1

variable {sessionId} {table : KpiTable} {turns : List CompletedTurn}

/-- A turn leaves in the row what it alone says. -/
theorem rowsOf_record (turn : CompletedTurn) (hle : (rowsOf sessionId table).length ≤ 1) :
    ∃ row, rowsOf sessionId (record host orgId sessionId table turn) = [row] ∧
      row.values = (outcomeOf host (turn.outcome orgId sessionId) orgId).valuesAt turn.recordedAt := by
  have hfinishes : Finishes (alone turn.recordedAt) table (recordOutcome host (turn.outcome orgId sessionId))
      fun _ t => ∃ row, rowsOf sessionId t = [row] ∧
        row.values = (outcomeOf host (turn.outcome orgId sessionId) orgId).valuesAt turn.recordedAt :=
    finishes_discard (finishes_upsertSessionOutcome _ hle)
  obtain ⟨_,t,ht,hrow⟩ := hfinishes
  rw [record,ht]
  exact hrow

theorem length_recordAll_le (hle : (rowsOf sessionId table).length ≤ 1) :
    (rowsOf sessionId (recordAll host orgId sessionId table turns)).length ≤ 1 := by
  induction turns generalizing table with
  | nil => exact hle
  | cons turn turns ih =>
    apply ih
    obtain ⟨row,hrow,-⟩ := rowsOf_record host orgId turn hle
    rw [hrow]
    exact le_rfl

theorem rowsOf_recordAll (turns : List CompletedTurn) (last : CompletedTurn) (hle : (rowsOf sessionId table).length ≤ 1) :
    ∃ row, rowsOf sessionId (recordAll host orgId sessionId table (turns ++ [last])) = [row] ∧
      row.values = (outcomeOf host (last.outcome orgId sessionId) orgId).valuesAt last.recordedAt := by
  rw [recordAll,List.foldl_concat]
  exact rowsOf_record host orgId last (length_recordAll_le host orgId hle)

/-- The last turn decides whether the row tells of an escalation. -/
theorem escalated_iff {last : CompletedTurn} (hle : (rowsOf sessionId table).length ≤ 1) :
    (∃ row, rowsOf sessionId (recordAll host orgId sessionId table (turns ++ [last])) = [row] ∧
      row.values.escalation = true ∧ row.values.taskSuccess = false) ↔ last.signals host := by
  obtain ⟨row,hrow,hvalues⟩ := rowsOf_recordAll host orgId turns last hle
  have hescalation : row.values.escalation = last.signals host := by
    rw [hvalues]
    exact last.deriveEscalation_eq_signals host
  constructor
  · rintro ⟨row',hrow',hescalated,-⟩
    obtain rfl : row' = row := List.singleton_inj.mp (hrow'.symm.trans hrow)
    exact hescalation.symm.trans hescalated
  · intro hsignals
    refine ⟨row,hrow,hescalation.trans hsignals,?_⟩
    rw [hvalues]
    exact last.deriveTaskSuccess_of_signals host hsignals

/-- The KPI keeps an escalation exactly if every turn after it tells of one again. -/
theorem escalationSticks_iff (hle : (rowsOf sessionId table).length ≤ 1) :
    EscalationSticks host orgId sessionId table turns ↔
      turns.Pairwise fun turn later => turn.toolHandoff ∨ turn.signals host → later.signals host := by
  rw [pairwise_iff_past]
  constructor
  · intro h past last hp turn hturn hescalates
    have hrow := h.sticky past last hp ⟨turn,hturn,(turn.escalates_iff host).mpr hescalates⟩
    exact (escalated_iff host orgId hle).mp hrow
  · intro h
    refine ⟨fun past last hp ⟨turn,hturn,hescalates⟩ => ?_,fun done _ hne => ?_,fun ls q hq => single_row hle hq⟩
    · exact (escalated_iff host orgId hle).mpr (h past last hp turn hturn ((turn.escalates_iff host).mp hescalates))
    · rcases List.eq_nil_or_concat done with rfl | ⟨past,last,rfl⟩
      · exact absurd rfl hne
      · rw [List.concat_eq_append]
        obtain ⟨row,hrow,-⟩ := rowsOf_recordAll host orgId past last hle
        rw [hrow]
        rfl

/-- The policy connects the caller with a specialist. -/
private def askedForHuman : CompletedTurn where
  transcript := "Let me speak to a person."
  assistantText := "One moment, please."
  package := some ⟨1,none,"user: Let me speak to a person.","/replay/1",none,"One moment, please.",.userRequest⟩

/-- While the caller waits, the assistant answers another question. -/
private def answeredMeanwhile : CompletedTurn where
  transcript := "Meanwhile, is my address right?"
  assistantText := "Yes, I updated it last week."

/-- The caller asks again, and the assistant says so in its own words. -/
private def askedAgain : CompletedTurn where
  transcript := "Is anyone there?"
  assistantText := "A human agent will be with you soon."

theorem escalationSticks_iff_waiting :
    EscalationSticks asciiHost 1 7 [] [answeredMeanwhile,askedForHuman,askedAgain] :=
  (escalationSticks_iff asciiHost 1 (by decide)).mpr (by decide +kernel)

theorem answeredMeanwhile_clears : ¬ EscalationSticks asciiHost 1 7 [] [askedForHuman,answeredMeanwhile] := by
  intro h
  have hrow := h.sticky [askedForHuman] answeredMeanwhile List.prefix_rfl
    ⟨askedForHuman,List.mem_singleton_self _,.inl rfl⟩
  have hsignals : answeredMeanwhile.signals asciiHost = true := (escalated_iff asciiHost 1 (by decide)).mp hrow
  exact absurd hsignals (by decide +kernel)

end session

end VoxForge.Outcomes
