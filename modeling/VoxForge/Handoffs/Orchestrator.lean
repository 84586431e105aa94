import VoxForge.Sessions.Manager

/-! The handoff repository, the orchestrator and the cancel route. -/
namespace VoxForge.Handoffs
open Foundation Core Persistence Sessions

namespace HandoffRepository

def getBySession (orgId : OrgId) : Action (Option HandoffRecord) :=
  execute (.selectHandoffBySession orgId)

def getHandoff (id : HandoffId) (orgId : OrgId) : Action (Option HandoffRecord) :=
  execute (.selectHandoff id orgId)

def recordEvent (handoffId : HandoffId) (orgId : OrgId) (eventType : HandoffEventType) : Action Unit :=
  execute (.insertEvent { handoffId, orgId, eventType })

def createHandoff (orgId : OrgId) (trigger : HandoffTrigger) (triggerReason : String) :
    Action (HandoffRecord × Bool) := do
  match ← getBySession orgId with
  | some existing => return (existing,false)
  | none =>
    let now ← execute .now
    let handoffId ← execute .newId
    let inserted ← execute (.insertHandoff {
      id := handoffId, orgId, trigger, triggerReason, createdAt := now, updatedAt := now })
    if inserted then
      recordEvent handoffId orgId .created
      match ← getHandoff handoffId orgId with
      | none => .raise (.runtime "handoff not found after insert")
      | some record => return (record,true)
    else
      match ← getBySession orgId with
      | none => .raise (.runtime "handoff conflict without existing row")
      | some existing => return (existing,false)

/-- `none` when the guard matched no row. -/
def updateStatus (id : HandoffId) (orgId : OrgId) (status : HandoffStatus)
    (allowedFrom : Option (List HandoffStatus)) (fields : HandoffFields) :
    Action (Option HandoffRecord) := do
  let updatedAt ← execute .now
  let rowcount ← execute (.updateHandoff id orgId allowedFrom { status, updatedAt, fields })
  if allowedFrom.isSome ∧ rowcount = 0 then return none
  else
    match ← getHandoff id orgId with
    | none => .raise (.value "Handoff not found after update")
    | some record => return some record

def linkSession (handoffId : HandoffId) (handoffStatus : HandoffStatus) : Action Unit :=
  execute (.linkSession handoffId handoffStatus)

def saveSnapshot (snapshot : ConversationSnapshot) : Action ConversationSnapshot := do
  match ← execute (.selectSnapshot snapshot.handoffId) with
  | some existing => return existing
  | none =>
    execute (.insertSnapshot snapshot)
    return snapshot

end HandoffRepository

namespace HandoffOrchestrator
open HandoffRepository

structure Settings extends Sessions.Settings where
  ticketingProvider : String := "mock"
  deriving DecidableEq, Repr

def acceptableForAccept : List HandoffStatus := [.pending,.assigned]

def acceptableForComplete : List HandoffStatus := [.pending,.assigned,.active]

def terminalHandoff : List HandoffStatus := [.completed,.cancelled]

def statusText : HandoffStatus → String
  | .pending => "pending"
  | .assigned => "assigned"
  | .active => "active"
  | .completed => "completed"
  | .cancelled => "cancelled"

def toPackage (record : HandoffRecord) (policy : EscalationPolicy)
    (assignment : Option HandoffAssignment) : HandoffPackage :=
  let stored : HandoffAssignment := ⟨record.assignedToUserId,record.assignedToEmail⟩
  { handoffId := record.id
    ticketId := record.ticketId
    conversationSummary := record.conversationSummary.getD ""
    replayUrl := record.replayUrl.getD ""
    assignment := assignment.or (if stored.assigned then some stored else none)
    handoffMessage := policy.handoffMessage
    trigger := record.trigger }

def summarize : Action String := do
  return summaryOf (← execute (.selectMessages 50))

structure Initiation where
  orgId : OrgId
  trigger : HandoffTrigger
  reason : String
  policy : EscalationPolicy := {}
  customerEmail : Option String := none
  priority : String := "normal"
  deriving DecidableEq, Repr

/-- The ticket of a new handoff, where the policy asks for one and it has none. -/
def ticketFor (req : Initiation) (record : HandoffRecord) (replayUrl : String) :
    Action (Option String) := do
  if req.policy.autoCreateTicket ∧ record.ticketId.getD "" = "" then
    let summaryPreview ← summarize
    let ticket ← execute (.createTicket {
      subject := "Voice handoff"
      description := req.reason ++ "\n\nConversation preview:\n" ++
        String.ofList (summaryPreview.toList.take 500)
      customerEmail := req.customerEmail
      priority := req.priority
      conversationSummary := some summaryPreview
      replayUrl := some replayUrl })
    recordEvent record.id req.orgId .ticketCreated
    return some ticket
  else return record.ticketId

/-- What follows the insertion of a new record. -/
def package (settings : Settings) (req : Initiation) (record : HandoffRecord) :
    Action HandoffPackage := do
  let (replayUrl,replayToken) ← execute (.generateReplayLink record.id)
  let ticketId ← ticketFor req record replayUrl
  let conversationSummary ← summarize
  recordEvent record.id req.orgId .summaryGenerated
  recordEvent record.id req.orgId .replayLinked
  let assignment ← execute (.assign record.id req.policy.assignmentStrategy)
  recordEvent record.id req.orgId .assigned
  let messages ← execute (.selectMessages 100)
  discard (saveSnapshot {
    handoffId := record.id, orgId := req.orgId, messageCount := messages.length, messages })
  let now ← execute .now
  let status : HandoffStatus := if assignment.assigned then .assigned else .pending
  match ← updateStatus record.id req.orgId status none {
    ticketId := some ticketId
    ticketProvider := some settings.ticketingProvider
    conversationSummary := some (some conversationSummary)
    replayUrl := some (some replayUrl)
    replayToken := some (some replayToken)
    assignedToUserId := some assignment.assigneeUserId
    assignedToEmail := some assignment.assigneeEmail
    assignedAt := some (if assignment.assigned then some now else none) } with
  | none => .raise (.runtime "AttributeError")
  | some record =>
    linkSession record.id status
    SessionManager.applyHandoffPending settings.toSettings {
      handoffId := some record.id
      ticketId
      replayUrl := some replayUrl
      summary := some conversationSummary }
    discard (execute (.countPending req.orgId))
    return toPackage record req.policy (some assignment)

def initiateHandoff (settings : Settings) (req : Initiation) : Action HandoffPackage := do
  match ← getBySession req.orgId with
  | some existing => return toPackage existing req.policy none
  | none =>
    let (record,created) ← createHandoff req.orgId req.trigger req.reason
    if created then package settings req record
    else return toPackage record req.policy none

/-- After a conditional update that matched no row: the record as another agent left it. -/
def acceptLost (id : HandoffId) (orgId : OrgId) (userId : UserId) : Action HandoffRecord := do
  match ← getHandoff id orgId with
  | none => .raise (.value "Handoff not found")
  | some record =>
    if record.status = .active ∧ record.assignedToUserId = some userId then return record
    else if record.status ∈ terminalHandoff then
      .raise (.value ("Handoff is " ++ statusText record.status))
    else .raise (.value "Handoff already accepted by another agent")

def acceptHandoff (settings : Settings) (id : HandoffId) (orgId : OrgId) (userId : UserId) :
    Action HandoffRecord := do
  match ← getHandoff id orgId with
  | none => .raise (.value "Handoff not found")
  | some record =>
    if record.status = .active then
      if record.assignedToUserId = some userId then return record
      else .raise (.value "Handoff already accepted by another agent")
    else if record.status ∈ terminalHandoff then
      .raise (.value ("Handoff is " ++ statusText record.status))
    else
      let now ← execute .now
      match ← updateStatus id orgId .active (some acceptableForAccept) {
        assignedToUserId := some (some userId), acceptedAt := some (some now) } with
      | none => acceptLost id orgId userId
      | some record =>
        linkSession id .active
        recordEvent id orgId .accepted
        SessionManager.applyHandoffActive settings.toSettings id
        discard (SessionManager.resumeSession settings.toSettings 0)
        recordEvent id orgId .resumed
        return record

def completeLost (id : HandoffId) (orgId : OrgId) : Action HandoffRecord := do
  match ← getHandoff id orgId with
  | none => .raise (.value "Handoff not found")
  | some record =>
    if record.status = .completed then return record
    else .raise (.value ("Handoff is " ++ statusText record.status))

def completeHandoff (settings : Settings) (id : HandoffId) (orgId : OrgId) (resolution : String) :
    Action HandoffRecord := do
  match ← getHandoff id orgId with
  | none => .raise (.value "Handoff not found")
  | some record =>
    if record.status = .completed then return record
    else if record.status = .cancelled then .raise (.value "Handoff is cancelled")
    else
      let now ← execute .now
      match ← updateStatus id orgId .completed (some acceptableForComplete) {
        completedAt := some (some now), resolution := some (some resolution) } with
      | none => completeLost id orgId
      | some record =>
        linkSession id .completed
        recordEvent id orgId .completed
        SessionManager.clearHandoff settings.toSettings
        return record

end HandoffOrchestrator

open HandoffRepository HandoffOrchestrator in
def cancelLost (id : HandoffId) (orgId : OrgId) : Action HandoffRecord := do
  match ← getHandoff id orgId with
  | none => .raise (.http 404 "Handoff not found")
  | some record =>
    if record.status = .cancelled then return record
    else .raise (.http 409 ("Handoff is " ++ statusText record.status))

open HandoffRepository HandoffOrchestrator in
/-- The cancel route, up to its commit. -/
def cancelHandoff (settings : HandoffOrchestrator.Settings) (id : HandoffId) (orgId : OrgId) :
    Action HandoffRecord := do
  match ← getHandoff id orgId with
  | none => .raise (.http 404 "Handoff not found")
  | some record =>
    if record.status = .cancelled then return record
    else if record.status = .completed then .raise (.http 409 "Handoff is completed")
    else
      match ← updateStatus id orgId .cancelled (some acceptableForComplete) {} with
      | none => cancelLost id orgId
      | some record =>
        recordEvent id orgId .cancelled
        linkSession id .cancelled
        SessionManager.clearHandoff settings.toSettings
        return record

end VoxForge.Handoffs
