import VoxForge.Core.Handoff
import VoxForge.Foundation.Transactions

/-! The statements that the repositories and the Redis store issue for one session,
with the calls to other services, and what each does to the tables it sees. -/
namespace VoxForge.Persistence
open Foundation Core

/-- The database rows of one session. -/
structure Tables where
  session : SessionRow := {}
  handoffs : List HandoffRecord := []
  events : List HandoffEvent := []
  snapshots : List ConversationSnapshot := []
  messages : List Message := []
  deriving DecidableEq, Repr

/-- The two Redis keys of a session. -/
structure Keys where
  state : Option SessionState := none
  heartbeat : Option Time := none
  deriving DecidableEq, Repr

/-- The fields that an update of a handoff sets besides status and time; `none` keeps a field. -/
structure HandoffFields where
  ticketId : Option (Option String) := none
  ticketProvider : Option String := none
  conversationSummary : Option (Option String) := none
  replayUrl : Option (Option String) := none
  replayToken : Option (Option String) := none
  assignedToUserId : Option (Option UserId) := none
  assignedToEmail : Option (Option String) := none
  assignedAt : Option (Option Time) := none
  acceptedAt : Option (Option Time) := none
  completedAt : Option (Option Time) := none
  resolution : Option (Option String) := none
  deriving DecidableEq, Repr

structure HandoffUpdate where
  status : HandoffStatus
  updatedAt : Time
  fields : HandoffFields := {}
  deriving DecidableEq, Repr

def HandoffUpdate.apply (u : HandoffUpdate) (record : HandoffRecord) : HandoffRecord :=
  { record with
    status := u.status
    updatedAt := u.updatedAt
    ticketId := u.fields.ticketId.getD record.ticketId
    ticketProvider := u.fields.ticketProvider.getD record.ticketProvider
    conversationSummary := u.fields.conversationSummary.getD record.conversationSummary
    replayUrl := u.fields.replayUrl.getD record.replayUrl
    replayToken := u.fields.replayToken.getD record.replayToken
    assignedToUserId := u.fields.assignedToUserId.getD record.assignedToUserId
    assignedToEmail := u.fields.assignedToEmail.getD record.assignedToEmail
    assignedAt := u.fields.assignedAt.getD record.assignedAt
    acceptedAt := u.fields.acceptedAt.getD record.acceptedAt
    completedAt := u.fields.completedAt.getD record.completedAt
    resolution := u.fields.resolution.getD record.resolution }

/-- A row change that a transaction has made and not yet committed. -/
inductive Write where
  | sessionStatus (status : SessionStatus)
  | sessionEnded (status : SessionStatus) (endedAt : Time)
  | sessionLink (handoffId : HandoffId) (handoffStatus : HandoffStatus)
  | handoffInsert (record : HandoffRecord)
  | handoffUpdate (id : HandoffId) (update : HandoffUpdate)
  | eventInsert (event : HandoffEvent)
  | snapshotInsert (snapshot : ConversationSnapshot)
  | messageInsert (message : Message)
  deriving DecidableEq, Repr

def Write.apply (t : Tables) : Write → Tables
  | .sessionStatus status => { t with session := { t.session with status } }
  | .sessionEnded status endedAt =>
    { t with session := { t.session with status, endedAt := some endedAt } }
  | .sessionLink handoffId handoffStatus => { t with session := { t.session with
      handoffId := some handoffId, handoffStatus := some handoffStatus } }
  | .handoffInsert record => { t with handoffs := t.handoffs ++ [record] }
  | .handoffUpdate id update => { t with
      handoffs := t.handoffs.map fun record => if record.id = id then update.apply record else record }
  | .eventInsert event => { t with events := t.events ++ [event] }
  | .snapshotInsert snapshot => { t with snapshots := t.snapshots ++ [snapshot] }
  | .messageInsert message => { t with messages := t.messages ++ [message] }

/-- What a write keeps locked until the transaction ends: a row, or the entry of a
unique index. The session has one handoff by `uq_handoff_records_session`. -/
inductive Lock where
  | sessionRow
  | handoffRow
  | snapshotOf (handoffId : HandoffId)
  deriving DecidableEq, Repr

def Write.lock : Write → Option Lock
  | .sessionStatus _ | .sessionEnded _ _ | .sessionLink _ _ => some .sessionRow
  | .handoffInsert _ | .handoffUpdate _ _ => some .handoffRow
  | .snapshotInsert snapshot => some (.snapshotOf snapshot.handoffId)
  | .eventInsert _ | .messageInsert _ => none

inductive Err where
  | sessionNotFound
  | sessionState (message : String)
  | value (message : String)
  | runtime (message : String)
  | http (code : Nat) (detail : String)
  /-- A unique constraint, outside an `ON CONFLICT` clause. -/
  | integrity
  /-- Any failure of a service or a connection. -/
  | fault
  /-- `CancelledError`, which `except Exception` lets pass. -/
  | cancelled
  deriving DecidableEq, Repr

/-- The exceptions that a statement or a call itself can raise. -/
def Err.external : Err → Bool
  | .integrity | .fault | .cancelled => true
  | _ => false

/-- One statement, one Redis command or one call of another service. -/
inductive Op where
  | selectSession
  | updateSessionStatus (status : SessionStatus)
  | updateSessionEnded (status : SessionStatus) (endedAt : Time)
  | linkSession (handoffId : HandoffId) (handoffStatus : HandoffStatus)
  | selectHandoffBySession (orgId : OrgId)
  | selectHandoff (id : HandoffId) (orgId : OrgId)
  /-- `INSERT … ON CONFLICT DO NOTHING RETURNING id`. -/
  | insertHandoff (record : HandoffRecord)
  | updateHandoff (id : HandoffId) (orgId : OrgId) (allowedFrom : Option (List HandoffStatus))
      (update : HandoffUpdate)
  | insertEvent (event : HandoffEvent)
  | selectSnapshot (handoffId : HandoffId)
  | insertSnapshot (snapshot : ConversationSnapshot)
  | countPending (orgId : OrgId)
  | selectMessages (limit : Nat)
  | insertMessage (message : Message)
  | getState
  | setState (state : SessionState) (ttlSeconds : Nat)
  | setHeartbeat (now : Time)
  | deleteState
  | now
  | newId
  | generateReplayLink (handoffId : HandoffId)
  | createTicket (request : TicketCreateRequest)
  | assign (handoffId : HandoffId) (strategy : AssignmentStrategy)
  deriving DecidableEq, Repr

abbrev Reply : Op → Type
  | .selectSession => Option SessionRow
  | .selectHandoffBySession _ | .selectHandoff _ _ => Option HandoffRecord
  | .insertHandoff _ => Bool
  | .updateHandoff _ _ _ _ => Nat
  | .selectSnapshot _ => Option ConversationSnapshot
  | .countPending _ => Nat
  | .selectMessages _ => List Message
  | .getState => Option SessionState
  | .now => Time
  | .newId => HandoffId
  | .generateReplayLink _ => String × String
  | .createTicket _ => String
  | .assign _ _ => HandoffAssignment
  | _ => Unit

abbrev Action (α : Type) := Prog Op Reply Err α

def execute (o : Op) : Action (Reply o) := Prog.perform o

/-- What the services outside the database and Redis answer at one moment. -/
structure Answers where
  now : Time := 0
  newId : HandoffId := 0
  replayLink : String × String := ("","")
  ticket : String := ""
  assignment : HandoffAssignment := {}
  deriving DecidableEq, Repr

def Tables.handoff? (t : Tables) (id : HandoffId) (orgId : OrgId) : Option HandoffRecord :=
  t.handoffs.find? fun record => record.id = id && record.orgId = orgId

/-- The rows that a conditional update of a handoff matches. -/
def Tables.matching (t : Tables) (id : HandoffId) (orgId : OrgId)
    (allowedFrom : Option (List HandoffStatus)) : Option HandoffRecord :=
  (t.handoff? id orgId).filter fun record => allowedFrom.all (record.status ∈ ·)

/-- An operation on the tables as the transaction sees them, and on Redis: the reply,
the rows written and the keys afterwards. -/
def perform (answers : Answers) (t : Tables) (keys : Keys) :
    (o : Op) → Except Err (Reply o) × List Write × Keys
  | .selectSession => (.ok (some t.session),[],keys)
  | .updateSessionStatus status => (.ok (),[.sessionStatus status],keys)
  | .updateSessionEnded status endedAt => (.ok (),[.sessionEnded status endedAt],keys)
  | .linkSession handoffId handoffStatus => (.ok (),[.sessionLink handoffId handoffStatus],keys)
  | .selectHandoffBySession orgId => (.ok (t.handoffs.find? (·.orgId = orgId)),[],keys)
  | .selectHandoff id orgId => (.ok (t.handoff? id orgId),[],keys)
  | .insertHandoff record =>
    if t.handoffs = [] then (.ok true,[.handoffInsert record],keys) else (.ok false,[],keys)
  | .updateHandoff id orgId allowedFrom update =>
    if (t.matching id orgId allowedFrom).isSome then (.ok (1 : Nat),[.handoffUpdate id update],keys)
    else (.ok (0 : Nat),[],keys)
  | .insertEvent event => (.ok (),[.eventInsert event],keys)
  | .selectSnapshot handoffId => (.ok (t.snapshots.find? (·.handoffId = handoffId)),[],keys)
  | .insertSnapshot snapshot =>
    if t.snapshots.any (·.handoffId = snapshot.handoffId) then (.error .integrity,[],keys)
    else (.ok (),[.snapshotInsert snapshot],keys)
  | .countPending orgId =>
    (.ok (t.handoffs.countP fun r => r.orgId = orgId && r.status = .pending : Nat),[],keys)
  | .selectMessages limit => (.ok (t.messages.take limit),[],keys)
  | .insertMessage message => (.ok (),[.messageInsert message],keys)
  | .getState => (.ok keys.state,[],keys)
  | .setState state _ => (.ok (),[],{ keys with state := some state })
  | .setHeartbeat now => (.ok (),[],{ keys with heartbeat := some now })
  | .deleteState => (.ok (),[],{})
  | .now => (.ok answers.now,[],keys)
  | .newId => (.ok answers.newId,[],keys)
  | .generateReplayLink _ => (.ok answers.replayLink,[],keys)
  | .createTicket _ => (.ok answers.ticket,[],keys)
  | .assign _ _ => (.ok answers.assignment,[],keys)

/-- The database of one session, with Redis as the store that is shared at once. -/
def database : Database Op Reply Err Tables Write Keys Answers Lock where
  apply := Write.apply
  lock := Write.lock
  perform := perform
  faults := Err.external

/-! What one operation does to each of the stores. -/

def Op.stateAfter (state : Option SessionState) : Op → Option SessionState
  | .setState new _ => some new
  | .deleteState => none
  | _ => state

def Op.rowAfter (row : SessionRow) : Op → SessionRow
  | .updateSessionStatus status => { row with status }
  | .updateSessionEnded status endedAt => { row with status, endedAt := some endedAt }
  | .linkSession handoffId handoffStatus =>
    { row with handoffId := some handoffId, handoffStatus := some handoffStatus }
  | _ => row

theorem perform_state (answers : Answers) (t : Tables) (keys : Keys) (o : Op) :
    (perform answers t keys o).2.2.state = o.stateAfter keys.state := by
  cases o <;> simp only [perform,Op.stateAfter]
  all_goals split <;> rfl

theorem perform_row (answers : Answers) (t t' : Tables) (keys : Keys) (o : Op) :
    ((perform answers t keys o).2.1.foldl Write.apply t').session = o.rowAfter t'.session := by
  cases o <;> simp only [perform,Op.rowAfter] <;> try rfl
  all_goals split <;> rfl

/-- The only exception of a statement that is answered is a violated constraint. -/
theorem perform_external {answers : Answers} {t : Tables} {keys : Keys} {o : Op} {e : Err}
    (h : (perform answers t keys o).1 = .error e) : e.external := by
  cases o <;> simp only [perform] at h <;> try contradiction
  all_goals split at h <;> cases h
  rfl

end VoxForge.Persistence
