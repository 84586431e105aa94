import VoxForge.Handoffs.Lifecycle

/-! What each handoff operation writes of the ledger, whatever it is answered: one
insertion and what goes with it, or one guarded transition and its event. -/
namespace VoxForge.Handoffs
open Foundation Core Persistence Sessions Prog HandoffRepository HandoffOrchestrator

inductive Operation where
  | initiateHandoff (req : Initiation)
  | acceptHandoff (id : HandoffId) (orgId : OrgId) (userId : UserId)
  | completeHandoff (id : HandoffId) (orgId : OrgId) (resolution : String)
  | cancelHandoff (id : HandoffId) (orgId : OrgId)
  deriving DecidableEq, Repr

def Operation.program (settings : HandoffOrchestrator.Settings) : Operation → Action Unit
  | initiateHandoff req => discard (HandoffOrchestrator.initiateHandoff settings req)
  | acceptHandoff id orgId userId => discard (HandoffOrchestrator.acceptHandoff settings id orgId userId)
  | completeHandoff id orgId resolution =>
    discard (HandoffOrchestrator.completeHandoff settings id orgId resolution)
  | cancelHandoff id orgId => discard (Handoffs.cancelHandoff settings id orgId)

namespace Stage

/-- Which statements on the handoff a transaction may issue at a stage. -/
def permits (c : Stage) : Op → Prop
  | .insertHandoff record => c = .idle ∧ waiting record.status
  | .updateHandoff id _ none update => c = .creating id ∧ waiting update.status
  | .updateHandoff _ _ (some allowedFrom) update => c = .idle ∧ allowedFrom = guardOf update.status ∧
      (markOf update.status).isSome ∧ (update.status ≠ .active → update.fields.assignedToUserId = none)
  | .insertEvent event => isMark event.eventType →
      ∃ status, c = .moved status false ∧ markOf status = some event.eventType
  | .insertSnapshot snapshot => c = .creating snapshot.handoffId
  | _ => True

def after (c : Stage) : (o : Op) → Except Err (Reply o) → Stage
  | .insertHandoff record,.ok (inserted : Bool) => if inserted then .creating record.id else c
  | .updateHandoff _ _ (some _) update,.ok (rowcount : Nat) =>
    if rowcount = 0 then c else .moved update.status false
  | .insertEvent event,.ok _ =>
    match c with
    | .moved status recorded => .moved status (recorded || isMark event.eventType)
    | c => c
  | _,_ => c

/-- The answers to reckon with: the statement's own exceptions, and the record asked for. -/
def Possible : (o : Op) → Except Err (Reply o) → Prop
  | .selectHandoff id _,.ok (some record : Option HandoffRecord) => record.id = id
  | _,.ok _ => True
  | _,.error e => e.external

end Stage

def ledgerDiscipline : Discipline Op Reply Err Stage := ⟨Stage.permits,Stage.Possible,Stage.after⟩

/-- An operation that leaves the ledger alone, and the session's link to its handoff. -/
def Inert : Op → Prop
  | .insertHandoff _ | .updateHandoff _ _ _ _ | .insertEvent _ | .insertSnapshot _ | .linkSession _ _ => False
  | _ => True

section programs
variable {settings : HandoffOrchestrator.Settings} {c : Stage}

theorem wp_execute {o : Op} (h : c.permits o) :
    wp ledgerDiscipline c (execute o) (returns fun c' a => c' = c.after o (.ok a) ∧ Stage.Possible o (.ok a)) := by
  refine (wp_perform o _).mpr ⟨h,fun r hr => ?_⟩
  cases r with
  | ok a => exact ⟨rfl,hr⟩
  | error e => trivial

/-- A program that leaves the ledger alone keeps the stage. -/
theorem wp_inert {α : Type} {p : Action α} (h : Performs Inert p) :
    wp ledgerDiscipline c p (returns fun c' _ => c' = c) := by
  refine wp_mono (wp_of_performs h fun o ho => ?_) fun c' r hc => ?_
  · cases o with
    | insertHandoff record => exact ho.elim
    | updateHandoff id orgId allowedFrom update => exact ho.elim
    | insertEvent event => exact ho.elim
    | insertSnapshot snapshot => exact ho.elim
    | linkSession id status => exact ho.elim
    | _ => exact ⟨trivial,fun r => by cases r <;> rfl⟩
  · cases r with
    | ok a => exact hc
    | error e => trivial

theorem inert_execute {o : Op} (h : Inert o) : Performs Inert (execute o) :=
  performs_perform h

theorem inert_get (orgId : Option OrgId) : Performs Inert (SessionRepository.get orgId) := by
  refine performs_bind (inert_execute trivial) fun reply => ?_
  cases reply with
  | none => trivial
  | some row =>
    dsimp only
    split <;> trivial

theorem inert_updateStatus (status : SessionStatus) : Performs Inert (SessionRepository.updateStatus status) := by
  refine performs_bind (inert_get none) fun row => ?_
  split
  · exact performs_bind (inert_execute trivial) fun _ => inert_get none
  · exact inert_get none

theorem inert_getState : Performs Inert StateStore.getState := by
  refine performs_bind (inert_execute trivial) fun reply => ?_
  cases reply <;> trivial

theorem inert_getStateOrNone : Performs Inert StateStore.getStateOrNone := by
  refine performs_tryCatch (performs_bind inert_getState fun _ => trivial) fun e => ?_
  split <;> trivial

theorem inert_recordHeartbeat : Performs Inert (StateStore.recordHeartbeat settings.toSettings) := by
  refine performs_bind (inert_execute trivial) fun now => ?_
  refine performs_bind (inert_execute trivial) fun _ => ?_
  refine performs_bind inert_getState fun state => ?_
  exact performs_bind (inert_execute trivial) fun now => inert_execute trivial

theorem inert_writeEphemeralState (state : SessionState) (status : SessionStatus) :
    Performs Inert (SessionManager.writeEphemeralState settings.toSettings state status) :=
  performs_bind (inert_execute trivial) fun _ => inert_recordHeartbeat

theorem inert_ensureEphemeralState (session : SessionRow) :
    Performs Inert (SessionManager.ensureEphemeralState settings.toSettings session) := by
  refine performs_bind inert_getStateOrNone fun reply => ?_
  cases reply with
  | some existing => trivial
  | none =>
    dsimp only
    split
    · trivial
    · exact performs_bind (inert_writeEphemeralState _ _) fun _ => trivial

theorem inert_loadOrReconcileState :
    Performs Inert (SessionManager.loadOrReconcileState settings.toSettings) := by
  refine performs_bind inert_getStateOrNone fun reply => ?_
  cases reply with
  | some state => trivial
  | none => exact performs_bind (inert_get none) fun row => inert_ensureEphemeralState row

theorem inert_applyHandoffPending (context : HandoffContext) :
    Performs Inert (SessionManager.applyHandoffPending settings.toSettings context) := by
  refine performs_bind (performs_discard (inert_updateStatus .handoffPending)) fun _ => ?_
  exact performs_bind inert_loadOrReconcileState fun _ => inert_writeEphemeralState _ _

theorem inert_applyHandoffActive (id : HandoffId) :
    Performs Inert (SessionManager.applyHandoffActive settings.toSettings id) := by
  refine performs_bind (performs_discard (inert_updateStatus .handoffActive)) fun _ => ?_
  exact performs_bind inert_loadOrReconcileState fun _ => inert_writeEphemeralState _ _

theorem inert_clearHandoff : Performs Inert (SessionManager.clearHandoff settings.toSettings) := by
  refine performs_bind (performs_discard (inert_updateStatus .active)) fun _ => ?_
  exact performs_bind inert_loadOrReconcileState fun _ => inert_writeEphemeralState _ _

theorem inert_resumeSession (lastSequence : Int) :
    Performs Inert (SessionManager.resumeSession settings.toSettings lastSequence) := by
  refine performs_bind (inert_get none) fun session => ?_
  split
  · trivial
  · have hseen : Performs Inert (do
        StateStore.recordHeartbeat settings.toSettings
        return session : Action SessionRow) :=
      performs_bind inert_recordHeartbeat fun _ => trivial
    refine performs_bind inert_getStateOrNone fun reply => ?_
    have hbump (state : SessionState) : Performs Inert (if state.sequence < lastSequence then do
          SessionManager.writeEphemeralState settings.toSettings
            { state with sequence := lastSequence } session.status
          StateStore.recordHeartbeat settings.toSettings
          return session
        else do
          StateStore.recordHeartbeat settings.toSettings
          return session : Action SessionRow) := by
      split
      · exact performs_bind (inert_writeEphemeralState _ _) fun _ => hseen
      · exact hseen
    cases reply with
    | some state => exact hbump state
    | none =>
      exact performs_bind (performs_discard (inert_ensureEphemeralState session))
        fun _ => performs_bind inert_getState hbump

theorem inert_summarize : Performs Inert summarize :=
  performs_bind (inert_execute trivial) fun _ => trivial

/-- Events that mark no decisive transition may be recorded at any stage. -/
theorem wp_recordEvent {id : HandoffId} {orgId : OrgId} {e : HandoffEventType} (h : isMark e = false) :
    wp ledgerDiscipline c (recordEvent id orgId e) (returns fun c' _ => c' = c) := by
  have hpermit : c.permits (.insertEvent ⟨id,orgId,e⟩) := fun he => absurd (h.symm.trans he) (by decide)
  refine wp_returns_mono (wp_execute hpermit) fun c' _ hc => ?_
  rw [hc.1]
  cases c <;> simp [Stage.after,h]

/-- The decisive transition just made is recorded once. -/
theorem wp_recordMark {id : HandoffId} {orgId : OrgId} {status : HandoffStatus} {e : HandoffEventType}
    (h : markOf status = some e) :
    wp ledgerDiscipline (.moved status false) (recordEvent id orgId e) (returns fun _ _ => True) := by
  have hpermit : (Stage.moved status false).permits (.insertEvent ⟨id,orgId,e⟩) :=
    fun _ => ⟨status,rfl,h⟩
  exact wp_returns_mono (wp_execute hpermit) fun _ _ _ => trivial

theorem wp_getHandoff {id : HandoffId} {orgId : OrgId} :
    wp ledgerDiscipline c (getHandoff id orgId)
      (returns fun c' reply => c' = c ∧ ∀ record ∈ reply, record.id = id) := by
  refine wp_returns_mono (wp_execute (o := .selectHandoff id orgId) trivial) fun c' reply hc => ?_
  obtain ⟨rfl,hpossible⟩ := hc
  refine ⟨rfl,fun record hrecord => ?_⟩
  cases hrecord
  exact hpossible

theorem wp_linkSession {id : HandoffId} {status : HandoffStatus} :
    wp ledgerDiscipline c (linkSession id status) (returns fun c' _ => c' = c) :=
  wp_returns_mono (wp_execute (o := .linkSession id status) trivial) fun _ _ hc => hc.1

/-- A guarded update that matches moves the handoff; one that does not changes nothing. -/
theorem wp_updateStatus_guarded {id : HandoffId} {orgId : OrgId} {status : HandoffStatus}
    {fields : HandoffFields} (hmark : (markOf status).isSome)
    (hkeep : status ≠ .active → fields.assignedToUserId = none) :
    wp ledgerDiscipline .idle (updateStatus id orgId status (some (guardOf status)) fields)
      (returns fun c' reply => c' = if reply.isSome then .moved status false else .idle) := by
  refine wp_then (wp_inert (inert_execute (o := .now) trivial)) fun c' now hc => ?_
  subst hc
  refine wp_then (wp_execute ⟨rfl,rfl,hmark,hkeep⟩) fun c' rowcount hc => ?_
  obtain ⟨rfl,-⟩ := hc
  by_cases hzero : rowcount = 0
  · simp [hzero,Stage.after]
  · simp only [hzero,and_false,if_false]
    refine wp_then wp_getHandoff fun c'' reply hc => ?_
    cases reply with
    | none => trivial
    | some record => simpa [Stage.after,hzero] using hc.1

/-- The record just inserted may be written without a guard. -/
theorem wp_updateStatus_created {id : HandoffId} {orgId : OrgId} {status : HandoffStatus}
    {fields : HandoffFields} (hwait : waiting status) :
    wp ledgerDiscipline (.creating id) (updateStatus id orgId status none fields)
      (returns fun c' _ => c' = .creating id) := by
  refine wp_then (wp_inert (inert_execute (o := .now) trivial)) fun c' now hc => ?_
  subst hc
  refine wp_then (wp_execute ⟨rfl,hwait⟩) fun c' rowcount hc => ?_
  obtain ⟨rfl,-⟩ := hc
  simp only [Option.isSome_none,Bool.false_eq_true,false_and,if_false]
  refine wp_then wp_getHandoff fun c'' reply hc => ?_
  cases reply with
  | none => trivial
  | some record => exact hc.1

theorem wp_createHandoff {orgId : OrgId} {trigger : HandoffTrigger} {reason : String} :
    wp ledgerDiscipline .idle (createHandoff orgId trigger reason)
      (returns fun c' created => c' = if created.2 then .creating created.1.id else .idle) := by
  refine wp_then (wp_inert (inert_execute (o := .selectHandoffBySession orgId) trivial)) fun c' reply hc => ?_
  subst hc
  cases reply with
  | some existing => rfl
  | none =>
    refine wp_then (wp_inert (inert_execute (o := .now) trivial)) fun c' now hc => ?_
    refine wp_then (wp_inert (inert_execute (o := .newId) trivial)) fun c'' id hc' => ?_
    subst hc hc'
    refine wp_then (wp_execute ⟨rfl,rfl⟩) fun c' inserted hc => ?_
    obtain ⟨rfl,-⟩ := hc
    cases inserted with
    | true =>
      refine wp_then (wp_recordEvent rfl) fun c' _ hc => ?_
      subst hc
      refine wp_then wp_getHandoff fun c' reply hc => ?_
      obtain ⟨rfl,hid⟩ := hc
      cases reply with
      | none => trivial
      | some record => simp [Stage.after,hid record rfl]
    | false =>
      refine wp_then (wp_inert (inert_execute (o := .selectHandoffBySession orgId) trivial))
        fun c' reply hc => ?_
      subst hc
      cases reply with
      | none => trivial
      | some existing => rfl

theorem wp_ticketFor {req : Initiation} {record : HandoffRecord} {replayUrl : String} :
    wp ledgerDiscipline c (ticketFor req record replayUrl) (returns fun c' _ => c' = c) := by
  unfold ticketFor
  split
  · refine wp_then (wp_inert inert_summarize) fun c' preview hc => ?_
    subst hc
    refine wp_then (wp_inert (inert_execute trivial)) fun c' ticket hc => ?_
    subst hc
    exact wp_then (wp_recordEvent rfl) fun _ _ hc => hc
  · rfl

/-- The snapshot is written for the handoff being created, if at all. -/
theorem wp_saveSnapshot {snapshot : ConversationSnapshot} :
    wp ledgerDiscipline (.creating snapshot.handoffId) (saveSnapshot snapshot)
      (returns fun c' _ => c' = .creating snapshot.handoffId) := by
  refine wp_then (wp_inert (inert_execute (o := .selectSnapshot snapshot.handoffId) trivial))
    fun c' reply hc => ?_
  subst hc
  cases reply with
  | some existing => rfl
  | none => exact wp_then (wp_execute rfl) fun c' _ hc => hc.1

theorem wp_package {req : Initiation} {record : HandoffRecord} :
    wp ledgerDiscipline (.creating record.id) (package settings req record) (returns fun _ _ => True) := by
  refine wp_then (wp_inert (inert_execute (o := .generateReplayLink record.id) trivial)) fun c' link hc => ?_
  subst hc
  refine wp_then wp_ticketFor fun c' ticketId hc => ?_
  subst hc
  refine wp_then (wp_inert inert_summarize) fun c' summary hc => ?_
  subst hc
  refine wp_then (wp_recordEvent rfl) fun c' _ hc => ?_
  subst hc
  refine wp_then (wp_recordEvent rfl) fun c' _ hc => ?_
  subst hc
  refine wp_then (wp_inert (inert_execute (o := .assign record.id _) trivial)) fun c' assignment hc => ?_
  subst hc
  refine wp_then (wp_recordEvent rfl) fun c' _ hc => ?_
  subst hc
  refine wp_then (wp_inert (inert_execute (o := .selectMessages 100) trivial)) fun c' messages hc => ?_
  subst hc
  refine wp_then (wp_discard wp_saveSnapshot) fun c' _ hc => ?_
  subst hc
  refine wp_then (wp_inert (inert_execute (o := .now) trivial)) fun c' now hc => ?_
  subst hc
  refine wp_then (wp_updateStatus_created ?_) fun c' reply hc => ?_
  · split <;> rfl
  · cases reply with
    | none => trivial
    | some updated =>
      refine wp_then wp_linkSession fun _ _ _ => ?_
      refine wp_then (wp_inert (inert_applyHandoffPending _)) fun _ _ _ => ?_
      refine wp_then (wp_discard (wp_inert (inert_execute (o := .countPending _) trivial))) fun _ _ _ => ?_
      trivial

theorem wp_initiateHandoff {req : Initiation} :
    wp ledgerDiscipline .idle (initiateHandoff settings req) (returns fun _ _ => True) := by
  refine wp_then (wp_inert (inert_execute (o := .selectHandoffBySession req.orgId) trivial))
    fun c' reply hc => ?_
  subst hc
  cases reply with
  | some existing => trivial
  | none =>
    refine wp_then wp_createHandoff fun c' created hc => ?_
    obtain ⟨record,created⟩ := created
    subst hc
    cases created with
    | true => exact wp_package
    | false => trivial

/-- What follows a look at a handoff, where to find none is an error. -/
theorem inert_found {id : HandoffId} {orgId : OrgId} {α : Type} {e : Err} {f : HandoffRecord → Action α}
    (hf : ∀ record, Performs Inert (f record)) :
    Performs Inert (do
      match ← getHandoff id orgId with
      | none => .raise e
      | some record => f record : Action α) := by
  refine performs_bind (inert_execute trivial) fun reply => ?_
  cases reply with
  | none => trivial
  | some record => exact hf record

theorem wp_found {id : HandoffId} {orgId : OrgId} {α : Type} {e : Err} {f : HandoffRecord → Action α}
    (hf : ∀ record, wp ledgerDiscipline .idle (f record) (returns fun _ _ => True)) :
    wp ledgerDiscipline .idle (do
      match ← getHandoff id orgId with
      | none => .raise e
      | some record => f record : Action α) (returns fun _ _ => True) := by
  refine wp_then wp_getHandoff fun c' reply hc => ?_
  obtain ⟨rfl,-⟩ := hc
  cases reply with
  | none => trivial
  | some record => exact hf record

theorem inert_acceptLost {id : HandoffId} {orgId : OrgId} {userId : UserId} :
    Performs Inert (acceptLost id orgId userId) := by
  refine inert_found fun record => ?_
  split
  · trivial
  · split <;> trivial

theorem wp_acceptHandoff {id : HandoffId} {orgId : OrgId} {userId : UserId} :
    wp ledgerDiscipline .idle (acceptHandoff settings id orgId userId) (returns fun _ _ => True) := by
  refine wp_found fun record => ?_
  split
  · split <;> trivial
  · split
    · trivial
    · refine wp_then (wp_inert (inert_execute (o := .now) trivial)) fun c' now hc => ?_
      subst hc
      refine wp_then (wp_updateStatus_guarded rfl (fun h => absurd rfl h)) fun c' reply hc => ?_
      subst hc
      cases reply with
      | none => exact wp_returns_mono (wp_inert inert_acceptLost) fun _ _ _ => trivial
      | some record =>
        refine wp_then wp_linkSession fun c' _ hc => ?_
        subst hc
        refine wp_then (wp_recordMark rfl) fun _ _ _ => ?_
        refine wp_then (wp_inert (inert_applyHandoffActive id)) fun _ _ _ => ?_
        refine wp_then (wp_discard (wp_inert (inert_resumeSession 0))) fun _ _ _ => ?_
        exact wp_then (wp_recordEvent rfl) fun _ _ _ => trivial

theorem inert_completeLost {id : HandoffId} {orgId : OrgId} : Performs Inert (completeLost id orgId) := by
  refine inert_found fun record => ?_
  split <;> trivial

theorem wp_completeHandoff {id : HandoffId} {orgId : OrgId} {resolution : String} :
    wp ledgerDiscipline .idle (completeHandoff settings id orgId resolution) (returns fun _ _ => True) := by
  refine wp_found fun record => ?_
  split
  · trivial
  · split
    · trivial
    · refine wp_then (wp_inert (inert_execute (o := .now) trivial)) fun c' now hc => ?_
      subst hc
      refine wp_then (wp_updateStatus_guarded rfl (fun _ => rfl)) fun c' reply hc => ?_
      subst hc
      cases reply with
      | none => exact wp_returns_mono (wp_inert inert_completeLost) fun _ _ _ => trivial
      | some record =>
        refine wp_then wp_linkSession fun c' _ hc => ?_
        subst hc
        refine wp_then (wp_recordMark rfl) fun _ _ _ => ?_
        exact wp_then (wp_inert inert_clearHandoff) fun _ _ _ => trivial

theorem inert_cancelLost {id : HandoffId} {orgId : OrgId} : Performs Inert (cancelLost id orgId) := by
  refine inert_found fun record => ?_
  split <;> trivial

theorem wp_cancelHandoff {id : HandoffId} {orgId : OrgId} :
    wp ledgerDiscipline .idle (Handoffs.cancelHandoff settings id orgId) (returns fun _ _ => True) := by
  refine wp_found fun record => ?_
  split
  · trivial
  · split
    · trivial
    · refine wp_then (wp_updateStatus_guarded rfl (fun _ => rfl)) fun c' reply hc => ?_
      subst hc
      cases reply with
      | none => exact wp_returns_mono (wp_inert inert_cancelLost) fun _ _ _ => trivial
      | some record =>
        refine wp_then (wp_recordMark rfl) fun _ _ _ => ?_
        refine wp_then wp_linkSession fun _ _ _ => ?_
        exact wp_then (wp_inert inert_clearHandoff) fun _ _ _ => trivial

end programs

theorem Operation.disciplined (settings : HandoffOrchestrator.Settings) (operation : Operation) :
    wp ledgerDiscipline .idle (operation.program settings) fun _ _ => True := by
  have hreturns : wp ledgerDiscipline .idle (operation.program settings) (returns fun _ _ => True) := by
    cases operation with
    | initiateHandoff req => exact wp_discard wp_initiateHandoff
    | acceptHandoff id orgId userId => exact wp_discard wp_acceptHandoff
    | completeHandoff id orgId resolution => exact wp_discard wp_completeHandoff
    | cancelHandoff id orgId => exact wp_discard wp_cancelHandoff
  exact wp_mono hreturns fun _ _ _ => trivial

end VoxForge.Handoffs
