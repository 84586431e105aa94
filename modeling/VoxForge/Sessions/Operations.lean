import VoxForge.Sessions.Manager

/-! Which statements the programs of the session manager issue. -/
namespace VoxForge.Sessions
open Foundation Core Persistence Prog

theorem performs_get {P : Op → Prop} (hselect : P .selectSession) (orgId : Option OrgId) :
    Performs P (SessionRepository.get orgId) := by
  apply performs_bind (performs_perform hselect)
  intro reply
  cases reply with
  | none => trivial
  | some row =>
    dsimp only
    split <;> trivial

theorem performs_updateStatus {P : Op → Prop} {status : SessionStatus} (hselect : P .selectSession)
    (hupdate : P (.updateSessionStatus status)) : Performs P (SessionRepository.updateStatus status) := by
  apply performs_bind (performs_get hselect none)
  intro row
  split
  · exact performs_bind (performs_perform hupdate) fun _ => performs_get hselect none
  · exact performs_get hselect none

/-- An operation that neither touches the session's document nor inserts a handoff or a message,
and does not end the session. -/
def Plain : Op → Prop
  | .getState | .setState _ _ | .deleteState | .insertHandoff _ | .insertMessage _ | .updateSessionEnded _ _ => False
  | .updateSessionStatus status => status.terminal = false
  | _ => True

theorem plain_execute {o : Op} (h : Plain o) : Performs Plain (execute o) := performs_perform h

theorem plain_get (orgId : Option OrgId) : Performs Plain (SessionRepository.get orgId) := performs_get trivial orgId

theorem plain_updateStatus {status : SessionStatus} (h : status.terminal = false) :
    Performs Plain (SessionRepository.updateStatus status) :=
  performs_updateStatus trivial h

/-! The session manager keeps to the row and the document of its session -/

/-- The operations of the manager on a session that has not ended. -/
def Own : Op → Prop
  | .selectSession | .getState | .setState _ _ | .setHeartbeat _ | .now => True
  | .updateSessionStatus status => status.terminal = false
  | _ => False

section own
variable {settings : Sessions.Settings} {α : Type}

theorem own_execute {o : Op} (h : Own o) : Performs Own (execute o) := performs_perform h

theorem own_get (orgId : Option OrgId) : Performs Own (SessionRepository.get orgId) := performs_get trivial orgId

theorem own_updateStatus {status : SessionStatus} (h : status.terminal = false) :
    Performs Own (SessionRepository.updateStatus status) :=
  performs_updateStatus trivial h

theorem own_getState : Performs Own StateStore.getState := by
  apply performs_bind (own_execute (o := .getState) trivial)
  intro reply
  cases reply <;> trivial

theorem own_getStateOrNone : Performs Own StateStore.getStateOrNone := by
  apply performs_tryCatch
  · exact performs_bind own_getState fun _ => trivial
  · intro e
    split <;> trivial

theorem own_saveState (state : SessionState) (ttlSeconds : Nat) :
    Performs Own (StateStore.saveState state ttlSeconds) := own_execute trivial

theorem own_updatePhase (phase : SessionPhase) :
    Performs Own (StateStore.updatePhase settings phase) :=
  performs_bind own_getState fun _ =>
    performs_bind (own_saveState _ _) fun _ => trivial

theorem own_setInterrupt (value : Bool) : Performs Own (StateStore.setInterrupt settings value) :=
  performs_bind own_getState fun _ =>
    performs_bind (own_saveState _ _) fun _ => trivial

theorem own_clearInterrupt : Performs Own (StateStore.clearInterrupt settings) := own_setInterrupt false

theorem own_recordHeartbeat : Performs Own (StateStore.recordHeartbeat settings) := by
  apply performs_bind (own_execute (o := .now) trivial)
  intro now
  apply performs_bind (own_execute (o := .setHeartbeat now) trivial)
  intro _
  apply performs_bind own_getState
  intro state
  apply performs_bind (own_execute (o := .now) trivial)
  intro later
  exact own_saveState _ _

theorem own_writeEphemeralState (state : SessionState) (status : SessionStatus) :
    Performs Own (SessionManager.writeEphemeralState settings state status) :=
  performs_bind (own_saveState _ _) fun _ => own_recordHeartbeat

theorem own_ensureEphemeralState (session : SessionRow) :
    Performs Own (SessionManager.ensureEphemeralState settings session) := by
  apply performs_bind own_getStateOrNone
  intro reply
  cases reply with
  | some existing => trivial
  | none =>
    dsimp only
    split
    · trivial
    · exact performs_bind (own_writeEphemeralState _ _) fun _ => trivial

theorem own_loadOrReconcileState : Performs Own (SessionManager.loadOrReconcileState settings) := by
  apply performs_bind own_getStateOrNone
  intro reply
  cases reply with
  | some state => trivial
  | none => exact performs_bind (own_get none) fun row => own_ensureEphemeralState row

theorem own_getSessionConfig : Performs Own SessionManager.getSessionConfig := by
  apply performs_bind own_getStateOrNone
  intro reply
  cases reply with
  | some state => trivial
  | none => exact performs_bind (own_get none) fun _ => trivial

theorem own_trackToolFailures (failedCount : Int) :
    Performs Own (SessionManager.trackToolFailures settings failedCount) := by
  apply performs_bind own_loadOrReconcileState
  intro state
  apply performs_bind (own_get none)
  intro row
  exact performs_bind (own_writeEphemeralState _ _) fun _ => trivial

/-- The three calls that set a status and write a document for it. -/
theorem own_enter {status : SessionStatus} (h : status.terminal = false) (change : SessionState → SessionState) :
    Performs Own (do
      discard (SessionRepository.updateStatus status)
      let state ← SessionManager.loadOrReconcileState settings
      SessionManager.writeEphemeralState settings (change state) status : Action Unit) := by
  apply performs_bind (performs_discard (own_updateStatus h))
  intro _
  apply performs_bind own_loadOrReconcileState
  intro state
  exact own_writeEphemeralState _ _

theorem own_applyHandoffPending (context : HandoffContext) :
    Performs Own (SessionManager.applyHandoffPending settings context) :=
  own_enter rfl fun state => { state with
    phase := .handoffPending
    config := { state.config with
      handoff := some context
      consecutiveToolFailures := some (state.config.consecutiveToolFailures.getD 0) } }

theorem own_applyHandoffActive (handoffId : HandoffId) :
    Performs Own (SessionManager.applyHandoffActive settings handoffId) :=
  own_enter rfl fun state => { state with
    phase := .handoffActive
    config := { state.config with
      handoff := some { state.config.handoff.getD {} with handoffId := some handoffId } } }

theorem own_clearHandoff : Performs Own (SessionManager.clearHandoff settings) :=
  own_enter rfl fun state => { state with
    phase := .listening
    config := { state.config with handoff := none } }

theorem own_activateSession : Performs Own (SessionManager.activateSession settings) := by
  apply performs_bind (own_get none)
  intro session
  split
  · trivial
  · split
    · trivial
    · have hopen : SessionStatus.terminal .active = false := rfl
      apply performs_bind (own_updateStatus hopen)
      intro session
      apply performs_bind (performs_discard (own_ensureEphemeralState session))
      intro _
      exact performs_bind (performs_discard (own_updatePhase .listening)) fun _ => trivial

theorem own_resumeSession (lastSequence : Int) :
    Performs Own (SessionManager.resumeSession settings lastSequence) := by
  have hbeat (session : SessionRow) : Performs Own (do
      StateStore.recordHeartbeat settings
      return session : Action SessionRow) := performs_bind own_recordHeartbeat fun _ => trivial
  have hbump (session : SessionRow) (state : SessionState) : Performs Own (if state.sequence < lastSequence then do
        SessionManager.writeEphemeralState settings { state with sequence := lastSequence } session.status
        StateStore.recordHeartbeat settings
        return session
      else do
        StateStore.recordHeartbeat settings
        return session : Action SessionRow) := by
    split
    · exact performs_bind (own_writeEphemeralState _ _) fun _ => hbeat session
    · exact hbeat session
  apply performs_bind (own_get none)
  intro session
  split
  · trivial
  · apply performs_bind own_getStateOrNone
    intro reply
    cases reply with
    | some state => exact hbump session state
    | none =>
      apply performs_bind (performs_discard (own_ensureEphemeralState session))
      intro _
      exact performs_bind own_getState (hbump session)

end own
end VoxForge.Sessions
