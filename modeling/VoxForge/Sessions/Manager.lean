import VoxForge.Persistence.Statements

/-! The session repository, the Redis store of session states and the session
manager over both, statement by statement. Reading a row object issues a statement
each time: no object outlives the call that loaded it. -/
namespace VoxForge.Sessions
open Foundation Core Persistence

structure Settings where
  sessionStateTtlSeconds : Nat := 3600
  handoffSessionTtlSeconds : Nat := 14400
  deriving DecidableEq, Repr

namespace SessionRepository

def get (orgId : Option OrgId) : Action SessionRow := do
  match ← execute .selectSession with
  | none => .raise .sessionNotFound
  | some row =>
    if orgId.isSome ∧ row.orgId ≠ orgId then .raise .sessionNotFound else return row

/-- The mapper issues an `UPDATE` only for a value that differs from the loaded one. -/
def updateStatus (status : SessionStatus) : Action SessionRow := do
  let row ← get none
  if row.status ≠ status then execute (.updateSessionStatus status)
  get none

def endSession (status : SessionStatus) : Action SessionRow := do
  let row ← get none
  if row.status.terminal then return row
  let now ← execute .now
  execute (.updateSessionEnded status now)
  get none

end SessionRepository

namespace StateStore
variable (settings : Settings)

def getState : Action SessionState := do
  match ← execute .getState with
  | none => .raise .sessionNotFound
  | some state => return state

def getStateOrNone : Action (Option SessionState) :=
  .tryCatch (do return some (← getState)) fun e =>
    if e = .sessionNotFound then return none else .raise e

def saveState (state : SessionState) (ttlSeconds : Nat) : Action Unit :=
  execute (.setState state ttlSeconds)

def updatePhase (phase : SessionPhase) : Action SessionState := do
  let state ← getState
  let state := { state with phase, sequence := state.sequence + 1 }
  saveState state settings.sessionStateTtlSeconds
  return state

def setInterrupt (value : Bool) : Action SessionState := do
  let state ← getState
  let state := { state with interrupt := value, sequence := state.sequence + 1 }
  saveState state settings.sessionStateTtlSeconds
  return state

def clearInterrupt : Action SessionState := setInterrupt settings false

def recordHeartbeat : Action Unit := do
  let now ← execute .now
  execute (.setHeartbeat now)
  let state ← getState
  let now ← execute .now
  saveState { state with lastHeartbeat := some now } settings.sessionStateTtlSeconds

def deleteState : Action Unit := execute .deleteState

end StateStore

namespace SessionManager
variable (settings : Settings)
open StateStore

def ttlForStatus (status : SessionStatus) : Nat :=
  if status ∈ [.handoffPending,.handoffActive] then settings.handoffSessionTtlSeconds
  else settings.sessionStateTtlSeconds

def writeEphemeralState (state : SessionState) (status : SessionStatus) : Action Unit := do
  saveState state (ttlForStatus settings status)
  recordHeartbeat settings

def ensureEphemeralState (session : SessionRow) : Action SessionState := do
  match ← getStateOrNone with
  | some existing => return existing
  | none =>
    if session.status.terminal then
      .raise (.sessionState "Cannot reconcile ephemeral state for terminal session")
    else
      let state : SessionState :=
        { phase := phaseForStatus session.status, config := session.metadata }
      writeEphemeralState settings state session.status
      return state

def loadOrReconcileState : Action SessionState := do
  match ← getStateOrNone with
  | some state => return state
  | none => ensureEphemeralState settings (← SessionRepository.get none)

/-- `create_session` after the insertion of the row. -/
def createSession (session : SessionRow) : Action SessionRow := do
  let state : SessionState := { config := session.metadata }
  .tryCatch (writeEphemeralState settings state session.status) fun e =>
    if e = .cancelled then .raise e
    else do
      discard (SessionRepository.endSession .failed)
      .raise (.sessionState "Failed to initialize session ephemeral state")
  return session

/-- Every exception but a cancellation is logged and dropped. -/
def bestEffortDeleteRedis : Action Bool :=
  .tryCatch (do deleteState; return true) fun e =>
    if e = .cancelled then .raise e else return false

def activateSession : Action SessionRow := do
  let session ← SessionRepository.get none
  if session.status = .active then return session
  else if session.status.terminal then .raise (.sessionState "Cannot activate terminal session")
  else
    let session ← SessionRepository.updateStatus .active
    discard (ensureEphemeralState settings session)
    discard (updatePhase settings .listening)
    return session

def resumeSession (lastSequence : Int) : Action SessionRow := do
  let session ← SessionRepository.get none
  if session.status.terminal then .raise (.sessionState "Cannot resume terminal session")
  else
    let state ← match ← getStateOrNone with
      | some state => pure state
      | none => do
        discard (ensureEphemeralState settings session)
        getState
    if state.sequence < lastSequence then
      writeEphemeralState settings { state with sequence := lastSequence } session.status
    recordHeartbeat settings
    return session

def endSession : Action SessionRow := do
  let session ← SessionRepository.get none
  if session.status.terminal then
    discard bestEffortDeleteRedis
    return session
  else
    let ended ← SessionRepository.endSession .completed
    discard bestEffortDeleteRedis
    return ended

def getSessionConfig : Action SessionConfig := do
  match ← getStateOrNone with
  | some state => return state.config
  | none => return (← SessionRepository.get none).metadata

def applyHandoffPending (context : HandoffContext) : Action Unit := do
  discard (SessionRepository.updateStatus .handoffPending)
  let state ← loadOrReconcileState settings
  let config := { state.config with
    handoff := some context
    consecutiveToolFailures := some (state.config.consecutiveToolFailures.getD 0) }
  writeEphemeralState settings { state with phase := .handoffPending, config } .handoffPending

def applyHandoffActive (handoffId : HandoffId) : Action Unit := do
  discard (SessionRepository.updateStatus .handoffActive)
  let state ← loadOrReconcileState settings
  let handoff := { state.config.handoff.getD {} with handoffId := some handoffId }
  writeEphemeralState settings
    { state with phase := .handoffActive, config := { state.config with handoff := some handoff } }
    .handoffActive

def clearHandoff : Action Unit := do
  discard (SessionRepository.updateStatus .active)
  let state ← loadOrReconcileState settings
  writeEphemeralState settings
    { state with phase := .listening, config := { state.config with handoff := none } } .active

def trackToolFailures (failedCount : Int) : Action Int := do
  let state ← loadOrReconcileState settings
  let current := state.config.consecutiveToolFailures.getD 0
  let current := if failedCount > 0 then current + failedCount else 0
  let status := (← SessionRepository.get none).status
  writeEphemeralState settings
    { state with config := { state.config with consecutiveToolFailures := some current } } status
  return current

end SessionManager
end VoxForge.Sessions
