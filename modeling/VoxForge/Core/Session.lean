import VoxForge.Core.Auth

/-! Sessions: the row in the database and the ephemeral state in Redis. -/
namespace VoxForge.Core

abbrev HandoffId := Nat
/-- A time stamp of the host's clock. -/
abbrev Time := Nat

inductive SessionStatus where
  | created | active | interrupted | completed | failed | handoffPending | handoffActive
  deriving DecidableEq, Repr

/-- `_TERMINAL_STATUSES`. -/
def SessionStatus.terminal (status : SessionStatus) : Bool :=
  status = .completed || status = .failed

inductive SessionPhase where
  | idle | listening | processing | speaking | handoffPending | handoffActive
  deriving DecidableEq, Repr

def phaseForStatus : SessionStatus → SessionPhase
  | .handoffPending => .handoffPending
  | .handoffActive => .handoffActive
  | .active => .listening
  | _ => .idle

inductive HandoffStatus where
  | pending | assigned | active | completed | cancelled
  deriving DecidableEq, Repr

/-- The `handoff` entry of a session config. -/
structure HandoffContext where
  handoffId : Option HandoffId := none
  ticketId : Option String := none
  replayUrl : Option String := none
  summary : Option String := none
  deriving DecidableEq, Repr

/-- The entries of a session config that the session manager reads or writes. -/
structure SessionConfig where
  consecutiveToolFailures : Option Int := none
  handoff : Option HandoffContext := none
  deriving DecidableEq, Repr

structure SessionRow where
  status : SessionStatus := .created
  orgId : Option OrgId := none
  metadata : SessionConfig := {}
  endedAt : Option Time := none
  handoffId : Option HandoffId := none
  handoffStatus : Option HandoffStatus := none
  deriving DecidableEq, Repr

structure SessionState where
  phase : SessionPhase := .idle
  sequence : Int := 0
  interrupt : Bool := false
  lastHeartbeat : Option Time := none
  config : SessionConfig := {}
  deriving DecidableEq, Repr

end VoxForge.Core
