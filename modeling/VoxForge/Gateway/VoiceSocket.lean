import VoxForge.Foundation.Runs

/-! The receive loop of the voice WebSocket: one control message or audio frame
at a time, with the partial result of the message handler merged back into the
loop's variables, and the cleanup that follows the loop. -/
namespace VoxForge.Gateway

abbrev SessionId := Nat
abbrev TaskId := Nat
abbrev Frame := List UInt8

/-- The bounded ingress queue; `none` is the end sentinel. -/
abbrev AudioQueue := List (Option Frame)

def wsAudioQueueMaxFrames : Nat := 256

def putNowait (queue : AudioQueue) (item : Option Frame) : Option AudioQueue :=
  if queue.length < wsAudioQueueMaxFrames then some (queue ++ [item]) else none

def getNowait : AudioQueue → Option (Option Frame × AudioQueue)
  | [] => none
  | item :: queue => some (item,queue)

/-- Enqueue the newest frame, dropping the oldest when ingress is saturated.
The flag says that a frame was dropped. -/
def enqueueAudioFrame (queue : AudioQueue) (frame : Frame) : Bool × AudioQueue :=
  match putNowait queue (some frame) with
  | some queue => (false,queue)
  | none =>
    let queue := match getNowait queue with
      | some (_,rest) => rest
      | none => queue
    match putNowait queue (some frame) with
    | some queue => (true,queue)
    | none => (true,queue)

/-- Empty the queue and leave the end sentinel in it. -/
def signalAudioEnd : AudioQueue → AudioQueue
  | [] => [none]
  | _ :: queue => signalAudioEnd queue

/-- A decoded JSON object of the control protocol. -/
structure ControlMessage where
  type : Option String
  sessionId : Option String
  lastSequence : Nat
  deriving DecidableEq, Repr

/-- What `json.loads` makes of a text frame. -/
inductive ControlText where
  | invalidJson
  | notAnObject
  | object (msg : ControlMessage)
  deriving DecidableEq, Repr

inductive Reply where
  | error (code message : String)
  | started (session : SessionId)
  | interrupted
  | ended (session : SessionId)
  | pong
  deriving DecidableEq, Repr

/-- `SessionNotFoundError`, which a resume answers, and every other exception,
which leaves the handler. -/
inductive SessionFault where
  | notFound
  | raised
  deriving DecidableEq, Repr

/-- The answers of the services that one control message calls. -/
structure Calls where
  resolveWsPrincipal : Except (String × String) Unit
  enforceAuthenticatedLimits : Except String Unit
  uuid : String → Option SessionId
  resumeSession : SessionId → Nat → Except SessionFault SessionId
  createSession : Except SessionFault SessionId
  activateSession : SessionId → Except SessionFault Unit
  bootstrap : SessionId → Except SessionFault Unit
  interrupt : SessionId → Except SessionFault Unit
  endSession : SessionId → Except SessionFault Unit
  recordHeartbeat : SessionId → Except SessionFault Unit
  newListeningTask : TaskId
  newHeartbeatTask : TaskId
  done : TaskId → Bool

/-- The partial dictionary a handler returns. A missing `session_id` key is
`none`, a key holding `None` is `some none`. -/
structure Result where
  sessionId : Option (Option SessionId) := none
  responseGenerator : Option SessionId := none
  listeningTask : Option TaskId := none
  heartbeatTask : Option TaskId := none
  audioQueue : AudioQueue
  cancelled : List TaskId := []
  replies : List Reply := []
  deriving DecidableEq, Repr

/-- The variables of the loop. The last four fields record what it did. -/
structure Conn where
  sessionId : Option SessionId := none
  audioQueue : AudioQueue := []
  responseGenerator : Option SessionId := none
  listeningTask : Option TaskId := none
  heartbeatTask : Option TaskId := none
  closed : Bool := false
  replies : List Reply := []
  cancelled : List TaskId := []
  enqueued : List Frame := []
  cleanup : List (SessionId × String) := []
  deriving DecidableEq, Repr

def cancelUnlessDone (calls : Calls) : Option TaskId → List TaskId
  | none => []
  | some task => if calls.done task then [] else [task]

/-- Looking the session up by id answers a missing one; every other fault of the
branch leaves the handler. -/
def startSession (calls : Calls) (msg : ControlMessage) (resumeId : String) :
    Except Unit (Option SessionId) :=
  if resumeId ≠ "" then
    match calls.uuid resumeId with
    | none => .error ()
    | some id => match calls.resumeSession id msg.lastSequence with
      | .ok session => .ok (some session)
      | .error .notFound => .ok none
      | .error .raised => .error ()
  else match calls.createSession with
    | .ok session => .ok (some session)
    | .error _ => .error ()

/-- Sending a reply cannot fail here. A start whose reply raises leaves the handler as one whose
`bootstrap` raises. -/
def handleStart (calls : Calls) (msg : ControlMessage) (conn : Conn) : Except Unit Result :=
  let result : Result := { audioQueue := conn.audioQueue }
  match calls.resolveWsPrincipal with
  | .error (code,message) => .ok { result with replies := [.error code message] }
  | .ok () => match calls.enforceAuthenticatedLimits with
    | .error detail => .ok { result with replies := [.error "rate_limit_exceeded" detail] }
    | .ok () => match startSession calls msg (msg.sessionId.getD "") with
      | .error () => .error ()
      | .ok none =>
        .ok { result with replies := [.error "session_not_found" "Session not found"] }
      | .ok (some session) => match calls.activateSession session with
        | .error _ => .error ()
        | .ok () => match calls.bootstrap session with
          | .error _ => .error ()
          | .ok () => .ok { result with
              sessionId := some (some session)
              responseGenerator := some session
              listeningTask := some calls.newListeningTask
              heartbeatTask := some calls.newHeartbeatTask
              replies := [.started session] }

def handleInterrupt (calls : Calls) (conn : Conn) : Except Unit Result :=
  match conn.sessionId with
  | none => .ok { audioQueue := conn.audioQueue }
  | some session => match calls.interrupt session with
    | .error _ => .error ()
    | .ok () => .ok { audioQueue := conn.audioQueue, replies := [.interrupted] }

def handleEnd (calls : Calls) (conn : Conn) : Except Unit Result :=
  match conn.sessionId with
  | none => .ok { audioQueue := conn.audioQueue }
  | some session => match calls.endSession session with
    | .error _ => .error ()
    | .ok () => .ok {
        audioQueue := signalAudioEnd conn.audioQueue
        cancelled := cancelUnlessDone calls conn.listeningTask ++
          cancelUnlessDone calls conn.heartbeatTask
        sessionId := some none
        replies := [.ended session] }

def handlePing (calls : Calls) (conn : Conn) : Except Unit Result :=
  match conn.sessionId with
  | none => .ok { audioQueue := conn.audioQueue, replies := [.pong] }
  | some session => match calls.recordHeartbeat session with
    | .error _ => .error ()
    | .ok () => .ok { audioQueue := conn.audioQueue, replies := [.pong] }

/-- `_handle_control_message`. An exception that leaves the handler is `.error`. -/
def handleControlMessage (calls : Calls) (raw : ControlText) (conn : Conn) :
    Except Unit Result :=
  match raw with
  | .invalidJson => .ok {
      audioQueue := conn.audioQueue
      replies := [.error "invalid_json" "Invalid JSON"] }
  | .notAnObject => .error ()
  | .object msg =>
    if msg.type = some "start" then handleStart calls msg conn
    else if msg.type = some "interrupt" then handleInterrupt calls conn
    else if msg.type = some "end" then handleEnd calls conn
    else if msg.type = some "ping" then handlePing calls conn
    else .ok { audioQueue := conn.audioQueue }

/-- The two assignments of `session_id` after a control message: first
`result.get("session_id", session_id)`, then the test on `result.get("session_id")`,
which is `None` both for a missing key and for a key holding `None`. -/
def mergeSessionId (result : Result) (sessionId : Option SessionId) : Option SessionId :=
  let sessionId := result.sessionId.getD sessionId
  if result.sessionId.join = none ∧ sessionId ≠ none then none else sessionId

def merge (conn : Conn) (result : Result) : Conn :=
  { conn with
    sessionId := mergeSessionId result conn.sessionId
    audioQueue := result.audioQueue
    responseGenerator := result.responseGenerator <|> conn.responseGenerator
    listeningTask := result.listeningTask <|> conn.listeningTask
    heartbeatTask := result.heartbeatTask <|> conn.heartbeatTask
    replies := conn.replies ++ result.replies
    cancelled := conn.cancelled ++ result.cancelled }

/-- The `finally` block of the socket handler. -/
def close (calls : Calls) (conn : Conn) : Conn :=
  { conn with
    closed := true
    audioQueue := signalAudioEnd conn.audioQueue
    cancelled := conn.cancelled ++ cancelUnlessDone calls conn.listeningTask ++
      cancelUnlessDone calls conn.heartbeatTask
    cleanup := match conn.sessionId with
      | some session => [(session,"disconnect")]
      | none => [] }

/-- An exception of the handler is answered and ends the loop. -/
def fail (calls : Calls) (conn : Conn) : Conn :=
  close calls { conn with
    replies := conn.replies ++ [.error "internal_error" "Internal error"] }

inductive Label where
  | text (raw : ControlText) (calls : Calls)
  | bytes (frame : Frame)
  /-- The listening task takes one item from the queue. -/
  | consume
  | disconnect (calls : Calls)

def step (conn : Conn) (label : Label) : Option Conn :=
  match label with
  | .consume => (getNowait conn.audioQueue).map fun item =>
      { conn with audioQueue := item.2 }
  | .text raw calls =>
    if conn.closed then none else
      match handleControlMessage calls raw conn with
      | .ok result => some (merge conn result)
      | .error () => some (fail calls conn)
  | .bytes frame =>
    if conn.closed then none
    else if conn.sessionId = none then some conn
    else some { conn with
      audioQueue := (enqueueAudioFrame conn.audioQueue frame).2
      enqueued := conn.enqueued ++ [frame] }
  | .disconnect calls => if conn.closed then none else some (close calls conn)

end VoxForge.Gateway
