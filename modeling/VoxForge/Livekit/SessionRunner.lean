import VoxForge.Foundation.Runs

/-! The runner of a LiveKit session: the ingress, listening and heartbeat tasks around one
bounded audio queue, the send tasks of the transcription streams, which alone consume the
queue, and the calls of `shutdown`. The event loop takes one step of one task at a time, in
any order. A task that is cancelled goes no further than the await it stands at. -/
namespace VoxForge.Livekit
open Foundation

abbrev Frame := List UInt8

/-- `none` is the end sentinel. -/
abbrev AudioQueue := List (Option Frame)

def audioQueueMaxsize : Nat := 256

def putNowait (queue : AudioQueue) (item : Option Frame) : Option AudioQueue :=
  if queue.length < audioQueueMaxsize then some (queue ++ [item]) else none

/-- The end of `_ingress_audio`'s loop body: a full queue loses its oldest frame. -/
def ingressPut (queue : AudioQueue) (pcm : Frame) : AudioQueue :=
  match putNowait queue (some pcm) with
  | some queue => queue
  | none => (putNowait queue.tail (some pcm)).getD queue.tail

/-- A field for a task, with the await the task stands at. -/
inductive Task (α : Type) where
  | absent
  | running (point : α)
  /-- Cancelled, with the `CancelledError` still on its way. -/
  | cancelling (point : α)
  | done
  deriving DecidableEq, Repr

/-- `if task and not task.done(): task.cancel()` -/
def Task.cancel {α : Type} : Task α → Task α
  | .running point => .cancelling point
  | task => task

def Task.isCancelling {α : Type} : Task α → Bool
  | .cancelling _ => true
  | _ => false

inductive IngressPoint where
  | awaitingFrame
  /-- In `_maybe_barge_in`. -/
  | checkingPhase (pcm : Frame)
  deriving DecidableEq, Repr

/-- Where `_continuous_listening` stands. A stream is one call of `transcribe_stream` that has
started its send task. -/
inductive ListeningPoint where
  /-- Outside any stream: it connects, or reports an error. -/
  | opening
  | receiving (stream : Nat)
  /-- In the body of `run_listening`'s loop, a turn included. -/
  | handling (stream : Nat)
  /-- The clean-up of the stream awaits its send task. -/
  | closing (stream : Nat)
  deriving DecidableEq, Repr

def ListeningPoint.stream? : ListeningPoint → Option Nat
  | .opening => none
  | .receiving stream | .handling stream | .closing stream => some stream

inductive HeartbeatPoint where
  | sleeping | recording
  deriving DecidableEq, Repr

/-- A `send_audio` task that has not ended. -/
structure Sender where
  stream : Nat
  cancelled : Bool := false
  deriving DecidableEq, Repr

/-- Where a call of `shutdown` stands. -/
inductive ShutdownCall where
  | putting (reason : String)
  | ending
  | returned
  deriving DecidableEq, Repr

/-- The calls of `end_session` that a call of `shutdown` has made. -/
def ShutdownCall.endings : ShutdownCall → Nat
  | .putting _ => 0
  | .ending | .returned => 1

def ShutdownCall.clearings : ShutdownCall → Nat
  | .putting _ | .ending => 0
  | .returned => 1

/-- The runner of a prepared session. The last two fields record the calls of `end_session`,
by their reasons, and of `clear_session`. -/
structure SessionRunner where
  audioQueue : AudioQueue := []
  shutdownSet : Bool := false
  ingressTask : Task IngressPoint := .absent
  listeningTask : Task ListeningPoint := .absent
  heartbeatTask : Task HeartbeatPoint := .absent
  streams : Nat := 0
  senders : List Sender := []
  shutdownCalls : List ShutdownCall := []
  ended : List String := []
  cleared : Nat := 0
  deriving DecidableEq, Repr

inductive IngressEvent where
  /-- The next frame, converted for the pipeline. -/
  | frame (pcm : Frame)
  | phaseChecked
  /-- The frames end, or an exception leaves the task. -/
  | ends
  | cancelled
  deriving DecidableEq, Repr

inductive ListeningEvent where
  | opened
  | transcript
  | handled
  /-- `run_listening` returns from outside the stream: an interrupt or an exception. -/
  | left
  /-- The provider's socket is at its end, or fails. -/
  | streamEnds
  | closed
  /-- An exception leaves `run_listening`. -/
  | fails
  | cancelled
  deriving DecidableEq, Repr

inductive HeartbeatEvent where
  | awake | recorded | fails | cancelled
  deriving DecidableEq, Repr

inductive SenderEvent where
  | take
  | fails
  | cancelled
  /-- The event loop closes a stream that nobody iterates any more. -/
  | finalized
  deriving DecidableEq, Repr

inductive RunnerEvent where
  | start
  | ingress (event : IngressEvent)
  | listening (event : ListeningEvent)
  | heartbeat (event : HeartbeatEvent)
  | sender (stream : Nat) (event : SenderEvent)
  | shutdown (reason : String)
  | putResumes (call : Nat)
  /-- `end_session` and the commit are over. A failure is logged. -/
  | endReturns (call : Nat) (failed : Bool)
  deriving DecidableEq, Repr

namespace SessionRunner

/-- The worker starts its runner at most once, and before it shuts it down. -/
def start (r : SessionRunner) : Option SessionRunner :=
  if r.shutdownSet = false ∧ r.listeningTask = .absent then
    some { r with
      listeningTask := .running .opening
      heartbeatTask := .running .sleeping
      ingressTask := .running .awaitingFrame }
  else none

def ingressAudio (r : SessionRunner) (event : IngressEvent) : Option SessionRunner :=
  match r.ingressTask,event with
  | .running .awaitingFrame,.frame pcm =>
    if r.shutdownSet then some { r with ingressTask := .done }
    else if pcm.isEmpty then some r
    else some { r with ingressTask := .running (.checkingPhase pcm) }
  | .running (.checkingPhase pcm),.phaseChecked => some { r with
      ingressTask := .running .awaitingFrame
      audioQueue := ingressPut r.audioQueue pcm }
  | .running _,.ends => some { r with ingressTask := .done }
  | .cancelling _,.cancelled => some { r with ingressTask := .done }
  | _,_ => none

def cancelSender (r : SessionRunner) (stream : Nat) : SessionRunner :=
  { r with senders := r.senders.map fun s => { s with cancelled := s.cancelled || s.stream = stream } }

def endSender (r : SessionRunner) (stream : Nat) : SessionRunner :=
  { r with senders := r.senders.filter (·.stream ≠ stream) }

/-- The head of the loop in `_continuous_listening`. -/
def nextStream (r : SessionRunner) : SessionRunner :=
  { r with listeningTask := if r.shutdownSet then .done else .running .opening }

def continuousListening (r : SessionRunner) (event : ListeningEvent) : Option SessionRunner :=
  match r.listeningTask,event with
  | .running .opening,.opened => some { r with
      listeningTask := .running (.receiving r.streams)
      streams := r.streams + 1
      senders := r.senders ++ [{ stream := r.streams }] }
  | .running .opening,.left => some r.nextStream
  | .running .opening,.fails => some { r with listeningTask := .done }
  | .running (.receiving stream),.transcript => some { r with listeningTask := .running (.handling stream) }
  | .running (.handling stream),.handled => some { r with listeningTask := .running (.receiving stream) }
  -- The stream is dropped where it yielded, with its send task at work.
  | .running (.handling _),.left => some r.nextStream
  | .running (.receiving stream),.streamEnds =>
    some ({ r with listeningTask := .running (.closing stream) }.cancelSender stream)
  | .running (.closing stream),.closed =>
    if r.senders.all (·.stream ≠ stream) then some r.nextStream else none
  | .cancelling .opening,.cancelled => some { r with listeningTask := .done }
  | .cancelling (.handling _),.cancelled => some { r with listeningTask := .done }
  -- The clean-up cancels its send task, and so does a cancellation of the clean-up itself.
  | .cancelling (.receiving stream),.cancelled | .cancelling (.closing stream),.cancelled =>
    some ({ r with listeningTask := .running (.closing stream) }.cancelSender stream)
  | _,_ => none

def heartbeatLoop (r : SessionRunner) (event : HeartbeatEvent) : Option SessionRunner :=
  match r.heartbeatTask,event with
  | .running .sleeping,.awake => some { r with heartbeatTask := .running .recording }
  | .running .recording,.recorded =>
    some { r with heartbeatTask := if r.shutdownSet then .done else .running .sleeping }
  | .running .recording,.fails => some { r with heartbeatTask := .done }
  | .cancelling _,.cancelled => some { r with heartbeatTask := .done }
  | _,_ => none

/-- The stream that the listening task is in. -/
def stream? (r : SessionRunner) : Option Nat :=
  match r.listeningTask with
  | .running point | .cancelling point => point.stream?
  | _ => none

/-- `send_audio` of one stream. The sentinel ends it. -/
def sendAudio (r : SessionRunner) (stream : Nat) (event : SenderEvent) : Option SessionRunner :=
  match event with
  | .take =>
    if { stream } ∈ r.senders then
      match r.audioQueue with
      | [] => none
      | some _ :: queue => some { r with audioQueue := queue }
      | none :: queue => some ({ r with audioQueue := queue }.endSender stream)
    else none
  | .fails => if { stream } ∈ r.senders then some (r.endSender stream) else none
  | .cancelled => if { stream, cancelled := true } ∈ r.senders then some (r.endSender stream) else none
  | .finalized =>
    if { stream } ∈ r.senders ∧ r.stream? ≠ some stream then some (r.cancelSender stream) else none

/-- `await self._audio_queue.put(None)` and the call of `end_session` after it, where the
queue has room. -/
def putSentinel (r : SessionRunner) (reason : String) : Option SessionRunner :=
  (putNowait r.audioQueue none).map fun queue =>
    { r with audioQueue := queue, ended := r.ended ++ [reason] }

/-- The flag, and the tasks that are not done. -/
def cancelTasks (r : SessionRunner) : SessionRunner :=
  { r with
    shutdownSet := true
    ingressTask := r.ingressTask.cancel
    listeningTask := r.listeningTask.cancel
    heartbeatTask := r.heartbeatTask.cancel }

/-- `shutdown`, up to its first suspension: a put on a full queue, or `end_session`. -/
def shutdown (r : SessionRunner) (reason : String) : SessionRunner :=
  if r.shutdownSet then { r with shutdownCalls := r.shutdownCalls ++ [.returned] }
  else match r.cancelTasks.putSentinel reason with
    | some r => { r with shutdownCalls := r.shutdownCalls ++ [.ending] }
    | none => { r.cancelTasks with shutdownCalls := r.shutdownCalls ++ [.putting reason] }

def putResumes (r : SessionRunner) (call : Nat) : Option SessionRunner :=
  match r.shutdownCalls[call]? with
  | some (.putting reason) =>
    (r.putSentinel reason).map fun r => { r with shutdownCalls := r.shutdownCalls.set call .ending }
  | _ => none

/-- The rest of `shutdown`: `clear_session`, whether or not ending the session failed. -/
def endReturns (r : SessionRunner) (call : Nat) : Option SessionRunner :=
  if r.shutdownCalls[call]? = some .ending then
    some { r with
      shutdownCalls := r.shutdownCalls.set call .returned
      cleared := r.cleared + 1 }
  else none

def step (r : SessionRunner) : RunnerEvent → Option SessionRunner
  | .start => r.start
  | .ingress event => r.ingressAudio event
  | .listening event => r.continuousListening event
  | .heartbeat event => r.heartbeatLoop event
  | .sender stream event => r.sendAudio stream event
  | .shutdown reason => some (r.shutdown reason)
  | .putResumes call => r.putResumes call
  | .endReturns call _ => r.endReturns call

/-- The step belongs to a task that has been cancelled. -/
def ofCancelledTask (r : SessionRunner) : RunnerEvent → Bool
  | .ingress _ => r.ingressTask.isCancelling
  | .listening _ => r.listeningTask.isCancelling
  | .heartbeat _ => r.heartbeatTask.isCancelling
  | .sender stream _ => { stream, cancelled := true } ∈ r.senders
  | _ => false

/-- A step of the tasks and of the calls that are under way. -/
def advance (r : SessionRunner) : RunnerEvent → Option SessionRunner
  | .shutdown _ => none
  | event => r.step event

def HasRoom (r : SessionRunner) : Prop := r.audioQueue.length < audioQueueMaxsize

/-- A call of `shutdown` waits at the put, and no schedule makes room without a step of a task
that has been cancelled. -/
def WaitsForCancelled (r : SessionRunner) : Prop :=
  (∃ reason, .putting reason ∈ r.shutdownCalls) ∧ ¬ r.HasRoom ∧
    ∀ schedule t, run step r schedule = some t → t.HasRoom →
      ∃ a event b, Fires step r schedule a event b ∧ a.ofCancelledTask event = true

/-- The session has been ended once, and its history cleared. -/
def Closed (r : SessionRunner) : Prop := r.ended.length = 1 ∧ r.cleared = 1

/-- What a runner that is shut down owes. -/
structure Lawful (r : SessionRunner) : Prop where
  free : ¬ r.WaitsForCancelled
  once : r.ended.length ≤ 1
  reached : Inevitable advance Closed r

end SessionRunner
end VoxForge.Livekit
