import VoxForge.Foundation.Channel
import VoxForge.Gateway.SocketTracking

/-! The listeners of one socket, which share its audio queue: which frames each of them gets,
and what stops it. -/
namespace VoxForge.Gateway
open Foundation

/-- A frame with its place among those the client has sent. -/
abbrev SentFrame := Nat × Frame

inductive Stop where
  /-- It read an end sentinel, which was put for the listener of that number. -/
  | sentinel (origin : Nat)
  | cancelled
  /-- The transcription ended or raised. -/
  | finished
  deriving DecidableEq, Repr

/-- A task of `listen()`. `found` records how many items its start found in the queue, `sent` the
frames that the client sends after the start of its session and before its end, `received` the
frames the listener got, each with the number of the listener it was queued for. -/
structure Listener where
  stopped : Option Stop := none
  ended : Bool := false
  found : Nat := 0
  sent : List SentFrame := []
  received : List (Nat × SentFrame) := []
  deriving DecidableEq, Repr

/-- The loop's variables, its queue with the listener each item was put for, the listeners in
the order of their starts, and how many frames the client has sent. -/
structure Socket where
  conn : Conn := {}
  queue : List (Nat × Option SentFrame) := []
  listeners : List Listener := []
  frames : Nat := 0
  deriving DecidableEq, Repr

/-- The client's frames, the end of the connection, and the steps of the listeners. -/
inductive SocketEvent where
  | start (sessionId : Option String) (lastSequence : Nat) (calls : Calls)
  | audio (frame : Frame)
  | endSession (calls : Calls)
  | disconnect (calls : Calls)
  | consume (listener : Nat)
  | finish (listener : Nat)
  /-- The cancellation of a listener takes effect. -/
  | cancelled (listener : Nat)

def startMessage (sessionId : Option String) (lastSequence : Nat) : ControlMessage :=
  ⟨some "start",sessionId,lastSequence⟩

def endMessage : ControlMessage := ⟨some "end",none,0⟩

namespace Socket

def latest (s : Socket) : Nat := s.listeners.length - 1

/-- The tasks as the loop sees them: listener `n` runs in task `2 * n`, beside its heartbeat. -/
def tasks (s : Socket) (calls : Calls) : Calls :=
  { calls with
    newListeningTask := 2 * s.listeners.length
    newHeartbeatTask := 2 * s.listeners.length + 1
    done := fun task => task % 2 = 0 && s.listeners[task / 2]?.any (·.stopped.isSome) }

/-- One item for a listener that has asked for it. -/
def take (origin : Nat) (item : Option SentFrame) (l : Listener) : Listener :=
  match item with
  | some frame => { l with received := l.received ++ [(origin,frame)] }
  | none => { l with stopped := some (.sentinel origin) }

def running (s : Socket) (i : Nat) : Bool := s.listeners[i]?.any (·.stopped.isNone)

def stop (s : Socket) (i : Nat) (how : Stop) : Option Socket :=
  if s.running i then
    some { s with listeners := s.listeners.modify i fun l => { l with stopped := some how } }
  else none

def step (s : Socket) : SocketEvent → Option Socket
  | .start sessionId lastSequence calls =>
    let frame := ControlText.object (startMessage sessionId lastSequence)
    (Gateway.step s.conn (.text frame (s.tasks calls))).map fun conn =>
      { s with
        conn
        queue := if conn.closed then [(s.latest,none)] else s.queue
        listeners := if conn.listeningTask = s.conn.listeningTask then s.listeners
          else s.listeners ++ [{ found := s.queue.length }] }
  | .audio frame =>
    (Gateway.step s.conn (.bytes frame)).map fun conn =>
      { conn
        queue := if s.conn.sessionId = none then s.queue
          else offer wsAudioQueueMaxFrames s.queue (s.latest,some (s.frames,frame))
        listeners := s.listeners.map fun l =>
          if l.ended then l else { l with sent := l.sent ++ [(s.frames,frame)] }
        frames := s.frames + 1 }
  | .endSession calls =>
    (Gateway.step s.conn (.text (.object endMessage) (s.tasks calls))).map fun conn =>
      { s with
        conn
        queue := if s.conn.sessionId = none then s.queue else [(s.latest,none)]
        listeners := s.listeners.modify s.latest fun l => { l with ended := true } }
  | .disconnect calls =>
    (Gateway.step s.conn (.disconnect (s.tasks calls))).map fun conn =>
      { s with conn, queue := [(s.latest,none)] }
  | .consume i =>
    match s.queue with
    | [] => none
    | (origin,item) :: queue =>
      if s.running i then
        (Gateway.step s.conn .consume).map fun conn =>
          { s with conn, queue, listeners := s.listeners.modify i (take origin item) }
      else none
  | .finish i => s.stop i .finished
  | .cancelled i => if 2 * i ∈ s.conn.cancelled then s.stop i .cancelled else none

/-- The frames in the queue that were put there for that listener. -/
def waiting (s : Socket) (i : Nat) : List SentFrame :=
  s.queue.filterMap fun x => if x.1 = i then x.2 else none

end Socket

/-- The listener of that number got a drop-oldest subsequence of its own session's frames, and
no other session's sentinel stopped it. -/
structure Heard (number : Nat) (l : Listener) : Prop where
  frames : ∀ x ∈ l.received, x.1 = number
  dropsOldest : DropsOldest wsAudioQueueMaxFrames l.sent (l.received.map Prod.snd)
  sentinel : ∀ origin, l.stopped = some (.sentinel origin) → origin = number

/-- While its session lasts, what the listener has not got waits in the queue, but for the
oldest frames, which a full queue has dropped. -/
structure OwnAudio (s : Socket) (number : Nat) (l : Listener) : Prop extends Heard number l where
  served : s.conn.closed = false → l.stopped = none → l.ended = false →
    Channel wsAudioQueueMaxFrames l.sent (l.received.map Prod.snd) (s.waiting number)

/-- What a listener got is in the order of its session's frames, none of them twice. -/
theorem OwnAudio.sublist {s : Socket} {number : Nat} {l : Listener} (h : OwnAudio s number l) :
    (l.received.map Prod.snd).Sublist l.sent :=
  h.dropsOldest.sublist

/-- Every listener hears its own session, and no two of them run at once. -/
structure Isolated (s : Socket) : Prop where
  listener : ∀ (i : Nat) (l : Listener), s.listeners[i]? = some l → OwnAudio s i l
  alone : ∀ i j, s.running i → s.running j → i = j

/-- A start that succeeds finds no listener running. An audio frame finds the loop's session
variable set if a session is on whose listener runs. A listener that takes an item has found the
queue empty at its start, or its session has filled the queue since, or the loop has asked it to
stop, which empties the queue. -/
def Clean (s : Socket) : SocketEvent → Prop
  | .start sessionId lastSequence calls =>
    (∃ session, startOutcome calls (startMessage sessionId lastSequence) = .started session) →
      ∀ i, s.running i = false
  | .audio _ => (∃ l ∈ s.listeners, l.stopped = none ∧ l.ended = false) → s.conn.sessionId ≠ none
  | .consume i => ∀ l, s.listeners[i]? = some l →
    l.found = 0 ∨ wsAudioQueueMaxFrames ≤ l.sent.length ∨ 2 * i ∈ s.conn.cancelled
  | _ => True

theorem signalAudioEnd_eq (queue : AudioQueue) : signalAudioEnd queue = [none] := by
  induction queue with
  | nil => rfl
  | cons item queue ih => exact ih

/-- The handler left the queue and the tasks as they were. -/
structure Keeps (conn next : Conn) : Prop where
  queue : next.audioQueue = conn.audioQueue
  listening : next.listeningTask = conn.listeningTask
  heartbeat : next.heartbeatTask = conn.heartbeatTask
  cancelled : next.cancelled = conn.cancelled

/-- The handler has emptied the queue, left an end sentinel in it and cancelled the tasks. -/
structure Flushes (calls : Calls) (conn next : Conn) : Prop where
  queue : next.audioQueue = [none]
  listening : next.listeningTask = conn.listeningTask
  heartbeat : next.heartbeatTask = conn.heartbeatTask
  cancelled : next.cancelled = conn.cancelled ++ cancelUnlessDone calls conn.listeningTask ++
    cancelUnlessDone calls conn.heartbeatTask

theorem close_flushes (calls : Calls) (conn : Conn) : Flushes calls conn (close calls conn) :=
  ⟨signalAudioEnd_eq _,rfl,rfl,rfl⟩

theorem fail_flushes (calls : Calls) (conn : Conn) : Flushes calls conn (fail calls conn) :=
  ⟨signalAudioEnd_eq _,rfl,rfl,rfl⟩

/-- The dictionary of a start message. -/
theorem handleStart_result {calls : Calls} {msg : ControlMessage} {conn : Conn} {result : Result}
    (h : handleStart calls msg conn = .ok result) :
    result.audioQueue = conn.audioQueue ∧ result.cancelled = [] ∧
      ((∃ session, startOutcome calls msg = .started session ∧ result.sessionId = some (some session) ∧
          result.listeningTask = some calls.newListeningTask ∧ result.heartbeatTask = some calls.newHeartbeatTask) ∨
        startOutcome calls msg = .passed ∧ result.sessionId = none ∧ result.listeningTask = none ∧
          result.heartbeatTask = none) := by
  unfold handleStart at h
  unfold startOutcome
  cases hp : calls.resolveWsPrincipal with
  | error e =>
    rw [hp] at h
    cases h
    simp [Except.isOk,Except.toBool]
  | ok u =>
    cases hl : calls.enforceAuthenticatedLimits with
    | error e =>
      rw [hp,hl] at h
      cases h
      simp [Except.isOk,Except.toBool]
    | ok v =>
      cases hs : startSession calls msg (msg.sessionId.getD "") with
      | error e => simp [hp,hl,hs] at h
      | ok found =>
        cases found with
        | none =>
          simp only [hp,hl,hs] at h
          cases h
          simp [Except.isOk,Except.toBool]
        | some session =>
          cases ha : calls.activateSession session with
          | error e => simp [hp,hl,hs,ha] at h
          | ok w =>
            cases hb : calls.bootstrap session with
            | error e => simp [hp,hl,hs,ha,hb] at h
            | ok x =>
              simp only [hp,hl,hs,ha,hb] at h
              cases h
              simp [Except.isOk,Except.toBool,ha,hb]

/-- What a start message does to the loop's variables. -/
theorem start_step {conn next : Conn} {calls : Calls} {sessionId : Option String} {lastSequence : Nat}
    (h : step conn (.text (.object (startMessage sessionId lastSequence)) calls) = some next) :
    conn.closed = false ∧
      ((∃ session, startOutcome calls (startMessage sessionId lastSequence) = .started session ∧
          next.closed = false ∧ next.audioQueue = conn.audioQueue ∧ next.cancelled = conn.cancelled ∧
          next.listeningTask = some calls.newListeningTask ∧ next.heartbeatTask = some calls.newHeartbeatTask) ∨
        (∀ session, startOutcome calls (startMessage sessionId lastSequence) ≠ .started session) ∧
          (next.closed = false ∧ next.sessionId = none ∧ Keeps conn next ∨
            next.closed = true ∧ Flushes calls conn next)) := by
  have hanswers := handleControlMessage_answers calls (.object (startMessage sessionId lastSequence)) conn
  change Answers _ (startOutcome calls (startMessage sessionId lastSequence)) at hanswers
  simp only [step] at h
  split at h
  · cases h
  · next hopen =>
    have hclosed : conn.closed = false := by simpa using hopen
    refine ⟨hclosed,?_⟩
    split at h
    · next result hresult =>
      cases h
      obtain ⟨hqueue,hcancelled,⟨session,hout,hsession,htask,hbeat⟩ | ⟨hout,hsession,htask,hbeat⟩⟩ :=
        handleStart_result hresult
      · left
        exact ⟨session,hout,hclosed,hqueue,by simp [merge,hcancelled],by simp [merge,htask],by simp [merge,hbeat]⟩
      · right
        refine ⟨fun session heq => ?_,.inl ⟨hclosed,by simp [merge,hsession],hqueue,?_,?_,?_⟩⟩
        · rw [hout] at heq
          cases heq
        · simp [merge,htask]
        · simp [merge,hbeat]
        · simp [merge,hcancelled]
    · next hraised =>
      cases h
      right
      refine ⟨fun session heq => ?_,.inr ⟨rfl,fail_flushes calls conn⟩⟩
      rw [heq,Answers,if_neg (by simp)] at hanswers
      obtain ⟨result,hresult,-⟩ := hanswers
      rw [hraised] at hresult
      cases hresult

/-- What an end message does to the loop's variables. -/
theorem end_step {conn next : Conn} {calls : Calls} (h : step conn (.text (.object endMessage) calls) = some next) :
    conn.closed = false ∧
      (conn.sessionId = none ∧ next.closed = false ∧ next.sessionId = none ∧ Keeps conn next ∨
        conn.sessionId ≠ none ∧ (next.closed = true ∨ next.sessionId = none) ∧ Flushes calls conn next) := by
  simp only [step] at h
  split at h
  · cases h
  · next hopen =>
    have hclosed : conn.closed = false := by simpa using hopen
    refine ⟨hclosed,?_⟩
    have hcall : handleControlMessage calls (.object endMessage) conn = handleEnd calls conn := rfl
    rw [hcall,handleEnd] at h
    cases hsession : conn.sessionId with
    | none =>
      rw [hsession] at h
      cases h
      exact .inl ⟨rfl,hclosed,by simp [merge],rfl,rfl,rfl,by simp [merge]⟩
    | some session =>
      right
      cases hend : calls.endSession session with
      | error e =>
        simp only [hsession,hend] at h
        cases h
        exact ⟨by simp,.inl rfl,fail_flushes calls conn⟩
      | ok u =>
        simp only [hsession,hend] at h
        cases h
        exact ⟨by simp,.inr (by simp [merge]),signalAudioEnd_eq _,rfl,rfl,by simp [merge]⟩

theorem enqueueAudioFrame_eq {queue : AudioQueue} (h : queue.length ≤ wsAudioQueueMaxFrames) (frame : Frame) :
    (enqueueAudioFrame queue frame).2 = offer wsAudioQueueMaxFrames queue (some frame) := by
  unfold enqueueAudioFrame putNowait offer
  by_cases hroom : queue.length < wsAudioQueueMaxFrames
  · simp [hroom]
  · cases queue with
    | nil => exact absurd (by decide) hroom
    | cons item rest =>
      have hrest : rest.length < wsAudioQueueMaxFrames := by
        rw [List.length_cons] at h
        omega
      simp only [if_neg hroom]
      simp [getNowait,hrest]

namespace Socket
variable {s s' : Socket}

/-- What the loop's queue holds of an item. -/
def raw (x : Nat × Option SentFrame) : Option Frame := x.2.map Prod.snd

/-- What every run keeps: the loop's queue is the recorded one and bounded, the listening task
is that of the latest listener, and tasks and frames are numbered one after another. -/
structure Wired (s : Socket) : Prop where
  queue : s.conn.audioQueue = s.queue.map raw
  bounded : s.queue.length ≤ wsAudioQueueMaxFrames
  task : s.conn.listeningTask = if s.listeners = [] then none else some (2 * s.latest)
  asked : ∀ task, task ∈ s.conn.heartbeatTask ∨ task ∈ s.conn.cancelled → task < 2 * s.listeners.length
  numbered : ∀ x ∈ s.queue, ∀ frame ∈ x.2, frame.1 < s.frames
  received : ∀ l ∈ s.listeners, ∀ x ∈ l.received, x.2.1 < s.frames

theorem running_iff {i : Nat} : s.running i ↔ ∃ l, s.listeners[i]? = some l ∧ l.stopped = none := by
  simp [running,Option.any_eq_true]

/-- The listener `m` is `l` a step later, in which it received nothing. -/
structure Follows (l m : Listener) : Prop where
  found : m.found = l.found
  received : m.received = l.received
  running : m.stopped = none → l.stopped = none
  sentinel : ∀ origin, m.stopped = some (.sentinel origin) → l.stopped = some (.sentinel origin)
  ended : l.ended = true → m.ended = true
  sent : l.sent <+: m.sent

theorem Follows.refl (l : Listener) : Follows l l := ⟨rfl,rfl,id,fun _ => id,id,List.prefix_rfl⟩

/-- A step in which no listener is added and none receives anything. -/
structure Kept (s s' : Socket) : Prop where
  length : s'.listeners.length = s.listeners.length
  follows : ∀ (j : Nat) (m : Listener), s'.listeners[j]? = some m → ∃ l, s.listeners[j]? = some l ∧ Follows l m
  frames : s.frames ≤ s'.frames

theorem Kept.latest (h : Kept s s') : s'.latest = s.latest := by rw [Socket.latest,Socket.latest,h.length]

theorem Kept.received (h : Kept s s') (hs : s.Wired) : ∀ m ∈ s'.listeners, ∀ x ∈ m.received, x.2.1 < s'.frames := by
  intro m hm x hx
  obtain ⟨j,hj⟩ := List.mem_iff_getElem?.mp hm
  obtain ⟨l,hl,hfollows⟩ := h.follows j m hj
  rw [hfollows.received] at hx
  exact (hs.received l (List.mem_of_getElem? hl) x hx).trans_le h.frames

theorem Kept.task (h : Kept s s') (hs : s.Wired) :
    s.conn.listeningTask = if s'.listeners = [] then none else some (2 * s'.latest) := by
  have hnil : s'.listeners = [] ↔ s.listeners = [] := by
    rw [← List.length_eq_zero_iff,h.length,List.length_eq_zero_iff]
  rw [hs.task,h.latest]
  simp only [hnil]

theorem mem_cancelUnlessDone {calls : Calls} {task : TaskId} {candidate : Option TaskId} :
    task ∈ cancelUnlessDone calls candidate ↔ candidate = some task ∧ calls.done task = false := by
  cases candidate with
  | none => simp [cancelUnlessDone]
  | some other =>
    simp only [cancelUnlessDone,Option.some.injEq]
    split
    · next hdone =>
      constructor
      · intro h
        cases h
      · rintro ⟨rfl,hnot⟩
        rw [hdone] at hnot
        cases hnot
    · next hdone =>
      constructor
      · intro h
        obtain rfl := List.mem_singleton.mp h
        exact ⟨rfl,by simpa using hdone⟩
      · rintro ⟨rfl,-⟩
        exact List.mem_singleton_self _

/-- A handler that leaves queue and tasks alone. -/
theorem Wired.keeps (h : s.Wired) (hkept : Kept s s') (hconn : Keeps s.conn s'.conn) (hqueue : s'.queue = s.queue) :
    s'.Wired := by
  refine ⟨?_,by rw [hqueue]; exact h.bounded,by rw [hconn.listening]; exact hkept.task h,?_,?_,hkept.received h⟩
  · rw [hconn.queue,hqueue]
    exact h.queue
  · rw [hconn.heartbeat,hconn.cancelled,hkept.length]
    exact h.asked
  · rw [hqueue]
    intro x hx frame hframe
    exact (h.numbered x hx frame hframe).trans_le hkept.frames

/-- A handler that leaves only an end sentinel. -/
theorem Wired.flushes {calls : Calls} (h : s.Wired) (hkept : Kept s s') (hconn : Flushes calls s.conn s'.conn)
    (hqueue : s'.queue = [(s.latest,none)]) : s'.Wired := by
  refine ⟨?_,?_,by rw [hconn.listening]; exact hkept.task h,?_,?_,hkept.received h⟩
  · rw [hconn.queue,hqueue]
    rfl
  · simp [hqueue,wsAudioQueueMaxFrames]
  · rw [hconn.heartbeat,hconn.cancelled,hkept.length]
    rintro task (htask | htask)
    · exact h.asked task (.inl htask)
    · rw [List.append_assoc,List.mem_append,List.mem_append,mem_cancelUnlessDone,mem_cancelUnlessDone] at htask
      obtain htask | ⟨htask,-⟩ | ⟨htask,-⟩ := htask
      · exact h.asked task (.inr htask)
      · rw [h.task] at htask
        split at htask
        · cases htask
        · next hne =>
          have hpos := List.length_pos_iff.mpr hne
          rw [← Option.some.inj htask]
          exact Nat.mul_lt_mul_of_pos_left (Nat.sub_one_lt hpos.ne') (by decide)
      · exact h.asked task (.inl htask)
  · intro x hx frame hframe
    rw [hqueue,List.mem_singleton] at hx
    subst hx
    cases hframe

/-- The listener started last, while it runs, is asked to stop by a handler that empties the queue. -/
theorem Wired.asks {calls : Calls} {next : Conn} (h : s.Wired) (hconn : Flushes (s.tasks calls) s.conn next)
    (hrunning : s.running s.latest) : 2 * s.latest ∈ next.cancelled := by
  obtain ⟨l,hl,hrun⟩ := running_iff.mp hrunning
  have hne : s.listeners ≠ [] := by
    rintro hnil
    rw [hnil] at hl
    cases hl
  rw [hconn.cancelled,List.mem_append,List.mem_append,mem_cancelUnlessDone]
  refine .inl (.inr ⟨by rw [h.task,if_neg hne],?_⟩)
  simp [tasks,hl,hrun]

theorem Wired.consume {origin : Nat} {item : Option SentFrame} {queue : List (Nat × Option SentFrame)} {conn : Conn}
    (h : s.Wired) (hqueue : s.queue = (origin,item) :: queue) (hconn : Gateway.step s.conn .consume = some conn) :
    { s.conn with audioQueue := queue.map raw } = conn := by
  have haudio := h.queue
  rw [hqueue] at haudio
  simp only [Gateway.step,haudio,List.map_cons,getNowait,Option.map_some] at hconn
  exact Option.some.inj hconn

/-- A listener that runs takes the item at the head of the queue. -/
theorem consume_cases {i : Nat} (h : s.step (.consume i) = some s') :
    ∃ origin item queue, s.queue = (origin,item) :: queue ∧ s.running i ∧
      ∃ conn, Gateway.step s.conn .consume = some conn ∧
        s' = { s with conn, queue, listeners := s.listeners.modify i (take origin item) } := by
  simp only [step] at h
  split at h
  · cases h
  · next origin item queue hqueue =>
    obtain ⟨hrunning,hmap⟩ := Option.ite_none_right_eq_some.mp h
    obtain ⟨conn,hconn,heq⟩ := Option.map_eq_some_iff.mp hmap
    exact ⟨origin,item,queue,hqueue,hrunning,conn,hconn,heq.symm⟩

theorem get_modify {ls : List Listener} {f : Listener → Listener} {i j : Nat} {m : Listener}
    (h : (ls.modify i f)[j]? = some m) : ∃ l, ls[j]? = some l ∧ m = if i = j then f l else l := by
  rw [List.getElem?_modify] at h
  obtain ⟨l,hl,heq⟩ := Option.map_eq_some_iff.mp h
  exact ⟨l,hl,heq.symm⟩

theorem get_concat {ls : List Listener} {l m : Listener} {j : Nat} (h : (ls ++ [l])[j]? = some m) :
    ls[j]? = some m ∨ j = ls.length ∧ m = l := by
  rcases Nat.lt_trichotomy j ls.length with hlt | heq | hgt
  · rw [List.getElem?_append_left hlt] at h
    exact .inl h
  · subst heq
    rw [List.getElem?_concat_length] at h
    exact .inr ⟨rfl,(Option.some.inj h).symm⟩
  · rw [List.getElem?_eq_none (by rw [List.length_append,List.length_singleton]; omega)] at h
    cases h

@[simp] theorem take_sent (origin : Nat) (item : Option SentFrame) (l : Listener) :
    (take origin item l).sent = l.sent := by
  cases item <;> rfl

@[simp] theorem take_ended (origin : Nat) (item : Option SentFrame) (l : Listener) :
    (take origin item l).ended = l.ended := by
  cases item <;> rfl

@[simp] theorem take_found (origin : Nat) (item : Option SentFrame) (l : Listener) :
    (take origin item l).found = l.found := by
  cases item <;> rfl

/-- What has been taken has its number in the queue or among what was received. -/
theorem mem_take_received {origin : Nat} {item : Option SentFrame} {l : Listener} {x : Nat × SentFrame}
    (h : x ∈ (take origin item l).received) : x ∈ l.received ∨ x.1 = origin ∧ item = some x.2 := by
  cases item with
  | none => exact .inl h
  | some frame =>
    rcases List.mem_append.mp h with h | h
    · exact .inl h
    · rw [List.mem_singleton.mp h]
      exact .inr ⟨rfl,rfl⟩

theorem kept_conn {conn : Conn} {queue : List (Nat × Option SentFrame)} : Kept s { s with conn, queue } :=
  ⟨rfl,fun _ m hm => ⟨m,hm,.refl m⟩,le_rfl⟩

theorem kept_end {conn : Conn} {queue : List (Nat × Option SentFrame)} :
    Kept s { s with conn, queue, listeners := s.listeners.modify s.latest fun l => { l with ended := true } } := by
  refine ⟨List.length_modify _ _ _,fun j m hm => ?_,le_rfl⟩
  obtain ⟨l,hl,rfl⟩ := get_modify hm
  refine ⟨l,hl,?_⟩
  split
  · exact ⟨rfl,rfl,id,fun _ => id,fun _ => rfl,List.prefix_rfl⟩
  · exact .refl l

theorem kept_audio (s : Socket) (conn : Conn) (queue : List (Nat × Option SentFrame)) (frame : Frame) :
    Kept s { conn, queue, frames := s.frames + 1,
             listeners := s.listeners.map fun l =>
               if l.ended then l else { l with sent := l.sent ++ [(s.frames,frame)] } } := by
  refine ⟨List.length_map _,fun j m hm => ?_,Nat.le_succ _⟩
  rw [List.getElem?_map] at hm
  obtain ⟨l,hl,rfl⟩ := Option.map_eq_some_iff.mp hm
  refine ⟨l,hl,?_⟩
  split
  · exact .refl l
  · exact ⟨rfl,rfl,id,fun _ => id,id,List.prefix_append _ _⟩

theorem kept_stop {i : Nat} {how : Stop} (hhow : ∀ origin, how ≠ .sentinel origin) :
    Kept s { s with listeners := s.listeners.modify i fun l => { l with stopped := some how } } := by
  refine ⟨List.length_modify _ _ _,fun j m hm => ?_,le_rfl⟩
  obtain ⟨l,hl,rfl⟩ := get_modify hm
  refine ⟨l,hl,?_⟩
  split
  · exact ⟨rfl,rfl,nofun,fun origin heq => absurd (Option.some.inj heq) (hhow origin),id,List.prefix_rfl⟩
  · exact .refl l

theorem fresh_task (h : s.Wired) : s.conn.listeningTask ≠ some (2 * s.listeners.length) := by
  intro heq
  rw [h.task] at heq
  split at heq
  · cases heq
  · next hne =>
    have hlast : 2 * s.latest = 2 * s.listeners.length := Option.some.inj heq
    have hpos := List.length_pos_iff.mpr hne
    unfold latest at hlast
    omega

theorem Wired.started {conn : Conn} (h : s.Wired) (hqueue : conn.audioQueue = s.conn.audioQueue)
    (hcancelled : conn.cancelled = s.conn.cancelled) (htask : conn.listeningTask = some (2 * s.listeners.length))
    (hbeat : conn.heartbeatTask = some (2 * s.listeners.length + 1)) :
    Wired { s with conn, listeners := s.listeners ++ [{ found := s.queue.length }] } := by
  refine ⟨hqueue.trans h.queue,h.bounded,?_,?_,h.numbered,?_⟩
  · simp [htask,latest]
  · dsimp only
    rw [hbeat,hcancelled,List.length_append,List.length_singleton]
    rintro task (htask | htask)
    · rw [← Option.some.inj htask]
      exact Nat.lt_succ_self (2 * s.listeners.length + 1)
    · exact (h.asked task (.inr htask)).trans (Nat.mul_lt_mul_of_pos_left (Nat.lt_succ_self _) (by decide))
  · intro l hl x hx
    rcases List.mem_append.mp hl with hl | hl
    · exact h.received l hl x hx
    · rw [List.mem_singleton.mp hl] at hx
      cases hx

theorem Wired.fed {conn : Conn} {frame : Frame} (h : s.Wired) (hconn : Gateway.step s.conn (.bytes frame) = some conn)
    (hsession : s.conn.sessionId ≠ none) :
    Wired { conn, queue := offer wsAudioQueueMaxFrames s.queue (s.latest,some (s.frames,frame)), frames := s.frames + 1,
            listeners := s.listeners.map fun l =>
              if l.ended then l else { l with sent := l.sent ++ [(s.frames,frame)] } } := by
  have hkept := kept_audio s conn (offer wsAudioQueueMaxFrames s.queue (s.latest,some (s.frames,frame))) frame
  simp only [Gateway.step,if_neg hsession] at hconn
  obtain ⟨-,heq⟩ := Option.ite_none_left_eq_some.mp hconn
  cases heq
  refine ⟨?_,length_offer_le (by decide) h.bounded _,hkept.task h,by simpa using h.asked,?_,hkept.received h⟩
  · have hbounded : s.conn.audioQueue.length ≤ wsAudioQueueMaxFrames := by
      rw [h.queue,List.length_map]
      exact h.bounded
    dsimp only
    rw [enqueueAudioFrame_eq hbounded,map_offer,h.queue]
    rfl
  · intro x hx number hnumber
    rcases mem_of_mem_offer hx with hx | rfl
    · exact (h.numbered x hx number hnumber).trans (Nat.lt_succ_self _)
    · obtain rfl := Option.some.inj hnumber
      exact Nat.lt_succ_self _

theorem step_wired {event : SocketEvent} (h : s.Wired) (hstep : s.step event = some s') : s'.Wired := by
  cases event with
  | start sessionId lastSequence calls =>
    obtain ⟨conn,hconn,rfl⟩ := Option.map_eq_some_iff.mp hstep
    obtain ⟨-,⟨session,-,hclosed,hqueue,hcancelled,htask,hbeat⟩ | ⟨-,⟨hclosed,-,hkeeps⟩ | ⟨hclosed,hflush⟩⟩⟩ :=
      start_step hconn
    · have hnew : conn.listeningTask ≠ s.conn.listeningTask := by
        rw [htask]
        exact (fresh_task h).symm
      simp only [hclosed,if_neg hnew,Bool.false_eq_true,if_false]
      exact h.started hqueue hcancelled htask hbeat
    · simp only [hclosed,hkeeps.listening,Bool.false_eq_true,if_false,if_true]
      exact h.keeps kept_conn hkeeps rfl
    · simp only [hclosed,hflush.listening,if_true]
      exact h.flushes kept_conn hflush rfl
  | audio frame =>
    obtain ⟨conn,hconn,rfl⟩ := Option.map_eq_some_iff.mp hstep
    by_cases hsession : s.conn.sessionId = none
    · simp only [Gateway.step,if_pos hsession] at hconn
      obtain ⟨-,heq⟩ := Option.ite_none_left_eq_some.mp hconn
      cases heq
      simp only [if_pos hsession]
      exact h.keeps (kept_audio ..) ⟨rfl,rfl,rfl,rfl⟩ rfl
    · simp only [if_neg hsession]
      exact h.fed hconn hsession
  | endSession calls =>
    obtain ⟨conn,hconn,rfl⟩ := Option.map_eq_some_iff.mp hstep
    obtain ⟨-,⟨hnone,-,-,hkeeps⟩ | ⟨hsome,-,hflush⟩⟩ := end_step hconn
    · simp only [if_pos hnone]
      exact h.keeps kept_end hkeeps rfl
    · simp only [if_neg hsome]
      exact h.flushes kept_end hflush rfl
  | disconnect calls =>
    obtain ⟨conn,hconn,rfl⟩ := Option.map_eq_some_iff.mp hstep
    obtain ⟨-,heq⟩ := Option.ite_none_left_eq_some.mp hconn
    cases heq
    exact h.flushes kept_conn (close_flushes _ _) rfl
  | consume i =>
    obtain ⟨origin,item,queue,hqueue,-,conn,hconn,rfl⟩ := consume_cases hstep
    obtain rfl := h.consume hqueue hconn
    have hbounded := h.bounded
    rw [hqueue,List.length_cons] at hbounded
    have hnumbered := h.numbered
    rw [hqueue] at hnumbered
    refine ⟨rfl,Nat.le_of_succ_le hbounded,?_,?_,fun x hx => hnumbered x (List.mem_cons_of_mem _ hx),?_⟩
    · dsimp only [latest]
      rw [h.task,List.length_modify]
      simp only [← List.length_eq_zero_iff,List.length_modify]
      rfl
    · dsimp only
      rw [List.length_modify]
      exact h.asked
    · intro m hm x hx
      obtain ⟨j,hj⟩ := List.mem_iff_getElem?.mp hm
      obtain ⟨l,hl,rfl⟩ := get_modify hj
      have hold := h.received l (List.mem_of_getElem? hl)
      split at hx
      · rcases mem_take_received hx with hx | ⟨-,hitem⟩
        · exact hold x hx
        · exact hnumbered _ List.mem_cons_self _ hitem
      · exact hold x hx
  | finish i =>
    obtain ⟨-,heq⟩ := Option.ite_none_right_eq_some.mp hstep
    cases heq
    exact h.keeps (kept_stop (by simp)) ⟨rfl,rfl,rfl,rfl⟩ rfl
  | cancelled i =>
    obtain ⟨-,hstop⟩ := Option.ite_none_right_eq_some.mp hstep
    obtain ⟨-,heq⟩ := Option.ite_none_right_eq_some.mp hstop
    cases heq
    exact h.keeps (kept_stop (by simp)) ⟨rfl,rfl,rfl,rfl⟩ rfl

def Fed (s : Socket) : Prop := s.conn.closed = false ∧ s.conn.sessionId ≠ none

/-- The latest listener serves its session. Behind what its start found of the queue stand the
frames it has not got; what was found is dropped first, and nothing is taken before that. -/
structure Serving (s : Socket) (l : Listener) (before : List (Nat × Option SentFrame)) (own : List SentFrame) : Prop where
  asked : 2 * s.latest ∉ s.conn.cancelled
  queue : s.queue = before ++ own.map fun frame => (s.latest,some frame)
  others : ∀ x ∈ before, x.1 ≠ s.latest
  left : before.length = min l.found (wsAudioQueueMaxFrames - l.sent.length)
  untouched : before ≠ [] → own.length = l.sent.length
  heard : Channel wsAudioQueueMaxFrames l.sent (l.received.map Prod.snd) own

/-- The latest listener has been asked to stop, and finds nothing but its own end sentinel. -/
structure Stopping (s : Socket) (l : Listener) : Prop where
  asked : 2 * s.latest ∈ s.conn.cancelled
  queue : ∀ x ∈ s.queue, x = (s.latest,none)
  ended : s.conn.closed = true ∨ l.ended = true

/-- What clean runs keep. -/
structure Synced (s : Socket) : Prop where
  wired : s.Wired
  heard : ∀ (i : Nat) (l : Listener), s.listeners[i]? = some l → Heard i l
  last : ∀ i, s.running i → i + 1 = s.listeners.length
  known : s.conn.closed = false → ∀ x ∈ s.queue, x.1 < s.listeners.length
  session : s.Fed → ∃ l, s.listeners[s.latest]? = some l ∧ l.ended = false
  runs : ∀ l, s.listeners[s.latest]? = some l → l.stopped = none → (∃ before own, Serving s l before own) ∨ Stopping s l

variable {l m : Listener} {before : List (Nat × Option SentFrame)} {own : List SentFrame}

theorem Serving.waiting (h : Serving s l before own) : s.waiting s.latest = own := by
  have hnone : before.filterMap (fun x => if x.1 = s.latest then x.2 else none) = [] := by
    apply List.filterMap_eq_nil_iff.mpr
    intro x hx
    exact if_neg (h.others x hx)
  rw [Socket.waiting,h.queue,List.filterMap_append,hnone,List.nil_append,List.filterMap_map]
  simp

theorem Serving.follows (h : Serving s l before own) (hkept : Kept s s') (hqueue : s'.queue = s.queue)
    (hcancelled : s'.conn.cancelled = s.conn.cancelled) (hfollows : Follows l m) (hsent : m.sent = l.sent) :
    Serving s' m before own := by
  refine ⟨?_,?_,?_,?_,?_,?_⟩
  · rw [hkept.latest,hcancelled]
    exact h.asked
  · rw [hqueue,hkept.latest]
    exact h.queue
  · rw [hkept.latest]
    exact h.others
  · rw [hfollows.found,hsent]
    exact h.left
  · rw [hsent]
    exact h.untouched
  · rw [hfollows.received,hsent]
    exact h.heard

/-- A frame behind what the listener's start has found drops one item of that from a full queue. -/
theorem Serving.fed (h : Serving s l before own) (hbounded : s.queue.length ≤ wsAudioQueueMaxFrames) {frame : SentFrame}
    (hlatest : s'.latest = s.latest) (hcancelled : s'.conn.cancelled = s.conn.cancelled) (hfollows : Follows l m)
    (hqueue : s'.queue = offer wsAudioQueueMaxFrames s.queue (s.latest,some frame))
    (hsent : m.sent = l.sent ++ [frame]) :
    Serving s' m (if before.length + own.length < wsAudioQueueMaxFrames then before else before.tail)
      (offer wsAudioQueueMaxFrames own frame) := by
  rw [h.queue] at hbounded
  have hoffer := offer_append (fun frame => (s.latest,some frame)) hbounded frame
  rw [List.length_append,List.length_map] at hbounded
  have hleft := h.left
  have huntouched : before.length ≠ 0 → own.length = l.sent.length := fun hne =>
    h.untouched (mt List.length_eq_zero_iff.mpr hne)
  refine ⟨by rw [hlatest,hcancelled]; exact h.asked,?_,?_,?_,?_,?_⟩
  · rw [hqueue,hlatest,h.queue]
    exact hoffer
  · intro x hx
    rw [hlatest]
    split at hx
    · exact h.others x hx
    · exact h.others x (List.mem_of_mem_tail hx)
  · rw [hfollows.found,hsent,List.length_append,List.length_singleton]
    split
    · omega
    · rw [List.length_tail]
      omega
  · intro hne
    have hpos : before.length ≠ 0 := by
      intro hzero
      rw [List.length_eq_zero_iff.mp hzero] at hne
      simp at hne
    rw [hsent,length_offer_of_lt (by omega),List.length_append,List.length_singleton,huntouched hpos]
  · rw [hfollows.received,hsent]
    exact h.heard.send frame

theorem heard_follows {number : Nat} (h : Heard number l) (hfollows : Follows l m) : Heard number m := by
  refine ⟨?_,?_,fun origin horigin => h.sentinel origin (hfollows.sentinel origin horigin)⟩
  · rw [hfollows.received]
    exact h.frames
  · rw [hfollows.received]
    exact h.dropsOldest.of_prefix hfollows.sent

theorem Kept.heard (h : Kept s s') (hs : s.Synced) (j : Nat) (m : Listener) (hm : s'.listeners[j]? = some m) :
    Heard j m := by
  obtain ⟨l,hl,hfollows⟩ := h.follows j m hm
  exact heard_follows (hs.heard j l hl) hfollows

theorem Kept.last (h : Kept s s') (hs : s.Synced) (j : Nat) (hj : s'.running j) : j + 1 = s'.listeners.length := by
  obtain ⟨m,hm,hrunning⟩ := running_iff.mp hj
  obtain ⟨l,hl,hfollows⟩ := h.follows j m hm
  rw [h.length]
  exact hs.last j (running_iff.mpr ⟨l,hl,hfollows.running hrunning⟩)

theorem Synced.latest_eq (h : s.Synced) {i : Nat} (hi : s.running i) : s.latest = i := by
  rw [latest,← h.last i hi,Nat.add_sub_cancel]

theorem Synced.isolated (h : s.Synced) : Isolated s := by
  refine ⟨fun i l hl => ⟨h.heard i l hl,fun hopen hrun hended => ?_⟩,fun i j hi hj => ?_⟩
  · obtain rfl := h.latest_eq (running_iff.mpr ⟨l,hl,hrun⟩)
    obtain ⟨before,own,hserving⟩ | hstopping := h.runs l hl hrun
    · rw [hserving.waiting]
      exact hserving.heard
    · rcases hstopping.ended with hclosed | hnot
      · rw [hopen] at hclosed
        cases hclosed
      · rw [hended] at hnot
        cases hnot
  · rw [← h.latest_eq hi,h.latest_eq hj]

/-- A step that queues nothing and asks no one to stop, after which the loop queues no audio. -/
theorem Synced.idle (h : s.Synced) (hkept : Kept s s') (hwired : s'.Wired) (hfed : ¬ s'.Fed) (hqueue : s'.queue = s.queue)
    (hcancelled : s'.conn.cancelled = s.conn.cancelled) (hclosed : s'.conn.closed = s.conn.closed)
    (hsent : ∀ l m, s.listeners[s.latest]? = some l → s'.listeners[s.latest]? = some m → l.stopped = none →
      m.sent = l.sent) : s'.Synced := by
  refine ⟨hwired,hkept.heard h,hkept.last h,?_,fun hf => absurd hf hfed,?_⟩
  · rw [hclosed,hqueue,hkept.length]
    exact h.known
  · intro m hm hrunning
    rw [hkept.latest] at hm
    obtain ⟨l,hl,hfollows⟩ := hkept.follows _ m hm
    have hrun := hfollows.running hrunning
    obtain ⟨before,own,hserving⟩ | hstopping := h.runs l hl hrun
    · exact .inl ⟨before,own,hserving.follows hkept hqueue hcancelled hfollows (hsent l m hl hm hrun)⟩
    · refine .inr ⟨?_,?_,?_⟩
      · rw [hkept.latest,hcancelled]
        exact hstopping.asked
      · rw [hkept.latest,hqueue]
        exact hstopping.queue
      · rw [hclosed]
        exact hstopping.ended.imp_right hfollows.ended

/-- A step that leaves only an end sentinel and asks the listener to stop. -/
theorem Synced.flushed {calls : Calls} (h : s.Synced) (hkept : Kept s s') (hwired : s'.Wired) (hfed : ¬ s'.Fed)
    (hflush : Flushes (s.tasks calls) s.conn s'.conn) (hqueue : s'.queue = [(s.latest,none)])
    (hended : s'.conn.closed = true ∨ ∀ m, s'.listeners[s.latest]? = some m → m.ended = true)
    (hknown : s'.conn.closed = false → s.latest < s.listeners.length) : s'.Synced := by
  refine ⟨hwired,hkept.heard h,hkept.last h,?_,fun hf => absurd hf hfed,?_⟩
  · intro hopen x hx
    rw [hqueue,List.mem_singleton] at hx
    rw [hx,hkept.length]
    exact hknown hopen
  · intro m hm hrunning
    rw [hkept.latest] at hm
    obtain ⟨l,hl,hfollows⟩ := hkept.follows _ m hm
    refine .inr ⟨?_,?_,?_⟩
    · rw [hkept.latest]
      exact h.wired.asks hflush (running_iff.mpr ⟨l,hl,hfollows.running hrunning⟩)
    · rw [hkept.latest,hqueue]
      exact fun x hx => List.mem_singleton.mp hx
    · exact hended.imp_right fun hall => hall m hm

/-- A new listener starts with nothing of its own in the queue. -/
theorem Synced.started {conn : Conn} (h : s.Synced)
    (hwired : Wired { s with conn, listeners := s.listeners ++ [{ found := s.queue.length }] })
    (hcancelled : conn.cancelled = s.conn.cancelled) (hopen : s.conn.closed = false) (hidle : ∀ i, s.running i = false) :
    Synced { s with conn, listeners := s.listeners ++ [{ found := s.queue.length }] } := by
  have hlatest : latest { s with conn, listeners := s.listeners ++ [{ found := s.queue.length }] } =
      s.listeners.length := by simp [latest]
  refine ⟨hwired,?_,?_,?_,?_,?_⟩
  · intro j m hm
    rcases get_concat hm with hm | ⟨rfl,rfl⟩
    · exact h.heard j m hm
    · exact ⟨nofun,⟨[],Channel.idle⟩,nofun⟩
  · intro j hj
    obtain ⟨m,hm,hrunning⟩ := running_iff.mp hj
    rcases get_concat hm with hm | ⟨rfl,-⟩
    · have hidle := hidle j
      rw [running_iff.mpr ⟨m,hm,hrunning⟩] at hidle
      cases hidle
    · simp
  · intro _ x hx
    rw [List.length_append]
    exact Nat.lt_add_right _ (h.known hopen x hx)
  · intro _
    exact ⟨{ found := s.queue.length },by rw [hlatest]; exact List.getElem?_concat_length,rfl⟩
  · intro m hm _
    rw [hlatest,List.getElem?_concat_length] at hm
    obtain rfl := Option.some.inj hm
    refine .inl ⟨s.queue,[],?_,by simp,?_,?_,fun _ => rfl,Channel.idle⟩
    · rw [hlatest]
      dsimp only
      rw [hcancelled]
      exact fun hmem => lt_irrefl _ (h.wired.asked _ (.inr hmem))
    · intro x hx
      rw [hlatest]
      exact Nat.ne_of_lt (h.known hopen x hx)
    · exact (Nat.min_eq_left h.wired.bounded).symm

/-- A frame for the session that is fed. -/
theorem Synced.fed {conn : Conn} {frame : Frame} (h : s.Synced) (hconn : Gateway.step s.conn (.bytes frame) = some conn)
    (hsession : s.conn.sessionId ≠ none) :
    Synced { conn, queue := offer wsAudioQueueMaxFrames s.queue (s.latest,some (s.frames,frame)), frames := s.frames + 1,
             listeners := s.listeners.map fun l =>
               if l.ended then l else { l with sent := l.sent ++ [(s.frames,frame)] } } := by
  have hwired := h.wired.fed hconn hsession
  have hkept := kept_audio s conn (offer wsAudioQueueMaxFrames s.queue (s.latest,some (s.frames,frame))) frame
  simp only [Gateway.step,if_neg hsession] at hconn
  obtain ⟨hopen,heq⟩ := Option.ite_none_left_eq_some.mp hconn
  have hfed : s.Fed := ⟨by simpa using hopen,hsession⟩
  obtain ⟨current,hcurrent,hlive⟩ := h.session hfed
  have hlt : s.latest < s.listeners.length := (List.getElem?_eq_some_iff.mp hcurrent).choose
  have hsent : (s.listeners.map fun l => if l.ended then l else { l with sent := l.sent ++ [(s.frames,frame)] })[s.latest]? =
      some { current with sent := current.sent ++ [(s.frames,frame)] } := by
    rw [List.getElem?_map,hcurrent,Option.map_some,if_neg (by simp [hlive])]
  refine ⟨hwired,hkept.heard h,hkept.last h,?_,?_,?_⟩
  · intro _ x hx
    rw [hkept.length]
    rcases mem_of_mem_offer hx with hx | rfl
    · exact h.known hfed.1 x hx
    · exact hlt
  · intro _
    rw [hkept.latest]
    exact ⟨_,hsent,hlive⟩
  · intro m hm hrunning
    rw [hkept.latest] at hm
    obtain rfl := Option.some.inj (hsent.symm.trans hm)
    obtain ⟨before,own,hserving⟩ | hstopping := h.runs current hcurrent hrunning
    · exact .inl ⟨_,_,hserving.fed h.wired.bounded hkept.latest (by rw [← Option.some.inj heq])
        ⟨rfl,rfl,id,fun _ => id,id,List.prefix_append _ _⟩ rfl rfl⟩
    · rcases hstopping.ended with hclosed | hended
      · exact absurd hclosed (by simp [hfed.1])
      · exact absurd hended (by simp [hlive])

/-- The listener that runs stops; what it leaves in the queue was there before. -/
theorem Synced.stopped {conn : Conn} {queue : List (Nat × Option SentFrame)} {i : Nat} {how : Stop} (h : s.Synced)
    (hrunning : s.running i) (hhow : ∀ origin, how = .sentinel origin → origin = i)
    (hwired : Wired { s with conn, queue, listeners := s.listeners.modify i fun l => { l with stopped := some how } })
    (hqueue : queue ⊆ s.queue) (hclosed : conn.closed = s.conn.closed) (hsession : conn.sessionId = s.conn.sessionId) :
    Synced { s with conn, queue, listeners := s.listeners.modify i fun l => { l with stopped := some how } } := by
  have hlast := h.latest_eq hrunning
  refine ⟨hwired,?_,?_,?_,?_,?_⟩
  · intro j m hm
    obtain ⟨l,hl,rfl⟩ := get_modify hm
    have hheard := h.heard j l hl
    split
    · next heq => exact ⟨hheard.frames,hheard.dropsOldest,fun origin hstop => heq ▸ hhow origin (Option.some.inj hstop)⟩
    · exact hheard
  · intro j hj
    obtain ⟨m,hm,hrun⟩ := running_iff.mp hj
    obtain ⟨l,hl,rfl⟩ := get_modify hm
    dsimp only
    rw [List.length_modify]
    split at hrun
    · cases hrun
    · exact h.last j (running_iff.mpr ⟨l,hl,hrun⟩)
  · intro hopen x hx
    dsimp only at hopen ⊢
    rw [hclosed] at hopen
    rw [List.length_modify]
    exact h.known hopen x (hqueue hx)
  · rintro ⟨hopen,hsome⟩
    dsimp only at hopen hsome
    rw [hclosed] at hopen
    rw [hsession] at hsome
    obtain ⟨l,hl,hlive⟩ := h.session ⟨hopen,hsome⟩
    refine ⟨{ l with stopped := some how },?_,hlive⟩
    dsimp only [latest]
    rw [List.length_modify,List.getElem?_modify]
    change ((fun a => if i = s.latest then _ else a) <$> s.listeners[s.latest]?) = _
    rw [hl,hlast]
    simp
  · intro m hm hrun
    dsimp only [latest] at hm
    rw [List.length_modify] at hm
    obtain ⟨l,-,rfl⟩ := get_modify hm
    change (if i = s.latest then _ else l).stopped = none at hrun
    rw [if_pos hlast.symm] at hrun
    cases hrun

/-- A listener takes an item of its own. -/
theorem Synced.consumed {i : Nat} (h : s.Synced) (hclean : Clean s (.consume i))
    (hstep : s.step (.consume i) = some s') : s'.Synced := by
  have hwired := step_wired h.wired hstep
  obtain ⟨origin,item,queue,hqueue,hrunning,conn,hconn,rfl⟩ := consume_cases hstep
  obtain rfl := h.wired.consume hqueue hconn
  obtain rfl := h.latest_eq hrunning
  obtain ⟨l,hl,hrun⟩ := running_iff.mp hrunning
  have hsub : queue ⊆ s.queue := by
    rw [hqueue]
    exact List.subset_cons_self _ _
  obtain ⟨before,own,hserving⟩ | hstopping := h.runs l hl hrun
  · -- What the start found is gone, so the head of the queue is the session's own frame.
    have hleft := hserving.left
    have hempty : before = [] := by
      apply List.length_eq_zero_iff.mp
      obtain hfound | hfull | hasked := hclean l hl
      · omega
      · omega
      · exact absurd hasked hserving.asked
    have hown := hserving.queue
    rw [hempty,List.nil_append,hqueue] at hown
    cases own with
    | nil => cases hown
    | cons frame rest =>
      obtain ⟨hhead,hrest⟩ := List.cons.inj hown
      obtain ⟨rfl,rfl⟩ := Prod.mk.inj hhead
      generalize hs' : Socket.mk _ _ _ _ = s' at hwired ⊢
      have hlength : s'.listeners.length = s.listeners.length := by rw [← hs',List.length_modify]
      have hlatest : s'.latest = s.latest := by rw [latest,hlength,latest]
      have hget (j : Nat) (m : Listener) (hm : s'.listeners[j]? = some m) :
          ∃ l, s.listeners[j]? = some l ∧ m = if s.latest = j then take s.latest (some frame) l else l := by
        rw [← hs'] at hm
        exact get_modify hm
      have hchannel := hserving.heard.receive
      refine ⟨hwired,?_,?_,?_,?_,?_⟩
      · intro j m hm
        obtain ⟨l',hl',rfl⟩ := hget j m hm
        have hheard := h.heard j l' hl'
        split
        · next heq =>
          subst heq
          obtain rfl := Option.some.inj (hl.symm.trans hl')
          refine ⟨fun x hx => ?_,⟨rest,by simpa [take] using hchannel⟩,hheard.sentinel⟩
          rcases mem_take_received hx with hx | ⟨hx,-⟩
          · exact hheard.frames x hx
          · exact hx
        · exact hheard
      · intro j hj
        obtain ⟨m,hm,hrunning'⟩ := running_iff.mp hj
        obtain ⟨l',hl',rfl⟩ := hget j m hm
        rw [hlength]
        split at hrunning'
        · next heq => rw [← heq,h.last _ hrunning]
        · exact h.last j (running_iff.mpr ⟨l',hl',hrunning'⟩)
      · rw [hlength,← hs']
        exact fun hopen x hx => h.known hopen x (hsub hx)
      · intro hf
        have hfed : s.Fed := by
          rw [← hs'] at hf
          exact hf
        obtain ⟨l',hl',hlive⟩ := h.session hfed
        refine ⟨take s.latest (some frame) l',?_,by rwa [take_ended]⟩
        rw [hlatest,← hs']
        dsimp only
        rw [List.getElem?_modify,hl']
        simp
      · intro m hm _
        rw [hlatest] at hm
        obtain ⟨l',hl',rfl⟩ := hget _ m hm
        obtain rfl := Option.some.inj (hl.symm.trans hl')
        rw [if_pos rfl]
        refine .inl ⟨[],rest,?_,?_,nofun,?_,fun hne => absurd rfl hne,by simpa [take] using hchannel⟩
        · rw [hlatest,← hs']
          exact hserving.asked
        · rw [hlatest,← hs']
          exact hrest
        · rw [take_found,take_sent,← hleft,hempty]
  · have hhead := hstopping.queue (origin,item) (by rw [hqueue]; exact List.mem_cons_self)
    obtain ⟨rfl,rfl⟩ := Prod.mk.inj hhead
    have hown (origin : Nat) (heq : Stop.sentinel s.latest = .sentinel origin) : origin = s.latest := (Stop.sentinel.inj heq).symm
    exact h.stopped hrunning hown hwired hsub rfl rfl

/-- A clean step keeps the channels. -/
theorem step_synced {event : SocketEvent} (h : s.Synced) (hclean : Clean s event)
    (hstep : s.step event = some s') : s'.Synced := by
  have hwired := step_wired h.wired hstep
  cases event with
  | start sessionId lastSequence calls =>
    obtain ⟨conn,hconn,rfl⟩ := Option.map_eq_some_iff.mp hstep
    obtain ⟨hopen,⟨session,hstarted,hclosed,-,hcancelled,htask,-⟩ | ⟨-,⟨hclosed,hnone,hkeeps⟩ | ⟨hclosed,hflush⟩⟩⟩ :=
      start_step hconn
    · have hnew : conn.listeningTask ≠ s.conn.listeningTask := by
        rw [htask]
        exact (fresh_task h.wired).symm
      simp only [hclosed,if_neg hnew,Bool.false_eq_true,if_false] at hwired ⊢
      exact h.started hwired hcancelled hopen (hclean ⟨session,hstarted⟩)
    · simp only [hclosed,hkeeps.listening,Bool.false_eq_true,if_false,if_true] at hwired ⊢
      refine h.idle kept_conn hwired (fun hf => hf.2 hnone) rfl hkeeps.cancelled (hclosed.trans hopen.symm) ?_
      intro l m hl hm _
      rw [Option.some.inj (hl.symm.trans hm)]
    · simp only [hclosed,hflush.listening,if_true] at hwired ⊢
      exact h.flushed kept_conn hwired (fun hf => Bool.false_ne_true (hf.1.symm.trans hclosed)) hflush rfl (.inl hclosed)
        (fun hnot => absurd (hnot.symm.trans hclosed) Bool.false_ne_true)
  | audio frame =>
    obtain ⟨conn,hconn,rfl⟩ := Option.map_eq_some_iff.mp hstep
    by_cases hsession : s.conn.sessionId = none
    · simp only [Gateway.step,if_pos hsession] at hconn
      obtain ⟨-,heq⟩ := Option.ite_none_left_eq_some.mp hconn
      cases heq
      simp only [if_pos hsession] at hwired ⊢
      refine h.idle (kept_audio ..) hwired (fun hf => hf.2 hsession) rfl rfl rfl ?_
      intro l m hl hm hrun
      -- The session of a listener that runs is over, or the frame would be lost.
      have hended : l.ended = true := by
        by_contra hlive
        exact hclean ⟨l,List.mem_of_getElem? hl,hrun,by simpa using hlive⟩ hsession
      rw [List.getElem?_map,hl,Option.map_some,if_pos hended] at hm
      rw [← Option.some.inj hm]
    · simp only [if_neg hsession]
      exact h.fed hconn hsession
  | endSession calls =>
    obtain ⟨conn,hconn,rfl⟩ := Option.map_eq_some_iff.mp hstep
    obtain ⟨hopen,⟨hnone,hclosed,hnone',hkeeps⟩ | ⟨hsome,hover,hflush⟩⟩ := end_step hconn
    · simp only [if_pos hnone] at hwired ⊢
      refine h.idle kept_end hwired (fun hf => hf.2 hnone') rfl hkeeps.cancelled (hclosed.trans hopen.symm) ?_
      intro l m hl hm _
      obtain ⟨l',hl',rfl⟩ := get_modify hm
      obtain rfl := Option.some.inj (hl.symm.trans hl')
      rw [if_pos rfl]
    · simp only [if_neg hsome] at hwired ⊢
      obtain ⟨current,hcurrent,-⟩ := h.session ⟨hopen,hsome⟩
      refine h.flushed kept_end hwired ?_ hflush rfl (.inr fun m hm => ?_) (fun _ => ?_)
      · rintro ⟨hopen',hsome'⟩
        rcases hover with hclosed | hnone
        · exact Bool.false_ne_true (hopen'.symm.trans hclosed)
        · exact hsome' hnone
      · obtain ⟨l,-,rfl⟩ := get_modify hm
        rw [if_pos rfl]
      · exact (List.getElem?_eq_some_iff.mp hcurrent).choose
  | disconnect calls =>
    obtain ⟨conn,hconn,rfl⟩ := Option.map_eq_some_iff.mp hstep
    obtain ⟨-,heq⟩ := Option.ite_none_left_eq_some.mp hconn
    cases heq
    exact h.flushed kept_conn hwired (fun hf => absurd hf.1 (by simp [close])) (close_flushes _ _) rfl (.inl rfl)
      (fun hopen => absurd hopen (by simp [close]))
  | consume i => exact h.consumed hclean hstep
  | finish i =>
    obtain ⟨hrunning,heq⟩ := Option.ite_none_right_eq_some.mp hstep
    cases heq
    exact h.stopped hrunning (by simp) hwired (List.Subset.refl _) rfl rfl
  | cancelled i =>
    obtain ⟨-,hstop⟩ := Option.ite_none_right_eq_some.mp hstep
    obtain ⟨hrunning,heq⟩ := Option.ite_none_right_eq_some.mp hstop
    cases heq
    exact h.stopped hrunning (by simp) hwired (List.Subset.refl _) rfl rfl

/-- A frame that the loop passes over while a session's listener runs is neither received nor
in the queue. -/
theorem lost_frame {frame : Frame} (hwired : s.Wired) (hstep : s.step (.audio frame) = some s')
    (hnone : s.conn.sessionId = none) (hl : l ∈ s.listeners) (hrun : l.stopped = none) (hlive : l.ended = false) :
    ¬ Isolated s' := by
  intro hisolated
  obtain ⟨conn,hconn,rfl⟩ := Option.map_eq_some_iff.mp hstep
  simp only [Gateway.step,if_pos hnone] at hconn
  obtain ⟨hopen,heq⟩ := Option.ite_none_left_eq_some.mp hconn
  cases heq
  obtain ⟨i,hi⟩ := List.mem_iff_getElem?.mp hl
  have hown := hisolated.listener i { l with sent := l.sent ++ [(s.frames,frame)] }
    (by dsimp only; rw [List.getElem?_map,hi,Option.map_some,if_neg (by simp [hlive])])
  have hlast := (hown.served (by simpa using hopen) hrun hlive).last_mem
  rcases List.mem_append.mp hlast with hreceived | hwaiting
  · obtain ⟨x,hx,heq⟩ := List.mem_map.mp hreceived
    have hlt := hwired.received l hl x hx
    rw [heq] at hlt
    exact lt_irrefl _ hlt
  · simp only [waiting,if_pos hnone,List.mem_filterMap] at hwaiting
    obtain ⟨x,hx,heq⟩ := hwaiting
    split at heq
    · exact lt_irrefl _ (hwired.numbered x hx _ heq)
    · cases heq

/-- A step after a clean run that leads to an isolated socket was clean. -/
theorem clean_of_isolated {event : SocketEvent} (h : s.Synced) (hstep : s.step event = some s')
    (hisolated : Isolated s') : Clean s event := by
  cases event with
  | start sessionId lastSequence calls =>
    rintro ⟨session,hstarted⟩ i
    obtain ⟨conn,hconn,rfl⟩ := Option.map_eq_some_iff.mp hstep
    obtain ⟨-,⟨-,-,-,-,-,htask,-⟩ | ⟨hnot,-⟩⟩ := start_step hconn
    · have hnew : conn.listeningTask ≠ s.conn.listeningTask := by
        rw [htask]
        exact (fresh_task h.wired).symm
      by_contra hrunning
      obtain ⟨l,hl,hrun⟩ := running_iff.mp (by simpa using hrunning)
      have hlt : i < s.listeners.length := (List.getElem?_eq_some_iff.mp hl).choose
      have hboth := hisolated.alone i s.listeners.length
        (running_iff.mpr ⟨l,by simpa [hnew,List.getElem?_append_left hlt] using hl,hrun⟩)
        (running_iff.mpr ⟨{ found := s.queue.length },by simp [hnew],rfl⟩)
      omega
    · exact absurd hstarted (hnot session)
  | audio frame =>
    rintro ⟨l,hl,hrun,hlive⟩ hnone
    exact lost_frame h.wired hstep hnone hl hrun hlive hisolated
  | consume i =>
    intro l hl
    by_contra hnot
    obtain ⟨hfound,hroom,hasked⟩ : l.found ≠ 0 ∧ l.sent.length < wsAudioQueueMaxFrames ∧ 2 * i ∉ s.conn.cancelled := by
      simpa only [not_or,not_le] using hnot
    obtain ⟨origin,item,queue,hqueue,hrunning,conn,-,rfl⟩ := consume_cases hstep
    obtain rfl := h.latest_eq hrunning
    obtain ⟨l',hl',hrun⟩ := running_iff.mp hrunning
    obtain rfl := Option.some.inj (hl.symm.trans hl')
    obtain ⟨before,own,hserving⟩ | hstopping := h.runs l hl hrun
    · -- What the start found still heads the queue.
      have hleft := hserving.left
      have hforeign : origin ≠ s.latest := by
        cases hbefore : before with
        | nil =>
          rw [hbefore,List.length_nil] at hleft
          omega
        | cons x before =>
          have hcons := hserving.queue
          rw [hbefore,hqueue,List.cons_append] at hcons
          have hother := hserving.others x (by rw [hbefore]; exact List.mem_cons_self)
          rwa [← (List.cons.inj hcons).1] at hother
      have htaken : (s.listeners.modify s.latest (take origin item))[s.latest]? = some (take origin item l) := by
        rw [List.getElem?_modify,hl]
        simp
      have hown := hisolated.listener s.latest _ htaken
      cases item with
      | none => exact hforeign (hown.sentinel origin rfl)
      | some frame => exact hforeign (hown.frames (origin,frame) (List.mem_append_right _ List.mem_cons_self))
    · exact hasked hstopping.asked
  | endSession | disconnect | finish | cancelled => trivial

theorem fresh_synced : Synced {} := by
  refine ⟨⟨rfl,by simp,rfl,by simp,nofun,nofun⟩,nofun,fun i hi => absurd hi (by simp [running]),nofun,?_,nofun⟩
  exact fun hf => absurd rfl hf.2

end Socket

/-- On one connection every listener gets exactly a drop-oldest subsequence of its session's
audio and no two listeners run at once, exactly if every start that succeeds finds no listener
running, no frame is sent while a rejected start has left a running session without the loop's
session variable, and no listener takes an item before what its start found in the queue is gone. -/
theorem audio_isolation_iff (events : List SocketEvent) :
    (∀ s, Visits Socket.step {} events s → Isolated s) ↔
      ∀ s event s', Fires Socket.step {} events s event s' → Clean s event := by
  constructor
  · intro hisolated s event s' hf
    have hsynced (s : Socket) (hs : Visits Socket.step {} events s) : s.Synced := by
      apply hs.induction Socket.fresh_synced
      intro a event b hf ha
      obtain ⟨-,-,-,hstep⟩ := id hf
      exact Socket.step_synced ha (Socket.clean_of_isolated ha hstep (hisolated b hf.after)) hstep
    obtain ⟨-,-,-,hstep⟩ := id hf
    exact Socket.clean_of_isolated (hsynced s hf.before) hstep (hisolated s' hf.after)
  · intro hclean s hs
    apply Socket.Synced.isolated
    apply hs.induction Socket.fresh_synced
    intro a event b hf ha
    obtain ⟨-,-,-,hstep⟩ := id hf
    exact Socket.step_synced ha (hclean a event b hf) hstep

/-- Two calls on one connection: the listener of the second reads the sentinel that the first
one, cancelled, has left. -/
def twoCalls : List SocketEvent :=
  [.start none 0 (willing 1),.endSession (willing 1),.cancelled 0,.start none 0 (willing 2),.audio [7],.consume 1]

theorem second_call_is_deaf :
    (run Socket.step {} twoCalls).map (·.listeners) =
      some [⟨some .cancelled,true,0,[],[]⟩,⟨some (.sentinel 0),false,1,[(0,[7])],[]⟩] ∧
    ¬ ∀ s, Visits Socket.step {} twoCalls s → Isolated s := by
  refine ⟨by decide,fun hisolated => ?_⟩
  obtain ⟨s,hs⟩ : ∃ s, run Socket.step {} twoCalls = some s := Option.isSome_iff_exists.mp (by decide)
  have hdeaf : (run Socket.step {} twoCalls).map (fun s => s.listeners[1]?) =
      some (some ⟨some (.sentinel 0),false,1,[(0,[7])],[]⟩) := by decide
  rw [hs] at hdeaf
  have hown := (hisolated s (.of_run hs)).listener 1 _ (Option.some.inj hdeaf)
  exact absurd (hown.sentinel 0 rfl) (by decide)

end VoxForge.Gateway
