import VoxForge.Foundation.Runs

/-! The grace period of a LiveKit room: the timers that disconnects start, and the shutdown
event that they share. -/
namespace VoxForge.Livekit
open Foundation

structure Settings where
  livekitReconnectGraceSeconds : Int := 30

/-- A `_delayed_shutdown` task that sleeps, with the number of its disconnect. -/
structure Timer where
  disconnect : Nat
  deadline : Nat
  deriving DecidableEq, Repr

/-- Where the participant is, as the room's events tell: `inTime` says that the timer of the
latest disconnect was still asleep at the first reconnect after it. -/
inductive Presence where
  | joined
  | away (disconnect : Nat)
  | back (inTime : Bool)
  deriving DecidableEq, Repr

/-- The room's callbacks, the clock, the timers and the worker, in any order. -/
inductive RoomEvent where
  | participantDisconnected (identity : String)
  | participantConnected (identity : String)
  | elapse (seconds : Nat)
  | expire (disconnect : Nat)
  | requestShutdown
  | workerExit
  deriving DecidableEq, Repr

/-- The worker of one room. The last two fields record what happened: where the participant
is, and the timer that set the event, with where the participant was then. -/
structure Room where
  now : Nat := 0
  timers : List Timer := []
  shutdownEvent : Bool := false
  disconnectedEvents : Nat := 0
  reconnectionAttempts : Nat := 0
  sessionEnded : Option String := none
  presence : Presence := .joined
  setBy : Option (Nat × Presence) := none
  deriving DecidableEq, Repr

section room
variable (settings : Settings) (participant : String)

/-- `_on_disconnect`: every disconnect starts a timer of its own. -/
def onDisconnect (identity : String) (room : Room) : Room :=
  if identity = participant then
    let disconnect := room.disconnectedEvents + 1
    let deadline := room.now + settings.livekitReconnectGraceSeconds.toNat
    { room with
      disconnectedEvents := disconnect
      timers := room.timers ++ [{ disconnect, deadline }]
      presence := .away disconnect }
  else room

def Presence.reconnect (timers : List Timer) : Presence → Presence
  | .away disconnect => .back (timers.any (·.disconnect = disconnect))
  | presence => presence

/-- `_on_reconnect`: the session is resumed, and no timer is touched. -/
def onReconnect (identity : String) (room : Room) : Room :=
  if identity = participant then
    { room with
      reconnectionAttempts := room.reconnectionAttempts + 1
      presence := room.presence.reconnect room.timers }
  else room

/-- `shutdown_event.set()` at the end of `_delayed_shutdown`. -/
def delayedShutdown (disconnect : Nat) (room : Room) : Room :=
  { room with
    timers := room.timers.filter (·.disconnect ≠ disconnect)
    shutdownEvent := true
    setBy := if room.shutdownEvent then room.setBy else some (disconnect,room.presence) }

/-- `LiveKitSessionRunner.shutdown`, which ends the session once. -/
def shutdown (reason : String) (room : Room) : Room :=
  { room with sessionEnded := some (room.sessionEnded.getD reason) }

/-- A timer wakes when its sleep is over, and the worker leaves when the event is set. -/
def step (room : Room) : RoomEvent → Option Room
  | .participantDisconnected identity => some (onDisconnect settings participant identity room)
  | .participantConnected identity => some (onReconnect participant identity room)
  | .elapse seconds => some { room with now := room.now + seconds }
  | .expire disconnect =>
    if room.timers.any fun t => t.disconnect = disconnect && t.deadline ≤ room.now then
      some (delayedShutdown disconnect room)
    else none
  | .requestShutdown => some { room with shutdownEvent := true }
  | .workerExit => if room.shutdownEvent then some (shutdown "worker_exit" room) else none

/-- A participant who came back in time has not been shut down by a timer, and only the timer
of the latest disconnect, with no reconnect after it, may set the event. -/
structure GraceLaw (room : Room) : Prop where
  resumed : room.presence = .back true → room.setBy = none
  latest : ∀ disconnect presence, room.setBy = some (disconnect,presence) → presence = .away disconnect

/-! What the list of the room's events tells -/

def RoomEvent.shuts : RoomEvent → Bool
  | .expire _ | .requestShutdown => true
  | _ => false

def latest (past : List RoomEvent) : Option RoomEvent :=
  past.reverse.find? fun e => e = .participantDisconnected participant || e = .participantConnected participant

def disconnects (past : List RoomEvent) : Nat := past.count (.participantDisconnected participant)

def shutByTimer (past : List RoomEvent) : Bool := (past.find? RoomEvent.shuts).any (· ≠ .requestShutdown)

/-- The same of the state before a step. -/
def Ok (room : Room) : RoomEvent → Prop
  | .expire disconnect => room.shutdownEvent = false → room.presence = .away disconnect
  | .participantConnected identity => identity = participant →
    ∀ disconnect, room.presence = .away disconnect → room.timers.any (·.disconnect = disconnect) → room.setBy = none
  | _ => True

variable {settings participant}

theorem GraceLaw.congr {a b : Room} (h : GraceLaw a) (hpresence : b.presence = a.presence)
    (hset : b.setBy = a.setBy) : GraceLaw b := by
  refine ⟨?_,?_⟩
  · rw [hpresence,hset]
    exact h.resumed
  · rw [hset]
    exact h.latest

variable (participant) in
/-- The participant is away since the disconnect with this number. -/
def AwaySince (past : List RoomEvent) (disconnect : Nat) : Prop :=
  latest participant past = some (.participantDisconnected participant) ∧ disconnects participant past = disconnect

section past
variable {past : List RoomEvent} {event : RoomEvent}

theorem latest_concat :
    latest participant (past ++ [event]) =
      if event = .participantDisconnected participant ∨ event = .participantConnected participant then some event
      else latest participant past := by
  simp [latest,List.find?_cons]
  split <;> simp_all

theorem awaySince_disconnected {disconnect : Nat} :
    AwaySince participant (past ++ [.participantDisconnected participant]) disconnect ↔
      disconnect = disconnects participant past + 1 := by
  simp [AwaySince,latest_concat,disconnects,eq_comm]

theorem not_awaySince_connected {disconnect : Nat} :
    ¬AwaySince participant (past ++ [.participantConnected participant]) disconnect := by
  simp [AwaySince,latest_concat]

/-- The events of others leave the participant where it is. -/
theorem awaySince_concat {disconnect : Nat} (hleft : event ≠ .participantDisconnected participant)
    (hback : event ≠ .participantConnected participant) :
    AwaySince participant (past ++ [event]) disconnect ↔ AwaySince participant past disconnect := by
  simp [AwaySince,latest_concat,disconnects,hleft,hback]

theorem disconnects_concat (hleft : event ≠ .participantDisconnected participant) :
    disconnects participant (past ++ [event]) = disconnects participant past := by
  simp [disconnects,hleft]

theorem shutByTimer_concat :
    shutByTimer (past ++ [event]) =
      (shutByTimer past || (!past.any RoomEvent.shuts && event.shuts && event ≠ .requestShutdown)) := by
  unfold shutByTimer
  rw [List.find?_append]
  cases hfind : past.find? RoomEvent.shuts with
  | some e =>
    have hset : past.any RoomEvent.shuts = true :=
      List.any_eq_true.mpr ⟨e,List.mem_of_find?_eq_some hfind,List.find?_some hfind⟩
    simp [hset]
  | none =>
    have hunset : past.any RoomEvent.shuts = false := by simpa using List.find?_eq_none.mp hfind
    cases hshuts : event.shuts <;> simp [hunset,hshuts]

variable (participant) in
/-- What the fields of a room tell of the past. -/
structure Tells (past : List RoomEvent) (room : Room) : Prop where
  counted : room.disconnectedEvents = disconnects participant past
  away : ∀ disconnect, room.presence = .away disconnect ↔ AwaySince participant past disconnect
  set : room.shutdownEvent = past.any RoomEvent.shuts
  setBy : room.setBy.isSome = shutByTimer past
  asleep : ∀ disconnect, room.timers.any (·.disconnect = disconnect) ↔
    1 ≤ disconnect ∧ disconnect ≤ disconnects participant past ∧ .expire disconnect ∉ past
  expired : ∀ disconnect, .expire disconnect ∈ past → disconnect ≤ disconnects participant past

variable {room room' : Room}

/-- An event that is neither of the participant nor of a timer. -/
theorem Tells.concat (h : Tells participant past room) (hleft : event ≠ .participantDisconnected participant)
    (hback : event ≠ .participantConnected participant) (htimer : ∀ disconnect, event ≠ .expire disconnect)
    (hcount : room'.disconnectedEvents = room.disconnectedEvents) (hpresence : room'.presence = room.presence)
    (htimers : room'.timers = room.timers) (hsetBy : room'.setBy = room.setBy)
    (hset : room'.shutdownEvent = (room.shutdownEvent || event.shuts)) : Tells participant (past ++ [event]) room' := by
  have hnoTimer : (event.shuts && decide (event ≠ .requestShutdown)) = false := by
    cases event with
    | expire disconnect => exact absurd rfl (htimer disconnect)
    | _ => rfl
  have hmem (disconnect : Nat) : .expire disconnect ∈ past ++ [event] ↔ .expire disconnect ∈ past := by
    simp [Ne.symm (htimer disconnect)]
  refine ⟨?_,fun disconnect => ?_,?_,?_,fun disconnect => ?_,fun disconnect hexpired => ?_⟩
  · rw [hcount,h.counted,disconnects_concat hleft]
  · rw [hpresence,awaySince_concat hleft hback]
    exact h.away disconnect
  · rw [hset,h.set]
    simp
  · rw [hsetBy,h.setBy,shutByTimer_concat,Bool.and_assoc,hnoTimer]
    simp
  · rw [htimers,hmem,disconnects_concat hleft]
    exact h.asleep disconnect
  · rw [disconnects_concat hleft]
    exact h.expired disconnect ((hmem disconnect).mp hexpired)

theorem Tells.onDisconnect (h : Tells participant past room) :
    Tells participant (past ++ [.participantDisconnected participant])
      (Livekit.onDisconnect settings participant participant room) := by
  have hcount : disconnects participant (past ++ [.participantDisconnected participant]) =
      disconnects participant past + 1 := by simp [disconnects]
  unfold Livekit.onDisconnect
  rw [if_pos rfl]
  refine ⟨?_,fun disconnect => ?_,?_,?_,fun disconnect => ?_,fun disconnect hexpired => ?_⟩
  · rw [hcount]
    exact congrArg (· + 1) h.counted
  · rw [awaySince_disconnected,← h.counted]
    simp [eq_comm]
  · simp [h.set,RoomEvent.shuts]
  · simp [h.setBy,shutByTimer_concat,RoomEvent.shuts]
  · have hold := h.asleep disconnect
    have hexpired := h.expired disconnect
    rw [hcount]
    simp only [List.any_append,Bool.or_eq_true,hold,h.counted,List.any_cons,List.any_nil,Bool.or_false,
      decide_eq_true_eq,List.mem_append,List.mem_singleton,reduceCtorEq,or_false]
    constructor
    · rintro (⟨hlow,hhigh,hnot⟩ | rfl)
      · exact ⟨hlow,by omega,hnot⟩
      · exact ⟨by omega,le_rfl,fun hmem => absurd (hexpired hmem) (by omega)⟩
    · rintro ⟨hlow,hhigh,hnot⟩
      by_cases hlast : disconnects participant past + 1 = disconnect
      · exact .inr hlast
      · exact .inl ⟨hlow,by omega,hnot⟩
  · have hold := h.expired disconnect (by simpa using hexpired)
    omega

theorem Tells.onReconnect (h : Tells participant past room) :
    Tells participant (past ++ [.participantConnected participant])
      (Livekit.onReconnect participant participant room) := by
  have hcount : disconnects participant (past ++ [.participantConnected participant]) =
      disconnects participant past := disconnects_concat (by simp)
  unfold Livekit.onReconnect
  rw [if_pos rfl]
  refine ⟨?_,fun disconnect => ?_,?_,?_,fun disconnect => ?_,fun disconnect hexpired => ?_⟩
  · rw [hcount]
    exact h.counted
  · refine iff_of_false ?_ not_awaySince_connected
    show room.presence.reconnect room.timers ≠ .away disconnect
    cases room.presence <;> simp [Presence.reconnect]
  · simp [h.set,RoomEvent.shuts]
  · simp [h.setBy,shutByTimer_concat,RoomEvent.shuts]
  · rw [hcount]
    simpa using h.asleep disconnect
  · rw [hcount]
    exact h.expired disconnect (by simpa using hexpired)

/-- A timer that wakes is asleep until then, and sets the event if it is not set. -/
theorem Tells.delayedShutdown (h : Tells participant past room) {disconnect : Nat}
    (hasleep : room.timers.any (·.disconnect = disconnect)) :
    Tells participant (past ++ [.expire disconnect]) (Livekit.delayedShutdown disconnect room) := by
  have hcount : disconnects participant (past ++ [.expire disconnect]) = disconnects participant past :=
    disconnects_concat (by simp)
  refine ⟨?_,fun other => ?_,?_,?_,fun other => ?_,fun other hexpired => ?_⟩
  · rw [hcount]
    exact h.counted
  · rw [awaySince_concat (by simp) (by simp)]
    exact h.away other
  · simp [Livekit.delayedShutdown,RoomEvent.shuts]
  · rw [shutByTimer_concat,← h.set,← h.setBy]
    cases hset : room.shutdownEvent <;> simp [Livekit.delayedShutdown,hset,RoomEvent.shuts]
  · rw [hcount]
    have hfilter : (room.timers.filter (·.disconnect ≠ disconnect)).any (·.disconnect = other) ↔
        other ≠ disconnect ∧ room.timers.any (·.disconnect = other) := by
      simp only [List.any_eq_true,List.mem_filter,decide_eq_true_eq]
      constructor
      · rintro ⟨timer,⟨htimer,hne⟩,rfl⟩
        exact ⟨hne,timer,htimer,rfl⟩
      · rintro ⟨hne,timer,htimer,rfl⟩
        exact ⟨timer,⟨htimer,hne⟩,rfl⟩
    refine hfilter.trans ?_
    rw [h.asleep other]
    simp only [ne_eq,List.mem_append,List.mem_singleton,RoomEvent.expire.injEq,not_or]
    tauto
  · rw [hcount]
    rcases List.mem_append.mp hexpired with hexpired | hnow
    · exact h.expired other hexpired
    · cases List.mem_singleton.mp hnow
      exact ((h.asleep disconnect).mp hasleep).2.1

theorem Tells.step (h : Tells participant past room) (hstep : step settings participant room event = some room') :
    Tells participant (past ++ [event]) room' := by
  cases event with
  | participantDisconnected identity =>
    cases hstep
    by_cases heq : identity = participant
    · subst heq
      exact h.onDisconnect
    · have hsame : Livekit.onDisconnect settings participant identity room = room := if_neg heq
      rw [hsame]
      exact h.concat (by simp [heq]) (by simp) (by simp) rfl rfl rfl rfl (by simp [RoomEvent.shuts])
  | participantConnected identity =>
    cases hstep
    by_cases heq : identity = participant
    · subst heq
      exact h.onReconnect
    · have hsame : Livekit.onReconnect participant identity room = room := if_neg heq
      rw [hsame]
      exact h.concat (by simp) (by simp [heq]) (by simp) rfl rfl rfl rfl (by simp [RoomEvent.shuts])
  | elapse seconds =>
    cases hstep
    exact h.concat (by simp) (by simp) (by simp) rfl rfl rfl rfl (by simp [RoomEvent.shuts])
  | expire disconnect =>
    obtain ⟨hdue,hexpired⟩ := Option.ite_none_right_eq_some.mp hstep
    cases hexpired
    obtain ⟨timer,htimer,hdue⟩ := List.any_eq_true.mp hdue
    exact h.delayedShutdown (List.any_eq_true.mpr ⟨timer,htimer,(Bool.and_eq_true_iff.mp hdue).1⟩)
  | requestShutdown =>
    cases hstep
    exact h.concat (by simp) (by simp) (by simp) rfl rfl rfl rfl (by simp [RoomEvent.shuts])
  | workerExit =>
    obtain ⟨-,hexit⟩ := Option.ite_none_right_eq_some.mp hstep
    cases hexit
    exact h.concat (by simp) (by simp) (by simp) rfl rfl rfl rfl (by simp [RoomEvent.shuts,shutdown])

end past

end room
end VoxForge.Livekit
