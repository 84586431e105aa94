import VoxForge.Livekit.SessionRunner

/-! What each event does to the runner, and all that can still happen to one whose tasks are
cancelled: every step is one of a few moves, and none of them puts a frame into the queue. -/
namespace VoxForge.Livekit.SessionRunner
open Foundation

variable {r t : SessionRunner} {reason : String}

theorem putSentinel_of_room (h : r.HasRoom) (reason : String) :
    r.putSentinel reason = some { r with audioQueue := r.audioQueue ++ [none], ended := r.ended ++ [reason] } := by
  have hput : putNowait r.audioQueue none = some (r.audioQueue ++ [none]) := if_pos h
  rw [putSentinel,hput,Option.map_some]

theorem putSentinel_of_full (h : ¬ r.HasRoom) (reason : String) : r.putSentinel reason = none := by
  have hput : putNowait r.audioQueue none = none := if_neg h
  rw [putSentinel,hput,Option.map_none]

section tasks

/-- The ingress task changes its own state and the queue. -/
theorem ingressAudio_eq {event : IngressEvent} (h : r.ingressAudio event = some t) :
    ∃ task queue, t = { r with ingressTask := task, audioQueue := queue } := by
  unfold ingressAudio at h
  split at h
  · split_ifs at h <;> cases h <;> exact ⟨_,_,rfl⟩
  all_goals cases h <;> exact ⟨_,_,rfl⟩

theorem continuousListening_eq {event : ListeningEvent} (h : r.continuousListening event = some t) :
    ∃ task streams senders, t = { r with listeningTask := task, streams := streams, senders := senders } := by
  unfold continuousListening at h
  split at h
  case h_8 => split_ifs at h; cases h; exact ⟨_,_,_,rfl⟩
  all_goals cases h <;> exact ⟨_,_,_,rfl⟩

theorem heartbeatLoop_eq {event : HeartbeatEvent} (h : r.heartbeatLoop event = some t) :
    ∃ task, t = { r with heartbeatTask := task } := by
  unfold heartbeatLoop at h
  split at h
  all_goals cases h <;> exact ⟨_,rfl⟩

theorem sendAudio_eq {stream : Nat} {event : SenderEvent} (h : r.sendAudio stream event = some t) :
    ∃ queue senders, t = { r with audioQueue := queue, senders := senders } := by
  unfold sendAudio at h
  split at h
  · split_ifs at h
    split at h <;> cases h <;> exact ⟨_,_,rfl⟩
  all_goals split_ifs at h; cases h; exact ⟨_,_,rfl⟩

end tasks

section before

theorem shutdown_again (h : r.shutdownSet = true) (reason : String) :
    r.shutdown reason = { r with shutdownCalls := r.shutdownCalls ++ [.returned] } := if_pos h

theorem shutdown_of_room (h : r.shutdownSet = false) (hroom : r.HasRoom) (reason : String) :
    r.shutdown reason = { r.cancelTasks with
      audioQueue := r.audioQueue ++ [none]
      ended := r.ended ++ [reason]
      shutdownCalls := r.shutdownCalls ++ [.ending] } := by
  have hput := putSentinel_of_room (r := r.cancelTasks) hroom reason
  rw [shutdown,h,if_neg Bool.false_ne_true,hput]
  rfl

theorem shutdown_of_full (h : r.shutdownSet = false) (hfull : ¬ r.HasRoom) (reason : String) :
    r.shutdown reason = { r.cancelTasks with shutdownCalls := r.shutdownCalls ++ [.putting reason] } := by
  have hput := putSentinel_of_full (r := r.cancelTasks) hfull reason
  rw [shutdown,h,if_neg Bool.false_ne_true,hput]

theorem shutdown_set (r : SessionRunner) (reason : String) : (r.shutdown reason).shutdownSet = true := by
  cases hset : r.shutdownSet with
  | true => rw [shutdown_again hset]; exact hset
  | false =>
    by_cases hroom : r.HasRoom
    · rw [shutdown_of_room hset hroom]; rfl
    · rw [shutdown_of_full hset hroom]; rfl

/-- A call that is under way is among the calls. -/
theorem putResumes_eq {call : Nat} (h : r.putResumes call = some t) :
    ∃ reason, r.shutdownCalls[call]? = some (.putting reason) ∧ r.HasRoom ∧ t = { r with
      audioQueue := r.audioQueue ++ [none]
      ended := r.ended ++ [reason]
      shutdownCalls := r.shutdownCalls.set call .ending } := by
  unfold putResumes at h
  split at h
  · next reason hcall =>
    by_cases hroom : r.HasRoom
    · rw [putSentinel_of_room hroom] at h
      cases h
      exact ⟨reason,hcall,hroom,rfl⟩
    · rw [putSentinel_of_full hroom] at h
      cases h
  · cases h

theorem endReturns_eq {call : Nat} (h : r.endReturns call = some t) :
    r.shutdownCalls[call]? = some .ending ∧ t = { r with
      shutdownCalls := r.shutdownCalls.set call .returned
      cleared := r.cleared + 1 } := by
  obtain ⟨hcall,hreturns⟩ := Option.ite_none_right_eq_some.mp h
  cases hreturns
  exact ⟨hcall,rfl⟩

/-- Before the flag is set, nothing of a shutdown has happened. -/
def Untouched (r : SessionRunner) : Prop :=
  r.shutdownSet = false → r.shutdownCalls = [] ∧ r.ended = [] ∧ r.cleared = 0

theorem untouched_step {event : RunnerEvent} (h : r.Untouched) (hstep : r.step event = some t) : t.Untouched := by
  intro hset
  cases event with
  | start =>
    obtain ⟨-,hstart⟩ := Option.ite_none_right_eq_some.mp hstep
    cases hstart
    exact h hset
  | ingress event =>
    obtain ⟨_,_,rfl⟩ := ingressAudio_eq hstep
    exact h hset
  | listening event =>
    obtain ⟨_,_,_,rfl⟩ := continuousListening_eq hstep
    exact h hset
  | heartbeat event =>
    obtain ⟨_,rfl⟩ := heartbeatLoop_eq hstep
    exact h hset
  | sender stream event =>
    obtain ⟨_,_,rfl⟩ := sendAudio_eq hstep
    exact h hset
  | shutdown reason =>
    cases hstep
    rw [shutdown_set] at hset
    cases hset
  | putResumes call =>
    obtain ⟨reason,hcall,-,rfl⟩ := putResumes_eq hstep
    rw [(h hset).1] at hcall
    cases hcall
  | endReturns call failed =>
    obtain ⟨hcall,rfl⟩ := endReturns_eq hstep
    rw [(h hset).1] at hcall
    cases hcall

theorem untouched_run {events : List RunnerEvent} (hrun : run step {} events = some r) : r.Untouched :=
  (Visits.of_run hrun).invariant (fun _ => ⟨rfl,rfl,rfl⟩) fun _ _ _ h hstep => untouched_step h hstep

end before

section senders
variable {stream other : Nat}

/-- Every send task of the stream has been cancelled. -/
def SendersCancelled (r : SessionRunner) (stream : Nat) : Prop :=
  ∀ s ∈ r.senders, s.stream = stream → s.cancelled = true

theorem sendersCancelled_cancelSender (r : SessionRunner) (stream : Nat) :
    (r.cancelSender stream).SendersCancelled stream := by
  intro s hs hstream
  obtain ⟨before,-,rfl⟩ := List.mem_map.mp hs
  simp only [decide_eq_true hstream,Bool.or_true]

theorem SendersCancelled.cancelSender (h : r.SendersCancelled stream) (other : Nat) :
    (r.cancelSender other).SendersCancelled stream := by
  intro s hs hstream
  obtain ⟨before,hbefore,rfl⟩ := List.mem_map.mp hs
  simp only [h before hbefore hstream,Bool.true_or]

theorem SendersCancelled.endSender (h : r.SendersCancelled stream) (other : Nat) :
    (r.endSender other).SendersCancelled stream := by
  intro s hs
  exact h s (List.mem_of_mem_filter hs)

/-- A send task takes an item, ends, or is cancelled. -/
theorem sendAudio_cases {event : SenderEvent} (h : r.sendAudio stream event = some t) :
    ({ stream } ∈ r.senders ∧ ∃ item queue, r.audioQueue = item :: queue ∧
      (t = { r with audioQueue := queue } ∨ t = { r with audioQueue := queue }.endSender stream)) ∨
    ((∃ cancelled, { stream, cancelled } ∈ r.senders) ∧ t = r.endSender stream) ∨
    ({ stream } ∈ r.senders ∧ t = r.cancelSender stream) := by
  cases event with
  | take =>
    obtain ⟨hmem,h⟩ := Option.ite_none_right_eq_some.mp h
    split at h
    · cases h
    · next chunk queue hqueue =>
      cases h
      exact .inl ⟨hmem,_,queue,hqueue,.inl rfl⟩
    · next queue hqueue =>
      cases h
      exact .inl ⟨hmem,_,queue,hqueue,.inr rfl⟩
  | fails =>
    obtain ⟨hmem,h⟩ := Option.ite_none_right_eq_some.mp h
    cases h
    exact .inr (.inl ⟨⟨_,hmem⟩,rfl⟩)
  | cancelled =>
    obtain ⟨hmem,h⟩ := Option.ite_none_right_eq_some.mp h
    cases h
    exact .inr (.inl ⟨⟨_,hmem⟩,rfl⟩)
  | finalized =>
    obtain ⟨⟨hmem,-⟩,h⟩ := Option.ite_none_right_eq_some.mp h
    cases h
    exact .inr (.inr ⟨hmem,rfl⟩)

end senders

section after

/-- What `shutdown` leaves of the tasks: nothing runs on but the clean-up of a stream. -/
structure Halted (r : SessionRunner) : Prop where
  set : r.shutdownSet = true
  ingress : ∀ point, r.ingressTask ≠ .running point
  listening : ∀ point, r.listeningTask = .running point → ∃ stream, point = .closing stream ∧ r.SendersCancelled stream
  heartbeat : ∀ point, r.heartbeatTask ≠ .running point

theorem cancel_not_running {α : Type} (task : Task α) (point : α) : task.cancel ≠ .running point := by
  cases task <;> exact nofun

theorem halted_cancelTasks (r : SessionRunner) : r.cancelTasks.Halted where
  set := rfl
  ingress := cancel_not_running r.ingressTask
  listening point h := absurd h (cancel_not_running r.listeningTask point)
  heartbeat := cancel_not_running r.heartbeatTask

/-- The tasks of a halted runner do not depend on its queue and its calls. -/
theorem Halted.congr (h : Halted r) (queue : AudioQueue) (calls : List ShutdownCall) (ended : List String)
    (cleared : Nat) :
    Halted { r with audioQueue := queue, shutdownCalls := calls, ended := ended, cleared := cleared } :=
  ⟨h.set,h.ingress,h.listening,h.heartbeat⟩

theorem halted_ingress {event : IngressEvent} (h : Halted r) (hstep : r.ingressAudio event = some t) :
    (∃ point, r.ingressTask = .cancelling point) ∧ t = { r with ingressTask := .done } := by
  cases htask : r.ingressTask with
  | running point => exact absurd htask (h.ingress point)
  | cancelling point =>
    cases event <;> simp only [ingressAudio,htask] at hstep <;> cases hstep
    exact ⟨⟨point,rfl⟩,rfl⟩
  | absent => simp [ingressAudio,htask] at hstep
  | done => simp [ingressAudio,htask] at hstep

theorem halted_heartbeat {event : HeartbeatEvent} (h : Halted r) (hstep : r.heartbeatLoop event = some t) :
    (∃ point, r.heartbeatTask = .cancelling point) ∧ t = { r with heartbeatTask := .done } := by
  cases htask : r.heartbeatTask with
  | running point => exact absurd htask (h.heartbeat point)
  | cancelling point =>
    cases event <;> simp only [heartbeatLoop,htask] at hstep <;> cases hstep
    exact ⟨⟨point,rfl⟩,rfl⟩
  | absent => simp [heartbeatLoop,htask] at hstep
  | done => simp [heartbeatLoop,htask] at hstep

/-- A cancelled listening task ends, or closes its stream. -/
theorem listening_cancelled {point : ListeningPoint} {event : ListeningEvent}
    (htask : r.listeningTask = .cancelling point) (hstep : r.continuousListening event = some t) :
    t = { r with listeningTask := .done } ∨
      ∃ stream, t = { r with listeningTask := .running (.closing stream) }.cancelSender stream := by
  cases point with
  | opening =>
    cases event <;> simp only [continuousListening,htask] at hstep <;> cases hstep
    exact .inl rfl
  | receiving stream =>
    cases event <;> simp only [continuousListening,htask] at hstep <;> cases hstep
    exact .inr ⟨stream,rfl⟩
  | handling stream =>
    cases event <;> simp only [continuousListening,htask] at hstep <;> cases hstep
    exact .inl rfl
  | closing stream =>
    cases event <;> simp only [continuousListening,htask] at hstep <;> cases hstep
    exact .inr ⟨stream,rfl⟩

theorem halted_listening {event : ListeningEvent} (h : Halted r) (hstep : r.continuousListening event = some t) :
    (∃ point, r.listeningTask = .cancelling point) ∧
      (t = { r with listeningTask := .done } ∨
        ∃ stream, t = { r with listeningTask := .running (.closing stream) }.cancelSender stream) ∨
    (∃ stream, r.listeningTask = .running (.closing stream)) ∧ t = { r with listeningTask := .done } := by
  cases htask : r.listeningTask with
  | running point =>
    obtain ⟨stream,rfl,-⟩ := h.listening point htask
    cases event <;> simp only [continuousListening,htask] at hstep <;> try cases hstep
    obtain ⟨-,hclosed⟩ := Option.ite_none_right_eq_some.mp hstep
    cases hclosed
    refine .inr ⟨⟨stream,rfl⟩,?_⟩
    rw [nextStream,if_pos h.set]
  | cancelling point => exact .inl ⟨⟨point,rfl⟩,listening_cancelled htask hstep⟩
  | absent => simp [continuousListening,htask] at hstep
  | done => simp [continuousListening,htask] at hstep

/-- All that can still happen to a halted runner, apart from further calls of `shutdown`. -/
inductive Move (r : SessionRunner) : SessionRunner → Prop where
  | ingress {point : IngressPoint} (h : r.ingressTask = .cancelling point) : Move r { r with ingressTask := .done }
  | heartbeat {point : HeartbeatPoint} (h : r.heartbeatTask = .cancelling point) :
      Move r { r with heartbeatTask := .done }
  | listening {point : ListeningPoint} (h : r.listeningTask = .cancelling point) :
      Move r { r with listeningTask := .done }
  | closes {point : ListeningPoint} (stream : Nat) (h : r.listeningTask = .cancelling point) :
      Move r ({ r with listeningTask := .running (.closing stream) }.cancelSender stream)
  | closed {stream : Nat} (h : r.listeningTask = .running (.closing stream)) :
      Move r { r with listeningTask := .done }
  | takes {stream : Nat} {item : Option Frame} {queue : AudioQueue} (h : { stream } ∈ r.senders)
      (hqueue : r.audioQueue = item :: queue) : Move r { r with audioQueue := queue }
  | takesLast {stream : Nat} {item : Option Frame} {queue : AudioQueue} (h : { stream } ∈ r.senders)
      (hqueue : r.audioQueue = item :: queue) : Move r ({ r with audioQueue := queue }.endSender stream)
  | senderEnds {stream : Nat} {cancelled : Bool} (h : { stream, cancelled } ∈ r.senders) : Move r (r.endSender stream)
  | senderCancelled {stream : Nat} (h : { stream } ∈ r.senders) : Move r (r.cancelSender stream)
  | puts {call : Nat} {reason : String} (h : r.shutdownCalls[call]? = some (.putting reason)) (hroom : r.HasRoom) :
      Move r { r with
        audioQueue := r.audioQueue ++ [none]
        ended := r.ended ++ [reason]
        shutdownCalls := r.shutdownCalls.set call .ending }
  | returns {call : Nat} (h : r.shutdownCalls[call]? = some .ending) :
      Move r { r with
        shutdownCalls := r.shutdownCalls.set call .returned
        cleared := r.cleared + 1 }

theorem halted_advance {event : RunnerEvent} (h : Halted r) (hstep : r.advance event = some t) : Move r t := by
  cases event with
  | start =>
    obtain ⟨⟨hunset,-⟩,-⟩ := Option.ite_none_right_eq_some.mp hstep
    rw [h.set] at hunset
    cases hunset
  | ingress event =>
    obtain ⟨⟨_,htask⟩,rfl⟩ := halted_ingress h hstep
    exact .ingress htask
  | listening event =>
    rcases halted_listening h hstep with ⟨⟨_,htask⟩,rfl | ⟨stream,rfl⟩⟩ | ⟨⟨_,htask⟩,rfl⟩
    · exact .listening htask
    · exact .closes stream htask
    · exact .closed htask
  | heartbeat event =>
    obtain ⟨⟨_,htask⟩,rfl⟩ := halted_heartbeat h hstep
    exact .heartbeat htask
  | sender stream event =>
    rcases sendAudio_cases hstep with ⟨hmem,_,_,hqueue,rfl | rfl⟩ | ⟨⟨_,hmem⟩,rfl⟩ | ⟨hmem,rfl⟩
    · exact .takes hmem hqueue
    · exact .takesLast hmem hqueue
    · exact .senderEnds hmem
    · exact .senderCancelled hmem
  | shutdown reason => cases hstep
  | putResumes call =>
    obtain ⟨_,hcall,hroom,rfl⟩ := putResumes_eq hstep
    exact .puts hcall hroom
  | endReturns call failed =>
    obtain ⟨hcall,rfl⟩ := endReturns_eq hstep
    exact .returns hcall

theorem advance_eq_step (r : SessionRunner) (event : RunnerEvent) :
    (∃ reason, event = .shutdown reason) ∨ r.advance event = r.step event := by
  cases event with
  | shutdown reason => exact .inl ⟨reason,rfl⟩
  | _ => exact .inr rfl

/-- A further call of `shutdown` returns at once. -/
theorem halted_step {event : RunnerEvent} (h : Halted r) (hstep : r.step event = some t) :
    t = { r with shutdownCalls := r.shutdownCalls ++ [.returned] } ∨ Move r t := by
  rcases advance_eq_step r event with ⟨reason,rfl⟩ | hadvance
  · cases hstep
    exact .inl (shutdown_again h.set reason)
  · rw [← hadvance] at hstep
    exact .inr (halted_advance h hstep)

theorem Move.halted (hmove : Move r t) (h : Halted r) : Halted t := by
  have hcleanup {u : SessionRunner} (hlistening : u.listeningTask = r.listeningTask)
      (hsenders : ∀ stream, r.SendersCancelled stream → u.SendersCancelled stream) :
      ∀ point, u.listeningTask = .running point → ∃ stream, point = .closing stream ∧ u.SendersCancelled stream := by
    intro point hpoint
    obtain ⟨stream,hclosing,hcancelled⟩ := h.listening point (hlistening ▸ hpoint)
    exact ⟨stream,hclosing,hsenders stream hcancelled⟩
  cases hmove with
  | ingress => exact ⟨h.set,nofun,h.listening,h.heartbeat⟩
  | heartbeat => exact ⟨h.set,h.ingress,h.listening,nofun⟩
  | listening | closed => exact ⟨h.set,h.ingress,nofun,h.heartbeat⟩
  | closes stream =>
    refine ⟨h.set,h.ingress,fun point hpoint => ?_,h.heartbeat⟩
    cases hpoint
    exact ⟨stream,rfl,sendersCancelled_cancelSender _ stream⟩
  | takes => exact h.congr _ _ _ _
  | takesLast | senderEnds =>
    exact ⟨h.set,h.ingress,hcleanup rfl fun _ hcancelled => SendersCancelled.endSender hcancelled _,h.heartbeat⟩
  | senderCancelled =>
    exact ⟨h.set,h.ingress,hcleanup rfl fun _ hcancelled => hcancelled.cancelSender _,h.heartbeat⟩
  | puts => exact h.congr _ _ _ _
  | returns => exact h.congr _ _ _ _

end after

section calls
variable {call : ShutdownCall}

/-- The first call of `shutdown` stands at `call`, and the later ones have returned. -/
structure Course (r : SessionRunner) (call : ShutdownCall) : Prop where
  calls : ∃ later, r.shutdownCalls = call :: later ∧ ∀ c ∈ later, c = .returned
  ended : r.ended.length = call.endings
  cleared : r.cleared = call.clearings

theorem Course.at (h : Course r call) {i : Nat} {c : ShutdownCall} (hi : r.shutdownCalls[i]? = some c)
    (hc : c ≠ .returned) : i = 0 ∧ call = c := by
  obtain ⟨later,hcalls,hlater⟩ := h.calls
  rw [hcalls] at hi
  cases i with
  | zero => exact ⟨rfl,Option.some.inj hi⟩
  | succ i => exact absurd (hlater c (List.mem_of_getElem? hi)) hc

theorem Course.again (h : Course r call) :
    Course { r with shutdownCalls := r.shutdownCalls ++ [.returned] } call := by
  obtain ⟨later,hcalls,hlater⟩ := h.calls
  refine ⟨⟨later ++ [.returned],?_,?_⟩,h.ended,h.cleared⟩
  · rw [hcalls,List.cons_append]
  · intro c hc
    rcases List.mem_append.mp hc with hc | hc
    · exact hlater c hc
    · exact List.mem_singleton.mp hc

/-- A call that waits at the put is the first one. -/
theorem Course.waiting (h : Course r call) (hmem : .putting reason ∈ r.shutdownCalls) : call = .putting reason := by
  obtain ⟨i,hi⟩ := List.mem_iff_getElem?.mp hmem
  exact (h.at hi nofun).2

/-- The first call goes on, or stays where it is and the queue does not grow. -/
theorem Move.course (hmove : Move r t) (h : Course r call) :
    (Course t call ∧ t.audioQueue.length ≤ r.audioQueue.length) ∨
    ((∃ reason, call = .putting reason) ∧ r.HasRoom ∧ Course t .ending) ∨
    (call = .ending ∧ Course t .returned) := by
  cases hmove with
  | puts hcall hroom =>
    obtain ⟨rfl,rfl⟩ := h.at hcall nofun
    obtain ⟨later,hcalls,hlater⟩ := h.calls
    refine .inr (.inl ⟨⟨_,rfl⟩,hroom,⟨later,?_,hlater⟩,?_,h.cleared⟩)
    · simp only [hcalls,List.set_cons_zero]
    · simp only [List.length_append,h.ended,ShutdownCall.endings,List.length_singleton]
  | returns hcall =>
    obtain ⟨rfl,rfl⟩ := h.at hcall nofun
    obtain ⟨later,hcalls,hlater⟩ := h.calls
    refine .inr (.inr ⟨rfl,⟨later,?_,hlater⟩,h.ended,?_⟩)
    · simp only [hcalls,List.set_cons_zero]
    · simp only [h.cleared,ShutdownCall.clearings]
  | takes _ hqueue | takesLast _ hqueue =>
    refine .inl ⟨⟨h.calls,h.ended,h.cleared⟩,?_⟩
    rw [hqueue,List.length_cons]
    exact Nat.le_succ _
  | ingress | heartbeat | listening | closes | closed | senderEnds | senderCancelled =>
    exact .inl ⟨⟨h.calls,h.ended,h.cleared⟩,Nat.le_refl _⟩

end calls

end VoxForge.Livekit.SessionRunner
