import Mathlib.Algebra.GroupWithZero.Nat
import Mathlib.Algebra.Order.BigOperators.Group.List
import Mathlib.Algebra.Order.Group.Nat
import VoxForge.Livekit.HaltedRunner

/-! `shutdown` cancels every task that leads to a consumer of the audio queue and then puts the
end sentinel. Where the queue has room, the session is ended and its history cleared, whatever
the tasks do; where it is full, some schedule leaves the put waiting for good. -/
namespace VoxForge.Livekit.SessionRunner
open Foundation

variable {r t : SessionRunner} {reason : String}

section progress

/-- The shutdown is under way, and does not wait for room in the queue. -/
structure Unblocked (r : SessionRunner) : Prop where
  halted : r.Halted
  course : ∃ call, r.Course call ∧ ((∃ reason, call = .putting reason) → r.HasRoom)

theorem Move.unblocked (hmove : Move r t) (h : Unblocked r) : Unblocked t := by
  obtain ⟨call,hcourse,hroom⟩ := h.course
  refine ⟨hmove.halted h.halted,?_⟩
  rcases hmove.course hcourse with ⟨hsame,hqueue⟩ | ⟨-,-,hending⟩ | ⟨-,hreturned⟩
  · exact ⟨call,hsame,fun hputting => Nat.lt_of_le_of_lt hqueue (hroom hputting)⟩
  · exact ⟨.ending,hending,nofun⟩
  · exact ⟨.returned,hreturned,nofun⟩

theorem Unblocked.after_step {event : RunnerEvent} (h : Unblocked r) (hstep : r.step event = some t) : Unblocked t := by
  rcases halted_step h.halted hstep with rfl | hmove
  · obtain ⟨call,hcourse,hroom⟩ := h.course
    exact ⟨h.halted.congr _ _ _ _,call,hcourse.again,hroom⟩
  · exact hmove.unblocked h

theorem unblocked_advance {event : RunnerEvent} (h : Unblocked r) (hstep : r.advance event = some t) : Unblocked t :=
  (halted_advance h.halted hstep).unblocked h

/-- A shutdown that does not wait for room has a step of its own to take. -/
theorem Unblocked.left (h : Unblocked r) (hopen : ¬ Closed r) : ∃ event t, r.advance event = some t := by
  obtain ⟨call,hcourse,hroom⟩ := h.course
  obtain ⟨later,hcalls,-⟩ := hcourse.calls
  have hfirst : r.shutdownCalls[0]? = some call := by rw [hcalls,List.getElem?_cons_zero]
  cases call with
  | putting reason =>
    have hput := putSentinel_of_room (hroom ⟨reason,rfl⟩) reason
    have hresumes : ∃ t, r.putResumes 0 = some t := by
      simp only [putResumes,hfirst,hput,Option.map_some,Option.some.injEq,exists_eq']
    obtain ⟨t,ht⟩ := hresumes
    exact ⟨.putResumes 0,t,ht⟩
  | ending => exact ⟨.endReturns 0 false,_,if_pos hfirst⟩
  | returned => exact absurd ⟨hcourse.ended,hcourse.cleared⟩ hopen

end progress

section work

def taskWork {α : Type} : Task α → Nat
  | .absent | .done => 0
  | .running _ => 1
  | .cancelling _ => 2

def senderWork (s : Sender) : Nat := if s.cancelled then 1 else 2

def callWork : ShutdownCall → Nat
  | .putting _ => 3
  | .ending => 1
  | .returned => 0

/-- What there is left to do, once the tasks are cancelled. -/
def work (r : SessionRunner) : Nat :=
  r.audioQueue.length + taskWork r.ingressTask + taskWork r.listeningTask + taskWork r.heartbeatTask +
    (r.senders.map senderWork).sum + (r.shutdownCalls.map callWork).sum

theorem senderWork_pos (s : Sender) : 0 < senderWork s := by
  unfold senderWork
  split <;> decide

theorem sum_filter_map {α : Type} (p : α → Bool) (f : α → Nat) (l : List α) :
    ((l.filter p).map f).sum = (l.map fun a => if p a then f a else 0).sum := by
  induction l with
  | nil => rfl
  | cons a l ih => cases hp : p a <;> simp [hp,ih]

theorem work_endSender {stream : Nat} {cancelled : Bool} (h : { stream, cancelled } ∈ r.senders) :
    ((r.endSender stream).senders.map senderWork).sum < (r.senders.map senderWork).sum := by
  unfold endSender
  rw [sum_filter_map]
  refine List.sum_lt_sum _ _ (fun s _ => ?_) ⟨_,h,?_⟩
  · split
    · exact Nat.le_refl _
    · exact Nat.zero_le _
  · simpa using senderWork_pos _

theorem senderWork_cancel_le (s : Sender) (stream : Nat) :
    senderWork { s with cancelled := s.cancelled || s.stream = stream } ≤ senderWork s := by
  cases hs : s.cancelled <;> simp only [senderWork,hs,Bool.true_or] <;> split <;> decide

theorem work_cancelSender_le (r : SessionRunner) (stream : Nat) :
    ((r.cancelSender stream).senders.map senderWork).sum ≤ (r.senders.map senderWork).sum := by
  unfold cancelSender
  rw [List.map_map]
  exact List.sum_le_sum fun s _ => senderWork_cancel_le s stream

theorem work_cancelSender {stream : Nat} (h : { stream } ∈ r.senders) :
    ((r.cancelSender stream).senders.map senderWork).sum < (r.senders.map senderWork).sum := by
  unfold cancelSender
  rw [List.map_map]
  refine List.sum_lt_sum _ _ (fun s _ => senderWork_cancel_le s stream) ⟨_,h,?_⟩
  simp [senderWork]

theorem callWork_set {calls : List ShutdownCall} {call : Nat} {before : ShutdownCall} (after : ShutdownCall)
    (h : calls[call]? = some before) :
    ((calls.set call after).map callWork).sum + callWork before = (calls.map callWork).sum + callWork after := by
  induction calls generalizing call with
  | nil => cases h
  | cons c calls ih =>
    cases call with
    | zero =>
      obtain rfl := Option.some.inj h
      simp only [List.set_cons_zero,List.map_cons,List.sum_cons]
      omega
    | succ call =>
      have hrest := ih (List.getElem?_cons_succ ▸ h)
      simp only [List.set_cons_succ,List.map_cons,List.sum_cons]
      omega

theorem Move.work (hmove : Move r t) : t.work < r.work := by
  cases hmove with
  | ingress h | heartbeat h | listening h | closed h =>
    simp only [SessionRunner.work,h,taskWork]
    omega
  | closes stream h =>
    have hsenders := work_cancelSender_le r stream
    simp only [SessionRunner.work,h,taskWork,cancelSender] at hsenders ⊢
    omega
  | takes _ hqueue =>
    simp only [SessionRunner.work,hqueue,List.length_cons]
    omega
  | takesLast h hqueue =>
    have hsenders := work_endSender h
    simp only [SessionRunner.work,hqueue,List.length_cons,endSender] at hsenders ⊢
    omega
  | senderEnds h =>
    have hsenders := work_endSender h
    simp only [SessionRunner.work,endSender] at hsenders ⊢
    omega
  | senderCancelled h =>
    have hsenders := work_cancelSender h
    simp only [SessionRunner.work,cancelSender] at hsenders ⊢
    omega
  | puts h _ =>
    have hcalls := callWork_set .ending h
    simp only [SessionRunner.work,callWork,List.length_append,List.length_singleton] at hcalls ⊢
    omega
  | returns h =>
    have hcalls := callWork_set .returned h
    simp only [SessionRunner.work,callWork] at hcalls ⊢
    omega

end work

/-- Once the put is past, or can go on, the session is ended and cleared on every schedule. -/
theorem Unblocked.lawful (h : Unblocked r) : Lawful r where
  free := by
    rintro ⟨⟨reason,hwaiting⟩,hfull,-⟩
    obtain ⟨call,hcourse,hroom⟩ := h.course
    exact hfull (hroom ⟨reason,hcourse.waiting hwaiting⟩)
  once := by
    obtain ⟨call,hcourse,-⟩ := h.course
    rw [hcourse.ended]
    cases call <;> simp [ShutdownCall.endings]
  reached := inevitable_of_decreasing work (fun _ _ _ ha hstep => unblocked_advance ha hstep)
    (fun _ ha hopen => ha.left hopen) (fun _ _ _ ha hstep => (halted_advance ha.halted hstep).work) h

section stuck

/-- The put waits for room. -/
structure Waiting (r : SessionRunner) : Prop where
  halted : r.Halted
  course : ∃ reason, r.Course (.putting reason)
  full : ¬ r.HasRoom

/-- Whoever took from the queue has been cancelled, too. -/
structure Stuck (r : SessionRunner) : Prop extends Waiting r where
  senders : ∀ s ∈ r.senders, s.cancelled = true

theorem Move.waiting (hmove : Move r t) (h : Waiting r) (hqueue : t.audioQueue = r.audioQueue) : Waiting t := by
  obtain ⟨reason,hcourse⟩ := h.course
  have hfull : ¬ t.HasRoom := by
    rw [HasRoom,hqueue]
    exact h.full
  rcases hmove.course hcourse with ⟨hsame,-⟩ | ⟨-,hroom,-⟩ | ⟨hending,-⟩
  · exact ⟨hmove.halted h.halted,⟨reason,hsame⟩,hfull⟩
  · exact absurd hroom h.full
  · cases hending

theorem Stuck.no_sender (h : Stuck r) (stream : Nat) : { stream } ∉ r.senders := by
  intro hmem
  cases h.senders _ hmem

theorem Move.stuck (hmove : Move r t) (h : Stuck r) : Stuck t := by
  have hwaiting (hqueue : t.audioQueue = r.audioQueue) : Waiting t := hmove.waiting h.toWaiting hqueue
  cases hmove with
  | ingress | heartbeat | listening | closed => exact ⟨hwaiting rfl,h.senders⟩
  | closes stream =>
    refine ⟨hwaiting rfl,fun s hs => ?_⟩
    obtain ⟨before,hbefore,rfl⟩ := List.mem_map.mp hs
    simp only [h.senders before hbefore,Bool.true_or]
  | takes hmem | takesLast hmem | senderCancelled hmem => exact absurd hmem (h.no_sender _)
  | senderEnds => exact ⟨hwaiting rfl,fun s hs => h.senders s (List.mem_of_mem_filter hs)⟩
  | puts _ hroom => exact absurd hroom h.full
  | returns hcall =>
    obtain ⟨_,hcourse⟩ := h.course
    cases (hcourse.at hcall nofun).2

theorem Stuck.after_step {event : RunnerEvent} (h : Stuck r) (hstep : r.step event = some t) : Stuck t := by
  rcases halted_step h.halted hstep with rfl | hmove
  · obtain ⟨reason,hcourse⟩ := h.course
    exact ⟨⟨h.halted.congr _ _ _ _,⟨reason,hcourse.again⟩,h.full⟩,h.senders⟩
  · exact hmove.stuck h

theorem Stuck.stays {schedule : List RunnerEvent} (h : Stuck r) (hrun : run step r schedule = some t) : Stuck t :=
  (Visits.of_run hrun).invariant h fun _ _ _ ha hstep => ha.after_step hstep

theorem Stuck.waits (h : Stuck r) : r.WaitsForCancelled := by
  obtain ⟨reason,hcourse⟩ := h.course
  obtain ⟨later,hcalls,-⟩ := hcourse.calls
  refine ⟨⟨reason,?_⟩,h.full,fun schedule t hrun hroom => absurd hroom (h.stays hrun).full⟩
  rw [hcalls]
  exact List.mem_cons_self

/-- The session of a stuck runner is not ended on any schedule. -/
theorem Stuck.never_ended {schedule : List RunnerEvent} (h : Stuck r)
    (hrun : run step r schedule = some t) : t.ended = [] ∧ t.cleared = 0 := by
  obtain ⟨reason,hcourse⟩ := (h.stays hrun).course
  exact ⟨List.length_eq_zero_iff.mp hcourse.ended,hcourse.cleared⟩

/-- The listening task hears of its cancellation, and leaves its stream or closes it. -/
theorem Waiting.leaves (h : Waiting r) :
    ∃ schedule t, run step r schedule = some t ∧ Waiting t ∧
      ∀ stream, t.stream? = some stream → t.SendersCancelled stream := by
  cases htask : r.listeningTask with
  | running point =>
    obtain ⟨closing,rfl,hcancelled⟩ := h.halted.listening point htask
    refine ⟨[],r,rfl,h,fun stream hstream => ?_⟩
    rw [stream?,htask] at hstream
    cases hstream
    exact hcancelled
  | cancelling point =>
    have henabled : ∃ t, r.continuousListening .cancelled = some t := by
      cases point <;> simp [continuousListening,htask]
    obtain ⟨t,ht⟩ := henabled
    refine ⟨[.listening .cancelled],t,by rw [run_cons]; exact Option.bind_eq_some_iff.mpr ⟨t,ht,rfl⟩,?_⟩
    rcases listening_cancelled htask ht with rfl | ⟨closing,rfl⟩
    · refine ⟨(Move.listening htask).waiting h rfl,fun stream hstream => ?_⟩
      cases hstream
    · refine ⟨(Move.closes closing htask).waiting h rfl,fun stream hstream => ?_⟩
      cases hstream
      exact sendersCancelled_cancelSender _ _
  | absent | done =>
    refine ⟨[],r,rfl,h,fun stream hstream => ?_⟩
    rw [stream?,htask] at hstream
    cases hstream

/-- The streams that nobody iterates are closed before their send tasks have taken a frame. -/
theorem Waiting.stuck (h : Waiting r) (hstream : ∀ stream, r.stream? = some stream → r.SendersCancelled stream) :
    ∃ schedule t, run step r schedule = some t ∧ Stuck t := by
  induction hn : (r.senders.map senderWork).sum using Nat.strong_induction_on generalizing r with
  | _ n ih =>
    by_cases hall : ∀ s ∈ r.senders, s.cancelled = true
    · exact ⟨[],r,rfl,h,hall⟩
    · push Not at hall
      obtain ⟨⟨stream,cancelled⟩,hmem,hlive⟩ := hall
      obtain rfl : cancelled = false := Bool.eq_false_iff.mpr hlive
      have hdropped : r.stream? ≠ some stream := fun hsame => hlive (hstream stream hsame _ hmem rfl)
      have hstep : r.step (.sender stream .finalized) = some (r.cancelSender stream) := if_pos ⟨hmem,hdropped⟩
      have hless : ((r.cancelSender stream).senders.map senderWork).sum < n := hn ▸ work_cancelSender hmem
      obtain ⟨schedule,t,hrun,hstuck⟩ := ih _ hless ((Move.senderCancelled hmem).waiting h rfl)
        (fun other hother => (hstream other hother).cancelSender stream) rfl
      refine ⟨.sender stream .finalized :: schedule,t,?_,hstuck⟩
      rw [run_cons,hstep]
      exact hrun

end stuck

section outset
variable {before : List RunnerEvent}

theorem course_first (hrun : run step {} before = some r) (hunset : r.shutdownSet = false)
    {call : ShutdownCall} (hcalls : t.shutdownCalls = r.shutdownCalls ++ [call])
    (hended : t.ended.length = r.ended.length + call.endings) (hcleared : t.cleared = r.cleared + call.clearings) :
    Course t call := by
  obtain ⟨hnone,hopen,hkept⟩ := untouched_run hrun hunset
  refine ⟨⟨[],?_,nofun⟩,?_,?_⟩
  · rw [hcalls,hnone,List.nil_append]
  · rw [hended,hopen,List.length_nil,Nat.zero_add]
  · rw [hcleared,hkept,Nat.zero_add]

theorem unblocked_shutdown (hrun : run step {} before = some r) (hunset : r.shutdownSet = false)
    (hroom : r.HasRoom) (reason : String) : Unblocked (r.shutdown reason) := by
  rw [shutdown_of_room hunset hroom]
  refine ⟨(halted_cancelTasks r).congr _ _ _ _,.ending,?_,nofun⟩
  apply course_first hrun hunset rfl
  · exact List.length_append
  · rfl

theorem waiting_shutdown (hrun : run step {} before = some r) (hunset : r.shutdownSet = false)
    (hfull : ¬ r.HasRoom) (reason : String) : Waiting (r.shutdown reason) := by
  rw [shutdown_of_full hunset hfull]
  refine ⟨(halted_cancelTasks r).congr _ _ _ _,⟨reason,?_⟩,hfull⟩
  exact course_first hrun hunset rfl rfl rfl

theorem run_shutdown {schedule : List RunnerEvent} :
    run step r (.shutdown reason :: schedule) = run step (r.shutdown reason) schedule := rfl

/-- Whatever the runner did before, its shutdown ends the session once on every schedule exactly
if the audio queue has room for the sentinel when `shutdown` is called. -/
theorem shutdown_ends_session_iff (before : List RunnerEvent) (r : SessionRunner) (reason : String)
    (hrun : run step {} before = some r) (hunset : r.shutdownSet = false) :
    (∀ schedule t, run step r (.shutdown reason :: schedule) = some t → Lawful t) ↔
      r.audioQueue.length < audioQueueMaxsize := by
  constructor
  · intro hlawful
    by_contra hfull
    obtain ⟨leaving,u,hleaving,hwaiting,hstream⟩ := (waiting_shutdown hrun hunset hfull reason).leaves
    obtain ⟨closing,t,hclosing,hstuck⟩ := hwaiting.stuck hstream
    have hschedule : run step r (.shutdown reason :: (leaving ++ closing)) = some t := by
      rw [run_shutdown,run_append,hleaving]
      exact hclosing
    exact (hlawful _ t hschedule).free hstuck.waits
  · intro hroom schedule t hschedule
    rw [run_shutdown] at hschedule
    have hunblocked : Unblocked t := (Visits.of_run hschedule).invariant
      (unblocked_shutdown hrun hunset hroom reason) fun _ _ _ ha hstep => ha.after_step hstep
    exact hunblocked.lawful

end outset

/-- Frames that come in while the provider still connects. -/
def flood (pcm : Frame) : Nat → List RunnerEvent
  | 0 => [.start]
  | n + 1 => flood pcm n ++ [.ingress (.frame pcm),.ingress .phaseChecked]

def connecting (queue : AudioQueue) : SessionRunner where
  audioQueue := queue
  ingressTask := .running .awaitingFrame
  listeningTask := .running .opening
  heartbeatTask := .running .sleeping

/-- A shutdown may find any number of frames in the queue, up to its size. -/
theorem run_flood {pcm : Frame} (hpcm : pcm.isEmpty = false) {n : Nat} (hn : n ≤ audioQueueMaxsize) :
    run step {} (flood pcm n) = some (connecting (List.replicate n (some pcm))) := by
  induction n with
  | zero => rfl
  | succ n ih =>
    have hframe : (connecting (List.replicate n (some pcm))).step (.ingress (.frame pcm)) =
        some { connecting (List.replicate n (some pcm)) with ingressTask := .running (.checkingPhase pcm) } := by
      simp [step,ingressAudio,connecting,hpcm]
    have hroom : (List.replicate n (some pcm)).length < audioQueueMaxsize := by
      rw [List.length_replicate]
      exact hn
    have hput : ingressPut (List.replicate n (some pcm)) pcm = List.replicate (n + 1) (some pcm) := by
      rw [ingressPut,putNowait,if_pos hroom,List.replicate_succ']
    rw [flood,run_append,ih (Nat.le_of_succ_le hn),Option.bind_some,run_cons,hframe,Option.bind_some,← hput]
    rfl

/-- The session of a call whose queue is full is not ended on any schedule. -/
theorem flooded_shutdown_waits :
    ∃ r, run step {} (flood [1] 256) = some r ∧ r.shutdownSet = false ∧
      ¬ (∀ schedule t, run step r (.shutdown "worker_exit" :: schedule) = some t → Lawful t) ∧
      ∀ schedule t, run step r (.shutdown "worker_exit" :: schedule) = some t → t.ended = [] ∧ t.cleared = 0 := by
  have hrun : run step {} (flood [1] 256) = some (connecting (List.replicate 256 (some [1]))) :=
    run_flood rfl (Nat.le_refl _)
  have hfull : ¬ (connecting (List.replicate 256 (some [1]))).HasRoom := by
    rw [HasRoom,connecting,List.length_replicate]
    decide
  have hstuck : Stuck ((connecting (List.replicate 256 (some [1]))).shutdown "worker_exit") := by
    refine ⟨waiting_shutdown hrun rfl hfull _,?_⟩
    rw [shutdown_of_full rfl hfull]
    exact nofun
  refine ⟨_,hrun,rfl,fun hlawful => ?_,fun schedule t hschedule => ?_⟩
  · exact (hlawful [] _ rfl).free hstuck.waits
  · rw [run_shutdown] at hschedule
    exact hstuck.never_ended hschedule

/-- One frame in the queue leaves room for the sentinel. -/
theorem one_frame_shutdown_ends : (connecting [some [1]]).HasRoom ∧
    ∀ schedule t, run step (connecting [some [1]]) (.shutdown "worker_exit" :: schedule) = some t → Lawful t := by
  have hroom : (connecting [some [1]]).HasRoom := by
    rw [HasRoom]
    decide
  exact ⟨hroom,(shutdown_ends_session_iff (flood [1] 1) (connecting [some [1]]) "worker_exit" rfl rfl).mpr hroom⟩

end VoxForge.Livekit.SessionRunner
