import VoxForge.Gateway.VoiceSocket

/-! What the voice socket is for: it follows one live session from a successful
start to its end, queues the audio sent meanwhile and ends the session when the
connection closes. The loop is compared with this account after every frame. -/
namespace VoxForge.Gateway
open Foundation

/-- What a control message does to the session, read off the service answers alone. -/
inductive Outcome where
  | started (session : SessionId)
  | ended
  /-- Handled without starting or ending a session. -/
  | passed
  /-- An exception leaves the handler. -/
  | crashed
  deriving DecidableEq, Repr

def startOutcome (calls : Calls) (msg : ControlMessage) : Outcome :=
  if calls.resolveWsPrincipal.isOk ∧ calls.enforceAuthenticatedLimits.isOk then
    match startSession calls msg (msg.sessionId.getD "") with
    | .error () => .crashed
    | .ok none => .passed
    | .ok (some session) =>
      if (calls.activateSession session).isOk ∧ (calls.bootstrap session).isOk
      then .started session else .crashed
  else .passed

private def serve (call : SessionId → Except SessionFault Unit) (success : Outcome) :
    Option SessionId → Outcome
  | none => .passed
  | some session => if (call session).isOk then success else .crashed

def outcome (calls : Calls) (live : Option SessionId) : ControlText → Outcome
  | .invalidJson => .passed
  | .notAnObject => .crashed
  | .object msg =>
    if msg.type = some "start" then startOutcome calls msg
    else if msg.type = some "interrupt" then serve calls.interrupt .passed live
    else if msg.type = some "end" then serve calls.endSession .ended live
    else if msg.type = some "ping" then serve calls.recordHeartbeat .passed live
    else .passed

/-- The session that the frames received so far leave live, and the audio sent to it. -/
structure Account where
  live : Option SessionId := none
  audio : List Frame := []
  deriving DecidableEq, Repr

def Account.observe (account : Account) : Label → Account
  | .text raw calls => match outcome calls account.live raw with
    | .started session => { account with live := some session }
    | .ended => { account with live := none }
    | .passed | .crashed => account
  | .bytes frame =>
    if account.live = none then account else { account with audio := account.audio ++ [frame] }
  | .consume | .disconnect _ => account

/-- The loop together with the account of what it received. -/
def observedStep (s : Conn × Account) (label : Label) : Option (Conn × Account) :=
  (step s.1 label).map fun conn => (conn,s.2.observe label)

def fresh : Conn × Account := ({},{})

/-- The loop agrees with the account: its session id, the frames it queued and,
once closed, the session that the cleanup ended. -/
structure Tracks (s : Conn × Account) : Prop where
  session : s.1.sessionId = s.2.live
  audio : s.1.enqueued = s.2.audio
  cleanup : s.1.closed → s.1.cleanup = s.2.live.toList.map (·,"disconnect")

/-- A text frame that arrives while a session is live and neither starts nor
ends one: an interrupt, a ping, an unknown type, invalid JSON or a rejected start. -/
def Stray (account : Account) : Label → Prop
  | .text raw calls => account.live ≠ none ∧ outcome calls account.live raw = .passed
  | _ => False

@[simp] theorem mergeSessionId_missing (result : Result) (sessionId : Option SessionId)
    (h : result.sessionId = none) : mergeSessionId result sessionId = none := by
  simp [mergeSessionId,h]

@[simp] theorem mergeSessionId_present (result : Result) (sessionId value : Option SessionId)
    (h : result.sessionId = some value) : mergeSessionId result sessionId = value := by
  cases value <;> simp [mergeSessionId,h]

/-- The `session_id` entry of the returned dictionary for each outcome. -/
def Outcome.entry : Outcome → Option (Option SessionId)
  | .started session => some (some session)
  | .ended => some none
  | .passed | .crashed => none

/-- A handler answers as the outcome says: it raises exactly on a crash, and
otherwise its dictionary holds the outcome's entry. -/
def Answers (answer : Except Unit Result) (o : Outcome) : Prop :=
  if o = .crashed then answer = .error ()
  else ∃ result, answer = .ok result ∧ result.sessionId = o.entry

private theorem start_answers (calls : Calls) (msg : ControlMessage) (conn : Conn) :
    Answers (handleStart calls msg conn) (startOutcome calls msg) := by
  unfold handleStart startOutcome
  cases hp : calls.resolveWsPrincipal with
  | error e => simp [Answers,Except.isOk,Except.toBool,Outcome.entry]
  | ok u =>
    cases hl : calls.enforceAuthenticatedLimits with
    | error e => simp [Answers,Except.isOk,Except.toBool,Outcome.entry]
    | ok v =>
      simp only [Except.isOk,Except.toBool,and_self,ite_true]
      cases hs : startSession calls msg (msg.sessionId.getD "") with
      | error e => simp [Answers]
      | ok found =>
        cases found with
        | none => simp [Answers,Outcome.entry]
        | some session =>
          cases ha : calls.activateSession session with
          | error e => simp [Answers,ha]
          | ok w => cases hb : calls.bootstrap session <;> simp [Answers,Outcome.entry,ha,hb]

private theorem serve_answers (call : SessionId → Except SessionFault Unit) (o : Outcome)
    (ho : o ≠ .crashed) (live : Option SessionId) (idle : Result) (busy : SessionId → Result)
    (hidle : idle.sessionId = none) (hbusy : ∀ s, (busy s).sessionId = o.entry) :
    Answers (match live with
      | none => .ok idle
      | some s => match call s with
        | .error _ => .error ()
        | .ok () => .ok (busy s)) (serve call o live) := by
  cases live with
  | none => simp [Answers,serve,Outcome.entry,hidle]
  | some s => cases hc : call s <;> simp [Answers,serve,Except.isOk,Except.toBool,hc,ho,hbusy]

/-- The handler's dictionary carries exactly the outcome of the message. -/
theorem handleControlMessage_answers (calls : Calls) (raw : ControlText) (conn : Conn) :
    Answers (handleControlMessage calls raw conn) (outcome calls conn.sessionId raw) := by
  cases raw with
  | invalidJson => simp [Answers,handleControlMessage,outcome,Outcome.entry]
  | notAnObject => simp [Answers,handleControlMessage,outcome]
  | object msg =>
    unfold handleControlMessage outcome
    dsimp only
    split_ifs
    · exact start_answers calls msg conn
    · exact serve_answers calls.interrupt .passed (by decide) conn.sessionId
        { audioQueue := conn.audioQueue }
        (fun _ => { audioQueue := conn.audioQueue, replies := [.interrupted] }) rfl (fun _ => rfl)
    · exact serve_answers calls.endSession .ended (by decide) conn.sessionId _ _ rfl (fun _ => rfl)
    · exact serve_answers calls.recordHeartbeat .passed (by decide) conn.sessionId
        { audioQueue := conn.audioQueue, replies := [.pong] }
        (fun _ => { audioQueue := conn.audioQueue, replies := [.pong] }) rfl (fun _ => rfl)
    · simp [Answers,Outcome.entry]

/-- One control message of a live loop, by outcome. -/
theorem text_step {conn next : Conn} {raw : ControlText} {calls : Calls}
    (h : step conn (.text raw calls) = some next) :
    conn.closed = false ∧ next.enqueued = conn.enqueued ∧
      ((outcome calls conn.sessionId raw = .crashed ∧ next.closed = true ∧
          next.sessionId = conn.sessionId ∧
          next.cleanup = conn.sessionId.toList.map (·,"disconnect")) ∨
        (outcome calls conn.sessionId raw ≠ .crashed ∧ next.closed = false ∧
          next.sessionId = (outcome calls conn.sessionId raw).entry.join)) := by
  have ha := handleControlMessage_answers calls raw conn
  simp only [step] at h
  split_ifs at h with hc
  have hc : conn.closed = false := by simpa using hc
  unfold Answers at ha
  split_ifs at ha with ho
  · rw [ha] at h
    cases h
    refine ⟨hc,rfl,Or.inl ⟨ho,rfl,rfl,?_⟩⟩
    cases hs : conn.sessionId <;> simp [fail,close,hs]
  · obtain ⟨result,hr,he⟩ := ha
    rw [hr] at h
    cases h
    refine ⟨hc,rfl,Or.inr ⟨ho,hc,?_⟩⟩
    rw [← he]
    cases hm : result.sessionId <;> simp [merge,hm]

private theorem text_tracks {s t : Conn × Account} {raw : ControlText} {calls : Calls}
    (hs : Tracks s) (h : observedStep s (.text raw calls) = some t) :
    Tracks t ↔ ¬ Stray s.2 (.text raw calls) := by
  obtain ⟨next,hn,rfl⟩ := Option.map_eq_some_iff.mp h
  obtain ⟨_,he,hcase⟩ := text_step hn
  rw [hs.session] at hcase
  rcases hcase with ⟨ho,_,hi,hcl⟩ | ⟨ho,hopen,hi⟩
  · -- The loop ends with the session it had, which the cleanup then ends.
    refine iff_of_true ⟨?_,?_,fun _ => ?_⟩ (by simp [Stray,ho])
    · simpa [Account.observe,ho] using hi
    · simpa [Account.observe,ho] using he.trans hs.audio
    · simpa [Account.observe,ho] using hcl
  · cases hout : outcome calls s.2.live raw with
    | crashed => exact absurd hout ho
    | started session =>
      refine iff_of_true ⟨?_,?_,?_⟩ (by simp [Stray,hout])
      · simpa [Account.observe,hout,Outcome.entry] using hi
      · simpa [Account.observe,hout] using he.trans hs.audio
      · simp [hopen]
    | ended =>
      refine iff_of_true ⟨?_,?_,?_⟩ (by simp [Stray,hout])
      · simpa [Account.observe,hout,Outcome.entry] using hi
      · simpa [Account.observe,hout] using he.trans hs.audio
      · simp [hopen]
    | passed =>
      -- The second test of the loop clears the id; nothing is lost only if there was none.
      have hnone : next.sessionId = none := by simpa [hout,Outcome.entry] using hi
      have hobs : s.2.observe (.text raw calls) = s.2 := by simp [Account.observe,hout]
      constructor
      · intro ht hstray
        exact hstray.1 (by simpa [hobs,hnone] using ht.session.symm)
      · intro hstray
        have hlive : s.2.live = none := by
          by_contra hl
          exact hstray ⟨hl,hout⟩
        exact ⟨by rw [hobs,hnone,hlive],by rw [hobs]; exact he.trans hs.audio,by simp [hopen]⟩

private theorem other_tracks {s t : Conn × Account} {label : Label}
    (hl : ∀ raw calls, label ≠ .text raw calls) (hs : Tracks s)
    (h : observedStep s label = some t) : Tracks t := by
  obtain ⟨next,hn,rfl⟩ := Option.map_eq_some_iff.mp h
  cases label with
  | text raw calls => exact absurd rfl (hl raw calls)
  | consume =>
    obtain ⟨item,_,rfl⟩ := Option.map_eq_some_iff.mp hn
    exact ⟨hs.session,hs.audio,hs.cleanup⟩
  | disconnect calls =>
    simp only [step] at hn
    split_ifs at hn
    cases hn
    refine ⟨hs.session,hs.audio,fun _ => ?_⟩
    rw [show (s.2.observe (.disconnect calls)).live = s.1.sessionId from hs.session.symm]
    cases hi : s.1.sessionId <;> simp [close,hi]
  | bytes frame =>
    simp only [step] at hn
    split_ifs at hn with hc hnone
    · cases hn
      have hobs : s.2.observe (.bytes frame) = s.2 := by
        simp [Account.observe,← hs.session,hnone]
      rw [hobs]
      exact hs
    · cases hn
      have hlive : s.2.live ≠ none := by rwa [← hs.session]
      refine ⟨?_,?_,fun hclosed => absurd hclosed hc⟩
      · simpa [Account.observe,hlive] using hs.session
      · simp [Account.observe,hlive,hs.audio]

/-- In every sequence of frames the loop follows the live session, queues the
audio sent to it and ends it on close, exactly if no text frame that neither
starts nor ends a session arrives while one is live. -/
theorem session_tracking_iff (labels : List Label) :
    (∀ s, Visits observedStep fresh labels s → Tracks s) ↔
      (∀ s label t, Fires observedStep fresh labels s label t → ¬ Stray s.2 label) := by
  refine visits_good_iff (I := fun _ => True) trivial ⟨rfl,rfl,by simp [fresh]⟩
    (fun _ _ _ _ _ => trivial) fun s label t _ hs h => ?_
  cases label with
  | text raw calls => exact text_tracks hs h
  | bytes | consume | disconnect => exact iff_of_true (other_tracks (by simp) hs h) (by simp [Stray])

/-- Every service call succeeds and a created session gets the given id. -/
def willing (session : SessionId) : Calls where
  resolveWsPrincipal := .ok ()
  enforceAuthenticatedLimits := .ok ()
  uuid _ := some session
  resumeSession id _ := .ok id
  createSession := .ok session
  activateSession _ := .ok ()
  bootstrap _ := .ok ()
  interrupt _ := .ok ()
  endSession _ := .ok ()
  recordHeartbeat _ := .ok ()
  newListeningTask := 1
  newHeartbeatTask := 2
  done _ := false

/-- A start, a ping, one audio frame and the disconnect of the client. -/
def pingedCall : List Label :=
  [.text (.object ⟨some "start",none,0⟩) (willing 7),
    .text (.object ⟨some "ping",none,0⟩) (willing 7),
    .bytes [0,0], .disconnect (willing 7)]

/-- A single ping makes the loop drop the audio that follows, and the
disconnect then ends no session. -/
theorem pinged_call_loses_session :
    ¬ (∀ s, Visits observedStep fresh pingedCall s → Tracks s) ∧
    (run step {} pingedCall).map (fun c => (c.sessionId,c.enqueued,c.cleanup)) =
      some (none,[],[]) := by
  refine ⟨fun h => ?_,by decide⟩
  obtain ⟨s,hs⟩ : ∃ s, run observedStep fresh pingedCall = some s :=
    Option.isSome_iff_exists.mp (by decide)
  have hd : (run observedStep fresh pingedCall).map
      (fun s => decide (s.1.sessionId = s.2.live)) = some false := by decide
  rw [hs] at hd
  exact absurd (h s (.of_run hs)).session (by simpa using hd)

end VoxForge.Gateway
