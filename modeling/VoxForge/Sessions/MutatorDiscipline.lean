import VoxForge.Sessions.StateInterleaving

/-! What each mutator writes, whatever it is answered: its effect on a document that
it knows, or a new document where it found none. -/
namespace VoxForge.Sessions
open Foundation Core Persistence Prog

/-- The mutators that leave the streaming part as it is. -/
def Mutator.Neutral (m : Mutator) : Prop := ∀ d, m.effect d = d

/-- A task that found no document may create it for a row that is not terminal. -/
structure Knowledge.MayCreate (m : Mutator) (c : Knowledge) : Prop where
  neutral : m.Neutral
  missing : c.base = some none
  live : ∃ status, c.status = some status ∧ status.terminal = false

/-- Which operations keep the document what its mutators make of it: a write applies
the mutator's effect to the document that the task goes by, or creates it anew; only a
task that knows the session ended deletes it. -/
def Knowledge.permits (m : Mutator) (c : Knowledge) : Op → Prop
  | .setState state _ =>
    (∃ old, c.base = some (some old) ∧ streamingOf state = m.effect old) ∨ c.MayCreate m
  | .deleteState => c.ended
  | .updateSessionEnded status _ => status.terminal
  | .updateSessionStatus _ => False
  | _ => True

def discipline (m : Mutator) : Discipline Op Reply Err Knowledge where
  allowed := Knowledge.permits m
  possible := fun _ r => ∀ e, r = .error e → e.external
  after := Knowledge.after

section programs
variable {settings : Settings} {m : Mutator} {c : Knowledge}

theorem wp_execute {o : Op} (h : c.permits m o) :
    wp (discipline m) c (execute o) (returns fun c' a => c' = c.after o (.ok a)) := by
  refine (wp_perform o _).mpr ⟨h,fun r _ => ?_⟩
  cases r with
  | ok a => rfl
  | error e => trivial

theorem wp_getState :
    wp (discipline m) c StateStore.getState
      (returns fun c' state => c' = c.after .getState (.ok (some state))) := by
  refine wp_then (wp_execute trivial) fun c' reply hc => ?_
  cases reply with
  | none => trivial
  | some state => exact hc

/-- A missing key is an answer; only an exception of the connection is raised. -/
theorem wp_getStateOrNone :
    wp (discipline m) c StateStore.getStateOrNone
      (returns fun c' reply => c' = c.after .getState (.ok reply)) := by
  refine (wp_tryCatch _ _ _).mpr ⟨trivial,fun r hr => ?_⟩
  match r with
  | .ok none => rfl
  | .ok (some state) => rfl
  | .error e =>
    have hne : e ≠ .sessionNotFound := by
      rintro rfl
      exact absurd (hr _ rfl) (by decide)
    simp [orElse,Prog.bind,hne]

theorem wp_saveState {state : SessionState} {ttlSeconds : Nat}
    (h : c.permits m (.setState state ttlSeconds)) :
    wp (discipline m) c (StateStore.saveState state ttlSeconds)
      (returns fun c' _ => c' = c.after (.setState state ttlSeconds) (.ok ())) :=
  wp_execute h

/-- A document made from the one just read may be written. -/
theorem permits_modified {state new : SessionState} {ttlSeconds : Nat}
    (hnew : streamingOf new = m.effect (streamingOf state)) :
    (c.after .getState (.ok (some state))).permits m (.setState new ttlSeconds) :=
  .inl ⟨streamingOf state,rfl,hnew⟩

theorem wp_updatePhase {phase : SessionPhase} (hm : m = .updatePhase phase) :
    wp (discipline m) c (StateStore.updatePhase settings phase) (returns fun _ _ => True) := by
  refine wp_then wp_getState fun c' state hc => ?_
  subst hc hm
  exact wp_then (wp_saveState (permits_modified rfl)) fun _ _ _ => trivial

theorem wp_setInterrupt {value : Bool}
    (hm : ∀ d, m.effect d = { d with interrupt := value, sequence := d.sequence + 1 }) :
    wp (discipline m) c (StateStore.setInterrupt settings value) (returns fun _ _ => True) := by
  refine wp_then wp_getState fun c' state hc => ?_
  subst hc
  exact wp_then (wp_saveState (permits_modified (hm (streamingOf state)).symm)) fun _ _ _ => trivial

/-- A heartbeat creates no document. -/
theorem wp_recordHeartbeat (hm : m.Neutral) :
    wp (discipline m) c (StateStore.recordHeartbeat settings) (returns fun c' _ => c'.created = c.created) := by
  refine wp_then (wp_execute (o := .now) trivial) fun _ _ hnow => ?_
  refine wp_then (wp_execute trivial) fun _ _ hbeat => ?_
  refine wp_then wp_getState fun c' state hread => ?_
  have hsame : c' = c.after .getState (.ok (some state)) := by
    rw [hread,hbeat,hnow]
    rfl
  refine wp_then (wp_execute trivial) fun _ now hagain => ?_
  have hpermit : c'.permits m
      (.setState { state with lastHeartbeat := some now } settings.sessionStateTtlSeconds) := by
    rw [hsame]
    exact permits_modified (hm (streamingOf state)).symm
  refine wp_returns_mono (wp_saveState (hagain ▸ hpermit)) fun c'' _ hwritten => ?_
  rw [hwritten,hagain,hsame]
  rfl

/-- After a document is written where there was none, it counts as created. -/
theorem wp_writeEphemeralState {state : SessionState} {status : SessionStatus} (hm : m.Neutral)
    (h : c.base = some (some (streamingOf state)) ∨ c.MayCreate m) :
    wp (discipline m) c (SessionManager.writeEphemeralState settings state status)
      (returns fun c' _ => c.base = some none → c'.created = some (streamingOf state)) := by
  have hpermit : c.permits m (.setState state (SessionManager.ttlForStatus settings status)) :=
    h.imp_left fun hb => ⟨streamingOf state,hb,(hm (streamingOf state)).symm⟩
  refine wp_then (wp_saveState hpermit) fun c' _ hwritten => ?_
  refine wp_returns_mono (wp_recordHeartbeat hm) fun c'' _ hkept hnone => ?_
  rw [hkept,hwritten]
  simp [Knowledge.after,hnone]

/-- Reading the row records its status. -/
theorem wp_get :
    wp (discipline m) c (SessionRepository.get none)
      (returns fun c' row => c' = c.after .selectSession (.ok (some row))) := by
  refine wp_then (wp_execute trivial) fun c' reply hc => ?_
  match reply with
  | none => trivial
  | some row => simpa [SessionRepository.get] using hc

/-- The document that a task works on: the one it created, or else the one it read. -/
def Knowledge.Loaded (c : Knowledge) (d : Streaming) : Prop :=
  c.created = some d ∨ c.created = none ∧ c.base = some (some d)

theorem wp_ensureEphemeralState {session : SessionRow} (hm : m.Neutral)
    (hr : c.created = none) (h : c.status = some session.status) :
    wp (discipline m) c (SessionManager.ensureEphemeralState settings session)
      (returns fun c' state => c'.Loaded (streamingOf state)) := by
  refine wp_then wp_getStateOrNone fun c' reply hc => ?_
  subst hc
  cases reply with
  | some existing => exact .inr ⟨hr,rfl⟩
  | none =>
    dsimp only
    split
    · trivial
    · next hlive =>
      refine wp_then (wp_writeEphemeralState hm (.inr ⟨hm,rfl,_,h,by simpa using hlive⟩)) fun c'' _ hcreated => ?_
      exact .inl (hcreated rfl)

theorem wp_loadOrReconcileState (hm : m.Neutral) (hr : c.created = none) :
    wp (discipline m) c (SessionManager.loadOrReconcileState settings)
      (returns fun c' state => c'.Loaded (streamingOf state)) := by
  refine wp_then wp_getStateOrNone fun c' reply hc => ?_
  subst hc
  cases reply with
  | some state => exact .inr ⟨hr,rfl⟩
  | none =>
    refine wp_then wp_get fun c'' row hrow => ?_
    subst hrow
    exact wp_ensureEphemeralState hm hr rfl

theorem wp_trackToolFailures {failedCount : Int} (hm : m.Neutral) (hr : c.created = none) :
    wp (discipline m) c (SessionManager.trackToolFailures settings failedCount)
      (returns fun _ _ => True) := by
  refine wp_then (wp_loadOrReconcileState hm hr) fun c' state hloaded => ?_
  refine wp_then wp_get fun c'' row hrow => ?_
  have hbase : c''.base = some (some (streamingOf state)) := by
    subst hrow
    rcases hloaded with hcreated | ⟨hnone,hbase⟩
    · simp [Knowledge.after,hcreated]
    · simpa [Knowledge.after,hnone] using hbase
  exact wp_then (wp_writeEphemeralState hm (.inl hbase)) fun _ _ _ => trivial

theorem wp_repoEndSession {status : SessionStatus} (hs : status.terminal) :
    wp (discipline m) c (SessionRepository.endSession status) (returns fun c' _ => c'.ended) := by
  refine wp_then wp_get fun c' row hrow => ?_
  split
  · next hterm => simp [hrow,Knowledge.after,hterm]
  · refine wp_then (wp_execute trivial) fun _ now hnow => ?_
    refine wp_then (wp_execute hs) fun c'' _ hended => ?_
    refine wp_returns_mono wp_get fun c3 row hrow => ?_
    simp [hrow,hended,Knowledge.after]

theorem wp_bestEffortDeleteRedis (h : c.ended) :
    wp (discipline m) c SessionManager.bestEffortDeleteRedis (returns fun _ _ => True) := by
  refine (wp_tryCatch _ _ _).mpr ⟨h,fun r _ => ?_⟩
  cases r with
  | ok _ => trivial
  | error e =>
    by_cases he : e = .cancelled <;> simp [Prog.bind,orElse,he]

theorem wp_endSession :
    wp (discipline m) c SessionManager.endSession (returns fun _ _ => True) := by
  refine wp_then wp_get fun c' row hrow => ?_
  split
  · next hterm =>
    have hended : c'.ended := by simp [hrow,Knowledge.after,hterm]
    exact wp_then (wp_discard (wp_bestEffortDeleteRedis hended)) fun _ _ _ => trivial
  · refine wp_then (wp_repoEndSession rfl) fun c'' row hended => ?_
    exact wp_then (wp_discard (wp_bestEffortDeleteRedis hended)) fun _ _ _ => trivial

end programs

/-- Every mutator keeps its discipline, whatever it is answered. -/
theorem program_disciplined (settings : Settings) (m : Mutator) :
    wp (discipline m) {} (m.program settings) (returns fun _ _ => True) := by
  cases m with
  | recordHeartbeat => exact wp_returns_mono (wp_recordHeartbeat fun _ => rfl) fun _ _ _ => trivial
  | updatePhase phase => exact wp_discard (wp_updatePhase rfl)
  | trackToolFailures n => exact wp_discard (wp_trackToolFailures (fun _ => rfl) rfl)
  | clearInterrupt => exact wp_discard (wp_setInterrupt fun _ => rfl)
  | setInterrupt => exact wp_discard (wp_setInterrupt fun _ => rfl)
  | endSession => exact wp_discard wp_endSession

end VoxForge.Sessions
