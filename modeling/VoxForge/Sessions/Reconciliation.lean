import VoxForge.Sessions.Expiry
import VoxForge.Sessions.Operations

/-! Sequences of calls of the session manager on a session that has not ended, with the
key of its document lost before any operation of any call. -/
namespace VoxForge.Sessions
open Foundation Core Persistence Prog World

inductive Call where
  | activateSession
  | resumeSession (lastSequence : Int)
  | recordHeartbeat
  | updatePhase (phase : SessionPhase)
  | setInterrupt
  | clearInterrupt
  | trackToolFailures (failedCount : Int)
  | getSessionConfig
  | applyHandoffPending (context : HandoffContext)
  | applyHandoffActive (handoffId : HandoffId)
  | clearHandoff
  deriving DecidableEq, Repr

namespace Call

def program (settings : Settings) : Call → Action Unit
  | activateSession => discard (SessionManager.activateSession settings)
  | resumeSession lastSequence => discard (SessionManager.resumeSession settings lastSequence)
  | recordHeartbeat => StateStore.recordHeartbeat settings
  | updatePhase phase => discard (StateStore.updatePhase settings phase)
  | setInterrupt => discard (StateStore.setInterrupt settings true)
  | clearInterrupt => discard (StateStore.clearInterrupt settings)
  | trackToolFailures failedCount => discard (SessionManager.trackToolFailures settings failedCount)
  | getSessionConfig => discard SessionManager.getSessionConfig
  | applyHandoffPending context => SessionManager.applyHandoffPending settings context
  | applyHandoffActive handoffId => SessionManager.applyHandoffActive settings handoffId
  | clearHandoff => SessionManager.clearHandoff settings

/-- The phase that a turn writes. -/
def phase? : Call → Option SessionPhase
  | updatePhase phase => some phase
  | _ => none

/-- The status that a call sets. -/
def status? : Call → Option SessionStatus
  | activateSession => some .active
  | applyHandoffPending _ => some .handoffPending
  | applyHandoffActive _ => some .handoffActive
  | clearHandoff => some .active
  | _ => none

def reconciles : Call → Bool
  | activateSession | resumeSession _ => true
  | _ => false

/-- The calls that a turn makes. -/
def ofTurn : Call → Bool
  | updatePhase _ | getSessionConfig | trackToolFailures _ | clearInterrupt => true
  | _ => false

end Call

/-- One call, with what happens around its operations. -/
structure Step where
  call : Call
  losses : List Bool := []
  answers : List Answers := []
  /-- Whether an exception rolls the transaction of the call back. -/
  rollback : Bool := false
  deriving DecidableEq, Repr

namespace Step

def start (s : Step) (w : World) : World := { w with losses := s.losses, answers := s.answers }

def run (settings : Settings) (s : Step) (w : World) : Except Err Unit × World :=
  let (r,t) := exec handle (s.call.program settings) (s.start w)
  (r,if r.isOk = false ∧ s.rollback = true then { t with row := w.row } else t)

/-- The key is not lost during the call, nor before it. -/
def Lossless (s : Step) : Prop := ∀ lost ∈ s.losses, lost = false

end Step

/-- The session after a sequence of calls, whatever each returned. -/
def World.after (settings : Settings) (w : World) (steps : List Step) : World :=
  steps.foldl (fun w s => (s.run settings w).2) w

/-- A stored document has the phase for the status, or one that a turn has written. -/
def World.Accounted (turns : List SessionPhase) (w : World) : Prop :=
  ∀ state, w.keys.state = some state → state.phase = phaseForStatus w.row.status ∨ state.phase ∈ turns

def turnPhases (steps : List Step) : List SessionPhase := steps.filterMap fun s => s.call.phase?

section calls
variable {settings : Settings} {w t : World} {turns : List SessionPhase}

variable (settings) in
theorem leaves_call (c : Call) : Ends handle w (c.program settings) (Leaves settings c.phase? c.status? w) := by
  cases c with
  | activateSession => exact leaves_discard (ends_mono (leaves_activateSession _) fun _ _ h => h.1)
  | resumeSession lastSequence => exact leaves_discard (ends_mono (leaves_resumeSession _ _ lastSequence) fun _ _ h => h.1)
  | recordHeartbeat => exact leaves_recordHeartbeat
  | updatePhase phase => exact leaves_discard (leaves_updatePhase phase)
  | setInterrupt => exact leaves_discard (leaves_setInterrupt true)
  | clearInterrupt => exact leaves_discard (leaves_setInterrupt false)
  | trackToolFailures failedCount => exact leaves_discard (leaves_trackToolFailures failedCount)
  | getSessionConfig => exact leaves_discard leaves_getSessionConfig
  | applyHandoffPending context =>
    exact leaves_enter .handoffPending (fun state => { state with
      phase := .handoffPending
      config := { state.config with
        handoff := some context
        consecutiveToolFailures := some (state.config.consecutiveToolFailures.getD 0) } }) fun _ => rfl
  | applyHandoffActive handoffId =>
    exact leaves_enter .handoffActive (fun state => { state with
      phase := .handoffActive
      config := { state.config with
        handoff := some { state.config.handoff.getD {} with handoffId := some handoffId } } }) fun _ => rfl
  | clearHandoff =>
    exact leaves_enter .active (fun state => { state with
      phase := .listening, config := { state.config with handoff := none } }) fun _ => rfl

theorem World.Shrinks.accounted (h : Shrinks w t) (hw : w.Accounted turns) : t.Accounted turns := by
  intro state hstate
  rw [h.row]
  exact hw state (h.state state hstate)

theorem World.Accounted.mono {more : List SessionPhase} (hw : w.Accounted turns) (h : turns ⊆ more) : w.Accounted more :=
  fun state hstate => (hw state hstate).imp_right fun hturn => h hturn

theorem World.After.accounted {turn : Option SessionPhase} {enter : Option SessionStatus}
    (h : After settings turn enter w t) (hw : w.Accounted turns) :
    t.Accounted (turns ++ turn.toList) := by
  cases h with
  | shrinks h => exact (h.accounted hw).mono (List.subset_append_left _ _)
  | written phase hrow h why =>
    intro state hstate
    obtain ⟨⟨written,hwritten,hphase⟩,-⟩ := h
    rw [hwritten] at hstate
    cases hstate
    rw [hrow,hphase]
    rcases why with (hstatus | ⟨old,hold,holdPhase⟩) | hturn
    · exact .inl hstatus
    · rcases hw old hold with h | h
      · exact .inl (holdPhase ▸ h)
      · exact .inr (List.mem_append_left _ (holdPhase ▸ h))
    · exact .inr (List.mem_append_right _ (by rw [hturn]; simp))
  | entered status hrow h =>
    intro state hstate
    obtain ⟨⟨written,hwritten,hphase⟩,-⟩ := h
    rw [hwritten] at hstate
    cases hstate
    refine .inl ?_
    rw [hrow,hphase]
    rfl

variable (settings) in
theorem accounted_run (s : Step) (hw : w.Accounted turns) :
    (s.run settings w).2.Accounted (turns ++ s.call.phase?.toList) := by
  have hstart : (s.start w).Accounted turns := hw
  have h : Leaves settings s.call.phase? s.call.status? (s.start w) _ _ := leaves_call settings s.call
  unfold Step.run
  rcases hexec : exec handle (s.call.program settings) (s.start w) with ⟨r,t⟩
  rw [hexec] at h
  cases r with
  | ok a => exact h.accounted hstart
  | error e =>
    dsimp only
    split
    · intro state hstate
      rcases h with hgone | hshrinks
      · rw [show t.keys.state = none from hgone] at hstate
        cases hstate
      · exact (hw state (hshrinks.state state hstate)).imp_right (List.mem_append_left _)
    · rcases h with hgone | hshrinks
      · intro state hstate
        rw [show t.keys.state = none from hgone] at hstate
        cases hstate
      · exact (hshrinks.accounted hstart).mono (List.subset_append_left _ _)

variable (settings) in
theorem accounted_after (steps : List Step) (hw : w.Accounted turns) :
    (w.after settings steps).Accounted (turns ++ turnPhases steps) := by
  induction steps generalizing w turns with
  | nil => simpa [World.after,turnPhases] using hw
  | cons s steps ih =>
    have h := ih (accounted_run settings s hw)
    refine h.mono ?_
    unfold turnPhases
    cases hphase : s.call.phase? with
    | none => simp [hphase]
    | some phase => simp [hphase]

/-! While the key is not lost -/

/-- A document is stored, and no loss is ahead. -/
structure World.Steady (w : World) : Prop where
  stored : w.keys.state.isSome
  lossless : ∀ lost ∈ w.losses, lost = false

theorem World.Steady.found (h : w.Steady) : w.found = w.keys := by
  unfold World.found
  cases hl : w.losses with
  | nil => rfl
  | cons lost rest =>
    rw [h.lossless lost (by rw [hl]; exact List.mem_cons_self)]
    rfl

theorem steady_handle {o : Op} (ho : Own o) (h : w.Steady) : (handle o w).2.Steady := by
  refine ⟨?_,fun lost hlost => h.lossless lost (List.mem_of_mem_tail hlost)⟩
  have hkeys : (handle o w).2.keys.state = o.stateAfter w.found.state := perform_state _ _ _ o
  rw [hkeys,h.found]
  cases o <;> first | exact ho.elim | rfl | exact h.stored

theorem steady_execute {o : Op} {a : Reply o} (ho : Own o) (h : w.Steady) (hreply : (handle o w).1 = .ok a) :
    Finishes handle w (execute o) fun a' t => a' = a ∧ t.Steady :=
  ⟨a,(handle o w).2,by rw [execute,exec_perform,← hreply],rfl,steady_handle ho h⟩

theorem steady_getState (h : w.Steady) : Finishes handle w StateStore.getState fun _ t => t.Steady := by
  obtain ⟨state,hstate⟩ := Option.isSome_iff_exists.mp h.stored
  have hreply : (handle .getState w).1 = .ok (some state) := by
    rw [handle_getState.1,h.found,hstate]
  refine finishes_then (steady_execute (o := .getState) trivial h hreply) fun reply t ht => ?_
  obtain ⟨rfl,ht⟩ := ht
  exact finishes_pure ht

theorem steady_getStateOrNone (h : w.Steady) :
    Finishes handle w StateStore.getStateOrNone fun reply t => reply.isSome ∧ t.Steady := by
  obtain ⟨state,t,ht,hsteady⟩ := steady_getState h
  refine ⟨some state,t,?_,rfl,hsteady⟩
  unfold StateStore.getStateOrNone
  rw [exec_tryCatch,exec_bind_ok handle w ht]
  rfl

theorem steady_saveState (state : SessionState) (ttlSeconds : Nat) (h : w.Steady) :
    Finishes handle w (StateStore.saveState state ttlSeconds) fun _ t => t.Steady :=
  finishes_mono (steady_execute (o := .setState state ttlSeconds) (a := ()) trivial h rfl) fun _ _ h => h.2

theorem steady_updatePhase (phase : SessionPhase) (h : w.Steady) :
    Finishes handle w (StateStore.updatePhase settings phase) fun _ t => t.Steady := by
  refine finishes_then (steady_getState h) fun state t ht => ?_
  exact finishes_then (steady_saveState _ _ ht) fun _ u hu => finishes_pure hu

theorem steady_setInterrupt (value : Bool) (h : w.Steady) :
    Finishes handle w (StateStore.setInterrupt settings value) fun _ t => t.Steady := by
  refine finishes_then (steady_getState h) fun state t ht => ?_
  exact finishes_then (steady_saveState _ _ ht) fun _ u hu => finishes_pure hu

theorem steady_now (h : w.Steady) : Finishes handle w (execute .now) fun _ t => t.Steady :=
  finishes_mono (steady_execute (o := .now) (a := (w.answers.headD {}).now) trivial h rfl) fun _ _ h => h.2

theorem steady_recordHeartbeat (h : w.Steady) :
    Finishes handle w (StateStore.recordHeartbeat settings) fun _ t => t.Steady := by
  refine finishes_then (steady_now h) fun now t ht => ?_
  refine finishes_then (steady_execute (o := .setHeartbeat now) (a := ()) trivial ht rfl) fun _ u hu => ?_
  refine finishes_then (steady_getState hu.2) fun state v hv => ?_
  refine finishes_then (steady_now hv) fun later x hx => ?_
  exact steady_saveState _ _ hx

theorem steady_writeEphemeralState (state : SessionState) (status : SessionStatus) (h : w.Steady) :
    Finishes handle w (SessionManager.writeEphemeralState settings state status) fun _ t => t.Steady :=
  finishes_then (steady_saveState _ _ h) fun _ _ ht => steady_recordHeartbeat ht

theorem steady_get (h : w.Steady) : Finishes handle w (SessionRepository.get none) fun _ t => t.Steady := by
  refine finishes_then (steady_execute (o := .selectSession) (a := some w.row) trivial h rfl) fun reply t ht => ?_
  obtain ⟨rfl,ht⟩ := ht
  exact finishes_pure ht

theorem steady_getSessionConfig (h : w.Steady) :
    Finishes handle w SessionManager.getSessionConfig fun _ t => t.Steady := by
  refine finishes_then (steady_getStateOrNone h) fun reply t ht => ?_
  obtain ⟨state,rfl⟩ := Option.isSome_iff_exists.mp ht.1
  exact finishes_pure ht.2

theorem steady_loadOrReconcileState (h : w.Steady) :
    Finishes handle w (SessionManager.loadOrReconcileState settings) fun _ t => t.Steady := by
  refine finishes_then (steady_getStateOrNone h) fun reply t ht => ?_
  obtain ⟨state,rfl⟩ := Option.isSome_iff_exists.mp ht.1
  exact finishes_pure ht.2

theorem steady_trackToolFailures (failedCount : Int) (h : w.Steady) :
    Finishes handle w (SessionManager.trackToolFailures settings failedCount) fun _ t => t.Steady := by
  refine finishes_then (steady_loadOrReconcileState h) fun state t ht => ?_
  refine finishes_then (steady_get ht) fun row u hu => ?_
  exact finishes_then (steady_writeEphemeralState _ _ hu) fun _ v hv => finishes_pure hv

variable (settings) in
/-- The calls of a turn return while the key is not lost. -/
theorem steady_turnCall {c : Call} (hc : c.ofTurn = true) (h : w.Steady) :
    Finishes handle w (c.program settings) fun _ t => t.Steady := by
  cases c with
  | updatePhase phase => exact finishes_discard (steady_updatePhase phase h)
  | getSessionConfig => exact finishes_discard (steady_getSessionConfig h)
  | trackToolFailures failedCount => exact finishes_discard (steady_trackToolFailures failedCount h)
  | clearInterrupt => exact finishes_discard (steady_setInterrupt false h)
  | _ => cases hc

theorem own_call (c : Call) : Performs Own (c.program settings) := by
  cases c with
  | activateSession => exact performs_discard own_activateSession
  | resumeSession lastSequence => exact performs_discard (own_resumeSession lastSequence)
  | recordHeartbeat => exact own_recordHeartbeat
  | updatePhase phase => exact performs_discard (own_updatePhase phase)
  | setInterrupt => exact performs_discard (own_setInterrupt true)
  | clearInterrupt => exact performs_discard own_clearInterrupt
  | trackToolFailures failedCount => exact performs_discard (own_trackToolFailures failedCount)
  | getSessionConfig => exact performs_discard own_getSessionConfig
  | applyHandoffPending context => exact own_applyHandoffPending context
  | applyHandoffActive handoffId => exact own_applyHandoffActive handoffId
  | clearHandoff => exact own_clearHandoff

variable (settings) in
/-- No call on a session that has not ended removes its document. -/
theorem stored_run {s : Step} (hs : s.Lossless) (h : w.keys.state.isSome) :
    (s.run settings w).2.keys.state.isSome := by
  have hstart : (s.start w).Steady := ⟨h,hs⟩
  have hend : (exec handle (s.call.program settings) (s.start w)).2.Steady :=
    exec_keeps (own_call s.call) (fun o t ho ht => steady_handle ho ht) hstart
  unfold Step.run
  dsimp only
  split
  · exact hend.stored
  · exact hend.stored

variable (settings) in
theorem stored_after {steps : List Step} (hs : ∀ s ∈ steps, s.Lossless) (h : w.keys.state.isSome) :
    (w.after settings steps).keys.state.isSome := by
  induction steps generalizing w with
  | nil => exact h
  | cons s steps ih =>
    exact ih (fun x hx => hs x (List.mem_cons_of_mem _ hx)) (stored_run settings (hs s List.mem_cons_self) h)

end calls

/-! The two reconciling calls -/

/-- A call of a turn that comes after the steps finds the session, if no key is lost in them. -/
def World.Serves (settings : Settings) (w : World) (steps : List Step) : Prop :=
  ∀ between s later, steps = between ++ s :: later → s.call.ofTurn = true →
    (∀ x ∈ between ++ [s], x.Lossless) → (s.run settings (w.after settings between)).1 ≠ .error .sessionNotFound

/-- What every activation and resumption of a session that returns is to leave. -/
def Reconciling (settings : Settings) (turns : List SessionPhase) (w : World) (steps : List Step) : Prop :=
  ∀ before s rest, steps = before ++ s :: rest → s.call.reconciles = true →
    (s.run settings (w.after settings before)).1.isOk = true →
    (∃ state, (s.run settings (w.after settings before)).2.keys.state = some state ∧
      (state.phase = phaseForStatus (s.run settings (w.after settings before)).2.row.status ∨
        state.phase ∈ turns ++ turnPhases before)) ∧
    (s.run settings (w.after settings before)).2.Serves settings rest

/-- An activation that finds its row active and no document. -/
def Idempotent (s : Step) (w : World) : Prop :=
  s.call = .activateSession ∧ w.row.status = .active ∧ (s.start w).found.state = none

section reconciling
variable {settings : Settings} {w : World} {turns : List SessionPhase}

/-- What a program leaves when it returns, its value left out. -/
theorem ends_discard_ok {α : Type} {q : World → Prop} {p : Action α}
    (h : Ends handle w p fun r t => r.isOk = true → q t) :
    Ends handle w (discard p : Action Unit) fun r t => r.isOk = true → q t := by
  apply ends_discard
  refine ends_mono h fun r t hq => ?_
  cases r with
  | ok a => exact hq
  | error e => exact fun hok => by cases hok

/-- A call that returns is not rolled back. -/
theorem ends_run {s : Step} {q : World → Prop}
    (h : Ends handle (s.start w) (s.call.program settings) fun r t => r.isOk = true → q t)
    (hok : (s.run settings w).1.isOk = true) : q (s.run settings w).2 := by
  unfold Ends at h
  unfold Step.run at hok ⊢
  dsimp only at hok ⊢
  rw [if_neg (by rw [hok]; simp)]
  exact h hok

/-- The early return of an activation: one statement, and Redis is not asked. -/
theorem ends_activate_active (hactive : w.row.status = .active) :
    Ends handle w (SessionManager.activateSession settings) fun r t => r.isOk = true ∧ t.keys.state = w.found.state := by
  have hget : Ends handle w (SessionRepository.get none) fun r t => r = .ok w.row ∧ t.keys.state = w.found.state := by
    have hselect : Ends handle w (execute .selectSession) fun r t => r = .ok (some w.row) ∧ t.keys.state = w.found.state :=
      ends_execute ⟨rfl,rfl⟩
    refine ends_then hselect (fun e t h => by cases h.1) fun reply t ht => ?_
    obtain ⟨hreply,hkeys⟩ := ht
    cases hreply
    exact ends_pure ⟨rfl,hkeys⟩
  refine ends_then hget (fun e t h => by cases h.1) fun session t ht => ?_
  obtain ⟨hsession,hkeys⟩ := ht
  cases hsession
  rw [if_pos hactive]
  exact ends_pure ⟨rfl,hkeys⟩

variable (settings) in
theorem idempotent_gone {s : Step} (h : Idempotent s w) :
    (s.run settings w).1.isOk = true ∧ (s.run settings w).2.Gone := by
  obtain ⟨hcall,hactive,hfound⟩ := h
  have hends : Ends handle (s.start w) (s.call.program settings) fun r t => r.isOk = true ∧ t.Gone := by
    rw [hcall]
    apply ends_discard
    refine ends_mono (ends_activate_active (w := s.start w) hactive) fun r t ht => ?_
    cases r with
    | ok a => exact ⟨rfl,ht.2.trans hfound⟩
    | error e => cases ht.1
  have hok : (s.run settings w).1.isOk = true := hends.1
  exact ⟨hok,ends_run (ends_mono hends fun _ _ h _ => h.2) hok⟩

/-- A reconciling call that returns leaves a document, save after the early return. -/
theorem stored_of_reconciles {s : Step} (hs : s.call.reconciles = true) (hidempotent : ¬Idempotent s w)
    (hok : (s.run settings w).1.isOk = true) : (s.run settings w).2.keys.state.isSome := by
  cases hcall : s.call with
  | activateSession =>
    by_cases hactive : w.row.status = .active
    · have hfound : (s.start w).found.state ≠ none := fun h => hidempotent ⟨hcall,hactive,h⟩
      refine ends_run (q := fun t => t.keys.state.isSome) ?_ hok
      rw [hcall]
      apply ends_discard_ok
      refine ends_mono (ends_activate_active (w := s.start w) hactive) fun r t ht _ => ?_
      rw [ht.2]
      exact Option.isSome_iff_ne_none.mpr hfound
    · refine ends_run (q := fun t => t.keys.state.isSome) ?_ hok
      rw [hcall]
      apply ends_discard_ok
      refine ends_mono (leaves_activateSession none) fun r t ht hr => ?_
      exact Option.isSome_iff_ne_none.mpr fun hgone => hactive (ht.2 hr hgone)
  | resumeSession lastSequence =>
    refine ends_run (q := fun t => t.keys.state.isSome) ?_ hok
    rw [hcall]
    apply ends_discard_ok
    refine ends_mono (leaves_resumeSession none none lastSequence) fun r t ht hr => ?_
    exact Option.isSome_iff_ne_none.mpr (ht.2 hr)
  | _ =>
    rw [hcall] at hs
    cases hs

theorem serves_of_stored (h : w.keys.state.isSome) (steps : List Step) : w.Serves settings steps := by
  rintro between s later - hturn hlossless hraised
  have hbetween : (w.after settings between).keys.state.isSome :=
    stored_after settings (fun x hx => hlossless x (List.mem_append_left _ hx)) h
  have hstart : (s.start (w.after settings between)).Steady :=
    ⟨hbetween,hlossless s (by simp)⟩
  obtain ⟨a,t,ht,-⟩ := steady_turnCall settings hturn hstart
  unfold Step.run at hraised
  rw [ht] at hraised
  cases hraised

/-- Activation and resumption reconcile the document, unless an active session that has lost it is activated. -/
theorem reconciling_iff (steps : List Step) (hw : w.Accounted turns) :
    Reconciling settings turns w steps ↔
      ∀ before s rest, steps = before ++ s :: rest → ¬Idempotent s (w.after settings before) := by
  constructor
  · intro h before s rest hsteps hidempotent
    obtain ⟨hok,hgone⟩ := idempotent_gone settings hidempotent
    obtain ⟨⟨state,hstate,-⟩,-⟩ := h before s rest hsteps (by rw [hidempotent.1]; rfl) hok
    rw [show (s.run settings (w.after settings before)).2.keys.state = none from hgone] at hstate
    cases hstate
  · intro h before s rest hsteps hs hok
    have hstored := stored_of_reconciles hs (h before s rest hsteps) hok
    refine ⟨?_,serves_of_stored hstored rest⟩
    obtain ⟨state,hstate⟩ := Option.isSome_iff_exists.mp hstored
    refine ⟨state,hstate,?_⟩
    have haccounted := accounted_run settings s (accounted_after settings before hw)
    have hphase : s.call.phase? = none := by
      cases hcall : s.call <;> rw [hcall] at hs <;> first | rfl | cases hs
    rw [hphase] at haccounted
    simpa using haccounted state hstate

end reconciling

def newSession : World := { row := {}, keys := { state := some {} } }

/-- A session that is resumed after its key was lost, and then serves a turn. -/
def resumed : List Step :=
  [{ call := .activateSession },{ call := .resumeSession 0, losses := [true] },{ call := .updatePhase .processing }]

theorem reconciling_iff_resumed : newSession.Accounted [] ∧ Reconciling {} [] newSession resumed := by
  have hnew : newSession.Accounted [] := by
    intro state hstate
    cases hstate
    exact .inl rfl
  refine ⟨hnew,(reconciling_iff resumed hnew).mpr ?_⟩
  rintro before s rest hsteps ⟨hcall,hactive,hfound⟩
  match before,hsteps with
  | [],hsteps =>
    cases hsteps
    exact absurd hactive (by decide)
  | [_],hsteps =>
    cases hsteps
    cases hcall
  | [_,_],hsteps =>
    cases hsteps
    cases hcall
  | _ :: _ :: _ :: before,hsteps =>
    have hlength := congrArg List.length hsteps
    simp [resumed] at hlength

/-- The same session activated again in place of being resumed: activation returns, and the turn
does not find its session. -/
def reactivated : List Step :=
  [{ call := .activateSession },{ call := .activateSession, losses := [true] },{ call := .updatePhase .processing }]

theorem reactivated_not_reconciling : ¬Reconciling {} [] newSession reactivated := by
  intro h
  obtain ⟨-,hserves⟩ := h [{ call := .activateSession }] _ _ rfl rfl (by decide)
  exact hserves [] { call := .updatePhase .processing } [] rfl rfl (by simp [Step.Lossless]) (by decide)

end VoxForge.Sessions
