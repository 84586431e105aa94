import VoxForge.Sessions.Manager

/-! The session manager with nothing running beside it: what each of its operations
leaves in the tables and which phase it leaves in Redis. -/
namespace VoxForge.Sessions
open Foundation Core Persistence Prog

structure Stores where
  tables : Tables
  keys : Keys
  /-- What the services answer to the next operations. -/
  answers : List Answers := []
  deriving DecidableEq, Repr

namespace Stores

def handle (o : Op) (s : Stores) : Except Err (Reply o) × Stores :=
  let (reply,writes,keys) := perform (s.answers.headD {}) s.tables s.keys o
  (reply,{ tables := writes.foldl Write.apply s.tables, keys, answers := s.answers.tail })

/-- Nothing but the answers has been used up. -/
structure Same (s t : Stores) : Prop where
  tables : t.tables = s.tables
  keys : t.keys = s.keys

def HasPhase (s : Stores) (phase : SessionPhase) : Prop :=
  ∃ state, s.keys.state = some state ∧ state.phase = phase

/-- The tables are as they were, and so is the phase where one is stored. -/
structure KeepsPhase (s t : Stores) : Prop where
  tables : t.tables = s.tables
  phase : ∀ phase, s.HasPhase phase → t.HasPhase phase

def status (s : Stores) : SessionStatus := s.tables.session.status

def withStatus (t : Tables) (status : SessionStatus) : Tables :=
  { t with session := { t.session with status } }

variable {s t u : Stores}

theorem Same.trans (h : Same s t) (h' : Same t u) : Same s u :=
  ⟨h'.tables.trans h.tables,h'.keys.trans h.keys⟩

theorem Same.keepsPhase (h : Same s t) : KeepsPhase s t :=
  ⟨h.tables,fun phase hp => by rwa [HasPhase,h.keys]⟩

theorem KeepsPhase.trans (h : KeepsPhase s t) (h' : KeepsPhase t u) : KeepsPhase s u :=
  ⟨h'.tables.trans h.tables,fun phase hp => h'.phase phase (h.phase phase hp)⟩

theorem HasPhase.unique {p q : SessionPhase} (h : s.HasPhase p) (h' : s.HasPhase q) : p = q := by
  obtain ⟨state,hs,rfl⟩ := h
  obtain ⟨state',hs',rfl⟩ := h'
  rw [hs] at hs'
  cases hs'
  rfl

end Stores

open Stores
variable {s : Stores} {settings : Settings}

theorem finishes_now : Finishes handle s (execute .now) fun _ t => Same s t :=
  ⟨_,_,rfl,rfl,rfl⟩

theorem finishes_get : Finishes handle s (SessionRepository.get none) fun row t =>
    row = s.tables.session ∧ Same s t :=
  ⟨_,_,rfl,rfl,rfl,rfl⟩

theorem finishes_updateStatus (status : SessionStatus) :
    Finishes handle s (SessionRepository.updateStatus status) fun row t =>
      row.status = status ∧ t.tables = withStatus s.tables status ∧ t.keys = s.keys := by
  refine finishes_then finishes_get fun row t hrow => ?_
  obtain ⟨rfl,hsame⟩ := hrow
  by_cases hne : s.tables.session.status ≠ status
  · simp only [hne,if_true,ne_eq,not_false_eq_true]
    refine ⟨_,_,rfl,rfl,?_,hsame.keys⟩
    show withStatus t.tables status = _
    rw [hsame.tables]
  · have heq : s.tables.session.status = status := by simpa using hne
    simp only [heq,ne_eq,not_true_eq_false,if_false]
    refine finishes_mono finishes_get fun row u hu => ?_
    obtain ⟨rfl,hsame'⟩ := hu
    have htables : t.tables = withStatus s.tables status := by
      rw [hsame.tables,← heq]
      rfl
    refine ⟨?_,by rw [hsame'.tables,htables],hsame'.keys.trans hsame.keys⟩
    rw [htables]
    rfl

theorem finishes_getStateOrNone : Finishes handle s StateStore.getStateOrNone fun reply t =>
    reply = s.keys.state ∧ Same s t := by
  rcases s with ⟨tables,⟨state,heartbeat⟩,answers⟩
  cases state <;> exact ⟨_,_,rfl,rfl,rfl,rfl⟩

theorem settles_getState : Settles handle s StateStore.getState fun state t =>
    s.keys.state = some state ∧ Same s t := by
  rcases s with ⟨tables,⟨state,heartbeat⟩,answers⟩
  cases state with
  | none => exact fun _ _ h => by cases h
  | some state => exact Finishes.settles ⟨_,_,rfl,rfl,rfl,rfl⟩

theorem finishes_saveState (state : SessionState) (ttlSeconds : Nat) :
    Finishes handle s (StateStore.saveState state ttlSeconds) fun _ t =>
      t.tables = s.tables ∧ t.keys.state = some state :=
  ⟨_,_,rfl,rfl,rfl⟩

theorem settles_updatePhase (phase : SessionPhase) :
    Settles handle s (StateStore.updatePhase settings phase) fun _ t =>
      t.tables = s.tables ∧ t.HasPhase phase := by
  refine settles_then settles_getState fun state t ht => ?_
  refine settles_then (finishes_saveState _ _).settles fun _ u hu => ?_
  exact settles_pure ⟨hu.1.trans ht.2.tables,_,hu.2,rfl⟩

theorem settles_clearInterrupt :
    Settles handle s (StateStore.clearInterrupt settings) fun _ t => KeepsPhase s t := by
  refine settles_then settles_getState fun state t ht => ?_
  refine settles_then (finishes_saveState _ _).settles fun _ u hu => settles_pure ?_
  refine ⟨hu.1.trans ht.2.tables,fun phase hp => ⟨_,hu.2,?_⟩⟩
  exact HasPhase.unique ⟨state,ht.1,rfl⟩ hp

/-- Where a document is stored, a heartbeat keeps its phase. -/
theorem finishes_recordHeartbeat {state : SessionState} (h : s.keys.state = some state) :
    Finishes handle s (StateStore.recordHeartbeat settings) fun _ t =>
      t.tables = s.tables ∧ t.HasPhase state.phase := by
  rcases s with ⟨tables,⟨stored,heartbeat⟩,answers⟩
  obtain rfl : stored = some state := h
  exact ⟨_,_,rfl,rfl,_,rfl,rfl⟩

theorem settles_recordHeartbeat :
    Settles handle s (StateStore.recordHeartbeat settings) fun _ t => KeepsPhase s t := by
  rcases hs : s.keys.state with _ | state
  · rcases s with ⟨tables,⟨stored,heartbeat⟩,answers⟩
    obtain rfl : stored = none := hs
    exact fun _ _ h => by cases h
  · refine settles_mono (finishes_recordHeartbeat hs).settles fun _ t ht => ⟨ht.1,fun phase hp => ?_⟩
    rw [← HasPhase.unique ⟨state,hs,rfl⟩ hp]
    exact ht.2

theorem finishes_writeEphemeralState (state : SessionState) (status : SessionStatus) :
    Finishes handle s (SessionManager.writeEphemeralState settings state status) fun _ t =>
      t.tables = s.tables ∧ t.HasPhase state.phase := by
  refine finishes_then (finishes_saveState state _) fun _ t ht => ?_
  refine finishes_mono (finishes_recordHeartbeat ht.2) fun _ u hu => ?_
  exact ⟨hu.1.trans ht.1,hu.2⟩

/-- The document that is stored, or the one just created for the row. -/
theorem finishes_ensureEphemeralState {session : SessionRow} (h : session.status.terminal = false) :
    Finishes handle s (SessionManager.ensureEphemeralState settings session) fun state t =>
      KeepsPhase s t ∧ t.HasPhase state.phase := by
  refine finishes_then finishes_getStateOrNone fun reply t ht => ?_
  obtain ⟨rfl,hsame⟩ := ht
  rcases hs : s.keys.state with _ | state
  · simp only [h,Bool.false_eq_true,if_false]
    refine finishes_then (finishes_writeEphemeralState _ _) fun _ u hu => finishes_pure ?_
    refine ⟨⟨hu.1.trans hsame.tables,fun phase hp => ?_⟩,hu.2⟩
    obtain ⟨state,hstate,-⟩ := hp
    rw [hs] at hstate
    cases hstate
  · exact finishes_pure ⟨hsame.keepsPhase,state,by rw [hsame.keys,hs],rfl⟩

theorem settles_ensureEphemeralState {session : SessionRow} :
    Settles handle s (SessionManager.ensureEphemeralState settings session) fun state t =>
      KeepsPhase s t ∧ t.HasPhase state.phase := by
  cases h : session.status.terminal with
  | false => exact (finishes_ensureEphemeralState h).settles
  | true =>
    refine settles_then finishes_getStateOrNone.settles fun reply t ht => ?_
    obtain ⟨rfl,hsame⟩ := ht
    rcases hs : s.keys.state with _ | state
    · simp only [h,if_true]
      exact settles_raise
    · exact settles_pure ⟨hsame.keepsPhase,state,by rw [hsame.keys,hs],rfl⟩

theorem finishes_loadOrReconcileState (h : s.status.terminal = false) :
    Finishes handle s (SessionManager.loadOrReconcileState settings) fun state t =>
      KeepsPhase s t ∧ t.HasPhase state.phase := by
  refine finishes_then finishes_getStateOrNone fun reply t ht => ?_
  obtain ⟨rfl,hsame⟩ := ht
  rcases hs : s.keys.state with _ | state
  · refine finishes_then finishes_get fun row u hu => ?_
    obtain ⟨rfl,hsame'⟩ := hu
    have hlive : t.tables.session.status.terminal = false := by rwa [hsame.tables]
    refine finishes_mono (finishes_ensureEphemeralState hlive) fun state v hv => ?_
    exact ⟨(hsame.keepsPhase.trans hsame'.keepsPhase).trans hv.1,hv.2⟩
  · exact finishes_pure ⟨hsame.keepsPhase,state,by rw [hsame.keys,hs],rfl⟩

theorem settles_loadOrReconcileState :
    Settles handle s (SessionManager.loadOrReconcileState settings) fun state t =>
      KeepsPhase s t ∧ t.HasPhase state.phase := by
  refine settles_then finishes_getStateOrNone.settles fun reply t ht => ?_
  obtain ⟨rfl,hsame⟩ := ht
  rcases hs : s.keys.state with _ | state
  · refine settles_then finishes_get.settles fun row u hu => ?_
    refine settles_mono settles_ensureEphemeralState fun state v hv => ?_
    exact ⟨(hsame.keepsPhase.trans hu.2.keepsPhase).trans hv.1,hv.2⟩
  · exact settles_pure ⟨hsame.keepsPhase,state,by rw [hsame.keys,hs],rfl⟩

theorem settles_trackToolFailures (failedCount : Int) :
    Settles handle s (SessionManager.trackToolFailures settings failedCount) fun _ t => KeepsPhase s t := by
  refine settles_then settles_loadOrReconcileState fun state t ht => ?_
  refine settles_then finishes_get.settles fun row u hu => ?_
  refine settles_then (finishes_writeEphemeralState _ _).settles fun _ v hv => settles_pure ?_
  refine ⟨(hv.1.trans hu.2.tables).trans ht.1.tables,fun phase hp => ?_⟩
  rw [← HasPhase.unique ht.2 (ht.1.phase phase hp)]
  exact hv.2

/-- The status is set, and a document with the phase is written, whatever was stored. -/
theorem finishes_enter (status : SessionStatus) {phase : SessionPhase} (h : status.terminal = false)
    {change : SessionState → SessionState} (hphase : ∀ state, (change state).phase = phase) :
    Finishes handle s (do
        discard (SessionRepository.updateStatus status)
        let state ← SessionManager.loadOrReconcileState settings
        SessionManager.writeEphemeralState settings (change state) status : Action Unit) fun _ t =>
      t.tables = withStatus s.tables status ∧ t.HasPhase phase := by
  have hset : Finishes handle s (discard (SessionRepository.updateStatus status) : Action PUnit) fun _ t =>
      t.tables = withStatus s.tables status :=
    finishes_discard (finishes_mono (finishes_updateStatus status) fun _ _ ht => ht.2.1)
  refine finishes_then hset fun _ t ht => ?_
  have hlive : t.status.terminal = false := by rwa [Stores.status,ht]
  refine finishes_then (finishes_loadOrReconcileState hlive) fun state u hu => ?_
  refine finishes_mono (finishes_writeEphemeralState _ _) fun _ v hv => ?_
  exact ⟨(hv.1.trans hu.1.tables).trans ht,hphase state ▸ hv.2⟩

theorem finishes_applyHandoffPending (context : HandoffContext) :
    Finishes handle s (SessionManager.applyHandoffPending settings context) fun _ t =>
      t.tables = withStatus s.tables .handoffPending ∧ t.HasPhase .handoffPending :=
  finishes_enter .handoffPending rfl fun _ => rfl

theorem finishes_applyHandoffActive (handoffId : HandoffId) :
    Finishes handle s (SessionManager.applyHandoffActive settings handoffId) fun _ t =>
      t.tables = withStatus s.tables .handoffActive ∧ t.HasPhase .handoffActive :=
  finishes_enter .handoffActive rfl fun _ => rfl

theorem finishes_clearHandoff :
    Finishes handle s (SessionManager.clearHandoff settings) fun _ t =>
      t.tables = withStatus s.tables .active ∧ t.HasPhase .listening :=
  finishes_enter .active rfl fun _ => rfl

/-- Resuming touches no row, and no phase that is stored. -/
theorem settles_resumeSession (lastSequence : Int) :
    Settles handle s (SessionManager.resumeSession settings lastSequence) fun _ t => KeepsPhase s t := by
  refine settles_then finishes_get.settles fun session t ht => ?_
  obtain ⟨rfl,hsame⟩ := ht
  split
  · exact settles_raise
  · have hseen {u : Stores} (hu : KeepsPhase s u) : Settles handle u (do
        StateStore.recordHeartbeat settings
        return s.tables.session : Action SessionRow) fun _ t => KeepsPhase s t :=
      settles_then settles_recordHeartbeat fun _ v hv => settles_pure (hu.trans hv)
    have hbump {u : Stores} (hu : KeepsPhase s u) (state : SessionState) (hp : u.HasPhase state.phase) :
        Settles handle u (if state.sequence < lastSequence then do
            SessionManager.writeEphemeralState settings { state with sequence := lastSequence }
              s.tables.session.status
            StateStore.recordHeartbeat settings
            return s.tables.session
          else do
            StateStore.recordHeartbeat settings
            return s.tables.session : Action SessionRow) fun _ t => KeepsPhase s t := by
      split
      · refine settles_then (finishes_writeEphemeralState _ _).settles fun _ v hv => hseen ?_
        refine hu.trans ⟨hv.1,fun phase hq => ?_⟩
        rw [← HasPhase.unique hp hq]
        exact hv.2
      · exact hseen hu
    refine settles_then finishes_getStateOrNone.settles fun reply u hu => ?_
    obtain ⟨rfl,hsame'⟩ := hu
    have hkept := hsame.keepsPhase.trans hsame'.keepsPhase
    rcases hs : t.keys.state with _ | state
    · refine settles_then (settles_discard (settles_mono settles_ensureEphemeralState
        fun _ _ hv => hv.1)) fun _ v hv => ?_
      refine settles_then settles_getState fun state w hw => ?_
      exact hbump ((hkept.trans hv).trans hw.2.keepsPhase) state ⟨state,by rw [hw.2.keys,hw.1],rfl⟩
    · exact hbump hkept state ⟨state,by rw [hsame'.keys,hs],rfl⟩

/-- Activation returns an active session as it is; any other that is not terminal
becomes active and listening, whatever it was. -/
theorem settles_activateSession :
    Settles handle s (SessionManager.activateSession settings) fun _ t =>
      s.status.terminal = false ∧ (s.status = .active ∧ Same s t ∨
        s.status ≠ .active ∧ t.tables = withStatus s.tables .active ∧ t.HasPhase .listening) := by
  refine settles_then finishes_get.settles fun session t ht => ?_
  obtain ⟨rfl,hsame⟩ := ht
  split
  · next hactive =>
    have hactive : s.status = .active := hactive
    exact settles_pure ⟨by rw [hactive]; rfl,.inl ⟨hactive,hsame⟩⟩
  · next hne =>
    split
    · exact settles_raise
    · next hlive =>
      refine settles_then (finishes_updateStatus .active).settles fun session u hu => ?_
      obtain ⟨hstatus,htables,-⟩ := hu
      have hensure : Settles handle u
          (discard (SessionManager.ensureEphemeralState settings session) : Action PUnit) fun _ v =>
          v.tables = u.tables :=
        settles_discard (settles_mono settles_ensureEphemeralState fun _ _ hv => hv.1.tables)
      refine settles_then hensure fun _ v hv => ?_
      have hphase : Settles handle v
          (discard (StateStore.updatePhase settings .listening) : Action PUnit) fun _ w =>
          w.tables = v.tables ∧ w.HasPhase .listening :=
        settles_discard (settles_updatePhase .listening)
      refine settles_then hphase fun _ w hw => settles_pure ⟨Bool.eq_false_iff.mpr hlive,.inr ⟨hne,?_,hw.2⟩⟩
      rw [hw.1,hv,htables,hsame.tables]

theorem finishes_bestEffortDeleteRedis :
    Finishes handle s SessionManager.bestEffortDeleteRedis fun _ t => t.tables = s.tables :=
  ⟨_,_,rfl,rfl⟩

theorem finishes_repoEndSession :
    Finishes handle s (SessionRepository.endSession .completed) fun _ t =>
      t.status.terminal ∧ t.tables.handoffs = s.tables.handoffs := by
  refine finishes_then finishes_get fun row t ht => ?_
  obtain ⟨rfl,hsame⟩ := ht
  split
  · next hterm =>
    refine finishes_pure ⟨?_,congrArg Tables.handoffs hsame.tables⟩
    rwa [Stores.status,hsame.tables]
  · have hrows : t.tables.handoffs = s.tables.handoffs := congrArg Tables.handoffs hsame.tables
    exact ⟨_,_,rfl,rfl,hrows⟩

/-- The end of a session leaves it terminal and its handoffs alone. -/
theorem finishes_endSession :
    Finishes handle s SessionManager.endSession fun _ t =>
      t.status.terminal ∧ t.tables.handoffs = s.tables.handoffs := by
  have hdelete (u : Stores) : Finishes handle u
      (discard SessionManager.bestEffortDeleteRedis : Action PUnit) fun _ t => t.tables = u.tables :=
    finishes_discard finishes_bestEffortDeleteRedis
  refine finishes_then finishes_get fun session t ht => ?_
  obtain ⟨rfl,hsame⟩ := ht
  split
  · next hterm =>
    refine finishes_then (hdelete t) fun _ u hu => finishes_pure ?_
    rw [Stores.status,hu,hsame.tables]
    exact ⟨hterm,rfl⟩
  · refine finishes_then finishes_repoEndSession fun session u hu => ?_
    refine finishes_then (hdelete u) fun _ v hv => finishes_pure ?_
    rw [Stores.status,hv]
    exact ⟨hu.1,hu.2.trans (congrArg Tables.handoffs hsame.tables)⟩

end VoxForge.Sessions
