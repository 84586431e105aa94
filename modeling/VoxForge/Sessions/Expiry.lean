import VoxForge.Sessions.Manager

/-! The session manager over a Redis key that has an expiry and may be lost before any
command. What each operation leaves: the row, the stored document and the expiry last set. -/
namespace VoxForge.Sessions
open Foundation Core Persistence Prog

structure World where
  row : SessionRow
  keys : Keys := {}
  /-- The expiry last set on the state key. -/
  ttl : Option Nat := none
  /-- Whether the state key is lost before each of the next operations. -/
  losses : List Bool := []
  answers : List Answers := []
  deriving DecidableEq, Repr

namespace World

/-- The keys that the next operation finds. -/
def found (w : World) : Keys :=
  if w.losses.headD false then { w.keys with state := none } else w.keys

def ttlAfter (ttl : Option Nat) : Op → Option Nat
  | .setState _ ttlSeconds => some ttlSeconds
  | _ => ttl

def handle (o : Op) (w : World) : Except Err (Reply o) × World :=
  let tables : Tables := { session := w.row }
  let (reply,writes,keys) := perform (w.answers.headD {}) tables w.found o
  (reply,{
    row := (writes.foldl Write.apply tables).session
    keys
    ttl := ttlAfter w.ttl o
    losses := w.losses.tail
    answers := w.answers.tail })

/-- No document is stored. -/
def Gone (w : World) : Prop := w.keys.state = none

/-- A document with the phase has been written last, for that long. -/
def Written (w : World) (phase : SessionPhase) (ttl : Nat) : Prop :=
  (∃ state, w.keys.state = some state ∧ state.phase = phase) ∧ w.ttl = some ttl

/-- Nothing was written: the document is as it was, or lost. -/
structure Shrinks (w t : World) : Prop where
  row : t.row = w.row
  ttl : t.ttl = w.ttl
  state : ∀ state, t.keys.state = some state → w.keys.state = some state

variable {w t u : World}

theorem Shrinks.trans (h : Shrinks w t) (h' : Shrinks t u) : Shrinks w u :=
  ⟨h'.row.trans h.row,h'.ttl.trans h.ttl,fun state hs => h.state state (h'.state state hs)⟩

theorem Shrinks.gone (h : Shrinks w t) (hw : w.Gone) : t.Gone := by
  cases hs : t.keys.state with
  | none => exact hs
  | some state => exact absurd (h.state state hs) (by rw [hw]; simp)

theorem found_state {state : SessionState} (h : w.found.state = some state) : w.keys.state = some state := by
  unfold found at h
  split at h
  · cases h
  · exact h

/-- An operation that writes neither the row nor the document. -/
theorem handle_shrinks {o : Op} (hrow : o.rowAfter w.row = w.row) (hstate : o.stateAfter w.found.state = w.found.state)
    (httl : ttlAfter w.ttl o = w.ttl) : Shrinks w (handle o w).2 := by
  refine ⟨?_,httl,fun state hs => ?_⟩
  · exact (perform_row _ _ _ _ o).trans hrow
  · have hkeys : (handle o w).2.keys.state = o.stateAfter w.found.state := perform_state _ _ _ o
    rw [hkeys,hstate] at hs
    exact found_state hs

end World

open World
variable {w : World} {settings : Settings} {α β : Type}

/-- A program that returns leaves what is asked; an exception leaves no document, and the row as given. -/
def World.lost (row : SessionRow) (q : α → World → Prop) : Except Err α → World → Prop
  | .ok a,t => q a t
  | .error _,t => t.Gone ∧ t.row = row

theorem lost_then {row : SessionRow} {m : α → World → Prop} {q : β → World → Prop} {p : Action α} {f : α → Action β}
    (hp : Ends handle w p (lost row m)) (hf : ∀ a t, m a t → Ends handle t (f a) (lost row q)) :
    Ends handle w (p >>= f) (lost row q) :=
  ends_then hp (fun _ _ h => h) hf

theorem lost_mono {row : SessionRow} {q q' : α → World → Prop} {p : Action α} (hp : Ends handle w p (lost row q))
    (hq : ∀ a t, q a t → q' a t) : Ends handle w p (lost row q') :=
  ends_mono hp fun r t h => match r with
    | .ok a => hq a t h
    | .error _ => h

theorem ends_execute {o : Op} {q : Except Err (Reply o) → World → Prop} (h : q (handle o w).1 (handle o w).2) :
    Ends handle w (execute o) q := by
  unfold Ends execute
  rw [exec_perform]
  exact h

theorem ends_now {row : SessionRow} : Ends handle w (execute .now) (lost row fun _ t => Shrinks w t) :=
  ends_execute (handle_shrinks rfl rfl rfl)

theorem ends_setHeartbeat {row : SessionRow} (now : Time) :
    Ends handle w (execute (.setHeartbeat now)) (lost row fun _ t => Shrinks w t) :=
  ends_execute (handle_shrinks rfl rfl rfl)

theorem ends_get {r : SessionRow} :
    Ends handle w (SessionRepository.get none) (lost r fun row t => row = w.row ∧ Shrinks w t) := by
  have hselect : Ends handle w (execute .selectSession)
      (lost r fun reply t => reply = some w.row ∧ Shrinks w t) :=
    ends_execute ⟨rfl,handle_shrinks rfl rfl rfl⟩
  refine lost_then hselect fun reply t ht => ?_
  obtain ⟨rfl,hshrinks⟩ := ht
  exact ends_pure ⟨rfl,hshrinks⟩

def World.withStatus (w : World) (status : SessionStatus) : World := { w with row := { w.row with status } }

theorem ends_updateStatus {row : SessionRow} (status : SessionStatus) :
    Ends handle w (SessionRepository.updateStatus status)
      (lost row fun row t => row = (w.withStatus status).row ∧ Shrinks (w.withStatus status) t) := by
  refine lost_then ends_get fun row t ht => ?_
  obtain ⟨rfl,hshrinks⟩ := ht
  by_cases hne : w.row.status ≠ status
  · rw [if_pos hne]
    have hupdate : Ends handle t (execute (.updateSessionStatus status))
        (lost row fun _ u => Shrinks (w.withStatus status) u) := by
      refine ends_execute ⟨?_,hshrinks.ttl,fun state hs => ?_⟩
      · exact congrArg (fun row : SessionRow => { row with status }) hshrinks.row
      · exact hshrinks.state state (found_state hs)
    refine lost_then hupdate fun _ u hu => ?_
    exact lost_mono ends_get fun row v hv => ⟨hv.1.trans hu.row,hu.trans hv.2⟩
  · rw [if_neg hne]
    have hsame : w.withStatus status = w := by
      have hstatus : w.row.status = status := not_not.mp hne
      rw [← hstatus]
      rfl
    rw [hsame]
    exact lost_mono ends_get fun row v hv => ⟨hv.1.trans hshrinks.row,hshrinks.trans hv.2⟩

theorem handle_getState : (handle .getState w).1 = .ok w.found.state ∧ (handle .getState w).2.keys.state = w.found.state :=
  ⟨rfl,rfl⟩

theorem ends_getState : Ends handle w StateStore.getState (lost w.row fun state t =>
    Shrinks w t ∧ t.keys.state = some state) := by
  have hget : Ends handle w (execute .getState) (lost w.row fun reply t => Shrinks w t ∧ t.keys.state = reply) :=
    ends_execute ⟨handle_shrinks rfl rfl rfl,rfl⟩
  refine lost_then hget fun reply t ht => ?_
  cases reply with
  | none => exact ends_raise ⟨ht.2,ht.1.row⟩
  | some state => exact ends_pure ht

theorem ends_getStateOrNone {row : SessionRow} : Ends handle w StateStore.getStateOrNone (lost row fun reply t =>
    Shrinks w t ∧ t.keys.state = reply) := by
  have hget : Ends handle w (execute .getState) fun r t =>
      ∃ reply, r = .ok reply ∧ Shrinks w t ∧ t.keys.state = reply :=
    ends_execute ⟨_,rfl,handle_shrinks rfl rfl rfl,rfl⟩
  refine ends_tryCatch (m := fun r t => Shrinks w t ∧
    match r with
    | .ok reply => t.keys.state = reply
    | .error e => e = .sessionNotFound ∧ t.Gone) ?_ ?_ ?_
  · refine ends_then (ends_then hget (q := fun r t => Shrinks w t ∧
      match r with
      | .ok state => t.keys.state = some state
      | .error e => e = .sessionNotFound ∧ t.Gone) ?_ ?_) ?_ ?_
    · rintro e t ⟨reply,hreply,-⟩
      cases hreply
    · rintro a t ⟨reply,hreply,hshrinks,hstate⟩
      cases hreply
      cases a with
      | none => exact ends_raise ⟨hshrinks,rfl,hstate⟩
      | some state => exact ends_pure ⟨hshrinks,hstate⟩
    · rintro e t h
      exact h
    · rintro state t h
      exact ends_pure h
  · rintro reply t h
    exact h
  · rintro e t ⟨hshrinks,rfl,hgone⟩
    exact ends_pure ⟨hshrinks,hgone⟩

theorem ends_saveState {row : SessionRow} (state : SessionState) (ttlSeconds : Nat) :
    Ends handle w (StateStore.saveState state ttlSeconds) (lost row fun _ t =>
      t.row = w.row ∧ t.keys.state = some state ∧ t.ttl = some ttlSeconds) :=
  ends_execute ⟨rfl,rfl,rfl⟩

/-- A document that is read and written back, with the default expiry. -/
def World.Rewritten (settings : Settings) (w t : World) : Prop :=
  t.row = w.row ∧ ∃ state, w.keys.state = some state ∧ t.Written state.phase settings.sessionStateTtlSeconds

theorem ends_updatePhase (phase : SessionPhase) : Ends handle w (StateStore.updatePhase settings phase)
    (lost w.row fun _ t => t.row = w.row ∧ t.Written phase settings.sessionStateTtlSeconds) := by
  refine lost_then ends_getState fun state t ht => ?_
  refine lost_then (ends_saveState _ _) fun _ u hu => ?_
  exact ends_pure ⟨hu.1.trans ht.1.row,⟨_,hu.2.1,rfl⟩,hu.2.2⟩

theorem ends_setInterrupt (value : Bool) : Ends handle w (StateStore.setInterrupt settings value)
    (lost w.row fun _ t => Rewritten settings w t) := by
  refine lost_then ends_getState fun state t ht => ?_
  refine lost_then (ends_saveState _ _) fun _ u hu => ?_
  exact ends_pure ⟨hu.1.trans ht.1.row,state,ht.1.state state ht.2,⟨_,hu.2.1,rfl⟩,hu.2.2⟩

theorem ends_recordHeartbeat : Ends handle w (StateStore.recordHeartbeat settings)
    (lost w.row fun _ t => Rewritten settings w t) := by
  refine lost_then ends_now fun now t ht => ?_
  refine lost_then (ends_setHeartbeat now) fun _ u hu => ?_
  have hread : Ends handle u StateStore.getState (lost w.row fun state v =>
      Shrinks w v ∧ w.keys.state = some state) := by
    have hrow : u.row = w.row := (ht.trans hu).row
    rw [← hrow]
    exact lost_mono ends_getState fun state v hv =>
      ⟨(ht.trans hu).trans hv.1,((ht.trans hu).trans hv.1).state state hv.2⟩
  refine lost_then hread fun state v hv => ?_
  refine lost_then ends_now fun later x hx => ?_
  refine lost_mono (ends_saveState _ _) fun _ y hy => ?_
  exact ⟨(hy.1.trans hx.row).trans hv.1.row,state,hv.2,⟨_,hy.2.1,rfl⟩,hy.2.2⟩

/-- The heartbeat that follows a write sets the default expiry, whatever the write set. -/
theorem ends_writeEphemeralState (state : SessionState) (status : SessionStatus) :
    Ends handle w (SessionManager.writeEphemeralState settings state status)
      (lost w.row fun _ t => t.row = w.row ∧ t.Written state.phase settings.sessionStateTtlSeconds) := by
  refine lost_then (ends_saveState state _) fun _ t ht => ?_
  rw [← ht.1]
  refine lost_mono ends_recordHeartbeat fun _ u hu => ?_
  obtain ⟨hrow,found,hfound,hwritten⟩ := hu
  rw [ht.2.1] at hfound
  cases hfound
  exact ⟨hrow,hwritten⟩

/-- The document found, or the one written for the status of the row. -/
structure World.Reconciled (settings : Settings) (status : SessionStatus) (w : World) (state : SessionState)
    (t : World) : Prop where
  row : t.row = w.row
  written : Shrinks w t ∧ t.keys.state = some state ∨
    t.Written state.phase settings.sessionStateTtlSeconds ∧ state.phase = phaseForStatus status

theorem ends_ensureEphemeralState (session : SessionRow) :
    Ends handle w (SessionManager.ensureEphemeralState settings session)
      (lost w.row (Reconciled settings session.status w)) := by
  refine lost_then ends_getStateOrNone fun reply t ht => ?_
  cases reply with
  | some state => exact ends_pure ⟨ht.1.row,.inl ht⟩
  | none =>
    dsimp only
    split
    · exact ends_raise ⟨ht.2,ht.1.row⟩
    · rw [← ht.1.row]
      refine lost_then (ends_writeEphemeralState _ _) fun _ u hu => ?_
      exact ends_pure ⟨hu.1.trans ht.1.row,.inr ⟨hu.2,rfl⟩⟩

theorem ends_loadOrReconcileState : Ends handle w (SessionManager.loadOrReconcileState settings)
    (lost w.row (Reconciled settings w.row.status w)) := by
  refine lost_then ends_getStateOrNone fun reply t ht => ?_
  cases reply with
  | some state => exact ends_pure ⟨ht.1.row,.inl ht⟩
  | none =>
    refine lost_then ends_get fun row u hu => ?_
    obtain ⟨rfl,hu⟩ := hu
    have hseen := ht.1.trans hu
    rw [← hseen.row,← hu.row]
    refine lost_mono (ends_ensureEphemeralState u.row) fun state v hv => ?_
    refine ⟨hv.row.trans hseen.row,?_⟩
    rcases hv.written with ⟨hshrinks,hstate⟩ | hwritten
    · exact .inl ⟨hseen.trans hshrinks,hstate⟩
    · exact .inr hwritten

/-! What the operations of the session manager leave -/

/-- Why a document may have a phase: the status of the row, or the document before. -/
def World.Accounts (w : World) (phase : SessionPhase) : Prop :=
  phase = phaseForStatus w.row.status ∨ ∃ state, w.keys.state = some state ∧ state.phase = phase

/-- What an operation that returns leaves, if it is called to write the phase `turn` or to set the status `enter`. -/
inductive World.After (settings : Settings) (turn : Option SessionPhase) (enter : Option SessionStatus) (w t : World) :
    Prop
  | shrinks (h : Shrinks w t)
  | written (phase : SessionPhase) (row : t.row = w.row) (h : t.Written phase settings.sessionStateTtlSeconds)
      (why : w.Accounts phase ∨ turn = some phase)
  | entered (status : SessionStatus) (row : t.row = (w.withStatus status).row)
      (h : t.Written (phaseForStatus status) settings.sessionStateTtlSeconds) (why : enter = some status)

/-- An exception leaves the document as it was, or none. -/
def World.Leaves (settings : Settings) (turn : Option SessionPhase) (enter : Option SessionStatus) (w : World) :
    Except Err α → World → Prop
  | .ok _,t => After settings turn enter w t
  | .error _,t => t.Gone ∨ Shrinks w t

section calls
variable {turn : Option SessionPhase} {enter : Option SessionStatus}

theorem World.Rewritten.after {t : World} (h : Rewritten settings w t) : After settings turn enter w t := by
  obtain ⟨hrow,state,hstate,hwritten⟩ := h
  exact .written state.phase hrow hwritten (.inl (.inr ⟨state,hstate,rfl⟩))

theorem World.Written.not_gone {t : World} {phase : SessionPhase} {ttl : Nat} (h : t.Written phase ttl) : ¬t.Gone := by
  intro hgone
  obtain ⟨⟨state,hstate,-⟩,-⟩ := h
  rw [hgone] at hstate
  cases hstate

/-- A program whose exceptions leave no document. -/
theorem leaves_of_lost {r : SessionRow} {q : α → World → Prop} {p : Action α} (hp : Ends handle w p (lost r q))
    (hq : ∀ a t, q a t → After settings turn enter w t) : Ends handle w p (Leaves settings turn enter w) := by
  refine ends_mono hp fun reply t h => ?_
  cases reply with
  | ok a => exact hq a t h
  | error e => exact .inl h.1

theorem leaves_discard {p : Action α} (hp : Ends handle w p (Leaves settings turn enter w)) :
    Ends handle w (discard p) (Leaves settings turn enter w) := by
  apply ends_discard
  refine ends_mono hp fun reply t h => ?_
  cases reply with
  | ok a => exact h
  | error e => exact h

theorem World.Reconciled.accounts {state : SessionState} {t : World} (h : Reconciled settings w.row.status w state t) :
    w.Accounts state.phase := by
  rcases h.written with ⟨hshrinks,hstate⟩ | ⟨-,hphase⟩
  · exact .inr ⟨state,hshrinks.state state hstate,rfl⟩
  · exact .inl hphase

variable (settings) in
/-- The status is set, and a document with its phase is written. -/
theorem ends_enter (status : SessionStatus) (change : SessionState → SessionState)
    (hphase : ∀ state, (change state).phase = phaseForStatus status) :
    Ends handle w (do
      discard (SessionRepository.updateStatus status)
      let state ← SessionManager.loadOrReconcileState settings
      SessionManager.writeEphemeralState settings (change state) status : Action Unit)
      (lost (w.withStatus status).row fun _ t => t.row = (w.withStatus status).row ∧
        t.Written (phaseForStatus status) settings.sessionStateTtlSeconds) := by
  have hset : Ends handle w (discard (SessionRepository.updateStatus status) : Action PUnit)
      (lost (w.withStatus status).row fun _ t => Shrinks (w.withStatus status) t) :=
    lost_then (ends_updateStatus status) fun _ _ h => ends_pure h.2
  refine lost_then hset fun _ t ht => ?_
  rw [← ht.row]
  refine lost_then ends_loadOrReconcileState fun state u hu => ?_
  rw [← hu.row]
  refine lost_mono (ends_writeEphemeralState (change state) status) fun _ v hv => ?_
  rw [hphase state] at hv
  exact hv

theorem leaves_enter (status : SessionStatus) (change : SessionState → SessionState)
    (hphase : ∀ state, (change state).phase = phaseForStatus status) :
    Ends handle w (do
      discard (SessionRepository.updateStatus status)
      let state ← SessionManager.loadOrReconcileState settings
      SessionManager.writeEphemeralState settings (change state) status : Action Unit)
      (Leaves settings turn (some status) w) :=
  leaves_of_lost (ends_enter settings status change hphase) fun _ _ h => .entered status h.1 h.2 rfl

theorem leaves_updatePhase (phase : SessionPhase) :
    Ends handle w (StateStore.updatePhase settings phase) (Leaves settings (some phase) enter w) :=
  leaves_of_lost (ends_updatePhase phase) fun _ _ h => .written phase h.1 h.2 (.inr rfl)

theorem leaves_setInterrupt (value : Bool) :
    Ends handle w (StateStore.setInterrupt settings value) (Leaves settings turn enter w) :=
  leaves_of_lost (ends_setInterrupt value) fun _ _ h => h.after

theorem leaves_recordHeartbeat : Ends handle w (StateStore.recordHeartbeat settings) (Leaves settings turn enter w) :=
  leaves_of_lost ends_recordHeartbeat fun _ _ h => h.after

/-- A document was written last, with a phase for which `w` accounts. -/
def World.Carried (settings : Settings) (w t : World) : Prop :=
  t.row = w.row ∧ ∃ phase, w.Accounts phase ∧ t.Written phase settings.sessionStateTtlSeconds

theorem leaves_trackToolFailures (failedCount : Int) :
    Ends handle w (SessionManager.trackToolFailures settings failedCount) (Leaves settings turn enter w) := by
  refine leaves_of_lost (r := w.row) (q := fun _ t => Carried settings w t) ?_ ?_
  · refine lost_then ends_loadOrReconcileState fun state t ht => ?_
    refine lost_then ends_get fun row u hu => ?_
    have hrow : u.row = w.row := hu.2.row.trans ht.row
    rw [← hrow]
    refine lost_then (ends_writeEphemeralState _ _) fun _ v hv => ?_
    rw [hrow]
    exact ends_pure ⟨hv.1.trans hrow,state.phase,ht.accounts,hv.2⟩
  · rintro _ t ⟨hrow,phase,hphase,hwritten⟩
    exact .written phase hrow hwritten (.inl hphase)

theorem leaves_getSessionConfig : Ends handle w SessionManager.getSessionConfig (Leaves settings turn enter w) := by
  refine leaves_of_lost (r := w.row) (q := fun _ t => Shrinks w t) ?_ fun _ t h => .shrinks h
  refine lost_then ends_getStateOrNone fun reply t ht => ?_
  cases reply with
  | some state => exact ends_pure ht.1
  | none => exact lost_then ends_get fun row u hu => ends_pure (ht.1.trans hu.2)

/-- Activation leaves an active session as it is, document or none; any other that it returns
has its document. -/
theorem leaves_activateSession (turn : Option SessionPhase) : Ends handle w (SessionManager.activateSession settings) fun r t =>
    Leaves settings turn (some .active) w r t ∧ (r.isOk = true → t.Gone → w.row.status = .active) := by
  refine ends_then (ends_get (r := w.row)) (fun e t h => ⟨.inl h.1,fun hok => by cases hok⟩) fun session t ht => ?_
  obtain ⟨rfl,hshrinks⟩ := ht
  split
  · next hactive => exact ends_pure ⟨.shrinks hshrinks,fun _ _ => hactive⟩
  · split
    · exact ends_raise ⟨.inr hshrinks,fun hok => by cases hok⟩
    · have hlisten : Ends handle t (do
          let session ← SessionRepository.updateStatus .active
          discard (SessionManager.ensureEphemeralState settings session)
          discard (StateStore.updatePhase settings .listening)
          return session : Action SessionRow) (lost (t.withStatus .active).row fun _ u =>
            u.row = (t.withStatus .active).row ∧ u.Written .listening settings.sessionStateTtlSeconds) := by
        refine lost_then (ends_updateStatus .active) fun session u hu => ?_
        rw [← hu.2.row]
        have hensure : Ends handle u (discard (SessionManager.ensureEphemeralState settings session) : Action PUnit)
            (lost u.row fun _ v => v.row = u.row) :=
          lost_then (ends_ensureEphemeralState session) fun _ _ h => ends_pure h.row
        refine lost_then hensure fun _ v hv => ?_
        have hphase : Ends handle v (discard (StateStore.updatePhase settings .listening) : Action PUnit)
            (lost v.row fun _ x => x.row = v.row ∧ x.Written .listening settings.sessionStateTtlSeconds) :=
          lost_then (ends_updatePhase .listening) fun _ _ h => ends_pure h
        rw [← hv]
        exact lost_then hphase fun _ x hx => ends_pure hx
      have hrow : (t.withStatus .active).row = (w.withStatus .active).row :=
        congrArg (fun row : SessionRow => { row with status := .active }) hshrinks.row
      refine ends_mono hlisten fun r u hu => ?_
      cases r with
      | error e => exact ⟨.inl hu.1,fun hok => by cases hok⟩
      | ok session => exact ⟨.entered .active (hu.1.trans hrow) hu.2 rfl,fun _ hgone => (hu.2.not_gone hgone).elim⟩

/-- Nothing but the phase of a document is carried to the last write of a resumption. -/
structure World.Carries (w : World) (phase : SessionPhase) (t : World) : Prop where
  row : t.row = w.row
  accounts : w.Accounts phase
  state : ∀ state, t.keys.state = some state → state.phase = phase

theorem World.Carries.of_state {t : World} {state : SessionState} (hrow : t.row = w.row)
    (haccounts : w.Accounts state.phase) (hstate : t.keys.state = some state) : Carries w state.phase t := by
  refine ⟨hrow,haccounts,fun other hother => ?_⟩
  rw [hstate] at hother
  cases hother
  rfl

theorem World.Written.carries {t : World} {phase : SessionPhase} {ttl : Nat} (h : t.Written phase ttl)
    (hrow : t.row = w.row) (haccounts : w.Accounts phase) : Carries w phase t := by
  obtain ⟨⟨state,hstate,rfl⟩,-⟩ := h
  exact .of_state hrow haccounts hstate

theorem World.Reconciled.carries {t u : World} {state : SessionState} (hu : Shrinks w t)
    (h : Reconciled settings t.row.status t state u) : Carries w state.phase u := by
  have haccounts : w.Accounts state.phase := by
    rcases h.accounts with hphase | ⟨old,hold,hphase⟩
    · exact .inl (hu.row ▸ hphase)
    · exact .inr ⟨old,hu.state old hold,hphase⟩
  have hrow : u.row = w.row := h.row.trans hu.row
  rcases h.written with ⟨-,hstate⟩ | ⟨hwritten,-⟩
  · exact .of_state hrow haccounts hstate
  · exact hwritten.carries hrow haccounts

theorem carried_recordHeartbeat {t : World} {phase : SessionPhase} (h : Carries w phase t) :
    Ends handle t (do
      StateStore.recordHeartbeat settings
      return w.row : Action SessionRow) (lost w.row fun _ u => Carried settings w u) := by
  rw [← h.row]
  refine lost_then ends_recordHeartbeat fun _ u hu => ends_pure ?_
  obtain ⟨hrow,state,hstate,hwritten⟩ := hu
  rw [h.state state hstate] at hwritten
  exact ⟨hrow.trans h.row,phase,h.accounts,hwritten⟩

/-- The sequence number is raised first where the client's is ahead. -/
theorem carried_sequence {t : World} {state : SessionState} (lastSequence : Int) (h : Carries w state.phase t) :
    Ends handle t (if state.sequence < lastSequence then do
        SessionManager.writeEphemeralState settings { state with sequence := lastSequence } w.row.status
        StateStore.recordHeartbeat settings
        return w.row
      else do
        StateStore.recordHeartbeat settings
        return w.row : Action SessionRow) (lost w.row fun _ u => Carried settings w u) := by
  split
  · rw [← h.row]
    refine lost_then (ends_writeEphemeralState _ _) fun _ u hu => ?_
    rw [h.row] at hu ⊢
    exact carried_recordHeartbeat (hu.2.carries hu.1 h.accounts)
  · exact carried_recordHeartbeat h

theorem carries_ensureEphemeralState {t : World} (h : Shrinks w t) :
    Ends handle t (discard (SessionManager.ensureEphemeralState settings w.row) : Action PUnit)
      (lost w.row fun _ u => ∃ phase, Carries w phase u) := by
  rw [← h.row]
  refine lost_then (ends_ensureEphemeralState t.row) fun state u hu => ends_pure ?_
  exact ⟨state.phase,hu.carries h⟩

/-- Resuming always leaves a document when it returns. -/
theorem leaves_resumeSession (turn : Option SessionPhase) (enter : Option SessionStatus) (lastSequence : Int) :
    Ends handle w (SessionManager.resumeSession settings lastSequence) fun r t =>
      Leaves settings turn enter w r t ∧ (r.isOk = true → ¬t.Gone) := by
  refine ends_then (ends_get (r := w.row)) (fun e t h => ⟨.inl h.1,fun hok => by cases hok⟩) fun session t ht => ?_
  obtain ⟨rfl,hshrinks⟩ := ht
  split
  · exact ends_raise ⟨.inr hshrinks,fun hok => by cases hok⟩
  · refine ends_mono (?_ : Ends handle t _ (lost w.row fun _ v => Carried settings w v)) fun r v hv => ?_
    · refine lost_then ends_getStateOrNone fun reply u hu => ?_
      have hseen := hshrinks.trans hu.1
      cases reply with
      | some state =>
        have haccounts : w.Accounts state.phase := .inr ⟨state,hseen.state state hu.2,rfl⟩
        exact carried_sequence lastSequence (.of_state hseen.row haccounts hu.2)
      | none =>
        refine lost_then (carries_ensureEphemeralState hseen) fun _ v hv => ?_
        obtain ⟨phase,hcarries⟩ := hv
        rw [← hcarries.row]
        refine lost_then ends_getState fun state x hx => ?_
        rw [hcarries.row]
        have haccounts : w.Accounts state.phase := by
          rw [hcarries.state state (hx.1.state state hx.2)]
          exact hcarries.accounts
        exact carried_sequence lastSequence (.of_state (hx.1.row.trans hcarries.row) haccounts hx.2)
    · cases r with
      | error e => exact ⟨.inl hv.1,fun hok => by cases hok⟩
      | ok row =>
        obtain ⟨hrow,phase,hphase,hwritten⟩ := hv
        exact ⟨.written phase hrow hwritten (.inl hphase),fun _ => hwritten.not_gone⟩

end calls
end VoxForge.Sessions
