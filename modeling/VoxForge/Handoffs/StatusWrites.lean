import VoxForge.Handoffs.Discipline
import VoxForge.Handoffs.Operations

/-! What the operations that touch one session make of its status: which of them look
for a terminal status first, and what each of them writes. -/
namespace VoxForge.Handoffs
open Foundation Core Persistence Sessions Prog

/-- The operations of the session manager and of handoffs that touch one session. -/
inductive SessionOperation where
  | activateSession
  | resumeSession (lastSequence : Int)
  | endSession
  | applyHandoffPending (context : HandoffContext)
  | applyHandoffActive (handoffId : HandoffId)
  | clearHandoff
  | trackToolFailures (failedCount : Int)
  | handoff (operation : Operation)
  deriving DecidableEq, Repr

def SessionOperation.program (settings : HandoffOrchestrator.Settings) : SessionOperation → Action Unit
  | activateSession => discard (SessionManager.activateSession settings.toSettings)
  | resumeSession lastSequence => discard (SessionManager.resumeSession settings.toSettings lastSequence)
  | endSession => discard SessionManager.endSession
  | applyHandoffPending context => SessionManager.applyHandoffPending settings.toSettings context
  | applyHandoffActive handoffId => SessionManager.applyHandoffActive settings.toSettings handoffId
  | clearHandoff => SessionManager.clearHandoff settings.toSettings
  | trackToolFailures failedCount =>
    discard (SessionManager.trackToolFailures settings.toSettings failedCount)
  | handoff operation => operation.program settings

/-- The operations that look for a terminal status before they write. -/
def SessionOperation.checks : SessionOperation → Bool
  | activateSession | resumeSession _ | endSession => true
  | _ => false

def setsStatus : Write → Bool
  | .sessionStatus _ | .sessionEnded _ _ => true
  | _ => false

/-! What the writes of a transaction make of the end of the row -/

def endOf (t : Tables) : SessionStatus × Option Time := (t.session.status,t.session.endedAt)

def actOnEnd (row : SessionStatus × Option Time) : Write → SessionStatus × Option Time
  | .sessionStatus status => (status,row.2)
  | .sessionEnded status endedAt => (status,some endedAt)
  | _ => row

theorem endOf_apply (t : Tables) (w : Write) : endOf (w.apply t) = actOnEnd (endOf t) w := by
  cases w <;> rfl

theorem endOf_foldl (t : Tables) (writes : List Write) :
    endOf (writes.foldl Write.apply t) = (writes.filter setsStatus).foldl actOnEnd (endOf t) := by
  induction writes generalizing t with
  | nil => rfl
  | cons w writes ih =>
    rw [List.foldl_cons,ih,endOf_apply]
    cases w <;> rfl

/-- The status that a statement sets. -/
def statusWrites : Op → List Write
  | .updateSessionStatus status => [.sessionStatus status]
  | .updateSessionEnded status endedAt => [.sessionEnded status endedAt]
  | _ => []

theorem filter_perform (answers : Answers) (t : Tables) (keys : Keys) (o : Op) :
    (Persistence.perform answers t keys o).2.1.filter setsStatus = statusWrites o := by
  cases o with
  | insertHandoff record =>
    simp only [Persistence.perform]
    split <;> rfl
  | updateHandoff id orgId allowedFrom update =>
    simp only [Persistence.perform]
    split <;> rfl
  | insertSnapshot snapshot =>
    simp only [Persistence.perform]
    split <;> rfl
  | _ => rfl

/-! Which statuses the operations set -/

/-- The ways in which an operation sets the status: `end_session` ends the row once, every other
operation makes it not terminal. -/
def Sets (kind : SessionOperation) (writes : List Write) : Prop :=
  if kind = .endSession then writes = [] ∨ ∃ t, writes = [.sessionEnded .completed t]
  else ∀ w ∈ writes, ∃ status : SessionStatus, w = .sessionStatus status ∧ status.terminal = false

/-- Followed by the status writes so far. -/
def statusDiscipline (kind : SessionOperation) : Discipline Op Reply Err (List Write) where
  allowed writes o := Sets kind (writes ++ statusWrites o)
  possible _ _ := True
  after writes o r := match r with
    | .ok _ => writes ++ statusWrites o
    | .error _ => writes

theorem wp_ordinary {kind : SessionOperation} (hkind : kind ≠ .endSession) {p : Action Unit}
    (hp : Performs Ordinary p) : wp (statusDiscipline kind) [] p fun _ _ => True := by
  have hkeeps : Keeps (statusDiscipline kind) (Sets kind) p := by
    refine keeps_of_performs hp fun o writes ho hwrites => ?_
    have hnext : Sets kind (writes ++ statusWrites o) := by
      unfold Sets at hwrites ⊢
      rw [if_neg hkind] at hwrites ⊢
      intro w hw
      rcases List.mem_append.mp hw with hw | hw
      · exact hwrites w hw
      · cases o with
        | updateSessionStatus status => exact ⟨status,List.mem_singleton.mp hw,ho⟩
        | updateSessionEnded status endedAt => exact ho.elim
        | _ => cases hw
    refine ⟨hnext,fun r _ => ?_⟩
    cases r with
    | ok a => exact hnext
    | error e => exact hwrites
  refine wp_mono (hkeeps [] ?_) fun _ _ _ => trivial
  unfold Sets
  rw [if_neg hkind]
  simp

def Silent (o : Op) : Prop := statusWrites o = []

theorem silent_execute {o : Op} (h : Silent o) : Performs Silent (execute o) := performs_perform h

theorem silent_bestEffortDeleteRedis : Performs Silent SessionManager.bestEffortDeleteRedis := by
  refine performs_tryCatch (performs_bind (silent_execute (o := .deleteState) rfl) fun _ => trivial) fun e => ?_
  split <;> trivial

theorem wp_silent {kind : SessionOperation} {writes : List Write} {α : Type} {p : Action α}
    (hp : Performs Silent p) (hwrites : Sets kind writes) :
    wp (statusDiscipline kind) writes p (returns fun writes' _ => writes' = writes) := by
  refine wp_mono (wp_of_performs hp fun o ho => ?_) fun writes' r hr => ?_
  · have hnone : writes ++ statusWrites o = writes := by rw [show statusWrites o = [] from ho,List.append_nil]
    refine ⟨?_,fun r => ?_⟩
    · show Sets kind (writes ++ statusWrites o)
      rw [hnone]
      exact hwrites
    · cases r with
      | ok a => exact hnone
      | error e => rfl
  · cases r with
    | ok a => exact hr
    | error e => trivial

theorem silent_get : Performs Silent (SessionRepository.get none) := performs_get (show Silent .selectSession from rfl) none

/-- A session is ended by one `UPDATE`, and not at all where the row is terminal. -/
theorem wp_repositoryEndSession :
    wp (statusDiscipline .endSession) [] (SessionRepository.endSession .completed)
      (returns fun writes _ => Sets .endSession writes) := by
  have hstart : Sets .endSession [] := .inl rfl
  refine wp_then (wp_silent silent_get hstart) fun writes row hwrites => ?_
  subst hwrites
  split
  · exact hstart
  · refine wp_then (wp_silent (silent_execute (o := .now) rfl) hstart) fun writes now hwrites => ?_
    subst hwrites
    have hended : Sets .endSession [.sessionEnded .completed now] := .inr ⟨now,rfl⟩
    have hupdate : wp (statusDiscipline .endSession) [] (execute (.updateSessionEnded .completed now))
        (returns fun writes _ => writes = [.sessionEnded .completed now]) := by
      refine (wp_perform _ _).mpr ⟨hended,fun r _ => ?_⟩
      cases r with
      | ok a => rfl
      | error e => trivial
    refine wp_then hupdate fun writes _ hwrites => ?_
    subst hwrites
    exact wp_returns_mono (wp_silent silent_get hended) fun _ _ hwrites => hwrites ▸ hended

theorem wp_endSession :
    wp (statusDiscipline .endSession) [] (discard SessionManager.endSession) (returns fun _ _ => True) := by
  have hstart : Sets .endSession [] := .inl rfl
  refine wp_discard (wp_then (wp_silent silent_get hstart) fun writes session hwrites => ?_)
  subst hwrites
  split
  · exact wp_then (wp_silent (performs_discard silent_bestEffortDeleteRedis) hstart) fun _ _ _ => trivial
  · refine wp_then wp_repositoryEndSession fun writes ended hwrites => ?_
    exact wp_then (wp_silent (performs_discard silent_bestEffortDeleteRedis) hwrites) fun _ _ _ => trivial

/-- Whatever it is answered, an operation sets the status in its way. -/
theorem sets_program (settings : HandoffOrchestrator.Settings) (kind : SessionOperation) :
    wp (statusDiscipline kind) [] (kind.program settings) fun _ _ => True := by
  cases kind with
  | endSession => exact wp_mono wp_endSession fun _ _ _ => trivial
  | activateSession => exact wp_ordinary (by simp) (performs_discard (ordinary_own own_activateSession))
  | resumeSession lastSequence =>
    exact wp_ordinary (by simp) (performs_discard (ordinary_own (own_resumeSession lastSequence)))
  | applyHandoffPending context => exact wp_ordinary (by simp) (ordinary_own (own_applyHandoffPending context))
  | applyHandoffActive handoffId => exact wp_ordinary (by simp) (ordinary_own (own_applyHandoffActive handoffId))
  | clearHandoff => exact wp_ordinary (by simp) (ordinary_own own_clearHandoff)
  | trackToolFailures failedCount =>
    exact wp_ordinary (by simp) (performs_discard (ordinary_own (own_trackToolFailures failedCount)))
  | handoff operation =>
    refine wp_ordinary (by simp) ?_
    cases operation with
    | initiateHandoff req => exact performs_discard (ordinary_initiateHandoff req)
    | acceptHandoff id orgId userId => exact performs_discard (ordinary_acceptHandoff id orgId userId)
    | completeHandoff id orgId resolution => exact performs_discard (ordinary_completeHandoff id orgId resolution)
    | cancelHandoff id orgId => exact performs_discard (ordinary_cancelHandoff id orgId)

/-- An operation that is answered terminal rows and sets no status. -/
def alertDiscipline : Discipline Op Reply Err Unit where
  allowed _ o := Silent o
  possible
    | .selectSession,.ok (reply : Option SessionRow) => ∃ row, reply = some row ∧ row.status.terminal
    | _,_ => True
  after _ _ _ := ()

theorem alert_silent {α : Type} {p : Action α} (hp : Performs Silent p) :
    wp alertDiscipline () p (returns fun _ _ => True) := by
  refine wp_mono (wp_of_performs hp fun o ho => ⟨ho,fun _ => rfl⟩) fun _ r _ => ?_
  cases r <;> trivial

theorem alert_get : wp alertDiscipline () (SessionRepository.get none) (returns fun _ row => row.status.terminal) := by
  have hselect : wp alertDiscipline () (execute .selectSession) (returns fun _ (reply : Option SessionRow) =>
      ∃ row, reply = some row ∧ row.status.terminal) := by
    refine (wp_perform _ _).mpr ⟨rfl,fun r hr => ?_⟩
    cases r with
    | ok reply => exact hr
    | error e => trivial
  refine wp_then hselect fun _ reply hreply => ?_
  obtain ⟨row,rfl,hrow⟩ := hreply
  simpa using hrow

/-- The operations that check leave a session alone that had ended when they began. -/
theorem alert_program (settings : HandoffOrchestrator.Settings) {kind : SessionOperation} (hkind : kind.checks) :
    wp alertDiscipline () (kind.program settings) (returns fun _ _ => True) := by
  cases kind with
  | activateSession =>
    refine wp_discard (wp_then alert_get fun _ session hterminal => ?_)
    split <;> trivial
  | resumeSession lastSequence =>
    refine wp_discard (wp_then alert_get fun _ session hterminal => ?_)
    simp [hterminal]
  | endSession =>
    refine wp_discard (wp_then alert_get fun _ session hterminal => ?_)
    rw [if_pos hterminal]
    exact wp_then (alert_silent (performs_discard silent_bestEffortDeleteRedis)) fun _ _ _ => trivial
  | _ => cases hkind

end VoxForge.Handoffs
