import VoxForge.Foundation.Runs
import VoxForge.Handoffs.Discipline
import VoxForge.Handoffs.Outcomes
import VoxForge.Pipeline.Turn

/-! The handoff record, the session row and the phase in Redis, over any sequence of
completed operations: when they agree, and which operations part them. -/
namespace VoxForge.Handoffs
open Foundation Core Persistence Sessions Prog Stores HandoffOrchestrator Pipeline

inductive CompletedOperation where
  | handoff (operation : Operation)
  | activateSession
  /-- A `start` message that names a session. -/
  | startResumed (orgId : OrgId) (lastSequence : Int)
  /-- `LiveKitSessionRunner.prepare`. -/
  | prepare (orgId : Option OrgId) (resume : Bool) (lastSequence : Int)
  | processTurn (turn : VoiceTurn)
  | endSession
  deriving DecidableEq, Repr

def startResumed (settings : HandoffOrchestrator.Settings) (orgId : OrgId) (lastSequence : Int) :
    Action Unit := do
  discard (SessionRepository.get (some orgId))
  discard (SessionManager.resumeSession settings.toSettings lastSequence)
  discard (SessionManager.activateSession settings.toSettings)

def prepare (settings : HandoffOrchestrator.Settings) (orgId : Option OrgId) (resume : Bool)
    (lastSequence : Int) : Action Unit := do
  if resume then
    discard (SessionManager.resumeSession settings.toSettings lastSequence)
  else
    discard (SessionRepository.get orgId)
    discard (SessionManager.activateSession settings.toSettings)

def CompletedOperation.program (settings : HandoffOrchestrator.Settings) :
    CompletedOperation → Action Unit
  | handoff operation => operation.program settings
  | activateSession => discard (SessionManager.activateSession settings.toSettings)
  | startResumed orgId lastSequence => Handoffs.startResumed settings orgId lastSequence
  | prepare orgId resume lastSequence => Handoffs.prepare settings orgId resume lastSequence
  | processTurn turn => Pipeline.processTurn settings turn
  | endSession => discard SessionManager.endSession

structure Label where
  operation : CompletedOperation
  answers : List Answers
  deriving DecidableEq, Repr

/-- One operation runs to its end and is committed; one that raises is not completed. -/
def step (settings : HandoffOrchestrator.Settings) (s : Stores) (l : Label) : Option Stores :=
  match exec handle (l.operation.program settings) { s with answers := l.answers } with
  | (.ok _,t) => some t
  | (.error _,_) => none

/-- A session as it is created, whatever its row and its keys hold besides. -/
def created (row : SessionRow) (keys : Keys) : Stores :=
  { tables := { session := { row with status := .created } }, keys }

structure Agree (s : Stores) : Prop where
  waiting : ∀ r ∈ s.tables.handoffs, waiting r.status → s.status.terminal = false →
    s.status = .handoffPending ∧ s.HasPhase .handoffPending
  active : ∀ r ∈ s.tables.handoffs, r.status = .active → s.status.terminal = false →
    s.status = .handoffActive ∧ s.HasPhase .handoffActive
  pending : s.status = .handoffPending → ∃ r ∈ s.tables.handoffs, Handoffs.waiting r.status
  handedOver : s.status = .handoffActive → ∃ r ∈ s.tables.handoffs, r.status = .active

def inHandoff (status : SessionStatus) : Bool := status ∈ [.handoffPending,.handoffActive]

def hasOpen (s : Stores) : Bool := s.tables.handoffs.any fun r => r.status ∉ terminalHandoff

/-- Whether a turn asks for a handoff, by a tool or by the policy. -/
def initiates (turn : VoiceTurn) : Bool :=
  turn.orgId.isSome &&
    (turn.tools.any (fun arguments => strip arguments.reason ≠ "") ||
      turn.handoffEnabled && turn.escalation.isSome)

/-- The operations that keep the three stores in agreement: no activation of a session
that is handed over, no turn while a handoff is open, and no turn that opens one. -/
def keepsAgreement (s : Stores) : CompletedOperation → Bool
  | .activateSession | .startResumed _ _ | .prepare _ false _ => !inHandoff s.status
  | .processTurn turn => (!hasOpen s || s.status.terminal) && !(s.tables.handoffs = [] && initiates turn)
  | _ => true

variable {s t u : Stores} {settings : HandoffOrchestrator.Settings}

/-! What a turn does to the handoff: nothing, or it opens the first one. -/

def Opened (s t : Stores) (asked : Bool) : Prop :=
  if s.tables.handoffs = [] ∧ asked then
    ∃ r, t.tables.handoffs = [r] ∧ waiting r.status ∧ t.status = .handoffPending
  else t.tables.handoffs = s.tables.handoffs ∧ t.status = s.status

theorem opened_of_unasked (hhandoffs : t.tables.handoffs = s.tables.handoffs) (hstatus : t.status = s.status) :
    Opened s t false := by
  rw [Opened,if_neg (by simp)]
  exact ⟨hhandoffs,hstatus⟩

theorem opened_of_same (h : Same s t) : Opened s t false :=
  opened_of_unasked (by rw [h.tables]) (by rw [Stores.status,h.tables]; rfl)

theorem opened_of_keepsPhase (h : KeepsPhase s t) : Opened s t false :=
  opened_of_unasked (by rw [h.tables]) (by rw [Stores.status,h.tables]; rfl)

theorem Opened.trans {i j : Bool} (h : Opened s t i) (h' : Opened t u j) : Opened s u (i || j) := by
  unfold Opened at *
  by_cases hnone : s.tables.handoffs = []
  · cases i with
    | true =>
      rw [if_pos ⟨hnone,rfl⟩] at h
      obtain ⟨r,hone,hwait,hstatus⟩ := h
      rw [if_neg (by simp [hone])] at h'
      rw [if_pos ⟨hnone,by simp⟩]
      exact ⟨r,by rw [h'.1,hone],hwait,h'.2.trans hstatus⟩
    | false =>
      rw [if_neg (by simp)] at h
      rw [h.1,h.2] at h'
      simpa using h'
  · rw [if_neg (by simp [hnone])] at h ⊢
    rw [if_neg (by simp [h.1,hnone])] at h'
    exact ⟨h'.1.trans h.1,h'.2.trans h.2⟩

theorem settles_initiateHandoff (req : Initiation) :
    Settles handle s (discard (initiateHandoff settings req) : Action Unit) fun _ t => Opened s t true := by
  by_cases hnone : s.tables.handoffs = []
  · refine settles_discard (settles_mono (finishes_initiateHandoff settings _ hnone).settles fun _ t ht => ?_)
    rw [Opened,if_pos ⟨hnone,rfl⟩]
    obtain ⟨r,hone,hwait,hstatus,-⟩ := ht
    exact ⟨r,hone,hwait,hstatus⟩
  · intro a t ht
    have hsame := initiateHandoff_again settings req hnone
    rw [← exec_discard_state,ht] at hsame
    rw [Opened,if_neg (by simp [hnone])]
    exact ⟨by rw [hsame.tables],by rw [Stores.status,hsame.tables]; rfl⟩

theorem settles_executeTool (orgId : Option OrgId) (arguments : HandoffArguments) :
    Settles handle s (executeTool (invokeHandoffTool settings orgId arguments)) fun _ t =>
      Opened s t (orgId.isSome && strip arguments.reason ≠ "") := by
  have hhandler (e : Err) {t : Stores} {q : Unit → Stores → Prop} (hq : q () t) :
      Settles handle t (if e = .cancelled then .raise e else return () : Action Unit) q := by
    split
    · exact settles_raise
    · exact settles_pure hq
  cases orgId with
  | none =>
    refine settles_tryCatch settles_raise fun e t ht => hhandler e ?_
    cases ht
    exact opened_of_unasked rfl rfl
  | some orgId =>
    by_cases hreason : strip arguments.reason = ""
    · have hraise : invokeHandoffTool settings (some orgId) arguments =
          .raise (.value "reason is required") := if_pos hreason
      rw [hraise]
      refine settles_tryCatch settles_raise fun e t ht => hhandler e ?_
      cases ht
      simpa [hreason] using opened_of_unasked rfl rfl
    · have hinvoke : invokeHandoffTool settings (some orgId) arguments =
          discard (initiateHandoff settings {
            orgId
            trigger := .agentExplicit
            reason := strip arguments.reason
            customerEmail := arguments.customerEmail
            priority := arguments.priority }) := if_neg hreason
      rw [hinvoke]
      simp only [Option.isSome_some,ne_eq,hreason,not_false_eq_true,decide_true,Bool.and_self]
      refine settles_tryCatch (settles_initiateHandoff _) fun e t ht => hhandler e ?_
      by_cases hnone : s.tables.handoffs = []
      · -- the first initiation does not raise
        obtain ⟨a,t',ht',-⟩ := finishes_discard (q := fun _ => True) (finishes_mono
          (finishes_initiateHandoff settings _ hnone) fun _ _ _ => trivial)
        rw [ht'] at ht
        cases ht
      · have hsame := initiateHandoff_again settings {
            orgId
            trigger := .agentExplicit
            reason := strip arguments.reason
            customerEmail := arguments.customerEmail
            priority := arguments.priority } hnone
        rw [← exec_discard_state,ht] at hsame
        rw [Opened,if_neg (by simp [hnone])]
        exact ⟨by rw [hsame.tables],by rw [Stores.status,hsame.tables]; rfl⟩

theorem settles_runTools (orgId : Option OrgId) (tools : List HandoffArguments) :
    Settles handle s (runTools settings orgId tools) fun _ t =>
      Opened s t (orgId.isSome && tools.any fun arguments => strip arguments.reason ≠ "") := by
  induction tools generalizing s with
  | nil => exact settles_pure (by simpa using opened_of_unasked rfl rfl)
  | cons arguments rest ih =>
    refine settles_then (settles_executeTool orgId arguments) fun _ t ht => ?_
    refine settles_mono ih fun _ u hu => ?_
    have hboth := ht.trans hu
    rwa [← Bool.and_or_distrib_left] at hboth

theorem settles_getSessionConfig :
    Settles handle s SessionManager.getSessionConfig fun _ t => Same s t := by
  refine settles_then finishes_getStateOrNone.settles fun reply t ht => ?_
  obtain ⟨-,hsame⟩ := ht
  cases reply with
  | some state => exact settles_pure hsame
  | none => exact settles_then finishes_get.settles fun _ u hu => settles_pure (hsame.trans hu.2)

theorem settles_escalate (turn : VoiceTurn) :
    Settles handle s (escalate settings turn) fun _ t =>
      Opened s t (turn.orgId.isSome && (turn.handoffEnabled && turn.escalation.isSome)) := by
  unfold escalate
  cases horg : turn.orgId with
  | none => exact settles_pure (by simpa using opened_of_unasked rfl rfl)
  | some orgId =>
    dsimp only
    cases henabled : turn.handoffEnabled with
    | false => exact settles_pure (by simpa using opened_of_unasked rfl rfl)
    | true =>
      refine settles_then (settles_discard settles_getSessionConfig) fun _ t ht => ?_
      refine settles_then (settles_discard (settles_trackToolFailures _)) fun _ u hu => ?_
      have hbefore : Opened s u false := (opened_of_same ht).trans (opened_of_keepsPhase hu)
      cases hescalation : turn.escalation with
      | none => exact settles_pure (by simpa using hbefore)
      | some decision =>
        refine settles_mono (settles_initiateHandoff _) fun _ v hv => ?_
        simpa using hbefore.trans hv

theorem finishes_insertMessage (message : Message) :
    Finishes handle s (execute (.insertMessage message)) fun _ t => Aside s t :=
  finishes_aside fun _ => ⟨_,rfl,rfl,rfl,rfl⟩

theorem Aside.opened (h : Aside s t) : Opened s t false :=
  opened_of_unasked h.handoffs (by rw [Stores.status,h.session]; rfl)

theorem settles_phase (phase : SessionPhase) :
    Settles handle s (discard (StateStore.updatePhase settings.toSettings phase) : Action Unit) fun _ t =>
      Opened s t false ∧ t.HasPhase phase :=
  settles_discard (settles_mono (settles_updatePhase phase) fun _ _ ht =>
    ⟨opened_of_unasked (by rw [ht.1]) (by rw [Stores.status,ht.1]; rfl),ht.2⟩)

/-- A turn opens a handoff exactly if it asks for the first one, and leaves the session listening. -/
theorem settles_processTurn (turn : VoiceTurn) :
    Settles handle s (processTurn settings turn) fun _ t =>
      Opened s t (initiates turn) ∧ t.HasPhase .listening := by
  have hbefore : Settles handle s (turnBeforeCommit settings turn) fun _ t =>
      Opened s t (initiates turn) := by
    refine settles_then (settles_phase .processing) fun _ t1 h1 => ?_
    refine settles_then (finishes_insertMessage _).settles fun _ t2 h2 => ?_
    refine settles_then (settles_phase .speaking) fun _ t3 h3 => ?_
    refine settles_then (settles_discard settles_getSessionConfig) fun _ t4 h4 => ?_
    refine settles_then (settles_runTools turn.orgId turn.tools) fun _ t5 h5 => ?_
    have hheard : Opened s t4 false := ((h1.1.trans h2.opened).trans h3.1).trans (opened_of_same h4)
    have hescalate {v : Stores} (hv : Opened t5 v false) :
        Settles handle v (escalate settings turn) fun _ t => Opened s t (initiates turn) := by
      refine settles_mono (settles_escalate turn) fun _ w hw => ?_
      have hall := ((hheard.trans h5).trans hv).trans hw
      simpa [initiates,Bool.and_or_distrib_left] using hall
    split
    · exact settles_then (finishes_insertMessage _).settles fun _ v hv => hescalate hv.opened
    · exact hescalate (opened_of_unasked rfl rfl)
  refine settles_then hbefore fun _ t ht => ?_
  refine settles_then (settles_discard settles_clearInterrupt) fun _ u hu => ?_
  refine settles_mono (settles_phase .listening) fun _ v hv => ⟨?_,hv.2⟩
  have hall := (ht.trans (opened_of_keepsPhase hu)).trans hv.1
  simpa using hall

/-! Agreement of the stores. -/

theorem not_terminal_iff {status : HandoffStatus} :
    status ∉ terminalHandoff ↔ waiting status ∨ status = .active := by
  cases status <;> decide

theorem agree_of_same (h : s.Same t) (ha : Agree s) : Agree t := by
  obtain ⟨tables,keys,_⟩ := s
  obtain ⟨tables',keys',_⟩ := t
  obtain ⟨rfl,rfl⟩ := h
  exact ⟨ha.waiting,ha.active,ha.pending,ha.handedOver⟩

theorem agree_of_keepsPhase (h : s.KeepsPhase t) (ha : Agree s) : Agree t := by
  have hstatus : t.status = s.status := by rw [Stores.status,h.tables]; rfl
  refine ⟨fun r hr hw hl => ?_,fun r hr hw hl => ?_,fun hp => ?_,fun hp => ?_⟩
  · rw [h.tables] at hr
    rw [hstatus] at hl ⊢
    exact ⟨(ha.waiting r hr hw hl).1,h.phase _ (ha.waiting r hr hw hl).2⟩
  · rw [h.tables] at hr
    rw [hstatus] at hl ⊢
    exact ⟨(ha.active r hr hw hl).1,h.phase _ (ha.active r hr hw hl).2⟩
  · rw [h.tables]
    exact ha.pending (hstatus ▸ hp)
  · rw [h.tables]
    exact ha.handedOver (hstatus ▸ hp)

/-- One handoff and the status and phase that belong to it. -/
theorem agree_of_waiting {r : HandoffRecord} (hone : s.tables.handoffs = [r]) (hwait : waiting r.status)
    (hstatus : s.status = .handoffPending) (hphase : s.HasPhase .handoffPending) : Agree s := by
  refine ⟨fun _ _ _ _ => ⟨hstatus,hphase⟩,fun r' hr' ha => ?_,fun _ => ⟨r,by simp [hone],hwait⟩,
    fun hp => absurd (hstatus.symm.trans hp) (by decide)⟩
  rw [hone,List.mem_singleton] at hr'
  rw [← hr',ha] at hwait
  cases hwait

theorem agree_of_active {r : HandoffRecord} (hone : s.tables.handoffs = [r]) (hactive : r.status = .active)
    (hstatus : s.status = .handoffActive) (hphase : s.HasPhase .handoffActive) : Agree s := by
  refine ⟨fun r' hr' hw => ?_,fun _ _ _ _ => ⟨hstatus,hphase⟩,fun hp => absurd (hstatus.symm.trans hp) (by decide),
    fun _ => ⟨r,by simp [hone],hactive⟩⟩
  rw [hone,List.mem_singleton] at hr'
  rw [hr',hactive] at hw
  cases hw

/-- Without an open handoff, or with a terminal session, only the handoff statuses disagree. -/
theorem agree_of_settled (h : hasOpen s = false ∨ s.status.terminal) (hs : inHandoff s.status = false) :
    Agree s := by
  have hneither : s.status ≠ .handoffPending ∧ s.status ≠ .handoffActive := by
    simpa [inHandoff] using hs
  have hnone {r : HandoffRecord} (hr : r ∈ s.tables.handoffs) (hl : s.status.terminal = false)
      (ho : r.status ∉ terminalHandoff) : False := by
    rcases h with hclosed | hterm
    · exact absurd (List.any_eq_true.mpr ⟨r,hr,by simpa using ho⟩) (Bool.eq_false_iff.mp hclosed)
    · exact absurd (hl.symm.trans hterm) (by decide)
  exact ⟨fun r hr hw hl => (hnone hr hl (not_terminal_iff.mpr (.inl hw))).elim,
    fun r hr ha hl => (hnone hr hl (not_terminal_iff.mpr (.inr ha))).elim,
    fun hp => absurd hp hneither.1,fun hp => absurd hp hneither.2⟩

/-- An open handoff of a session that is not terminal shows in status and phase. -/
theorem not_agree {r : HandoffRecord} (hr : r ∈ s.tables.handoffs) (ho : r.status ∉ terminalHandoff)
    (hl : s.status.terminal = false) (h : inHandoff s.status = false ∨ s.HasPhase .listening) : ¬ Agree s := by
  intro ha
  have hshown : ∃ phase, (s.status = .handoffPending ∧ phase = SessionPhase.handoffPending ∨
      s.status = .handoffActive ∧ phase = SessionPhase.handoffActive) ∧ s.HasPhase phase := by
    rcases not_terminal_iff.mp ho with hw | hactive
    · obtain ⟨hstatus,hphase⟩ := ha.waiting r hr hw hl
      exact ⟨_,.inl ⟨hstatus,rfl⟩,hphase⟩
    · obtain ⟨hstatus,hphase⟩ := ha.active r hr hactive hl
      exact ⟨_,.inr ⟨hstatus,rfl⟩,hphase⟩
  obtain ⟨phase,hstatus,hphase⟩ := hshown
  rcases h with hnot | hlistening
  · rcases hstatus with ⟨hp,-⟩ | ⟨hp,-⟩ <;> simp [hp,inHandoff] at hnot
  · have hsame := hphase.unique hlistening
    rcases hstatus with ⟨-,hp⟩ | ⟨-,hp⟩ <;> simp [hp] at hsame

theorem exists_open {s : Stores} (h : hasOpen s = true) :
    ∃ r ∈ s.tables.handoffs, r.status ∉ terminalHandoff := by
  obtain ⟨r,hr,ho⟩ := List.any_eq_true.mp h
  exact ⟨r,hr,by simpa using ho⟩

/-- A session that is handed over has an open handoff, and only then if it is not terminal. -/
theorem Agree.hasOpen_iff (h : Agree s) (hl : s.status.terminal = false) :
    hasOpen s = inHandoff s.status := by
  cases hs : inHandoff s.status with
  | true =>
    have hor : s.status = .handoffPending ∨ s.status = .handoffActive := by simpa [inHandoff] using hs
    rcases hor with hp | hp
    · obtain ⟨r,hr,hw⟩ := h.pending hp
      exact List.any_eq_true.mpr ⟨r,hr,decide_eq_true (not_terminal_iff.mpr (.inl hw))⟩
    · obtain ⟨r,hr,hactive⟩ := h.handedOver hp
      exact List.any_eq_true.mpr ⟨r,hr,decide_eq_true (not_terminal_iff.mpr (.inr hactive))⟩
  | false =>
    by_contra hopen
    obtain ⟨r,hr,ho⟩ := exists_open (by simpa using hopen)
    exact not_agree hr ho hl (.inl hs) h

theorem terminal_of_inHandoff {status : SessionStatus} (h : inHandoff status = true) :
    status.terminal = false := by
  cases status <;> first | rfl | cases h

/-- Activating keeps agreement exactly if the session is not handed over. -/
theorem agree_activated_iff (ha : Agree s) (hu : s.KeepsPhase u)
    (ht : u.status.terminal = false ∧ (u.status = .active ∧ Same u t ∨
      u.status ≠ .active ∧ t.tables = withStatus u.tables .active ∧ t.HasPhase .listening)) :
    t.tables.handoffs = s.tables.handoffs ∧ (Agree t ↔ inHandoff s.status = false) := by
  have hstatus : u.status = s.status := by rw [Stores.status,hu.tables]; rfl
  obtain ⟨hl,⟨hactive,hsame⟩ | ⟨-,htables,hphase⟩⟩ := ht
  · refine ⟨by rw [hsame.tables,hu.tables],fun _ => ?_,fun _ => agree_of_same hsame (agree_of_keepsPhase hu ha)⟩
    rw [← hstatus,hactive]
    rfl
  · rw [hstatus] at hl
    have hhandoffs : t.tables.handoffs = s.tables.handoffs := by
      rw [htables,← hu.tables]
      rfl
    have hnow : t.status = .active := by rw [Stores.status,htables]; rfl
    have hopen : hasOpen t = inHandoff s.status := by
      rw [← ha.hasOpen_iff hl,hasOpen,hhandoffs]
      rfl
    refine ⟨hhandoffs,fun hagree => ?_,fun hs => ?_⟩
    · by_contra hs
      obtain ⟨r,hr,ho⟩ := exists_open (hopen.trans (by simpa using hs))
      exact not_agree hr ho (by rw [hnow]; rfl) (.inr hphase) hagree
    · exact agree_of_settled (.inl (hopen.trans hs)) (by rw [hnow]; rfl)

/-- A turn keeps agreement exactly if it neither meets nor opens an open handoff. -/
theorem agree_turn_iff {turn : VoiceTurn} (ha : Agree s) (ht : Opened s t (initiates turn))
    (hphase : t.HasPhase .listening) :
    Agree t ↔ keepsAgreement s (.processTurn turn) = true := by
  simp only [keepsAgreement,Bool.and_eq_true,Bool.not_eq_true']
  unfold Opened at ht
  split at ht
  · next hasked =>
    obtain ⟨r,hone,hwait,hstatus⟩ := ht
    have hopen : r.status ∉ terminalHandoff := not_terminal_iff.mpr (.inl hwait)
    refine iff_of_false (not_agree (r := r) (by simp [hone]) hopen (by rw [hstatus]; rfl) (.inr hphase)) ?_
    simp [hasked.1,hasked.2]
  · next hnot =>
    have hsecond : (decide (s.tables.handoffs = []) && initiates turn) = false := by
      rw [← Bool.not_eq_true,Bool.and_eq_true,decide_eq_true_eq]
      exact hnot
    rw [and_iff_left hsecond]
    cases hlive : s.status.terminal with
    | true =>
      refine iff_of_true (agree_of_settled (.inr (by rw [ht.2,hlive])) ?_) (by simp)
      by_contra hs
      rw [ht.2] at hs
      exact absurd (hlive.symm.trans (terminal_of_inHandoff (by simpa using hs))) (by decide)
    | false =>
      have hopen := ha.hasOpen_iff hlive
      have hsame : hasOpen t = hasOpen s := by rw [hasOpen,ht.1]; rfl
      cases hs : hasOpen s with
      | true =>
        obtain ⟨r,hr,ho⟩ := exists_open (hsame.trans hs)
        exact iff_of_false (not_agree hr ho (by rw [ht.2,hlive]) (.inr hphase)) (by simp)
      | false =>
        refine iff_of_true (agree_of_settled (.inl (hsame.trans hs)) ?_) (by simp)
        rw [ht.2,← hopen,hs]

theorem agree_of_closed {r : HandoffRecord} (hone : s.tables.handoffs = [r]) (hr : r.status ∈ terminalHandoff)
    (hstatus : s.status = .active) : Agree s := by
  refine agree_of_settled (.inl ?_) (by rw [hstatus]; rfl)
  simp [hasOpen,hone,hr]

/-- What a completed operation owes: one handoff at most, and agreement where it keeps it. -/
def Owes (s : Stores) (operation : CompletedOperation) (t : Stores) : Prop :=
  t.tables.handoffs.length ≤ 1 ∧ (Agree s → (Agree t ↔ keepsAgreement s operation = true))

theorem owes_of_same {operation : CompletedOperation} (hlen : s.tables.handoffs.length ≤ 1)
    (hk : keepsAgreement s operation = true) (h : Same s t) : Owes s operation t :=
  ⟨by rwa [h.tables],fun ha => iff_of_true (agree_of_same h ha) hk⟩

theorem owes_of_agree {operation : CompletedOperation} {r : HandoffRecord} (hone : t.tables.handoffs = [r])
    (hk : keepsAgreement s operation = true) (h : Agree t) : Owes s operation t :=
  ⟨by simp [hone],fun _ => iff_of_true h hk⟩

theorem settles_handoff (operation : Operation) (hlen : s.tables.handoffs.length ≤ 1) :
    Settles handle s (operation.program settings) fun _ t => Owes s (.handoff operation) t := by
  have hcases : s.tables.handoffs = [] ∨ ∃ r, s.tables.handoffs = [r] := by
    rcases hs : s.tables.handoffs with _ | ⟨r,_ | ⟨r',rest⟩⟩
    · exact .inl rfl
    · exact .inr ⟨r,rfl⟩
    · simp [hs] at hlen
  cases operation with
  | initiateHandoff req =>
    by_cases hnone : s.tables.handoffs = []
    · refine settles_discard (settles_mono (finishes_initiateHandoff settings _ hnone).settles fun _ t ht => ?_)
      obtain ⟨r,hone,hwait,hstatus,hphase⟩ := ht
      exact owes_of_agree hone rfl (agree_of_waiting hone hwait hstatus hphase)
    · intro a t ht
      have hsame := initiateHandoff_again settings req hnone
      rw [← exec_discard_state] at hsame
      have ht : exec handle (discard (initiateHandoff settings req)) s = (.ok a,t) := ht
      rw [ht] at hsame
      exact owes_of_same hlen rfl hsame
  | acceptHandoff id orgId userId =>
    rcases hcases with hnone | ⟨r,hone⟩
    · exact settles_discard (settles_getHandoff_none hnone fun _ => settles_raise)
    · refine settles_discard (settles_mono (settles_acceptHandoff hone) fun _ t ht => ?_)
      rcases ht with hsame | ⟨r,hone,hactive,hstatus,hphase⟩
      · exact owes_of_same hlen rfl hsame
      · exact owes_of_agree hone rfl (agree_of_active hone hactive hstatus hphase)
  | completeHandoff id orgId resolution =>
    rcases hcases with hnone | ⟨r,hone⟩
    · exact settles_discard (settles_getHandoff_none hnone fun _ => settles_raise)
    · refine settles_discard (settles_mono (settles_completeHandoff hone) fun _ t ht => ?_)
      rcases ht with hsame | ⟨r,hone,hclosed,hstatus,-⟩
      · exact owes_of_same hlen rfl hsame
      · exact owes_of_agree hone rfl (agree_of_closed hone hclosed hstatus)
  | cancelHandoff id orgId =>
    rcases hcases with hnone | ⟨r,hone⟩
    · exact settles_discard (settles_getHandoff_none hnone fun _ => settles_raise)
    · refine settles_discard (settles_mono (settles_cancelHandoff hone) fun _ t ht => ?_)
      rcases ht with hsame | ⟨r,hone,hclosed,hstatus,-⟩
      · exact owes_of_same hlen rfl hsame
      · exact owes_of_agree hone rfl (agree_of_closed hone hclosed hstatus)

theorem settles_get (orgId : Option OrgId) :
    Settles handle s (SessionRepository.get orgId) fun _ t => Same s t := by
  have hselect : Finishes handle s (execute .selectSession) fun _ t => Same s t := ⟨_,_,rfl,rfl,rfl⟩
  refine settles_then hselect.settles fun reply t ht => ?_
  cases reply with
  | none => exact settles_raise
  | some row =>
    dsimp only
    split
    · exact settles_raise
    · exact settles_pure ht

/-- Activation after steps that keep the rows and the phase. -/
theorem settles_activation {operation : CompletedOperation} (hlen : s.tables.handoffs.length ≤ 1)
    (hk : keepsAgreement s operation = !inHandoff s.status) (hu : s.KeepsPhase u) :
    Settles handle u (discard (SessionManager.activateSession settings.toSettings) : Action Unit) fun _ t =>
      Owes s operation t := by
  refine settles_discard (settles_mono settles_activateSession fun _ t ht => ⟨?_,fun ha => ?_⟩)
  · obtain ⟨-,⟨-,hsame⟩ | ⟨-,htables,-⟩⟩ := ht
    · rwa [hsame.tables,hu.tables]
    · rw [htables,hu.tables]
      exact hlen
  · rw [(agree_activated_iff ha hu ht).2,hk,Bool.not_eq_true']

theorem settles_program (settings : HandoffOrchestrator.Settings) (operation : CompletedOperation) (hlen : s.tables.handoffs.length ≤ 1) :
    Settles handle s (operation.program settings) fun _ t => Owes s operation t := by
  cases operation with
  | handoff operation => exact settles_handoff operation hlen
  | activateSession => exact settles_activation hlen rfl ⟨rfl,fun _ h => h⟩
  | startResumed orgId lastSequence =>
    refine settles_then (settles_discard (settles_get (some orgId))) fun _ t ht => ?_
    refine settles_then (settles_discard (settles_resumeSession lastSequence)) fun _ u hu => ?_
    exact settles_activation hlen rfl (ht.keepsPhase.trans hu)
  | prepare orgId resume lastSequence =>
    cases resume with
    | true =>
      refine settles_discard (settles_mono (settles_resumeSession lastSequence) fun _ t ht => ?_)
      exact ⟨by rwa [ht.tables],fun ha => iff_of_true (agree_of_keepsPhase ht ha) rfl⟩
    | false =>
      refine settles_then (settles_discard (settles_get orgId)) fun _ t ht => ?_
      exact settles_activation hlen rfl ht.keepsPhase
  | processTurn turn =>
    refine settles_mono (settles_processTurn turn) fun _ t ht => ⟨?_,fun ha => agree_turn_iff ha ht.1 ht.2⟩
    have hopened := ht.1
    unfold Opened at hopened
    split at hopened
    · obtain ⟨r,hone,-⟩ := hopened
      simp [hone]
    · rwa [hopened.1]
  | endSession =>
    refine settles_discard (settles_mono finishes_endSession.settles fun _ t ht => ?_)
    refine ⟨by rwa [ht.2],fun _ => iff_of_true (agree_of_settled (.inr ht.1) ?_) rfl⟩
    by_contra hs
    exact absurd (ht.1.symm.trans (terminal_of_inHandoff (by simpa using hs))) (by decide)

theorem step_owes {l : Label} (hlen : s.tables.handoffs.length ≤ 1) (hs : step settings s l = some t) :
    Owes s l.operation t := by
  unfold step at hs
  split at hs
  · next a u hu =>
    cases hs
    -- the answers of the clock and the services are no part of what agrees
    have hsame : Same s { s with answers := l.answers } := ⟨rfl,rfl⟩
    have howes := settles_program (s := { s with answers := l.answers }) settings
      l.operation hlen a t hu
    exact ⟨howes.1,fun ha => howes.2 (agree_of_same hsame ha)⟩
  · cases hs

/-- The three stores agree in every state of a run of completed operations exactly if
no operation of the run activates a session that is handed over, runs a turn while a
handoff is open on a session that is not terminal, or opens a handoff within a turn. -/
theorem stores_agree_iff {row : SessionRow} {keys : Keys} {ls : List Label} :
    (∀ b, Visits (step settings) (created row keys) ls b → Agree b) ↔
      ∀ a l b, Fires (step settings) (created row keys) ls a l b → keepsAgreement a l.operation = true := by
  have hlen : (created row keys).tables.handoffs.length ≤ 1 := Nat.zero_le 1
  have hagree : Agree (created row keys) := agree_of_settled (.inl rfl) rfl
  exact visits_good_iff (I := fun s => s.tables.handoffs.length ≤ 1) hlen hagree
    (fun _ _ _ h hs => (step_owes h hs).1) (fun _ _ _ h ha hs => (step_owes h hs).2 ha)

private def newSession : Stores :=
  created { orgId := some 1 } { state := some {} }

private def reconnectWhilePending : List Label :=
  [⟨.activateSession,[]⟩,
    ⟨.handoff (.initiateHandoff { orgId := 1, trigger := .userRequest, reason := "asked" }),[]⟩,
    ⟨.startResumed 1 0,[]⟩]

/-- A caller who reconnects while the handoff waits is put back to a listening session. -/
theorem reconnect_forgets_handoff :
    ∃ b, Visits (step {}) newSession reconnectWhilePending b ∧ b.status = .active ∧
      b.HasPhase .listening ∧ (∃ r ∈ b.tables.handoffs, r.status = .pending) ∧ ¬ Agree b := by
  obtain ⟨b,hrun,hstatus,hphase,r,hr,hwait⟩ : ∃ b, run (step {}) newSession reconnectWhilePending = some b ∧
      b.status = .active ∧ b.HasPhase .listening ∧ ∃ r ∈ b.tables.handoffs, r.status = .pending :=
    ⟨_,rfl,rfl,⟨_,rfl,rfl⟩,_,List.mem_singleton.mpr rfl,rfl⟩
  refine ⟨b,Visits.of_run hrun,hstatus,hphase,⟨r,hr,hwait⟩,?_⟩
  exact not_agree hr (by rw [hwait]; decide) (by rw [hstatus]; rfl) (.inr hphase)

end VoxForge.Handoffs
