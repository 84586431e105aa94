import VoxForge.Foundation.Runs
import VoxForge.Handoffs.Initiation
import VoxForge.Pipeline.Turn

/-! One database session under a pipeline: calls that may fail at any operation, and the
commits and rollbacks between them. When an initiation that fails leaves half a handoff. -/
namespace VoxForge.Handoffs
open Foundation Core Persistence Sessions Prog Stores HandoffOrchestrator Pipeline

/-- What a turn, or the connection around it, calls on the database session. -/
inductive Call where
  /-- `ToolRouter.execute` of the handoff tool. -/
  | tool (arguments : HandoffArguments)
  /-- The policy branch of a turn that escalates. -/
  | escalate (trigger : HandoffTrigger) (reason : String) (policy : EscalationPolicy)
  | saveMessage (message : Message)
  | updatePhase (phase : SessionPhase)
  | clearInterrupt
  | getSessionConfig
  | trackToolFailures (failedCount : Int)
  | activateSession
  | resumeSession (lastSequence : Int)
  | endSession
  deriving DecidableEq, Repr

def Call.program (settings : HandoffOrchestrator.Settings) (orgId : OrgId) : Call → Action Unit
  | tool arguments => executeTool (invokeHandoffTool settings (some orgId) arguments)
  | escalate trigger reason policy =>
    discard (initiateHandoff settings { orgId, trigger, reason, policy })
  | saveMessage message => execute (.insertMessage message)
  | updatePhase phase => discard (StateStore.updatePhase settings.toSettings phase)
  | clearInterrupt => discard (StateStore.clearInterrupt settings.toSettings)
  | getSessionConfig => discard SessionManager.getSessionConfig
  | trackToolFailures failedCount =>
    discard (SessionManager.trackToolFailures settings.toSettings failedCount)
  | activateSession => discard (SessionManager.activateSession settings.toSettings)
  | resumeSession lastSequence => discard (SessionManager.resumeSession settings.toSettings lastSequence)
  | endSession => discard SessionManager.endSession

def Call.initiation? (orgId : OrgId) : Call → Option Initiation
  | tool arguments =>
    if strip arguments.reason = "" then none
    else some {
      orgId
      trigger := .agentExplicit
      reason := strip arguments.reason
      customerEmail := arguments.customerEmail
      priority := arguments.priority }
  | escalate trigger reason policy => some { orgId, trigger, reason, policy }
  | _ => none

/-- The operations that go through the database session. -/
def onDatabase : Op → Bool
  | .getState | .setState _ _ | .setHeartbeat _ | .deleteState => false
  | .now | .newId | .generateReplayLink _ | .createTicket _ => false
  | _ => true

structure DatabaseSession where
  committed : Tables
  /-- The tables as the open transaction sees them, with Redis. -/
  working : Stores
  /-- A statement has failed: until the rollback every other one raises. -/
  aborted : Bool := false

namespace DatabaseSession

def attempt {α : Type} (s : DatabaseSession) (answers : List Answers) (failure : Option (Failure Err))
    (p : Action α) : Except Err α × Connection Stores Err :=
  exec (failing handle onDatabase .fault) p
    { state := { s.working with answers }, failure, broken := s.aborted }

def rollback (s : DatabaseSession) : DatabaseSession :=
  { s with working := { s.working with tables := s.committed }, aborted := false }

/-- The database rolls back when a transaction that has failed is committed. -/
def commit (s : DatabaseSession) : DatabaseSession :=
  if s.aborted then s.rollback else { s with committed := s.working.tables }

inductive Label where
  | invoke (request : Call) (answers : List Answers) (failure : Option (Failure Err))
  | commit
  | rollback
  deriving DecidableEq, Repr

def step (settings : HandoffOrchestrator.Settings) (orgId : OrgId) (s : DatabaseSession) :
    Label → Option DatabaseSession
  | .invoke request answers failure =>
    let connection := (s.attempt answers failure (request.program settings orgId)).2
    some { s with working := connection.state, aborted := connection.broken }
  | .commit => some s.commit
  | .rollback => some s.rollback

/-- A session that has no handoff. -/
def opened (row : SessionRow) (messages : List Message) (keys : Keys) : DatabaseSession :=
  let tables : Tables := { session := { row with handoffId := none }, messages }
  { committed := tables, working := { tables, keys } }

/-- What is visible is complete, what a commit makes visible is complete, and an
initiation that returns leaves a complete handoff. -/
structure AllOrNothing (settings : HandoffOrchestrator.Settings) (orgId : OrgId) (s : DatabaseSession) :
    Prop where
  visible : Complete s.committed
  commits : Complete s.commit.committed
  retries : ∀ (req : Initiation) answers failure package connection, req.orgId = orgId →
    s.attempt answers failure (initiateHandoff settings req) = (.ok package,connection) →
      connection.state.tables.handoffs ≠ [] ∧ Complete connection.state.tables

/-- A call whose initiation fails after the row is inserted, before the session is
linked to it, and without breaking the transaction. -/
def cutShort (orgId : OrgId) (s : DatabaseSession) : Label → Bool
  | .invoke request _ (some f) =>
    !s.aborted && s.working.tables.handoffs = [] && !f.breaks &&
      (request.initiation? orgId).any fun req => 5 ≤ f.after && f.after < 5 + stepsToLink req.policy
  | _ => false

end DatabaseSession

/-! A turn as the calls it makes. -/

def escalationCalls (turn : VoiceTurn) : List Call :=
  if turn.handoffEnabled then
    .getSessionConfig :: .trackToolFailures turn.failedTools ::
      (turn.escalation.map fun decision => Call.escalate decision.1 decision.2 turn.policy).toList
  else []

def turnCalls (turn : VoiceTurn) : List Call :=
  .updatePhase .processing :: .saveMessage ⟨.user,turn.transcript⟩ :: .updatePhase .speaking ::
    .getSessionConfig :: (turn.tools.map .tool ++
      ((if turn.assistantText ≠ "" then [.saveMessage ⟨.assistant,turn.assistantText⟩] else []) ++
        escalationCalls turn))

def callAll (settings : HandoffOrchestrator.Settings) (orgId : OrgId) : List Call → Action Unit
  | [] => return ()
  | request :: requests => do
    request.program settings orgId
    callAll settings orgId requests

variable {settings : HandoffOrchestrator.Settings} {orgId : OrgId}

theorem callAll_append (requests requests' : List Call) :
    callAll settings orgId (requests ++ requests') = (do
      callAll settings orgId requests
      callAll settings orgId requests') := by
  induction requests with
  | nil => rfl
  | cons request requests ih =>
    show (request.program settings orgId >>= fun _ => callAll settings orgId (requests ++ requests')) = _
    rw [ih]
    exact (bind_assoc' _ _ _).symm

theorem runTools_eq (tools : List HandoffArguments) :
    runTools settings (some orgId) tools = callAll settings orgId (tools.map .tool) := by
  induction tools with
  | nil => rfl
  | cons arguments rest ih =>
    show (executeTool (invokeHandoffTool settings (some orgId) arguments) >>= fun _ => _) = _
    rw [ih]
    rfl

theorem callAll_singleton (settings : HandoffOrchestrator.Settings) (orgId : OrgId) (request : Call) :
    callAll settings orgId [request] = request.program settings orgId :=
  bind_pure' _

theorem escalate_eq {turn : VoiceTurn} (h : turn.orgId = some orgId) :
    escalate settings turn = callAll settings orgId (escalationCalls turn) := by
  unfold escalate escalationCalls
  rw [h]
  dsimp only
  cases turn.handoffEnabled with
  | false => rfl
  | true =>
    cases turn.escalation with
    | none => rfl
    | some decision =>
      have hlast := callAll_singleton settings orgId
        (.escalate decision.1 decision.2 turn.policy)
      simp only [if_true,Option.map_some,Option.toList_some,callAll] at hlast ⊢
      rw [hlast]
      rfl

/-- Up to its commit a turn makes these calls and no others. -/
theorem turnBeforeCommit_eq {turn : VoiceTurn} (h : turn.orgId = some orgId) :
    turnBeforeCommit settings turn = callAll settings orgId (turnCalls turn) := by
  have hassistant : (if turn.assistantText ≠ "" then do
        execute (.insertMessage ⟨.assistant,turn.assistantText⟩)
        escalate settings turn
      else escalate settings turn) = (do
        callAll settings orgId
          (if turn.assistantText ≠ "" then [.saveMessage ⟨.assistant,turn.assistantText⟩] else [])
        escalate settings turn) := by
    split
    · rw [callAll_singleton]
      rfl
    · rfl
  unfold turnCalls
  simp only [callAll]
  rw [callAll_append,callAll_append,← runTools_eq,← escalate_eq h,← hassistant,← h]
  rfl

/-! What a call leaves. -/

/-- Rows that only initiations have written: none, or those of the session's organisation. -/
structure Sound (orgId : OrgId) (t : Tables) : Prop where
  bare : t.handoffs = [] → Bare t
  orgs : ∀ r ∈ t.handoffs, r.orgId = orgId

theorem Bare.sound {t : Tables} (h : Bare t) : Sound orgId t :=
  ⟨fun _ => h,by simp [h.nothing]⟩

theorem Keeps.bare {t u : Tables} (h : Keeps t u) (hb : Bare t) : Bare u :=
  ⟨h.handoffs.trans hb.nothing,h.snapshots.trans hb.snapshots,h.link.trans hb.unlinked⟩

theorem Keeps.sound {t u : Tables} (h : Keeps t u) (hs : Sound orgId t) : Sound orgId u :=
  ⟨fun hu => h.bare (hs.bare (h.handoffs.symm.trans hu)),h.handoffs ▸ hs.orgs⟩

theorem Keeps.linked {t u : Tables} (h : Keeps t u) (hl : Linked orgId t) : Linked orgId u := by
  obtain ⟨r,hone,horg,hwhole⟩ := hl
  exact ⟨r,h.handoffs.trans hone,horg,hwhole.summary,hwhole.replay,h.snapshots ▸ hwhole.snapshot,
    h.link.trans hwhole.link⟩

theorem sound_of_one {t : Tables} {r : HandoffRecord} (hone : t.handoffs = [r]) (horg : r.orgId = orgId) :
    Sound orgId t := by
  refine ⟨fun hnone => absurd (hone.symm.trans hnone) (List.cons_ne_nil r []),fun r' hr' => ?_⟩
  rw [hone,List.mem_singleton] at hr'
  rw [hr',horg]

theorem Unlinked.sound {t : Tables} (h : Unlinked orgId t) : Sound orgId t := by
  obtain ⟨r,hone,horg,-⟩ := h
  exact sound_of_one hone horg

theorem Linked.sound {t : Tables} (h : Linked orgId t) : Sound orgId t := by
  obtain ⟨r,hone,horg,-⟩ := h
  exact sound_of_one hone horg

theorem Linked.nonempty {t : Tables} (h : Linked orgId t) : t.handoffs ≠ [] := by
  obtain ⟨r,hone,-⟩ := h
  rw [hone]
  exact List.cons_ne_nil r []

namespace DatabaseSession
variable {s : DatabaseSession} {answers : List Answers} {failure : Option (Failure Err)} {req : Initiation}

/-- The first initiation on a transaction that has not failed: it raises before the row
is inserted, or between the insertion and the link, or has linked the session. -/
theorem attempt_first (settings : HandoffOrchestrator.Settings) (req : Initiation) (answers : List Answers)
    (failure : Option (Failure Err)) (hb : Bare s.working.tables) (hlive : s.aborted = false) :
    (∃ f, failure = some f ∧ f.after < 5 ∧ ∃ connection,
      s.attempt answers failure (initiateHandoff settings req) = (.error f.error,connection) ∧
        Bare connection.state.tables ∧ connection.broken = f.breaks) ∨
    (∃ f, failure = some f ∧ 5 ≤ f.after ∧ f.after < 5 + stepsToLink req.policy ∧ ∃ connection,
      s.attempt answers failure (initiateHandoff settings req) = (.error f.error,connection) ∧
        Unlinked req.orgId connection.state.tables ∧ connection.broken = f.breaks) ∨
    ((∀ f ∈ failure, 5 + stepsToLink req.policy ≤ f.after) ∧
      Linked req.orgId (s.attempt answers failure (initiateHandoff settings req)).2.state.tables) := by
  obtain ⟨tail,u,hfront,rest,v,hmiddle,hlinked,hinert⟩ := comes_initiateHandoff (s := { s.working with answers })
    settings req hb
  unfold attempt
  rw [hlive]
  by_cases hfirst : ∀ f ∈ failure, 5 ≤ f.after
  · have hpast := exec_failing_past onDatabase Err.fault hfront hfirst
    rw [hpast]
    by_cases hsecond : ∀ f ∈ failure, 5 + stepsToLink req.policy ≤ f.after
    · refine .inr (.inr ⟨hsecond,?_⟩)
      have hlater : ∀ f ∈ failure.map (Failure.closer 5), stepsToLink req.policy ≤ f.after := by
        intro f hf
        obtain ⟨g,hg,rfl⟩ := Option.map_eq_some_iff.mp hf
        exact Nat.le_sub_of_add_le' (hsecond g hg)
      rw [exec_failing_past onDatabase Err.fault hmiddle hlater]
      -- what is left to do links nothing more
      refine exec_failing_keeps (J := fun t : Stores => Linked req.orgId t.tables) hinert (fun o t ho ht => ?_) hlinked
      obtain ⟨-,-,hkeeps⟩ := handle_inert (s := t) ho
      exact hkeeps.linked ht
    · obtain ⟨f,hf,hbefore⟩ : ∃ f, failure = some f ∧ f.after < 5 + stepsToLink req.policy := by
        simpa using hsecond
      have hafter := hfirst f hf
      subst hf
      obtain ⟨w,hw,hexec⟩ := exec_failing_within onDatabase Err.fault hmiddle
        (f := f.closer 5) (Nat.sub_lt_left_of_lt_add hafter hbefore)
      exact .inr (.inl ⟨f,rfl,hafter,hbefore,_,hexec,hw,rfl⟩)
  · obtain ⟨f,hf,hbefore⟩ : ∃ f, failure = some f ∧ f.after < 5 := by simpa using hfirst
    subst hf
    obtain ⟨w,hw,hexec⟩ := exec_failing_within onDatabase Err.fault hfront hbefore
    exact .inl ⟨f,rfl,hbefore,_,hexec,hw,rfl⟩

/-- A session with a handoff is given that one back. -/
theorem attempt_again (settings : HandoffOrchestrator.Settings) (answers : List Answers)
    (failure : Option (Failure Err)) (hs : Sound req.orgId s.working.tables) (hsome : s.working.tables.handoffs ≠ [])
    (hlive : s.aborted = false) :
    Keeps s.working.tables (s.attempt answers failure (initiateHandoff settings req)).2.state.tables := by
  obtain ⟨r,rest,hrows⟩ := List.exists_cons_of_ne_nil hsome
  have hfound : s.working.tables.handoffs.find? (·.orgId = req.orgId) = some r := by
    rw [hrows]
    exact List.find?_cons_of_pos (by simpa using hs.orgs r (by simp [hrows]))
  have hfind : Finishes handle { s.working with answers } (HandoffRepository.getBySession req.orgId)
      fun reply t => reply = some r ∧ Keeps s.working.tables t.tables := by
    refine finishes_mono (finishes_getBySession req.orgId) fun reply t ht => ?_
    rw [ht.1,ht.2.tables]
    exact ⟨hfound,Keeps.refl _⟩
  obtain ⟨package,t,hreach,hkeeps⟩ : Passes handle (fun t => Keeps s.working.tables t.tables) 1
      { s.working with answers } (initiateHandoff settings req) fun _ t => Keeps s.working.tables t.tables := by
    refine passes_then (n := 1) (m := 0) (passes_perform (Keeps.refl _) hfind) fun reply t ht => ?_
    obtain ⟨rfl,ht⟩ := ht
    exact passes_pure ht
  unfold attempt
  rw [hlive]
  by_cases hlater : ∀ f ∈ failure, 1 ≤ f.after
  · rw [exec_failing_past onDatabase Err.fault hreach hlater]
    exact hkeeps
  · obtain ⟨f,hf,hbefore⟩ : ∃ f, failure = some f ∧ f.after < 1 := by simpa using hlater
    subst hf
    obtain ⟨w,hw,hexec⟩ := exec_failing_within onDatabase Err.fault hreach hbefore
    rw [hexec]
    exact hw

/-- A transaction that has failed lets no initiation return. -/
theorem attempt_aborted (settings : HandoffOrchestrator.Settings) (req : Initiation) (answers : List Answers)
    (failure : Option (Failure Err)) (h : s.aborted = true) :
    ∃ e, (s.attempt answers failure (initiateHandoff settings req)).1 = .error e := by
  obtain ⟨e,c,hc⟩ := failing_broken handle onDatabase Err.fault
    (o := .selectHandoffBySession req.orgId)
    (c := { state := { s.working with answers }, failure, broken := s.aborted }) h rfl
  refine ⟨e,?_⟩
  have hfirst : s.attempt answers failure (HandoffRepository.getBySession req.orgId) = (.error e,c) := by
    unfold attempt HandoffRepository.getBySession execute
    rw [exec_perform,hc]
  unfold attempt initiateHandoff
  rw [exec_bind_error _ _ hfirst]

/-- A tool call that initiates has a reason, and hands it on. -/
theorem initiation_of_tool {arguments : HandoffArguments} (h : (Call.tool arguments).initiation? orgId = some req) :
    strip arguments.reason ≠ "" ∧ req = {
      orgId
      trigger := .agentExplicit
      reason := strip arguments.reason
      customerEmail := arguments.customerEmail
      priority := arguments.priority } := by
  rw [Call.initiation?] at h
  split at h
  · cases h
  · next hreason => exact ⟨hreason,(Option.some.inj h).symm⟩

/-- A call that initiates leaves what its initiation leaves. -/
theorem attempt_initiation {request : Call} (h : request.initiation? orgId = some req) :
    (s.attempt answers failure (request.program settings orgId)).2 =
      (s.attempt answers failure (initiateHandoff settings req)).2 := by
  cases request with
  | tool arguments =>
    obtain ⟨hreason,rfl⟩ := initiation_of_tool h
    have hinvoke : invokeHandoffTool settings (some orgId) arguments = discard (initiateHandoff settings {
        orgId
        trigger := .agentExplicit
        reason := strip arguments.reason
        customerEmail := arguments.customerEmail
        priority := arguments.priority }) := if_neg hreason
    have hprogram : (Call.tool arguments).program settings orgId = executeTool _ :=
      congrArg executeTool hinvoke
    unfold attempt
    rw [hprogram,executeTool,exec_tryCatch,← exec_discard_state]
    split
    · next a t ht => rw [ht]
    · next e t ht =>
      rw [ht]
      split <;> rfl
  | escalate trigger reason policy =>
    cases h
    exact exec_discard_state
  | _ => cases h

theorem inert_updatePhase (phase : SessionPhase) :
    Performs Inert (StateStore.updatePhase settings.toSettings phase) :=
  performs_bind inert_getState fun _ => performs_bind (inert_execute trivial) fun _ => trivial

theorem inert_clearInterrupt : Performs Inert (StateStore.clearInterrupt settings.toSettings) :=
  performs_bind inert_getState fun _ => performs_bind (inert_execute trivial) fun _ => trivial

theorem inert_getSessionConfig : Performs Inert SessionManager.getSessionConfig := by
  refine performs_bind inert_getStateOrNone fun reply => ?_
  cases reply with
  | some state => trivial
  | none => exact performs_bind (inert_get none) fun _ => trivial

theorem inert_trackToolFailures (failedCount : Int) :
    Performs Inert (SessionManager.trackToolFailures settings.toSettings failedCount) := by
  refine performs_bind inert_loadOrReconcileState fun state => performs_bind (inert_get none) fun row => ?_
  exact performs_bind (inert_writeEphemeralState _ _) fun _ => trivial

theorem inert_activateSession : Performs Inert (SessionManager.activateSession settings.toSettings) := by
  refine performs_bind (inert_get none) fun session => ?_
  split
  · trivial
  · split
    · trivial
    · refine performs_bind (inert_updateStatus .active) fun session => ?_
      refine performs_bind (performs_discard (inert_ensureEphemeralState session)) fun _ => ?_
      exact performs_bind (performs_discard (inert_updatePhase .listening)) fun _ => trivial

theorem inert_endSession : Performs Inert SessionManager.endSession := by
  have hdelete : Performs Inert SessionManager.bestEffortDeleteRedis := by
    refine performs_tryCatch (performs_bind (inert_execute trivial) fun _ => trivial) fun e => ?_
    split <;> trivial
  refine performs_bind (inert_get none) fun session => ?_
  split
  · exact performs_bind (performs_discard hdelete) fun _ => trivial
  · have hend : Performs Inert (SessionRepository.endSession .completed) := by
      refine performs_bind (inert_get none) fun row => ?_
      split
      · trivial
      · refine performs_bind (inert_execute trivial) fun now => ?_
        exact performs_bind (inert_execute trivial) fun _ => inert_get none
    exact performs_bind hend fun _ => performs_bind (performs_discard hdelete) fun _ => trivial

/-- The calls that initiate nothing. -/
theorem inert_program {request : Call} (h : request.initiation? orgId = none) :
    Performs Inert (request.program settings orgId) := by
  cases request with
  | tool arguments =>
    have hreason : strip arguments.reason = "" := by
      by_contra hreason
      simp [Call.initiation?,hreason] at h
    have hinvoke : invokeHandoffTool settings (some orgId) arguments =
        .raise (.value "reason is required") := if_pos hreason
    have hprogram : (Call.tool arguments).program settings orgId = executeTool _ :=
      congrArg executeTool hinvoke
    rw [hprogram]
    refine performs_tryCatch trivial fun e => ?_
    split <;> trivial
  | escalate trigger reason policy => cases h
  | saveMessage message => exact inert_execute trivial
  | updatePhase phase => exact performs_discard (inert_updatePhase phase)
  | clearInterrupt => exact performs_discard inert_clearInterrupt
  | getSessionConfig => exact performs_discard inert_getSessionConfig
  | trackToolFailures failedCount => exact performs_discard (inert_trackToolFailures failedCount)
  | activateSession => exact performs_discard inert_activateSession
  | resumeSession lastSequence => exact performs_discard (inert_resumeSession lastSequence)
  | endSession => exact performs_discard inert_endSession

theorem attempt_inert {α : Type} {p : Action α} (h : Performs Inert p) :
    Keeps s.working.tables (s.attempt answers failure p).2.state.tables := by
  refine exec_failing_keeps (J := fun t : Stores => Keeps s.working.tables t.tables) h (fun o t ho ht => ?_)
    (Keeps.refl _)
  obtain ⟨-,-,hkeeps⟩ := handle_inert (s := t) ho
  exact ht.trans hkeeps

/-! All or nothing, over whole runs. -/

structure Inv (orgId : OrgId) (s : DatabaseSession) : Prop where
  committed : Sound orgId s.committed
  working : s.aborted = false → Sound orgId s.working.tables

/-- What is visible is complete, and so is what a transaction that has not failed has written. -/
theorem allOrNothing_iff (h : Inv orgId s) :
    AllOrNothing settings orgId s ↔
      Complete s.committed ∧ (s.aborted = false → Complete s.working.tables) := by
  constructor
  · refine fun ha => ⟨ha.visible,fun hlive => ?_⟩
    have hcommits := ha.commits
    rwa [commit,if_neg (by simp [hlive])] at hcommits
  · rintro ⟨hvisible,hworking⟩
    refine ⟨hvisible,?_,?_⟩
    · unfold commit
      split
      · exact hvisible
      · next hlive => exact hworking (by simpa using hlive)
    · intro req answers failure package connection horg hreturns
      subst horg
      cases hlive : s.aborted with
      | true =>
        obtain ⟨e,he⟩ := attempt_aborted settings req answers failure hlive
        rw [hreturns] at he
        cases he
      | false =>
        by_cases hnone : s.working.tables.handoffs = []
        · have hbare := (h.working hlive).bare hnone
          rcases attempt_first settings req answers failure hbare hlive with
            ⟨f,-,-,c,hraises,-⟩ | ⟨f,-,-,-,c,hraises,-⟩ | ⟨-,hlinked⟩
          · rw [hreturns] at hraises
            cases hraises
          · rw [hreturns] at hraises
            cases hraises
          · rw [hreturns] at hlinked
            exact ⟨hlinked.nonempty,hlinked.complete⟩
        · have hkeeps := attempt_again settings answers failure (h.working hlive) hnone hlive
          rw [hreturns] at hkeeps
          exact ⟨hkeeps.handoffs ▸ hnone,hkeeps.complete (hworking hlive)⟩

theorem orgId_of_initiation {request : Call} (h : request.initiation? orgId = some req) : req.orgId = orgId := by
  cases request with
  | tool arguments =>
    rw [(initiation_of_tool h).2]
  | escalate trigger reason policy =>
    cases h
    rfl
  | _ => cases h

/-- A call leaves sound rows, complete ones exactly if it was not cut short. -/
theorem invoke_spec (settings : HandoffOrchestrator.Settings) (request : Call) (answers : List Answers)
    (failure : Option (Failure Err)) (hlive : s.aborted = false) (hs : Sound orgId s.working.tables) :
    let connection := (s.attempt answers failure (request.program settings orgId)).2
    (connection.broken = false → Sound orgId connection.state.tables) ∧
      (Complete s.working.tables → ((connection.broken = false → Complete connection.state.tables) ↔
        cutShort orgId s (.invoke request answers failure) = false)) := by
  intro connection
  cases hreq : request.initiation? orgId with
  | none =>
    have hkeeps : Keeps s.working.tables connection.state.tables := attempt_inert (inert_program hreq)
    refine ⟨fun _ => hkeeps.sound hs,fun hc => iff_of_true (fun _ => hkeeps.complete hc) ?_⟩
    cases failure <;> simp [cutShort,hreq]
  | some req =>
    have horg := orgId_of_initiation hreq
    subst horg
    have hsame : connection = (s.attempt answers failure (initiateHandoff settings req)).2 :=
      attempt_initiation hreq
    by_cases hnone : s.working.tables.handoffs = []
    · rcases attempt_first settings req answers failure (hs.bare hnone) hlive with
        ⟨f,rfl,hearly,c,hraises,hbare,-⟩ | ⟨f,rfl,hlate,hbefore,c,hraises,hunlinked,hbroken⟩ | ⟨hlater,hlinked⟩
      · rw [hraises] at hsame
        subst hsame
        refine ⟨fun _ => hbare.sound,fun _ => iff_of_true (fun _ => hbare.complete) ?_⟩
        simp [cutShort,hreq,Nat.not_le.mpr hearly]
      · rw [hraises] at hsame
        subst hsame
        refine ⟨fun _ => hunlinked.sound,fun _ => ?_⟩
        rw [hbroken]
        cases hbreaks : f.breaks with
        | true => exact iff_of_true (fun h => by cases h) (by simp [cutShort,hbreaks])
        | false =>
          refine iff_of_false (fun h => hunlinked.not_complete (h rfl)) ?_
          simp [cutShort,hlive,hnone,hbreaks,hreq,hlate,hbefore]
      · rw [← hsame] at hlinked
        refine ⟨fun _ => hlinked.sound,fun _ => iff_of_true (fun _ => hlinked.complete) ?_⟩
        cases failure with
        | none => rfl
        | some f => simp [cutShort,hreq,hlater f rfl]
    · have hkeeps := attempt_again settings answers failure hs hnone hlive
      rw [← hsame] at hkeeps
      refine ⟨fun _ => hkeeps.sound hs,fun hc => iff_of_true (fun _ => hkeeps.complete hc) ?_⟩
      cases failure <;> simp [cutShort,hnone]

theorem attempt_broken {α : Type} {p : Action α} (h : s.aborted = true) :
    (s.attempt answers failure p).2.broken = true := exec_failing_broken h

theorem step_inv {t : DatabaseSession} {l : Label} (h : Inv orgId s) (hs : step settings orgId s l = some t) : Inv orgId t := by
  cases l with
  | invoke request answers failure =>
    cases hs
    refine ⟨h.committed,fun hbroken => ?_⟩
    cases hlive : s.aborted with
    | true => exact absurd (hbroken.symm.trans (attempt_broken hlive)) (by decide)
    | false => exact (invoke_spec settings request answers failure hlive (h.working hlive)).1 hbroken
  | commit =>
    cases hs
    unfold commit
    split
    · exact ⟨h.committed,fun _ => h.committed⟩
    · next hlive =>
      have hworking := h.working (by simpa using hlive)
      exact ⟨hworking,fun _ => hworking⟩
  | rollback =>
    cases hs
    exact ⟨h.committed,fun _ => h.committed⟩

theorem step_allOrNothing {t : DatabaseSession} {l : Label} (h : Inv orgId s) (ha : AllOrNothing settings orgId s)
    (hs : step settings orgId s l = some t) :
    AllOrNothing settings orgId t ↔ cutShort orgId s l = false := by
  rw [allOrNothing_iff (step_inv h hs)]
  obtain ⟨hvisible,hworking⟩ := (allOrNothing_iff h).mp ha
  cases l with
  | invoke request answers failure =>
    cases hs
    cases hlive : s.aborted with
    | true =>
      refine iff_of_true ⟨hvisible,fun hbroken => ?_⟩ ?_
      · exact absurd (hbroken.symm.trans (attempt_broken hlive)) (by decide)
      · cases failure <;> simp [cutShort,hlive]
    | false =>
      have hspec := (invoke_spec settings request answers failure hlive (h.working hlive)).2 (hworking hlive)
      exact (and_iff_right hvisible).trans hspec
  | commit =>
    cases hs
    refine iff_of_true ?_ rfl
    unfold commit
    split
    · exact ⟨hvisible,fun _ => hvisible⟩
    · next hlive =>
      have hcomplete := hworking (by simpa using hlive)
      exact ⟨hcomplete,fun _ => hcomplete⟩
  | rollback =>
    cases hs
    exact iff_of_true ⟨hvisible,fun _ => hvisible⟩ rfl

/-- In every state of a run initiation is all or nothing, whatever is committed or tried
next, exactly if no initiation of the run is cut short: none fails after its row is
inserted and before the session is linked, unless the failure breaks the transaction. -/
theorem initiation_all_or_nothing_iff {row : SessionRow} {messages : List Message} {keys : Keys}
    {ls : List Label} :
    (∀ b, Visits (step settings orgId) (opened row messages keys) ls b → AllOrNothing settings orgId b) ↔
      ∀ a l b, Fires (step settings orgId) (opened row messages keys) ls a l b →
        cutShort orgId a l = false := by
  have hbare : Bare (opened row messages keys).committed := ⟨rfl,rfl,rfl⟩
  have hinv : Inv orgId (opened row messages keys) := ⟨hbare.sound,fun _ => hbare.sound⟩
  have hstart : AllOrNothing settings orgId (opened row messages keys) :=
    (allOrNothing_iff hinv).mpr ⟨hbare.complete,fun _ => hbare.complete⟩
  exact visits_good_iff hinv hstart (fun _ _ _ h hs => step_inv h hs)
    fun _ _ _ h ha hs => step_allOrNothing h ha hs

private def ticketFailsTurn : VoiceTurn :=
  { orgId := some 1, transcript := "I need a person", tools := [{ reason := "asked" }],
    assistantText := "One moment" }

private def failAt (request : Call) : Option (Failure Err) :=
  match request with
  | .tool _ => some ⟨9,.fault,false⟩
  | _ => none

/-- A turn whose handoff tool fails at the ticket provider commits a row without parts. -/
theorem failed_ticket_commits_partial_handoff :
    ∃ b, Visits (step {} 1) (opened { status := .active } [] { state := some {} })
        ((turnCalls ticketFailsTurn).map (fun request => .invoke request [] (failAt request)) ++ [.commit]) b ∧
      (∃ r ∈ b.committed.handoffs, r.conversationSummary = none ∧ r.replayUrl = none) ∧
        b.committed.snapshots = [] ∧ b.committed.session.handoffId = none ∧ ¬ AllOrNothing {} 1 b := by
  obtain ⟨b,hrun,r,hr,hsummary,hreplay,hsnapshots,hlink⟩ : ∃ b,
      run (step {} 1) (opened { status := .active } [] { state := some {} })
        ((turnCalls ticketFailsTurn).map (fun request => .invoke request [] (failAt request)) ++ [.commit]) =
          some b ∧
      ∃ r ∈ b.committed.handoffs, r.conversationSummary = none ∧ r.replayUrl = none ∧
        b.committed.snapshots = [] ∧ b.committed.session.handoffId = none :=
    ⟨_,rfl,_,List.mem_singleton.mpr rfl,rfl,rfl,rfl,rfl⟩
  refine ⟨b,Visits.of_run hrun,⟨r,hr,hsummary,hreplay⟩,hsnapshots,hlink,fun ha => ?_⟩
  have hwhole := (ha.visible r hr).summary
  rw [hsummary] at hwhole
  cases hwhole

end DatabaseSession
end VoxForge.Handoffs
