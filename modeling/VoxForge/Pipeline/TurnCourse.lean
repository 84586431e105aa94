import VoxForge.Pipeline.TurnOperations

/-! The course of a turn, whatever it is answered: which phase its last write of the
session's document leaves, and what it has done by then. -/
namespace VoxForge.Pipeline.VoicePipelineService
open Foundation Core Persistence Sessions Handoffs HandoffRepository HandoffOrchestrator Prog

/-- How far a turn has come. -/
structure Marks where
  /-- A handoff was inserted. -/
  opened : Bool := false
  /-- A document with the phase of a pending handoff was written. -/
  stored : Bool := false
  /-- `on_metrics` returned. -/
  reported : Bool := false
  /-- The interrupt flag was cleared after that. -/
  cleared : Bool := false
  deriving DecidableEq, Repr

def Marks.write (m : Marks) (state : SessionState) : Marks :=
  { m with stored := m.stored || state.phase = .handoffPending, cleared := m.reported }

def Marks.after (m : Marks) : (o : TurnOp) → Except Err (TurnReply o) → Marks
  | .inl (.insertHandoff _),.ok (inserted : Bool) => { m with opened := m.opened || inserted }
  | .inl (.setState state _),.ok _ => m.write state
  | .inr .onMetrics,.ok _ => { m with reported := true }
  | _,_ => m

/-- Redis does not fail, and neither do the clock, fresh ids and the interrupt event. -/
def fallible : TurnOp → Bool
  | .inl .getState | .inl (.setState _ _) | .inl (.setHeartbeat _) | .inl .deleteState => false
  | .inl .now | .inl .newId | .inr .interruptSet => false
  | _ => true

/-- The turn's own view of the document. -/
structure Course where
  marks : Marks := {}
  /-- What it has read and not yet written back. -/
  copy : Option SessionState := none
  /-- The phase of its last write, or the first one. -/
  phase : SessionPhase
  /-- The flag of what it last read or wrote. -/
  flagged : Bool := false
  /-- Whatever it read was flagged, or had the phase of its last write. -/
  trusted : Bool := true

namespace Course

def read (c : Course) (state : SessionState) : Course :=
  { c with
    copy := some state
    flagged := state.interrupt
    trusted := c.trusted && (state.interrupt || (!c.flagged && state.phase = c.phase)) }

def write (c : Course) (state : SessionState) : Course :=
  { c with marks := c.marks.write state, copy := none, phase := state.phase, flagged := state.interrupt }

def after (c : Course) : (o : TurnOp) → Except Err (TurnReply o) → Course
  | .inl .getState,.ok (some state : Option SessionState) => c.read state
  | .inl (.setState state _),.ok _ => c.write state
  | o,r => { c with marks := c.marks.after o r }

/-- A write keeps the flag that was read, but for the clear after the report. -/
def permits (c : Course) : TurnOp → Prop
  | .inl (.setState state _) => ∃ old, c.copy = some old ∧
      state.interrupt = (old.interrupt && (!c.marks.reported || c.marks.cleared))
  | .inl .deleteState => False
  | _ => True

/-- The session's document is there while the turn runs. -/
def Possible : (o : TurnOp) → Except Err (TurnReply o) → Prop
  | .inl .getState,.ok (reply : Option SessionState) => reply.isSome
  | _,.ok _ => True
  | o,.error _ => fallible o

end Course

def course : Discipline TurnOp TurnReply Err Course := ⟨Course.permits,Course.Possible,Course.after⟩

/-- An operation that neither touches the document nor leaves a mark. -/
def Quiet : TurnOp → Prop
  | .inl .getState | .inl (.setState _ _) | .inl .deleteState => False
  | .inl (.insertHandoff _) | .inr .onMetrics => False
  | _ => True

def QuietOp (o : Op) : Prop := Quiet (.inl o)

theorem Course.after_quiet {o : TurnOp} (h : Quiet o) (c : Course) :
    course.allowed c o ∧ ∀ r, course.after c o r = c := by
  rcases o with o | o
  · cases o <;> first | exact h.elim | exact ⟨trivial,fun r => by cases r <;> rfl⟩
  · cases o <;> first | exact h.elim | exact ⟨trivial,fun r => by cases r <;> rfl⟩

section quiet
variable {α : Type} {c : Course} {I : Course → Prop}

theorem wp_quiet {p : Awaits α} (h : Performs Quiet p) : wp course c p fun c' _ => c' = c :=
  wp_of_performs h fun _ ho => Course.after_quiet ho c

theorem wp_quietOp {p : Action α} (h : Performs QuietOp p) : wp course.left c p fun c' _ => c' = c :=
  wp_of_performs h fun _ ho => Course.after_quiet ho c

/-- After a quiet program that returns, its continuation is asked what is asked of both. -/
theorem wp_quiet_then {β : Type} {p : Action α} (hp : Performs QuietOp p) {f : α → Action β}
    {post : Course → Except Err β → Prop} (herror : ∀ e, post c (.error e))
    (hok : ∀ a, wp course.left c (f a) post) : wp course.left c (p >>= f) post := by
  rw [wp_bind]
  apply wp_mono (wp_quietOp hp)
  rintro _ r rfl
  cases r with
  | ok a => exact hok a
  | error e => exact herror e

theorem keeps_quiet {p : Awaits α} (h : Performs Quiet p) : Keeps course I p := by
  intro c hc
  apply wp_mono (wp_quiet h)
  intro c' _ heq
  rwa [heq]

theorem keeps_quietOp {p : Action α} (h : Performs QuietOp p) : Keeps course.left I p := by
  intro c hc
  apply wp_mono (wp_quietOp h)
  intro c' _ heq
  rwa [heq]

theorem keeps_await {o : Callee} (h : Quiet (.inr o)) : Keeps course I (await o) :=
  keeps_quiet (performs_perform h)

theorem quietOp_of_plain {o : Op} (h : Plain o) : QuietOp o := by
  cases o <;> first | exact h.elim | exact trivial

theorem keeps_plain {p : Action α} (h : Performs Plain p) : Keeps course.left I p :=
  keeps_quietOp (performs_mono h fun _ => quietOp_of_plain)

/-- After a plain program, its continuation is asked what is asked of both. -/
theorem wp_plain_then {β : Type} {p : Action α} (hp : Performs Plain p) {f : α → Action β}
    {post : Course → Except Err β → Prop} (herror : ∀ e, post c (.error e))
    (hok : ∀ a, wp course.left c (f a) post) : wp course.left c (p >>= f) post :=
  wp_quiet_then (performs_mono hp fun _ => quietOp_of_plain) herror hok

end quiet

/-! The programs that read the document and write it back -/

section document
variable {c : Course} {settings : Sessions.Settings}

theorem wp_getState : wp course.left c StateStore.getState (yields fun c' state => c' = c.read state) := by
  refine ⟨trivial,fun r hr => ?_⟩
  match r with
  | .ok none => cases hr
  | .ok (some state) => rfl
  | .error e => cases hr

theorem wp_saveState {state : SessionState} (ttlSeconds : Nat) (h : c.permits (.inl (.setState state ttlSeconds))) :
    wp course.left c (StateStore.saveState state ttlSeconds) (yields fun c' _ => c' = c.write state) := by
  refine ⟨h,fun r hr => ?_⟩
  cases r with
  | ok u => rfl
  | error e => cases hr

theorem wp_getStateOrNone :
    wp course.left c StateStore.getStateOrNone (yields fun c' reply => ∃ state, reply = some state ∧ c' = c.read state) := by
  refine ⟨trivial,fun r hr => ?_⟩
  match r with
  | .ok none => cases hr
  | .ok (some state) => exact ⟨state,rfl,rfl⟩
  | .error e => cases hr

theorem wp_loadOrReconcileState :
    wp course.left c (SessionManager.loadOrReconcileState settings) (yields fun c' state => c' = c.read state) := by
  apply wp_yields wp_getStateOrNone
  rintro c' reply ⟨state,rfl,rfl⟩
  rfl

/-- A document that is read is written back with its flag, until the turn has reported. -/
theorem permits_read {state new : SessionState} {ttlSeconds : Nat} (h : c.marks.reported = false)
    (hflag : new.interrupt = state.interrupt) : (c.read state).permits (.inl (.setState new ttlSeconds)) := by
  refine ⟨state,rfl,?_⟩
  change new.interrupt = (state.interrupt && (!c.marks.reported || c.marks.cleared))
  rw [hflag,h,Bool.not_false,Bool.true_or,Bool.and_true]

theorem wp_updatePhase (phase : SessionPhase) (h : c.marks.reported = false ∨ c.marks.cleared = true) :
    wp course.left c (StateStore.updatePhase settings phase) (yields fun c' _ =>
      ∃ state sequence, c' = (c.read state).write { state with phase, sequence }) := by
  apply wp_yields wp_getState
  rintro _ state rfl
  apply wp_yields
  · apply wp_saveState
    refine ⟨state,rfl,?_⟩
    change state.interrupt = (state.interrupt && (!c.marks.reported || c.marks.cleared))
    rcases h with h | h <;> simp [h]
  · rintro _ u rfl
    exact ⟨state,_,rfl⟩

theorem wp_clearInterrupt (h : c.marks.reported = true) (h' : c.marks.cleared = false) :
    wp course.left c (StateStore.clearInterrupt settings) (yields fun c' _ =>
      ∃ state sequence, c' = (c.read state).write { state with interrupt := false, sequence }) := by
  apply wp_yields wp_getState
  rintro _ state rfl
  apply wp_yields
  · apply wp_saveState
    refine ⟨state,rfl,?_⟩
    change false = (state.interrupt && (!c.marks.reported || c.marks.cleared))
    simp [h,h']
  · rintro _ u rfl
    exact ⟨state,_,rfl⟩

/-- Properties of a turn before its report that survive writing back what was read. -/
structure Steady (I : Course → Prop) : Prop where
  unreported : ∀ {c}, I c → c.marks.reported = false
  read : ∀ {c} state, I c → I (c.read state)
  rewrite : ∀ {c} {state new : SessionState}, I c → new.phase = state.phase → new.interrupt = state.interrupt →
    I ((c.read state).write new)

variable {I : Course → Prop}

theorem Steady.recordHeartbeat (hI : Steady I) : Keeps course.left I (StateStore.recordHeartbeat settings) := by
  apply keeps_bind (keeps_plain (plain_execute (o := .now) trivial))
  intro now
  apply keeps_bind (keeps_plain (plain_execute (o := .setHeartbeat now) trivial))
  intro _ c hc
  apply wp_yields wp_getState
  rintro _ state rfl
  apply wp_plain_then (plain_execute (o := .now) trivial) fun e => hI.read state hc
  intro later
  have hpermit : (c.read state).permits
      (.inl (.setState { state with lastHeartbeat := some later } settings.sessionStateTtlSeconds)) :=
    permits_read (hI.unreported hc) rfl
  apply wp_mono (wp_saveState _ hpermit)
  intro c' r hr
  cases r with
  | ok u =>
    obtain rfl : c' = (c.read state).write { state with lastHeartbeat := some later } := hr
    exact hI.rewrite hc rfl rfl
  | error e => exact hr.elim

/-- The write of a document that was read, with the heartbeat after it. -/
theorem Steady.writeEphemeralState (hI : Steady I) (state new : SessionState) (status : SessionStatus) (hc : I c)
    (hflag : new.interrupt = state.interrupt) (hnew : I ((c.read state).write new)) :
    wp course.left (c.read state) (SessionManager.writeEphemeralState settings new status) fun c' _ => I c' := by
  apply wp_yields (wp_saveState _ (permits_read (hI.unreported hc) hflag))
  rintro _ u rfl
  exact hI.recordHeartbeat _ hnew

theorem Steady.getSessionConfig (hI : Steady I) : Keeps course.left I SessionManager.getSessionConfig := by
  intro c hc
  apply wp_yields wp_getStateOrNone
  rintro _ reply ⟨state,rfl,rfl⟩
  exact hI.read state hc

theorem Steady.trackToolFailures (hI : Steady I) (failedCount : Int) :
    Keeps course.left I (SessionManager.trackToolFailures settings failedCount) := by
  intro c hc
  apply wp_yields wp_loadOrReconcileState
  rintro _ state rfl
  apply wp_plain_then (plain_get none) fun e => hI.read state hc
  intro row
  have hwrite (config : SessionConfig) : wp course.left (c.read state)
      (SessionManager.writeEphemeralState settings { state with config } row.status) fun c' _ => I c' :=
    hI.writeEphemeralState state _ row.status hc rfl (hI.rewrite hc rfl rfl)
  change wp course.left (c.read state) (SessionManager.writeEphemeralState _ _ _ >>= _) _
  rw [wp_bind]
  apply wp_mono (hwrite _)
  intro c' r hc'
  cases r with
  | ok u => exact hc'
  | error e => exact hc'

/-- From the speaking phase to the report: the phase is that of the turn, or that of the
handoff it has opened. -/
structure Speaking (c : Course) : Prop where
  unreported : c.marks.reported = false
  uncleared : c.marks.cleared = false
  phase : c.trusted = true → c.flagged = false →
    if c.marks.stored then c.phase = .handoffPending ∧ c.marks.opened = true else c.phase = .speaking

theorem Speaking.read (h : Speaking c) (state : SessionState) : Speaking (c.read state) := by
  refine ⟨h.unreported,h.uncleared,fun htrusted hflag => ?_⟩
  change (c.trusted && (state.interrupt || (!c.flagged && state.phase = c.phase))) = true at htrusted
  change state.interrupt = false at hflag
  simp only [hflag,Bool.false_or,Bool.and_eq_true,Bool.not_eq_true',decide_eq_true_eq] at htrusted
  exact h.phase htrusted.1 htrusted.2.1

theorem Speaking.rewrite (h : Speaking c) {state new : SessionState} (hphase : new.phase = state.phase)
    (hflag : new.interrupt = state.interrupt) : Speaking ((c.read state).write new) := by
  refine ⟨h.unreported,h.unreported,fun htrusted hclear => ?_⟩
  change (c.trusted && (state.interrupt || (!c.flagged && state.phase = c.phase))) = true at htrusted
  change new.interrupt = false at hclear
  simp only [← hflag,hclear,Bool.false_or,Bool.and_eq_true,Bool.not_eq_true',decide_eq_true_eq] at htrusted
  obtain ⟨htrusted,hunflagged,hsame⟩ := htrusted
  have hown := h.phase htrusted hunflagged
  change if c.marks.stored || new.phase = .handoffPending then new.phase = .handoffPending ∧ c.marks.opened = true
    else new.phase = .speaking
  rw [hphase,hsame]
  cases hstored : c.marks.stored with
  | true =>
    rw [hstored,if_pos rfl] at hown
    rw [Bool.true_or,if_pos rfl]
    exact hown
  | false =>
    rw [hstored,if_neg Bool.false_ne_true] at hown
    simp [hown]

theorem Speaking.opened (h : Speaking c) (inserted : Bool) :
    Speaking { c with marks := { c.marks with opened := c.marks.opened || inserted } } := by
  refine ⟨h.unreported,h.uncleared,fun htrusted hflag => ?_⟩
  have hown := h.phase htrusted hflag
  dsimp only
  split
  · next hstored =>
    rw [if_pos hstored] at hown
    exact ⟨hown.1,by rw [hown.2,Bool.true_or]⟩
  · next hstored =>
    rw [if_neg hstored] at hown
    exact hown

theorem steady_speaking : Steady Speaking :=
  ⟨fun h => h.unreported,fun state h => h.read state,fun h hphase hflag => h.rewrite hphase hflag⟩

/-- A turn that speaks and has opened a handoff. -/
structure Opened (c : Course) : Prop extends Speaking c where
  inserted : c.marks.opened = true

theorem steady_opened : Steady Opened :=
  ⟨fun h => h.unreported,fun state h => ⟨h.read state,h.inserted⟩,
    fun h hphase hflag => ⟨h.toSpeaking.rewrite hphase hflag,h.inserted⟩⟩

/-- The phase of a pending handoff is written for the handoff that the turn has opened. -/
theorem keeps_applyHandoffPending (context : HandoffContext) :
    Keeps course.left Opened (SessionManager.applyHandoffPending settings context) := by
  have hopen : SessionStatus.terminal .handoffPending = false := rfl
  apply keeps_bind (keeps_discard (keeps_plain (plain_updateStatus hopen)))
  intro _ c hc
  apply wp_yields wp_loadOrReconcileState
  rintro _ state rfl
  have hpending (config : SessionConfig) :
      Opened ((c.read state).write { state with phase := .handoffPending, config }) := by
    refine ⟨⟨hc.unreported,hc.unreported,fun _ _ => ?_⟩,hc.inserted⟩
    change if c.marks.stored || decide (SessionPhase.handoffPending = .handoffPending) then
      SessionPhase.handoffPending = .handoffPending ∧ c.marks.opened = true else _
    rw [decide_eq_true rfl,Bool.or_true,if_pos rfl]
    exact ⟨rfl,hc.inserted⟩
  have hwrite (config : SessionConfig) : wp course.left (c.read state) (SessionManager.writeEphemeralState settings
      { state with phase := .handoffPending, config } .handoffPending) fun c' _ => Opened c' :=
    steady_opened.writeEphemeralState state _ .handoffPending hc rfl (hpending config)
  exact hwrite _

end document

section handoff
variable {c : Course} {settings : HandoffOrchestrator.Settings}

theorem keeps_package (req : Initiation) (record : HandoffRecord) :
    Keeps course.left Opened (package settings req record) := by
  apply keeps_bind (keeps_plain (plain_execute (o := .generateReplayLink record.id) trivial))
  intro link
  apply keeps_bind (keeps_plain (plain_ticketFor req record link.1))
  intro ticketId
  apply keeps_bind (keeps_plain plain_summarize)
  intro summary
  apply keeps_bind (keeps_plain (plain_recordEvent _ _ _))
  intro _
  apply keeps_bind (keeps_plain (plain_recordEvent _ _ _))
  intro _
  apply keeps_bind (keeps_plain (plain_execute (o := .assign record.id _) trivial))
  intro assignment
  apply keeps_bind (keeps_plain (plain_recordEvent _ _ _))
  intro _
  apply keeps_bind (keeps_plain (plain_execute (o := .selectMessages 100) trivial))
  intro messages
  apply keeps_bind (keeps_discard (keeps_plain (plain_saveSnapshot _)))
  intro _
  apply keeps_bind (keeps_plain (plain_execute (o := .now) trivial))
  intro now
  apply keeps_bind (keeps_plain (plain_updateHandoff _ _ _ _ _))
  intro reply
  cases reply with
  | none => exact keeps_raise _
  | some updated =>
    apply keeps_bind (keeps_plain (plain_execute (o := .linkSession updated.id _) trivial))
    intro _
    apply keeps_bind (keeps_applyHandoffPending _)
    intro _
    exact keeps_bind (keeps_discard (keeps_plain (plain_execute (o := .countPending req.orgId) trivial)))
      fun _ => keeps_pure _

/-- A record that is returned as created has been inserted. -/
theorem wp_createHandoff (orgId : OrgId) (trigger : HandoffTrigger) (reason : String) (hc : Speaking c) :
    wp course.left c (createHandoff orgId trigger reason) fun c' r =>
      Speaking c' ∧ ∀ record, r = .ok (record,true) → Opened c' := by
  have hraise {c' : Course} (h : Speaking c') (e : Err) :
      Speaking c' ∧ ∀ record, (.error e : Except Err (HandoffRecord × Bool)) = .ok (record,true) → Opened c' :=
    ⟨h,fun record heq => by cases heq⟩
  apply wp_plain_then (plain_execute (o := .selectHandoffBySession orgId) trivial) (hraise hc)
  intro reply
  cases reply with
  | some existing => exact ⟨hc,fun record heq => by cases heq⟩
  | none =>
    apply wp_plain_then (plain_execute (o := .now) trivial) (hraise hc)
    intro now
    apply wp_plain_then (plain_execute (o := .newId) trivial) (hraise hc)
    intro id
    rw [wp_bind]
    refine (wp_perform _ _).mpr ⟨trivial,fun r _ => ?_⟩
    cases r with
    | error e => exact hraise hc e
    | ok inserted =>
      have hs := hc.opened inserted
      cases inserted with
      | true =>
        apply wp_plain_then (plain_recordEvent id orgId .created) (hraise hs)
        intro _
        apply wp_plain_then (plain_getHandoff id orgId) (hraise hs)
        intro reply
        cases reply with
        | none => exact hraise hs _
        | some record => exact ⟨hs,fun _ _ => ⟨hs,Bool.or_true _⟩⟩
      | false =>
        apply wp_plain_then (plain_execute (o := .selectHandoffBySession orgId) trivial) (hraise hs)
        intro reply
        cases reply with
        | none => exact hraise hs _
        | some existing => exact ⟨hs,fun record heq => by cases heq⟩

theorem keeps_initiateHandoff (req : Initiation) : Keeps course.left Speaking (initiateHandoff settings req) := by
  apply keeps_bind (keeps_plain (plain_execute (o := .selectHandoffBySession req.orgId) trivial))
  intro reply
  cases reply with
  | some existing => exact keeps_pure _
  | none =>
    intro c hc
    rw [wp_bind]
    apply wp_mono (wp_createHandoff req.orgId req.trigger req.reason hc)
    rintro c' r ⟨hspeaking,hopened⟩
    cases r with
    | error e => exact hspeaking
    | ok created =>
      obtain ⟨record,created⟩ := created
      cases created with
      | true =>
        apply wp_mono (keeps_package req record c' (hopened record rfl))
        intro _ _ h
        exact h.toSpeaking
      | false => exact hspeaking

end handoff

/-! The turn -/

section turn
variable {settings : HandoffOrchestrator.Settings} {wiring : Wiring} {turn : TurnRequest} {I : Course → Prop}

theorem quiet_spoken {c : Callee} (h : Spoken c) : Quiet (.inr c) := by
  cases c <;> first | exact h.elim | exact trivial

theorem keeps_respond : Keeps course Speaking (respond settings turn) := by
  apply composed_respond (compositional_keeps course Speaking)
  · intro c hc
    exact keeps_await (quiet_spoken hc)
  · intro orgId tools
    exact keeps_inl (composed_runTools (compositional_keeps course.left Speaking) keeps_initiateHandoff orgId tools)

theorem quiet_records {o : TurnOp} (h : Records o) : Quiet o := by
  rcases o with o | o <;> cases o <;> first | exact h.elim | trivial

theorem keeps_saveAnswer (text : String) : Keeps course I (saveAnswer wiring turn text) :=
  keeps_quiet (performs_saveAnswer (fun _ => quiet_records) trivial text)

theorem quiet_evaluates {interrupted : Bool} {c : Callee} (h : Evaluates interrupted c) : Quiet (.inr c) := by
  cases c <;> first | exact h.elim | exact trivial

theorem keeps_evaluate (interrupted : Bool) : Keeps course I (evaluate wiring turn interrupted) :=
  keeps_quiet (performs_evaluate fun _ => quiet_evaluates)

theorem keeps_escalate (interrupted : Bool) :
    Keeps course Speaking (escalate settings wiring turn interrupted) := by
  unfold escalate
  split
  · exact keeps_pure _
  · split
    · apply keeps_bind (keeps_await (o := .getLastAgentTrace) trivial)
      intro trace
      apply keeps_bind (keeps_discard (keeps_inl steady_speaking.getSessionConfig))
      intro _
      apply keeps_bind (keeps_discard (keeps_inl (steady_speaking.trackToolFailures _)))
      intro _
      apply keeps_bind (keeps_await (o := .evaluatePolicy interrupted) trivial)
      intro decision
      cases decision with
      | none => exact keeps_pure _
      | some decision => exact keeps_discard (keeps_inl (keeps_initiateHandoff _))
    · exact keeps_pure _

theorem keeps_answer : Keeps course Speaking (answer settings wiring turn) := by
  apply keeps_bind (keeps_discard (keeps_inl steady_speaking.getSessionConfig))
  intro _
  apply keeps_bind keeps_respond
  intro speech
  apply keeps_bind (keeps_saveAnswer speech.text)
  intro _
  apply keeps_bind (keeps_await (o := .saveTurnMetrics) trivial)
  intro _
  apply keeps_bind (keeps_evaluate speech.interrupted)
  intro _
  apply keeps_bind (keeps_escalate speech.interrupted)
  intro _
  split
  · exact keeps_bind (keeps_await (o := .recordOutcome speech.interrupted) trivial) fun _ => keeps_await trivial
  · exact keeps_await trivial

theorem quiet_prepare : Performs Quiet (prepare wiring turn) := performs_prepare fun _ => quiet_records

/-- How a turn ends: listening, where it has reported; else in the phase of its last write,
unless some document it read was flagged. -/
structure Ended (c : Course) : Prop where
  reported : c.marks.reported = true → c.phase = .listening
  raised : c.marks.reported = false → c.trusted = true → c.flagged = false →
    if c.marks.stored then c.phase = .handoffPending ∧ c.marks.opened = true
    else c.phase = .processing ∨ c.phase = .speaking

theorem Speaking.ended {c : Course} (h : Speaking c) : Ended c := by
  refine ⟨fun hreported => ?_,fun _ htrusted hflag => ?_⟩
  · rw [h.unreported] at hreported
    cases hreported
  · have hown := h.phase htrusted hflag
    split
    · next hstored => rwa [if_pos hstored] at hown
    · next hstored =>
      rw [if_neg hstored] at hown
      exact .inr hown

theorem wp_phase {c : Course} (phase : SessionPhase) (h : c.marks.reported = false ∨ c.marks.cleared = true) :
    wp course c (discard (statements (StateStore.updatePhase settings.toSettings phase))) (yields fun c' _ =>
      ∃ state sequence, c' = (c.read state).write { state with phase, sequence }) :=
  wp_yields_discard (wp_inl.mpr (wp_updatePhase phase h))

/-- After the report: the commands of Redis that clear the flag and set the phase. -/
theorem wp_close {c : Course} (h : c.marks.reported = true) (h' : c.marks.cleared = false) :
    wp course c (do
      discard (statements (StateStore.clearInterrupt settings.toSettings))
      discard (statements (StateStore.updatePhase settings.toSettings .listening)) : Awaits Unit) fun c _ => Ended c := by
  have hclear : wp course c (discard (statements (StateStore.clearInterrupt settings.toSettings)) : Awaits PUnit)
      (yields fun c _ => c.marks.reported = true ∧ c.marks.cleared = true) := by
    apply wp_yields_discard
    apply wp_mono (wp_inl.mpr (wp_clearInterrupt h h'))
    intro c r hr
    cases r with
    | ok a =>
      obtain ⟨state,sequence,rfl⟩ := hr
      exact ⟨h,h⟩
    | error e => exact hr.elim
  apply wp_yields hclear
  rintro c _ ⟨hreported,hcleared⟩
  apply wp_mono (wp_phase .listening (.inr hcleared))
  intro c' r hr
  cases r with
  | error e => exact hr.elim
  | ok a =>
    obtain ⟨state,sequence,rfl⟩ := hr
    refine ⟨fun _ => rfl,fun hnot => ?_⟩
    have hnot : c.marks.reported = false := hnot
    rw [hreported] at hnot
    cases hnot

theorem wp_processTurn (phase : SessionPhase) :
    wp course { phase } (processTurn settings wiring turn) fun c _ => Ended c := by
  apply wp_yields (wp_phase .processing (.inl rfl))
  rintro c _ ⟨state,sequence,rfl⟩
  generalize hc : Course.write _ _ = c
  have hprocessing : c.marks = {} ∧ c.phase = .processing := by rw [← hc]; exact ⟨rfl,rfl⟩
  rw [wp_bind]
  apply wp_mono (wp_quiet quiet_prepare)
  rintro c r rfl
  cases r with
  | error e =>
    refine ⟨fun h => ?_,fun _ _ _ => ?_⟩
    · rw [hprocessing.1] at h
      cases h
    · rw [hprocessing.1]
      exact .inl hprocessing.2
  | ok u =>
    apply wp_yields (wp_phase .speaking (.inl (by rw [hprocessing.1])))
    rintro c' _ ⟨state',sequence',rfl⟩
    have hspeaking : Speaking ((c.read state').write { state' with phase := .speaking, sequence := sequence' }) := by
      refine ⟨by simp [Course.write,Course.read,Marks.write,hprocessing.1],
        by simp [Course.write,Course.read,Marks.write,hprocessing.1],fun _ _ => ?_⟩
      simp [Course.write,Course.read,Marks.write,hprocessing.1]
    rw [wp_bind]
    apply wp_mono (keeps_answer _ hspeaking)
    intro c' r hc'
    cases r with
    | error e => exact hc'.ended
    | ok u =>
      -- What follows the report are commands of Redis.
      change wp course c' (await .onMetrics >>= _) _
      rw [wp_bind]
      refine (wp_perform _ _).mpr ⟨trivial,fun r _ => ?_⟩
      cases r with
      | error e => exact hc'.ended
      | ok u =>
        exact wp_close rfl hc'.uncleared

/-- Nor does its caller write the document. -/
theorem wp_program (caller : Caller) (phase : SessionPhase) :
    wp course { phase } (caller.program settings wiring turn) fun c _ => Ended c := by
  have hcaught {h : Err → Awaits Unit} (hh : ∀ e, Keeps course Ended (h e)) :
      wp course { phase } (Prog.tryCatch (processTurn settings wiring turn) h) fun c _ => Ended c := by
    rw [wp_tryCatch]
    apply wp_mono (wp_processTurn phase)
    intro c r hc
    cases r with
    | ok u => exact hc
    | error e => exact hh e c hc
  cases caller with
  | runListening =>
    apply hcaught
    intro e
    split
    · exact keeps_raise _
    · exact keeps_await trivial
  | runTextTurn => exact hcaught fun e => keeps_raise e

end turn

end VoxForge.Pipeline.VoicePipelineService
