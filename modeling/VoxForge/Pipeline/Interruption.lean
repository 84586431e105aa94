import VoxForge.Pipeline.Conversation
import VoxForge.Pipeline.Speaking

/-! Turns that are interrupted, at any moment: what is put out after that, what is saved, and
whether the interrupt is counted as it is told. -/
namespace VoxForge.Pipeline.VoicePipelineService
open Foundation Core Persistence Sessions Handoffs HandoffOrchestrator Prog SentenceBuffer

/-! The turn after its speech -/

/-- The speech is over, and what is saved and told of it is that speech. -/
structure Closing (speech : Speech) (c : Output) : Prop where
  heard : c.heard = speech.text
  said : visible (joined c.requested) <+: visible speech.text.toList
  saved : ∀ text ∈ c.rows ++ c.history, text = speech.text
  tallied : Tallied speech c
  told : ∀ interrupted ∈ c.told, interrupted = speech.interrupted

theorem Over.closing {speech : Speech} {c : Output} (h : Over speech c) : Closing speech c := by
  obtain ⟨⟨rest,hkept⟩,htallied⟩ := h
  refine ⟨hkept.heard,⟨visible rest,hkept.said⟩,?_,htallied,?_⟩
  · simp [hkept.rows,hkept.history]
  · simp [hkept.told]

theorem Closing.clear {speech : Speech} {c : Output} (h : Closing speech c) (clear : Bool) :
    Closing speech { c with clear } := { h with }

/-- The speech is saved, if there is any. -/
def Stored (speech : Speech) (c : Output) : Prop :=
  speech.text ≠ "" → speech.text ∈ c.rows ∧ speech.text ∈ c.history

/-- What a turn leaves. -/
def Finished (c : Output) (r : Except Err Unit) : Prop :=
  ∃ speech, Closing speech c ∧ (r.isOk = true → Stored speech c)

section closing
variable {settings : HandoffOrchestrator.Settings} {wiring : Wiring} {turn : TurnRequest} {speech : Speech} {c : Output}

theorem aside_own {α : Type} {p : Action α} (hp : Performs Own p) : Performs Aside (statements p) :=
  performs_statements (ordinary_own hp) fun _ => aside_ordinary

theorem aside_prepare : Performs Aside (prepare wiring turn) := by
  have hrow : Aside (.inl (.insertMessage ⟨.user,turn.transcript⟩)) := nofun
  have hinsert : Performs Aside (statements (execute (.insertMessage ⟨.user,turn.transcript⟩))) :=
    performs_inl (performs_perform hrow)
  apply performs_bind hinsert
  intro _
  apply performs_bind (performs_remember (fun _ _ => trivial) _ _)
  intro _
  exact performs_await trivial

theorem Closing.history (h : Closing speech c) (r : Except Err Unit) :
    Closing speech (outputs.after c (.inr (.addAssistantMessage speech.text)) r) := by
  refine { h with saved := fun text htext => ?_ }
  rcases List.mem_append.mp htext with hrow | hhistory
  · exact h.saved text (List.mem_append_left _ hrow)
  · rcases List.mem_append.mp hhistory with hbefore | hnew
    · exact h.saved text (List.mem_append_right _ hbefore)
    · exact List.mem_singleton.mp hnew

theorem Closing.row (h : Closing speech c) (r : Except Err Unit) :
    Closing speech (outputs.after c (.inl (.insertMessage ⟨.assistant,speech.text⟩)) r) := by
  refine { h with saved := fun text htext => ?_ }
  rcases List.mem_append.mp htext with hrow | hhistory
  · rcases List.mem_append.mp hrow with hbefore | hnew
    · exact h.saved text (List.mem_append_left _ hbefore)
    · exact List.mem_singleton.mp hnew
  · exact h.saved text (List.mem_append_right _ hhistory)

/-- A part of the turn after its speech. -/
def Closes (speech : Speech) (c : Output) (r : Except Err Unit) : Prop :=
  Closing speech c ∧ (r.isOk = true → Stored speech c)

theorem saveAnswer_closes (h : Over speech c) : wp outputs c (saveAnswer wiring turn speech.text) (Closes speech) := by
  unfold saveAnswer
  split
  · refine wp_aside_then (performs_discard (performs_await trivial)) (fun clear e => ⟨h.closing.clear clear,nofun⟩)
      fun clear _ => ?_
    have hclosing := h.closing.clear clear
    refine wp_perform_then nofun (fun e => ⟨hclosing.history _,nofun⟩) fun _ => ?_
    have hheld := hclosing.history (.ok ())
    refine (wp_bind _ _ _).mpr (wp_inl.mpr ((wp_perform _ _).mpr ⟨nofun,fun r _ => ?_⟩))
    have hsaved := hheld.row r
    cases r with
    | error e => exact ⟨hsaved,nofun⟩
    | ok u =>
      have hremember : Performs Aside (remember wiring turn .assistant speech.text) :=
        performs_remember (fun _ _ => trivial) _ _
      apply wp_mono (wp_aside hremember)
      rintro _ r ⟨clear',rfl⟩
      refine ⟨hsaved.clear clear',fun _ _ => ⟨?_,?_⟩⟩
      · exact List.mem_append_right _ (List.mem_singleton_self _)
      · exact List.mem_append_right _ (List.mem_singleton_self _)
  · next hempty => exact ⟨h.closing,fun _ hspoken => absurd hspoken hempty⟩

/-- After the speech and its saving: asides, and what the consumers are told. -/
def Reports (speech : Speech) (o : TurnOp) : Prop :=
  Aside o ∨ o = .inr (.evaluateTurn speech.interrupted) ∨ o = .inr (.evaluatePolicy speech.interrupted) ∨
    o = .inr (.recordOutcome speech.interrupted)

theorem Closing.tell (h : Closing speech c) :
    Closing speech { c with told := c.told ++ [speech.interrupted], clear := false } := by
  refine { h with told := fun interrupted htold => ?_ }
  rcases List.mem_append.mp htold with hbefore | hnew
  · exact h.told interrupted hbefore
  · exact List.mem_singleton.mp hnew

theorem Reports.keeps {α : Type} {p : Awaits α} (hp : Performs (Reports speech) p) :
    Keeps outputs (fun c => Closing speech c ∧ Stored speech c) p := by
  refine keeps_of_performs hp ?_
  rintro o c (haside | rfl | rfl | rfl) ⟨hclosing,hstored⟩
  · refine ⟨(Output.after_aside haside c (.error .fault)).1,fun r _ => ?_⟩
    rw [(Output.after_aside haside c r).2]
    exact ⟨hclosing.clear false,hstored⟩
  · exact ⟨nofun,fun _ _ => ⟨hclosing.tell,hstored⟩⟩
  · exact ⟨nofun,fun _ _ => ⟨hclosing.tell,hstored⟩⟩
  · exact ⟨nofun,fun _ _ => ⟨hclosing.tell,hstored⟩⟩

theorem reports_aside {α : Type} {p : Awaits α} (hp : Performs Aside p) : Performs (Reports speech) p :=
  performs_mono hp fun _ => .inl

theorem reports_evaluate : Performs (Reports speech) (evaluate wiring turn speech.interrupted) := by
  apply performs_evaluate
  intro c hc
  cases c with
  | evaluateTurn told =>
    obtain rfl : told = speech.interrupted := hc
    exact .inr (.inl rfl)
  | _ => first | exact hc.elim | exact .inl trivial

theorem reports_escalate : Performs (Reports speech) (escalate settings wiring turn speech.interrupted) :=
  performs_escalate (fun _ ho => .inl (aside_ordinary ho)) (.inl trivial) (.inr (.inr (.inl rfl)))

theorem finished_fresh (clear : Bool) (e : Err) : Finished { clear := clear } (.error e) :=
  ⟨{},(going_fresh clear).over.closing,nofun⟩

/-- What follows a saved speech. -/
theorem Reports.finished {p : Awaits Unit} (hp : Performs (Reports speech) p) (h : Closing speech c ∧ Stored speech c) :
    wp outputs c p Finished := by
  apply wp_mono (Reports.keeps hp c h)
  rintro c' r ⟨hclosing,hstored⟩
  exact ⟨speech,hclosing,fun _ => hstored⟩

/-- The turn from its speaking phase to its commit. -/
theorem answer_finished (clear : Bool) : wp outputs { clear := clear } (answer settings wiring turn) Finished := by
  have hconfig : Performs Aside (discard (statements SessionManager.getSessionConfig)) :=
    performs_discard (aside_own own_getSessionConfig)
  refine wp_aside_then hconfig finished_fresh fun clear _ => ?_
  rw [wp_bind]
  apply wp_mono (respond_over clear)
  intro c r hover
  cases r with
  | error e =>
    obtain ⟨speech,hspeech⟩ := hover
    exact ⟨speech,hspeech.closing,nofun⟩
  | ok speech =>
    refine (wp_bind _ _ _).mpr (wp_mono (saveAnswer_closes hover) fun c r hsaved => ?_)
    cases r with
    | error e => exact ⟨speech,hsaved⟩
    | ok u =>
      have hclosed : Closing speech c ∧ Stored speech c := ⟨hsaved.1,hsaved.2 rfl⟩
      refine Reports.finished ?_ hclosed
      apply performs_bind (reports_aside (performs_await (c := .saveTurnMetrics) trivial))
      intro _
      apply performs_bind reports_evaluate
      intro _
      apply performs_bind reports_escalate
      intro _
      dsimp only
      split
      · exact performs_bind (performs_await (.inr (.inr (.inr rfl)))) fun _ => performs_await (.inl trivial)
      · exact performs_await (.inl trivial)

theorem processTurn_finished : wp outputs {} (processTurn settings wiring turn) Finished := by
  have hphase (phase : SessionPhase) :
      Performs Aside (discard (statements (StateStore.updatePhase settings.toSettings phase))) :=
    performs_discard (aside_own (own_updatePhase _))
  have hinterrupt : Performs Aside (discard (statements (StateStore.clearInterrupt settings.toSettings))) :=
    performs_discard (aside_own own_clearInterrupt)
  refine wp_aside_then (hphase .processing) finished_fresh fun clear _ => ?_
  refine wp_aside_then aside_prepare finished_fresh fun clear _ => ?_
  refine wp_aside_then (hphase .speaking) finished_fresh fun clear _ => ?_
  rw [wp_bind]
  apply wp_mono (answer_finished clear)
  rintro c r ⟨speech,hclosing,hstored⟩
  cases r with
  | error e => exact ⟨speech,hclosing,nofun⟩
  | ok u =>
    have hclosed : Closing speech c ∧ Stored speech c := ⟨hclosing,hstored rfl⟩
    refine Reports.finished (reports_aside ?_) hclosed
    apply performs_bind (performs_await (c := .onMetrics) trivial)
    intro _
    apply performs_bind hinterrupt
    intro _
    exact hphase .listening

end closing
/-! Interrupts -/

/-- A run's answers, and when its event is set: it stays set, and a check of it takes no time.
The checks read the event of this very turn; a second start on the socket would replace it. -/
structure Interruption where
  answers : Strategy TurnOp TurnReply Err
  isSet : List (Prog.Event TurnOp TurnReply Err) → Bool
  stays : ∀ past event, isSet past = true → isSet (past ++ [event]) = true
  instant : ∀ past r, isSet (past ++ [⟨.inr .interruptSet,r⟩]) = isSet past
  read : ∀ past, answers past (.inr .interruptSet) = .ok (isSet past)
  counted : ∀ past, answers past (.inr .turnsInterrupted) = .ok ()

/-- What has come of a turn by then. -/
def output (events : List (Prog.Event TurnOp TurnReply Err)) : Output := outputs.follow {} events

namespace Interruption
variable (i : Interruption) {events : List (Prog.Event TurnOp TurnReply Err)}

theorem isSet_of_clear (h : Answered i.answers events) (hclear : (output events).clear = true) :
    i.isSet events = false := by
  revert hclear
  refine h.induct (J := fun past => (output past).clear = true → i.isSet past = false) nofun ?_
  intro past o _ hclear
  rw [output,Discipline.follow_concat] at hclear
  by_cases ho : o = .inr .interruptSet
  · subst ho
    rw [i.instant]
    dsimp only at hclear
    rw [i.read] at hclear
    cases hset : i.isSet past with
    | false => rfl
    | true =>
      rw [hset] at hclear
      cases hclear
  · rw [Output.after_other ho] at hclear
    cases hclear

/-- The event and the counter do not fail, and a finding comes from an event that is set. -/
theorem steady (h : Answered i.answers events) :
    (output events).steady = true ∧ ((output events).finding.isSome = true → i.isSet events = true) := by
  refine h.induct (J := fun past => (output past).steady = true ∧
    ((output past).finding.isSome = true → i.isSet past = true)) ⟨rfl,nofun⟩ ?_
  intro past o ⟨hsteady,hfound⟩
  rw [output,Discipline.follow_concat]
  by_cases ho : o = .inr .interruptSet
  · subst ho
    rw [i.instant]
    dsimp only
    rw [i.read]
    cases hset : i.isSet past with
    | true => exact ⟨hsteady,fun _ => rfl⟩
    | false =>
      have hnone : (output past).finding = none := by
        cases hfinding : (output past).finding with
        | none => rfl
        | some f => simp [hfinding,hset] at hfound
      refine ⟨?_,fun hsome => ?_⟩
      · exact Bool.and_eq_true_iff.mpr ⟨hsteady,by rw [output] at hnone; rw [hnone]; rfl⟩
      · exact absurd (hfound hsome) (by simp [hset])
  · rw [Output.after_other ho]
    refine ⟨Output.note_steady hsteady fun heq => ?_,fun hsome => i.stays _ _ (hfound ?_)⟩
    · subst heq
      dsimp only
      rw [i.counted]
      rfl
    · rw [← Output.note_finding]
      exact hsome

end Interruption

section turns
variable (i : Interruption) (settings : HandoffOrchestrator.Settings) (wiring : Wiring) (turn : TurnRequest)

/-- The outcome of a turn and its events. -/
def Interruption.run : Except Err Unit × List (Prog.Event TurnOp TurnReply Err) :=
  play i.answers (processTurn settings wiring turn)

/-- What comes of a turn. -/
def Interruption.output : Output := VoicePipelineService.output (i.run settings wiring turn).2

theorem run_finished :
    outputs.Obeyed {} (i.run settings wiring turn).2 ∧
      Finished (i.output settings wiring turn) (i.run settings wiring turn).1 :=
  wp_play i.answers (fun _ _ => trivial) processTurn_finished

/-- An interrupt ends what a turn puts out. Nothing is emitted after the event was set, what is
saved is what was heard, all of it where the turn returns, and what was asked of the synthesis is
the start of it. -/
theorem interrupt_stops_output :
    (∀ before event rest, (i.run settings wiring turn).2 = before ++ event :: rest → Emits event.1 →
      i.isSet before = false) ∧
    (∀ text ∈ (i.output settings wiring turn).rows ++ (i.output settings wiring turn).history,
      text = (i.output settings wiring turn).heard) ∧
    ((i.run settings wiring turn).1.isOk = true → (i.output settings wiring turn).heard ≠ "" →
      (i.output settings wiring turn).heard ∈ (i.output settings wiring turn).rows ∧
      (i.output settings wiring turn).heard ∈ (i.output settings wiring turn).history) ∧
    visible (joined (i.output settings wiring turn).requested) <+:
      visible (i.output settings wiring turn).heard.toList := by
  obtain ⟨hobeyed,speech,hclosing,hstored⟩ := run_finished i settings wiring turn
  rw [hclosing.heard]
  refine ⟨fun before event rest heq hemits => ?_,hclosing.saved,hstored,hclosing.said⟩
  have hanswered : Answered i.answers before := by
    have hall : Answered i.answers (i.run settings wiring turn).2 := answered_play _
    rw [heq] at hall
    exact hall.before
  exact i.isSet_of_clear hanswered (hobeyed before event rest heq hemits)

/-- The counter was incremented once if some consumer was told of an interrupt, and else not. -/
def Output.Accounted (c : Output) : Prop := c.increments = if true ∈ c.told then 1 else 0

/-- What every consumer is told, and how often it is counted. -/
theorem accounted_of_told {c : Output} {interrupted : Bool} (htold : ∀ told ∈ c.told, told = interrupted) :
    c.Accounted ↔ c.increments = if interrupted = true ∧ c.told ≠ [] then 1 else 0 := by
  have hmem : true ∈ c.told ↔ interrupted = true ∧ c.told ≠ [] := by
    constructor
    · intro h
      exact ⟨(htold true h).symm,List.ne_nil_of_mem h⟩
    · rintro ⟨rfl,hne⟩
      obtain ⟨told,hmem⟩ := List.exists_mem_of_ne_nil _ hne
      rwa [htold told hmem] at hmem
  unfold Output.Accounted
  simp only [hmem]

/-- A turn that tells its consumers is accounted for unless the check that first finds the event
set comes from the generator, with nothing left to say, or from a chunk, with something left to
say and the generator going on. One that tells none of them is so only where it does not count,
that is where the event is not found set or in the first of these ways. -/
theorem accounted_iff :
    (i.output settings wiring turn).Accounted ↔ ∀ f ∈ (i.output settings wiring turn).finding,
      if (i.output settings wiring turn).told = [] then f.check = .generator ∧ f.saidAll = true else f.Once := by
  obtain ⟨-,speech,hclosing,-⟩ := run_finished i settings wiring turn
  have hsteady : (i.output settings wiring turn).steady = true :=
    (i.steady (answered_play (processTurn settings wiring turn))).1
  obtain ⟨hinterrupted,hincrements⟩ := hclosing.tallied hsteady
  rw [accounted_of_told hclosing.told,hincrements,hinterrupted]
  unfold Output.counted
  cases hfinding : (i.output settings wiring turn).finding with
  | none => simp
  | some f =>
    by_cases htold : (i.output settings wiring turn).told = []
    · simp [htold,f.increments_eq_zero_iff]
    · simp [htold,f.once_iff]

end turns

/-! Two interrupted turns -/

/-- Everything is answered, and the event is set once an operation has been done so often. -/
def interruptedAt (o : TurnOp) (n : Nat) (ho : o ≠ .inr .interruptSet) : Interruption where
  answers past
    | .inr .interruptSet => .ok (decide (n ≤ past.countP fun event => event.1 = o))
    | .inr (.synthesizeStream _) => .ok (1 : Nat)
    | asked => Conversation.smooth past asked
  isSet past := decide (n ≤ past.countP fun event => event.1 = o)
  stays past event h := by
    rw [List.countP_append]
    exact decide_eq_true (Nat.le_add_right_of_le (of_decide_eq_true h))
  instant past r := by
    rw [List.countP_append]
    simp [ho.symm]
  read _ := rfl
  counted _ := rfl

def spoken (events : List GenerationEvent) : TurnRequest where
  orgId := some 1
  transcript := "Hello"
  events

/-- Interrupted between two tokens, where all that was heard has been said. -/
def betweenTokens : Output :=
  (interruptedAt (.inr .nextEvent) 2 nofun).output {} {} (spoken [{ text := "Hi." },{ text := " Bye." }])

/-- Interrupted in the first of two sentences that came in one token. -/
def withinSentence : Output :=
  (interruptedAt (.inr (.synthesizeStream "Hi.")) 1 nofun).output {} {} (spoken [{ text := "Hi. Bye" }])

theorem told_but_miscounted :
    betweenTokens.told = [true,true,true] ∧ betweenTokens.increments = 0 ∧ ¬betweenTokens.Accounted ∧
      withinSentence.told = [true,true,true] ∧ withinSentence.increments = 2 ∧ ¬withinSentence.Accounted := by
  unfold Output.Accounted
  decide +kernel

end VoxForge.Pipeline.VoicePipelineService
