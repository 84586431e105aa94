import VoxForge.Foundation.SharedFlag
import VoxForge.Pipeline.TurnCourse

/-! A turn beside the interrupts of other tasks, one operation at a time: the phase and the
interrupt flag that it leaves in the session's document. -/
namespace VoxForge.Pipeline.VoicePipelineService
open Foundation Core Persistence Prog Access

/-- One session's keys, the turn at work on them, and the interrupts on their way. The last
two fields record what the turn has done: nothing in the program reads them. -/
structure Exchange where
  keys : Keys
  rest : Awaits Unit
  /-- The documents that calls of `interrupt` have read and not yet written back. -/
  inFlight : List SessionState := []
  /-- Interrupts that are stored and whose event is not yet set. -/
  unsignalled : Nat := 0
  interruptSet : Bool := false
  marks : Marks := {}
  accesses : List Access := []

abbrev Replies := (o : TurnOp) → Except Err (TurnReply o)

inductive Label where
  | turn (answers : Replies)
  | interruptReads
  | interruptWrites (i : Nat)
  | interruptSignals

def onRedis : Op → Bool
  | .getState | .setState _ _ | .setHeartbeat _ | .deleteState => true
  | _ => false

namespace Exchange

/-- A flag that is found set counts as an interrupt. -/
def start (state : SessionState) (inFlight : List SessionState) (unsignalled : Nat) (program : Awaits Unit) : Exchange where
  keys := { state := some state }
  rest := program
  inFlight
  unsignalled
  accesses := if state.interrupt then [.flagged] else []

/-- The reply to an operation of the turn, and the keys after it. -/
def reply (s : Exchange) (answers : Replies) : (o : TurnOp) → Option (Except Err (TurnReply o) × Keys)
  | .inl o =>
    if onRedis o then
      let (reply,_,keys) := perform {} {} s.keys o
      some (reply,keys)
    else if fallible (.inl o) || (answers (.inl o)).isOk then some (answers (.inl o),s.keys) else none
  | .inr .interruptSet => some (.ok s.interruptSet,s.keys)
  | .inr o => some (answers (.inr o),s.keys)

def accessBy (m : Marks) : TurnOp → List Access
  | .inl .getState => [.read]
  | .inl (.setState _ _) => [if m.reported && !m.cleared then .cleared else .wrote]
  | _ => []

def finished (s : Exchange) : Bool :=
  match s.rest with
  | .call _ _ => false
  | _ => true

/-- The run ends with the turn. -/
def step (s : Exchange) : Label → Option Exchange
  | .turn answers =>
    match s.rest with
    | .call o k => (s.reply answers o).map fun (reply,keys) => { s with
        keys
        rest := k reply
        marks := s.marks.after o reply
        accesses := s.accesses ++ accessBy s.marks o }
    | _ => none
  | .interruptReads =>
    if s.finished then none
    else s.keys.state.map fun state => { s with inFlight := s.inFlight ++ [state] }
  | .interruptWrites i =>
    if s.finished then none
    else s.inFlight[i]?.map fun state => { s with
      keys := { s.keys with state := some { state with interrupt := true, sequence := state.sequence + 1 } }
      inFlight := s.inFlight.eraseIdx i
      unsignalled := s.unsignalled + 1
      accesses := s.accesses ++ [.flagged] }
  | .interruptSignals =>
    if s.finished || s.unsignalled = 0 then none
    else some { s with interruptSet := true, unsignalled := s.unsignalled - 1 }

/-- The session listens, or waits for an agent if the turn has opened a handoff, and no
interrupt is pending. -/
def AtRest (s : Exchange) : Prop :=
  ∃ state, s.keys.state = some state ∧ state.interrupt = false ∧
    (state.phase = .listening ∨ s.marks.opened = true ∧ state.phase = .handoffPending)

/-- A document as the turn left it: flagged exactly if an interrupt stands, else in the turn's phase. -/
structure Fits (c : Course) (flagged : Prop) (state : SessionState) : Prop where
  flag : state.interrupt = true ↔ flagged
  phase : state.interrupt = false → state.phase = c.phase

/-- The turn's view agrees with the document, but for the interrupts it has not read. -/
structure Agrees (c : Course) (m : Marks) (accesses : List Access) (state : SessionState) : Prop where
  marks : c.marks = m
  trusted : c.trusted = true
  flagged : c.flagged = true ↔ Held accesses
  copy : ∀ copy ∈ c.copy, Fits c (Held accesses) copy
  document : Fits c (Standing accesses) state

/-- What is left of the turn ends as it should, from what the turn has seen and done. -/
def Tracks (s : Exchange) (c : Course) : Prop :=
  (∃ state, s.keys.state = some state ∧ Agrees c s.marks s.accesses state) ∧ wp course c s.rest fun c _ => Ended c

section agrees
variable {c : Course} {m : Marks} {accesses : List Access} {state : SessionState}

theorem agrees_start (state : SessionState) (h : accesses = if state.interrupt then [.flagged] else []) :
    Agrees { phase := state.phase } {} accesses state := by
  have hheld : ¬Held accesses := by
    rw [h]
    split
    · have hnil : ¬Held ([] ++ [.flagged]) := fun hh => not_standing_nil (held_flagged.mp hh).standing
      exact hnil
    · exact fun hh => not_standing_nil hh.standing
  have hstanding : state.interrupt = true ↔ Standing accesses := by
    rw [h]
    cases state.interrupt with
    | true => exact iff_of_true rfl ⟨[],[],rfl,unanswered_nil⟩
    | false => exact iff_of_false Bool.false_ne_true not_standing_nil
  exact ⟨rfl,rfl,iff_of_false Bool.false_ne_true hheld,(fun _ hcopy => by cases hcopy),hstanding,fun _ => rfl⟩

/-- The turn reads the document. -/
theorem Agrees.read (h : Agrees c m accesses state) : Agrees (c.read state) m (accesses ++ [.read]) state := by
  have htrusted : (c.read state).trusted = true := by
    change (c.trusted && (state.interrupt || (!c.flagged && state.phase = c.phase))) = true
    rw [h.trusted,Bool.true_and]
    cases hflag : state.interrupt with
    | true => rfl
    | false =>
      have hunheld : c.flagged = false := by
        apply Bool.eq_false_iff.mpr
        intro hc
        have hset := h.document.flag.mpr (h.flagged.mp hc).standing
        rw [hflag] at hset
        cases hset
      rw [hunheld,h.document.phase hflag]
      simp
  have hheld : state.interrupt = true ↔ Held (accesses ++ [.read]) := by
    rw [held_read]
    exact h.document.flag
  refine ⟨h.marks,htrusted,hheld,fun copy hcopy => ?_,?_,h.document.phase⟩
  · obtain rfl : state = copy := Option.some.inj hcopy
    exact ⟨hheld,h.document.phase⟩
  · rw [standing_read]
    exact h.document.flag

/-- The turn writes the document. -/
theorem Agrees.write {new : SessionState} (ttlSeconds : Nat) (h : Agrees c m accesses state)
    (hpermit : c.permits (.inl (.setState new ttlSeconds))) :
    Agrees (c.write new) (m.write new) (accesses ++ [if m.reported && !m.cleared then .cleared else .wrote]) new := by
  obtain ⟨old,hcopy,hflag⟩ := hpermit
  rw [h.marks] at hflag
  have hmarks : c.marks.write new = m.write new := by rw [h.marks]
  have hfits {a : Access} (hstanding : new.interrupt = true ↔ Standing (accesses ++ [a]))
      (hheld : new.interrupt = true ↔ Held (accesses ++ [a])) :
      Agrees (c.write new) (m.write new) (accesses ++ [a]) new :=
    ⟨hmarks,h.trusted,hheld,(fun _ hnone => by cases hnone),hstanding,fun _ => rfl⟩
  cases hclear : m.reported && !m.cleared with
  | true =>
    simp only [Bool.and_eq_true,Bool.not_eq_true'] at hclear
    rw [if_pos rfl]
    have hunset : ¬new.interrupt = true := by
      rw [hflag,hclear.1,hclear.2]
      simp
    apply hfits
    · exact iff_of_false hunset not_standing_cleared
    · exact iff_of_false hunset fun hheld => not_standing_cleared hheld.standing
  | false =>
    rw [if_neg Bool.false_ne_true]
    have hkeep : (!m.reported || m.cleared) = true := by
      cases hr : m.reported <;> simp_all
    rw [hkeep,Bool.and_true] at hflag
    have hheld := (h.copy old hcopy).flag
    rw [← hflag] at hheld
    apply hfits
    · rw [standing_wrote]
      exact hheld
    · rw [held_wrote]
      exact hheld

/-- An interrupt is written. -/
theorem Agrees.interrupted {new : SessionState} (h : Agrees c m accesses state) (hnew : new.interrupt = true) :
    Agrees c m (accesses ++ [.flagged]) new := by
  refine ⟨h.marks,h.trusted,?_,fun copy hcopy => ?_,iff_of_true hnew standing_flagged,fun hflag => ?_⟩
  · rw [held_flagged]
    exact h.flagged
  · rw [held_flagged]
    exact h.copy copy hcopy
  · rw [hnew] at hflag
    cases hflag

end agrees

section steps
variable {s t : Exchange} {c : Course}

theorem step_turn {answers : Replies} (hs : s.step (.turn answers) = some t) : ∃ o k r keys, s.rest = .call o k ∧
    s.reply answers o = some (r,keys) ∧ t = { s with
      keys
      rest := k r
      marks := s.marks.after o r
      accesses := s.accesses ++ accessBy s.marks o } := by
  dsimp only [Exchange.step] at hs
  split at hs
  · next o k hrest =>
    obtain ⟨⟨r,keys⟩,hreply,rfl⟩ := Option.map_eq_some_iff.mp hs
    exact ⟨o,k,r,keys,hrest,hreply,rfl⟩
  · cases hs

/-- An operation that is not on the document. -/
def Beside : TurnOp → Prop
  | .inl .getState | .inl (.setState _ _) | .inl .deleteState => False
  | _ => True

theorem possible_beside {o : TurnOp} {r : Except Err (TurnReply o)} (ho : Beside o) (h : fallible o = true ∨ r.isOk = true) :
    course.possible o r := by
  cases r with
  | ok a => rcases o with o | o <;> cases o <;> first | exact ho.elim | trivial
  | error e =>
    have hf : fallible o = true := h.resolve_right Bool.false_ne_true
    rcases o with o | o <;> cases o <;> first | exact ho.elim | exact hf

theorem after_beside {o : TurnOp} (ho : Beside o) (c : Course) (r : Except Err (TurnReply o)) :
    course.after c o r = { c with marks := c.marks.after o r } := by
  rcases o with o | o
  · cases o <;> first | exact ho.elim | (cases r <;> rfl)
  · cases o <;> cases r <;> rfl

theorem accessBy_beside {o : TurnOp} (ho : Beside o) (m : Marks) : accessBy m o = [] := by
  rcases o with o | o
  · cases o <;> first | exact ho.elim | rfl
  · rfl

theorem reply_beside {answers : Replies} {o : TurnOp} {r : Except Err (TurnReply o)} {keys : Keys} (ho : Beside o)
    (h : s.reply answers o = some (r,keys)) : course.possible o r ∧ keys.state = s.keys.state := by
  rcases o with o | o
  · dsimp only [reply] at h
    split at h
    · next hredis =>
      obtain ⟨rfl,rfl⟩ := Prod.mk.inj (Option.some.inj h)
      cases o with
      | setHeartbeat now => exact ⟨trivial,rfl⟩
      | getState => exact ho.elim
      | setState state ttlSeconds => exact ho.elim
      | deleteState => exact ho.elim
      | _ => cases hredis
    · split at h
      · next hok =>
        obtain ⟨rfl,rfl⟩ := Prod.mk.inj (Option.some.inj h)
        exact ⟨possible_beside ho (by simpa using hok),rfl⟩
      · cases h
  · cases o with
    | interruptSet =>
      obtain ⟨rfl,rfl⟩ := Prod.mk.inj (Option.some.inj h)
      exact ⟨trivial,rfl⟩
    | _ =>
      obtain ⟨rfl,rfl⟩ := Prod.mk.inj (Option.some.inj h)
      exact ⟨possible_beside ho (.inl rfl),rfl⟩

/-- Every operation of the turn is followed. -/
theorem Tracks.turn (h : Tracks s c) {answers : Replies} (hs : s.step (.turn answers) = some t) : ∃ c', Tracks t c' := by
  obtain ⟨o,k,r,keys,hrest,hreply,rfl⟩ := step_turn hs
  obtain ⟨⟨state,hstate,hagrees⟩,hcall⟩ := h
  rw [hrest,wp_call] at hcall
  obtain ⟨hallowed,hnext⟩ := hcall
  by_cases ho : Beside o
  · obtain ⟨hpossible,hkeys⟩ := reply_beside ho hreply
    have hok := hnext r hpossible
    rw [after_beside ho] at hok
    refine ⟨_,⟨state,hkeys.trans hstate,?_⟩,hok⟩
    dsimp only
    rw [accessBy_beside ho,List.append_nil]
    have hmarks : c.marks.after o r = s.marks.after o r := by rw [hagrees.marks]
    exact ⟨hmarks,hagrees.trusted,hagrees.flagged,fun copy hcopy => ⟨(hagrees.copy copy hcopy).flag,(hagrees.copy copy hcopy).phase⟩,
      hagrees.document.flag,hagrees.document.phase⟩
  · rcases o with o | o
    · cases o with
      | getState =>
        obtain ⟨rfl,rfl⟩ := Prod.mk.inj (Option.some.inj hreply)
        refine ⟨c.read state,⟨state,hstate,hagrees.read⟩,?_⟩
        have hok := hnext (.ok s.keys.state) (by rw [hstate]; rfl)
        rw [hstate] at hok
        change wp course (c.read state) (k (.ok s.keys.state)) _
        rw [hstate]
        exact hok
      | setState new ttlSeconds =>
        obtain ⟨rfl,rfl⟩ := Prod.mk.inj (Option.some.inj hreply)
        exact ⟨c.write new,⟨new,rfl,hagrees.write ttlSeconds hallowed⟩,hnext (.ok ()) trivial⟩
      | deleteState => exact hallowed.elim
      | _ => exact absurd trivial ho
    · exact absurd trivial ho

theorem Tracks.step (h : Tracks s c) {l : Label} (hs : s.step l = some t) : ∃ c', Tracks t c' := by
  cases l with
  | turn answers => exact h.turn hs
  | interruptReads =>
    dsimp only [Exchange.step] at hs
    split at hs
    · cases hs
    · obtain ⟨state,-,rfl⟩ := Option.map_eq_some_iff.mp hs
      exact ⟨c,h⟩
  | interruptWrites i =>
    dsimp only [Exchange.step] at hs
    split at hs
    · cases hs
    · obtain ⟨state,-,rfl⟩ := Option.map_eq_some_iff.mp hs
      obtain ⟨⟨stored,-,hagrees⟩,hrest⟩ := h
      exact ⟨c,⟨_,rfl,hagrees.interrupted rfl⟩,hrest⟩
  | interruptSignals =>
    dsimp only [Exchange.step] at hs
    split at hs
    · cases hs
    · cases hs
      exact ⟨c,h⟩

theorem Tracks.ended (h : Tracks s c) (hover : s.finished = true) : Ended c := by
  have hrest := h.2
  unfold finished at hover
  cases hr : s.rest with
  | ret u => rwa [hr] at hrest
  | raise e => rwa [hr] at hrest
  | call o k =>
    rw [hr] at hover
    cases hover

/-- At the end of a turn, what is left in the document is decided by what the turn has done
and by the interrupts that stand. -/
theorem Tracks.atRest_iff (h : Tracks s c) (hover : s.finished = true) :
    s.AtRest ↔ (s.marks.reported = true ∨ s.marks.stored = true) ∧ ¬Standing s.accesses := by
  have hended := h.ended hover
  obtain ⟨⟨state,hstate,hagrees⟩,-⟩ := h
  have hunflagged (hclear : ¬Standing s.accesses) : c.flagged = false :=
    Bool.eq_false_iff.mpr fun hc => hclear (hagrees.flagged.mp hc).standing
  have hraised := hended.raised
  have hreported := hended.reported
  rw [hagrees.marks] at hraised hreported
  constructor
  · rintro ⟨state',hstate',hflag,hphase⟩
    obtain rfl : state = state' := Option.some.inj (hstate.symm.trans hstate')
    have hclear : ¬Standing s.accesses := fun hstanding => by
      rw [hagrees.document.flag.mpr hstanding] at hflag
      cases hflag
    refine ⟨?_,hclear⟩
    by_contra hneither
    simp only [not_or,Bool.not_eq_true] at hneither
    have hown := hraised hneither.1 hagrees.trusted (hunflagged hclear)
    rw [hneither.2,if_neg Bool.false_ne_true,← hagrees.document.phase hflag] at hown
    rcases hown with hown | hown <;> simp [hown] at hphase
  · rintro ⟨hdone,hclear⟩
    have hflag : state.interrupt = false := Bool.eq_false_iff.mpr fun hset => hclear (hagrees.document.flag.mp hset)
    refine ⟨state,hstate,hflag,?_⟩
    rw [hagrees.document.phase hflag]
    cases hr : s.marks.reported with
    | true => exact .inl (hreported hr)
    | false =>
      have hstored : s.marks.stored = true := by simpa [hr] using hdone
      have hown := hraised hr hagrees.trusted (hunflagged hclear)
      rw [if_pos hstored] at hown
      exact .inr ⟨hown.2,hown.1⟩

end steps

end Exchange

open Exchange in
/-- A turn leaves its session at rest exactly if no interrupt stands, and the turn came through
its report or had stored the phase of the handoff it opened. -/
theorem exit_phase_iff (settings : Handoffs.HandoffOrchestrator.Settings) (wiring : Wiring) (turn : TurnRequest)
    (caller : Caller) (state : SessionState) (inFlight : List SessionState) (unsignalled : Nat) (labels : List Label)
    (s : Exchange) (hrun : run step (start state inFlight unsignalled (caller.program settings wiring turn)) labels = some s)
    (hover : s.finished = true) :
    s.AtRest ↔ (s.marks.reported = true ∨ s.marks.stored = true) ∧ ¬Standing s.accesses := by
  have htracks : ∃ c, Tracks s c := by
    apply (Visits.of_run hrun).invariant
    · exact ⟨_,⟨state,rfl,agrees_start state rfl⟩,wp_program caller state.phase⟩
    · rintro _ _ _ ⟨c,hc⟩ hstep
      exact hc.step hstep
  obtain ⟨c,hc⟩ := htracks
  exact hc.atRest_iff hover

/-- Everything answers, with nothing to report and no handoff to be made. -/
def healthy : Replies
  | .inl o => (perform {} {} {} o).1
  | .inr .interruptSet => .ok false
  | .inr .getLastAgentTrace => .ok []
  | .inr (.evaluatePolicy _) => .ok none
  | .inr (.synthesizeStream _) => .ok (1 : Nat)
  | .inr .turnsInterrupted => .ok ()
  | .inr (.storeTurn _ _) | .inr (.addUserMessage _) | .inr (.addAssistantMessage _) | .inr .nextEvent => .ok ()
  | .inr .onAgentStep | .inr (.onToken _) | .inr (.nextChunk _) | .inr .onAudio | .inr (.onError _ _) => .ok ()
  | .inr .saveTurnMetrics | .inr (.retrieveContext _) | .inr (.retrieveSnippets _) | .inr (.evaluateTurn _) => .ok ()
  | .inr (.recordOutcome _) | .inr .commit | .inr .onMetrics => .ok ()

def greeting : TurnRequest where
  orgId := some 1
  transcript := "Hello"
  events := [{ text := "Hi." }]

/-- The greeting of a listening session, before its turn runs. -/
def greeted : Exchange := .start { phase := .listening } [] 0 (Caller.runListening.program {} {} greeting)

theorem healthy_turn_at_rest :
    ∃ s, run Exchange.step greeted (List.replicate 44 (.turn healthy)) = some s ∧ s.finished = true ∧ s.AtRest := by
  have hsome : (run Exchange.step greeted (List.replicate 44 (.turn healthy))).isSome := by decide +kernel
  obtain ⟨s,hs⟩ := Option.isSome_iff_exists.mp hsome
  have hend : (run Exchange.step greeted (List.replicate 44 (.turn healthy))).map (fun s => (s.finished,s.marks.reported,
      s.accesses.all (· ≠ .flagged))) = some (true,true,true) := by decide +kernel
  rw [hs,Option.map_some,Option.some.injEq,Prod.mk.injEq,Prod.mk.injEq] at hend
  obtain ⟨hover,hreported,hunflagged⟩ := hend
  refine ⟨s,hs,hover,(exit_phase_iff _ _ _ _ _ _ _ _ s hs hover).mpr ⟨.inl hreported,?_⟩⟩
  rintro ⟨before,after,heq,-⟩
  rw [heq] at hunflagged
  simp at hunflagged

def judgeDown : Replies := fun o => if o = .inr (.evaluateTurn false) then .error .fault else healthy o

/-- An exception that reaches `run_listening` leaves the session speaking, and an interrupt after
the closing clear leaves the flag set. -/
theorem failed_evaluation_leaves_speaking :
    (∃ s, run Exchange.step greeted (List.replicate 27 (.turn judgeDown)) = some s ∧ s.finished = true ∧ ¬s.AtRest ∧
      s.keys.state.map (·.phase) = some .speaking) ∧
    ∃ s, run Exchange.step greeted (List.replicate 42 (.turn healthy) ++ [.interruptReads,.interruptWrites 0] ++
        List.replicate 2 (.turn healthy)) = some s ∧ s.finished = true ∧ ¬s.AtRest ∧
      s.keys.state.map (·.interrupt) = some true := by
  constructor
  · have hend : (run Exchange.step greeted (List.replicate 27 (.turn judgeDown))).map (fun s => (s.finished,
        s.keys.state.map (·.phase))) = some (true,some .speaking) := by decide +kernel
    obtain ⟨s,hs,heq⟩ := Option.map_eq_some_iff.mp hend
    obtain ⟨hover,hphase⟩ := Prod.mk.inj heq
    refine ⟨s,hs,hover,?_,hphase⟩
    rintro ⟨state,hstate,-,hrest⟩
    rw [hstate] at hphase
    have hspeaking : state.phase = .speaking := Option.some.inj hphase
    rw [hspeaking] at hrest
    simp at hrest
  · have hend : (run Exchange.step greeted (List.replicate 42 (.turn healthy) ++ [.interruptReads,.interruptWrites 0] ++
        List.replicate 2 (.turn healthy))).map (fun s => (s.finished,s.keys.state.map (·.interrupt))) =
          some (true,some true) := by decide +kernel
    obtain ⟨s,hs,heq⟩ := Option.map_eq_some_iff.mp hend
    obtain ⟨hover,hflag⟩ := Prod.mk.inj heq
    refine ⟨s,hs,hover,?_,hflag⟩
    rintro ⟨state,hstate,hclear,-⟩
    rw [hstate] at hflag
    have hset : state.interrupt = true := Option.some.inj hflag
    rw [hset] at hclear
    cases hclear

end VoxForge.Pipeline.VoicePipelineService
