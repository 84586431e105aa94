import VoxForge.Pipeline.Conversation

/-! Which graph run's trace a turn reads: the response generator keeps one trace for each
session, from the completion of a run to that of the next. -/
namespace VoxForge.Pipeline.VoicePipelineService
open Foundation Core Persistence Sessions Handoffs HandoffOrchestrator Prog
open Conversation (Played)

/-- The turn whose graph run has left the trace that is stored, and what each look at it found. -/
structure Sight where
  stored : Option Nat := none
  reads : List (Nat × Option Nat) := []
  deriving DecidableEq, Repr

namespace Sight

/-- The graph has run to its end before the generator reports its steps or yields. -/
def isCompletion : TurnEvent → Bool
  | ⟨.inr .onAgentStep,_⟩ => true
  | ⟨.inr .nextEvent,.ok _⟩ => true
  | _ => false

def isRead : TurnEvent → Bool
  | ⟨.inr .getLastAgentTrace,_⟩ => true
  | _ => false

def note (turn : Nat) (c : Sight) (event : TurnEvent) : Sight where
  stored := if isCompletion event then some turn else c.stored
  reads := if isRead event then c.reads ++ [(turn,c.stored)] else c.reads

/-- Every look at the trace found none, or that of its own turn. -/
def Fresh (c : Sight) : Prop := ∀ read ∈ c.reads, read.2 = none ∨ read.2 = some read.1

section turn
variable {start c : Sight} {number : Nat}

def looks (number : Nat) : Discipline TurnOp TurnReply Err Sight where
  allowed _ _ := True
  possible _ _ := True
  after c o r := c.note number ⟨o,r⟩

/-- Before a turn looks: at most its own trace has been stored. -/
structure Before (start : Sight) (number : Nat) (c : Sight) : Prop where
  reads : c.reads = start.reads
  stored : c.stored = start.stored ∨ c.stored = some number

/-- Whatever a turn has looked at is what is stored. -/
structure Seen (start : Sight) (number : Nat) (c : Sight) : Prop where
  reads : ∃ n, c.reads = start.reads ++ List.replicate n (number,c.stored)
  stored : c.stored = start.stored ∨ c.stored = some number

theorem Before.seen (h : Before start number c) : Seen start number c :=
  ⟨⟨0,by rw [h.reads]; simp⟩,h.stored⟩

/-- Operations of the first part of a turn. -/
def Blind : TurnOp → Prop
  | .inr .getLastAgentTrace => False
  | _ => True

/-- Operations of the last part. -/
def Settled : TurnOp → Prop
  | .inr .onAgentStep | .inr .nextEvent => False
  | _ => True

theorem before_note {o : TurnOp} (ho : Blind o) (r : Except Err (TurnReply o)) (h : Before start number c) :
    Before start number (c.note number ⟨o,r⟩) := by
  constructor
  · have hread : isRead ⟨o,r⟩ = false := by
      rcases o with o | o
      · rfl
      · cases o <;> first | rfl | exact ho.elim
    simp only [note,hread]
    exact h.reads
  · unfold note
    dsimp only
    split
    · exact .inr rfl
    · exact h.stored

theorem seen_note {o : TurnOp} (ho : Settled o) (r : Except Err (TurnReply o)) (h : Seen start number c) :
    Seen start number (c.note number ⟨o,r⟩) := by
  have hcompletion : isCompletion ⟨o,r⟩ = false := by
    rcases o with o | o
    · rfl
    · cases o <;> first | rfl | exact ho.elim
  obtain ⟨⟨n,hreads⟩,hstored⟩ := h
  unfold note
  rw [hcompletion]
  refine ⟨?_,hstored⟩
  cases isRead ⟨o,r⟩ with
  | false => exact ⟨n,hreads⟩
  | true =>
    refine ⟨n + 1,?_⟩
    simp only [if_true,Bool.false_eq_true,if_false]
    rw [hreads,List.append_assoc,List.replicate_succ']

/-- A part of a turn that returns leaves what is asked, and none leaves more than what was seen. -/
def leaves {α : Type} (start : Sight) (number : Nat) (Q : Sight → Prop) : Sight → Except Err α → Prop
  | c,.ok _ => Q c
  | c,.error _ => Seen start number c

end turn

section spec
variable {α β : Type} {settings : HandoffOrchestrator.Settings} {wiring : Wiring} {turn : TurnRequest}
  {start c : Sight} {number : Nat} {Q Q' : Sight → Prop}

theorem leaves_then {p : Awaits α} {f : α → Awaits β} (hp : wp (looks number) c p (leaves start number Q))
    (hf : ∀ c a, Q c → wp (looks number) c (f a) (leaves start number Q')) :
    wp (looks number) c (p >>= f) (leaves start number Q') := by
  rw [wp_bind]
  apply wp_mono hp
  intro c' r hr
  cases r with
  | ok a => exact hf c' a hr
  | error e => exact hr

theorem blind_leaves {p : Awaits α} (hp : Performs Blind p) (hc : Before start number c) :
    wp (looks number) c p (leaves start number (Before start number)) := by
  have hkeep : Keeps (looks number) (Before start number) p :=
    keeps_of_performs hp fun o c ho hc => ⟨trivial,fun r _ => before_note ho r hc⟩
  apply wp_mono (hkeep c hc)
  intro c' r hc'
  cases r with
  | ok a => exact hc'
  | error e => exact hc'.seen

theorem settled_leaves {p : Awaits α} (hp : Performs Settled p) (hc : Seen start number c) :
    wp (looks number) c p (leaves start number (Seen start number)) := by
  have hkeep : Keeps (looks number) (Seen start number) p :=
    keeps_of_performs hp fun o c ho hc => ⟨trivial,fun r _ => seen_note ho r hc⟩
  apply wp_mono (hkeep c hc)
  intro c' r hc'
  cases r <;> exact hc'

theorem blind_statements {p : Action α} (hp : Performs Ordinary p) : Performs Blind (statements p) :=
  performs_statements hp fun _ _ => trivial

theorem settled_statements {p : Action α} (hp : Performs Ordinary p) : Performs Settled (statements p) :=
  performs_statements hp fun _ _ => trivial

theorem blind_prepare : Performs Blind (prepare wiring turn) :=
  performs_prepare fun o ho => by
    rcases o with o | o
    · trivial
    · cases o <;> first | exact ho.elim | trivial

theorem settled_saveAnswer (text : String) : Performs Settled (saveAnswer wiring turn text) :=
  performs_saveAnswer (fun o ho => by
    rcases o with o | o
    · trivial
    · cases o <;> first | exact ho.elim | trivial) trivial text

/-- The graph runs before the turn looks at any trace. -/
theorem answer_leaves (hc : Before start number c) :
    wp (looks number) c (answer settings wiring turn) (leaves start number (Seen start number)) := by
  refine leaves_then (blind_leaves (performs_discard (blind_statements (ordinary_own own_getSessionConfig))) hc)
    fun c _ hc => ?_
  refine leaves_then (blind_leaves (performs_respond (fun c hc => ?_) fun _ _ => trivial) hc) fun c speech hc => ?_
  · cases c <;> first | exact hc.elim | trivial
  refine leaves_then (settled_leaves (settled_saveAnswer speech.text) hc.seen) fun c _ hc => ?_
  refine leaves_then (settled_leaves (performs_await trivial) hc) fun c _ hc => ?_
  refine leaves_then (settled_leaves (performs_evaluate fun c hc => ?_) hc) fun c _ hc => ?_
  · cases c <;> first | exact hc.elim | trivial
  refine leaves_then (settled_leaves (performs_escalate (fun _ _ => trivial) trivial trivial) hc) fun c _ hc => ?_
  dsimp only
  split
  · exact leaves_then (settled_leaves (performs_await trivial) hc) fun c _ hc => settled_leaves (performs_await trivial) hc
  · exact settled_leaves (performs_await trivial) hc

theorem processTurn_leaves (start : Sight) :
    wp (looks number) start (processTurn settings wiring turn) (leaves start number (Seen start number)) := by
  have hstart : Before start number start := ⟨rfl,.inl rfl⟩
  refine leaves_then (blind_leaves (performs_discard (blind_statements (ordinary_own (own_updatePhase _)))) hstart)
    fun c _ hc => ?_
  refine leaves_then (blind_leaves blind_prepare hc) fun c _ hc => ?_
  refine leaves_then (blind_leaves (performs_discard (blind_statements (ordinary_own (own_updatePhase _)))) hc)
    fun c _ hc => ?_
  refine leaves_then (answer_leaves hc) fun c _ hc => ?_
  refine leaves_then (settled_leaves (performs_await trivial) hc) fun c _ hc => ?_
  refine leaves_then (settled_leaves (performs_discard (settled_statements (ordinary_own own_clearInterrupt))) hc)
    fun c _ hc => ?_
  exact settled_leaves (performs_discard (settled_statements (ordinary_own (own_updatePhase _)))) hc

end spec

/-! All turns of a session -/

section runs
variable (settings : HandoffOrchestrator.Settings) (wiring : Wiring)

/-- What is stored and was read after the turns of a session, one after another. -/
def afterTurns : Nat → Sight → List Played → Sight
  | _,c,[] => c
  | number,c,turn :: turns => afterTurns (number + 1) ((turn.run settings wiring).2.foldl (note number) c) turns

def completes (turn : Played) : Bool := (turn.run settings wiring).2.any isCompletion

def looksAtTrace (turn : Played) : Bool := (turn.run settings wiring).2.any isRead

/-- Each turn that looks has completed its own graph run, or no turn before it has. -/
def OwnTraces (turns : List Played) : Prop :=
  ∀ before turn rest, turns = before ++ turn :: rest → looksAtTrace settings wiring turn = true →
    completes settings wiring turn = true ∨ ∀ earlier ∈ before, completes settings wiring earlier = false

variable {settings wiring} {number : Nat} {c : Sight}

variable (number) in
theorem foldl_stored (events : List TurnEvent) (c : Sight) :
    (events.foldl (note number) c).stored = if events.any isCompletion then some number else c.stored := by
  induction events generalizing c with
  | nil => rfl
  | cons event events ih =>
    rw [List.foldl_cons,ih,List.any_cons]
    unfold note
    cases isCompletion event <;> cases events.any isCompletion <;> rfl

variable (number) in
theorem foldl_reads_length (events : List TurnEvent) (c : Sight) :
    (events.foldl (note number) c).reads.length = c.reads.length + events.countP isRead := by
  induction events generalizing c with
  | nil => rfl
  | cons event events ih =>
    rw [List.foldl_cons,ih,List.countP_cons]
    unfold note
    cases isRead event with
    | true =>
      rw [if_pos rfl,if_pos rfl,List.length_append,List.length_singleton]
      omega
    | false => rfl

variable (settings wiring number) in
/-- What a turn adds: looks at the trace that is stored at its end, if it looks at all. -/
theorem run_reads (turn : Played) (c : Sight) :
    ∃ n, ((turn.run settings wiring).2.foldl (note number) c).reads = c.reads ++
        List.replicate n (number,((turn.run settings wiring).2.foldl (note number) c).stored) ∧
      (looksAtTrace settings wiring turn = true ↔ n ≠ 0) := by
  have hseen : Seen c number ((turn.run settings wiring).2.foldl (note number) c) := by
    have hrun : leaves c number (Seen c number) ((turn.run settings wiring).2.foldl (note number) c)
        (turn.run settings wiring).1 :=
      (wp_play turn.strategy (d := looks number) (fun _ _ => trivial) (processTurn_leaves c)).2
    cases hresult : (turn.run settings wiring).1 with
    | ok u =>
      rw [hresult] at hrun
      exact hrun
    | error e =>
      rw [hresult] at hrun
      exact hrun
  obtain ⟨n,hreads⟩ := hseen.reads
  refine ⟨n,hreads,?_⟩
  have hlength := foldl_reads_length number (turn.run settings wiring).2 c
  rw [hreads,List.length_append,List.length_replicate] at hlength
  have hcount : n = (turn.run settings wiring).2.countP isRead := by omega
  unfold looksAtTrace
  rw [hcount,List.any_eq_true,← Nat.pos_iff_ne_zero,List.countP_pos_iff]

theorem fresh_run_iff (turn : Played) (hstored : ∀ m, c.stored = some m → m < number) :
    ((turn.run settings wiring).2.foldl (note number) c).Fresh ↔ c.Fresh ∧
      (looksAtTrace settings wiring turn = true → completes settings wiring turn = true ∨ c.stored = none) := by
  obtain ⟨n,hreads,hlooks⟩ := run_reads settings wiring number turn c
  have hafter := foldl_stored number (turn.run settings wiring).2 c
  generalize (turn.run settings wiring).2.foldl (note number) c = after at hreads hafter ⊢
  have hown : (after.stored = none ∨ after.stored = some number) ↔
      (completes settings wiring turn = true ∨ c.stored = none) := by
    unfold completes
    rw [hafter]
    cases (turn.run settings wiring).2.any isCompletion with
    | true => simp
    | false =>
      simp only [Bool.false_eq_true,if_false,false_or]
      constructor
      · rintro (h | h)
        · exact h
        · exact absurd (hstored number h) (Nat.lt_irrefl _)
      · exact .inl
  unfold Fresh
  rw [hreads,List.forall_mem_append,hlooks,← hown]
  refine and_congr_right fun _ => ?_
  cases n with
  | zero => simp
  | succ n =>
    constructor
    · exact fun h _ => h (number,after.stored) (by simp)
    · intro h read hread
      obtain ⟨-,rfl⟩ := List.mem_replicate.mp hread
      exact h (Nat.succ_ne_zero n)

theorem fresh_afterTurns_iff (turns : List Played) (hstored : ∀ m, c.stored = some m → m < number) :
    (afterTurns settings wiring number c turns).Fresh ↔ c.Fresh ∧
      ∀ before turn rest, turns = before ++ turn :: rest → looksAtTrace settings wiring turn = true →
        completes settings wiring turn = true ∨
          c.stored = none ∧ ∀ earlier ∈ before, completes settings wiring earlier = false := by
  induction turns generalizing number c with
  | nil =>
    refine ⟨fun h => ⟨h,fun before turn rest hsplit => ?_⟩,fun h => h.1⟩
    simp at hsplit
  | cons turn turns ih =>
    have hafter := foldl_stored number (turn.run settings wiring).2 c
    have hnext : ∀ m, ((turn.run settings wiring).2.foldl (note number) c).stored = some m → m < number + 1 := by
      intro m hm
      rw [hafter] at hm
      split at hm
      · cases hm
        exact Nat.lt_succ_self _
      · exact Nat.lt_succ_of_lt (hstored m hm)
    have hnone : ((turn.run settings wiring).2.foldl (note number) c).stored = none ↔
        c.stored = none ∧ completes settings wiring turn = false := by
      unfold completes
      rw [hafter]
      cases (turn.run settings wiring).2.any isCompletion <;> simp
    rw [afterTurns,ih hnext,fresh_run_iff turn hstored,and_assoc]
    refine and_congr_right fun _ => ?_
    constructor
    · rintro ⟨hfirst,hrest⟩ before next rest hsplit hlooks
      cases before with
      | nil =>
        obtain ⟨rfl,-⟩ := List.cons.inj hsplit
        exact (hfirst hlooks).imp_right fun h => ⟨h,by simp⟩
      | cons first before =>
        obtain ⟨rfl,htail⟩ := List.cons.inj hsplit
        refine (hrest before next rest htail hlooks).imp_right fun ⟨hstill,hbefore⟩ => ?_
        obtain ⟨hempty,hsilent⟩ := hnone.mp hstill
        exact ⟨hempty,List.forall_mem_cons.mpr ⟨hsilent,hbefore⟩⟩
    · intro h
      refine ⟨fun hlooks => (h [] turn turns rfl hlooks).imp_right And.left,?_⟩
      intro before next rest hsplit hlooks
      refine (h (turn :: before) next rest (by rw [hsplit]; rfl) hlooks).imp_right fun ⟨hempty,hbefore⟩ => ?_
      obtain ⟨hsilent,hbefore⟩ := List.forall_mem_cons.mp hbefore
      exact ⟨hnone.mpr ⟨hempty,hsilent⟩,hbefore⟩

/-- Over all turns of a session: no turn looks at the trace of another's graph run exactly if each
that looks has completed its own, or none before it has. -/
theorem fresh_iff (settings : HandoffOrchestrator.Settings) (wiring : Wiring) (turns : List Played) :
    (afterTurns settings wiring 0 {} turns).Fresh ↔ OwnTraces settings wiring turns := by
  rw [fresh_afterTurns_iff turns (by simp)]
  constructor
  · intro h before turn rest hsplit hlooks
    exact (h.2 before turn rest hsplit hlooks).imp_right And.right
  · intro h
    refine ⟨by simp [Fresh],fun before turn rest hsplit hlooks => ?_⟩
    exact (h before turn rest hsplit hlooks).imp_right fun hbefore => ⟨rfl,hbefore⟩

end runs

/-- The generator raises before it yields anything; everything else is answered. -/
def generatorDown : Strategy TurnOp TurnReply Err
  | _,.inr .nextEvent => .error .fault
  | past,o => Conversation.smooth past o

/-- A turn of an organisation's session, which its services evaluate and judge. -/
def served (n : Nat) : Played :=
  { Conversation.echo n with request := { (Conversation.echo n).request with orgId := some 1 } }

/-- The second turn's generation fails; its evaluation and its escalation are given the first turn's trace. -/
theorem failedGeneration_not_fresh :
    (afterTurns {} {} 0 {} [served 0,{ served 1 with strategy := generatorDown }]).reads =
      [(0,some 0),(0,some 0),(0,some 0),(1,some 0),(1,some 0)] ∧
    ¬(afterTurns {} {} 0 {} [served 0,{ served 1 with strategy := generatorDown }]).Fresh := by
  have hreads : (afterTurns {} {} 0 {} [served 0,{ served 1 with strategy := generatorDown }]).reads =
      [(0,some 0),(0,some 0),(0,some 0),(1,some 0),(1,some 0)] := by decide
  refine ⟨hreads,fun h => ?_⟩
  exact absurd (h (1,some 0) (by rw [hreads]; decide)) (by decide)

end Sight
end VoxForge.Pipeline.VoicePipelineService
