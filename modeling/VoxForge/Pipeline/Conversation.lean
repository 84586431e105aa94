import VoxForge.Agents.History
import VoxForge.Foundation.Pages
import VoxForge.Foundation.Strategies
import VoxForge.Pipeline.TurnOperations

/-! The messages of a session over its turns: the history the response generator keeps, the
rows the database holds, and what a resumed session begins with. -/
namespace VoxForge.Pipeline.VoicePipelineService
open Foundation Core Persistence Sessions Handoffs HandoffOrchestrator Prog
open Agents (Histories)

/-- A message with the turn that brought it. -/
structure Entry where
  turn : Nat
  message : Message
  deriving DecidableEq, Repr

/-- The place of a message among all: the user speaks first. -/
def Entry.key (e : Entry) : Nat := 2 * e.turn + if e.message.role = .user then 0 else 1

/-- What the response generator remembers, and the rows inserted and committed. -/
structure Conversation where
  memory : List Entry := []
  pending : List Entry := []
  stored : List Entry := []
  deriving DecidableEq, Repr

abbrev TurnEvent := Event TurnOp TurnReply Err

namespace Conversation

/-- All rows, in the order of their insertion. -/
def rows (c : Conversation) : List Entry := c.stored ++ c.pending

def note (turn : Nat) (c : Conversation) : TurnEvent → Conversation
  | ⟨.inl (.insertMessage message),.ok _⟩ => { c with pending := c.pending ++ [⟨turn,message⟩] }
  | ⟨.inr (.addUserMessage content),.ok _⟩ => { c with memory := c.memory ++ [⟨turn,⟨.user,content⟩⟩] }
  | ⟨.inr (.addAssistantMessage content),.ok _⟩ =>
    { c with memory := c.memory ++ [⟨turn,⟨.assistant,content⟩⟩] }
  | ⟨.inr .commit,.ok _⟩ => { c with pending := [], stored := c.stored ++ c.pending }
  | _ => c

/-- How a connection ends: its session is closed, or committed once more before. -/
inductive Ending where
  | closed
  | committed
  deriving DecidableEq, Repr

def disconnect (c : Conversation) : Ending → Conversation
  | .closed => { c with pending := [] }
  | .committed => { c with pending := [], stored := c.stored ++ c.pending }

/-- The messages that `get_messages` finds, with its default limit. -/
def resumed (c : Conversation) : List Entry := c.stored.take 50

def messages (entries : List Entry) : List Message := entries.map (·.message)

/-- A resumed session begins with the newest of the remembered messages, and no newer row is left out. -/
structure Resumes (c : Conversation) : Prop where
  recent : Recent c.resumed c.memory
  newest : ∀ e ∈ c.stored.getLast?, e ∈ c.resumed

/-- The rows and the memory are each in the order of their turns, and the first message
remembered is a row. -/
structure Ordered (turn : Nat) (c : Conversation) : Prop where
  rows : c.rows.Pairwise (·.key < ·.key)
  rowsBefore : ∀ e ∈ c.rows, e.key < 2 * turn
  memory : c.memory.Pairwise (·.key < ·.key)
  memoryBefore : ∀ e ∈ c.memory, e.key < 2 * turn
  first : ∀ e ∈ c.memory.head?, e ∈ c.rows

theorem nodup_of_keys {entries : List Entry} (h : entries.Pairwise (·.key < ·.key)) : entries.Nodup :=
  h.imp fun {a b} hab heq => by
    rw [heq] at hab
    exact Nat.lt_irrefl _ hab

/-- What a resumed session begins with is right exactly if the rows it finds are what was
remembered and fit on the page. -/
theorem Ordered.resumes_iff {turn : Nat} {c ended : Conversation} (h : Ordered turn c)
    (hstored : ended.stored <+: c.rows) (hmemory : ended.memory = c.memory) :
    Resumes ended ↔ ended.stored = ended.memory ∧ ended.stored.length ≤ 50 := by
  have hnodup : ended.stored.Nodup := (nodup_of_keys h.rows).sublist hstored.sublist
  have hpage : ended.resumed <+: c.rows := (List.take_prefix 50 _).trans hstored
  rw [hmemory]
  constructor
  · rintro ⟨hrecent,hnewest⟩
    rw [hmemory] at hrecent
    have hall : ended.resumed = c.memory := eq_of_prefix_of_recent h.rows h.memory h.first hpage hrecent
    have hfits : ended.resumed = ended.stored := take_eq_of_newest hnodup hnewest
    refine ⟨hfits.symm.trans hall,?_⟩
    rw [← hfits]
    exact List.length_take_le 50 _
  · rintro ⟨heq,hlength⟩
    have hfits : ended.resumed = ended.stored := List.take_of_length_le hlength
    constructor
    · rw [hfits,hmemory,heq]
      exact .refl _
    · intro e he
      rw [hfits]
      exact List.mem_of_getLast? he

theorem ordered_start : Ordered 0 {} := by
  constructor <;> simp [rows]

theorem stored_disconnect (c : Conversation) (ending : Ending) : (c.disconnect ending).stored <+: c.rows := by
  cases ending with
  | closed => exact List.prefix_append _ _
  | committed => exact List.prefix_rfl

/-! What one turn adds -/

/-- How far a turn has come with its messages. -/
inductive Stage where
  | waiting
  | inserted
  | asked
  | answered (text : String)
  | saved (text : String)
  deriving DecidableEq, Repr

section turn
variable {start c : Conversation} {number : Nat} {transcript : String} {stage : Stage}

def Stage.rows (number : Nat) (transcript : String) : Stage → List Entry
  | .waiting => []
  | .inserted | .asked | .answered _ => [⟨number,⟨.user,transcript⟩⟩]
  | .saved text => [⟨number,⟨.user,transcript⟩⟩,⟨number,⟨.assistant,text⟩⟩]

def Stage.memory (number : Nat) (transcript : String) : Stage → List Entry
  | .waiting | .inserted => []
  | .asked => [⟨number,⟨.user,transcript⟩⟩]
  | .answered text | .saved text => [⟨number,⟨.user,transcript⟩⟩,⟨number,⟨.assistant,text⟩⟩]

/-- What a turn has added to where it started. -/
structure At (start : Conversation) (number : Nat) (transcript : String) (stage : Stage) (c : Conversation) :
    Prop where
  rows : c.rows = start.rows ++ stage.rows number transcript
  memory : c.memory = start.memory ++ stage.memory number transcript

/-- A turn whose messages are both rows and remembered. -/
def Matched (start : Conversation) (number : Nat) (transcript : String) (c : Conversation) : Prop :=
  At start number transcript .asked c ∨ ∃ text, At start number transcript (.saved text) c

def pages (number : Nat) : Discipline TurnOp TurnReply Err Conversation where
  allowed _ _ := True
  possible _ _ := True
  after c o r := c.note number ⟨o,r⟩

/-- An operation that inserts no row and adds nothing to the memory. -/
def Silent : TurnOp → Prop
  | .inl o => Ordinary o
  | .inr (.addUserMessage _) | .inr (.addAssistantMessage _) => False
  | _ => True

theorem rows_note_silent {o : TurnOp} (ho : Silent o) (r : Except Err (TurnReply o)) (number : Nat)
    (c : Conversation) :
    (c.note number ⟨o,r⟩).rows = c.rows ∧ (c.note number ⟨o,r⟩).memory = c.memory := by
  rcases o with o | o
  · cases o <;> first | exact ho.elim | exact ⟨rfl,rfl⟩
  · cases o <;> first | exact ho.elim | exact ⟨rfl,rfl⟩ | skip
    cases r with
    | ok u => exact ⟨by simp [note,rows],rfl⟩
    | error e => exact ⟨rfl,rfl⟩

theorem At.note {o : TurnOp} (h : At start number transcript stage c) (ho : Silent o)
    (r : Except Err (TurnReply o)) : At start number transcript stage (c.note number ⟨o,r⟩) := by
  obtain ⟨hrows,hmemory⟩ := rows_note_silent ho r number c
  exact ⟨hrows.trans h.rows,hmemory.trans h.memory⟩

/-- A part of a turn that returns leaves what is asked, and none leaves a turn without a stage. -/
def leaves {α : Type} (start : Conversation) (number : Nat) (transcript : String) (Q : Conversation → Prop) :
    Conversation → Except Err α → Prop
  | c,.ok _ => Q c
  | c,.error _ => ∃ stage, At start number transcript stage c

end turn

section spec
variable {α β : Type} {settings : HandoffOrchestrator.Settings} {wiring : Wiring} {turn : TurnRequest}
  {start c : Conversation} {number : Nat} {Q Q' : Conversation → Prop}

/-- A condition that silent operations keep, and under which the turn has come to some stage. -/
structure Steady (start : Conversation) (number : Nat) (transcript : String) (Q : Conversation → Prop) : Prop where
  silent : ∀ {c o}, Silent o → ∀ r, Q c → Q (c.note number ⟨o,r⟩)
  staged : ∀ {c}, Q c → ∃ stage, At start number transcript stage c

theorem steady_at (stage : Stage) : Steady start number turn.transcript (At start number turn.transcript stage) :=
  ⟨fun ho r h => h.note ho r,fun h => ⟨stage,h⟩⟩

theorem steady_matched : Steady start number turn.transcript (Matched start number turn.transcript) := by
  constructor
  · rintro c o ho r (h | ⟨text,h⟩)
    · exact .inl (h.note ho r)
    · exact .inr ⟨text,h.note ho r⟩
  · rintro c (h | ⟨text,h⟩)
    · exact ⟨_,h⟩
    · exact ⟨_,h⟩

theorem leaves_then {p : Awaits α} {f : α → Awaits β} (hp : wp (pages number) c p (leaves start number turn.transcript Q))
    (hf : ∀ c a, Q c → wp (pages number) c (f a) (leaves start number turn.transcript Q')) :
    wp (pages number) c (p >>= f) (leaves start number turn.transcript Q') := by
  rw [wp_bind]
  apply wp_mono hp
  intro c' r hr
  cases r with
  | ok a => exact hf c' a hr
  | error e => exact hr

theorem Steady.leaves {p : Awaits α} (hQ : Steady start number turn.transcript Q) (hp : Performs Silent p) (hc : Q c) :
    wp (pages number) c p (leaves start number turn.transcript Q) := by
  have hkeep : Keeps (pages number) Q p :=
    keeps_of_performs hp fun o c ho hc => ⟨trivial,fun r _ => hQ.silent ho r hc⟩
  apply wp_mono (hkeep c hc)
  intro c' r hc'
  cases r with
  | ok a => exact hc'
  | error e => exact hQ.staged hc'

theorem silent_statements {p : Action α} (hp : Performs Ordinary p) : Performs Silent (statements p) :=
  performs_statements hp fun _ ho => ho

/-- The user's message becomes a row, then a part of the memory. -/
theorem prepare_leaves (hc : At start number turn.transcript .waiting c) :
    wp (pages number) c (prepare wiring turn)
      (leaves start number turn.transcript (At start number turn.transcript .asked)) := by
  refine leaves_then (Q := At start number turn.transcript .inserted) ?_ fun c _ hc => ?_
  · refine wp_inl.mpr ((wp_perform _ _).mpr ⟨trivial,fun r _ => ?_⟩)
    cases r with
    | error e => exact ⟨.waiting,hc⟩
    | ok u =>
      refine ⟨?_,hc.memory⟩
      change c.stored ++ (c.pending ++ _) = _
      rw [← List.append_assoc]
      exact congrArg (· ++ _) (hc.rows.trans (List.append_nil _))
  · refine leaves_then ((steady_at .inserted).leaves (performs_remember (fun _ _ => trivial) _ _) hc) fun c _ hc => ?_
    refine (wp_perform _ _).mpr ⟨trivial,fun r _ => ?_⟩
    cases r with
    | error e => exact ⟨.inserted,hc⟩
    | ok u => exact ⟨hc.rows,congrArg (· ++ _) (hc.memory.trans (List.append_nil _))⟩

/-- The assistant's message, if there is any, becomes a part of the memory, then a row. -/
theorem saveAnswer_leaves (text : String) (hc : At start number turn.transcript .asked c) :
    wp (pages number) c (saveAnswer wiring turn text)
      (leaves start number turn.transcript (Matched start number turn.transcript)) := by
  unfold saveAnswer
  split
  · refine leaves_then ((steady_at .asked).leaves (performs_discard (performs_await trivial)) hc) fun c _ hc => ?_
    refine leaves_then (Q := At start number turn.transcript (.answered text)) ?_ fun c _ hc => ?_
    · refine (wp_perform _ _).mpr ⟨trivial,fun r _ => ?_⟩
      cases r with
      | error e => exact ⟨.asked,hc⟩
      | ok u =>
        refine ⟨hc.rows,?_⟩
        change c.memory ++ _ = _
        rw [hc.memory,List.append_assoc]
        rfl
    · refine leaves_then (Q := At start number turn.transcript (.saved text)) ?_ fun c _ hc => ?_
      · refine wp_inl.mpr ((wp_perform _ _).mpr ⟨trivial,fun r _ => ?_⟩)
        cases r with
        | error e => exact ⟨.answered text,hc⟩
        | ok u =>
          refine ⟨?_,hc.memory⟩
          have hrows : c.stored ++ c.pending = start.rows ++ Stage.rows number turn.transcript (.answered text) := hc.rows
          change c.stored ++ (c.pending ++ _) = _
          rw [← List.append_assoc,hrows,List.append_assoc]
          rfl
      · exact steady_matched.leaves (performs_remember (fun _ _ => trivial) _ _) (.inr ⟨text,hc⟩)
  · exact .inl hc

/-- A turn that is through has matched its rows and its memory, and left nothing uncommitted. -/
structure Through (start : Conversation) (number : Nat) (transcript : String) (c : Conversation) : Prop where
  matched : Matched start number transcript c
  committed : c.pending = []

theorem steady_through : Steady start number turn.transcript (Through start number turn.transcript) := by
  constructor
  · rintro c o ho r ⟨hmatched,hpending⟩
    refine ⟨steady_matched.silent ho r hmatched,?_⟩
    rcases o with o | o
    · cases o <;> first | exact ho.elim | exact hpending
    · cases o <;> first | exact ho.elim | exact hpending | skip
      cases r with
      | ok u => rfl
      | error e => exact hpending
  · rintro c ⟨hmatched,-⟩
    exact steady_matched.staged hmatched

theorem answer_leaves (hc : At start number turn.transcript .asked c) :
    wp (pages number) c (answer settings wiring turn)
      (leaves start number turn.transcript (Through start number turn.transcript)) := by
  have hasked : Steady start number turn.transcript (At start number turn.transcript .asked) := steady_at .asked
  have hmatched : Steady start number turn.transcript (Matched start number turn.transcript) := steady_matched
  refine leaves_then (hasked.leaves (performs_discard (silent_statements (ordinary_own own_getSessionConfig))) hc)
    fun c _ hc => ?_
  refine leaves_then (hasked.leaves (performs_respond (fun c hc => ?_) fun o ho => ho) hc) fun c speech hc => ?_
  · cases c <;> first | exact hc.elim | trivial
  refine leaves_then (saveAnswer_leaves speech.text hc) fun c _ hc => ?_
  refine leaves_then (hmatched.leaves (performs_await trivial) hc) fun c _ hc => ?_
  refine leaves_then (hmatched.leaves (performs_evaluate fun c hc => ?_) hc) fun c _ hc => ?_
  · cases c <;> first | exact hc.elim | trivial
  refine leaves_then (hmatched.leaves (performs_escalate (fun o ho => ho) trivial trivial) hc) fun c _ hc => ?_
  have hcommit (c : Conversation) (hc : Matched start number turn.transcript c) :
      wp (pages number) c (await .commit) (leaves start number turn.transcript (Through start number turn.transcript)) := by
    refine (wp_perform _ _).mpr ⟨trivial,fun r _ => ?_⟩
    have hnoted := hmatched.silent (o := .inr .commit) trivial r hc
    cases r with
    | error e => exact hmatched.staged hnoted
    | ok u => exact ⟨hnoted,rfl⟩
  dsimp only
  split
  · exact leaves_then (hmatched.leaves (performs_await trivial) hc) fun c _ hc => hcommit c hc
  · exact hcommit c hc

theorem processTurn_leaves (c : Conversation) :
    wp (pages number) c (processTurn settings wiring turn)
      (leaves c number turn.transcript (Through c number turn.transcript)) := by
  have hwaiting : Steady c number turn.transcript (At c number turn.transcript .waiting) := steady_at .waiting
  have hasked : Steady c number turn.transcript (At c number turn.transcript .asked) := steady_at .asked
  have hthrough : Steady c number turn.transcript (Through c number turn.transcript) := steady_through
  have hstart : At c number turn.transcript .waiting c := ⟨(List.append_nil _).symm,(List.append_nil _).symm⟩
  refine leaves_then (hwaiting.leaves (performs_discard (silent_statements (ordinary_own (own_updatePhase _)))) hstart)
    fun c' _ hc => ?_
  refine leaves_then (prepare_leaves hc) fun c' _ hc => ?_
  refine leaves_then (hasked.leaves (performs_discard (silent_statements (ordinary_own (own_updatePhase _)))) hc)
    fun c' _ hc => ?_
  refine leaves_then (answer_leaves hc) fun c' _ hc => ?_
  refine leaves_then (hthrough.leaves (performs_await trivial) hc) fun c' _ hc => ?_
  refine leaves_then (hthrough.leaves (performs_discard (silent_statements (ordinary_own own_clearInterrupt))) hc)
    fun c' _ hc => ?_
  exact hthrough.leaves (performs_discard (silent_statements (ordinary_own (own_updatePhase _)))) hc

end spec

/-! All turns of a session -/

/-- A turn and what it is answered. -/
structure Played where
  request : TurnRequest
  strategy : Strategy TurnOp TurnReply Err

section runs
variable (settings : HandoffOrchestrator.Settings) (wiring : Wiring)

def Played.run (turn : Played) : Except Err Unit × List TurnEvent :=
  play turn.strategy (processTurn settings wiring turn.request)

/-- The conversation after the turns of a session, one after another. -/
def afterTurns : Nat → Conversation → List Played → Conversation
  | _,c,[] => c
  | number,c,turn :: turns => afterTurns (number + 1) ((turn.run settings wiring).2.foldl (note number) c) turns

variable {settings wiring} {number : Nat} {c : Conversation}

theorem run_leaves (turn : Played) (c : Conversation) :
    leaves c number turn.request.transcript (Through c number turn.request.transcript)
      ((turn.run settings wiring).2.foldl (note number) c) (turn.run settings wiring).1 :=
  (wp_play turn.strategy (d := pages number) (fun _ _ => trivial) (processTurn_leaves c)).2

/-- The keys of a turn's messages. -/
theorem Stage.ordered (stage : Stage) (number : Nat) (transcript : String) :
    (stage.rows number transcript).Pairwise (·.key < ·.key) ∧
    (stage.memory number transcript).Pairwise (·.key < ·.key) ∧
    (∀ e ∈ stage.rows number transcript ++ stage.memory number transcript,
      2 * number ≤ e.key ∧ e.key < 2 * (number + 1)) ∧
    ∀ e ∈ (stage.memory number transcript).head?, e ∈ stage.rows number transcript := by
  cases stage <;> simp [Stage.rows,Stage.memory,Entry.key] <;> omega

theorem Ordered.turn {c' : Conversation} {transcript : String} {stage : Stage} (h : Ordered number c)
    (hat : At c number transcript stage c') : Ordered (number + 1) c' := by
  obtain ⟨hrows,hmemory,hkeys,hfirst⟩ := stage.ordered number transcript
  have hrowKeys : ∀ e ∈ stage.rows number transcript, 2 * number ≤ e.key ∧ e.key < 2 * (number + 1) :=
    fun e he => hkeys e (List.mem_append_left _ he)
  have hmemoryKeys : ∀ e ∈ stage.memory number transcript, 2 * number ≤ e.key ∧ e.key < 2 * (number + 1) :=
    fun e he => hkeys e (List.mem_append_right _ he)
  constructor
  · rw [hat.rows,List.pairwise_append]
    exact ⟨h.rows,hrows,fun a ha b hb => Nat.lt_of_lt_of_le (h.rowsBefore a ha) (hrowKeys b hb).1⟩
  · intro e he
    rw [hat.rows,List.mem_append] at he
    rcases he with he | he
    · have := h.rowsBefore e he
      omega
    · exact (hrowKeys e he).2
  · rw [hat.memory,List.pairwise_append]
    exact ⟨h.memory,hmemory,fun a ha b hb => Nat.lt_of_lt_of_le (h.memoryBefore a ha) (hmemoryKeys b hb).1⟩
  · intro e he
    rw [hat.memory,List.mem_append] at he
    rcases he with he | he
    · have := h.memoryBefore e he
      omega
    · exact (hmemoryKeys e he).2
  · intro e he
    rw [hat.memory,List.head?_append] at he
    rw [hat.rows,List.mem_append]
    cases hhead : c.memory.head? with
    | some first =>
      rw [hhead] at he
      obtain rfl : first = e := Option.some.inj he
      exact .inl (h.first first hhead)
    | none =>
      rw [hhead] at he
      exact .inr (hfirst e he)

theorem ordered_turn (turn : Played) (h : Ordered number c) :
    Ordered (number + 1) ((turn.run settings wiring).2.foldl (note number) c) := by
  have hleaves : leaves c number turn.request.transcript (Through c number turn.request.transcript)
      ((turn.run settings wiring).2.foldl (note number) c) (turn.run settings wiring).1 := run_leaves turn c
  have hstage : ∃ stage, At c number turn.request.transcript stage
      ((turn.run settings wiring).2.foldl (note number) c) := by
    cases hrun : (turn.run settings wiring).1 with
    | ok u =>
      rw [hrun] at hleaves
      exact steady_through.staged hleaves
    | error e =>
      rw [hrun] at hleaves
      exact hleaves
  obtain ⟨stage,hat⟩ := hstage
  exact h.turn hat

theorem ordered_afterTurns (turns : List Played) (h : Ordered number c) :
    Ordered (number + turns.length) (afterTurns settings wiring number c turns) := by
  induction turns generalizing number c with
  | nil => exact h
  | cons turn turns ih =>
    have hturn : Ordered (number + 1) ((turn.run settings wiring).2.foldl (note number) c) := ordered_turn turn h
    have hrest := ih hturn
    rw [Nat.add_right_comm,Nat.add_assoc] at hrest
    exact hrest

/-- Turns that are through leave the rows as they leave the memory. -/
theorem stored_afterTurns (number : Nat) (c : Conversation) (turns : List Played) (hok : ∀ turn ∈ turns, (turn.run settings wiring).1 = .ok ())
    (hstored : c.stored = c.memory) (hpending : c.pending = []) :
    (afterTurns settings wiring number c turns).stored = (afterTurns settings wiring number c turns).memory ∧
    (afterTurns settings wiring number c turns).pending = [] := by
  induction turns generalizing number c with
  | nil => exact ⟨hstored,hpending⟩
  | cons turn turns ih =>
    have hthrough : leaves c number turn.request.transcript (Through c number turn.request.transcript)
        ((turn.run settings wiring).2.foldl (note number) c) (turn.run settings wiring).1 := run_leaves turn c
    rw [hok turn (List.mem_cons_self ..)] at hthrough
    obtain ⟨hmatched,hdone⟩ := hthrough
    refine ih (number + 1) _ (fun t ht => hok t (List.mem_cons_of_mem turn ht)) ?_ hdone
    have hbefore : c.rows = c.memory := by rw [rows,hpending,List.append_nil,hstored]
    have hrows : ((turn.run settings wiring).2.foldl (note number) c).rows =
        ((turn.run settings wiring).2.foldl (note number) c).memory := by
      rcases hmatched with hat | ⟨text,hat⟩
      · rw [hat.rows,hat.memory,hbefore]
        rfl
      · rw [hat.rows,hat.memory,hbefore]
        rfl
    rw [← hrows,rows,hdone,List.append_nil]

/-- What the response generator does with an event of a turn. -/
def noteHistory (sessionId : Agents.SessionId) (g : Histories) : TurnEvent → Histories
  | ⟨.inr (.addUserMessage content),.ok _⟩ => g.addUserMessage sessionId content
  | ⟨.inr (.addAssistantMessage content),.ok _⟩ => g.addAssistantMessage sessionId content
  | _ => g

def historyAfter (settings : HandoffOrchestrator.Settings) (wiring : Wiring) (sessionId : Agents.SessionId)
    (g : Histories) (turns : List Played) : Histories :=
  (turns.flatMap fun turn => (turn.run settings wiring).2).foldl (noteHistory sessionId) g

theorem messages_append (entries more : List Entry) : messages (entries ++ more) = messages entries ++ messages more :=
  List.map_append ..

/-- The memory is the history behind the system prompt. -/
theorem history_note (sessionId : Agents.SessionId) {g : Histories} {prompt : Message}
    (h : g.history.get? sessionId = some (prompt :: messages c.memory)) (event : TurnEvent) :
    (noteHistory sessionId g event).history.get? sessionId =
      some (prompt :: messages (c.note number event).memory) := by
  have hopened : g.opened sessionId = prompt :: messages c.memory := by rw [Histories.opened,h]; rfl
  have hset (message : Message) : (g.history.set sessionId (g.opened sessionId ++ [message])).get? sessionId =
      some (prompt :: messages (c.memory ++ [⟨number,message⟩])) := by
    rw [Dict.get?_set,if_pos rfl,hopened,messages_append]
    rfl
  obtain ⟨o | o,r⟩ := event
  · cases o <;> cases r <;> exact h
  · cases o with
    | addUserMessage content =>
      cases r with
      | ok u => exact hset ⟨.user,content⟩
      | error e => exact h
    | addAssistantMessage content =>
      cases r with
      | ok u => exact hset ⟨.assistant,content⟩
      | error e => exact h
    | _ => cases r <;> exact h

theorem history_events (number : Nat) (sessionId : Agents.SessionId) {g : Histories} {prompt : Message} (events : List TurnEvent)
    (h : g.history.get? sessionId = some (prompt :: messages c.memory)) :
    (events.foldl (noteHistory sessionId) g).history.get? sessionId =
      some (prompt :: messages (events.foldl (note number) c).memory) := by
  induction events generalizing g c with
  | nil => exact h
  | cons event events ih => exact ih (history_note sessionId h event)

theorem history_afterTurns (number : Nat) (sessionId : Agents.SessionId) {g : Histories} {prompt : Message} (turns : List Played)
    (h : g.history.get? sessionId = some (prompt :: messages c.memory)) :
    (historyAfter settings wiring sessionId g turns).history.get? sessionId =
      some (prompt :: messages (afterTurns settings wiring number c turns).memory) := by
  induction turns generalizing number g c with
  | nil => exact h
  | cons turn turns ih =>
    have hturn := history_events number sessionId (turn.run settings wiring).2 h
    have hrest := ih (number + 1) hturn
    rw [historyAfter,List.flatMap_cons,List.foldl_append]
    exact hrest

/-- After any turns and any end of the connection, the history of a resumed session is the page
of rows that is found, and it is right exactly if the rows are what was remembered and fit on
the page. Turns that are through leave their messages in both. -/
theorem resumed_history (settings : HandoffOrchestrator.Settings) (wiring : Wiring) (turns : List Played)
    (ending : Ending) (sessionId : Agents.SessionId) (before after : Histories) (answers : Answers) (keys : Keys) :
    let ended := (afterTurns settings wiring 0 {} turns).disconnect ending
    (historyAfter settings wiring sessionId (before.initSession sessionId) turns).history.get? sessionId =
      some (⟨.system,before.systemPromptFor sessionId⟩ :: messages ended.memory) ∧
    (∃ found, (perform answers { messages := messages ended.stored } keys (.selectMessages 50)).1 = .ok found ∧
      (after.restore sessionId found).history.get? sessionId =
        some (⟨.system,after.systemPromptFor sessionId⟩ :: messages ended.resumed)) ∧
    (Resumes ended ↔ ended.stored = ended.memory ∧ ended.stored.length ≤ 50) ∧
    ((∀ turn ∈ turns, (turn.run settings wiring).1 = .ok ()) → ended.stored = ended.memory) := by
  intro ended
  have hmemory : ended.memory = (afterTurns settings wiring 0 {} turns).memory := by cases ending <;> rfl
  have hordered : Ordered (0 + turns.length) (afterTurns settings wiring 0 {} turns) :=
    ordered_afterTurns turns ordered_start
  refine ⟨?_,?_,?_,?_⟩
  · rw [hmemory]
    exact history_afterTurns 0 sessionId turns (by simp [Histories.initSession,messages])
  · refine ⟨messages ended.resumed,congrArg Except.ok List.map_take.symm,?_⟩
    exact after.get?_restore sessionId _
  · exact hordered.resumes_iff (stored_disconnect _ ending) hmemory
  · intro hok
    obtain ⟨hstored,hpending⟩ := stored_afterTurns 0 {} turns hok rfl rfl
    rw [hmemory,← hstored]
    cases ending with
    | closed => rfl
    | committed =>
      change _ ++ (afterTurns settings wiring 0 {} turns).pending = _
      rw [hpending,List.append_nil]

end runs

/-- Everything is answered: the document is there and nothing fails. -/
def smooth : Strategy TurnOp TurnReply Err
  | _,.inl o => (perform {} {} { state := some {} } o).1
  | _,.inr c => .ok (match c with
    | .interruptSet => false
    | .getLastAgentTrace => []
    | .evaluatePolicy _ => none
    | .synthesizeStream _ => (0 : Nat)
    | .storeTurn .. | .addUserMessage _ | .addAssistantMessage _ | .nextEvent | .onAgentStep | .onToken _ => ()
    | .turnsInterrupted | .nextChunk _ | .onAudio | .onError .. | .saveTurnMetrics | .retrieveContext _ | .retrieveSnippets _ => ()
    | .evaluateTurn _ | .recordOutcome _ | .commit | .onMetrics => ())

/-- A turn in which the user says a number and hears it back. -/
def echo (n : Nat) : Played where
  request := { orgId := none, transcript := toString n, events := [{ text := toString n }] }
  strategy := smooth

def manyTurns : Conversation := (afterTurns {} {} 0 {} ((List.range 26).map echo)).disconnect .committed

/-- After 26 whole turns the page ends with the answer of the twenty-fifth. -/
theorem manyTurns_not_recent : ¬Recent (messages manyTurns.resumed) (messages manyTurns.memory) := by
  intro h
  obtain ⟨before,hbefore⟩ := h.suffix
  have hpage : (messages manyTurns.resumed).getLast? = some ⟨.assistant,"24"⟩ := rfl
  have hnewest : (messages manyTurns.memory).getLast? = some ⟨.assistant,"25"⟩ := rfl
  rw [← hbefore,List.getLast?_append,hpage] at hnewest
  have hsame : some (⟨.assistant,"24"⟩ : Message) = some ⟨.assistant,"25"⟩ := hnewest
  exact absurd hsame (by decide)

end Conversation
end VoxForge.Pipeline.VoicePipelineService
