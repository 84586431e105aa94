import VoxForge.Foundation.Runs
import VoxForge.Sessions.Manager

/-! The tasks that read, change and write back one session's Redis document, one
statement or command at a time, in any order. -/
namespace VoxForge.Sessions
open Foundation Core Persistence

/-- The part of the document that steers the voice stream. -/
structure Streaming where
  phase : SessionPhase
  sequence : Int
  interrupt : Bool
  deriving DecidableEq, Repr

def streamingOf (state : SessionState) : Streaming := ⟨state.phase,state.sequence,state.interrupt⟩

/-- The heartbeat loop, the calls of the turn pipeline, `interrupt()` and the end of a session. -/
inductive Mutator where
  | recordHeartbeat
  | updatePhase (phase : SessionPhase)
  | trackToolFailures (failedCount : Int)
  | clearInterrupt
  | setInterrupt
  | endSession
  deriving DecidableEq, Repr

namespace Mutator
variable (settings : Settings)

def program : Mutator → Action Unit
  | recordHeartbeat => StateStore.recordHeartbeat settings
  | updatePhase phase => discard (StateStore.updatePhase settings phase)
  | trackToolFailures failedCount => discard (SessionManager.trackToolFailures settings failedCount)
  | clearInterrupt => discard (StateStore.clearInterrupt settings)
  | setInterrupt => discard (StateStore.setInterrupt settings true)
  | endSession => discard SessionManager.endSession

/-- What a mutator is for: its change of the document, were it one step. -/
def effect : Mutator → Streaming → Streaming
  | updatePhase phase,d => { d with phase, sequence := d.sequence + 1 }
  | clearInterrupt,d => { d with interrupt := false, sequence := d.sequence + 1 }
  | setInterrupt,d => { d with interrupt := true, sequence := d.sequence + 1 }
  | recordHeartbeat,d | trackToolFailures _,d | endSession,d => d

/-- How much a mutator raises the sequence of the document that it changes. -/
def raise : Mutator → Nat
  | updatePhase _ | clearInterrupt | setInterrupt => 1
  | recordHeartbeat | trackToolFailures _ | endSession => 0

def setsPhase : Mutator → Bool
  | updatePhase _ => true
  | _ => false

end Mutator

/-- What a task has learnt from the replies it got. -/
structure Knowledge where
  /-- The document, missing or not, that the value written next is made from: the one read or
  written last, and after a look at the row the one that the task itself has created. -/
  base : Option (Option Streaming) := none
  created : Option Streaming := none
  status : Option SessionStatus := none
  ended : Bool := false
  deriving DecidableEq, Repr

def Knowledge.after (c : Knowledge) : (o : Op) → Except Err (Reply o) → Knowledge
  | .getState,.ok (reply : Option SessionState) => { c with base := some (reply.map streamingOf) }
  | .setState state _,.ok _ =>
    { c with
      base := some (some (streamingOf state))
      created := if c.base = some none then some (streamingOf state) else c.created }
  | .selectSession,.ok (some row : Option SessionRow) =>
    { c with
      base := if c.created.isSome then some c.created else c.base
      status := some row.status
      ended := c.ended || row.status.terminal }
  | .updateSessionEnded _ _,.ok _ => { c with ended := true }
  | _,_ => c

structure Running where
  mutator : Mutator
  rest : Action Unit
  knowledge : Knowledge := {}
  /-- The version of the document that the base was, and of the one created. -/
  readAt : Nat := 0
  createdAt : Nat := 0

/-- One session's keys and row, with the tasks at work on them. The last five fields
record what the run has done: nothing in the program reads them. -/
structure Store where
  keys : Keys
  row : SessionRow
  /-- Every value the row has had: a transaction may not see the latest. -/
  history : List SessionRow
  tasks : List Running := []
  /-- The number of writes and deletions of the document. -/
  version : Nat := 0
  /-- The version at which an interrupt was set that no clear has answered. -/
  due : Option Nat := none
  /-- The version at which the stored phase was written. -/
  phaseAt : Nat := 0
  /-- The versions at which the stored sequence became another one. -/
  changes : List Nat := []
  deletedAt : Option Nat := none

inductive Choice where
  | answer (answers : Answers) (seen : Nat)
  | fault (e : Err)
  deriving DecidableEq, Repr

inductive Label where
  | spawn (mutator : Mutator)
  | step (task : Nat) (choice : Choice)
  deriving DecidableEq, Repr

namespace Store
variable (settings : Settings)

def start (keys : Keys) (row : SessionRow) : Store := { keys, row, history := [row] }

/-- What the run owes after an operation of a task. A clear answers an interrupt
only if it has read a document that the interrupt was already in. -/
def dueAfter (s : Store) (t : Running) : Op → Option Nat
  | .setState _ _ =>
    match t.mutator with
    | .setInterrupt => some (s.version + 1)
    | .clearInterrupt => s.due.filter (t.readAt < ·)
    | _ => s.due
  | .deleteState => none
  | _ => s.due

def phaseAtAfter (s : Store) : Op → Nat
  | .setState state _ => if s.keys.state.map (·.phase) = some state.phase then s.phaseAt else s.version + 1
  | _ => s.phaseAt

def changesAfter (s : Store) : Op → List Nat
  | .setState state _ =>
    if s.keys.state.map (·.sequence) = some state.sequence then s.changes else s.changes ++ [s.version + 1]
  | _ => s.changes

def deletedAtAfter (s : Store) : Op → Option Nat
  | .deleteState => some (s.version + 1)
  | _ => s.deletedAt

def versionAfter (s : Store) : Op → Nat
  | .setState _ _ | .deleteState => s.version + 1
  | _ => s.version

def readAtAfter (s : Store) (t : Running) : Op → Nat
  | .getState => s.version
  | .setState _ _ => s.version + 1
  | .selectSession => if t.knowledge.created.isSome then t.createdAt else t.readAt
  | _ => t.readAt

def createdAtAfter (s : Store) (t : Running) : Op → Nat
  | .setState _ _ => if t.knowledge.base = some none then s.version + 1 else t.createdAt
  | _ => t.createdAt

/-- The operation `o` of task `i` takes effect. -/
def perform (s : Store) (i : Nat) (t : Running) (o : Op) (k : Except Err (Reply o) → Action Unit)
    (answers : Answers) (seen : SessionRow) : Store :=
  let (reply,writes,keys) := Persistence.perform answers { session := seen } s.keys o
  let row := (writes.foldl Write.apply { session := s.row }).session
  { keys
    row
    history := s.history ++ [row]
    tasks := s.tasks.set i { t with
      rest := k reply
      knowledge := t.knowledge.after o reply
      readAt := s.readAtAfter t o
      createdAt := s.createdAtAfter t o }
    version := s.versionAfter o
    due := s.dueAfter t o
    phaseAt := s.phaseAtAfter o
    changes := s.changesAfter o
    deletedAt := s.deletedAtAfter o }

def step (s : Store) : Label → Option Store
  | .spawn mutator =>
    some { s with tasks := s.tasks ++ [{ mutator, rest := mutator.program settings }] }
  | .step i choice => do
    let t ← s.tasks[i]?
    match t.rest with
    | .call o k =>
      match choice with
      | .fault e =>
        if e.external then
          some { s with tasks := s.tasks.set i { t with rest := k (.error e) } }
        else none
      | .answer answers seen => return s.perform i t o k answers (← s.history[seen]?)
    | _ => none

/-- A condition on the task whose `SET` a label lets through. -/
def writing (s : Store) (ok : Running → Bool) : Label → Bool
  | .step i (.answer _ _) => (s.tasks[i]?).all fun t =>
    match t.rest with
    | .call (.setState _ _) _ => ok t
    | _ => true
  | _ => true

/-- How often the stored sequence has become another one since a version. -/
def missed (s : Store) (version : Nat) : Nat := s.changes.countP (version < ·)

/-- Whoever writes but `interrupt()` has read the interrupt that is due. -/
def interruptFresh (s : Store) : Label → Bool :=
  s.writing fun t => t.mutator = .setInterrupt || s.due.all (· ≤ t.readAt)

/-- Over a document that is stored, a task that does not raise the sequence has missed no change of
it, and one that does at most one; and neither has missed a deletion. -/
def sequenceFresh (s : Store) : Label → Bool :=
  s.writing fun t => s.keys.state.isNone ||
    (s.missed t.readAt ≤ t.mutator.raise && s.deletedAt.all (· ≤ t.readAt))

/-- Over a document that is stored, whoever writes but `update_phase` has read its phase. -/
def phaseFresh (s : Store) : Label → Bool :=
  s.writing fun t => s.keys.state.isNone || t.mutator.setsPhase || s.phaseAt ≤ t.readAt

/-- Whoever writes has missed no deletion and, where the document was missing, has seen the latest
status of the row. -/
def deletionFresh (s : Store) : Label → Bool :=
  s.writing fun t => s.deletedAt.all fun v => v ≤ t.readAt &&
    (t.knowledge.base ≠ some none || t.knowledge.status = some s.row.status)

theorem ok_of_writing {s : Store} {ok : Running → Bool} {i : Nat} {answers : Answers} {seen : Nat} {t : Running}
    {state : SessionState} {ttlSeconds : Nat} {k : Except Err Unit → Action Unit}
    (h : s.writing ok (.step i (.answer answers seen))) (ht : s.tasks[i]? = some t)
    (hrest : t.rest = .call (.setState state ttlSeconds) k) : ok t := by
  simpa [writing,ht,hrest] using h

/-! What one step of any task owes the others. -/

def InterruptKept (s : Store) : Prop :=
  s.due.isSome → ∃ state, s.keys.state = some state ∧ state.interrupt = true

def SequenceKept (a b : Store) : Prop :=
  ∀ old new, a.keys.state = some old → b.keys.state = some new → old.sequence ≤ new.sequence

/-- The stored phase changes only by an `update_phase` that writes its own. -/
def PhaseKept (a : Store) (l : Label) (b : Store) : Prop :=
  ∀ old new, a.keys.state = some old → b.keys.state = some new → new.phase = old.phase ∨
    ∃ i choice, l = .step i choice ∧ ∃ t ∈ a.tasks[i]?, t.mutator = .updatePhase new.phase

def DeletionKept (s : Store) : Prop := s.deletedAt.isSome → s.keys.state = none

end Store
end VoxForge.Sessions
