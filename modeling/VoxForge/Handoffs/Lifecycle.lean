import VoxForge.Handoffs.Orchestrator

/-! The life of a session's handoff, apart from the program: the ledger of its record,
its decisive events and its snapshot, and what one transaction may do to it. -/
namespace VoxForge.Handoffs
open Foundation Core Persistence

/-- The transitions of the handoff state machine, steps possibly skipped. -/
def leads : HandoffStatus → HandoffStatus → Bool
  | .pending,_ => true
  | .assigned,s => s ≠ .pending
  | .active,s => s ∈ [.active,.completed,.cancelled]
  | .completed,s => s = .completed
  | .cancelled,s => s = .cancelled

theorem leads_refl (s : HandoffStatus) : leads s s := by
  cases s <;> rfl

theorem leads_trans {s s' s'' : HandoffStatus} (h : leads s s') (h' : leads s' s'') : leads s s'' := by
  cases s <;> cases s' <;> cases s'' <;> first | rfl | exact h | exact h'

/-- An agent can still accept. -/
def waiting (s : HandoffStatus) : Bool := s ∈ [.pending,.assigned]

theorem waiting_of_leads {s s' : HandoffStatus} (h : leads s s') (h' : waiting s') : waiting s := by
  cases s <;> cases s' <;> first | rfl | exact h' | exact h

/-- The event that records each decisive transition. -/
def markOf : HandoffStatus → Option HandoffEventType
  | .active => some .accepted
  | .completed => some .completed
  | .cancelled => some .cancelled
  | _ => none

def isMark (e : HandoffEventType) : Bool := e ∈ [.accepted,.completed,.cancelled]

def closesHandoff (e : HandoffEventType) : Bool := e ∈ [.completed,.cancelled]

/-- The statuses from which a transition is guarded to start. -/
def guardOf : HandoffStatus → List HandoffStatus
  | .active => [.pending,.assigned]
  | _ => [.pending,.assigned,.active]

structure Ledger where
  handoffs : List HandoffRecord := []
  marks : List HandoffEventType := []
  snapshots : List ConversationSnapshot := []
  deriving DecidableEq, Repr

namespace Ledger

def observe (t : Tables) : Ledger :=
  { handoffs := t.handoffs
    marks := (t.events.map (·.eventType)).filter isMark
    snapshots := t.snapshots }

def act (a : Ledger) : Write → Ledger
  | .handoffInsert record => { a with handoffs := a.handoffs ++ [record] }
  | .handoffUpdate id update => { a with
      handoffs := a.handoffs.map fun record => if record.id = id then update.apply record else record }
  | .eventInsert event => { a with marks := a.marks ++ [event.eventType].filter isMark }
  | .snapshotInsert snapshot => { a with snapshots := a.snapshots ++ [snapshot] }
  | _ => a

theorem observe_apply (t : Tables) (w : Write) : observe (w.apply t) = (observe t).act w := by
  cases w <;> simp [observe,act,Write.apply]

/-- One handoff whose events and snapshot are those its status accounts for. -/
structure Single (a : Ledger) (r : HandoffRecord) : Prop where
  only : a.handoffs = [r]
  snapshots : a.snapshots.length ≤ 1
  accepted : a.marks.count .accepted ≤ if waiting r.status then 0 else 1
  closed : a.marks.countP closesHandoff ≤ if r.status ∈ [.completed,.cancelled] then 1 else 0

def Good (a : Ledger) : Prop := a = {} ∨ ∃ r, a.Single r

/-- What one commit may do: a handoff keeps its id, moves along its transitions, and
keeps its assignee once no agent can accept it any more. -/
def Move (a b : Ledger) : Prop :=
  ∀ r ∈ a.handoffs, ∃ r' ∈ b.handoffs, r'.id = r.id ∧ leads r.status r'.status ∧
    (¬ waiting r.status → r'.assignedToUserId = r.assignedToUserId)

theorem Move.refl (a : Ledger) : Move a a :=
  fun r hr => ⟨r,hr,rfl,leads_refl r.status,fun _ => rfl⟩

theorem Move.trans {a b c : Ledger} (h : Move a b) (h' : Move b c) : Move a c := by
  intro r hr
  obtain ⟨r',hr',hid,hleads,hkeep⟩ := h r hr
  obtain ⟨r'',hr'',hid',hleads',hkeep'⟩ := h' r' hr'
  refine ⟨r'',hr'',hid'.trans hid,leads_trans hleads hleads',fun hw => ?_⟩
  have hw' : ¬ waiting r'.status := fun hwait => hw (waiting_of_leads hleads hwait)
  exact (hkeep' hw').trans (hkeep hw)

theorem move_of_moves {a b : Ledger} (h : Relation.ReflTransGen Move a b) : Move a b := by
  induction h with
  | refl => exact Move.refl a
  | tail _ hstep ih => exact ih.trans hstep

end Ledger

/-- How far a transaction has come with the handoff. -/
inductive Stage where
  | idle
  | creating (id : HandoffId)
  | moved (status : HandoffStatus) (recorded : Bool)
  deriving DecidableEq, Repr

namespace Stage

/-- What a transaction at a stage makes of the committed ledger. -/
def Sees (c : Stage) (a b : Ledger) : Prop :=
  match c with
  | .idle => b = a
  | .creating id => a = {} ∧ ∃ r, b.handoffs = [r] ∧ r.id = id ∧ waiting r.status ∧ b.marks = [] ∧
      b.snapshots.length ≤ 1 ∧ ∀ s ∈ b.snapshots, s.handoffId = id
  | .moved status recorded => ∃ r u, a.handoffs = [r] ∧ r.status ∈ guardOf status ∧
      HandoffUpdate.status u = status ∧ (markOf status).isSome ∧ (status ≠ .active → u.fields.assignedToUserId = none) ∧
      b = { a with
        handoffs := [u.apply r]
        marks := a.marks ++ if recorded then (markOf status).toList else [] }

/-- The transitions that are guarded are transitions of the state machine. -/
theorem leads_of_guard {s s' : HandoffStatus} (hmark : (markOf s').isSome) (h : s ∈ guardOf s') :
    leads s s' := by
  cases s' <;> cases s <;> simp_all [markOf,guardOf,leads]

theorem open_of_guard {s s' : HandoffStatus} (h : s ∈ guardOf s') :
    s ∉ [HandoffStatus.completed,.cancelled] := by
  cases s' <;> cases s <;> first | decide | exact absurd h (by decide)

section moved
variable {a : Ledger} {r : HandoffRecord} {u : HandoffUpdate} {recorded : Bool}

/-- Accepting is recorded for a handoff for which it has not been recorded before. -/
theorem accepted_moved (h : a.Single r) (hguard : r.status ∈ guardOf u.status)
    (hmark : (markOf u.status).isSome) :
    (a.marks ++ if recorded then (markOf u.status).toList else []).count .accepted ≤
      if waiting u.status then 0 else 1 := by
  have hbefore := h.accepted
  rw [List.count_append]
  cases hs : u.status <;> simp only [hs,markOf,guardOf,Option.isSome_none,Bool.false_eq_true] at *
  · -- a handoff that waits has no accepting agent yet
    have hwait : waiting r.status := by simpa [waiting] using hguard
    rw [if_pos hwait] at hbefore
    cases recorded <;> simp [waiting] <;> omega
  all_goals
    have hle : a.marks.count .accepted ≤ 1 := by
      split at hbefore <;> omega
    cases recorded <;> simpa [waiting] using hle

/-- Closing is recorded for a handoff that was open. -/
theorem closed_moved (h : a.Single r) (hguard : r.status ∈ guardOf u.status)
    (hmark : (markOf u.status).isSome) :
    (a.marks ++ if recorded then (markOf u.status).toList else []).countP closesHandoff ≤
      if u.status ∈ [.completed,.cancelled] then 1 else 0 := by
  have hopen : a.marks.countP closesHandoff = 0 := by
    have hbefore := h.closed
    rw [if_neg (open_of_guard hguard)] at hbefore
    omega
  rw [List.countP_append,hopen]
  cases hs : u.status <;> cases recorded <;> simp_all [markOf,closesHandoff]

end moved

/-- A transaction that commits leaves one handoff in order, further along than before. -/
theorem Sees.commits {c : Stage} {a b : Ledger} (ha : a.Good) (h : c.Sees a b) :
    b.Good ∧ a.Move b := by
  cases c with
  | idle =>
    obtain rfl : b = a := h
    exact ⟨ha,.refl b⟩
  | creating id =>
    obtain ⟨rfl,r,honly,-,hwait,hmarks,hsnaps,-⟩ := h
    refine ⟨.inr ⟨r,honly,hsnaps,?_,?_⟩,fun r' hr' => absurd hr' (by simp)⟩
    · simp [hmarks]
    · simp [hmarks]
  | moved status recorded =>
    obtain ⟨r,u,honly,hguard,rfl,hmark,hassignee,rfl⟩ := h
    obtain hempty | ⟨r',hr'⟩ := ha
    · rw [hempty] at honly
      cases honly
    obtain rfl : r' = r := by simpa using hr'.only.symm.trans honly
    have hsingle : Ledger.Single { a with
        handoffs := [u.apply r']
        marks := a.marks ++ if recorded then (markOf u.status).toList else [] } (u.apply r') :=
      ⟨rfl,hr'.snapshots,accepted_moved hr' hguard hmark,closed_moved hr' hguard hmark⟩
    refine ⟨.inr ⟨_,hsingle⟩,fun r hr => ?_⟩
    obtain rfl : r = r' := by simpa [honly] using hr
    refine ⟨u.apply r,by simp,rfl,leads_of_guard hmark hguard,fun hwait => ?_⟩
    have hne : u.status ≠ .active := fun ha => hwait (by simpa [ha,guardOf,waiting] using hguard)
    simp [HandoffUpdate.apply,hassignee hne]

end Stage
end VoxForge.Handoffs
