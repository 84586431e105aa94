import Mathlib.Data.List.Sort
import VoxForge.Foundation.Rotation
import VoxForge.Foundation.Runs
import VoxForge.Handoffs.Orchestrator

/-! The assignment of handoffs to the members of an organisation in turn. -/
namespace VoxForge.Handoffs
open Foundation Core Persistence HandoffOrchestrator

structure UserModel where
  id : UserId
  email : String
  deriving DecidableEq, Repr

/-- How `DESC` orders times that may be missing: the missing ones come first. -/
def DescNullsFirst : Option Time → Option Time → Prop
  | none,_ => True
  | some _,none => False
  | some newer,some older => older ≤ newer

instance : DecidableRel DescNullsFirst
  | none,_ => .isTrue trivial
  | some _,none => .isFalse id
  | some newer,some older => inferInstanceAs (Decidable (older ≤ newer))

/-- `ORDER BY assigned_at DESC`: equal times in any order. -/
structure ByAssignment where
  order : List HandoffRecord → List HandoffRecord
  perm : ∀ rows, (order rows).Perm rows
  sorted : ∀ rows, (order rows).Pairwise fun newer older => DescNullsFirst newer.assignedAt older.assignedAt

namespace RoundRobinAssignmentProvider

def lastAssigned (byAssignment : ByAssignment) (rows : List HandoffRecord) : Option HandoffRecord :=
  (byAssignment.order (rows.filter (·.assignedToUserId.isSome))).head?

/-- The assignment for a handoff, and the cursor that the provider has then. -/
def assign (members : List UserModel) (lastAssigned : Option HandoffRecord) (cursor : Option Int) :
    HandoffAssignment × Option Int :=
  let assignTo (user : Option UserModel) : HandoffAssignment := ⟨user.map (·.id),user.map (·.email)⟩
  if members = [] then ({},cursor)
  else match lastAssigned.bind (·.assignedToUserId) with
    | some userId =>
      match members.findIdx? (·.id = userId) with
      | some idx => (assignTo members[(idx + 1) % members.length]?,cursor)
      | none => (assignTo members[0]?,cursor)
    | none =>
      let next := (cursor.getD (-1) + 1) % members.length
      (assignTo members[next.toNat]?,some next)

end RoundRobinAssignmentProvider

open RoundRobinAssignmentProvider

/-- The handoffs of an organisation, and to whom the assignments so far went. -/
structure Desk where
  rows : List HandoffRecord := []
  assignments : List UserId := []
  deriving DecidableEq, Repr

/-- An operation of the handoff desk: a new handoff, which the provider assigns with the cursor it
has, or a request on a handoff. -/
inductive DeskCall where
  | initiate (id : HandoffId) (trigger : HandoffTrigger) (reason : String) (cursor : Option Int) (now : Time)
  | accept (id : HandoffId) (userId : UserId) (now : Time)
  | complete (id : HandoffId) (resolution : String) (now : Time)
  | cancel (id : HandoffId) (now : Time)
  deriving DecidableEq, Repr

/-- `UPDATE … WHERE id AND status IN allowed`. -/
def updateRows (id : HandoffId) (allowedFrom : Option (List HandoffStatus)) (update : HandoffUpdate)
    (rows : List HandoffRecord) : List HandoffRecord :=
  rows.map fun row => if row.id = id ∧ allowedFrom.all (row.status ∈ ·) then update.apply row else row

def initiatedRows (orgId : OrgId) (id : HandoffId) (trigger : HandoffTrigger) (reason : String) (now : Time)
    (assignment : HandoffAssignment) (rows : List HandoffRecord) : List HandoffRecord :=
  let record : HandoffRecord := { id, orgId, trigger, triggerReason := reason, createdAt := now, updatedAt := now }
  let status := if assignment.assigned then HandoffStatus.assigned else .pending
  let fields : HandoffFields := {
    assignedToUserId := some assignment.assigneeUserId
    assignedToEmail := some assignment.assigneeEmail
    assignedAt := some (if assignment.assigned then some now else none) }
  updateRows id none ⟨status,now,fields⟩ (rows ++ [record])

def acceptUpdate (userId : UserId) (now : Time) : HandoffUpdate :=
  ⟨.active,now,{ assignedToUserId := some (some userId), acceptedAt := some (some now) }⟩

/-- What a request sets, and from which states it may. -/
def DeskCall.update : DeskCall → Option (HandoffId × List HandoffStatus × HandoffUpdate)
  | .initiate .. => none
  | .accept id userId now => some (id,acceptableForAccept,acceptUpdate userId now)
  | .complete id resolution now => some (id,acceptableForComplete,
      ⟨.completed,now,{ completedAt := some (some now), resolution := some (some resolution) }⟩)
  | .cancel id now => some (id,acceptableForComplete,⟨.cancelled,now,{}⟩)

section desk
variable (byAssignment : ByAssignment) (orgId : OrgId) (members : List UserModel)

/-- Who gets the next handoff. -/
def nextAssignment (desk : Desk) (cursor : Option Int) : HandoffAssignment :=
  (assign members (lastAssigned byAssignment desk.rows) cursor).1

/-- One operation. A new handoff has an id of its own. -/
def Desk.step (desk : Desk) (call : DeskCall) : Option Desk :=
  match call with
  | .initiate id trigger reason cursor now =>
    if desk.rows.any (·.id = id) then none
    else
      let assignment := nextAssignment byAssignment members desk cursor
      some ⟨initiatedRows orgId id trigger reason now assignment desk.rows,
        desk.assignments ++ assignment.assigneeUserId.toList⟩
  | call => call.update.map fun (id,allowedFrom,update) =>
      { desk with rows := updateRows id (some allowedFrom) update desk.rows }

end desk

/-! Who was assigned last -/

/-- An earlier time, or any time beside a missing one: it comes later in the order. -/
def Sooner : Option Time → Option Time → Prop
  | some s,some t => s < t
  | some _,none => True
  | none,_ => False

instance : DecidableRel Sooner
  | some s,some t => inferInstanceAs (Decidable (s < t))
  | some _,none => .isTrue trivial
  | none,_ => .isFalse id

theorem Sooner.irrefl (a : Option Time) : ¬ Sooner a a := by
  cases a with
  | none => exact id
  | some s => exact lt_irrefl s

theorem Sooner.trans {a b c : Option Time} (h : Sooner a b) (h' : Sooner b c) : Sooner a c := by
  cases a with
  | none => exact h
  | some s =>
    cases b with
    | none => exact h'.elim
    | some t =>
      cases c with
      | none => exact trivial
      | some u => exact Nat.lt_trans h h'

theorem DescNullsFirst.trans {a b c : Option Time} (h : DescNullsFirst a b) (h' : DescNullsFirst b c) :
    DescNullsFirst a c := by
  cases a with
  | none => exact trivial
  | some s =>
    cases b with
    | none => exact h.elim
    | some t =>
      cases c with
      | none => exact h'.elim
      | some u => exact Nat.le_trans h' h

theorem Sooner.not_desc {a b : Option Time} (h : Sooner a b) : ¬ DescNullsFirst a b := by
  cases a with
  | none => exact h.elim
  | some s =>
    cases b with
    | none => exact id
    | some t => exact Nat.not_le_of_lt h

/-- The one handoff that the query can find. -/
structure Newest (rows : List HandoffRecord) (r : HandoffRecord) : Prop where
  mem : r ∈ rows
  assigned : r.assignedToUserId.isSome
  sooner : ∀ q ∈ rows, q ≠ r → q.assignedToUserId.isSome → Sooner q.assignedAt r.assignedAt

/-- Who is told by the newest of the assigned handoffs, if there is one. -/
inductive Front (rows : List HandoffRecord) : Option UserId → Prop where
  | nobody (h : ∀ r ∈ rows, r.assignedToUserId = none) : Front rows none
  | somebody {r : HandoffRecord} {u : UserId} (h : Newest rows r) (hu : r.assignedToUserId = some u) :
    Front rows (some u)

theorem lastAssigned_eq (byAssignment : ByAssignment) {rows : List HandoffRecord} {u : Option UserId}
    (h : Front rows u) : (lastAssigned byAssignment rows).bind (·.assignedToUserId) = u := by
  have hperm := byAssignment.perm (rows.filter (·.assignedToUserId.isSome))
  have hsorted := byAssignment.sorted (rows.filter (·.assignedToUserId.isSome))
  unfold lastAssigned
  cases h with
  | nobody h =>
    have hnone : rows.filter (·.assignedToUserId.isSome) = [] :=
      List.filter_eq_nil_iff.mpr fun r hr => by simp [h r hr]
    rw [hnone] at hperm ⊢
    rw [hperm.eq_nil]
    rfl
  | @somebody r u h hu =>
    have hr := hperm.mem_iff.mpr (List.mem_filter.mpr ⟨h.mem,h.assigned⟩)
    cases horder : byAssignment.order (rows.filter (·.assignedToUserId.isSome)) with
    | nil => rw [horder] at hr; cases hr
    | cons q rest =>
      rw [horder] at hperm hsorted hr
      obtain ⟨hq,hassigned⟩ := List.mem_filter.mp (hperm.mem_iff.mp (List.mem_cons_self ..))
      by_cases hqr : q = r
      · rw [hqr]
        exact hu
      · have hrest : r ∈ rest := (List.mem_cons.mp hr).resolve_left (Ne.symm hqr)
        exact absurd ((List.pairwise_cons.mp hsorted).1 r hrest) (h.sooner q hq hqr hassigned).not_desc

section assigning
variable {members : List UserModel}

/-- After an assigned member comes the next one. -/
theorem assign_successor (hne : members ≠ []) {last : Option HandoffRecord} {u : UserId}
    (h : last.bind (·.assignedToUserId) = some u) (cursor : Option Int) :
    (assign members last cursor).1.assigneeUserId = successor (members.map (·.id)) u := by
  unfold assign successor
  rw [if_neg hne,h]
  dsimp only
  cases hfind : members.findIdx? (·.id = u) with
  | none =>
    have hu : u ∉ members.map (·.id) := by
      simpa using hfind
    rw [if_neg hu]
    cases members with
    | nil => exact absurd rfl hne
    | cons m members => rfl
  | some idx =>
    obtain ⟨hlt,hidx⟩ := List.findIdx?_eq_some_iff_findIdx_eq.mp hfind
    have hof : (members.map (·.id)).idxOf u = idx := by
      rw [List.idxOf,List.findIdx_map,← hidx]
      congr 1
    have hu : u ∈ members.map (·.id) := by
      rw [← List.idxOf_lt_length_iff,hof,List.length_map]
      exact hlt
    rw [if_pos hu,hof,List.length_map,List.getElem?_map]

theorem assign_mem {last : Option HandoffRecord} {cursor : Option Int} {m : UserId}
    (h : (assign members last cursor).1.assigneeUserId = some m) : m ∈ members.map (·.id) := by
  have hget : ∀ i : Nat, members[i]?.map (·.id) = some m → m ∈ members.map (·.id) := by
    intro i hi
    rw [← List.getElem?_map] at hi
    exact List.mem_of_getElem? hi
  unfold assign at h
  split at h
  · cases h
  · split at h
    · split at h <;> exact hget _ h
    · exact hget _ h

theorem assign_isSome (hne : members ≠ []) (last : Option HandoffRecord) (cursor : Option Int) :
    (assign members last cursor).1.assigneeUserId.isSome := by
  have hlen := List.length_pos_iff.mpr hne
  unfold assign
  rw [if_neg hne]
  dsimp only
  split
  · split
    · simpa using Nat.mod_lt _ hlen
    · simpa using hlen
  · have hlo := Int.emod_nonneg (cursor.getD (-1) + 1) (by omega : (members.length : Int) ≠ 0)
    have hhi := Int.emod_lt_of_pos (cursor.getD (-1) + 1) (by omega : (0 : Int) < members.length)
    have hin : ((cursor.getD (-1) + 1) % (members.length : Int)).toNat < members.length := by omega
    rw [Option.isSome_map,List.getElem?_eq_getElem hin]
    rfl

end assigning

/-! What the operations leave in front -/

section updates
variable {rows : List HandoffRecord} {u : Option UserId} {id : HandoffId}

/-- An update that changes the assignee of no handoff, or only of one with a newer one before it. -/
theorem front_updateRows {allowedFrom : Option (List HandoffStatus)} {update : HandoffUpdate}
    (hat : update.fields.assignedAt = none)
    (hto : ∀ row ∈ rows, row.id = id → allowedFrom.all (row.status ∈ ·) →
      (update.apply row).assignedToUserId = row.assignedToUserId ∨
        ∃ other ∈ rows, other.assignedToUserId.isSome ∧ Sooner row.assignedAt other.assignedAt)
    (h : Front rows u) : Front (updateRows id allowedFrom update rows) u := by
  unfold updateRows
  generalize hchange : (fun row : HandoffRecord =>
    if row.id = id ∧ allowedFrom.all (row.status ∈ ·) then update.apply row else row) = change
  have hsame : ∀ row, (change row).assignedAt = row.assignedAt := by
    intro row
    rw [← hchange]
    dsimp only
    split
    · simp [HandoffUpdate.apply,hat]
    · rfl
  have hkept : ∀ row ∈ rows, (change row).assignedToUserId = row.assignedToUserId ∨
      ∃ other ∈ rows, other.assignedToUserId.isSome ∧ Sooner row.assignedAt other.assignedAt := by
    intro row hrow
    rw [← hchange]
    dsimp only
    split
    · next hc => exact hto row hrow hc.1 hc.2
    · exact .inl rfl
  cases h with
  | nobody h =>
    refine .nobody fun q hq => ?_
    obtain ⟨row,hrow,rfl⟩ := List.mem_map.mp hq
    rcases hkept row hrow with heq | ⟨other,hother,hassigned,-⟩
    · rw [heq,h row hrow]
    · simp [h other hother] at hassigned
  | @somebody r m h hm =>
    have hfront : (change r).assignedToUserId = r.assignedToUserId := by
      rcases hkept r h.mem with heq | ⟨other,hother,hassigned,hsooner⟩
      · exact heq
      · have hne : other ≠ r := by rintro rfl; exact hsooner.irrefl
        exact absurd (hsooner.trans (h.sooner other hother hne hassigned)) (Sooner.irrefl _)
    refine .somebody ⟨List.mem_map_of_mem h.mem,by rw [hfront]; exact h.assigned,fun q hq hne hassigned => ?_⟩
      (hfront.trans hm)
    obtain ⟨row,hrow,rfl⟩ := List.mem_map.mp hq
    have hrow_ne : row ≠ r := fun heq => hne (congrArg change heq)
    rw [hsame,hsame]
    rcases hkept row hrow with heq | ⟨other,hother,hother_assigned,hsooner⟩
    · exact h.sooner row hrow hrow_ne (heq ▸ hassigned)
    · by_cases heq : other = r
      · exact heq ▸ hsooner
      · exact hsooner.trans (h.sooner other hother heq hother_assigned)

theorem updateRows_new {update : HandoffUpdate} {record : HandoffRecord} (hfresh : ∀ row ∈ rows, row.id ≠ id)
    (hid : record.id = id) : updateRows id none update (rows ++ [record]) = rows ++ [update.apply record] := by
  unfold updateRows
  rw [List.map_append,List.map_singleton,if_pos ⟨hid,rfl⟩]
  congr 1
  calc
    _ = rows.map (fun row => row) := List.map_congr_left fun row hrow => if_neg fun hc => hfresh row hrow hc.1
    _ = rows := List.map_id' rows

/-- A new assignment is the newest, if its time is after those of the others. -/
theorem front_initiatedRows {orgId : OrgId} {trigger : HandoffTrigger} {reason : String} {now : Time}
    {assignment : HandoffAssignment} {m : UserId} (hfresh : ∀ row ∈ rows, row.id ≠ id)
    (hsooner : ∀ row ∈ rows, row.assignedToUserId.isSome → Sooner row.assignedAt (some now))
    (hm : assignment.assigneeUserId = some m) :
    Front (initiatedRows orgId id trigger reason now assignment rows) (some m) := by
  have hassigned : assignment.assigned = true := by simp [HandoffAssignment.assigned,hm]
  unfold initiatedRows
  dsimp only
  rw [updateRows_new hfresh rfl,hassigned]
  refine .somebody ⟨List.mem_append_right _ (List.mem_singleton_self _),?_,fun q hq hne hq_assigned => ?_⟩ ?_
  · rw [HandoffUpdate.apply,Option.getD_some,hm]
    rfl
  · rcases List.mem_append.mp hq with hq | hq
    · exact hsooner q hq hq_assigned
    · exact absurd (List.mem_singleton.mp hq) hne
  · exact hm

end updates

section runs
variable (byAssignment : ByAssignment) (orgId : OrgId) (members : List UserModel)

/-- Nothing that an operation does can put another assignment in front of the last one. -/
def Careful (desk : Desk) : DeskCall → Prop
  | .initiate _ _ _ _ now =>
    ∀ row ∈ desk.rows, row.assignedToUserId.isSome → Sooner row.assignedAt (some now)
  | .accept id userId _ =>
    ∀ row ∈ desk.rows, row.id = id → row.status ∈ acceptableForAccept → row.assignedToUserId = some userId ∨
      ∃ other ∈ desk.rows, other.assignedToUserId.isSome ∧ Sooner row.assignedAt other.assignedAt
  | .complete .. | .cancel .. => True

instance (desk : Desk) : DecidablePred (Careful desk)
  | .initiate .. => inferInstanceAs (Decidable (∀ row ∈ desk.rows, _ → _))
  | .accept .. => inferInstanceAs (Decidable (∀ row ∈ desk.rows, _ → _ → _ ∨ ∃ other ∈ desk.rows, _ ∧ _))
  | .complete .. | .cancel .. => .isTrue trivial

/-- There is only one member, or every operation is careful, from handoffs with one newest assignment
or none. -/
def Steady (rows : List HandoffRecord) (calls : List DeskCall) : Prop :=
  members.length = 1 ∨ (∃ u, Front rows u) ∧
    ∀ a call b, Fires (Desk.step byAssignment orgId members) ⟨rows,[]⟩ calls a call b → Careful a call

/-- Each assignment goes to the successor of the one before, whole rounds are even, and only an
assignment changes who is next. -/
structure RoundRobinLaw (rows : List HandoffRecord) (calls : List DeskCall) : Prop where
  next : ∀ t, Visits (Desk.step byAssignment orgId members) ⟨rows,[]⟩ calls t → ∀ m,
    t.assignments.getLast? = some m → ∀ cursor,
      (nextAssignment byAssignment members t cursor).assigneeUserId = successor (members.map (·.id)) m
  inTurn : ∀ t, Visits (Desk.step byAssignment orgId members) ⟨rows,[]⟩ calls t →
    InTurn (members.map (·.id)) t.assignments
  even : ∀ t, Visits (Desk.step byAssignment orgId members) ⟨rows,[]⟩ calls t → ∀ past block rest,
    t.assignments = past ++ block ++ rest → ∀ k, block.length = k * members.length →
      ∀ m ∈ members.map (·.id), block.count m = k
  kept : ∀ a call b, Fires (Desk.step byAssignment orgId members) ⟨rows,[]⟩ calls a call b →
    call.update.isSome → ∀ cursor,
      nextAssignment byAssignment members b cursor = nextAssignment byAssignment members a cursor

/-- Who is next is the successor of the last one assigned. -/
def Due (desk : Desk) : Prop :=
  ∀ m, desk.assignments.getLast? = some m → ∀ cursor,
    (nextAssignment byAssignment members desk cursor).assigneeUserId = successor (members.map (·.id)) m

variable {byAssignment orgId members}

theorem front_request {a b : Desk} {call : DeskCall} {u : Option UserId}
    (hstep : a.step byAssignment orgId members call = some b) (hcall : call.update.isSome)
    (hcareful : Careful a call) (h : Front a.rows u) : Front b.rows u := by
  cases call with
  | initiate => cases hcall
  | accept id userId now =>
    obtain rfl := Option.some.inj hstep
    refine front_updateRows rfl (fun row hrow hid hstatus => ?_) h
    refine (hcareful row hrow hid (by simpa using hstatus)).imp_left fun hto => ?_
    rw [hto]
    rfl
  | complete id resolution now =>
    obtain rfl := Option.some.inj hstep
    exact front_updateRows rfl (fun _ _ _ _ => .inl rfl) h
  | cancel id now =>
    obtain rfl := Option.some.inj hstep
    exact front_updateRows rfl (fun _ _ _ _ => .inl rfl) h

/-- An initiation assigns to the one who is next. -/
theorem step_initiate {a b : Desk} {id : HandoffId} {trigger : HandoffTrigger} {reason : String}
    {cursor : Option Int} {now : Time} (hne : members ≠ [])
    (hstep : a.step byAssignment orgId members (.initiate id trigger reason cursor now) = some b) :
    (∀ row ∈ a.rows, row.id ≠ id) ∧ ∃ m, (nextAssignment byAssignment members a cursor).assigneeUserId = some m ∧
      b = ⟨initiatedRows orgId id trigger reason now (nextAssignment byAssignment members a cursor) a.rows,
        a.assignments ++ [m]⟩ := by
  dsimp only [Desk.step] at hstep
  split at hstep
  · cases hstep
  · next hfresh =>
    obtain ⟨m,hm⟩ := Option.isSome_iff_exists.mp (assign_isSome hne (lastAssigned byAssignment a.rows) cursor)
    refine ⟨by simpa using hfresh,m,hm,?_⟩
    rw [← Option.some.inj hstep]
    simp only [nextAssignment,hm,Option.toList_some]

theorem front_step {a b : Desk} {call : DeskCall} {u : Option UserId} (hne : members ≠ [])
    (hstep : a.step byAssignment orgId members call = some b) (hcareful : Careful a call) (h : Front a.rows u)
    (hu : ∀ m, a.assignments.getLast? = some m → u = some m) :
    ∃ v, Front b.rows v ∧ ∀ m, b.assignments.getLast? = some m → v = some m := by
  cases hcall : call.update with
  | some update =>
    have hsame : b.assignments = a.assignments := by
      cases call with
      | initiate => cases hcall
      | accept | complete | cancel => rw [← Option.some.inj hstep]
    exact ⟨u,front_request hstep (by rw [hcall]; rfl) hcareful h,hsame ▸ hu⟩
  | none =>
    cases call with
    | accept | complete | cancel => cases hcall
    | initiate id trigger reason cursor now =>
      obtain ⟨hfresh,m,hm,rfl⟩ := step_initiate hne hstep
      exact ⟨some m,front_initiatedRows hfresh hcareful hm,fun n hn => by simpa using hn⟩

theorem turns_step {a b : Desk} {call : DeskCall} (hne : members ≠ [])
    (hstep : a.step byAssignment orgId members call = some b) (hdue : Due byAssignment members a)
    (hturns : InTurn (members.map (·.id)) a.assignments) (hmem : ∀ m ∈ a.assignments, m ∈ members.map (·.id)) :
    InTurn (members.map (·.id)) b.assignments ∧ ∀ m ∈ b.assignments, m ∈ members.map (·.id) := by
  cases call with
  | accept | complete | cancel =>
    rw [← Option.some.inj hstep]
    exact ⟨hturns,hmem⟩
  | initiate id trigger reason cursor now =>
    obtain ⟨-,m,hm,rfl⟩ := step_initiate hne hstep
    refine ⟨inTurn_append_singleton hturns fun x hx => (hdue x hx cursor).symm.trans hm,fun x hx => ?_⟩
    rcases List.mem_append.mp hx with hx | hx
    · exact hmem x hx
    · rw [List.mem_singleton.mp hx]
      exact assign_mem hm

/-- The next assignment only depends on who is in front. -/
theorem nextAssignment_congr {a b : Desk} {u : Option UserId} (ha : Front a.rows u) (hb : Front b.rows u)
    (cursor : Option Int) :
    nextAssignment byAssignment members b cursor = nextAssignment byAssignment members a cursor := by
  unfold nextAssignment assign
  rw [lastAssigned_eq _ ha,lastAssigned_eq _ hb]

theorem nextAssignment_single {m : UserModel} (desk : Desk) (cursor : Option Int) :
    nextAssignment byAssignment [m] desk cursor = ⟨some m.id,some m.email⟩ := by
  unfold nextAssignment assign
  rw [if_neg (List.cons_ne_nil m [])]
  dsimp only
  split
  · split <;> simp [Nat.mod_one]
  · simp

theorem successor_single {α : Type} [DecidableEq α] (m u : α) : successor [m] u = some m := by
  unfold successor
  split <;> simp [Nat.mod_one]

/-- Whoever else accepts the newest assignment changes who is next. -/
theorem accept_newest_changes (hnodup : (members.map (·.id)).Nodup) {a b : Desk} {r : HandoffRecord}
    {holder userId : UserId} {now : Time} (h : Newest a.rows r) (honly : ∀ q ∈ a.rows, q.id = r.id → q = r)
    (hstatus : r.status ∈ acceptableForAccept) (hholder : r.assignedToUserId = some holder)
    (hmember : holder ∈ members.map (·.id)) (huser : userId ∈ members.map (·.id)) (hne : userId ≠ holder)
    (hstep : a.step byAssignment orgId members (.accept r.id userId now) = some b) (cursor : Option Int) :
    nextAssignment byAssignment members b cursor ≠ nextAssignment byAssignment members a cursor := by
  have hmembers : members ≠ [] := by rintro rfl; cases hmember
  obtain rfl := Option.some.inj hstep
  have hfront : Front (updateRows r.id (some acceptableForAccept) (acceptUpdate userId now) a.rows) (some userId) := by
    refine .somebody (r := (acceptUpdate userId now).apply r) ⟨?_,rfl,fun q hq hne hassigned => ?_⟩ rfl
    · refine List.mem_map.mpr ⟨r,h.mem,if_pos ⟨rfl,?_⟩⟩
      simpa using hstatus
    · obtain ⟨row,hrow,rfl⟩ := List.mem_map.mp hq
      split at hne
      · next hc => exact absurd (congrArg _ (honly row hrow hc.1)) hne
      · next hc =>
        rw [if_neg hc] at hassigned ⊢
        refine h.sooner row hrow ?_ hassigned
        rintro rfl
        exact hc ⟨rfl,by simpa using hstatus⟩
  intro heq
  have hbefore := assign_successor hmembers (lastAssigned_eq byAssignment (.somebody h hholder)) cursor
  have hafter := assign_successor hmembers (lastAssigned_eq byAssignment hfront) cursor
  refine hne (successor_injective hnodup huser hmember ?_)
  calc
    _ = (nextAssignment byAssignment members _ cursor).assigneeUserId := hafter.symm
    _ = _ := congrArg (·.assigneeUserId) heq
    _ = _ := hbefore

section steady
variable {rows : List HandoffRecord} {calls : List DeskCall}

theorem front_visits (hne : members ≠ []) (hfront : ∃ u, Front rows u)
    (hcareful : ∀ a call b, Fires (Desk.step byAssignment orgId members) ⟨rows,[]⟩ calls a call b → Careful a call)
    {t : Desk} (ht : Visits (Desk.step byAssignment orgId members) ⟨rows,[]⟩ calls t) :
    ∃ u, Front t.rows u ∧ ∀ m, t.assignments.getLast? = some m → u = some m := by
  refine ht.induction (I := fun t => ∃ u, Front t.rows u ∧ ∀ m, t.assignments.getLast? = some m → u = some m)
    ?_ fun a call b hf ha => ?_
  · obtain ⟨u,hu⟩ := hfront
    exact ⟨u,hu,fun m hm => by cases hm⟩
  · obtain ⟨u,hu,hlast⟩ := ha
    exact front_step hne hf.choose_spec.2.2 (hcareful a call b hf) hu hlast

theorem due_visits (hne : members ≠ []) (h : Steady byAssignment orgId members rows calls) {t : Desk}
    (ht : Visits (Desk.step byAssignment orgId members) ⟨rows,[]⟩ calls t) : Due byAssignment members t := by
  intro m hm cursor
  rcases h with hsingle | ⟨hfront,hcareful⟩
  · obtain ⟨x,rfl⟩ := List.length_eq_one_iff.mp hsingle
    rw [nextAssignment_single,List.map_singleton,successor_single]
  · obtain ⟨u,hu,hlast⟩ := front_visits hne hfront hcareful ht
    exact assign_successor hne ((lastAssigned_eq _ hu).trans (hlast m hm)) cursor

theorem turns_visits (hne : members ≠ []) (h : Steady byAssignment orgId members rows calls) {t : Desk}
    (ht : Visits (Desk.step byAssignment orgId members) ⟨rows,[]⟩ calls t) :
    InTurn (members.map (·.id)) t.assignments ∧ ∀ m ∈ t.assignments, m ∈ members.map (·.id) := by
  refine ht.induction (I := fun t => InTurn (members.map (·.id)) t.assignments ∧
    ∀ m ∈ t.assignments, m ∈ members.map (·.id)) ?_ fun a call b hf ha => ?_
  · exact ⟨.nil,fun m hm => by cases hm⟩
  · exact turns_step hne hf.choose_spec.2.2 (due_visits hne h hf.before) ha.1 ha.2

theorem kept_fires (hne : members ≠ []) (h : Steady byAssignment orgId members rows calls) {a b : Desk}
    {call : DeskCall} (hf : Fires (Desk.step byAssignment orgId members) ⟨rows,[]⟩ calls a call b)
    (hcall : call.update.isSome) (cursor : Option Int) :
    nextAssignment byAssignment members b cursor = nextAssignment byAssignment members a cursor := by
  rcases h with hsingle | ⟨hfront,hcareful⟩
  · obtain ⟨x,rfl⟩ := List.length_eq_one_iff.mp hsingle
    rw [nextAssignment_single,nextAssignment_single]
  · obtain ⟨u,hu,-⟩ := front_visits hne hfront hcareful hf.before
    exact nextAssignment_congr hu (front_request hf.choose_spec.2.2 hcall (hcareful a call b hf) hu) cursor

/-- Assignments go in turn over every run whose operations are careful. -/
theorem roundRobin_of_steady (hne : members ≠ []) (hnodup : (members.map (·.id)).Nodup)
    (h : Steady byAssignment orgId members rows calls) : RoundRobinLaw byAssignment orgId members rows calls where
  next _ ht := due_visits hne h ht
  inTurn _ ht := (turns_visits hne h ht).1
  even t ht past block rest hsplit k hlen m hm := by
    obtain ⟨hturns,hmem⟩ := turns_visits hne h ht
    rw [hsplit,List.append_assoc] at hturns hmem
    have hblock : InTurn (members.map (·.id)) block := hturns.right_of_append.left_of_append
    refine hblock.count_eq hnodup (fun x hx => ?_) k (by rw [hlen,List.length_map]) hm
    exact hmem x (List.mem_append_right _ (List.mem_append_left _ hx))
  kept _ _ _ hf hcall := kept_fires hne h hf hcall

end steady
end runs

/-! A team of three -/

def newestAssignment : ByAssignment where
  order := List.insertionSort fun newer older => DescNullsFirst newer.assignedAt older.assignedAt
  perm rows := List.perm_insertionSort _ rows
  sorted rows := by
    have : Std.Total fun newer older : HandoffRecord => DescNullsFirst newer.assignedAt older.assignedAt := by
      refine ⟨fun a b => ?_⟩
      cases a.assignedAt <;> cases b.assignedAt <;> simp [DescNullsFirst,Nat.le_total]
    have : IsTrans HandoffRecord fun newer older => DescNullsFirst newer.assignedAt older.assignedAt :=
      ⟨fun _ _ _ hab hbc => hab.trans hbc⟩
    exact List.pairwise_insertionSort _ rows

def team : List UserModel := [⟨1,"ada"⟩,⟨2,"bob"⟩,⟨3,"cem"⟩]

/-- Two handoffs, the first of them accepted by a member before the second comes. -/
def acceptedBy (userId : UserId) : List DeskCall :=
  [.initiate 1 .userRequest "" none 1,.accept 1 userId 2,.initiate 2 .userRequest "" none 3]

theorem steady_acceptedBy_assignee : RoundRobinLaw newestAssignment 1 team [] (acceptedBy 1) := by
  refine roundRobin_of_steady (by decide) (by decide) (.inr ⟨⟨none,.nobody (by simp)⟩,fun a call b hf => ?_⟩)
  have hchecked : checkRun (Desk.step newestAssignment 1 team) (fun a call => decide (Careful a call)) ⟨[],[]⟩
      (acceptedBy 1) = true := by decide
  have hok := ok_of_checkRun hchecked hf
  exact of_decide_eq_true hok

/-- A handoff that another member accepts goes out of turn: the next one goes to the first member again. -/
theorem acceptedBy_other_unfair : ¬ RoundRobinLaw newestAssignment 1 team [] (acceptedBy 3) := by
  intro h
  have hturns : InTurn [1,2,3] [1,1] := h.inTurn _ ⟨acceptedBy 3,List.prefix_rfl,rfl⟩
  have hsame := (List.isChain_cons_cons.mp hturns).1
  revert hsame
  decide

end VoxForge.Handoffs
