import VoxForge.Foundation.Failures
import VoxForge.Handoffs.Discipline
import VoxForge.Handoffs.Outcomes

/-! The first initiation, operation by operation: the row is inserted by the fifth
operation, and the session linked to it by a later one whose place the policy decides. -/
namespace VoxForge.Handoffs
open Foundation Core Persistence Sessions Prog HandoffRepository HandoffOrchestrator Stores

/-- A handoff row has its parts: summary, replay link, snapshot and session link. -/
structure Whole (t : Tables) (r : HandoffRecord) : Prop where
  summary : r.conversationSummary.isSome
  replay : r.replayUrl.isSome
  snapshot : ∃ snapshot ∈ t.snapshots, snapshot.handoffId = r.id
  link : t.session.handoffId = some r.id

def Complete (t : Tables) : Prop := ∀ r ∈ t.handoffs, Whole t r

/-- Before the row is inserted. -/
structure Bare (t : Tables) : Prop where
  nothing : t.handoffs = []
  snapshots : t.snapshots = []
  unlinked : t.session.handoffId = none

/-- While the row is inserted and the session not linked to it. -/
def Unlinked (orgId : OrgId) (t : Tables) : Prop :=
  ∃ r, t.handoffs = [r] ∧ r.orgId = orgId ∧ t.session.handoffId = none

/-- After the session has been linked. -/
def Linked (orgId : OrgId) (t : Tables) : Prop :=
  ∃ r, t.handoffs = [r] ∧ r.orgId = orgId ∧ Whole t r

/-- Nothing that makes a handoff whole has changed. -/
structure Keeps (t u : Tables) : Prop where
  handoffs : u.handoffs = t.handoffs
  snapshots : u.snapshots = t.snapshots
  link : u.session.handoffId = t.session.handoffId

/-- The operations between the insertion of the row and the session link, the link included. -/
def stepsToLink (policy : EscalationPolicy) : Nat := if policy.autoCreateTicket then 19 else 16

variable {s t u : Stores} {settings : HandoffOrchestrator.Settings} {r : HandoffRecord} {orgId : OrgId}

theorem Keeps.refl (t : Tables) : Keeps t t := ⟨rfl,rfl,rfl⟩

theorem Keeps.trans {a b c : Tables} (h : Keeps a b) (h' : Keeps b c) : Keeps a c :=
  ⟨h'.handoffs.trans h.handoffs,h'.snapshots.trans h.snapshots,h'.link.trans h.link⟩

theorem Keeps.complete {a b : Tables} (h : Keeps a b) (hc : Complete a) : Complete b := by
  intro r hr
  rw [h.handoffs] at hr
  have hwhole := hc r hr
  exact ⟨hwhole.summary,hwhole.replay,h.snapshots ▸ hwhole.snapshot,h.link.trans hwhole.link⟩

theorem Bare.complete {a : Tables} (h : Bare a) : Complete a := by
  intro r hr
  rw [h.nothing] at hr
  cases hr

theorem Linked.complete {a : Tables} (h : Linked orgId a) : Complete a := by
  obtain ⟨r,hone,-,hwhole⟩ := h
  intro r' hr'
  rw [hone,List.mem_singleton] at hr'
  exact hr' ▸ hwhole

theorem Unlinked.not_complete {a : Tables} (h : Unlinked orgId a) : ¬ Complete a := by
  obtain ⟨r,hone,-,hunlinked⟩ := h
  intro hc
  have hlink := (hc r (by rw [hone]; exact List.mem_singleton.mpr rfl)).link
  rw [hunlinked] at hlink
  cases hlink

theorem handle_inert {o : Op} (h : Inert o) :
    ∃ a, (handle o s).1 = .ok a ∧ Keeps s.tables (handle o s).2.tables := by
  cases o with
  | insertHandoff record => exact h.elim
  | updateHandoff id orgId allowedFrom update => exact h.elim
  | insertEvent event => exact h.elim
  | insertSnapshot snapshot => exact h.elim
  | linkSession id status => exact h.elim
  | _ => exact ⟨_,rfl,rfl,rfl,rfl⟩

/-! The steps of the initiation. -/

/-- The row stands alone: nothing of it is written elsewhere yet. -/
structure Inserted (r : HandoffRecord) (t : Tables) : Prop where
  one : t.handoffs = [r]
  bare : t.snapshots = []
  unlinked : t.session.handoffId = none

theorem Inserted.keeps {a b : Tables} (h : Inserted r a) (hk : Keeps a b) : Inserted r b :=
  ⟨hk.handoffs.trans h.one,hk.snapshots.trans h.bare,hk.link.trans h.unlinked⟩

theorem Inserted.midway {a : Tables} (h : Inserted r a) : Unlinked r.orgId a :=
  ⟨r,h.one,rfl,h.unlinked⟩

theorem finishes_inert {o : Op} (h : Inert o) :
    Finishes handle s (execute o) fun _ t => Keeps s.tables t.tables := by
  obtain ⟨a,ha,hkeeps⟩ := handle_inert (s := s) h
  refine ⟨a,_,?_,hkeeps⟩
  rw [execute,exec_perform]
  exact Prod.ext ha rfl

abbrev Midway (orgId : OrgId) (s : Stores) : Prop := Unlinked orgId s.tables

theorem passes_beside {o : Op} (h : Inert o) (hs : Inserted r s.tables) :
    Passes handle (Midway r.orgId) 1 s (execute o) fun _ t => Inserted r t.tables :=
  passes_mono (passes_perform hs.midway (finishes_inert h)) fun _ _ ht => hs.keeps ht

theorem passes_recordEvent {id : HandoffId} {orgId : OrgId} {e : HandoffEventType}
    (hs : Inserted r s.tables) :
    Passes handle (Midway r.orgId) 1 s (recordEvent id orgId e) fun _ t => Inserted r t.tables :=
  passes_perform hs.midway ⟨_,_,rfl,hs.one,hs.bare,hs.unlinked⟩

theorem passes_summarize (hs : Inserted r s.tables) :
    Passes handle (Midway r.orgId) 1 s summarize fun _ t => Inserted r t.tables :=
  passes_then (n := 1) (m := 0) (passes_beside (o := .selectMessages 50) trivial hs)
    fun _ _ ht => passes_pure ht

theorem passes_ticketFor (req : Initiation) (replayUrl : String) (hs : Inserted r s.tables)
    (hticket : r.ticketId = none) :
    Passes handle (Midway r.orgId) (if req.policy.autoCreateTicket then 3 else 0) s
      (ticketFor req r replayUrl) fun _ t => Inserted r t.tables := by
  unfold ticketFor
  cases hauto : req.policy.autoCreateTicket with
  | false => exact passes_pure hs
  | true =>
    have hasked : true = true ∧ r.ticketId.getD "" = "" := by simp [hticket]
    rw [if_pos rfl,if_pos hasked]
    refine passes_then (n := 1) (m := 2) (passes_summarize hs) fun _ t ht => ?_
    refine passes_then (n := 1) (m := 1) (passes_beside (o := .createTicket _) trivial ht) fun _ u hu => ?_
    exact passes_then (n := 1) (m := 0) (passes_recordEvent hu) fun _ _ hv => passes_pure hv

/-- The row has its snapshot, and is still not linked. -/
structure Snapshotted (r : HandoffRecord) (t : Tables) : Prop where
  one : t.handoffs = [r]
  snapshot : ∃ snapshot ∈ t.snapshots, snapshot.handoffId = r.id
  unlinked : t.session.handoffId = none

theorem Snapshotted.midway {a : Tables} (h : Snapshotted r a) : Unlinked r.orgId a :=
  ⟨r,h.one,rfl,h.unlinked⟩

theorem passes_saveSnapshot (snapshot : ConversationSnapshot) (hs : Inserted r s.tables)
    (hid : snapshot.handoffId = r.id) :
    Passes handle (Midway r.orgId) 2 s (saveSnapshot snapshot) fun _ t => Snapshotted r t.tables := by
  have hselect : Finishes handle s (execute (.selectSnapshot snapshot.handoffId))
      fun reply t => reply = none ∧ Inserted r t.tables := by
    refine ⟨_,_,rfl,?_,hs⟩
    show s.tables.snapshots.find? _ = none
    rw [hs.bare]
    rfl
  refine passes_then (n := 1) (m := 1) (passes_perform hs.midway hselect) fun reply t ht => ?_
  obtain ⟨rfl,ht⟩ := ht
  have hinsert : Finishes handle t (execute (.insertSnapshot snapshot)) fun _ u => Snapshotted r u.tables := by
    have hp (answers : Answers) : Persistence.perform answers t.tables t.keys (.insertSnapshot snapshot) =
        (.ok (),[.snapshotInsert snapshot],t.keys) := by
      rw [Persistence.perform,ht.bare]
      rfl
    refine finishes_of_perform hp fun _ => ⟨ht.one,⟨snapshot,?_,hid⟩,ht.unlinked⟩
    exact List.mem_append_right _ (List.mem_singleton.mpr rfl)
  exact passes_then (n := 1) (m := 0) (passes_perform ht.midway hinsert) fun _ _ hu => passes_pure hu

/-- The update that gives the row its summary and its replay link. -/
theorem passes_updateStatus {status : HandoffStatus} {fields : HandoffFields} (hs : Snapshotted r s.tables) :
    Passes handle (Midway r.orgId) 3 s (updateStatus r.id r.orgId status none fields) fun reply t =>
      ∃ updatedAt, reply = some (HandoffUpdate.apply ⟨status,updatedAt,fields⟩ r) ∧
        Snapshotted (HandoffUpdate.apply ⟨status,updatedAt,fields⟩ r) t.tables := by
  have hnow : Finishes handle s (execute .now) fun _ t => Snapshotted r t.tables := ⟨_,_,rfl,hs⟩
  refine passes_then (n := 1) (m := 2) (passes_perform hs.midway hnow) fun now t ht => ?_
  have hmatch : (t.tables.matching r.id r.orgId none).isSome := by
    simp [Tables.matching,handoff?_self ht.one]
  have hupdate : Finishes handle t (execute (.updateHandoff r.id r.orgId none
      { status, updatedAt := now, fields })) fun _ u =>
        Snapshotted (HandoffUpdate.apply ⟨status,now,fields⟩ r) u.tables := by
    have hp (answers : Answers) : Persistence.perform answers t.tables t.keys
        (.updateHandoff r.id r.orgId none { status, updatedAt := now, fields }) =
          (.ok (1 : Nat),[.handoffUpdate r.id { status, updatedAt := now, fields }],t.keys) := by
      rw [Persistence.perform,if_pos hmatch]
    refine finishes_of_perform hp fun _ => ⟨?_,ht.snapshot,ht.unlinked⟩
    simp [Write.apply,ht.one]
  refine passes_then (n := 1) (m := 1) (passes_perform ht.midway hupdate) fun rowcount u hu => ?_
  simp only [Option.isSome_none,Bool.false_eq_true,false_and,if_false]
  refine passes_then (n := 1) (m := 0) (passes_perform hu.midway (finishes_getHandoff r.id r.orgId))
    fun reply v hv => ?_
  have hfound : u.tables.handoff? r.id r.orgId = some (HandoffUpdate.apply ⟨status,now,fields⟩ r) :=
    handoff?_self hu.one
  rw [hv.1,hfound]
  exact passes_pure ⟨now,rfl,by rw [hv.2.tables]; exact hu⟩

/-- From the replay link to the session link: what is left after it links nothing more. -/
theorem comes_package {req : Initiation} (hs : Inserted r s.tables) (horg : r.orgId = req.orgId)
    (hticket : r.ticketId = none) :
    Comes handle (Midway r.orgId) ((if req.policy.autoCreateTicket then 3 else 0) + 14) s
      (package settings req r) fun p t => Linked r.orgId t.tables ∧ Performs Inert p := by
  have hsum : (if req.policy.autoCreateTicket then 3 else 0) + 14 =
      1 + ((if req.policy.autoCreateTicket then 3 else 0) +
        (1 + (1 + (1 + (1 + (1 + (1 + (2 + (1 + (3 + (1 + 0))))))))))) := by omega
  rw [hsum]
  refine comes_then (passes_beside (o := .generateReplayLink r.id) trivial hs) fun link t1 h1 => ?_
  refine comes_then (passes_ticketFor req link.1 h1 hticket) fun ticketId t2 h2 => ?_
  refine comes_then (passes_summarize h2) fun summary t3 h3 => ?_
  refine comes_then (passes_recordEvent h3) fun _ t4 h4 => ?_
  refine comes_then (passes_recordEvent h4) fun _ t5 h5 => ?_
  refine comes_then (passes_beside (o := .assign r.id _) trivial h5) fun assignment t6 h6 => ?_
  refine comes_then (passes_recordEvent h6) fun _ t7 h7 => ?_
  refine comes_then (passes_beside (o := .selectMessages 100) trivial h7) fun messages t8 h8 => ?_
  refine comes_then (passes_discard (passes_saveSnapshot ⟨r.id,_,_,_⟩ h8 rfl)) fun _ t9 h9 => ?_
  have hnow : Finishes handle t9 (execute .now) fun _ t => Snapshotted r t.tables := ⟨_,_,rfl,h9⟩
  refine comes_then (passes_perform h9.midway hnow) fun now t10 h10 => ?_
  rw [← horg]
  refine comes_then (passes_updateStatus h10) fun reply t11 h11 => ?_
  obtain ⟨updatedAt,rfl,h11⟩ := h11
  have hlink (status : HandoffStatus) : Finishes handle t11 (linkSession r.id status) fun _ t =>
      Linked r.orgId t.tables :=
    ⟨_,_,rfl,_,h11.one,rfl,rfl,rfl,h11.snapshot,rfl⟩
  refine comes_then (passes_perform h11.midway (hlink _)) fun _ t12 h12 => ⟨_,t12,.here _ t12,h12,?_⟩
  refine performs_bind (inert_applyHandoffPending _) fun _ => ?_
  exact performs_bind (performs_discard (inert_execute (o := .countPending r.orgId) trivial)) fun _ => trivial

abbrev Before (s : Stores) : Prop := Bare s.tables

/-- The insertion of the row is the fifth operation of the first initiation; the link of the
session follows after as many as the policy makes. -/
theorem comes_initiateHandoff (settings : HandoffOrchestrator.Settings) (req : Initiation) (hs : Bare s.tables) :
    Comes handle Before 5 s (initiateHandoff settings req) fun p t =>
      Comes handle (Midway req.orgId) (stepsToLink req.policy) t p fun p u =>
        Linked req.orgId u.tables ∧ Performs Inert p := by
  have hfind {u : Stores} (hu : Bare u.tables) : Finishes handle u (getBySession req.orgId)
      fun reply v => reply = none ∧ Bare v.tables := by
    refine finishes_mono (finishes_getBySession req.orgId) fun reply v hv => ?_
    rw [hv.1,hv.2.tables,hu.nothing]
    exact ⟨rfl,hu⟩
  refine comes_then (n := 1) (m := 4) (passes_perform hs (hfind hs)) fun reply t1 h1 => ?_
  obtain ⟨rfl,h1⟩ := h1
  refine comes_bind (comes_then (n := 1) (m := 3) (passes_perform h1 (hfind h1)) fun reply t2 h2 => ?_)
  obtain ⟨rfl,h2⟩ := h2
  have hnow : Finishes handle t2 (execute .now) fun _ t => Bare t.tables := ⟨_,_,rfl,h2⟩
  refine comes_then (n := 1) (m := 2) (passes_perform h2 hnow) fun now t3 h3 => ?_
  have hid : Finishes handle t3 (execute .newId) fun _ t => Bare t.tables := ⟨_,_,rfl,h3⟩
  refine comes_then (n := 1) (m := 1) (passes_perform h3 hid) fun id t4 h4 => ?_
  have hinsert (record : HandoffRecord) : Finishes handle t4 (execute (.insertHandoff record))
      fun inserted t => inserted = true ∧ Inserted record t.tables := by
    have hp (answers : Answers) : Persistence.perform answers t4.tables t4.keys (.insertHandoff record) =
        (.ok true,[.handoffInsert record],t4.keys) := by
      rw [Persistence.perform,if_pos h4.nothing]
    refine finishes_of_perform hp fun _ => ⟨rfl,?_,h4.snapshots,h4.unlinked⟩
    simp [Write.apply,h4.nothing]
  refine comes_then (n := 1) (m := 0) (passes_perform h4 (hinsert _)) fun inserted t5 h5 => ?_
  obtain ⟨rfl,h5⟩ := h5
  refine ⟨_,t5,.here _ t5,?_⟩
  have hsteps : stepsToLink req.policy = 2 + ((if req.policy.autoCreateTicket then 3 else 0) + 14) := by
    unfold stepsToLink
    split <;> rfl
  rw [hsteps]
  refine comes_then (show Passes handle (Midway req.orgId) 2 t5 _ (fun created t =>
    created.2 = true ∧ created.1.orgId = req.orgId ∧ created.1.ticketId = none ∧
      Inserted created.1 t.tables) from ?_) fun created t6 h6 => ?_
  · refine passes_then (n := 1) (m := 1) (passes_recordEvent h5) fun _ t6 h6 => ?_
    refine passes_then (n := 1) (m := 0) (passes_perform h6.midway (finishes_getHandoff id req.orgId))
      fun reply t7 h7 => ?_
    have hfound : t6.tables.handoff? id req.orgId = some _ := handoff?_self h6.one
    rw [h7.1,hfound]
    exact passes_pure ⟨rfl,rfl,rfl,by rw [h7.2.tables]; exact h6⟩
  obtain ⟨record,created⟩ := created
  obtain ⟨rfl,horg,hticket,h6⟩ := h6
  exact horg ▸ comes_package h6 horg hticket

end VoxForge.Handoffs
