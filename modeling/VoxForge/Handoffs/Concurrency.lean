import VoxForge.Handoffs.Discipline

/-! Any number of concurrent transactions on one session's handoff, interleaved
statement by statement: the row lock and the guards of the updates keep its life in order. -/
namespace VoxForge.Handoffs
open Foundation Core Persistence

section ledger
variable {a : Ledger} {c : Stage} {choice : Answers} {v : Tables} {shared : Keys}

theorem possible_perform {o : Op} : Stage.Possible o (perform choice v shared o).1 := by
  cases hr : (perform choice v shared o).1 with
  | error e =>
    have he : e.external := perform_external hr
    cases o <;> exact he
  | ok reply =>
    cases o with
    | selectHandoff id orgId =>
      cases hr
      cases hfound : v.handoff? id orgId with
      | none => trivial
      | some record =>
        have hp := List.find?_some hfound
        simp only [Bool.and_eq_true,decide_eq_true_eq] at hp
        exact hp.1
    | _ => trivial

/-- An insertion that succeeds finds no handoff, and so nothing else of one. -/
theorem sees_insertHandoff {record : HandoffRecord} (ha : a.Good) (hw : waiting record.status)
    (hsees : Stage.idle.Sees a (Ledger.observe v)) :
    (Stage.idle.after (.insertHandoff record) (perform choice v shared (.insertHandoff record)).1).Sees a
      ((perform choice v shared (.insertHandoff record)).2.1.foldl Ledger.act (Ledger.observe v)) := by
  have hsame : Ledger.observe v = a := hsees
  by_cases hempty : v.handoffs = []
  · have hnone : a = {} := by
      rcases ha with hnone | ⟨r,hr⟩
      · exact hnone
      · have honly := hr.only
        rw [← hsame] at honly
        exact absurd (hempty.symm.trans honly) (by simp)
    simp only [Persistence.perform,hempty,Stage.after,if_true,List.foldl_cons,List.foldl_nil]
    rw [hsame,hnone]
    exact ⟨rfl,record,rfl,rfl,hw,rfl,by simp [Ledger.act],by simp [Ledger.act]⟩
  · simpa [Persistence.perform,hempty,Stage.after] using hsees

/-- A guarded update matches the one handoff in a status that its guard allows, or nothing. -/
theorem sees_guardedUpdate {id : HandoffId} {orgId : OrgId} {update : HandoffUpdate} (ha : a.Good)
    (hmark : (markOf update.status).isSome)
    (hkeep : update.status ≠ .active → update.fields.assignedToUserId = none)
    (hsees : Stage.idle.Sees a (Ledger.observe v)) :
    (Stage.idle.after (.updateHandoff id orgId (some (guardOf update.status)) update)
        (perform choice v shared (.updateHandoff id orgId (some (guardOf update.status)) update)).1).Sees a
      ((perform choice v shared
        (.updateHandoff id orgId (some (guardOf update.status)) update)).2.1.foldl Ledger.act
          (Ledger.observe v)) := by
  have hsame : Ledger.observe v = a := hsees
  have hrows : v.handoffs = a.handoffs := congrArg Ledger.handoffs hsame
  cases hmatch : v.matching id orgId (some (guardOf update.status)) with
  | none => simpa [Persistence.perform,hmatch,Stage.after] using hsees
  | some r =>
    obtain ⟨hfound,hguard⟩ := Option.filter_eq_some_iff.mp hmatch
    have hr := List.find?_some hfound
    have hmem := List.mem_of_find?_eq_some hfound
    simp only [Bool.and_eq_true,decide_eq_true_eq] at hr
    have honly : a.handoffs = [r] := by
      rcases ha with hnone | ⟨r',hr'⟩
      · rw [hrows,hnone] at hmem
        cases hmem
      · rw [hrows,hr'.only] at hmem
        rw [hr'.only,List.mem_singleton.mp hmem]
    simp only [Persistence.perform,hmatch,Option.isSome_some,if_true,Stage.after,Nat.one_ne_zero,if_false,
      List.foldl_cons,List.foldl_nil]
    refine ⟨r,update,honly,by simpa using hguard,rfl,hmark,hkeep,?_⟩
    rw [hsame]
    simp [Ledger.act,honly,hr.1]

/-- The record being created stays the only one, in a status in which it waits. -/
theorem sees_createdUpdate {id : HandoffId} {orgId : OrgId} {update : HandoffUpdate}
    (hw : waiting update.status) (hsees : (Stage.creating id).Sees a (Ledger.observe v)) :
    (Stage.creating id).Sees a
      ((perform choice v shared (.updateHandoff id orgId none update)).2.1.foldl Ledger.act
        (Ledger.observe v)) := by
  obtain ⟨hnone,r,honly,hid,hwait,hmarks,hsnaps⟩ := hsees
  by_cases hmatch : (v.matching id orgId none).isSome
  · simp only [Persistence.perform,hmatch,if_true,List.foldl_cons,List.foldl_nil]
    exact ⟨hnone,update.apply r,by simp [Ledger.act,honly,hid],hid,hw,hmarks,hsnaps⟩
  · simpa [Persistence.perform,hmatch] using ⟨hnone,r,honly,hid,hwait,hmarks,hsnaps⟩

theorem sees_insertSnapshot {snapshot : ConversationSnapshot}
    (hsees : (Stage.creating snapshot.handoffId).Sees a (Ledger.observe v)) :
    (Stage.creating snapshot.handoffId).Sees a
      ((perform choice v shared (.insertSnapshot snapshot)).2.1.foldl Ledger.act (Ledger.observe v)) := by
  obtain ⟨hnone,r,honly,hid,hwait,hmarks,hlen,hsnaps⟩ := hsees
  by_cases hany : v.snapshots.any (·.handoffId = snapshot.handoffId)
  · simpa [Persistence.perform,hany] using ⟨hnone,r,honly,hid,hwait,hmarks,hlen,hsnaps⟩
  · have hnil : v.snapshots = [] := by
      refine List.eq_nil_iff_forall_not_mem.mpr fun s hs => hany ?_
      exact List.any_eq_true.mpr ⟨s,hs,by simpa using hsnaps s hs⟩
    simp only [Persistence.perform,hany,Bool.false_eq_true,if_false,List.foldl_cons,List.foldl_nil]
    exact ⟨hnone,r,honly,hid,hwait,hmarks,by simp [Ledger.act,Ledger.observe,hnil],
      by simp [Ledger.act,Ledger.observe,hnil]⟩

/-- Events count only as marks, and a mark is set once by the transaction that made the transition. -/
theorem sees_insertEvent {event : HandoffEvent} (hp : c.permits (.insertEvent event))
    (hsees : c.Sees a (Ledger.observe v)) :
    (c.after (.insertEvent event) (.ok ())).Sees a ((Ledger.observe v).act (.eventInsert event)) := by
  cases hmark : isMark event.eventType with
  | false =>
    have hsame : (Ledger.observe v).act (.eventInsert event) = Ledger.observe v := by
      simp [Ledger.act,hmark]
    rw [hsame]
    cases c <;> simpa [Stage.after,hmark] using hsees
  | true =>
    obtain ⟨status,rfl,hstatus⟩ := hp hmark
    obtain ⟨r,u,honly,hguard,hu,hsome,hkeep,hb⟩ := hsees
    simp only [Stage.after,hmark,Bool.or_true]
    refine ⟨r,u,honly,hguard,hu,hsome,hkeep,?_⟩
    rw [hb]
    simp [Ledger.act,hmark,hstatus]

theorem after_fault {o : Op} {e : Err} : c.after o (.error e) = c := by
  cases o with
  | updateHandoff id orgId allowedFrom update => cases allowedFrom <;> rfl
  | _ => rfl

/-- One permitted statement takes the ledger from stage to stage. -/
theorem sees_perform {o : Op} (ha : a.Good) (hp : c.permits o) (hsees : c.Sees a (Ledger.observe v)) :
    (c.after o (perform choice v shared o).1).Sees a
      ((perform choice v shared o).2.1.foldl Ledger.act (Ledger.observe v)) := by
  cases o with
  | insertHandoff record =>
    obtain ⟨rfl,hw⟩ := hp
    exact sees_insertHandoff ha hw hsees
  | updateHandoff id orgId allowedFrom update =>
    cases allowedFrom with
    | none =>
      obtain ⟨rfl,hw⟩ := hp
      exact sees_createdUpdate hw hsees
    | some allowedFrom =>
      obtain ⟨rfl,rfl,hmark,hkeep⟩ := hp
      exact sees_guardedUpdate ha hmark hkeep hsees
  | insertEvent event => exact sees_insertEvent hp hsees
  | insertSnapshot snapshot =>
    obtain rfl : c = .creating snapshot.handoffId := hp
    have hkeep : (Stage.creating snapshot.handoffId).after (.insertSnapshot snapshot)
        (perform choice v shared (.insertSnapshot snapshot)).1 = .creating snapshot.handoffId := by
      simp only [perform]
      split <;> rfl
    rw [hkeep]
    exact sees_insertSnapshot hsees
  | _ => exact hsees

/-- A transaction that has not taken the lock of the handoff writes nothing of the ledger. -/
theorem idle_perform {o : Op} (hp : Stage.idle.permits o)
    (hlock : ∀ w ∈ (perform choice v shared o).2.1, w.lock ≠ some .handoffRow) :
    Stage.idle.after o (perform choice v shared o).1 = .idle ∧
      ∀ w ∈ (perform choice v shared o).2.1, ∀ a : Ledger, a.act w = a := by
  cases o with
  | insertHandoff record =>
    by_cases hempty : v.handoffs = []
    · exact absurd rfl (hlock (.handoffInsert record) (by simp [perform,hempty]))
    · simp [perform,hempty,Stage.after]
  | updateHandoff id orgId allowedFrom update =>
    by_cases hmatch : (v.matching id orgId allowedFrom).isSome
    · exact absurd rfl (hlock (.handoffUpdate id update) (by simp [perform,hmatch]))
    · cases allowedFrom <;> simp [perform,hmatch,Stage.after]
  | insertEvent event =>
    have hmark : isMark event.eventType = false := by
      by_contra hne
      obtain ⟨status,hidle,-⟩ := hp (by simpa using hne)
      cases hidle
    refine ⟨rfl,fun w hw a => ?_⟩
    obtain rfl : w = .eventInsert event := by simpa [perform] using hw
    simp [Ledger.act,hmark]
  | insertSnapshot snapshot => cases hp
  | _ => simp [perform,Stage.after,Ledger.act]

end ledger

/-- The lock of the handoff row protects the ledger. -/
def ledgerProtocol (settings : HandoffOrchestrator.Settings) :
    Protocol database (Operation.program settings) Lock.handoffRow Stage Ledger where
  observe := Ledger.observe
  act := Ledger.act
  discipline := fun _ => ledgerDiscipline
  start := .idle
  Idle := (· = .idle)
  Sees := Stage.Sees
  Good := Ledger.Good
  Move := Ledger.Move
  Fair := fun _ _ => True
  observe_apply := Ledger.observe_apply
  disciplined := Operation.disciplined settings
  idle_start := rfl
  idle_sees := fun {c a} _ hc => by
    subst hc
    rfl
  possible_perform := possible_perform
  possible_fault := fun {_ o e} he => by
    cases o <;> exact he
  sees_perform := fun ha hp _ hsees => sees_perform ha hp hsees
  idle_perform := fun hp hc hlock => by
    subst hc
    exact idle_perform hp hlock
  after_fault := after_fault
  commits := fun ha hsees => hsees.commits ha

/-- What is committed at two moments: the later state continues the earlier one. -/
def LedTo (a b : Tables) : Prop :=
  ∀ r ∈ a.handoffs, ∃ r' ∈ b.handoffs, r'.id = r.id ∧ leads r.status r'.status ∧
    (¬ waiting r.status → r'.assignedToUserId = r.assignedToUserId)

/-- One handoff and one snapshot at most, accepted once at most and closed once at most. -/
structure AtMostOnce (t : Tables) : Prop where
  handoffs : t.handoffs.length ≤ 1
  snapshots : t.snapshots.length ≤ 1
  accepted : (t.events.countP fun event => event.eventType == .accepted) ≤ 1
  closed : (t.events.countP fun event => closesHandoff event.eventType) ≤ 1

/-- Counting marks of one kind, the other events do not matter. -/
theorem countP_marks (t : Tables) {p : HandoffEventType → Bool} (hp : ∀ e, p e → isMark e) :
    (t.events.countP fun event => p event.eventType) = (Ledger.observe t).marks.countP p := by
  rw [Ledger.observe,List.countP_filter,List.countP_map]
  refine List.countP_congr fun event _ => ?_
  simp only [Function.comp_apply,Bool.and_eq_true]
  exact ⟨fun h => ⟨h,hp _ h⟩,fun h => h.1⟩

theorem atMostOnce_of_good {t : Tables} (h : (Ledger.observe t).Good) : AtMostOnce t := by
  have haccepted := countP_marks t (p := (· == .accepted)) fun e he => by
    cases e <;> first | rfl | exact he
  have hclosed := countP_marks t (p := closesHandoff) fun e he => by
    cases e <;> first | rfl | exact he
  rcases h with hnone | ⟨r,hr⟩
  · have hmarks : (Ledger.observe t).marks = [] := congrArg Ledger.marks hnone
    rw [hmarks] at haccepted hclosed
    have hhandoffs : t.handoffs = [] := congrArg Ledger.handoffs hnone
    have hsnapshots : t.snapshots = [] := congrArg Ledger.snapshots hnone
    exact ⟨by simp [hhandoffs],by simp [hsnapshots],haccepted.trans_le (Nat.zero_le 1),
      hclosed.trans_le (Nat.zero_le 1)⟩
  · have hone : t.handoffs = [r] := hr.only
    refine ⟨by simp [hone],hr.snapshots,?_,?_⟩
    · have hle := hr.accepted
      rw [List.count,← haccepted] at hle
      exact hle.trans (by split <;> omega)
    · have hle := hr.closed
      rw [← hclosed] at hle
      exact hle.trans (by split <;> omega)

def start (session : SessionRow) (messages : List Message) (keys : Keys) :
    Foundation.Pool Op Reply Err Tables Write Keys Operation :=
  { committed := { session, messages }, shared := keys }

/-- Handoff operations in any number of concurrent transactions: whatever is committed
at one moment of a run leads to what is committed at any later one, and each decisive
step is taken once. -/
theorem handoff_committed_in_order {settings : HandoffOrchestrator.Settings} {session : SessionRow}
    {messages : List Message} {keys : Keys} {ls ms : List (PoolLabel Operation Answers Err)}
    {p q : Foundation.Pool Op Reply Err Tables Write Keys Operation}
    (hp : run (Pool.step database (Operation.program settings)) (start session messages keys) ls = some p)
    (hq : run (Pool.step database (Operation.program settings)) p ms = some q) :
    LedTo p.committed q.committed ∧ AtMostOnce q.committed := by
  have hfair {s s' : Foundation.Pool Op Reply Err Tables Write Keys Operation}
      {l : PoolLabel Operation Answers Err} {ls : List (PoolLabel Operation Answers Err)}
      {a : Foundation.Pool Op Reply Err Tables Write Keys Operation}
      (_ : Fires (Pool.step database (Operation.program settings)) s ls a l s') :
      (ledgerProtocol settings).FairStep a l := by
    cases l with
    | statement i choice => exact fun _ _ _ _ _ => trivial
    | _ => trivial
  have hstart := Protocol.inv_start (P := ledgerProtocol settings) { session, messages } keys (.inl rfl)
  have hinv := (hstart.run (fun _ _ _ hf => hfair hf) (Visits.of_run hp)).1
  obtain ⟨hinv',hmoves⟩ := hinv.run (fun _ _ _ hf => hfair hf) (Visits.of_run hq)
  exact ⟨Ledger.move_of_moves hmoves,atMostOnce_of_good hinv'.good⟩

private def statements (number i : Nat) : List (PoolLabel Operation Answers Err) := List.replicate number (.statement i {})

private def escalation : List (PoolLabel Operation Answers Err) :=
  .begin (.initiateHandoff { orgId := 1, trigger := .userRequest, reason := "asked" }) :: statements 43 0 ++ [.commit 0]

/-- Agents 7 and 8 have both read the handoff before agent 7 accepts it. -/
private def race : List (PoolLabel Operation Answers Err) :=
  .begin (.acceptHandoff 0 1 7) :: .begin (.acceptHandoff 0 1 8) :: .statement 2 {} :: statements 25 1 ++
    .commit 1 :: statements 4 2 ++ [.rollback 2]

theorem accept_race_in_order :
    ∃ p q, run (Pool.step database (Operation.program {})) (start { status := .active } [] {})
        escalation = some p ∧
      run (Pool.step database (Operation.program {})) p race = some q ∧
      q.committed.handoffs.map (·.assignedToUserId) = [some 7] ∧
      LedTo p.committed q.committed ∧ AtMostOnce q.committed := by
  have hruns : ∃ p, run (Pool.step database (Operation.program {})) (start { status := .active } [] {})
      escalation = some p ∧ ∃ q, run (Pool.step database (Operation.program {})) p race = some q ∧
        q.committed.handoffs.map (·.assignedToUserId) = [some 7] := ⟨_,rfl,_,rfl,rfl⟩
  obtain ⟨p,hp,q,hq,howner⟩ := hruns
  exact ⟨p,q,hp,hq,howner,handoff_committed_in_order hp hq⟩

end VoxForge.Handoffs
