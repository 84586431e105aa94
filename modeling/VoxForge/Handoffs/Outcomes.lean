import VoxForge.Handoffs.Lifecycle
import VoxForge.Sessions.Sequential

/-! The handoff operations with nothing running beside them: what each leaves of the
handoff, of the session's status and of the phase. -/
namespace VoxForge.Handoffs
open Foundation Core Persistence Sessions Prog HandoffRepository HandoffOrchestrator Stores

/-- Writes beside the session row, the handoff and Redis. -/
structure Aside (s t : Stores) : Prop where
  handoffs : t.tables.handoffs = s.tables.handoffs
  session : t.tables.session = s.tables.session
  keys : t.keys = s.keys

variable {s t u : Stores} {settings : HandoffOrchestrator.Settings} {r : HandoffRecord}

theorem Aside.trans (h : Aside s t) (h' : Aside t u) : Aside s u :=
  ⟨h'.handoffs.trans h.handoffs,h'.session.trans h.session,h'.keys.trans h.keys⟩

theorem finishes_execute {o : Op} {q : Reply o → Stores → Prop}
    (h : ∀ answers rest, ∃ a, (perform answers s.tables s.keys o).1 = .ok a ∧
      q a ⟨(perform answers s.tables s.keys o).2.1.foldl Write.apply s.tables,
        (perform answers s.tables s.keys o).2.2,rest⟩) :
    Finishes handle s (execute o) q := by
  obtain ⟨a,ha,hq⟩ := h (s.answers.headD {}) s.answers.tail
  refine ⟨a,_,?_,hq⟩
  rw [execute,exec_perform]
  exact Prod.ext ha rfl

/-- The answer and the writes of a statement decide what it finishes with. -/
theorem finishes_of_perform {o : Op} {q : Reply o → Stores → Prop} {a : Reply o} {writes : List Write}
    {keys : Keys} (h : ∀ answers, perform answers s.tables s.keys o = (.ok a,writes,keys))
    (hq : ∀ rest, q a ⟨writes.foldl Write.apply s.tables,keys,rest⟩) :
    Finishes handle s (execute o) q :=
  finishes_execute fun answers rest => ⟨a,by rw [h],by rw [h]; exact hq rest⟩

theorem finishes_aside {o : Op}
    (h : ∀ answers, ∃ a, (perform answers s.tables s.keys o).1 = .ok a ∧
      Aside s ⟨(perform answers s.tables s.keys o).2.1.foldl Write.apply s.tables,
        (perform answers s.tables s.keys o).2.2,[]⟩) :
    Finishes handle s (execute o) fun _ t => Aside s t :=
  finishes_execute fun answers _ => by
    obtain ⟨a,ha,hs⟩ := h answers
    exact ⟨a,ha,hs.handoffs,hs.session,hs.keys⟩

theorem finishes_recordEvent (id : HandoffId) (orgId : OrgId) (e : HandoffEventType) :
    Finishes handle s (recordEvent id orgId e) fun _ t => Aside s t :=
  finishes_aside fun _ => ⟨_,rfl,rfl,rfl,rfl⟩

theorem finishes_summarize : Finishes handle s summarize fun _ t => Aside s t := by
  refine finishes_then (finishes_aside fun _ => ⟨_,rfl,rfl,rfl,rfl⟩) fun _ t ht => finishes_pure ht

theorem finishes_ticketFor (req : Initiation) (record : HandoffRecord) (replayUrl : String) :
    Finishes handle s (ticketFor req record replayUrl) fun _ t => Aside s t := by
  unfold ticketFor
  split
  · refine finishes_then finishes_summarize fun _ t ht => ?_
    refine finishes_then (finishes_aside fun _ => ⟨_,rfl,rfl,rfl,rfl⟩) fun _ u hu => ?_
    refine finishes_then (finishes_recordEvent _ _ _) fun _ v hv => ?_
    exact finishes_pure ((ht.trans hu).trans hv)
  · exact finishes_pure ⟨rfl,rfl,rfl⟩

theorem finishes_saveSnapshot (snapshot : ConversationSnapshot) :
    Finishes handle s (saveSnapshot snapshot) fun _ t => Aside s t := by
  have hselect : Finishes handle s (execute (.selectSnapshot snapshot.handoffId)) fun reply t =>
      reply = s.tables.snapshots.find? (·.handoffId = snapshot.handoffId) ∧ t.tables = s.tables ∧
        Aside s t :=
    finishes_execute fun _ _ => ⟨_,rfl,rfl,rfl,rfl,rfl,rfl⟩
  refine finishes_then hselect fun reply t ht => ?_
  obtain ⟨rfl,htables,haside⟩ := ht
  cases hfound : s.tables.snapshots.find? (·.handoffId = snapshot.handoffId) with
  | some existing => exact finishes_pure haside
  | none =>
    have hnone : t.tables.snapshots.any (·.handoffId = snapshot.handoffId) = false := by
      rw [htables]
      simpa using List.find?_eq_none.mp hfound
    have hinsert : Finishes handle t (execute (.insertSnapshot snapshot)) fun _ u => Aside t u :=
      finishes_of_perform (fun _ => by rw [Persistence.perform,hnone]; rfl) fun _ => ⟨rfl,rfl,rfl⟩
    exact finishes_then hinsert fun _ u hu => finishes_pure (haside.trans hu)

theorem handoff?_eq_some {tables : Tables} {id : HandoffId} {orgId : OrgId} (h : tables.handoffs = [r])
    {record : HandoffRecord} (hfound : tables.handoff? id orgId = some record) :
    record = r ∧ r.id = id := by
  have hmem := List.mem_of_find?_eq_some hfound
  have hp := List.find?_some hfound
  rw [h] at hmem
  obtain rfl := List.mem_singleton.mp hmem
  simp only [Bool.and_eq_true,decide_eq_true_eq] at hp
  exact ⟨rfl,hp.1⟩

theorem finishes_getHandoff (id : HandoffId) (orgId : OrgId) :
    Finishes handle s (getHandoff id orgId) fun reply t =>
      reply = s.tables.handoff? id orgId ∧ Same s t :=
  finishes_execute fun _ _ => ⟨_,rfl,rfl,rfl,rfl⟩

/-- An update of the one handoff changes it and nothing else, or nothing at all. -/
theorem settles_updateStatus {id : HandoffId} {orgId : OrgId} {status : HandoffStatus}
    {allowedFrom : Option (List HandoffStatus)} {fields : HandoffFields} (h : s.tables.handoffs = [r]) :
    Settles handle s (updateStatus id orgId status allowedFrom fields) fun reply t =>
      t.keys = s.keys ∧ t.tables.session = s.tables.session ∧
        (reply = none ∧ t.tables = s.tables ∨
          reply.isSome ∧ ∃ r', r'.status = status ∧ t.tables.handoffs = [r']) := by
  refine settles_then finishes_now.settles fun now t ht => ?_
  by_cases hmatch : (s.tables.matching id orgId allowedFrom).isSome
  · -- the update matches the handoff
    have hid : r.id = id := by
      obtain ⟨record,hrecord⟩ := Option.isSome_iff_exists.mp hmatch
      exact (handoff?_eq_some h (Option.filter_eq_some_iff.mp hrecord).1).2
    have hupdate : Finishes handle t (execute (.updateHandoff id orgId allowedFrom
        { status, updatedAt := now, fields })) fun rowcount u => rowcount ≠ 0 ∧ u.keys = s.keys ∧
          u.tables.session = s.tables.session ∧ ∃ r', r'.status = status ∧ u.tables.handoffs = [r'] := by
      have hp (answers : Answers) : Persistence.perform answers t.tables t.keys
          (.updateHandoff id orgId allowedFrom { status, updatedAt := now, fields }) =
            (.ok (1 : Nat),[.handoffUpdate id { status, updatedAt := now, fields }],t.keys) := by
        rw [Persistence.perform,ht.tables,if_pos hmatch]
      have hsession : t.tables.session = s.tables.session := congrArg Tables.session ht.tables
      refine finishes_of_perform hp fun _ => ⟨Nat.one_ne_zero,ht.keys,hsession,
        HandoffUpdate.apply { status, updatedAt := now, fields } r,rfl,?_⟩
      simp [Write.apply,ht.tables,h,hid]
    refine settles_then hupdate.settles fun rowcount u hu => ?_
    simp only [hu.1,and_false,if_false]
    refine settles_then (finishes_getHandoff id orgId).settles fun reply v hv => ?_
    cases reply with
    | none => exact settles_raise
    | some record =>
      refine settles_pure ⟨hv.2.keys.trans hu.2.1,?_,.inr ⟨rfl,?_⟩⟩
      · rw [hv.2.tables]
        exact hu.2.2.1
      · rw [hv.2.tables]
        exact hu.2.2.2
  · have hupdate : Finishes handle t (execute (.updateHandoff id orgId allowedFrom
        { status, updatedAt := now, fields })) fun rowcount u => rowcount = 0 ∧ Same s u := by
      have hp (answers : Answers) : Persistence.perform answers t.tables t.keys
          (.updateHandoff id orgId allowedFrom { status, updatedAt := now, fields }) =
            (.ok (0 : Nat),[],t.keys) := by
        rw [Persistence.perform,ht.tables,if_neg hmatch]
      exact finishes_of_perform hp fun _ => ⟨rfl,ht.tables,ht.keys⟩
    refine settles_then hupdate.settles fun rowcount u hu => ?_
    obtain ⟨rfl,hsame⟩ := hu
    cases allowedFrom with
    | some allowedFrom =>
      exact settles_pure ⟨hsame.keys,congrArg Tables.session hsame.tables,.inl ⟨rfl,hsame.tables⟩⟩
    | none =>
      -- without a guard only a missing row is not matched, and reading it back raises
      refine settles_then (finishes_getHandoff id orgId).settles fun reply v hv => ?_
      have hmissing : s.tables.handoff? id orgId = none := by
        simpa [Tables.matching] using hmatch
      rw [hv.1,hsame.tables,hmissing]
      exact settles_raise

theorem finishes_linkSession (id : HandoffId) (status : HandoffStatus) :
    Finishes handle s (linkSession id status) fun _ t =>
      t.tables.handoffs = s.tables.handoffs ∧ t.status = s.status ∧ t.keys = s.keys :=
  finishes_execute fun _ _ => ⟨_,rfl,rfl,rfl,rfl⟩

/-- The handoff, the status of the session and the phase after a transition. -/
def Entered (s t : Stores) (handoff : HandoffStatus → Prop) (status : SessionStatus) (phase : SessionPhase) :
    Prop :=
  Same s t ∨ ∃ r, t.tables.handoffs = [r] ∧ handoff r.status ∧ t.status = status ∧ t.HasPhase phase

/-- What follows a look at a handoff, where to find none is an error. -/
theorem settles_found {id : HandoffId} {orgId : OrgId} {α : Type} {q : α → Stores → Prop} {e : Err}
    {f : HandoffRecord → Action α} (hf : ∀ record t, Same s t → Settles handle t (f record) q) :
    Settles handle s (do
      match ← getHandoff id orgId with
      | none => .raise e
      | some record => f record) q := by
  refine settles_then (finishes_getHandoff id orgId).settles fun reply t ht => ?_
  cases reply with
  | none => exact settles_raise
  | some record => exact hf record t ht.2

theorem settles_acceptLost {id : HandoffId} {orgId : OrgId} {userId : UserId} :
    Settles handle s (acceptLost id orgId userId) fun _ t => Same s t := by
  refine settles_found fun record t hsame => ?_
  split
  · exact settles_pure hsame
  · split <;> exact settles_raise

theorem settles_acceptHandoff {id : HandoffId} {orgId : OrgId} {userId : UserId}
    (h : s.tables.handoffs = [r]) :
    Settles handle s (acceptHandoff settings id orgId userId) fun _ t =>
      Entered s t (· = .active) .handoffActive .handoffActive := by
  refine settles_found fun record t hsame => ?_
  split
  · split
    · exact settles_pure (.inl hsame)
    · exact settles_raise
  · split
    · exact settles_raise
    · refine settles_then finishes_now.settles fun now u hu => ?_
      have hsame := hsame.trans hu
      have hone : u.tables.handoffs = [r] := by rw [hsame.tables,h]
      refine settles_then (settles_updateStatus hone) fun reply v hv => ?_
      obtain ⟨hkeys,-,⟨rfl,htables⟩ | ⟨hsome,r',hactive,hmoved⟩⟩ := hv
      · exact settles_mono settles_acceptLost fun _ w hw =>
          .inl ((hsame.trans ⟨htables,hkeys⟩).trans hw)
      · obtain ⟨record,rfl⟩ := Option.isSome_iff_exists.mp hsome
        refine settles_then (finishes_linkSession id .active).settles fun _ w hw => ?_
        refine settles_then (finishes_recordEvent id orgId .accepted).settles fun _ x hx => ?_
        refine settles_then (finishes_applyHandoffActive id).settles fun _ y hy => ?_
        refine settles_then (settles_discard (settles_resumeSession 0)) fun _ z hz => ?_
        refine settles_then (finishes_recordEvent id orgId .resumed).settles fun _ a ha => settles_pure ?_
        refine .inr ⟨r',?_,hactive,?_,?_⟩
        · rw [ha.handoffs,hz.tables,hy.1,← hmoved,← hw.1]
          exact hx.handoffs
        · rw [Stores.status,ha.session,hz.tables,hy.1]
          rfl
        · rw [HasPhase,ha.keys]
          exact hz.phase _ hy.2

/-- A transition that closes the handoff gives the session back to the agent. -/
theorem settles_closed {record : HandoffRecord}
    {first second : Action Unit}
    (hfirst : ∀ s, Finishes handle s first fun _ t => t.tables.handoffs = s.tables.handoffs)
    (hsecond : ∀ s, Finishes handle s second fun _ t => t.tables.handoffs = s.tables.handoffs)
    {handoff : HandoffStatus → Prop} {base : Stores} (hmoved : s.tables.handoffs = [r]) (hr : handoff r.status) :
    Settles handle s (do
      first
      second
      SessionManager.clearHandoff settings.toSettings
      return record : Action HandoffRecord) fun _ t => Entered base t handoff .active .listening := by
  refine settles_then (hfirst s).settles fun _ t ht => ?_
  refine settles_then (hsecond t).settles fun _ u hu => ?_
  refine settles_then finishes_clearHandoff.settles fun _ v hv => settles_pure ?_
  refine .inr ⟨r,?_,hr,?_,hv.2⟩
  · rw [hv.1,← hmoved,← ht]
    exact hu
  · rw [Stores.status,hv.1]
    rfl

theorem finishes_linkSession_handoffs (id : HandoffId) (status : HandoffStatus) (s : Stores) :
    Finishes handle s (linkSession id status) fun _ t => t.tables.handoffs = s.tables.handoffs :=
  finishes_mono (finishes_linkSession id status) fun _ _ ht => ht.1

theorem finishes_recordEvent_handoffs (id : HandoffId) (orgId : OrgId) (e : HandoffEventType) (s : Stores) :
    Finishes handle s (recordEvent id orgId e) fun _ t => t.tables.handoffs = s.tables.handoffs :=
  finishes_mono (finishes_recordEvent id orgId e) fun _ _ ht => ht.handoffs

theorem settles_completeLost {id : HandoffId} {orgId : OrgId} :
    Settles handle s (completeLost id orgId) fun _ t => Same s t := by
  refine settles_found fun record t hsame => ?_
  split
  · exact settles_pure hsame
  · exact settles_raise

theorem settles_completeHandoff {id : HandoffId} {orgId : OrgId} {resolution : String}
    (h : s.tables.handoffs = [r]) :
    Settles handle s (completeHandoff settings id orgId resolution) fun _ t =>
      Entered s t (· ∈ terminalHandoff) .active .listening := by
  refine settles_found fun record t hsame => ?_
  split
  · exact settles_pure (.inl hsame)
  · split
    · exact settles_raise
    · refine settles_then finishes_now.settles fun now u hu => ?_
      have hsame := hsame.trans hu
      have hone : u.tables.handoffs = [r] := by rw [hsame.tables,h]
      refine settles_then (settles_updateStatus hone) fun reply v hv => ?_
      obtain ⟨hkeys,-,⟨rfl,htables⟩ | ⟨hsome,r',hstatus,hmoved⟩⟩ := hv
      · -- another agent was first: the handoff is read again
        exact settles_mono settles_completeLost fun _ w hw => .inl ((hsame.trans ⟨htables,hkeys⟩).trans hw)
      · obtain ⟨record,rfl⟩ := Option.isSome_iff_exists.mp hsome
        exact settles_closed (finishes_linkSession_handoffs id .completed)
          (finishes_recordEvent_handoffs id orgId .completed) hmoved (by rw [hstatus]; decide)

theorem settles_cancelLost {id : HandoffId} {orgId : OrgId} :
    Settles handle s (cancelLost id orgId) fun _ t => Same s t := by
  refine settles_found fun record t hsame => ?_
  split
  · exact settles_pure hsame
  · exact settles_raise

theorem settles_cancelHandoff {id : HandoffId} {orgId : OrgId} (h : s.tables.handoffs = [r]) :
    Settles handle s (cancelHandoff settings id orgId) fun _ t =>
      Entered s t (· ∈ terminalHandoff) .active .listening := by
  refine settles_found fun record t hsame => ?_
  split
  · exact settles_pure (.inl hsame)
  · split
    · exact settles_raise
    · have hone : t.tables.handoffs = [r] := by rw [hsame.tables,h]
      refine settles_then (settles_updateStatus hone) fun reply v hv => ?_
      obtain ⟨hkeys,-,⟨rfl,htables⟩ | ⟨hsome,r',hstatus,hmoved⟩⟩ := hv
      · exact settles_mono settles_cancelLost fun _ w hw => .inl ((hsame.trans ⟨htables,hkeys⟩).trans hw)
      · obtain ⟨record,rfl⟩ := Option.isSome_iff_exists.mp hsome
        exact settles_closed (finishes_recordEvent_handoffs id orgId .cancelled)
          (finishes_linkSession_handoffs id .cancelled) hmoved (by rw [hstatus]; decide)

/-- No operation but the first initiation finds a handoff where there is none. -/
theorem settles_getHandoff_none {id : HandoffId} {orgId : OrgId} {α : Type} {q : α → Stores → Prop}
    {f : Option HandoffRecord → Action α} (h : s.tables.handoffs = [])
    (hf : ∀ t, Settles handle t (f none) q) : Settles handle s (getHandoff id orgId >>= f) q := by
  refine settles_then (finishes_getHandoff id orgId).settles fun reply t ht => ?_
  have hnone : reply = none := by
    rw [ht.1,Tables.handoff?,h]
    rfl
  rw [hnone]
  exact hf t

theorem finishes_getBySession (orgId : OrgId) :
    Finishes handle s (getBySession orgId) fun reply t =>
      reply = s.tables.handoffs.find? (·.orgId = orgId) ∧ Same s t :=
  finishes_execute fun _ _ => ⟨_,rfl,rfl,rfl,rfl⟩

/-- Where a session has a handoff, initiating another changes nothing. -/
theorem initiateHandoff_again (settings : HandoffOrchestrator.Settings) (req : Initiation) (h : s.tables.handoffs ≠ []) :
    Same s (exec handle (initiateHandoff settings req) s).2 := by
  refine exec_then (q := fun r => Same s r.2) (finishes_getBySession req.orgId) fun reply t ht => ?_
  obtain ⟨hreply,hsame⟩ := ht
  cases reply with
  | some existing => exact hsame
  | none =>
    -- a handoff of another organisation: the insertion is refused and nothing is found
    have hcreate : Same s (exec handle (createHandoff req.orgId req.trigger req.reason) t).2 ∧
        ∃ e, (exec handle (createHandoff req.orgId req.trigger req.reason) t).1 = .error e := by
      refine exec_then (q := fun r => Same s r.2 ∧ ∃ e, r.1 = .error e)
        (finishes_getBySession req.orgId) fun reply u hu => ?_
      obtain ⟨rfl,hu⟩ := hu
      rw [hsame.tables,← hreply]
      refine exec_then (q := fun r => Same s r.2 ∧ ∃ e, r.1 = .error e) finishes_now fun now v hv => ?_
      have hid : Finishes handle v (execute .newId) fun _ w => Same v w := ⟨_,_,rfl,rfl,rfl⟩
      refine exec_then (q := fun r => Same s r.2 ∧ ∃ e, r.1 = .error e) hid fun id w hw => ?_
      have hsame := ((hsame.trans hu).trans hv).trans hw
      have hinsert (record : HandoffRecord) : Finishes handle w (execute (.insertHandoff record))
          fun inserted x => inserted = false ∧ Same w x := by
        have hp (answers : Answers) : Persistence.perform answers w.tables w.keys (.insertHandoff record) =
            (.ok false,[],w.keys) := by
          rw [Persistence.perform,hsame.tables,if_neg h]
        exact finishes_of_perform hp fun _ => ⟨rfl,rfl,rfl⟩
      refine exec_then (q := fun r => Same s r.2 ∧ ∃ e, r.1 = .error e) (hinsert _) fun inserted x hx => ?_
      obtain ⟨rfl,hx⟩ := hx
      refine exec_then (q := fun r => Same s r.2 ∧ ∃ e, r.1 = .error e)
        (finishes_getBySession req.orgId) fun reply y hy => ?_
      obtain ⟨rfl,hy⟩ := hy
      rw [hx.tables,hsame.tables,← hreply]
      exact ⟨(hsame.trans hx).trans hy,_,rfl⟩
    obtain ⟨hsame',e,he⟩ := hcreate
    have hraised := exec_bind_error handle t (Prod.ext he rfl :
      exec handle (createHandoff req.orgId req.trigger req.reason) t = (.error e,_))
      fun created => if created.2 then package settings req created.1
        else pure (toPackage created.1 req.policy none)
    exact hraised ▸ hsame'

theorem handoff?_self {tables : Tables} (h : tables.handoffs = [r]) :
    tables.handoff? r.id r.orgId = some r := by
  simp [Tables.handoff?,h]

theorem finishes_createHandoff {orgId : OrgId} {trigger : HandoffTrigger} {reason : String}
    (h : s.tables.handoffs = []) :
    Finishes handle s (createHandoff orgId trigger reason) fun created t =>
      created.2 = true ∧ t.tables.handoffs = [created.1] ∧ created.1.orgId = orgId := by
  refine finishes_then (finishes_getBySession orgId) fun reply t ht => ?_
  obtain ⟨rfl,hsame⟩ := ht
  rw [h]
  refine finishes_then finishes_now fun now u hu => ?_
  have hid : Finishes handle u (execute .newId) fun _ v => Same u v := ⟨_,_,rfl,rfl,rfl⟩
  refine finishes_then hid fun id v hv => ?_
  have hnone : v.tables.handoffs = [] := by
    rw [((hsame.trans hu).trans hv).tables,h]
  have hinsert (record : HandoffRecord) : Finishes handle v (execute (.insertHandoff record))
      fun inserted w => inserted = true ∧ w.tables.handoffs = [record] := by
    have hp (answers : Answers) : Persistence.perform answers v.tables v.keys (.insertHandoff record) =
        (.ok true,[.handoffInsert record],v.keys) := by
      rw [Persistence.perform,if_pos hnone]
    refine finishes_of_perform hp fun _ => ⟨rfl,?_⟩
    simp [Write.apply,hnone]
  refine finishes_then (hinsert _) fun inserted w hw => ?_
  obtain ⟨rfl,hone⟩ := hw
  refine finishes_then (finishes_recordEvent id orgId .created) fun _ x hx => ?_
  have hone := hx.handoffs.trans hone
  refine finishes_then (finishes_getHandoff id orgId) fun reply y hy => ?_
  rw [hy.1,handoff?_self hone]
  exact finishes_pure ⟨rfl,by rw [hy.2.tables,hone],rfl⟩

/-- The record just created is found and updated. -/
theorem finishes_updateStatus_created {status : HandoffStatus} {fields : HandoffFields}
    (h : s.tables.handoffs = [r]) :
    Finishes handle s (updateStatus r.id r.orgId status none fields) fun reply t =>
      ∃ r', reply = some r' ∧ r'.status = status ∧ t.tables.handoffs = [r'] := by
  refine finishes_then finishes_now fun now t ht => ?_
  have hmatch : (s.tables.matching r.id r.orgId none).isSome := by
    simp [Tables.matching,handoff?_self h]
  have hupdate : Finishes handle t (execute (.updateHandoff r.id r.orgId none
      { status, updatedAt := now, fields })) fun _ u =>
        u.tables.handoffs = [HandoffUpdate.apply { status, updatedAt := now, fields } r] := by
    have hp (answers : Answers) : Persistence.perform answers t.tables t.keys
        (.updateHandoff r.id r.orgId none { status, updatedAt := now, fields }) =
          (.ok (1 : Nat),[.handoffUpdate r.id { status, updatedAt := now, fields }],t.keys) := by
      rw [Persistence.perform,ht.tables,if_pos hmatch]
    refine finishes_of_perform hp fun _ => ?_
    simp [Write.apply,ht.tables,h]
  refine finishes_then hupdate fun rowcount u hu => ?_
  simp only [Option.isSome_none,Bool.false_eq_true,false_and,if_false]
  refine finishes_then (finishes_getHandoff r.id r.orgId) fun reply v hv => ?_
  have hfound : u.tables.handoff? r.id r.orgId =
      some (HandoffUpdate.apply { status, updatedAt := now, fields } r) := handoff?_self hu
  rw [hv.1,hfound]
  exact finishes_pure ⟨_,rfl,rfl,by rw [hv.2.tables,hu]⟩

theorem finishes_package {req : Initiation} (h : s.tables.handoffs = [r]) (horg : r.orgId = req.orgId) :
    Finishes handle s (package settings req r) fun _ t =>
      ∃ r, t.tables.handoffs = [r] ∧ waiting r.status ∧ t.status = .handoffPending ∧
        t.HasPhase .handoffPending := by
  refine finishes_then (finishes_aside fun _ => ⟨_,rfl,rfl,rfl,rfl⟩) fun link t1 h1 => ?_
  refine finishes_then (finishes_ticketFor req r link.1) fun ticketId t2 h2 => ?_
  refine finishes_then finishes_summarize fun summary t3 h3 => ?_
  refine finishes_then (finishes_recordEvent _ _ _) fun _ t4 h4 => ?_
  refine finishes_then (finishes_recordEvent _ _ _) fun _ t5 h5 => ?_
  refine finishes_then (finishes_aside fun _ => ⟨_,rfl,rfl,rfl,rfl⟩) fun assignment t6 h6 => ?_
  refine finishes_then (finishes_recordEvent _ _ _) fun _ t7 h7 => ?_
  refine finishes_then (finishes_aside fun _ => ⟨_,rfl,rfl,rfl,rfl⟩) fun messages t8 h8 => ?_
  have hsave (snapshot : ConversationSnapshot) : Finishes handle t8
      (discard (saveSnapshot snapshot) : Action PUnit) fun _ t => Aside t8 t :=
    finishes_discard (finishes_saveSnapshot snapshot)
  refine finishes_then (hsave _) fun _ t9 h9 => ?_
  refine finishes_then finishes_now fun now t10 h10 => ?_
  have haside := (((((((h1.trans h2).trans h3).trans h4).trans h5).trans h6).trans h7).trans h8).trans h9
  have hone : t10.tables.handoffs = [r] := by
    rw [h10.tables,haside.handoffs,h]
  rw [← horg]
  refine finishes_then (finishes_updateStatus_created hone) fun reply t11 h11 => ?_
  obtain ⟨r',rfl,hstatus,hmoved⟩ := h11
  refine finishes_then (finishes_linkSession r'.id _) fun _ t12 h12 => ?_
  refine finishes_then (finishes_applyHandoffPending _) fun _ t13 h13 => ?_
  have hcount : Finishes handle t13 (discard (execute (.countPending r.orgId)) : Action PUnit)
      fun _ t => Same t13 t :=
    finishes_discard (finishes_execute fun _ _ => ⟨_,rfl,rfl,rfl⟩)
  refine finishes_then hcount fun _ t14 h14 => finishes_pure ⟨r',?_,?_,?_,?_⟩
  · rw [h14.tables,h13.1,← hmoved]
    exact h12.1
  · rw [hstatus]
    split <;> rfl
  · rw [Stores.status,h14.tables,h13.1]
    rfl
  · rw [HasPhase,h14.keys]
    exact h13.2

/-- The first initiation: one handoff that waits, and a session that waits with it. -/
theorem finishes_initiateHandoff (settings : HandoffOrchestrator.Settings) (req : Initiation) (h : s.tables.handoffs = []) :
    Finishes handle s (initiateHandoff settings req) fun _ t =>
      ∃ r, t.tables.handoffs = [r] ∧ waiting r.status ∧ t.status = .handoffPending ∧
        t.HasPhase .handoffPending := by
  refine finishes_then (finishes_getBySession req.orgId) fun reply t ht => ?_
  obtain ⟨rfl,hsame⟩ := ht
  rw [h]
  have hnone : t.tables.handoffs = [] := by rw [hsame.tables,h]
  refine finishes_then (finishes_createHandoff hnone) fun created u hu => ?_
  obtain ⟨record,created⟩ := created
  obtain ⟨rfl,hone,horg⟩ := hu
  exact finishes_package hone horg

end VoxForge.Handoffs
