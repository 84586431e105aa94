import VoxForge.Outcomes.KpiTable

/-! Any number of concurrent recordings: the unique index leaves each session one row. -/
namespace VoxForge.Outcomes
open Foundation Core Prog OutcomeRepository OutcomeExtractionService

/-- The session whose row an operation writes. -/
def KpiOp.writes : KpiOp → Option SessionId
  | .updateOutcome loaded _ => some loaded.sessionId
  | .upsertOutcome row => some row.sessionId
  | _ => none

section table
variable {sessionId : SessionId} {table : KpiTable} {now : Time} {o : KpiOp}

theorem rowsOf_eq_nil (h : row? sessionId table = none) : rowsOf sessionId table = [] := by
  rw [rowsOf,List.filter_eq_nil_iff]
  exact List.find?_eq_none.mp h

theorem mem_rowsOf {row : OutcomeKpi} (h : row? sessionId table = some row) : row ∈ rowsOf sessionId table :=
  List.mem_filter.mpr ⟨List.mem_of_find?_eq_some h,by simpa using List.find?_some h⟩

theorem sessionId_of_row? {row : OutcomeKpi} (h : row? sessionId table = some row) : row.sessionId = sessionId := by
  simpa using List.find?_some h

/-- A session with a row and no second one. -/
theorem rowsOf_eq_singleton {row : OutcomeKpi} (hle : (rowsOf sessionId table).length ≤ 1)
    (h : row? sessionId table = some row) : rowsOf sessionId table = [row] := by
  have hmem := mem_rowsOf h
  match hrows : rowsOf sessionId table,hle with
  | [],_ =>
    rw [hrows] at hmem
    cases hmem
  | [only],_ =>
    rw [hrows] at hmem
    rw [List.mem_singleton.mp hmem]

/-- What a write does to the rows of one session. -/
def actOn (sessionId : SessionId) (rows : KpiTable) (w : KpiWrite) : KpiTable :=
  if w.sessionId = sessionId then w.apply rows else rows

theorem actOn_ne {w : KpiWrite} (h : w.sessionId ≠ sessionId) (rows : KpiTable) : actOn sessionId rows w = rows :=
  if_neg h

theorem rowsOf_apply (w : KpiWrite) :
    rowsOf sessionId (w.apply table) = actOn sessionId (rowsOf sessionId table) w := by
  cases w with
  | insert row =>
    by_cases h : row.sessionId = sessionId
    · simp [rowsOf,actOn,KpiWrite.apply,KpiWrite.sessionId,h]
    · simp [rowsOf,actOn,KpiWrite.apply,KpiWrite.sessionId,h]
  | set other values =>
    have hkey (row : OutcomeKpi) : (if row.sessionId = other then { row with values } else row).sessionId =
        row.sessionId := by split <;> rfl
    have hsame : rowsOf sessionId (KpiWrite.apply table (.set other values)) =
        KpiWrite.apply (rowsOf sessionId table) (.set other values) := by
      simp only [rowsOf,KpiWrite.apply,List.filter_map]
      congr 1
      apply List.filter_congr
      intro row _
      simp [hkey]
    rw [hsame,actOn]
    split
    · rfl
    · next hne =>
      apply (List.map_congr_left fun row hrow => ?_).trans (List.map_id _)
      have hrow : row.sessionId = sessionId := by simpa using (List.mem_filter.mp hrow).2
      have hother : row.sessionId ≠ other := by
        rw [hrow]
        exact Ne.symm hne
      rw [if_neg hother]
      rfl

/-- An operation writes under the session it names, and only if it succeeds. -/
theorem perform_writes {w : KpiWrite} (h : w ∈ (perform now table () o).2.1) :
    o.writes = some w.sessionId ∧ (perform now table () o).1.isOk := by
  cases o with
  | updateOutcome loaded values =>
    simp only [perform] at h ⊢
    split at h
    · obtain rfl := List.mem_singleton.mp h
      exact ⟨rfl,rfl⟩
    · cases h
  | upsertOutcome row =>
    simp only [perform] at h ⊢
    split at h
    · obtain rfl := List.mem_singleton.mp h
      exact ⟨rfl,rfl⟩
    · obtain rfl := List.mem_singleton.mp h
      exact ⟨rfl,rfl⟩
  | _ => cases h

/-- A write that succeeds leaves the session one row. -/
theorem perform_one (hle : (rowsOf sessionId table).length ≤ 1) (hwrites : o.writes = some sessionId)
    (hok : (perform now table () o).1.isOk) :
    ((perform now table () o).2.1.foldl (actOn sessionId) (rowsOf sessionId table)).length = 1 := by
  cases o with
  | updateOutcome loaded values =>
    obtain rfl : loaded.sessionId = sessionId := Option.some.inj hwrites
    simp only [perform] at hok ⊢
    split at hok
    · next row hrow => simp [rowsOf_eq_singleton hle hrow,actOn,KpiWrite.sessionId,KpiWrite.apply]
    · cases hok
  | upsertOutcome row =>
    obtain rfl : row.sessionId = sessionId := Option.some.inj hwrites
    simp only [perform]
    split
    · next found hfound => simp [rowsOf_eq_singleton hle hfound,actOn,KpiWrite.sessionId,KpiWrite.apply]
    · next hnone => simp [rowsOf_eq_nil hnone,actOn,KpiWrite.sessionId,KpiWrite.apply]
  | _ => cases hwrites

theorem perform_locks (hwrites : o.writes = some sessionId) (hok : (perform now table () o).1.isOk) :
    ∃ w ∈ (perform now table () o).2.1, w.sessionId = sessionId := by
  cases o with
  | updateOutcome loaded values =>
    obtain rfl : loaded.sessionId = sessionId := Option.some.inj hwrites
    simp only [perform] at hok ⊢
    split at hok
    · exact ⟨_,List.mem_singleton_self _,rfl⟩
    · cases hok
  | upsertOutcome row =>
    obtain rfl : row.sessionId = sessionId := Option.some.inj hwrites
    simp only [perform]
    split
    · exact ⟨_,List.mem_singleton_self _,rfl⟩
    · exact ⟨_,List.mem_singleton_self _,rfl⟩
  | _ => cases hwrites

end table

/-- A transaction writes the row of a session once. -/
def kpiDiscipline (sessionId : SessionId) : Discipline KpiOp KpiReply KpiErr Bool where
  allowed wrote o := o.writes = some sessionId → wrote = false
  possible
    | .selectOutcome asked,.ok (some row : Option OutcomeKpi) => row.sessionId = asked
    | _,_ => True
  after wrote o r := wrote || (r.isOk && decide (o.writes = some sessionId))

section discipline
variable {sessionId : SessionId} {c : Bool} {o : KpiOp}

theorem wp_execute (h : o.writes = some sessionId → c = false) :
    wp (kpiDiscipline sessionId) c (execute o) (returns fun c' reply =>
      c' = (c || decide (o.writes = some sessionId)) ∧ (kpiDiscipline sessionId).possible o (.ok reply)) := by
  refine (wp_perform o _).mpr ⟨h,fun r hr => ?_⟩
  cases r with
  | ok reply => exact ⟨by simp [kpiDiscipline,Except.isOk,Except.toBool],hr⟩
  | error e => trivial

theorem wp_read (h : o.writes = none) :
    wp (kpiDiscipline sessionId) c (execute o) (returns fun c' reply =>
      c' = c ∧ (kpiDiscipline sessionId).possible o (.ok reply)) := by
  refine wp_returns_mono (wp_execute fun hw => ?_) fun c' reply hc => ⟨?_,hc.2⟩
  · rw [h] at hw
    cases hw
  · rw [hc.1,h]
    simp

/-- A recording that returns has written the row of its session. -/
theorem wp_upsertSessionOutcome (outcome : SessionOutcome) :
    wp (kpiDiscipline sessionId) false (upsertSessionOutcome outcome)
      (returns fun wrote _ => outcome.sessionId = sessionId → wrote = true) := by
  apply wp_then (wp_read rfl)
  rintro _ existing ⟨rfl,hexisting⟩
  apply wp_then (wp_read rfl)
  rintro _ now ⟨rfl,-⟩
  cases existing with
  | some row =>
    have hrow : row.sessionId = outcome.sessionId := hexisting
    apply wp_then (wp_execute fun _ => rfl)
    rintro _ _ ⟨rfl,-⟩
    apply wp_then (wp_read rfl)
    rintro _ found ⟨rfl,-⟩
    cases found with
    | none => trivial
    | some found =>
      intro hsession
      simp [KpiOp.writes,hrow.trans hsession]
  | none =>
    apply wp_then (wp_execute fun _ => rfl)
    rintro _ _ ⟨rfl,-⟩
    apply wp_then (wp_read rfl)
    rintro _ found ⟨rfl,-⟩
    cases found with
    | none => trivial
    | some found =>
      intro hsession
      simp [KpiOp.writes,SessionOutcome.row,hsession]

/-- What a recording has done when it has ended. -/
def Recorded (sessionId : SessionId) (turn : TurnOutcome) (wrote : Bool) (r : Except KpiErr Unit) : Prop :=
  r = .ok () → turn.orgId.isSome → turn.sessionId = sessionId → wrote = true

theorem wp_recordOutcome (host : Host) (turn : TurnOutcome) :
    wp (kpiDiscipline sessionId) false (recordOutcome host turn) (Recorded sessionId turn) := by
  unfold recordOutcome
  split
  · next hnone =>
    intro _ hsome
    rw [hnone] at hsome
    cases hsome
  · next orgId _ =>
    refine wp_mono (wp_discard (wp_upsertSessionOutcome (outcomeOf host turn orgId))) fun wrote r hr => ?_
    rintro rfl _ hsession
    exact hr hsession

end discipline

/-- The rows of a session as a transaction sees them. -/
def Sees (wrote : Bool) (committed own : KpiTable) : Prop :=
  if wrote then own.length = 1 ∧ committed.length ≤ 1 else own = committed

section protocol
variable {sessionId : SessionId} {c : Bool} {rows : KpiTable} {now : Time} {table : KpiTable} {o : KpiOp}

theorem perform_possible : (kpiDiscipline sessionId).possible o (perform now table () o).1 := by
  cases o with
  | selectOutcome asked =>
    simp only [perform]
    cases hrow : row? asked table with
    | none => trivial
    | some row => exact sessionId_of_row? hrow
  | _ => trivial

/-- One statement, whatever it writes, leaves what its transaction sees as its context has it. -/
theorem sees_perform (hgood : rows.length ≤ 1) (hallowed : (kpiDiscipline sessionId).allowed c o)
    (hsees : Sees c rows (rowsOf sessionId table)) :
    Sees ((kpiDiscipline sessionId).after c o (perform now table () o).1) rows
      ((perform now table () o).2.1.foldl (actOn sessionId) (rowsOf sessionId table)) := by
  by_cases hwrites : o.writes = some sessionId ∧ (perform now table () o).1.isOk
  · obtain rfl : c = false := hallowed hwrites.1
    have hrows : rowsOf sessionId table = rows := hsees
    have hle : (rowsOf sessionId table).length ≤ 1 := by
      rw [hrows]
      exact hgood
    have hafter : (kpiDiscipline sessionId).after false o (perform now table () o).1 = true := by
      simp [kpiDiscipline,hwrites.1,hwrites.2]
    rw [hafter]
    exact ⟨perform_one hle hwrites.1 hwrites.2,hgood⟩
  · have hother {w : KpiWrite} (hw : w ∈ (perform now table () o).2.1) : w.sessionId ≠ sessionId := by
      rintro rfl
      exact hwrites (perform_writes hw)
    have hafter : (kpiDiscipline sessionId).after c o (perform now table () o).1 = c := by
      have hnot : ((perform now table () o).1.isOk && decide (o.writes = some sessionId)) = false := by
        rw [Bool.and_eq_false_iff,decide_eq_false_iff_not,Bool.eq_false_iff]
        exact (not_and_or.mp hwrites).symm
      simp only [kpiDiscipline,hnot,Bool.or_false]
    rw [hafter,foldl_invisible fun w hw => actOn_ne (hother hw)]
    exact hsees

/-- A transaction that has not locked the entry of a session leaves its rows alone. -/
theorem idle_perform (hfree : ∀ w ∈ (perform now table () o).2.1, some w.sessionId ≠ some sessionId) :
    (kpiDiscipline sessionId).after false o (perform now table () o).1 = false ∧
      ∀ w ∈ (perform now table () o).2.1, ∀ rows, actOn sessionId rows w = rows := by
  refine ⟨?_,fun w hw => actOn_ne fun h => hfree w hw (congrArg some h)⟩
  by_contra hne
  have hwrote : (perform now table () o).1.isOk = true ∧ o.writes = some sessionId := by
    simpa [kpiDiscipline] using hne
  obtain ⟨w,hw⟩ := perform_locks hwrote.2 hwrote.1
  exact hfree w hw.1 (congrArg some hw.2)

end protocol

/-- The unique index protects the rows of a session. -/
def kpiProtocol (host : Host) (sessionId : SessionId) :
    Protocol database (recordOutcome host) sessionId Bool KpiTable where
  observe := rowsOf sessionId
  act := actOn sessionId
  discipline := fun _ => kpiDiscipline sessionId
  start := false
  Idle := (· = false)
  Sees := Sees
  Good rows := rows.length ≤ 1
  Move a b := a.length ≤ b.length
  Fair := fun _ _ => True
  Final := Recorded sessionId
  observe_apply := fun _ w => rowsOf_apply w
  disciplined := wp_recordOutcome host
  idle_start := rfl
  idle_sees := fun {c a} _ hc => by
    subst hc
    rfl
  possible_perform := perform_possible
  possible_fault := fun {_ o e} _ => by cases o <;> trivial
  sees_perform := fun hgood hallowed _ hsees => sees_perform hgood hallowed hsees
  idle_perform := fun _ hc hfree => by
    subst hc
    exact idle_perform hfree
  after_fault := fun {_ c o e} => by simp [kpiDiscipline,Except.isOk,Except.toBool]
  commits := fun {c a b} hgood hsees => by
    cases c with
    | false =>
      obtain rfl : b = a := hsees
      exact ⟨hgood,le_rfl⟩
    | true =>
      obtain ⟨hone,hle⟩ : b.length = 1 ∧ a.length ≤ 1 := hsees
      omega

theorem length_le_of_moves {host : Host} {sessionId : SessionId} {a b : KpiTable}
    (h : Relation.ReflTransGen (kpiProtocol host sessionId).Move a b) : a.length ≤ b.length := by
  induction h with
  | refl => exact le_rfl
  | tail _ hmove ih => exact ih.trans hmove

/-- The commit of a recording for a session of an organisation. -/
def Commits (sessionId : SessionId) (a : Foundation.Pool KpiOp KpiReply KpiErr KpiTable KpiWrite Unit TurnOutcome) :
    PoolLabel TurnOutcome Time KpiErr → Prop
  | .commit i => ∃ t, a.transaction? i = some t ∧ t.kind.orgId.isSome ∧ t.kind.sessionId = sessionId
  | _ => False

/-- However recordings of any sessions interleave, a session never gets a second row, and it
has one from the first recording on that is committed. -/
theorem single_row {host : Host} {sessionId : SessionId} {table : KpiTable}
    {ls : List (PoolLabel TurnOutcome Time KpiErr)}
    {q : Foundation.Pool KpiOp KpiReply KpiErr KpiTable KpiWrite Unit TurnOutcome}
    (hstart : (rowsOf sessionId table).length ≤ 1)
    (hrun : run (Pool.step database (recordOutcome host)) { committed := table, shared := () } ls = some q) :
    (rowsOf sessionId q.committed).length ≤ 1 ∧ ∀ a l b,
      Fires (Pool.step database (recordOutcome host)) { committed := table, shared := () } ls a l b →
        Commits sessionId a l → (rowsOf sessionId q.committed).length = 1 := by
  have hinit : (kpiProtocol host sessionId).Inv { committed := table, shared := () } :=
    Protocol.inv_start table () hstart
  have hfair (a : Foundation.Pool KpiOp KpiReply KpiErr KpiTable KpiWrite Unit TurnOutcome)
      (l : PoolLabel TurnOutcome Time KpiErr) : (kpiProtocol host sessionId).FairStep a l := by
    cases l with
    | statement i choice => exact fun _ _ _ _ _ => True.intro
    | _ => trivial
  have hend := (hinit.run (fun a l _ _ => hfair a l) (Visits.of_run hrun)).1
  have hgood : (rowsOf sessionId q.committed).length ≤ 1 := hend.good
  refine ⟨hgood,fun a l b hf hcommit => ?_⟩
  cases l with
  | commit i =>
    obtain ⟨t,ht,horg,hsession⟩ := hcommit
    have ha := (hinit.run (fun a l _ _ => hfair a l) hf.before).1
    have hb := (hinit.run (fun a l _ _ => hfair a l) hf.after).1
    obtain ⟨done,⟨rest,rfl⟩,hdone,hstep⟩ := hf
    have hrest : run (Pool.step database (recordOutcome host)) b rest = some q := by
      rw [run_append,run_concat_eq_some.mpr ⟨a,hdone,hstep⟩] at hrun
      exact hrun
    obtain ⟨t',wrote,ht',hfinal,hsees⟩ := ha.committed hstep
    obtain rfl := Option.some.inj (ht.symm.trans ht')
    obtain rfl : wrote = true := hfinal rfl horg hsession
    obtain ⟨hone,-⟩ : (rowsOf sessionId b.committed).length = 1 ∧ _ := hsees
    have hle := length_le_of_moves (hb.run (fun a l _ _ => hfair a l) (Visits.of_run hrest)).2
    have hle : (rowsOf sessionId b.committed).length ≤ (rowsOf sessionId q.committed).length := hle
    omega
  | _ => exact hcommit.elim

end VoxForge.Outcomes
