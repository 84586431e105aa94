import VoxForge.Knowledge.JobCourse

/-! What several workers make of the job table on PostgreSQL: a job is run by one of them at a time
and settled by one commit, and a worker that goes down leaves the job queued. (Elsewhere a claim
locks nothing.) -/
namespace VoxForge.Knowledge.JobQueue
open Core Foundation Prog

/-- The lock of a job's row protects the job. -/
def protocol (settings : Settings) (jobId : Nat) :
    Protocol database (program settings) (Lock.job jobId) Course (List IngestJob) where
  observe := rows jobId
  act := act jobId
  discipline := fun _ => discipline jobId
  start := .away
  Idle := Idle
  Sees := Sees
  Good := fun jobRows => jobRows.length ≤ 1
  Move := fun _ _ => True
  Fair := fun _ _ => True
  Final := Returned settings
  observe_apply := fun _ w => rows_apply w
  disciplined := wp_program
  idle_start := .inl rfl
  idle_sees := by
    rintro c a - (rfl | rfl)
    · rfl
    · exact .inl rfl
  possible_perform := possible_execute
  possible_fault := fun h => by cases h
  sees_perform := fun ha hallowed _ hsees => sees_execute ha hallowed hsees
  idle_perform := fun hallowed hidle hfree =>
    ⟨idle_execute hallowed hidle hfree,fun w hw => act_of_lock_ne (hfree w hw)⟩
  after_fault := by
    intro kind c o e
    dsimp only [discipline]
    split
    · rfl
    · cases o <;> rfl
  commits := by
    intro c a b ha hsees
    refine ⟨?_,trivial⟩
    cases c with
    | away => exact (show b = a from hsees) ▸ ha
    | locked => exact hsees.1 ▸ ha
    | running | settled =>
      obtain ⟨x,y,-,-,rfl,-⟩ := hsees
      exact Nat.le_refl 1
    | inserted | finished =>
      obtain ⟨-,y,rfl,-⟩ := hsees
      exact Nat.le_refl 1
    | deleting =>
      rcases hsees with rfl | rfl
      · exact ha
      · exact Nat.zero_le 1
    | unreachable => exact hsees.elim

def start (tables : Tables) : WorkerPool := { committed := tables, shared := () }

section pool
variable {settings : Settings} {tables : Tables} {ls : List QueueLabel} {p q : WorkerPool} {i jobId : Nat}

/-- Every job's row is in the table once. -/
def UniqueJobs (tables : Tables) : Prop := (tables.jobs.map (·.id)).Nodup

theorem uniqueJobs_iff : UniqueJobs tables ↔ ∀ jobId, (rows jobId tables).length ≤ 1 := by
  unfold UniqueJobs rows
  rw [List.nodup_iff_count_le_one]
  refine forall_congr' fun jobId => ?_
  rw [List.count,List.countP_map,List.countP_eq_length_filter]
  have hsame : ((fun x => x == jobId) ∘ fun job : IngestJob => job.id) = fun job => decide (job.id = jobId) := by
    funext job
    exact Bool.eq_iff_iff.mpr (by simp)
  rw [hsame]

theorem inv_of_visits (h : UniqueJobs tables) (hq : Visits (Pool.step database (program settings)) (start tables) ls q)
    (jobId : Nat) : (protocol settings jobId).Inv q := by
  have hstart : (protocol settings jobId).Inv (start tables) :=
    Protocol.inv_start tables () (uniqueJobs_iff.mp h jobId)
  refine (hstart.run (fun a l b _ => ?_) hq).1
  cases l with
  | statement i around => exact fun _ _ _ _ _ => trivial
  | _ => trivial

/-- Only a commit changes what is committed; each job is as the committed program has left it. -/
theorem committed_cases {l : QueueLabel} (h : ∀ jobId, (protocol settings jobId).Inv p)
    (hs : p.step database (program settings) l = some q) :
    q.committed = p.committed ∨ ∃ i t, l = .commit i ∧ p.transaction? i = some t ∧
      ∀ jobId, ∃ c, Ends settings t.kind c ∧ Sees c (rows jobId p.committed) (rows jobId q.committed) := by
  rcases Pool.step_cases database (program settings) hs with ⟨kind,-,rfl⟩ | ⟨i,t,ht,⟨around,o,k,-,-,-,rfl⟩ | ⟨e,o,k,-,-,-,rfl⟩ |
    ⟨rfl,-,-⟩ | ⟨-,rfl⟩⟩
  · exact .inl rfl
  · exact .inl rfl
  · exact .inl rfl
  · refine .inr ⟨i,t,rfl,ht,fun jobId => ?_⟩
    obtain ⟨u,c,hu,hfinal,hsees⟩ := (h jobId).committed hs
    obtain rfl : u = t := Option.some.inj (hu.symm.trans ht)
    refine ⟨c,(hfinal rfl).resolve_right ?_,hsees⟩
    rintro rfl
    exact hsees
  · exact .inl rfl

/-- What one commit makes of one job: a worker settles it, a request adds it, a deletion takes it away. -/
theorem commit_cases {task : Task} {a b : List IngestJob} {c : Course} (hc : Ends settings task c) (h : Sees c a b) :
    b = a ∨ (task = .worker ∧ Becomes IsSettled a b) ∨
      (((∃ file, task = .upload file) ∨ ∃ orgId documentId, task = .reindex orgId documentId) ∧
        Appears (fun status => if settings.knowledgeWorkerEnabled then status = .queued else IsSettled status) a b) ∨
      (((∃ documentId orgId, task = .deleteDocument documentId orgId) ∨
        ∃ collectionId orgId, task = .deleteCollection collectionId orgId) ∧ b = []) := by
  have hsubmitted (hc : c = .away ∨ c = if settings.knowledgeWorkerEnabled then .inserted else .finished) :
      b = a ∨ Appears (fun status => if settings.knowledgeWorkerEnabled then status = .queued else IsSettled status) a b := by
    rcases hc with rfl | rfl
    · exact .inl h
    · split at h
      · next henabled =>
        have hqueued : Appears (· = .queued) a b := h
        exact .inr (by simpa only [henabled,if_true] using hqueued)
      · next henabled =>
        have hsettled : Appears IsSettled a b := h
        exact .inr (by simpa only [henabled,Bool.false_eq_true,if_false] using hsettled)
  have hdeleted (hc : c = .away ∨ c = .deleting) : b = a ∨ b = [] := by
    rcases hc with rfl | rfl
    · exact .inl h
    · exact h
  cases task with
  | worker =>
    rcases hc with rfl | rfl
    · exact .inl h
    · exact .inr (.inl ⟨rfl,h⟩)
  | upload file => exact (hsubmitted hc).imp id fun h => .inr (.inl ⟨.inl ⟨file,rfl⟩,h⟩)
  | reindex orgId documentId => exact (hsubmitted hc).imp id fun h => .inr (.inl ⟨.inr ⟨orgId,documentId,rfl⟩,h⟩)
  | deleteDocument documentId orgId => exact (hdeleted hc).imp id fun h => .inr (.inr ⟨.inl ⟨documentId,orgId,rfl⟩,h⟩)
  | deleteCollection collectionId orgId =>
    exact (hdeleted hc).imp id fun h => .inr (.inr ⟨.inr ⟨collectionId,orgId,rfl⟩,h⟩)

theorem mem_rows {job : IngestJob} : job ∈ rows jobId tables ↔ job ∈ tables.jobs ∧ job.id = jobId := by
  unfold rows
  rw [List.mem_filter,decide_eq_true_eq]

/-- No committed job is running. -/
def NoneRunning (tables : Tables) : Prop := ∀ job ∈ tables.jobs, job.status ≠ .running

theorem isSettled_ne_running {status : IngestJobStatus} (h : IsSettled status) : status ≠ .running := by
  rcases h with rfl | rfl <;> decide

theorem noneRunning_step {l : QueueLabel} (h : ∀ jobId, (protocol settings jobId).Inv p) (hp : NoneRunning p.committed)
    (hs : p.step database (program settings) l = some q) : NoneRunning q.committed := by
  rcases committed_cases h hs with hsame | ⟨i,t,-,-,hcommit⟩
  · rw [hsame]
    exact hp
  · intro job hjob
    obtain ⟨c,hc,hsees⟩ := hcommit job.id
    have hrow : job ∈ rows job.id q.committed := mem_rows.mpr ⟨hjob,rfl⟩
    rcases commit_cases hc hsees with hsame | ⟨-,x,y,-,-,hy,-,hsettled⟩ | ⟨-,-,y,hy,hstatus⟩ | ⟨-,hnone⟩
    · rw [hsame] at hrow
      exact hp job (mem_rows.mp hrow).1
    · rw [hy,List.mem_singleton] at hrow
      rw [hrow]
      exact isSettled_ne_running hsettled
    · rw [hy,List.mem_singleton] at hrow
      rw [hrow]
      split at hstatus
      · rw [hstatus]
        decide
      · exact isSettled_ne_running hstatus
    · rw [hnone] at hrow
      cases hrow

theorem noneRunning_of_visits (h : UniqueJobs tables) (hnone : NoneRunning tables)
    (hq : Visits (Pool.step database (program settings)) (start tables) ls q) : NoneRunning q.committed :=
  hq.induction (I := fun q => NoneRunning q.committed) hnone fun _ _ _ hf ha => noneRunning_step (inv_of_visits h hf.before) ha hf.choose_spec.2.2

/-- A transaction sees the job as running: it has claimed it, and has not yet written how the job
ends. From there to its commit it still holds the job's lock, but does not count as claiming it. -/
def Claims (p : WorkerPool) (i jobId : Nat) : Prop :=
  ∃ t, p.transaction? i = some t ∧ ∃ job ∈ (p.view database t).jobs, job.id = jobId ∧ job.status = .running

theorem view_rows (t : Transaction Statement Statement.Reply String Write Task) :
    rows jobId (p.view database t) = t.pending.foldl (act jobId) (rows jobId p.committed) :=
  (protocol {} jobId).observe_foldl p.committed t.pending

/-- A claim holds the lock of its job, which is committed as queued. -/
theorem Claims.holds (hinv : (protocol settings jobId).Inv p) (hnone : NoneRunning p.committed) (h : Claims p i jobId) :
    ∃ t, p.transaction? i = some t ∧ t.Holds database (.job jobId) ∧
      ∃ job ∈ p.committed.jobs, job.id = jobId ∧ job.status = .queued := by
  obtain ⟨t,ht,job,hjob,hid,hrunning⟩ := h
  obtain ⟨c,-,hsees,hlock⟩ := hinv.follows ht
  have hview : rows jobId (p.view database t) = t.pending.foldl (act jobId) (rows jobId p.committed) := view_rows t
  have hrow : job ∈ rows jobId (p.view database t) := mem_rows.mpr ⟨hjob,hid⟩
  have hsees : Sees c (rows jobId p.committed) (rows jobId (p.view database t)) := by
    rw [hview]
    exact hsees
  have hnever {b : List IngestJob} (hb : b = rows jobId p.committed) : job ∉ b := by
    intro hmem
    rw [hb] at hmem
    exact hnone job (mem_rows.mp hmem).1 hrunning
  refine ⟨t,ht,hlock.resolve_right ?_,?_⟩
  · rintro ⟨-,hsame⟩
    refine hnever ?_ hrow
    rw [hview]
    exact foldl_invisible hsame _
  · generalize rows jobId (p.view database t) = b at hsees hrow hnever
    have hcommitted {x : IngestJob} (hx : rows jobId p.committed = [x]) : x ∈ p.committed.jobs ∧ x.id = jobId :=
      mem_rows.mp (hx ▸ List.mem_singleton_self x)
    cases c with
    | away => exact absurd hrow (hnever hsees)
    | locked => exact absurd hrow (hnever hsees.1)
    | running | settled =>
      obtain ⟨x,y,hx,hqueued,-⟩ := hsees
      exact ⟨x,(hcommitted hx).1,(hcommitted hx).2,hqueued⟩
    | inserted =>
      obtain ⟨-,y,rfl,hy⟩ := hsees
      rw [List.mem_singleton.mp hrow,hy] at hrunning
      cases hrunning
    | finished =>
      obtain ⟨-,y,rfl,hy⟩ := hsees
      rw [List.mem_singleton.mp hrow] at hrunning
      exact absurd hrunning (isSettled_ne_running hy)
    | deleting =>
      rcases hsees with hsame | rfl
      · exact absurd hrow (hnever hsame)
      · cases hrow
    | unreachable => exact hsees.elim

/-- Whatever the interleaving, a job is run by one worker at a time; until that worker commits,
everyone else sees it as queued. -/
theorem one_worker_runs_a_job (h : UniqueJobs tables) (hnone : NoneRunning tables)
    (hq : Visits (Pool.step database (program settings)) (start tables) ls q) :
    UniqueJobs q.committed ∧ NoneRunning q.committed ∧ ∀ i jobId, Claims q i jobId →
      (∃ job ∈ q.committed.jobs, job.id = jobId ∧ job.status = .queued) ∧ ∀ j, Claims q j jobId → j = i := by
  have hinv := inv_of_visits h hq
  have hnone := noneRunning_of_visits h hnone hq
  refine ⟨uniqueJobs_iff.mpr fun jobId => (hinv jobId).good,hnone,fun i jobId hi => ?_⟩
  obtain ⟨t,ht,hlock,hqueued⟩ := hi.holds (hinv jobId) hnone
  refine ⟨hqueued,fun j hj => ?_⟩
  obtain ⟨u,hu,hlock',-⟩ := hj.holds (hinv jobId) hnone
  exact (hinv jobId).exclusive hu ht hlock' hlock

/-- Services that answer at once, with nothing skipped. -/
def promptly : Surroundings where
  upload := {
    safeUploadFilename := id
    detectSourceType := fun _ _ => .ok .txt
    normalizeText := id
    blobPut := fun _ _ => .ok () }
  services := {
    blobGet := fun _ => .error "blob missing"
    parse := fun _ _ _ => .error "not parsed"
    embedBatch := fun _ => .ok []
    sha256 := id }

def oneQueuedJob : Tables :=
  { jobs := [{ id := 7, orgId := 1, documentId := 3, documentVersionId := none, jobType := .ingest }] }

/-- Two workers, of which the first has claimed the only job. -/
def twoWorkers : List QueueLabel :=
  [.begin .worker,.begin .worker,.statement 0 promptly,.statement 0 promptly,.statement 0 promptly]

theorem uniqueJobs_oneQueuedJob : UniqueJobs oneQueuedJob := List.nodup_singleton 7

theorem noneRunning_oneQueuedJob : NoneRunning oneQueuedJob := by
  intro job hjob
  rw [List.mem_singleton.mp hjob]
  exact fun h => by cases h

theorem first_worker_runs_the_job : ∃ q, Visits (Pool.step database (program {})) (start oneQueuedJob) twoWorkers q ∧
    Claims q 0 7 ∧ ∀ j, Claims q j 7 → j = 0 := by
  have hrun : ∃ q, run (Pool.step database (program {})) (start oneQueuedJob) twoWorkers = some q ∧ Claims q 0 7 :=
    ⟨_,rfl,_,rfl,_,List.mem_singleton_self _,rfl,rfl⟩
  obtain ⟨q,hq,hclaims⟩ := hrun
  have hq := Visits.of_run hq
  exact ⟨q,hq,hclaims,((one_worker_runs_a_job uniqueJobs_oneQueuedJob noneRunning_oneQueuedJob hq).2.2 0 7 hclaims).2⟩

/-! What commits make of a job -/

/-- A step brings a job to its end. -/
def Settles (jobId : Nat) (a b : WorkerPool) : Prop :=
  (∃ job ∈ a.committed.jobs, job.id = jobId ∧ job.status = .queued) ∧
    ∃ job ∈ b.committed.jobs, job.id = jobId ∧ IsSettled job.status

theorem isSettled_ne_queued {status : IngestJobStatus} (h : IsSettled status) : status ≠ .queued := by
  rcases h with rfl | rfl <;> decide

/-- A settled row stays as it is, unless it is deleted. -/
theorem settled_row_stays {l : QueueLabel} {job : IngestJob} (h : ∀ jobId, (protocol settings jobId).Inv p)
    (hrow : rows jobId p.committed = [job]) (hsettled : IsSettled job.status)
    (hs : p.step database (program settings) l = some q) :
    rows jobId q.committed = [job] ∨ rows jobId q.committed = [] := by
  rcases committed_cases h hs with hsame | ⟨i,t,-,-,hcommit⟩
  · exact .inl (hsame ▸ hrow)
  · obtain ⟨c,hc,hsees⟩ := hcommit jobId
    rw [hrow] at hsees
    rcases commit_cases hc hsees with hsame | ⟨-,x,y,hx,hqueued,-⟩ | ⟨-,hnone,-⟩ | ⟨-,hnone⟩
    · exact .inl hsame
    · cases hx
      exact absurd hqueued (isSettled_ne_queued hsettled)
    · cases hnone
    · exact .inr hnone

/-- A job is settled once: by the commit of a worker for which it had been queued, and never
again unless its row is deleted in between. -/
theorem job_settled_once {l : QueueLabel} {past : List QueueLabel} {a b : WorkerPool}
    (h : UniqueJobs tables) (ha : run (Pool.step database (program settings)) (start tables) past = some a)
    (hb : a.step database (program settings) l = some b) (hsettles : Settles jobId a b) :
    (∃ i t, l = .commit i ∧ a.transaction? i = some t ∧ t.kind = .worker) ∧
      ∀ ms c m d, run (Pool.step database (program settings)) b ms = some c →
        c.step database (program settings) m = some d → Settles jobId c d →
          ∃ q, Visits (Pool.step database (program settings)) b ms q ∧ rows jobId q.committed = [] := by
  have hinv := inv_of_visits h (Visits.of_run ha)
  obtain ⟨⟨x,hx,hxid,hqueued⟩,y,hy,hyid,hsettled⟩ := hsettles
  have hxrow : rows jobId a.committed = [x] := rows_singleton (hinv jobId).good (mem_rows.mpr ⟨hx,hxid⟩)
  have hrun : run (Pool.step database (program settings)) (start tables) (past ++ [l]) = some b :=
    run_concat_eq_some.mpr ⟨a,ha,hb⟩
  have hinvb := inv_of_visits h (Visits.of_run hrun)
  have hyrow : rows jobId b.committed = [y] := rows_singleton (hinvb jobId).good (mem_rows.mpr ⟨hy,hyid⟩)
  constructor
  · rcases committed_cases hinv hb with hsame | ⟨i,t,hl,ht,hcommit⟩
    · rw [hsame,hxrow] at hyrow
      cases hyrow
      exact absurd hqueued (isSettled_ne_queued hsettled)
    · obtain ⟨course,hc,hsees⟩ := hcommit jobId
      rw [hxrow,hyrow] at hsees
      refine ⟨i,t,hl,ht,?_⟩
      rcases commit_cases hc hsees with hsame | ⟨hworker,-⟩ | ⟨-,hnone,-⟩ | ⟨-,hnone⟩
      · cases hsame
        exact absurd hqueued (isSettled_ne_queued hsettled)
      · exact hworker
      · cases hnone
      · cases hnone
  · intro ms c m d hc _ hagain
    by_contra hkept
    have hstays {q : WorkerPool} (hq : Visits (Pool.step database (program settings)) b ms q) :
        rows jobId q.committed = [y] := by
      obtain ⟨done,hdone,hq⟩ := hq
      induction done using List.reverseRecOn generalizing q with
      | nil =>
        cases hq
        exact hyrow
      | append_singleton done m ih =>
        obtain ⟨r,hr,hstep⟩ := run_concat_eq_some.mp hq
        have hpre := (List.prefix_append done [m]).trans hdone
        have hreached : run (Pool.step database (program settings)) (start tables) (past ++ [l] ++ done) = some r := by
          rw [run_append,hrun]
          exact hr
        have hrinv := inv_of_visits h (Visits.of_run hreached)
        refine (settled_row_stays hrinv (ih hpre hr) hsettled hstep).resolve_right fun hnone => ?_
        exact hkept ⟨q,⟨done ++ [m],hdone,hq⟩,hnone⟩
    obtain ⟨⟨z,hz,hzid,hzqueued⟩,-⟩ := hagain
    have hzrow : z ∈ rows jobId c.committed := mem_rows.mpr ⟨hz,hzid⟩
    rw [hstays (Visits.of_run hc),List.mem_singleton] at hzrow
    rw [hzrow] at hzqueued
    exact isSettled_ne_queued hsettled hzqueued

/-- A worker whose job has no version: it records the failure and ends. -/
def oneRound : List QueueLabel := .begin .worker :: List.replicate 7 (.statement 0 promptly)

theorem oneRound_settles_the_job : ∃ a b,
    run (Pool.step database (program {})) (start oneQueuedJob) oneRound = some a ∧ Settles 7 a b ∧
      ∃ i t, a.transaction? i = some t ∧ t.kind = .worker := by
  have hrun : ∃ a b, run (Pool.step database (program {})) (start oneQueuedJob) oneRound = some a ∧
      a.step database (program {}) (.commit 0) = some b ∧ Settles 7 a b :=
    ⟨_,_,rfl,rfl,⟨_,List.mem_singleton_self _,rfl,rfl⟩,_,List.mem_singleton_self _,rfl,.inr rfl⟩
  obtain ⟨a,b,ha,hb,hsettles⟩ := hrun
  obtain ⟨⟨i,t,-,ht,hworker⟩,-⟩ := job_settled_once uniqueJobs_oneQueuedJob ha hb hsettles
  exact ⟨a,b,ha,hsettles,i,t,ht,hworker⟩

/-! What a worker claims -/

/-- The jobs whose rows another transaction has locked. -/
def lockedJobs (p : WorkerPool) (i : Nat) : List Nat :=
  (p.running.set i none).flatMap fun u => u.elim [] fun u => u.pending.filterMap fun w =>
    match w.lock with
    | some (.job jobId) => some jobId
    | _ => none

theorem lockedJob_iff (w : Write) :
    (match w.lock with | some (.job k) => some k | _ => none) = some jobId ↔ database.lock w = some (.job jobId) := by
  change _ ↔ w.lock = _
  cases w <;> simp [Write.lock]

theorem mem_lockedJobs : jobId ∈ lockedJobs p i ↔
    ∃ j u, j ≠ i ∧ p.transaction? j = some u ∧ u.Holds database (.job jobId) := by
  have hplace (x : Option (Transaction Statement Statement.Reply String Write Task)) :
      x ∈ p.running.set i none ∧ x.isSome ↔ ∃ j u, j ≠ i ∧ p.transaction? j = some u ∧ x = some u := by
    constructor
    · rintro ⟨hx,hsome⟩
      obtain ⟨u,rfl⟩ := Option.isSome_iff_exists.mp hsome
      obtain ⟨j,hj⟩ := List.mem_iff_getElem?.mp hx
      by_cases hji : j = i
      · subst hji
        by_cases hlt : j < p.running.length
        · simp [hlt] at hj
        · simp [hlt] at hj
      · rw [List.getElem?_set_ne (Ne.symm hji)] at hj
        exact ⟨j,u,hji,by rw [Pool.transaction?,hj]; rfl,rfl⟩
    · rintro ⟨j,u,hj,hu,rfl⟩
      refine ⟨List.mem_iff_getElem?.mpr ⟨j,?_⟩,rfl⟩
      rw [List.getElem?_set_ne (Ne.symm hj)]
      exact Pool.mem_running hu
  unfold lockedJobs
  rw [List.mem_flatMap]
  constructor
  · rintro ⟨x,hx,hjob⟩
    cases x with
    | none => cases hjob
    | some u =>
      obtain ⟨w,hw,hjob⟩ := List.mem_filterMap.mp hjob
      obtain ⟨j,v,hj,hv,huv⟩ := (hplace (some u)).mp ⟨hx,rfl⟩
      cases huv
      exact ⟨j,u,hj,hv,w,hw,(lockedJob_iff w).mp hjob⟩
  · rintro ⟨j,u,hj,hu,w,hw,hl⟩
    exact ⟨some u,((hplace (some u)).mpr ⟨j,u,hj,hu,rfl⟩).1,List.mem_filterMap.mpr ⟨w,hw,(lockedJob_iff w).mpr hl⟩⟩

/-- The job is queued and free, and no older one is. -/
def OldestFree (p : WorkerPool) (i next : Nat) : Prop :=
  ∃ job ∈ p.committed.jobs, job.id = next ∧ job.status = .queued ∧ next ∉ lockedJobs p i ∧
    ∀ other ∈ p.committed.jobs, other.status = .queued → other.createdAt < job.createdAt → other.id ∈ lockedJobs p i

theorem free_of_unlocked {next : Nat} (h : next ∉ lockedJobs p i) : p.blocked database i [.lockJob next] = false := by
  rw [← Bool.not_eq_true]
  intro hblocked
  obtain ⟨x,hx,hblocked⟩ := List.any_eq_true.mp hblocked
  cases x with
  | none => cases hblocked
  | some u =>
    obtain ⟨w,hw,hblocked⟩ := List.any_eq_true.mp hblocked
    have hlock : database.lock w = some (.job next) := by
      have hsame : (database.lock w).isSome ∧ database.lock w = database.lock (.lockJob next) := by simpa using hblocked
      exact hsame.2
    exact h (List.mem_flatMap.mpr ⟨some u,hx,List.mem_filterMap.mpr ⟨w,hw,(lockedJob_iff w).mpr hlock⟩⟩)

theorem free_of_no_writes : p.blocked database i [] = false := by
  refine List.any_eq_false.mpr fun x _ => ?_
  cases x <;> simp

theorem workerRound_begins (settings : Settings) :
    ∃ k, workerRound settings = .call .lockNextQueued k ∧ k (.ok none) = .ret () := ⟨_,rfl,rfl⟩

/-- A round that begins does not wait: it takes the oldest free job, or finds each queued job taken. -/
theorem claim_cases {around : Surroundings}
    (hi : p.transaction? i = some { kind := .worker, rest := workerRound settings })
    (hskipped : around.skipped = lockedJobs p i) :
    ∃ q t, p.step database (program settings) (.statement i around) = some q ∧ q.transaction? i = some t ∧
      ((∃ next, t.Holds database (.job next) ∧ OldestFree p i next) ∨
        (t.rest = .ret () ∧ ∀ job ∈ p.committed.jobs, job.status = .queued → job.id ∈ lockedJobs p i)) := by
  obtain ⟨k,hround,hidle⟩ := workerRound_begins settings
  rw [hround] at hi
  cases hnext : nextQueued p.committed around.skipped with
  | none =>
    have hexec : execute around p.committed () .lockNextQueued = (.ok none,[],()) := by
      simp [execute,hnext,answer]
    refine ⟨p.replace i (some { kind := .worker, rest := k (.ok none) }),_,?_,Pool.transaction?_replace_self hi _,
      .inr ⟨hidle,fun job hjob hqueued =>
        hskipped ▸ Tables.oldestQueued_eq_none (Option.map_eq_none_iff.mp hnext) job hjob hqueued⟩⟩
    have hperform : database.perform around p.committed p.shared .lockNextQueued = (.ok none,[],()) := hexec
    simp [Pool.step,hi,Pool.view,hperform,free_of_no_writes]
  | some next =>
    have hexec : execute around p.committed () .lockNextQueued = (.ok (some next),[.lockJob next],()) := by
      simp [execute,hnext,answer]
    have holdest : OldestFree p i next := by
      rw [hskipped] at hnext
      exact nextQueued_eq_some hnext
    have hfree : p.blocked database i [.lockJob next] = false := by
      obtain ⟨-,-,-,-,hunlocked,-⟩ := holdest
      exact free_of_unlocked hunlocked
    have hperform : database.perform around p.committed p.shared .lockNextQueued = (.ok (some next),[.lockJob next],()) := hexec
    refine ⟨p.replace i (some { kind := .worker, pending := [.lockJob next], rest := k (.ok (some next)) }),_,?_,
      Pool.transaction?_replace_self hi _,.inl ⟨next,⟨.lockJob next,List.mem_singleton_self _,rfl⟩,holdest⟩⟩
    simp [Pool.step,hi,Pool.view,hperform,hfree]

/-- A worker that goes down leaves its job queued and free: the next round takes that job at
once, or an older one that is free too. -/
theorem crashed_job_is_claimed {k : Nat} (h : UniqueJobs tables) (hnone : NoneRunning tables)
    (hq : Visits (Pool.step database (program settings)) (start tables) ls q) (hclaim : Claims q k jobId) :
    ∃ r, q.step database (program settings) (.rollback k) = some r ∧
      (∃ job ∈ r.committed.jobs, job.id = jobId ∧ job.status = .queued) ∧
      ∀ i around, r.transaction? i = some { kind := .worker, rest := workerRound settings } →
        around.skipped = lockedJobs r i → jobId ∉ lockedJobs r i ∧
          ∃ s t next, r.step database (program settings) (.statement i around) = some s ∧
            s.transaction? i = some t ∧ t.Holds database (.job next) ∧ OldestFree r i next := by
  have hinv := inv_of_visits h hq
  obtain ⟨t,ht,hlock,job,hjob,hid,hqueued⟩ := hclaim.holds (hinv jobId) (noneRunning_of_visits h hnone hq)
  have hrolled : q.step database (program settings) (.rollback k) = some (q.replace k none) := by
    simp [Pool.step,ht]
  refine ⟨q.replace k none,hrolled,⟨job,hjob,hid,hqueued⟩,fun i around hi hskipped => ?_⟩
  have hfree : jobId ∉ lockedJobs (q.replace k none) i := by
    intro hmem
    obtain ⟨j,u,-,hu,hheld⟩ := mem_lockedJobs.mp hmem
    by_cases hjk : j = k
    · subst hjk
      rw [Pool.transaction?_replace_self ht] at hu
      cases hu
    · rw [Pool.transaction?_replace_ne hjk] at hu
      exact hjk ((hinv jobId).exclusive hu ht hheld hlock)
  refine ⟨hfree,?_⟩
  obtain ⟨s,u,hs,hu,⟨next,hheld,holdest⟩ | ⟨-,htaken⟩⟩ := claim_cases hi hskipped
  · exact ⟨s,u,next,hs,hu,hheld,holdest⟩
  · exact absurd (hid ▸ htaken job hjob hqueued) hfree

/-- Two jobs, of which the older was committed last. -/
def twoQueuedJobs : Tables :=
  { jobs := [
      { id := 9, orgId := 1, documentId := 4, documentVersionId := none, jobType := .ingest, createdAt := 5 },
      { id := 7, orgId := 1, documentId := 3, documentVersionId := none, jobType := .ingest, createdAt := 2 }] }

/-- The older job is claimed; after a crash of its worker it is the older job that is claimed again. -/
theorem crash_of_the_first_worker :
    ∃ q r, run (Pool.step database (program {})) (start twoQueuedJobs) twoWorkers = some q ∧
      q.step database (program {}) (.rollback 0) = some r ∧
        ∃ s t, r.step database (program {}) (.statement 1 { promptly with skipped := lockedJobs r 1 }) = some s ∧
          s.transaction? 1 = some t ∧ t.Holds database (.job 7) := by
  have hunique : UniqueJobs twoQueuedJobs := by
    unfold UniqueJobs
    decide
  have hnone : NoneRunning twoQueuedJobs := by
    unfold NoneRunning
    decide
  have hrun : ∃ q, run (Pool.step database (program {})) (start twoQueuedJobs) twoWorkers = some q ∧ Claims q 0 7 ∧
      q.transaction? 1 = some { kind := .worker, rest := workerRound {} } ∧ q.committed = twoQueuedJobs :=
    ⟨_,rfl,⟨_,rfl,_,List.mem_cons_of_mem _ (List.mem_singleton_self _),rfl,rfl⟩,rfl,rfl⟩
  obtain ⟨q,hq,hclaims,hsecond,hcommitted⟩ := hrun
  obtain ⟨r,hr,-,hrest⟩ := crashed_job_is_claimed hunique hnone (Visits.of_run hq) hclaims
  obtain ⟨t,ht,-⟩ := hclaims
  have hrolled : q.replace 0 none = r := by simpa [Pool.step,ht] using hr
  have hstill : r.transaction? 1 = some { kind := .worker, rest := workerRound {} } := by
    rw [← hrolled,Pool.transaction?_replace_ne (by decide)]
    exact hsecond
  obtain ⟨hfree,s,u,next,hs,hu,hheld,job,hjob,rfl,-,-,holder⟩ :=
    hrest 1 { promptly with skipped := lockedJobs r 1 } hstill rfl
  refine ⟨q,r,hq,hr,s,u,hs,hu,?_⟩
  have hjobs : r.committed.jobs = twoQueuedJobs.jobs := by
    rw [← hrolled]
    exact congrArg Tables.jobs hcommitted
  rw [hjobs] at hjob holder
  obtain rfl | hjob := List.mem_cons.mp hjob
  · exact absurd (holder _ (List.mem_cons_of_mem _ (List.mem_singleton_self _)) rfl (by decide)) hfree
  · obtain rfl := List.mem_singleton.mp hjob
    exact hheld

end pool

end VoxForge.Knowledge.JobQueue
