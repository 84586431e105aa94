import VoxForge.Knowledge.JobStatements

/-! The course of one job through a transaction: which statements may come where, that every
program keeps to it, and what each statement does to the job's row. -/
namespace VoxForge.Knowledge.JobQueue
open Core Foundation Prog

/-- The rows of one job: none or one. -/
def rows (jobId : Nat) (tables : Tables) : List IngestJob := tables.jobs.filter (·.id = jobId)

def IsSettled (status : IngestJobStatus) : Prop := status = .completed ∨ status = .failed

/-- What a transaction has done to one job. -/
inductive Course where
  | away | locked | running | settled | inserted | finished | deleting | unreachable
  deriving DecidableEq, Repr

def Course.underway : Course → Bool
  | .running | .inserted => true
  | _ => false

/-- The job's row is there. -/
def Course.present : Course → Bool
  | .locked | .running | .settled | .inserted | .finished => true
  | _ => false

def Course.finish : Course → Course
  | .running => .settled
  | .inserted => .finished
  | c => c

section course
variable (jobId : Nat)

/-- What a write makes of the rows of one job. -/
def act (jobRows : List IngestJob) : Write → List IngestJob
  | .updateJob k update => if k = jobId then jobRows.map fun job => JobUpdate.apply job update else jobRows
  | .insertJob job => if job.id = jobId then jobRows ++ [job] else jobRows
  | .deleteJob k => if k = jobId then [] else jobRows
  | _ => jobRows

/-- The statements that may come on each course of one job. -/
def allowed (c : Course) : Statement → Prop
  | .lockNextQueued | .enqueue .. | .deleteDocument _ | .deleteCollection _ => c = .away
  | .markRunning k => k = jobId → c = .locked
  | .updateProgress k _ _ | .completeJob k | .failJob k _ => k = jobId → c.underway
  | _ => True

def after (c : Course) : (o : Statement) → Except String o.Reply → Course
  | .lockNextQueued, .ok (some k) => if k = jobId then .locked else c
  | .selectJob k, .ok none => if k = jobId ∧ c.present then .unreachable else c
  | .markRunning k, .ok _ => if k = jobId then .running else c
  | .completeJob k, .ok _ | .failJob k _, .ok _ => if k = jobId then c.finish else c
  | .enqueue .., .ok job => if job.id = jobId then .inserted else c
  | .deleteDocument _, .ok _ | .deleteCollection _, .ok _ => .deleting
  | _, _ => c

/-- A row is found under its own id, and a failure is always recorded. -/
def possible : (o : Statement) → Except String o.Reply → Prop
  | .selectJob k, r => ∃ found : Option IngestJob, r = .ok found ∧ ∀ job ∈ found, job.id = k
  | .failJob _ _, r => r = .ok ()
  | _, _ => True

def discipline : Discipline Statement Statement.Reply String Course where
  allowed c o := c = .unreachable ∨ allowed jobId c o
  possible := possible
  after c o r := if c = .unreachable then c else after jobId c o r

end course

def Becomes (P : IngestJobStatus → Prop) (a b : List IngestJob) : Prop :=
  ∃ x y, a = [x] ∧ x.status = .queued ∧ b = [y] ∧ SameTask x y ∧ P y.status

def Appears (P : IngestJobStatus → Prop) (a b : List IngestJob) : Prop :=
  a = [] ∧ ∃ y, b = [y] ∧ P y.status

/-- What is committed of one job, and what a transaction on each course sees of it. -/
def Sees : Course → List IngestJob → List IngestJob → Prop
  | .away, a, b => b = a
  | .locked, a, b => b = a ∧ ∃ x, a = [x] ∧ x.status = .queued
  | .running, a, b => Becomes (· = .running) a b
  | .settled, a, b => Becomes IsSettled a b
  | .inserted, a, b => Appears (· = .queued) a b
  | .finished, a, b => Appears IsSettled a b
  | .deleting, a, b => b = a ∨ b = []
  | .unreachable, _, _ => False

/-- The course that a program of each kind may end on. -/
def Ends (settings : Settings) : Task → Course → Prop
  | .worker, c => c = .away ∨ c = .settled
  | .upload _, c | .reindex _ _, c =>
    c = .away ∨ c = if settings.knowledgeWorkerEnabled then .inserted else .finished
  | .deleteDocument _ _, c | .deleteCollection _ _, c => c = .away ∨ c = .deleting

/-! The programs keep the discipline -/

section programs
variable {settings : Settings} {jobId : Nat} {c : Course}

/-- Nothing is asked where no run arrives. -/
theorem wp_unreachable {α : Type} (p : Work α) : wp (discipline jobId) .unreachable p fun c _ => c = .unreachable := by
  induction p with
  | ret a => rfl
  | raise e => rfl
  | call o k ih => exact ⟨.inl rfl,fun r _ => ih r⟩

/-- The statements that keep a course. -/
def Plain (jobId : Nat) (c : Course) (o : Statement) : Prop :=
  (discipline jobId).allowed c o ∧ ∀ r, (discipline jobId).after c o r = c

theorem wp_plain {α : Type} {p : Work α} (hp : Performs (Plain jobId c) p) :
    wp (discipline jobId) c p fun c' _ => c' = c :=
  wp_of_performs hp fun _ ho => ho

/-- A part that keeps the course, and what follows it. -/
theorem wp_plain_then {α β : Type} {p : Work α} {f : α → Work β} {post : Course → Except String β → Prop}
    (hp : Performs (Plain jobId c) p) (herror : ∀ e, post c (.error e))
    (hok : ∀ a, wp (discipline jobId) c (f a) post) : wp (discipline jobId) c (p >>= f) post := by
  rw [wp_bind]
  refine wp_mono (wp_plain hp) fun c' r hc => ?_
  subst hc
  cases r with
  | ok a => exact hok a
  | error e => exact herror e

theorem plain_of_after {o : Statement} (hallowed : allowed jobId c o) (hafter : ∀ r, after jobId c o r = c) :
    Plain jobId c o := by
  refine ⟨.inr hallowed,fun r => ?_⟩
  dsimp only [discipline]
  split
  · rfl
  · exact hafter r

theorem plain_progress {k pct : Nat} {stage : IngestStage} (h : k = jobId → c.underway) :
    Plain jobId c (.updateProgress k pct stage) :=
  plain_of_after h fun _ => rfl

theorem performs_upsertChunks (orgId : OrgId) (versionId : Nat) (pairs : List (RawChunk × Embedding)) (n : Nat) :
    Performs (Plain jobId c) (upsertChunks orgId versionId pairs n) := by
  induction pairs generalizing n with
  | nil => trivial
  | cons pair rest ih =>
    exact performs_bind (performs_perform (plain_of_after trivial fun _ => rfl)) fun _ =>
      performs_bind (ih (n + 1)) fun _ => trivial

theorem performs_hashChunks (chunks : List RawChunk) : Performs (Plain jobId c) (hashChunks chunks) := by
  induction chunks with
  | nil => trivial
  | cons raw rest ih =>
    exact performs_bind (performs_perform (plain_of_after trivial fun _ => rfl)) fun _ =>
      performs_bind ih fun _ => trivial

theorem performs_zipped (chunks : List RawChunk) (embeddings : List Embedding) :
    Performs (Plain jobId c) (zipped chunks embeddings) := by
  unfold zipped
  split <;> trivial

theorem performs_selectPairs (job : IngestJob) (versionId : Nat) (chunks : List RawChunk)
    (embeddings : List Embedding) : Performs (Plain jobId c) (selectPairs job versionId chunks embeddings) := by
  have hplain {o : Statement} (hallowed : allowed jobId c o) (hafter : ∀ r, after jobId c o r = c) :
      Performs (Plain jobId c) (request o) := performs_perform (plain_of_after hallowed hafter)
  unfold selectPairs
  split
  · exact performs_bind (hplain trivial fun _ => rfl) fun _ => performs_zipped chunks embeddings
  · refine performs_bind (hplain trivial fun _ => rfl) fun hashes => ?_
    refine performs_bind (performs_hashChunks chunks) fun newPairs => ?_
    dsimp only
    split
    · refine performs_bind (hplain trivial fun _ => rfl) fun _ => ?_
      exact performs_bind (performs_zipped chunks embeddings) fun _ => trivial
    · exact performs_bind (performs_zipped chunks embeddings) fun _ => trivial

/-- A body that fails has finished nothing; one that returns has finished the job. -/
theorem wp_ingest (job : IngestJob) (hjob : job.id = jobId → c.underway) :
    wp (discipline jobId) c (ingest settings job) fun c' r => c' = match r with
      | .ok _ => if job.id = jobId then c.finish else c
      | .error _ => c := by
  have hplain {o : Statement} (hallowed : allowed jobId c o) (hafter : ∀ r, after jobId c o r = c) :
      Performs (Plain jobId c) (request o) := performs_perform (plain_of_after hallowed hafter)
  have hprogress (pct : Nat) (stage : IngestStage) : Performs (Plain jobId c) (request (.updateProgress job.id pct stage)) :=
    performs_perform (plain_progress hjob)
  have hkept {o : Statement} {f : o.Reply → Work Unit} {post : Course → Except String Unit → Prop}
      (hp : Performs (Plain jobId c) (request o)) (herror : ∀ e, post c (.error e))
      (hok : ∀ a, wp (discipline jobId) c (f a) post) : wp (discipline jobId) c (request o >>= f) post :=
    wp_plain_then hp herror hok
  unfold ingest
  refine hkept (hplain trivial fun _ => rfl) (fun _ => rfl) fun document => ?_
  split
  · next document versionId hversionId =>
    refine hkept (hplain trivial fun _ => rfl) (fun _ => rfl) fun version => ?_
    split
    · rfl
    · next version =>
      refine hkept (hplain trivial fun _ => rfl) (fun _ => rfl) fun _ => ?_
      refine hkept (hprogress 10 .parsing) (fun _ => rfl) fun _ => ?_
      refine hkept (hplain trivial fun _ => rfl) (fun _ => rfl) fun parsed => ?_
      refine hkept (hprogress 30 .chunking) (fun _ => rfl) fun _ => ?_
      refine hkept (hplain trivial fun _ => rfl) (fun _ => rfl) fun collection => ?_
      refine hkept (hplain trivial fun _ => rfl) (fun _ => rfl) fun chunks => ?_
      refine hkept (hprogress 50 .embedding) (fun _ => rfl) fun _ => ?_
      refine hkept (hplain trivial fun _ => rfl) (fun _ => rfl) fun embeddings => ?_
      refine hkept (hprogress 75 .indexing) (fun _ => rfl) fun _ => ?_
      refine wp_plain_then (performs_selectPairs job versionId chunks embeddings) (fun _ => rfl) fun pairs => ?_
      refine wp_plain_then (performs_upsertChunks job.orgId versionId pairs 0) (fun _ => rfl) fun indexed => ?_
      refine hkept (hplain trivial fun _ => rfl) (fun _ => rfl) fun _ => ?_
      refine hkept (hplain trivial fun _ => rfl) (fun _ => rfl) fun _ => ?_
      refine hkept (hplain trivial fun _ => rfl) (fun _ => rfl) fun _ => ?_
      unfold request
      rw [wp_perform]
      refine ⟨.inr hjob,fun r _ => ?_⟩
      by_cases hc : c = .unreachable
      · subst hc
        cases r <;> simp [discipline,Course.finish]
      · cases r <;> simp [discipline,after,hc]
  · rfl

/-- Where a job has got to when its run is over, however it went. -/
def Over (jobId k : Nat) (c c' : Course) : Prop := c' = (if k = jobId then c.finish else c) ∨ c' = .unreachable

theorem wp_recordFailure (job : IngestJob) (e : String) (hjob : job.id = jobId → c.underway) :
    wp (discipline jobId) c (recordFailure job e) fun c' _ => Over jobId job.id c c' := by
  refine ⟨.inr hjob,fun r hr => ?_⟩
  subst hr
  by_cases hc : c = .unreachable
  · subst hc
    exact wp_mono (wp_unreachable _) fun c' r hc' => .inr hc'
  · have hover : (discipline jobId).after c (.failJob job.id e) (.ok ()) = if job.id = jobId then c.finish else c := by
      simp [discipline,after,hc]
    have hstatus : Performs (Plain jobId (if job.id = jobId then c.finish else c))
        (request (.updateDocumentStatus job.documentId job.orgId .failed)) :=
      performs_perform (plain_of_after trivial fun _ => rfl)
    dsimp only
    rw [hover]
    change wp _ _ (request (.updateDocumentStatus job.documentId job.orgId .failed) >>= fun _ => .raise e) _
    exact wp_plain_then hstatus (fun _ => .inl rfl) fun _ => .inl rfl

/-- A run of a job ends it; where it returns, the body has returned or the job was not there. -/
theorem wp_processJob (k : Nat) (hk : k = jobId → c.underway) :
    wp (discipline jobId) c (processJob settings k) fun c' _ => Over jobId k c c' := by
  refine ⟨.inr trivial,fun r hr => ?_⟩
  obtain ⟨found,rfl,hid⟩ := hr
  by_cases hc : c = .unreachable
  · subst hc
    exact wp_mono (wp_unreachable _) fun c' r hc' => .inr hc'
  · cases found with
    | none =>
      by_cases h : k = jobId
      · have hpresent : c.present := by
          have := hk h
          cases c <;> simp_all [Course.underway,Course.present]
        have hgone : (discipline jobId).after c (.selectJob k) (.ok none) = .unreachable := by
          simp [discipline,after,hc,h,hpresent]
        rw [hgone]
        exact .inr rfl
      · have hsame : (discipline jobId).after c (.selectJob k) (.ok none) = c := by
          simp [discipline,after,h]
        rw [hsame]
        exact .inl (by simp [h])
    | some job =>
      obtain rfl : job.id = k := hid job rfl
      have hsame : (discipline jobId).after c (.selectJob job.id) (.ok (some job)) = c := by
        simp [discipline,after]
      rw [hsame]
      refine (wp_tryCatch _ _ _).mpr (wp_mono (wp_ingest job hk) fun c' r hr => ?_)
      cases r with
      | ok u => exact .inl hr
      | error e =>
        obtain rfl : c' = c := hr
        exact wp_recordFailure job e hk

/-- What is claimed is running; there is nothing else that a claim can change. -/
theorem wp_claimNext : wp (discipline jobId) .away claimNext fun c r => match r with
    | .ok none => c = .away ∨ c = .unreachable
    | .ok (some job) => c = if job.id = jobId then .running else .away
    | .error _ => True := by
  refine ⟨.inr rfl,fun r _ => ?_⟩
  cases r with
  | error e => trivial
  | ok next =>
    cases next with
    | none => exact .inl rfl
    | some k =>
      have hlocked : (discipline jobId).after .away .lockNextQueued (.ok (some k)) =
          if k = jobId then .locked else .away := rfl
      dsimp only
      rw [hlocked]
      refine ⟨.inr trivial,fun r hr => ?_⟩
      obtain ⟨found,rfl,hid⟩ := hr
      cases found with
      | none =>
        by_cases h : k = jobId
        · rw [if_pos h]
          exact .inr (by simp [discipline,after,h,Course.present])
        · rw [if_neg h]
          exact .inl (by simp [discipline,after,h])
      | some model =>
        obtain rfl : model.id = k := hid model rfl
        by_cases h : model.id = jobId
        · rw [if_pos h]
          refine ⟨.inr fun _ => rfl,fun r _ => ?_⟩
          cases r with
          | error e => trivial
          | ok u =>
            change (discipline jobId).after .locked (.markRunning model.id) (.ok u) = if model.id = jobId then .running else .away
            simp [discipline,after,h]
        · rw [if_neg h]
          refine ⟨.inr fun hk => absurd hk h,fun r _ => ?_⟩
          cases r with
          | error e => trivial
          | ok u =>
            change (discipline jobId).after .away (.markRunning model.id) (.ok u) = if model.id = jobId then .running else .away
            simp [discipline,after,h]

theorem wp_workerRound : wp (discipline jobId) .away (workerRound settings) fun c r =>
    r = .ok () → Ends settings .worker c ∨ c = .unreachable := by
  unfold workerRound
  rw [wp_bind]
  refine wp_mono wp_claimNext fun c r hclaim => ?_
  match r,hclaim with
  | .error e,_ => exact fun h => by cases h
  | .ok none,hclaim => exact fun _ => hclaim.imp .inl id
  | .ok (some job),hclaim =>
    have hunderway : job.id = jobId → c.underway := by
      intro h
      rw [hclaim,if_pos h]
      rfl
    have hover {c' : Course} (h : Over jobId job.id c c') : Ends settings .worker c' ∨ c' = .unreachable := by
      refine h.imp (fun h => ?_) id
      rw [h,hclaim]
      split
      · exact .inr rfl
      · exact .inl rfl
    refine (wp_tryCatch _ _ _).mpr (wp_mono (wp_processJob job.id hunderway) fun c' r h => ?_)
    cases r with
    | ok u => exact fun _ => hover h
    | error e => exact fun _ => hover h

/-- The course on which a program of a kind returns. -/
def Returned (settings : Settings) (task : Task) (c : Course) (r : Except String Unit) : Prop :=
  r = .ok () → Ends settings task c ∨ c = .unreachable

theorem returned_error (task : Task) (e : String) : Returned settings task c (.error e) := fun h => by cases h

/-- A queued job stays queued for a worker, and is finished in the request where there is none. -/
def Submitted (settings : Settings) (c : Course) (r : Except String Unit) : Prop :=
  r = .ok () →
    (c = .away ∨ c = if settings.knowledgeWorkerEnabled then .inserted else .finished) ∨ c = .unreachable

theorem submitted_error (e : String) : Submitted settings c (.error e) := fun h => by cases h

theorem wp_enqueue (orgId : OrgId) (documentId : Nat) (jobType : IngestJobType) (versionId : Option Nat) :
    wp (discipline jobId) .away (do
      let job ← request (.enqueue orgId documentId jobType versionId)
      inlineJob settings job.id) (Submitted settings) := by
  refine ⟨.inr rfl,fun r _ => ?_⟩
  cases r with
  | error e => exact submitted_error e
  | ok job =>
    have hafter : (discipline jobId).after .away (.enqueue orgId documentId jobType versionId) (.ok job) =
        if job.id = jobId then .inserted else .away := by
      simp [discipline,after]
    change wp (discipline jobId) ((discipline jobId).after .away (.enqueue orgId documentId jobType versionId) (.ok job))
      (inlineJob settings job.id) _
    rw [hafter]
    unfold inlineJob
    by_cases henabled : settings.knowledgeWorkerEnabled = true
    · rw [if_pos henabled]
      intro _
      rw [if_pos henabled]
      split
      · exact .inl (.inr rfl)
      · exact .inl (.inl rfl)
    · rw [if_neg henabled]
      have hunderway : job.id = jobId → Course.underway (if job.id = jobId then .inserted else .away) := by
        intro h
        rw [if_pos h]
        rfl
      refine wp_mono (wp_processJob job.id hunderway) fun c' r h _ => h.imp (fun h => ?_) id
      rw [h,if_neg henabled]
      split
      · exact .inr rfl
      · exact .inl rfl

theorem wp_uploadDocument (file : Upload) :
    wp (discipline jobId) .away (uploadDocument settings file) (Submitted settings) := by
  have hplain {o : Statement} (hallowed : allowed jobId .away o) (hafter : ∀ r, after jobId .away o r = .away) :
      Performs (Plain jobId .away) (request o) := performs_perform (plain_of_after hallowed hafter)
  unfold uploadDocument
  refine wp_plain_then (hplain trivial fun _ => rfl) submitted_error fun collection => ?_
  split
  · exact submitted_error _
  · refine wp_plain_then (hplain trivial fun _ => rfl) submitted_error fun accepted => ?_
    refine wp_plain_then (hplain trivial fun _ => rfl) submitted_error fun contentHash => ?_
    refine wp_plain_then (hplain trivial fun _ => rfl) submitted_error fun document => ?_
    refine wp_plain_then (hplain trivial fun _ => rfl) submitted_error fun latest => ?_
    refine wp_plain_then (hplain trivial fun _ => rfl) submitted_error fun _ => ?_
    refine wp_plain_then (hplain trivial fun _ => rfl) submitted_error fun version => ?_
    exact wp_enqueue file.orgId document.id .ingest (some version.id)

theorem wp_reindexDocument (orgId : OrgId) (documentId : Nat) :
    wp (discipline jobId) .away (reindexDocument settings orgId documentId) (Submitted settings) := by
  have hplain {o : Statement} (hallowed : allowed jobId .away o) (hafter : ∀ r, after jobId .away o r = .away) :
      Performs (Plain jobId .away) (request o) := performs_perform (plain_of_after hallowed hafter)
  unfold reindexDocument
  refine wp_plain_then (hplain trivial fun _ => rfl) submitted_error fun document => ?_
  split
  · exact submitted_error _
  · refine wp_plain_then (hplain trivial fun _ => rfl) submitted_error fun again => ?_
    split
    · exact submitted_error _
    · refine wp_plain_then (hplain trivial fun _ => rfl) submitted_error fun version => ?_
      split
      · exact submitted_error _
      · exact wp_enqueue orgId documentId .reindex _

/-- One statement deletes the rows, and nothing follows it. -/
theorem wp_deletion {o : Statement} {f : o.Reply → Work Unit} {task : Task}
    (hplain : Plain jobId .away o)
    (hrest : ∀ a, (∃ e, f a = .raise e) ∨ (∃ k, f a = request (.deleteDocument k)) ∨
      ∃ k, f a = request (.deleteCollection k))
    (htask : Ends settings task .away ∧ Ends settings task .deleting) :
    wp (discipline jobId) .away (request o >>= f) (Returned settings task) := by
  refine wp_plain_then (performs_perform hplain) (returned_error task) fun a => ?_
  rcases hrest a with ⟨e,h⟩ | ⟨k,h⟩ | ⟨k,h⟩
  · rw [h]
    exact returned_error task e
  · rw [h]
    refine ⟨.inr rfl,fun r _ => ?_⟩
    cases r with
    | error e => exact returned_error task e
    | ok u => exact fun _ => .inl htask.2
  · rw [h]
    refine ⟨.inr rfl,fun r _ => ?_⟩
    cases r with
    | error e => exact returned_error task e
    | ok u => exact fun _ => .inl htask.2

theorem wp_program (task : Task) : wp (discipline jobId) .away (program settings task) (Returned settings task) := by
  cases task with
  | worker => exact wp_workerRound
  | upload file => exact wp_uploadDocument file
  | reindex orgId documentId => exact wp_reindexDocument orgId documentId
  | deleteDocument documentId orgId =>
    refine wp_deletion (plain_of_after trivial fun _ => rfl) (fun found => ?_) ⟨.inl rfl,.inr rfl⟩
    cases found with
    | none => exact .inl ⟨_,rfl⟩
    | some document => exact .inr (.inl ⟨document.id,rfl⟩)
  | deleteCollection collectionId orgId =>
    refine wp_deletion (plain_of_after trivial fun _ => rfl) (fun found => ?_) ⟨.inl rfl,.inr rfl⟩
    cases found with
    | none => exact .inl ⟨_,rfl⟩
    | some collection => exact .inr (.inr ⟨collection.id,rfl⟩)

end programs

/-! One statement, as one job sees it -/

section statements
variable {jobId : Nat} {c : Course} {a : List IngestJob} {around : Surroundings} {tables : Tables} {o : Statement}

theorem act_updateJob (jobRows : List IngestJob) (k : Nat) (update : JobUpdate) :
    act jobId jobRows (.updateJob k update) =
      if k = jobId then jobRows.map fun job => JobUpdate.apply job update else jobRows := rfl

theorem act_insertJob (jobRows : List IngestJob) (job : IngestJob) :
    act jobId jobRows (.insertJob job) = if job.id = jobId then jobRows ++ [job] else jobRows := rfl

theorem act_deleteJob (jobRows : List IngestJob) (k : Nat) :
    act jobId jobRows (.deleteJob k) = if k = jobId then [] else jobRows := rfl

theorem act_of_lock_ne {w : Write} (h : w.lock ≠ some (.job jobId)) (jobRows : List IngestJob) :
    act jobId jobRows w = jobRows := by
  cases w with
  | updateJob k update =>
    have hk : k ≠ jobId := fun hk => h (by rw [hk]; rfl)
    exact if_neg hk
  | insertJob job =>
    have hk : job.id ≠ jobId := fun hk => h (by rw [← hk]; rfl)
    exact if_neg hk
  | deleteJob k =>
    have hk : k ≠ jobId := fun hk => h (by rw [hk]; rfl)
    exact if_neg hk
  | _ => rfl

theorem jobUpdate_id (job : IngestJob) (update : JobUpdate) : (JobUpdate.apply job update).id = job.id := by
  cases update <;> rfl

theorem sameTask_update (job : IngestJob) (update : JobUpdate) : SameTask job (JobUpdate.apply job update) := by
  cases update <;> exact ⟨rfl,rfl,rfl,rfl,rfl⟩

theorem rows_updateJob (k : Nat) (update : JobUpdate) :
    rows jobId (tables.updateJob k fun job => JobUpdate.apply job update) = act jobId (rows jobId tables) (.updateJob k update) := by
  have hids : (fun job : IngestJob => decide (job.id = jobId)) ∘
      (fun job => if job.id = k then JobUpdate.apply job update else job) = fun job => decide (job.id = jobId) := by
    funext job
    rw [Function.comp_apply]
    split
    · rw [jobUpdate_id]
    · rfl
  rw [act_updateJob]
  unfold rows Tables.updateJob
  rw [List.filter_map,hids]
  split
  · next hk =>
    refine List.map_congr_left fun job hjob => ?_
    have hid : job.id = jobId := of_decide_eq_true (List.mem_filter.mp hjob).2
    exact if_pos (hid.trans hk.symm)
  · next hk =>
    refine (List.map_congr_left fun job hjob => ?_).trans (List.map_id _)
    have hid : job.id = jobId := of_decide_eq_true (List.mem_filter.mp hjob).2
    exact if_neg fun h => hk (h.symm.trans hid)

theorem rows_apply (w : Write) : rows jobId (Write.apply tables w) = act jobId (rows jobId tables) w := by
  cases w with
  | updateJob k update => exact rows_updateJob k update
  | insertJob job =>
    rw [act_insertJob]
    unfold rows Write.apply
    rw [List.filter_append]
    split
    · next h => simp [h]
    · next h => simp [h]
  | deleteJob k =>
    rw [act_deleteJob]
    unfold rows Write.apply
    rw [List.filter_filter]
    split
    · next h =>
      refine List.filter_eq_nil_iff.mpr fun job _ => ?_
      simp only [Bool.and_eq_true,decide_eq_true_eq,not_and]
      intro hid
      simp [hid,h]
    · next h =>
      refine List.filter_congr fun job _ => ?_
      by_cases hid : job.id = jobId
      · simp [hid,Ne.symm h]
      · simp [hid]
  | _ => rfl

theorem rows_singleton (ha : a.length ≤ 1) {job : IngestJob} (h : job ∈ a) : a = [job] := by
  obtain ⟨x,rfl⟩ := List.length_eq_one_iff.mp (Nat.le_antisymm ha (List.length_pos_of_mem h))
  rw [List.mem_singleton.mp h]

theorem getJobById_eq (k : Nat) : tables.getJobById k = (rows k tables).head? := by
  unfold rows Tables.getJobById
  rw [List.head?_filter]

theorem nextQueued_eq_some {skipped : List Nat} {k : Nat} (h : nextQueued tables skipped = some k) :
    ∃ job ∈ tables.jobs, job.id = k ∧ job.status = .queued ∧ k ∉ skipped ∧
      ∀ other ∈ tables.jobs, other.status = .queued → other.createdAt < job.createdAt → other.id ∈ skipped := by
  obtain ⟨job,hjob,rfl⟩ := Option.map_eq_some_iff.mp h
  obtain ⟨⟨hin,hqueued,hfree⟩,holder⟩ := Tables.oldestQueued_eq_some hjob
  exact ⟨job,hin,rfl,hqueued,hfree,holder⟩

theorem possible_execute : possible o (execute around tables () o).1 := by
  cases o with
  | selectJob k =>
    refine ⟨tables.getJobById k,rfl,fun job hjob => ?_⟩
    have hfound : tables.jobs.find? (fun job => decide (job.id = k)) = some job := hjob
    have hid := List.find?_some hfound
    exact of_decide_eq_true hid
  | failJob k e => rfl
  | _ => trivial

/-- A job's row is written by a statement about jobs alone. -/
theorem execute_plain (h : ∀ w ∈ (execute around tables () o).2.1, w.lock ≠ some (.job jobId)) (jobRows : List IngestJob) :
    (execute around tables () o).2.1.foldl (act jobId) jobRows = jobRows :=
  foldl_invisible (fun w hw jobRows => act_of_lock_ne (h w hw) jobRows) jobRows

/-- The courses on which a transaction has written nothing of the job. -/
def Idle (c : Course) : Prop := c = .away ∨ c = .deleting

theorem idle_execute (hallowed : (discipline jobId).allowed c o) (hidle : Idle c)
    (hfree : ∀ w ∈ (execute around tables () o).2.1, w.lock ≠ some (.job jobId)) :
    Idle ((discipline jobId).after c o (execute around tables () o).1) := by
  have hreach : c ≠ .unreachable := by
    rcases hidle with h | h <;> rw [h] <;> decide
  have habsent : c.present = false ∧ c.underway = false := by
    rcases hidle with h | h <;> rw [h] <;> decide
  have hallowed := hallowed.resolve_left hreach
  simp only [discipline,if_neg hreach]
  cases o with
  | lockNextQueued =>
    simp only [execute] at hfree ⊢
    cases hnext : nextQueued tables around.skipped with
    | none => exact hidle
    | some k =>
      rw [hnext] at hfree
      have hk : k ≠ jobId := fun hk => hfree _ (List.mem_singleton_self _) (by rw [hk]; rfl)
      simpa [answer,after,hk] using hidle
  | selectJob k =>
    simp only [execute,answer]
    cases tables.getJobById k with
    | none => simpa [after,habsent.1] using hidle
    | some job => exact hidle
  | markRunning k =>
    have hk : k ≠ jobId := by
      intro hk
      have hc : c = .locked := hallowed hk
      rcases hidle with h | h <;> rw [h] at hc <;> cases hc
    simpa [execute,answer,after,hk] using hidle
  | completeJob k =>
    have hk : k ≠ jobId := fun hk => absurd (hallowed hk) (by simp [habsent.2])
    simpa [execute,answer,after,hk] using hidle
  | failJob k e =>
    have hk : k ≠ jobId := fun hk => absurd (hallowed hk) (by simp [habsent.2])
    simpa [execute,answer,after,hk] using hidle
  | enqueue orgId documentId jobType versionId =>
    simp only [execute] at hfree ⊢
    split
    · exact hidle
    · next hfresh =>
      rw [if_neg hfresh] at hfree
      have hk : around.newId ≠ jobId := fun hk => hfree _ (List.mem_singleton_self _) (by rw [← hk]; rfl)
      simpa [answer,after,hk] using hidle
  | deleteDocument documentId => exact .inr rfl
  | deleteCollection collectionId => exact .inr rfl
  | _ => exact hidle

theorem Becomes.update {P Q : IngestJobStatus → Prop} {b : List IngestJob} (h : Becomes P a b) (update : JobUpdate)
    (hPQ : ∀ job : IngestJob, P job.status → Q (JobUpdate.apply job update).status) :
    Becomes Q a (b.map fun job => JobUpdate.apply job update) := by
  obtain ⟨x,y,ha,hx,rfl,htask,hy⟩ := h
  exact ⟨x,JobUpdate.apply y update,ha,hx,rfl,htask.trans (sameTask_update y update),hPQ y hy⟩

theorem Appears.update {P Q : IngestJobStatus → Prop} {b : List IngestJob} (h : Appears P a b) (update : JobUpdate)
    (hPQ : ∀ job : IngestJob, P job.status → Q (JobUpdate.apply job update).status) :
    Appears Q a (b.map fun job => JobUpdate.apply job update) := by
  obtain ⟨ha,y,rfl,hy⟩ := h
  exact ⟨ha,JobUpdate.apply y update,rfl,hPQ y hy⟩

/-- An update that ends a job, on each course on which it is under way. -/
theorem sees_finish {b : List IngestJob} (hc : c.underway) (h : Sees c a b) (update : JobUpdate)
    (hends : ∀ job, IsSettled (JobUpdate.apply job update).status) :
    Sees c.finish a (b.map fun job => JobUpdate.apply job update) := by
  cases c with
  | running =>
    have hrunning : Becomes (· = .running) a b := h
    exact hrunning.update update fun job _ => hends job
  | inserted =>
    have hinserted : Appears (· = .queued) a b := h
    exact hinserted.update update fun job _ => hends job
  | _ => cases hc

theorem sees_progress {b : List IngestJob} (hc : c.underway) (h : Sees c a b) (pct : Nat) (stage : IngestStage) :
    Sees c a (b.map fun job => JobUpdate.apply job (.progress pct stage)) := by
  cases c with
  | running =>
    have hrunning : Becomes (· = .running) a b := h
    exact hrunning.update (Q := (· = .running)) (.progress pct stage) fun _ hjob => hjob
  | inserted =>
    have hinserted : Appears (· = .queued) a b := h
    exact hinserted.update (Q := (· = .queued)) (.progress pct stage) fun _ hjob => hjob
  | _ => cases hc

/-- A row that is seen is found. -/
theorem ne_nil_of_present {b : List IngestJob} (hc : c.present) (h : Sees c a b) : b ≠ [] := by
  cases c with
  | locked =>
    obtain ⟨rfl,x,rfl,-⟩ := h
    simp
  | running | settled =>
    obtain ⟨x,y,-,-,rfl,-⟩ := h
    simp
  | inserted | finished =>
    obtain ⟨-,y,rfl,-⟩ := h
    simp
  | _ => cases hc

theorem lock_chunkKeys (gone : Chunk → Bool) : ∀ w ∈ chunkKeys tables gone, w.lock ≠ some (.job jobId) := by
  intro w hw
  obtain ⟨chunk,-,rfl⟩ := List.mem_map.mp hw
  exact fun h => by cases h

variable (jobId tables) in
theorem act_deletions (gone : Document → Bool) (jobRows : List IngestJob) :
    (deletions tables gone).foldl (act jobId) jobRows = jobRows ∨ (deletions tables gone).foldl (act jobId) jobRows = [] := by
  have hwrite (w : Write) (hw : w ∈ deletions tables gone) (b : List IngestJob) : act jobId b w = b ∨ act jobId b w = [] := by
    unfold deletions at hw
    rcases List.mem_append.mp hw with hw | hw
    · obtain ⟨job,-,rfl⟩ := List.mem_map.mp hw
      rw [act_deleteJob]
      split
      · exact .inr rfl
      · exact .inl rfl
    · obtain ⟨k,-,rfl⟩ := List.mem_map.mp hw
      exact .inl rfl
  generalize deletions tables gone = writes at hwrite
  induction writes generalizing jobRows with
  | nil => exact .inl rfl
  | cons w writes ih =>
    have hrest (b : List IngestJob) := ih b fun w hw => hwrite w (List.mem_cons_of_mem _ hw)
    rw [List.foldl_cons]
    rcases hwrite w List.mem_cons_self jobRows with h | h
    · rw [h]
      exact hrest jobRows
    · rw [h]
      exact .inr ((hrest []).elim id id)

/-- A statement takes what is seen of a job along its course. -/
theorem sees_execute (ha : a.length ≤ 1) (hallowed : (discipline jobId).allowed c o) (h : Sees c a (rows jobId tables)) :
    Sees ((discipline jobId).after c o (execute around tables () o).1) a
      ((execute around tables () o).2.1.foldl (act jobId) (rows jobId tables)) := by
  by_cases hreach : c = .unreachable
  · subst hreach
    exact h.elim
  have hallowed := hallowed.resolve_left hreach
  simp only [discipline,if_neg hreach]
  have hplain (hwrites : ∀ w ∈ (execute around tables () o).2.1, w.lock ≠ some (.job jobId))
      (hafter : after jobId c o (execute around tables () o).1 = c) :
      Sees (after jobId c o (execute around tables () o).1) a
        ((execute around tables () o).2.1.foldl (act jobId) (rows jobId tables)) := by
    rw [execute_plain hwrites,hafter]
    exact h
  cases o with
  | lockNextQueued =>
    have haway : c = .away := hallowed
    subst haway
    have hsame : rows jobId tables = a := h
    simp only [execute]
    cases hnext : nextQueued tables around.skipped with
    | none => exact h
    | some k =>
      by_cases hk : k = jobId
      · subst hk
        obtain ⟨job,hjob,hid,hqueued,-⟩ := nextQueued_eq_some hnext
        have hrow : job ∈ rows k tables := List.mem_filter.mpr ⟨hjob,decide_eq_true hid⟩
        simp only [answer,after]
        exact ⟨hsame,job,rows_singleton ha (hsame ▸ hrow),hqueued⟩
      · simp only [answer,after,if_neg hk]
        exact h
  | selectJob k =>
    cases hfound : tables.getJobById k with
    | some job =>
      refine hplain (by simp [execute,answer]) ?_
      simp [execute,answer,hfound,after]
    | none =>
      by_cases hk : k = jobId ∧ c.present
      · obtain ⟨rfl,hpresent⟩ := hk
        rw [getJobById_eq,List.head?_eq_none_iff] at hfound
        exact absurd hfound (ne_nil_of_present hpresent h)
      · refine hplain (by simp [execute,answer]) ?_
        simp only [execute,answer,hfound,after]
        exact if_neg hk
  | markRunning k =>
    by_cases hk : k = jobId
    · subst hk
      have hc : c = .locked := hallowed rfl
      subst hc
      obtain ⟨hsame,x,rfl,hx⟩ := h
      simp only [execute,answer,after,List.foldl_cons,List.foldl_nil,act_updateJob,if_true,hsame]
      exact ⟨x,_,rfl,hx,rfl,sameTask_update x .start,rfl⟩
    · exact hplain (by simp [execute,answer,Write.lock,hk]) (if_neg hk)
  | updateProgress k pct stage =>
    by_cases hk : k = jobId
    · subst hk
      simp only [execute,answer,after,List.foldl_cons,List.foldl_nil,act_updateJob,if_true]
      exact sees_progress (hallowed rfl) h pct stage
    · exact hplain (by simp [execute,answer,Write.lock,hk]) rfl
  | completeJob k =>
    by_cases hk : k = jobId
    · subst hk
      simp only [execute,answer,after,List.foldl_cons,List.foldl_nil,act_updateJob,if_true]
      exact sees_finish (hallowed rfl) h .complete fun _ => .inl rfl
    · exact hplain (by simp [execute,answer,Write.lock,hk]) (if_neg hk)
  | failJob k e =>
    by_cases hk : k = jobId
    · subst hk
      simp only [execute,answer,after,List.foldl_cons,List.foldl_nil,act_updateJob,if_true]
      exact sees_finish (hallowed rfl) h (.fail e) fun _ => .inr rfl
    · exact hplain (by simp [execute,answer,Write.lock,hk]) (if_neg hk)
  | enqueue orgId documentId jobType versionId =>
    have haway : c = .away := hallowed
    subst haway
    have hsame : rows jobId tables = a := h
    simp only [execute]
    split
    · exact h
    · next hfresh =>
      by_cases hk : around.newId = jobId
      · have hnone : rows jobId tables = [] := by
          rw [getJobById_eq,hk] at hfresh
          simpa using hfresh
        simp only [answer,after,List.foldl_cons,List.foldl_nil,act_insertJob,if_pos hk,hnone,List.nil_append]
        exact ⟨hsame.symm.trans hnone,_,rfl,rfl⟩
      · simp only [answer,after,List.foldl_cons,List.foldl_nil,act_insertJob,if_neg hk]
        exact h
  | deleteDocument documentId =>
    have haway : c = .away := hallowed
    subst haway
    have hsame : rows jobId tables = a := h
    have hdeleted := act_deletions jobId tables (·.id = documentId) a
    simp only [execute,answer,after,hsame]
    exact hdeleted
  | deleteCollection collectionId =>
    have haway : c = .away := hallowed
    subst haway
    have hsame : rows jobId tables = a := h
    have hdeleted := act_deletions jobId tables (·.collectionId = collectionId) a
    simp only [execute,answer,after,hsame,List.foldl_append,List.foldl_cons,List.foldl_nil]
    exact hdeleted
  | insertChunk n orgId versionId raw embedding =>
    refine hplain ?_ rfl
    simp only [execute]
    split
    · simp
    · split <;> simp [answer,Write.lock]
  | createVersion documentId versionNumber contentHash blobPath filename =>
    refine hplain ?_ rfl
    simp only [execute]
    split <;> simp [answer,Write.lock]
  | deleteByVersion versionId => exact hplain (lock_chunkKeys _) rfl
  | deleteChunksByIndices versionId chunkIndices => exact hplain (lock_chunkKeys _) rfl
  | _ => exact hplain (by simp [execute,answer,served,Write.lock]) rfl

end statements

end VoxForge.Knowledge.JobQueue
