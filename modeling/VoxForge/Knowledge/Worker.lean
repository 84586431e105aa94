import VoxForge.Foundation.Runs
import VoxForge.Knowledge.Publication

/-! Uploads, reindex requests and the worker: which transactions they commit, and which rows
fit together whatever order they come in. -/
namespace VoxForge.Knowledge
open Core Foundation

/-- What an upload calls before it stores anything, and the blob store. -/
structure UploadServices where
  safeUploadFilename : String → String
  detectSourceType : String → Option String → Except String SourceType
  normalizeText : String → String
  blobPut : String → ByteArray → Except String Unit
  knowledgeMaxUploadBytes : Nat := 52428800

structure Upload where
  orgId : OrgId
  collectionId : Nat
  filename : String
  content : ByteArray
  title : Option String := none
  contentType : Option String := none

def Tables.createCollection (tables : Tables) (orgId : OrgId) (chunkingConfig : ChunkingConfig) : Tables :=
  { tables with
    collections := tables.collections ++ [{ id := tables.nextId, orgId, chunkingConfig }]
    nextId := tables.nextId + 1 }

def nextVersionNumber (currentMax : Option Nat) : Nat := currentMax.elim 1 (· + 1)

section requests
variable (settings : Settings) (services : Services)

def parseUpload (upload : UploadServices) (request : Upload) : Except String (String × SourceType × ParsedDocument) := do
  let filename := upload.safeUploadFilename request.filename
  let maxBytes := upload.knowledgeMaxUploadBytes
  if request.content.size > maxBytes then
    throw s!"File exceeds maximum upload size of {maxBytes} bytes"
  let sourceType ← upload.detectSourceType filename request.contentType
  let parsed ← services.parse sourceType request.content filename
  return (filename,sourceType,parsed)

/-- `upload_document` up to its job, which it enqueues: the document and the job. -/
def acceptUpload (upload : UploadServices) (request : Upload) (tables : Tables) :
    Except String (Document × IngestJob) × Tables :=
  match tables.getCollection request.collectionId request.orgId with
  | none => (.error "Collection not found",tables)
  | some _ =>
    match parseUpload services upload request with
    | .error e => (.error e,tables)
    | .ok (filename,sourceType,parsed) =>
      let orgId := request.orgId
      let contentHash := services.sha256 (upload.normalizeText parsed.text)
      let title := if request.title.getD "" = "" then parsed.title else request.title.getD ""
      let (document,tables) := tables.createDocument orgId request.collectionId title sourceType contentHash
      let documentId := document.id
      let versionNumber := nextVersionNumber (tables.getLatestVersionNumber documentId)
      let blobKey := s!"{orgId}/{documentId}/v{versionNumber}/{filename}"
      match upload.blobPut blobKey request.content with
      | .error e => (.error e,tables)
      | .ok () =>
        let (version,tables) := tables.createVersion documentId versionNumber contentHash blobKey filename
        let (job,tables) := tables.enqueue orgId documentId .ingest (some version.id)
        (.ok (document,job),tables)

/-- `reindex_document` up to its job, which it enqueues. -/
def acceptReindex (orgId : OrgId) (documentId : Nat) (tables : Tables) : Except String IngestJob × Tables :=
  match tables.getDocument documentId orgId with
  | none => (.error "Document not found",tables)
  | some _ =>
    match tables.getActiveVersion documentId orgId with
    | none => (.error "No active version to reindex",tables)
    | some version =>
      let (job,tables) := tables.enqueue orgId documentId .reindex (some version.id)
      (.ok job,tables)

/-- A request's job, which the request itself runs where no worker is enabled. -/
def inline (jobId : Nat) (tables : Tables) : Except String Unit × Tables :=
  if settings.knowledgeWorkerEnabled then (.ok (),tables) else processJob services settings jobId tables

def uploadDocument (upload : UploadServices) (request : Upload) (tables : Tables) :
    Except String (Nat × Nat) × Tables :=
  match acceptUpload services upload request tables with
  | (.error e,tables) => (.error e,tables)
  | (.ok (document,job),tables) =>
    let (result,tables) := inline settings services job.id tables
    (result.map fun _ => (document.id,job.id),tables)

def reindexDocument (orgId : OrgId) (documentId : Nat) (tables : Tables) : Except String IngestJob × Tables :=
  match acceptReindex orgId documentId tables with
  | (.error e,tables) => (.error e,tables)
  | (.ok job,tables) =>
    let (result,tables) := inline settings services job.id tables
    (result.map fun _ => job,tables)

/-- One round of `run_worker`: the job is claimed and run, whether or not it fails. -/
def work (tables : Tables) : Tables :=
  match tables.claimNext with
  | none => tables
  | some (job,tables) => (processJob services settings job.id tables).2

end requests

/-- Requests and rounds of the worker. -/
inductive Event where
  | createCollection (orgId : OrgId) (chunkingConfig : ChunkingConfig)
  | upload (upload : UploadServices) (services : Services) (request : Upload)
  | reindex (services : Services) (orgId : OrgId) (documentId : Nat)
  | work (services : Services)

/-- A request commits when it returns; an exception rolls it back. -/
def commitOnReturn {α : Type} (before : Tables) : Except String α × Tables → Tables
  | (.ok _,after) => after
  | (.error _,_) => before

def step (settings : Settings) (tables : Tables) : Event → Option Tables
  | .createCollection orgId chunkingConfig => some (tables.createCollection orgId chunkingConfig)
  | .upload upload services request =>
    some (commitOnReturn tables (uploadDocument settings services upload request tables))
  | .reindex services orgId documentId =>
    some (commitOnReturn tables (reindexDocument settings services orgId documentId tables))
  | .work services => some (work settings services tables)

/-- The job that an event runs: its id, and the services and tables it runs with. -/
def runs (settings : Settings) (tables : Tables) : Event → Option (Services × Nat × Tables)
  | .createCollection _ _ => none
  | .upload upload services request =>
    if settings.knowledgeWorkerEnabled then none
    else match acceptUpload services upload request tables with
      | (.error _,_) => none
      | (.ok (_,job),tables) => some (services,job.id,tables)
  | .reindex services orgId documentId =>
    if settings.knowledgeWorkerEnabled then none
    else match acceptReindex orgId documentId tables with
      | (.error _,_) => none
      | (.ok job,tables) => some (services,job.id,tables)
  | .work services => tables.claimNext.map fun (job,tables) => (services,job.id,tables)

/-- Rows that fit together: ids are used once, an active version is one of its document, and
a job's version is one of its document. -/
structure Wf (tables : Tables) : Prop where
  documentIds : (tables.documents.map (·.id)).Nodup
  versionIds : (tables.versions.map (·.id)).Nodup
  documents : ∀ d ∈ tables.documents, d.id < tables.nextId
  versions : ∀ v ∈ tables.versions, v.id < tables.nextId ∧ v.documentId < tables.nextId
  jobs : ∀ j ∈ tables.jobs, j.id < tables.nextId
  active : ∀ d ∈ tables.documents, ∀ versionId ∈ d.activeVersionId,
    ∃ v, tables.getVersion versionId = some v ∧ v.documentId = d.id
  tasks : ∀ j ∈ tables.jobs, ∀ versionId ∈ j.documentVersionId,
    ∃ v, tables.getVersion versionId = some v ∧ v.documentId = j.documentId

/-- What a run of a job does before it publishes a version, and where it fails. -/
structure Processing (a b : Tables) : Prop where
  collections : b.collections = a.collections
  documents : ∃ f : Document → Document, b.documents = a.documents.map f ∧ ∀ d, ∃ status, f d = { d with status }
  versions : b.versions = a.versions
  jobs : ∃ f : IngestJob → IngestJob, b.jobs = a.jobs.map f ∧ ∀ j, SameTask j (f j)
  nextId : a.nextId ≤ b.nextId

namespace Processing

theorem same {a b : Tables} (h : ChunksOnly a b) (hnext : a.nextId ≤ b.nextId) : Processing a b :=
  ⟨h.collections,⟨id,by rw [h.documents,List.map_id],fun d => ⟨d.status,rfl⟩⟩,h.versions,
    ⟨id,by rw [h.jobs,List.map_id],fun j => .refl j⟩,hnext⟩

theorem refl (a : Tables) : Processing a a := same (.refl a) (Nat.le_refl _)

theorem trans {a b c : Tables} (h : Processing a b) (k : Processing b c) : Processing a c := by
  obtain ⟨f,hf,hfs⟩ := h.documents
  obtain ⟨g,hg,hgs⟩ := k.documents
  obtain ⟨p,hp,hps⟩ := h.jobs
  obtain ⟨q,hq,hqs⟩ := k.jobs
  refine ⟨k.collections.trans h.collections,⟨g ∘ f,by rw [hg,hf,List.map_map],fun d => ?_⟩,k.versions.trans h.versions,
    ⟨q ∘ p,by rw [hq,hp,List.map_map],fun j => (hps j).trans (hqs (p j))⟩,h.nextId.trans k.nextId⟩
  obtain ⟨s,hs⟩ := hfs d
  obtain ⟨t,ht⟩ := hgs (f d)
  refine ⟨t,?_⟩
  rw [Function.comp_apply,ht,hs]

theorem status (a : Tables) (documentId : Nat) (orgId : OrgId) (status : DocumentStatus) :
    Processing a (a.updateDocumentStatus documentId orgId status) := by
  refine ⟨rfl,⟨_,rfl,fun d => ?_⟩,rfl,⟨id,(List.map_id _).symm,fun j => .refl j⟩,Nat.le_refl _⟩
  split
  · exact ⟨status,rfl⟩
  · exact ⟨d.status,rfl⟩

theorem job (a : Tables) (jobId : Nat) (f : IngestJob → IngestJob) (hf : ∀ j, SameTask j (f j)) :
    Processing a (a.updateJob jobId f) := by
  refine ⟨rfl,⟨id,(List.map_id _).symm,fun d => ⟨d.status,rfl⟩⟩,rfl,⟨_,rfl,fun j => ?_⟩,Nat.le_refl _⟩
  split
  · exact hf j
  · exact .refl j

theorem progress (a : Tables) (jobId progressPct : Nat) (stage : IngestStage) :
    Processing a (a.updateProgress jobId progressPct stage) := job a jobId _ fun _ => ⟨rfl,rfl,rfl,rfl,rfl⟩

end Processing

section processing
variable {settings : Settings} {services : Services} {job : IngestJob} {versionId : Nat} {chunks : List RawChunk}
  {embeddings : List Embedding} {tables after : Tables} {e : String}

theorem insertChunk_nextId (tables : Tables) (orgId : OrgId) (raw : RawChunk) (embedding : Embedding) :
    tables.nextId ≤ (tables.insertChunk services.sha256 orgId versionId raw embedding).2.nextId := by
  unfold Tables.insertChunk
  split
  · exact Nat.le_refl _
  · exact Nat.le_succ _

theorem upsertChunks_nextId (services : Services) (orgId : OrgId) (pairs : List (RawChunk × Embedding)) (n : Nat) (tables : Tables) :
    tables.nextId ≤ (upsertChunks services orgId versionId pairs n tables).2.nextId := by
  induction pairs generalizing n tables with
  | nil => exact Nat.le_refl _
  | cons pair rest ih =>
    obtain ⟨raw,embedding⟩ := pair
    unfold upsertChunks
    split
    · exact Nat.le_refl _
    · exact (insertChunk_nextId tables orgId raw embedding).trans (ih _ _)

theorem upsertChunks_processing (services : Services) (orgId : OrgId) (versionId : Nat) (pairs : List (RawChunk × Embedding))
    (n : Nat) (tables : Tables) : Processing tables (upsertChunks services orgId versionId pairs n tables).2 :=
  .same (upsertChunks_chunksOnly services orgId versionId pairs n tables) (upsertChunks_nextId services orgId pairs n tables)

theorem selectPairs_processing (services : Services) (job : IngestJob) (versionId : Nat) (chunks : List RawChunk)
    (embeddings : List Embedding) (tables : Tables) :
    Processing tables (selectPairs services job versionId chunks embeddings tables).2 := by
  have hdeleted (chunks : List Chunk) : Processing tables { tables with chunks } :=
    .same ⟨rfl,rfl,rfl,rfl⟩ (Nat.le_refl _)
  unfold selectPairs
  split
  · exact hdeleted _
  · dsimp only
    split
    · exact hdeleted _
    · exact .refl tables

theorem indexChunks_error (h : indexChunks services job versionId chunks embeddings tables = (.error e,after)) :
    Processing tables after := by
  have hselected := selectPairs_processing services job versionId chunks embeddings tables
  unfold indexChunks at h
  split at h
  · next middle hselect =>
    rw [hselect] at hselected
    cases h
    exact hselected
  · next pairs middle hselect =>
    rw [hselect] at hselected
    split at h
    · next stored hupsert =>
      have hstored := upsertChunks_processing services job.orgId versionId pairs 0 middle
      rw [hupsert] at hstored
      cases h
      exact hselected.trans hstored
    · cases h

/-- A run that fails has published nothing. -/
theorem ingest_error (h : ingest services settings job tables = (.error e,after)) : Processing tables after := by
  have hparsing := (Processing.status tables job.documentId job.orgId .processing).trans (.progress _ job.id 10 .parsing)
  have hchunking := hparsing.trans (.progress _ job.id 30 .chunking)
  have hembedding := hchunking.trans (.progress _ job.id 50 .embedding)
  have hindexing := hembedding.trans (.progress _ job.id 75 .indexing)
  unfold ingest at h
  split at h
  · next document version hdocument hversion =>
    split at h
    · cases h
      exact .refl tables
    · dsimp only at h
      split at h
      · cases h
        exact hparsing
      · split at h
        · cases h
          exact hchunking
        · split at h
          · cases h
            exact hembedding
          · exact hindexing.trans (indexChunks_error h)
  · cases h
    exact .refl tables

/-- A job that fails has published nothing, and its document is marked. -/
theorem processJob_error {jobId : Nat} (h : processJob services settings jobId tables = (.error e,after)) :
    ∃ job middle, tables.getJobById jobId = some job ∧ Processing tables middle ∧
      after = middle.updateDocumentStatus job.documentId job.orgId .failed := by
  unfold processJob at h
  split at h
  · cases h
  · next job hjob =>
    split at h
    · cases h
    · next error failed hfailed =>
      cases h
      have hmarked : Processing failed (failed.failJob jobId e) := .job failed jobId _ fun _ => ⟨rfl,rfl,rfl,rfl,rfl⟩
      exact ⟨job,_,hjob,(ingest_error hfailed).trans hmarked,rfl⟩

/-- A job that returns has published its version. -/
theorem processJob_published {jobId : Nat} (hjob : tables.getJobById jobId = some job)
    (h : processJob services settings jobId tables = (.ok (),after)) :
    ∃ versionId indexed stored, job.documentVersionId = some versionId ∧ Processing tables stored ∧
      after = published job versionId indexed stored := by
  obtain ⟨versionId,chunks,embeddings,hprepared,hindexed⟩ := ingest_ok (processJob_ok hjob h)
  obtain ⟨pairs,indexed,middle,stored,hselect,hupsert,rfl⟩ := indexChunks_ok hindexed
  have hbegun : Processing tables (begun job tables) :=
    ((((Processing.status tables job.documentId job.orgId .processing).trans (.progress _ job.id 10 .parsing)).trans
      (.progress _ job.id 30 .chunking)).trans (.progress _ job.id 50 .embedding)).trans (.progress _ job.id 75 .indexing)
  have hselected := selectPairs_processing services job versionId chunks embeddings (begun job tables)
  have hstored := upsertChunks_processing services job.orgId versionId pairs 0 middle
  rw [hselect] at hselected
  rw [hupsert] at hstored
  exact ⟨versionId,indexed,stored,hprepared.version,(hbegun.trans hselected).trans hstored,rfl⟩

end processing

section wf
variable {tables after : Tables}

def VersionOf (tables : Tables) (documentId versionId : Nat) : Prop :=
  ∃ v, tables.getVersion versionId = some v ∧ v.documentId = documentId

theorem Processing.versionOf (h : Processing tables after) {documentId versionId : Nat} :
    VersionOf after documentId versionId ↔ VersionOf tables documentId versionId := by
  unfold VersionOf Tables.getVersion
  rw [h.versions]

/-- A document is found where it was, apart from its status. -/
theorem Processing.getDocument (h : Processing tables after) (documentId : Nat) (orgId : OrgId) :
    ∃ f : Document → Document, after.getDocument documentId orgId = (tables.getDocument documentId orgId).map f ∧
      ∀ d, ∃ status, f d = { d with status } := by
  obtain ⟨f,hf,hfs⟩ := h.documents
  refine ⟨f,?_,hfs⟩
  have hsame : (fun d => decide (d.id = documentId) && decide (d.orgId = orgId)) ∘ f =
      fun d : Document => decide (d.id = documentId) && decide (d.orgId = orgId) := by
    funext d
    obtain ⟨status,hd⟩ := hfs d
    rw [Function.comp_apply,hd]
  unfold Tables.getDocument
  rw [hf,List.find?_map,hsame]

theorem Processing.wf (hp : Processing tables after) (h : Wf tables) : Wf after := by
  obtain ⟨f,hf,hfs⟩ := hp.documents
  obtain ⟨g,hg,hgs⟩ := hp.jobs
  have hid (d : Document) : (f d).id = d.id ∧ (f d).activeVersionId = d.activeVersionId := by
    obtain ⟨status,hd⟩ := hfs d
    rw [hd]
    exact ⟨rfl,rfl⟩
  refine ⟨?_,hp.versions ▸ h.versionIds,?_,?_,?_,?_,?_⟩
  · rw [hf,List.map_map]
    have hids : (·.id) ∘ f = fun d : Document => d.id := by
      funext d
      exact (hid d).1
    rw [hids]
    exact h.documentIds
  · intro d hd
    rw [hf] at hd
    obtain ⟨c,hc,rfl⟩ := List.mem_map.mp hd
    rw [(hid c).1]
    exact (h.documents c hc).trans_le hp.nextId
  · intro v hv
    rw [hp.versions] at hv
    obtain ⟨hid,hdocument⟩ := h.versions v hv
    exact ⟨hid.trans_le hp.nextId,hdocument.trans_le hp.nextId⟩
  · intro j hj
    rw [hg] at hj
    obtain ⟨i,hi,rfl⟩ := List.mem_map.mp hj
    rw [(hgs i).id]
    exact (h.jobs i hi).trans_le hp.nextId
  · intro d hd versionId hversion
    rw [hf] at hd
    obtain ⟨c,hc,rfl⟩ := List.mem_map.mp hd
    rw [(hid c).2] at hversion
    rw [(hid c).1]
    exact hp.versionOf.mpr (h.active c hc versionId hversion)
  · intro j hj versionId hversion
    rw [hg] at hj
    obtain ⟨i,hi,rfl⟩ := List.mem_map.mp hj
    rw [(hgs i).documentVersionId] at hversion
    rw [(hgs i).documentId]
    exact hp.versionOf.mpr (h.tasks i hi versionId hversion)

theorem versionOf_count (counted count : Nat) {documentId versionId : Nat} :
    VersionOf (tables.updateVersionChunkCount counted count) documentId versionId ↔
      VersionOf tables documentId versionId := by
  have hfind := find?_update (p := fun v => v.id = counted) (q := fun v => v.id = versionId)
    (f := fun v : DocumentVersion => { v with chunkCount := count }) (fun _ _ => rfl) tables.versions
  simp only [decide_eq_true_eq] at hfind
  have hget : (tables.updateVersionChunkCount counted count).getVersion versionId =
      (tables.getVersion versionId).map fun v => if v.id = counted then { v with chunkCount := count } else v := hfind
  unfold VersionOf
  rw [hget]
  constructor
  · rintro ⟨v,hv,rfl⟩
    obtain ⟨w,hw,rfl⟩ := Option.map_eq_some_iff.mp hv
    refine ⟨w,hw,?_⟩
    split <;> rfl
  · rintro ⟨v,hv,rfl⟩
    refine ⟨_,Option.map_eq_some_iff.mpr ⟨v,hv,rfl⟩,?_⟩
    split <;> rfl

theorem count_wf (h : Wf tables) (versionId count : Nat) : Wf (tables.updateVersionChunkCount versionId count) := by
  refine ⟨h.documentIds,?_,h.documents,?_,h.jobs,?_,?_⟩
  · have hids : (tables.updateVersionChunkCount versionId count).versions.map (·.id) = tables.versions.map (·.id) := by
      unfold Tables.updateVersionChunkCount
      rw [List.map_map]
      apply List.map_congr_left
      intro v _
      dsimp only [Function.comp_apply]
      split <;> rfl
    rw [hids]
    exact h.versionIds
  · intro v hv
    obtain ⟨w,hw,rfl⟩ := List.mem_map.mp hv
    have hbound := h.versions w hw
    split <;> exact hbound
  · intro d hd versionId' hversion
    exact (versionOf_count versionId count).mpr (h.active d hd versionId' hversion)
  · intro j hj versionId' hversion
    exact (versionOf_count versionId count).mpr (h.tasks j hj versionId' hversion)

theorem setActiveVersion_wf (h : Wf tables) {documentId versionId : Nat} (orgId : OrgId)
    (hversion : VersionOf tables documentId versionId) : Wf (tables.setActiveVersion documentId orgId versionId) := by
  have hid (d : Document) : (if (d.id = documentId && d.orgId = orgId) = true then
      { d with activeVersionId := some versionId } else d).id = d.id := by split <;> rfl
  refine ⟨?_,h.versionIds,?_,h.versions,h.jobs,?_,h.tasks⟩
  · have hids : (tables.setActiveVersion documentId orgId versionId).documents.map (·.id) =
        tables.documents.map (·.id) := by
      unfold Tables.setActiveVersion Tables.updateDocument
      rw [List.map_map]
      exact List.map_congr_left fun d _ => hid d
    rw [hids]
    exact h.documentIds
  · intro d hd
    obtain ⟨c,hc,rfl⟩ := List.mem_map.mp hd
    rw [hid c]
    exact h.documents c hc
  · intro d hd versionId' hactive
    obtain ⟨c,hc,rfl⟩ := List.mem_map.mp hd
    rw [hid c]
    split at hactive
    · next hsame =>
      obtain rfl := Option.some.inj hactive
      have hdocument : c.id = documentId := by
        simp only [Bool.and_eq_true,decide_eq_true_eq] at hsame
        exact hsame.1
      rw [hdocument]
      exact hversion
    · exact h.active c hc versionId' hactive

theorem published_wf (h : Wf tables) {job : IngestJob} {versionId : Nat} (indexed : Nat)
    (hversion : VersionOf tables job.documentId versionId) : Wf (published job versionId indexed tables) := by
  have hactive := setActiveVersion_wf (count_wf h versionId indexed) job.orgId
    ((versionOf_count versionId indexed).mpr hversion)
  have hready := (Processing.status _ job.documentId job.orgId .ready).wf hactive
  have hcompleted : Processing _ (published job versionId indexed tables) :=
    .job _ job.id _ fun _ => ⟨rfl,rfl,rfl,rfl,rfl⟩
  exact hcompleted.wf hready

/-- A run of a job keeps the rows together, whether or not it fails. -/
theorem processJob_wf (settings : Settings) (services : Services) (jobId : Nat) (h : Wf tables) :
    Wf (processJob services settings jobId tables).2 := by
  cases hjob : tables.getJobById jobId with
  | none =>
    unfold processJob
    rw [hjob]
    exact h
  | some job =>
    cases hrun : processJob services settings jobId tables with
    | mk result after =>
      cases result with
      | error e =>
        obtain ⟨job,middle,-,hprocessing,rfl⟩ := processJob_error hrun
        exact (hprocessing.trans (.status middle _ _ _)).wf h
      | ok u =>
        obtain ⟨versionId,indexed,stored,hversion,hprocessing,rfl⟩ := processJob_published hjob hrun
        have htask := h.tasks job (List.mem_of_find?_eq_some hjob) versionId hversion
        exact published_wf (hprocessing.wf h) indexed (hprocessing.versionOf.mpr htask)

theorem enqueue_wf (h : Wf tables) (orgId : OrgId) (documentId : Nat) (jobType : IngestJobType) {versionId : Nat}
    (hversion : VersionOf tables documentId versionId) :
    Wf (tables.enqueue orgId documentId jobType (some versionId)).2 := by
  refine ⟨h.documentIds,h.versionIds,fun d hd => (h.documents d hd).trans (Nat.lt_succ_self _),?_,?_,h.active,?_⟩
  · intro v hv
    exact ⟨(h.versions v hv).1.trans (Nat.lt_succ_self _),(h.versions v hv).2.trans (Nat.lt_succ_self _)⟩
  · intro j hj
    rcases List.mem_append.mp hj with hj | hj
    · exact (h.jobs j hj).trans (Nat.lt_succ_self _)
    · rw [List.mem_singleton.mp hj]
      exact Nat.lt_succ_self _
  · intro j hj versionId' hversion'
    rcases List.mem_append.mp hj with hj | hj
    · exact h.tasks j hj versionId' hversion'
    · rw [List.mem_singleton.mp hj] at hversion' ⊢
      obtain rfl := Option.some.inj hversion'
      exact hversion

/-- An accepted reindex request: the document, its active version and the job. -/
theorem acceptReindex_ok {orgId : OrgId} {documentId : Nat} {job : IngestJob}
    (h : acceptReindex orgId documentId tables = (.ok job,after)) :
    ∃ document version, tables.getDocument documentId orgId = some document ∧
      tables.getActiveVersion documentId orgId = some version ∧
      (job,after) = tables.enqueue orgId documentId .reindex (some version.id) := by
  unfold acceptReindex at h
  split at h
  · cases h
  · next document hdocument =>
    split at h
    · cases h
    · next version hversion =>
      cases h
      exact ⟨document,version,hdocument,hversion,rfl⟩

theorem getActiveVersion_versionOf (h : Wf tables) {orgId : OrgId} {documentId : Nat} {version : DocumentVersion}
    (hversion : tables.getActiveVersion documentId orgId = some version) : VersionOf tables documentId version.id := by
  obtain ⟨document,hdocument,hactive⟩ := Option.bind_eq_some_iff.mp hversion
  obtain ⟨versionId,hversionId,hget⟩ := Option.bind_eq_some_iff.mp hactive
  have hid : document.id = documentId ∧ document.orgId = orgId := by simpa using List.find?_some hdocument
  obtain ⟨v,hv,hof⟩ := h.active document (List.mem_of_find?_eq_some hdocument) versionId hversionId
  have hsame : version.id = versionId := by simpa using List.find?_some hget
  rw [hsame]
  exact ⟨v,hv,hof.trans hid.1⟩

theorem acceptReindex_wf (h : Wf tables) (orgId : OrgId) (documentId : Nat) :
    Wf (acceptReindex orgId documentId tables).2 := by
  cases hrequest : acceptReindex orgId documentId tables with
  | mk result after =>
    cases result with
    | error e =>
      unfold acceptReindex at hrequest
      split at hrequest
      · cases hrequest
        exact h
      · split at hrequest
        · cases hrequest
          exact h
        · cases hrequest
    | ok job =>
      obtain ⟨document,version,-,hversion,heq⟩ := acceptReindex_ok hrequest
      rw [(Prod.mk.inj heq).2]
      exact enqueue_wf h orgId documentId .reindex (getActiveVersion_versionOf h hversion)

theorem createDocument_wf (h : Wf tables) (orgId : OrgId) (collectionId : Nat) (title : String)
    (sourceType : SourceType) (contentHash : String) :
    Wf (tables.createDocument orgId collectionId title sourceType contentHash).2 := by
  refine ⟨?_,h.versionIds,?_,?_,fun j hj => (h.jobs j hj).trans (Nat.lt_succ_self _),?_,h.tasks⟩
  · unfold Tables.createDocument
    rw [List.map_append,List.nodup_append]
    refine ⟨h.documentIds,List.nodup_singleton _,?_⟩
    intro a ha b hb heq
    obtain ⟨d,hd,rfl⟩ := List.mem_map.mp ha
    have hnew : b = tables.nextId := List.mem_singleton.mp hb
    exact absurd (heq.trans hnew) (Nat.ne_of_lt (h.documents d hd))
  · intro d hd
    rcases List.mem_append.mp hd with hd | hd
    · exact (h.documents d hd).trans (Nat.lt_succ_self _)
    · rw [List.mem_singleton.mp hd]
      exact Nat.lt_succ_self _
  · intro v hv
    exact ⟨(h.versions v hv).1.trans (Nat.lt_succ_self _),(h.versions v hv).2.trans (Nat.lt_succ_self _)⟩
  · intro d hd versionId hversion
    rcases List.mem_append.mp hd with hd | hd
    · exact h.active d hd versionId hversion
    · rw [List.mem_singleton.mp hd] at hversion
      cases hversion

theorem createVersion_wf (h : Wf tables) {documentId : Nat} (hdocument : documentId < tables.nextId)
    (versionNumber : Nat) (contentHash blobPath filename : String) :
    let created := tables.createVersion documentId versionNumber contentHash blobPath filename
    Wf created.2 ∧ VersionOf created.2 documentId created.1.id := by
  unfold Tables.createVersion
  split
  · next existing hexisting =>
    have hmem := List.mem_of_find?_eq_some hexisting
    have hof : existing.documentId = documentId := by
      have hfound := List.find?_some hexisting
      simp only [Bool.and_eq_true,decide_eq_true_eq] at hfound
      exact hfound.1
    exact ⟨h,existing,find?_key h.versionIds hmem,hof⟩
  · have hfresh : ∀ v ∈ tables.versions, ¬ v.id = tables.nextId := fun v hv => Nat.ne_of_lt (h.versions v hv).1
    have hold {versionId documentId' : Nat} (hof : VersionOf tables documentId' versionId) (v : DocumentVersion) :
        VersionOf { tables with versions := tables.versions ++ [v], nextId := tables.nextId + 1 } documentId' versionId := by
      obtain ⟨w,hw,hdocument'⟩ := hof
      refine ⟨w,?_,hdocument'⟩
      unfold Tables.getVersion at hw ⊢
      rw [List.find?_append,hw]
      rfl
    refine ⟨⟨h.documentIds,?_,fun d hd => (h.documents d hd).trans (Nat.lt_succ_self _),?_,
      fun j hj => (h.jobs j hj).trans (Nat.lt_succ_self _),fun d hd versionId hversion => hold (h.active d hd versionId hversion) _,
      fun j hj versionId hversion => hold (h.tasks j hj versionId hversion) _⟩,?_⟩
    · rw [List.map_append,List.nodup_append]
      refine ⟨h.versionIds,List.nodup_singleton _,?_⟩
      intro a ha b hb heq
      obtain ⟨v,hv,rfl⟩ := List.mem_map.mp ha
      exact hfresh v hv (heq.trans (List.mem_singleton.mp hb))
    · intro v hv
      rcases List.mem_append.mp hv with hv | hv
      · exact ⟨(h.versions v hv).1.trans (Nat.lt_succ_self _),(h.versions v hv).2.trans (Nat.lt_succ_self _)⟩
      · rw [List.mem_singleton.mp hv]
        exact ⟨Nat.lt_succ_self _,hdocument.trans (Nat.lt_succ_self _)⟩
    · refine ⟨{ id := tables.nextId, documentId, versionNumber, contentHash, blobPath, filename := some filename },?_,rfl⟩
      have hnone : tables.versions.find? (·.id = tables.nextId) = none := by
        simpa [List.find?_eq_none] using hfresh
      unfold Tables.getVersion
      rw [List.find?_append,hnone]
      simp

/-- An accepted upload has enqueued a job for a new document. -/
theorem acceptUpload_ok (h : Wf tables) {services : Services} {upload : UploadServices} {request : Upload}
    {created : Document × IngestJob} (hrequest : acceptUpload services upload request tables = (.ok created,after)) :
    ∃ stored versionId, Wf stored ∧ VersionOf stored tables.nextId versionId ∧
      (created.2,after) = stored.enqueue request.orgId tables.nextId .ingest (some versionId) := by
  unfold acceptUpload at hrequest
  split at hrequest
  · cases hrequest
  · split at hrequest
    · cases hrequest
    · next filename sourceType parsed hparsed =>
      dsimp only at hrequest
      split at hrequest
      · cases hrequest
      · cases hrequest
        have hcreated := createDocument_wf h request.orgId request.collectionId
          (if request.title.getD "" = "" then parsed.title else request.title.getD "") sourceType
          (services.sha256 (upload.normalizeText parsed.text))
        obtain ⟨hversion,hof⟩ := createVersion_wf hcreated (Nat.lt_succ_self tables.nextId) _ _ _ _
        exact ⟨_,_,hversion,hof,rfl⟩

theorem acceptUpload_wf (h : Wf tables) (services : Services) (upload : UploadServices) (request : Upload)
    {created : Document × IngestJob} (hrequest : acceptUpload services upload request tables = (.ok created,after)) :
    Wf after := by
  obtain ⟨stored,versionId,hstored,hof,heq⟩ := acceptUpload_ok h hrequest
  rw [(Prod.mk.inj heq).2]
  exact enqueue_wf hstored request.orgId tables.nextId .ingest hof

theorem claimNext_processing {job : IngestJob} (hclaim : tables.claimNext = some (job,after)) :
    Processing tables after := by
  obtain ⟨queued,-,heq⟩ := Option.map_eq_some_iff.mp hclaim
  cases heq
  exact .job tables queued.id (fun j => { j with status := .running, stage := some .parsing })
    fun _ => ⟨rfl,rfl,rfl,rfl,rfl⟩

theorem inline_wf (settings : Settings) (services : Services) (jobId : Nat) (h : Wf tables) :
    Wf (inline settings services jobId tables).2 := by
  unfold inline
  split
  · exact h
  · exact processJob_wf settings services jobId h

/-- Every event keeps the rows together. -/
theorem step_wf {settings : Settings} {event : Event} (h : Wf tables) (hstep : step settings tables event = some after) :
    Wf after := by
  have hlt (n : Nat) : n < tables.nextId → n < tables.nextId + 1 := fun hn => hn.trans (Nat.lt_succ_self _)
  cases event with
  | createCollection orgId chunkingConfig =>
    cases hstep
    exact ⟨h.documentIds,h.versionIds,fun d hd => hlt _ (h.documents d hd),
      fun v hv => ⟨hlt _ (h.versions v hv).1,hlt _ (h.versions v hv).2⟩,fun j hj => hlt _ (h.jobs j hj),h.active,h.tasks⟩
  | upload upload services request =>
    cases hstep
    unfold uploadDocument
    cases hrequest : acceptUpload services upload request tables with
    | mk result accepted =>
      cases result with
      | error e => exact h
      | ok created =>
        have haccepted := acceptUpload_wf h services upload request hrequest
        have hrun := inline_wf settings services created.2.id haccepted
        dsimp only
        cases hinline : inline settings services created.2.id accepted with
        | mk result run =>
          rw [hinline] at hrun
          cases result with
          | error e => exact h
          | ok u => exact hrun
  | reindex services orgId documentId =>
    cases hstep
    unfold reindexDocument
    have haccepted := acceptReindex_wf h orgId documentId
    cases hrequest : acceptReindex orgId documentId tables with
    | mk result accepted =>
      rw [hrequest] at haccepted
      cases result with
      | error e => exact h
      | ok job =>
        have hrun := inline_wf settings services job.id haccepted
        dsimp only
        cases hinline : inline settings services job.id accepted with
        | mk result run =>
          rw [hinline] at hrun
          cases result with
          | error e => exact h
          | ok u => exact hrun
  | work services =>
    cases hstep
    unfold work
    cases hclaim : tables.claimNext with
    | none => exact h
    | some claimed => exact processJob_wf settings services claimed.1.id ((claimNext_processing hclaim).wf h)

end wf

end VoxForge.Knowledge
