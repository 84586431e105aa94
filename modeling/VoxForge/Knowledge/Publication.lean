import VoxForge.Foundation.Fallible
import VoxForge.Foundation.Rows
import VoxForge.Knowledge.Ingestion

/-! What a job that returns has stored: the chunks of the current text, their number, and
what a second run of the job makes of it. -/
namespace VoxForge.Knowledge
open Core Foundation

/-- The rows of a version, apart from their ids. -/
def rows (tables : Tables) (versionId : Nat) : List Chunk :=
  (tables.chunks.filter (·.documentVersionId = versionId)).map fun c => { c with id := 0 }

/-- The row of a chunk, apart from its id. -/
def rowOf (sha256 : String → String) (orgId : OrgId) (versionId : Nat) (pair : RawChunk × Embedding) : Chunk where
  id := 0
  orgId := orgId
  documentVersionId := versionId
  chunkIndex := pair.1.chunkIndex
  content := pair.1.content
  contentHash := sha256 pair.1.content
  tokenCount := pair.1.tokenCount
  metadata := pair.1.metadata
  embedding := some pair.2

section runs
variable (services : Services) (settings : Settings)

/-- A job gets as far as storing: its version, the chunks of the current text and their
embeddings. -/
structure Prepares (tables : Tables) (job : IngestJob) (versionId : Nat) (chunks : List RawChunk)
    (embeddings : List Embedding) : Prop where
  version : job.documentVersionId = some versionId
  faultless : services.chunkFault = none
  chunked : ∃ document version parsed, tables.getDocument job.documentId job.orgId = some document ∧
    tables.getVersion versionId = some version ∧ parseBlob services document version = .ok parsed ∧
    chunks = chunk parsed (chunkingConfig settings document tables)
  embedded : embedChunks services chunks = .ok embeddings

/-- The chunks of the active version are the chunks of the text, and its count is their number. -/
structure Published (tables : Tables) (job : IngestJob) (versionId : Nat) (chunks : List RawChunk)
    (embeddings : List Embedding) : Prop where
  active : ∃ document, tables.getDocument job.documentId job.orgId = some document ∧
    document.activeVersionId = some versionId
  stored : (rows tables versionId).Perm ((chunks.zip embeddings).map (rowOf services.sha256 job.orgId versionId))
  count : ∃ version, tables.getVersion versionId = some version ∧
    version.chunkCount = (rows tables versionId).length

/-- The tables when the chunks are about to be stored. -/
def begun (job : IngestJob) (tables : Tables) : Tables :=
  ((((tables.updateDocumentStatus job.documentId job.orgId .processing).updateProgress job.id 10
    .parsing).updateProgress job.id 30 .chunking).updateProgress job.id 50 .embedding).updateProgress job.id 75
    .indexing

/-- The tables when the chunks have been stored, of which `indexed` are new. -/
def published (job : IngestJob) (versionId indexed : Nat) (tables : Tables) : Tables :=
  (((tables.updateVersionChunkCount versionId indexed).setActiveVersion job.documentId job.orgId
    versionId).updateDocumentStatus job.documentId job.orgId .ready).completeJob job.id

variable {services settings}

theorem ingest_ok {job : IngestJob} {tables after : Tables} (h : ingest services settings job tables = (.ok (),after)) :
    ∃ versionId chunks embeddings, Prepares services settings tables job versionId chunks embeddings ∧
      indexChunks services job versionId chunks embeddings (begun job tables) = (.ok (),after) := by
  unfold ingest at h
  split at h
  · next document versionId hdocument hversionId =>
    split at h
    · cases h
    · next version hversion =>
      dsimp only at h
      split at h
      · cases h
      · next parsed hparsed =>
        split at h
        · cases h
        · next hfault =>
          split at h
          · cases h
          · next embeddings hembedded =>
            exact ⟨versionId,_,embeddings,⟨hversionId,hfault,⟨document,version,parsed,hdocument,hversion,hparsed,rfl⟩,
              hembedded⟩,h⟩
  · cases h

theorem Prepares.ingest_eq {job : IngestJob} {tables : Tables} {versionId : Nat} {chunks : List RawChunk}
    {embeddings : List Embedding} (h : Prepares services settings tables job versionId chunks embeddings) :
    ingest services settings job tables =
      indexChunks services job versionId chunks embeddings (begun job tables) := by
  obtain ⟨hversionId,hfault,⟨document,version,parsed,hdocument,hversion,hparsed,rfl⟩,hembedded⟩ := h
  have hconfig : chunkingConfig settings document
      (((tables.updateDocumentStatus job.documentId job.orgId .processing).updateProgress job.id 10
        .parsing).updateProgress job.id 30 .chunking) = chunkingConfig settings document tables := rfl
  unfold ingest begun
  simp only [hdocument,hversionId,hversion,hparsed,hfault,hconfig,hembedded]

theorem indexChunks_ok {job : IngestJob} {versionId : Nat} {chunks : List RawChunk} {embeddings : List Embedding}
    {tables after : Tables} (h : indexChunks services job versionId chunks embeddings tables = (.ok (),after)) :
    ∃ pairs indexed middle stored,
      selectPairs services job versionId chunks embeddings tables = (.ok pairs,middle) ∧
      upsertChunks services job.orgId versionId pairs 0 middle = (.ok indexed,stored) ∧
      after = published job versionId indexed stored := by
  unfold indexChunks at h
  split at h
  · cases h
  · next pairs middle hselect =>
    split at h
    · cases h
    · next indexed stored hupsert =>
      cases h
      exact ⟨pairs,indexed,middle,stored,hselect,hupsert,rfl⟩

end runs

structure ChunksOnly (a b : Tables) : Prop where
  collections : b.collections = a.collections
  documents : b.documents = a.documents
  versions : b.versions = a.versions
  jobs : b.jobs = a.jobs

theorem ChunksOnly.refl (a : Tables) : ChunksOnly a a := ⟨rfl,rfl,rfl,rfl⟩

theorem ChunksOnly.trans {a b c : Tables} (h : ChunksOnly a b) (k : ChunksOnly b c) : ChunksOnly a c :=
  ⟨k.collections.trans h.collections,k.documents.trans h.documents,k.versions.trans h.versions,k.jobs.trans h.jobs⟩

section stores
variable {services : Services} {orgId : OrgId} {versionId : Nat}

theorem insertChunk_chunksOnly (tables : Tables) (raw : RawChunk) (embedding : Embedding) :
    ChunksOnly tables (tables.insertChunk services.sha256 orgId versionId raw embedding).2 := by
  unfold Tables.insertChunk
  split <;> exact ⟨rfl,rfl,rfl,rfl⟩

theorem upsertChunks_chunksOnly (services : Services) (orgId : OrgId) (versionId : Nat) (pairs : List (RawChunk × Embedding)) (n : Nat) (tables : Tables) :
    ChunksOnly tables (upsertChunks services orgId versionId pairs n tables).2 := by
  induction pairs generalizing n tables with
  | nil => exact .refl tables
  | cons pair rest ih =>
    obtain ⟨raw,embedding⟩ := pair
    unfold upsertChunks
    split
    · exact .refl tables
    · exact (insertChunk_chunksOnly tables raw embedding).trans (ih _ _)

theorem mem_rows {tables : Tables} {i : Nat} :
    (∃ c ∈ rows tables versionId, c.chunkIndex = i) ↔
      ∃ c ∈ tables.chunks, c.documentVersionId = versionId ∧ c.chunkIndex = i := by
  simp [rows,and_assoc]

/-- A chunk whose index is free is appended. -/
theorem insertChunk_fresh (services : Services) (orgId : OrgId) {tables : Tables} (raw : RawChunk)
    (embedding : Embedding) (hfresh : ∀ c ∈ rows tables versionId, c.chunkIndex ≠ raw.chunkIndex) :
    (tables.insertChunk services.sha256 orgId versionId raw embedding).1 = true ∧
      rows (tables.insertChunk services.sha256 orgId versionId raw embedding).2 versionId =
        rows tables versionId ++ [rowOf services.sha256 orgId versionId (raw,embedding)] := by
  have hnone : ¬(tables.chunks.any fun c => c.documentVersionId = versionId && c.chunkIndex = raw.chunkIndex) = true := by
    intro hany
    obtain ⟨c,hc,hsame⟩ := List.any_eq_true.mp hany
    simp only [Bool.and_eq_true,decide_eq_true_eq] at hsame
    obtain ⟨d,hd,hindex⟩ := mem_rows.mpr ⟨c,hc,hsame.1,hsame.2⟩
    exact hfresh d hd hindex
  unfold Tables.insertChunk
  rw [if_neg hnone]
  exact ⟨rfl,by simp [rows,rowOf]⟩

/-- Chunks of distinct and free indices are all stored, unless storing one raises. -/
theorem upsertChunks_fresh (pairs : List (RawChunk × Embedding)) (n : Nat) (tables : Tables)
    (hnodup : (pairs.map (·.1.chunkIndex)).Nodup)
    (hfresh : ∀ c ∈ rows tables versionId, c.chunkIndex ∉ pairs.map (·.1.chunkIndex))
    (hstore : ∀ i < pairs.length, services.storeFault (n + i) = none) :
    (upsertChunks services orgId versionId pairs n tables).1 = .ok pairs.length ∧
      rows (upsertChunks services orgId versionId pairs n tables).2 versionId =
        rows tables versionId ++ pairs.map (rowOf services.sha256 orgId versionId) := by
  induction pairs generalizing n tables with
  | nil => exact ⟨rfl,(List.append_nil _).symm⟩
  | cons pair rest ih =>
    obtain ⟨raw,embedding⟩ := pair
    obtain ⟨hnew,hrest⟩ := List.nodup_cons.mp hnodup
    have hfirst : services.storeFault n = none := hstore 0 (Nat.succ_pos _)
    obtain ⟨hinserted,hrows⟩ := insertChunk_fresh services orgId raw embedding
      fun c hc heq => hfresh c hc (by simp [heq])
    unfold upsertChunks
    rw [hfirst]
    dsimp only
    have hnext : ∀ c ∈ rows (tables.insertChunk services.sha256 orgId versionId raw embedding).2 versionId,
        c.chunkIndex ∉ rest.map (·.1.chunkIndex) := by
      intro c hc
      rw [hrows] at hc
      rcases List.mem_append.mp hc with hold | hadded
      · exact fun hin => hfresh c hold (List.mem_cons_of_mem _ hin)
      · obtain rfl := List.mem_singleton.mp hadded
        exact hnew
    have hlater : ∀ i < rest.length, services.storeFault (n + 1 + i) = none := by
      intro i hi
      rw [Nat.add_assoc,Nat.add_comm 1 i]
      exact hstore (i + 1) (Nat.succ_lt_succ hi)
    obtain ⟨hcount,hstored⟩ := ih (n + 1) _ hrest hnext hlater
    rw [hcount,hstored,hrows,hinserted]
    exact ⟨rfl,by simp⟩

/-- What has been stored without an error met no fault. -/
theorem storeFault_of_ok {pairs : List (RawChunk × Embedding)} {n indexed : Nat} {tables after : Tables}
    (h : upsertChunks services orgId versionId pairs n tables = (.ok indexed,after)) :
    ∀ i < pairs.length, services.storeFault (n + i) = none := by
  induction pairs generalizing n tables indexed with
  | nil => exact fun i hi => absurd hi (Nat.not_lt_zero i)
  | cons pair rest ih =>
    obtain ⟨raw,embedding⟩ := pair
    unfold upsertChunks at h
    split at h
    · cases h
    · next hfirst =>
      dsimp only at h
      intro i hi
      cases i with
      | zero => exact hfirst
      | succ i =>
        obtain ⟨hresult,hafter⟩ := Prod.mk.inj h
        obtain ⟨k,hk,-⟩ := map_eq_ok.mp hresult
        have hlater := ih (Prod.ext hk hafter) i (Nat.lt_of_succ_lt_succ hi)
        rw [Nat.add_comm i 1,← Nat.add_assoc]
        exact hlater

end stores

section lookups
variable (tables : Tables) (job : IngestJob) (versionId indexed : Nat)

theorem getDocument_updateDocument {f : Document → Document} (hf : ∀ d, (f d).id = d.id ∧ (f d).orgId = d.orgId)
    (documentId : Nat) (orgId : OrgId) :
    (tables.updateDocument documentId orgId f).getDocument documentId orgId =
      (tables.getDocument documentId orgId).map f := by
  unfold Tables.getDocument Tables.updateDocument
  dsimp only
  rw [find?_update fun d _ => by rw [(hf d).1,(hf d).2]]
  cases h : tables.documents.find? fun d => d.id = documentId && d.orgId = orgId with
  | none => rfl
  | some d =>
    have hfound := List.find?_some h
    rw [Option.map_some,Option.map_some,if_pos hfound]

theorem getJobById_updateJob {f : IngestJob → IngestJob} (hf : ∀ j, (f j).id = j.id) (jobId : Nat) :
    (tables.updateJob jobId f).getJobById jobId = (tables.getJobById jobId).map f := by
  unfold Tables.getJobById Tables.updateJob
  dsimp only
  have hupdate := find?_update (p := fun j => j.id = jobId) (q := fun j => j.id = jobId) (f := f)
    (fun j _ => by rw [hf j]) tables.jobs
  simp only [decide_eq_true_eq] at hupdate
  rw [hupdate]
  cases h : tables.jobs.find? fun j => j.id = jobId with
  | none => rfl
  | some j =>
    have hfound : j.id = jobId := by simpa using List.find?_some h
    rw [Option.map_some,Option.map_some,if_pos hfound]

theorem getDocument_begun :
    (begun job tables).getDocument job.documentId job.orgId =
      (tables.getDocument job.documentId job.orgId).map fun d => { d with status := .processing } :=
  getDocument_updateDocument tables (f := fun d => { d with status := .processing }) (fun _ => ⟨rfl,rfl⟩)
    job.documentId job.orgId

theorem getDocument_published :
    (published job versionId indexed tables).getDocument job.documentId job.orgId =
      (tables.getDocument job.documentId job.orgId).map fun d =>
        { d with activeVersionId := some versionId, status := .ready } := by
  have hactive := getDocument_updateDocument (tables.updateVersionChunkCount versionId indexed)
    (f := fun d => { d with activeVersionId := some versionId }) (fun _ => ⟨rfl,rfl⟩) job.documentId job.orgId
  have hready := getDocument_updateDocument
    ((tables.updateVersionChunkCount versionId indexed).setActiveVersion job.documentId job.orgId versionId)
    (f := fun d => { d with status := .ready }) (fun _ => ⟨rfl,rfl⟩) job.documentId job.orgId
  have h := hready.trans (congrArg (Option.map _) hactive)
  rw [Option.map_map] at h
  exact h

theorem getVersion_published :
    (published job versionId indexed tables).getVersion versionId =
      (tables.getVersion versionId).map fun v => { v with chunkCount := indexed } := by
  have h := find?_update (p := fun v => v.id = versionId) (q := fun v => v.id = versionId)
    (f := fun v : DocumentVersion => { v with chunkCount := indexed }) (fun _ _ => rfl) tables.versions
  simp only [decide_eq_true_eq] at h
  refine h.trans ?_
  unfold Tables.getVersion
  cases hv : tables.versions.find? fun v => v.id = versionId with
  | none => rfl
  | some v =>
    have hfound : v.id = versionId := by simpa using List.find?_some hv
    rw [Option.map_some,Option.map_some,if_pos hfound]

/-- The parts of a job's row that say what to do. -/
structure SameTask (a b : IngestJob) : Prop where
  id : b.id = a.id
  orgId : b.orgId = a.orgId
  documentId : b.documentId = a.documentId
  documentVersionId : b.documentVersionId = a.documentVersionId
  jobType : b.jobType = a.jobType

theorem SameTask.trans {a b c : IngestJob} (h : SameTask a b) (k : SameTask b c) : SameTask a c :=
  ⟨k.id.trans h.id,k.orgId.trans h.orgId,k.documentId.trans h.documentId,
    k.documentVersionId.trans h.documentVersionId,k.jobType.trans h.jobType⟩

theorem getJobById_updateProgress (progressPct : Nat) (stage : IngestStage) {jobId : Nat} {found : IngestJob}
    (h : tables.getJobById jobId = some found) :
    ∃ after, (tables.updateProgress jobId progressPct stage).getJobById jobId = some after ∧ SameTask found after := by
  have hupdate := getJobById_updateJob tables (f := fun j => { j with progressPct, stage := some stage })
    (fun _ => rfl) jobId
  exact ⟨_,hupdate.trans (congrArg (Option.map _) h),⟨rfl,rfl,rfl,rfl,rfl⟩⟩

theorem getJobById_begun {found : IngestJob} (h : tables.getJobById job.id = some found) :
    ∃ after, (begun job tables).getJobById job.id = some after ∧ SameTask found after := by
  obtain ⟨a,ha,hsa⟩ := getJobById_updateProgress
    (tables.updateDocumentStatus job.documentId job.orgId .processing) 10 .parsing h
  obtain ⟨b,hb,hsb⟩ := getJobById_updateProgress _ 30 .chunking ha
  obtain ⟨c,hc,hsc⟩ := getJobById_updateProgress _ 50 .embedding hb
  obtain ⟨d,hd,hsd⟩ := getJobById_updateProgress _ 75 .indexing hc
  exact ⟨d,hd,((hsa.trans hsb).trans hsc).trans hsd⟩

theorem getJobById_published {found : IngestJob} (h : tables.getJobById job.id = some found) :
    ∃ after, (published job versionId indexed tables).getJobById job.id = some after ∧ SameTask found after := by
  have hcomplete := getJobById_updateJob
    (((tables.updateVersionChunkCount versionId indexed).setActiveVersion job.documentId job.orgId
      versionId).updateDocumentStatus job.documentId job.orgId .ready)
    (f := fun j => { j with status := .completed, progressPct := 100, stage := some .completed }) (fun _ => rfl) job.id
  refine ⟨_,hcomplete.trans (congrArg (Option.map _) h),⟨rfl,rfl,rfl,rfl,rfl⟩⟩

end lookups

section postcondition
variable {services : Services} {settings : Settings} {tables after : Tables} {job : IngestJob} {versionId : Nat}
  {chunks : List RawChunk} {embeddings : List Embedding}

theorem Prepares.indices_nodup (h : Prepares services settings tables job versionId chunks embeddings) :
    (chunks.map (·.chunkIndex)).Nodup := by
  obtain ⟨-,-,⟨document,version,parsed,-,-,-,rfl⟩,-⟩ := h
  exact chunk_indices_nodup ..

/-- What a job has prepared, it prepares again after storing it. -/
theorem Prepares.again (h : Prepares services settings tables job versionId chunks embeddings)
    {stored : Tables} (hstored : ChunksOnly (begun job tables) stored) (indexed : Nat) {again : IngestJob}
    (hagain : SameTask job again) :
    Prepares services settings (published job versionId indexed stored) again versionId chunks embeddings := by
  obtain ⟨hversionId,hfault,⟨document,version,parsed,hdocument,hversion,hparsed,hchunks⟩,hembedded⟩ := h
  refine ⟨hagain.documentVersionId.trans hversionId,hfault,⟨
    { document with activeVersionId := some versionId, status := .ready },
    { version with chunkCount := indexed },parsed,?_,?_,?_,?_⟩,hembedded⟩
  · have hfound : stored.getDocument job.documentId job.orgId = some { document with status := .processing } := by
      unfold Tables.getDocument
      rw [hstored.documents]
      exact (getDocument_begun tables job).trans (congrArg (Option.map _) hdocument)
    rw [hagain.documentId,hagain.orgId,getDocument_published,hfound]
    rfl
  · have hfound : stored.getVersion versionId = some version := by
      unfold Tables.getVersion
      rw [hstored.versions]
      exact hversion
    rw [getVersion_published,hfound]
    rfl
  · exact hparsed
  · have hcollections : (published job versionId indexed stored).collections = tables.collections :=
      hstored.collections
    rw [hchunks]
    unfold chunkingConfig Tables.getCollection
    rw [hcollections]

theorem Prepares.unique (h : Prepares services settings tables job versionId chunks embeddings)
    {versionId' : Nat} {chunks' : List RawChunk} {embeddings' : List Embedding}
    (h' : Prepares services settings tables job versionId' chunks' embeddings') :
    versionId' = versionId ∧ chunks' = chunks ∧ embeddings' = embeddings := by
  obtain ⟨hversionId,-,⟨document,version,parsed,hdocument,hversion,hparsed,hchunks⟩,hembedded⟩ := h
  obtain ⟨hversionId',-,⟨document',version',parsed',hdocument',hversion',hparsed',hchunks'⟩,hembedded'⟩ := h'
  obtain rfl := Option.some.inj (hversionId.symm.trans hversionId')
  obtain rfl := Option.some.inj (hdocument.symm.trans hdocument')
  obtain rfl := Option.some.inj (hversion.symm.trans hversion')
  obtain rfl := Except.ok.inj (hparsed.symm.trans hparsed')
  obtain rfl := hchunks'.trans hchunks.symm
  exact ⟨rfl,rfl,Except.ok.inj (hembedded'.symm.trans hembedded)⟩

/-- What indexing stores and counts, when it returns. -/
theorem published_iff (h : Prepares services settings tables job versionId chunks embeddings)
    {stored : Tables} (hstored : ChunksOnly (begun job tables) stored) (indexed : Nat) {task : IngestJob}
    (htask : SameTask job task) :
    Published services (published job versionId indexed stored) task versionId chunks embeddings ↔
      (rows stored versionId).Perm ((chunks.zip embeddings).map (rowOf services.sha256 job.orgId versionId)) ∧
        indexed = (rows stored versionId).length := by
  obtain ⟨-,-,⟨document,version,parsed,hdocument,hversion,-,-⟩,-⟩ := h
  have hfoundVersion : (published job versionId indexed stored).getVersion versionId =
      some { version with chunkCount := indexed } := by
    rw [getVersion_published]
    unfold Tables.getVersion
    rw [hstored.versions]
    exact congrArg (Option.map _) hversion
  have hfoundDocument : (published job versionId indexed stored).getDocument task.documentId task.orgId =
      some { document with activeVersionId := some versionId, status := .ready } := by
    rw [htask.documentId,htask.orgId,getDocument_published]
    unfold Tables.getDocument
    rw [hstored.documents]
    have hbegun := (getDocument_begun tables job).trans (congrArg (Option.map _) hdocument)
    exact congrArg (Option.map _) hbegun
  constructor
  · rintro ⟨-,hrows,version',hv,hcount⟩
    rw [hfoundVersion] at hv
    obtain rfl := Option.some.inj hv
    rw [htask.orgId] at hrows
    exact ⟨hrows,hcount⟩
  · rintro ⟨hrows,hcount⟩
    refine ⟨⟨_,hfoundDocument,rfl⟩,?_,_,hfoundVersion,hcount⟩
    rw [htask.orgId]
    exact hrows

theorem zip_indices (hlength : chunks.length = embeddings.length) :
    (chunks.zip embeddings).map (·.1.chunkIndex) = chunks.map (·.chunkIndex) := by
  have hfst : (chunks.zip embeddings).map Prod.fst = chunks := List.map_fst_zip (Nat.le_of_eq hlength)
  calc (chunks.zip embeddings).map (·.1.chunkIndex)
      = ((chunks.zip embeddings).map Prod.fst).map (·.chunkIndex) := (List.map_map ..).symm
    _ = chunks.map (·.chunkIndex) := by rw [hfst]

theorem deleteByVersion_rows (tables : Tables) (versionId : Nat) :
    rows (tables.deleteByVersion versionId) versionId = [] := by
  simp [rows,Tables.deleteByVersion]

/-- A text without chunks has every stored index removed. -/
theorem selectPairs_empty (hjob : job.jobType ≠ .reindex) (tables : Tables) :
    ∃ middle, ChunksOnly tables middle ∧ rows middle versionId = [] ∧
      selectPairs services job versionId [] [] tables = (.ok [],middle) := by
  unfold selectPairs
  rw [if_neg hjob]
  simp only [List.map_nil,zipStrict]
  generalize hdiff : computeChunkDiff (tables.getChunkHashes versionId) [] = diff
  obtain ⟨unchanged,changed,removed⟩ := diff
  have hremoved (i : Nat) : i ∈ removed ↔ ∃ hash, (i,hash) ∈ tables.getChunkHashes versionId := by
    have h : removed = (computeChunkDiff (tables.getChunkHashes versionId) []).2.2 := by rw [hdiff]
    rw [h]
    simp [computeChunkDiff,List.mem_dedup]
  have hindex {c : Chunk} (hc : c ∈ tables.chunks) (hv : c.documentVersionId = versionId) : c.chunkIndex ∈ removed := by
    refine (hremoved c.chunkIndex).mpr ⟨c.contentHash,?_⟩
    exact List.mem_map.mpr ⟨c,List.mem_filter.mpr ⟨hc,by simpa using hv⟩,rfl⟩
  dsimp only
  refine ⟨_,?_,?_,rfl⟩
  · split
    · exact ⟨rfl,rfl,rfl,rfl⟩
    · exact .refl tables
  · split
    · have hnone : ∀ c ∈ (tables.deleteChunksByIndices versionId removed).chunks, c.documentVersionId ≠ versionId := by
        intro c hc hv
        obtain ⟨hold,hkept⟩ := List.mem_filter.mp hc
        simp [hv,hindex hold hv] at hkept
      simpa [rows] using hnone
    · next hempty =>
      rw [not_not] at hempty
      have hnone : ∀ c ∈ tables.chunks, c.documentVersionId ≠ versionId := by
        intro c hc hv
        have hin := hindex hc hv
        rw [hempty] at hin
        cases hin
      simpa [rows] using hnone

/-- Where the stored hashes are those of the chunks, nothing is changed and nothing removed. -/
theorem computeChunkDiff_perm {existing new : List (Nat × String)} (h : existing.Perm new)
    (hnodup : (new.map Prod.fst).Nodup) :
    (computeChunkDiff existing new).2.1 = [] ∧ (computeChunkDiff existing new).2.2 = [] := by
  have hindices : (existing.map Prod.fst).Perm (new.map Prod.fst) := h.map Prod.fst
  have hreverse : existing.reverse.Perm new.reverse := (existing.reverse_perm.trans h).trans new.reverse_perm.symm
  have hkeys : (existing.reverse.map Prod.fst).Nodup := by
    rw [List.map_reverse]
    exact List.nodup_reverse.mpr (hindices.nodup_iff.mpr hnodup)
  have hlookup (i : Nat) : existing.reverse.find? (·.1 = i) = new.reverse.find? (·.1 = i) :=
    find?_perm hreverse hkeys i
  unfold computeChunkDiff
  dsimp only
  constructor
  · have hnone : (new.map Prod.fst).dedup.filter (· ∉ (new.map Prod.fst).dedup.filter fun i =>
        i ∈ (existing.map Prod.fst).dedup &&
          (existing.reverse.find? (·.1 = i)).map Prod.snd = (new.reverse.find? (·.1 = i)).map Prod.snd) = [] := by
      apply List.filter_eq_nil_iff.mpr
      intro i hi
      have hold : i ∈ existing.map Prod.fst := hindices.mem_iff.mpr (List.mem_dedup.mp hi)
      simp only [hlookup,decide_not,Bool.not_eq_true',Bool.not_eq_false,decide_eq_true_eq]
      refine List.mem_filter.mpr ⟨hi,?_⟩
      simp only [List.mem_dedup.mpr hold,decide_true,Bool.true_and]
    rw [hnone]
    rfl
  · have hnone : (existing.map Prod.fst).dedup.filter (· ∉ (new.map Prod.fst).dedup) = [] := by
      apply List.filter_eq_nil_iff.mpr
      intro i hi
      have hnew : i ∈ new.map Prod.fst := hindices.mem_iff.mp (List.mem_dedup.mp hi)
      simpa using hnew
    rw [hnone]
    rfl

/-- A job that deletes the version's chunks first, or has no chunk to store, leaves exactly the
chunks of the text. -/
theorem indexChunks_exact (versionId : Nat) (hjob : job.jobType = .reindex ∨ chunks = []) (hlength : chunks.length = embeddings.length)
    (hnodup : (chunks.map (·.chunkIndex)).Nodup) (hstore : ∀ i < chunks.length, services.storeFault i = none)
    (begun : Tables) :
    ∃ stored, ChunksOnly begun stored ∧
      rows stored versionId = (chunks.zip embeddings).map (rowOf services.sha256 job.orgId versionId) ∧
      indexChunks services job versionId chunks embeddings begun =
        (.ok (),published job versionId chunks.length stored) := by
  have hselect : ∃ middle, ChunksOnly begun middle ∧ rows middle versionId = [] ∧
      selectPairs services job versionId chunks embeddings begun = (.ok (chunks.zip embeddings),middle) := by
    by_cases hreindex : job.jobType = .reindex
    · refine ⟨begun.deleteByVersion versionId,⟨rfl,rfl,rfl,rfl⟩,deleteByVersion_rows begun versionId,?_⟩
      simp [selectPairs,hreindex,zipStrict,hlength]
    · obtain rfl := hjob.resolve_left hreindex
      obtain rfl := List.length_eq_zero_iff.mp hlength.symm
      exact selectPairs_empty hreindex begun
  obtain ⟨middle,hmiddle,hempty,hpairs⟩ := hselect
  have hzip : (chunks.zip embeddings).length = chunks.length := by simp [hlength]
  have hfresh : ∀ c ∈ rows middle versionId, c.chunkIndex ∉ (chunks.zip embeddings).map (·.1.chunkIndex) := by
    simp [hempty]
  obtain ⟨hcount,hrows⟩ : (upsertChunks services job.orgId versionId (chunks.zip embeddings) 0 middle).1 =
        .ok (chunks.zip embeddings).length ∧
      rows (upsertChunks services job.orgId versionId (chunks.zip embeddings) 0 middle).2 versionId =
        rows middle versionId ++ (chunks.zip embeddings).map (rowOf services.sha256 job.orgId versionId) :=
    upsertChunks_fresh _ 0 middle (by rwa [zip_indices hlength]) hfresh (by simpa [hzip] using hstore)
  refine ⟨_,hmiddle.trans (upsertChunks_chunksOnly services job.orgId versionId (chunks.zip embeddings) 0 middle),hrows.trans (by simp [hempty]),?_⟩
  unfold indexChunks
  rw [hpairs]
  dsimp only
  rw [← hzip]
  generalize hupsert : upsertChunks services job.orgId versionId (chunks.zip embeddings) 0 middle = result at hcount
  obtain ⟨answer,stored⟩ := result
  obtain rfl : answer = .ok (chunks.zip embeddings).length := hcount
  rfl

/-- A job that compares hashes stores nothing where the chunks are those of the text already. -/
theorem indexChunks_unchanged (hjob : job.jobType ≠ .reindex) (hchunks : chunks ≠ [])
    (hlength : chunks.length = embeddings.length) (hnodup : (chunks.map (·.chunkIndex)).Nodup) {begun : Tables}
    (hrows : (rows begun versionId).Perm ((chunks.zip embeddings).map (rowOf services.sha256 job.orgId versionId))) :
    indexChunks services job versionId chunks embeddings begun =
      (.ok (),published job versionId 0 begun) := by
  have hhashes : (begun.getChunkHashes versionId).Perm (chunks.map fun c => (c.chunkIndex,services.sha256 c.content)) := by
    have hstored : begun.getChunkHashes versionId =
        (rows begun versionId).map fun c => (c.chunkIndex,c.contentHash) := by
      simp [Tables.getChunkHashes,rows]
    have hexpected : ((chunks.zip embeddings).map (rowOf services.sha256 job.orgId versionId)).map
          (fun c => (c.chunkIndex,c.contentHash)) =
        ((chunks.zip embeddings).map Prod.fst).map fun c => (c.chunkIndex,services.sha256 c.content) := by
      rw [List.map_map,List.map_map]
      rfl
    have hzip : (chunks.zip embeddings).map Prod.fst = chunks := List.map_fst_zip (Nat.le_of_eq hlength)
    rw [hstored]
    exact (hrows.map _).trans (by rw [hexpected,hzip])
  have hindices : ((chunks.map fun c => (c.chunkIndex,services.sha256 c.content)).map Prod.fst).Nodup := by
    rw [List.map_map]
    exact hnodup
  obtain ⟨hchanged,hremoved⟩ := computeChunkDiff_perm hhashes hindices
  have hexisting : begun.getChunkHashes versionId ≠ [] := by
    intro hnil
    rw [hnil] at hhashes
    exact hchunks (List.map_eq_nil_iff.mp hhashes.nil_eq.symm)
  have hselect : selectPairs services job versionId chunks embeddings begun = (.ok [],begun) := by
    unfold selectPairs
    rw [if_neg hjob]
    dsimp only
    rw [hremoved,hchanged,if_neg (by simp)]
    simp [zipStrict,hlength,hexisting,Except.map]
  unfold indexChunks
  rw [hselect]
  rfl

theorem processJob_eq {jobId : Nat} (hjob : tables.getJobById jobId = some job)
    (h : ingest services settings job tables = (.ok (),after)) :
    processJob services settings jobId tables = (.ok (),after) := by
  unfold processJob
  simp only [hjob,h]

theorem processJob_ok {jobId : Nat} (hjob : tables.getJobById jobId = some job)
    (h : processJob services settings jobId tables = (.ok (),after)) :
    ingest services settings job tables = (.ok (),after) := by
  unfold processJob at h
  simp only [hjob] at h
  split at h
  · next t hingest =>
    obtain ⟨-,rfl⟩ := Prod.mk.inj h
    exact hingest
  · cases h

theorem getJobById_id {jobId : Nat} (hjob : tables.getJobById jobId = some job) : job.id = jobId := by
  simpa using List.find?_some hjob

theorem selectPairs_lengths {pairs : List (RawChunk × Embedding)} {middle : Tables}
    (h : selectPairs services job versionId chunks embeddings tables = (.ok pairs,middle)) :
    chunks.length = embeddings.length := by
  have hzip {pairs : List (RawChunk × Embedding)} (h : zipStrict chunks embeddings = .ok pairs) :
      chunks.length = embeddings.length := by
    unfold zipStrict at h
    split at h
    · next hlength => exact hlength
    · cases h
  unfold selectPairs at h
  split at h
  · exact hzip (Prod.mk.inj h).1
  · obtain ⟨zipped,hzipped,-⟩ := map_eq_ok.mp (Prod.mk.inj h).1
    exact hzip hzipped

theorem selectPairs_chunksOnly (services : Services) (job : IngestJob) (versionId : Nat) (chunks : List RawChunk)
    (embeddings : List Embedding) (tables : Tables) :
    ChunksOnly tables (selectPairs services job versionId chunks embeddings tables).2 := by
  unfold selectPairs
  split
  · exact ⟨rfl,rfl,rfl,rfl⟩
  · dsimp only
    split
    · exact ⟨rfl,rfl,rfl,rfl⟩
    · exact .refl tables

theorem SameTask.symm {a b : IngestJob} (h : SameTask a b) : SameTask b a :=
  ⟨h.id.symm,h.orgId.symm,h.documentId.symm,h.documentVersionId.symm,h.jobType.symm⟩

theorem SameTask.refl (a : IngestJob) : SameTask a a := ⟨rfl,rfl,rfl,rfl,rfl⟩

/-- The job of a version that it has published is found again. -/
theorem found_again (versionId : Nat) (hjob : tables.getJobById job.id = some job) {stored : Tables}
    (hstored : ChunksOnly (begun job tables) stored) (indexed : Nat) :
    ∃ task, (published job versionId indexed stored).getJobById job.id = some task ∧ SameTask job task := by
  obtain ⟨begunJob,hbegun,hsame⟩ := getJobById_begun tables job hjob
  have hfound : stored.getJobById job.id = some begunJob := by
    unfold Tables.getJobById
    rw [hstored.jobs]
    exact hbegun
  obtain ⟨task,htask,hsame'⟩ := getJobById_published stored job versionId indexed hfound
  exact ⟨task,htask,hsame.trans hsame'⟩

/-- A second run of a job that compares hashes counts no chunk. -/
theorem rerun_counts_none (hjob : tables.getJobById job.id = some job)
    (hprepared : Prepares services settings tables job versionId chunks embeddings)
    {stored again : Tables} (hstored : ChunksOnly (begun job tables) stored) {indexed : Nat}
    (htype : job.jobType ≠ .reindex) (hchunks : chunks ≠ []) (hlength : chunks.length = embeddings.length)
    (hfirst : Published services (published job versionId indexed stored) job versionId chunks embeddings)
    (hagain : processJob services settings job.id (published job versionId indexed stored) = (.ok (),again)) :
    ¬ Published services again job versionId chunks embeddings := by
  obtain ⟨task,htask,hsame⟩ := found_again versionId hjob hstored indexed
  obtain ⟨hrows,-⟩ := (published_iff hprepared hstored indexed (.refl job)).mp hfirst
  have hprepared' := hprepared.again hstored indexed hsame
  have hingest := processJob_ok htask hagain
  have hrows' : (rows (begun task (published job versionId indexed stored)) versionId).Perm
      ((chunks.zip embeddings).map (rowOf services.sha256 task.orgId versionId)) := by
    rw [hsame.orgId]
    exact hrows
  rw [hprepared'.ingest_eq,indexChunks_unchanged (hsame.jobType ▸ htype) hchunks hlength
    hprepared.indices_nodup hrows'] at hingest
  obtain ⟨-,rfl⟩ := Prod.mk.inj hingest
  intro hpublished
  obtain ⟨-,hcount⟩ := (published_iff hprepared' (.refl _) 0 hsame.symm).mp hpublished
  have hnumber := hrows'.length_eq
  rw [← hcount,List.length_map,List.length_zip,hlength,Nat.min_self] at hnumber
  exact hchunks (List.length_eq_zero_iff.mp (hlength.trans hnumber.symm))

/-- A job that deletes the version's chunks first, or has none to store, publishes the chunks. -/
theorem publishes (hprepared : Prepares services settings tables job versionId chunks embeddings)
    (hexact : job.jobType = .reindex ∨ chunks = []) (hlength : chunks.length = embeddings.length)
    (hstore : ∀ i < chunks.length, services.storeFault i = none) :
    ∃ stored, ChunksOnly (begun job tables) stored ∧
      ingest services settings job tables = (.ok (),published job versionId chunks.length stored) ∧
      ∀ task, SameTask job task →
        Published services (published job versionId chunks.length stored) task versionId chunks embeddings := by
  obtain ⟨stored,hstored,hrows,hindex⟩ := indexChunks_exact versionId hexact hlength
    hprepared.indices_nodup hstore (begun job tables)
  refine ⟨stored,hstored,hprepared.ingest_eq.trans hindex,fun task htask => ?_⟩
  refine (published_iff hprepared hstored chunks.length htask).mpr ⟨by rw [hrows],?_⟩
  rw [hrows,List.length_map,List.length_zip,← hlength,Nat.min_self]

/-- A job that returns has stored exactly the chunks of the current text, and does so again when
run again, exactly if it is a `REINDEX` job or there is no chunk to store. -/
theorem ingest_postcondition_iff (services : Services) (settings : Settings) (tables after : Tables) (jobId : Nat)
    (job : IngestJob) (hjob : tables.getJobById jobId = some job)
    (hrun : processJob services settings jobId tables = (.ok (),after)) :
    ∃ versionId chunks embeddings, Prepares services settings tables job versionId chunks embeddings ∧
      ((Published services after job versionId chunks embeddings ∧
          ∃ again, processJob services settings jobId after = (.ok (),again) ∧
            Published services again job versionId chunks embeddings) ↔
        job.jobType = .reindex ∨ chunks = []) := by
  obtain rfl := getJobById_id hjob
  obtain ⟨versionId,chunks,embeddings,hprepared,hindex⟩ := ingest_ok (processJob_ok hjob hrun)
  refine ⟨versionId,chunks,embeddings,hprepared,?_⟩
  obtain ⟨pairs,indexed,middle,stored,hselect,hupsert,hafter⟩ := indexChunks_ok hindex
  have hlength := selectPairs_lengths hselect
  constructor
  · rintro ⟨hfirst,again,hagain,hsecond⟩
    by_contra hneither
    obtain ⟨htype,hchunks⟩ := not_or.mp hneither
    have hmiddle : ChunksOnly (begun job tables) middle := by
      have h := selectPairs_chunksOnly services job versionId chunks embeddings (begun job tables)
      rwa [hselect] at h
    have hstored : ChunksOnly middle stored := by
      have h := upsertChunks_chunksOnly services job.orgId versionId pairs 0 middle
      rwa [hupsert] at h
    subst hafter
    exact rerun_counts_none hjob hprepared (hmiddle.trans hstored) htype hchunks hlength hfirst hagain hsecond
  · intro hexact
    have hstore : ∀ i < chunks.length, services.storeFault i = none := by
      intro i hi
      have htype := hexact.resolve_right fun hnil => by simp [hnil] at hi
      have hpairs : pairs = chunks.zip embeddings := by
        unfold selectPairs zipStrict at hselect
        rw [if_pos htype,if_pos hlength] at hselect
        exact (Except.ok.inj (Prod.mk.inj hselect).1).symm
      have hfault := storeFault_of_ok hupsert i (by simp [hpairs,← hlength,hi])
      rwa [Nat.zero_add] at hfault
    obtain ⟨stored,hstored,hingest,hpublished⟩ := publishes hprepared hexact hlength hstore
    have hrun' := processJob_eq hjob hingest
    obtain ⟨-,rfl⟩ := Prod.mk.inj (hrun.symm.trans hrun')
    obtain ⟨task,htask,hsame⟩ := found_again versionId hjob hstored chunks.length
    have hprepared' := hprepared.again hstored chunks.length hsame
    obtain ⟨stored',-,hingest',hpublished'⟩ := publishes hprepared' (hsame.jobType ▸ hexact) hlength hstore
    exact ⟨hpublished job (.refl job),_,processJob_eq htask hingest',hpublished' job hsame.symm⟩

end postcondition

/-- Services that read a table of one row, and hash a text to itself. -/
def oneRowServices : Services where
  blobGet _ := .ok ByteArray.empty
  parse _ _ _ := .ok { title := "prices", text := "item\napple", sourceType := .csv }
  embedBatch texts := .ok (texts.map fun _ => [1])
  sha256 text := text

def uploadJob (jobType : IngestJobType) : IngestJob where
  id := 4
  orgId := 1
  documentId := 2
  documentVersionId := some 3
  jobType := jobType

/-- A document that has been uploaded, with its job. -/
def uploaded (jobType : IngestJobType) : Tables where
  collections := [{ id := 1, orgId := 1 }]
  documents := [{ id := 2, orgId := 1, collectionId := 1, title := "prices", sourceType := .csv, contentHash := "" }]
  versions := [{ id := 3, documentId := 2, versionNumber := 1, contentHash := "", blobPath := "1/2/v1/prices.csv" }]
  jobs := [uploadJob jobType]
  nextId := 5

def threeRowServices : Services :=
  { oneRowServices with
    parse := fun _ _ _ => .ok { title := "prices", text := "item\napple\npear\nplum", sourceType := .csv } }

/-- A chunk of an earlier text. -/
def staleChunk (id chunkIndex : Nat) (content : String) : Chunk where
  id := id
  orgId := 1
  documentVersionId := 3
  chunkIndex := chunkIndex
  content := content
  contentHash := content
  tokenCount := 1
  metadata := {}
  embedding := none

/-- The document with two chunks of an earlier text, in a collection that cuts row by row. -/
def outdated : Tables :=
  { uploaded .reindex with
    collections := [{ id := 1, orgId := 1, chunkingConfig := { rowsPerChunk := 1 } }]
    chunks := [staleChunk 5 0 "item\nfig",staleChunk 6 9 "item\nquince"]
    nextId := 7 }

theorem reindex_published :
    ∃ after versionId chunks embeddings, processJob threeRowServices {} 4 outdated = (.ok (),after) ∧
      (rows outdated 3).length = 2 ∧ (rows after 3).length = 3 ∧
      Published threeRowServices after (uploadJob .reindex) versionId chunks embeddings := by
  have hrun : (processJob threeRowServices {} 4 outdated).1 = .ok () := by decide +kernel
  have hrows : (rows (processJob threeRowServices {} 4 outdated).2 3).length = 3 := by decide +kernel
  have hpair : processJob threeRowServices {} 4 outdated =
      (.ok (),(processJob threeRowServices {} 4 outdated).2) := Prod.ext hrun rfl
  obtain ⟨versionId,chunks,embeddings,-,hiff⟩ :=
    ingest_postcondition_iff _ _ _ _ 4 (uploadJob .reindex) (by decide +kernel) hpair
  exact ⟨_,versionId,chunks,embeddings,hpair,rfl,hrows,(hiff.mpr (.inl rfl)).1⟩

/-- The upload's own job, run once more, leaves one chunk and a count of none. -/
theorem ingest_again_counts_none :
    let first := processJob oneRowServices {} 4 (uploaded .ingest)
    let second := processJob oneRowServices {} 4 first.2
    first.1 = .ok () ∧ second.1 = .ok () ∧ (rows second.2 3).length = 1 ∧
      (second.2.getVersion 3).map (·.chunkCount) = some 0 ∧
      ∀ versionId chunks embeddings, Prepares oneRowServices {} (uploaded .ingest) (uploadJob .ingest)
          versionId chunks embeddings →
        ¬Published oneRowServices second.2 (uploadJob .ingest) versionId chunks embeddings := by
  intro first second
  have hcount : (second.2.getVersion 3).map (·.chunkCount) = some 0 := by decide +kernel
  have hrows : (rows second.2 3).length = 1 := by decide +kernel
  refine ⟨by decide +kernel,by decide +kernel,hrows,hcount,?_⟩
  rintro versionId chunks embeddings hprepared ⟨-,-,version,hversion,hlength⟩
  obtain rfl : versionId = 3 := (Option.some.inj hprepared.version).symm
  rw [hversion] at hcount
  have hzero : version.chunkCount = 0 := Option.some.inj hcount
  omega

end VoxForge.Knowledge
