import Mathlib.Analysis.Real.Sqrt
import VoxForge.Knowledge.Search
import VoxForge.Knowledge.Worker

/-! What a job that fails leaves behind: the searches over its document, and whether the
document can be indexed again. -/
namespace VoxForge.Knowledge
open Core Foundation Persistence

/-- The arguments of one search, with the database it runs on. -/
structure Query where
  db : Pgvector ℝ
  exact : db.Exact Real.sqrt
  postgresql : Bool
  orgId : OrgId
  collectionId : Option Nat
  queryEmbedding : Embedding
  limit : Nat
  minSimilarity : Float

noncomputable def Query.results (q : Query) (tables : Tables) : List (Scored (Float ⊕ ℝ)) :=
  searchChunks q.db tables q.orgId q.postgresql q.queryEmbedding q.collectionId q.limit q.minSimilarity

/-- Some search of the organisation returns a chunk of the document. -/
def Found (tables : Tables) (orgId : OrgId) (documentId : Nat) : Prop :=
  ∃ q : Query, q.orgId = orgId ∧ ∃ row ∈ q.results tables, row.document.id = documentId

/-- Nothing fails, and the embedder returns one vector for each text. -/
structure Services.Faultless (services : Services) : Prop where
  blobGet : ∀ path, ∃ bytes, services.blobGet path = .ok bytes
  parse : ∀ sourceType bytes filename, ∃ parsed, services.parse sourceType bytes filename = .ok parsed
  embedBatch : ∀ texts, ∃ embeddings, services.embedBatch texts = .ok embeddings ∧ embeddings.length = texts.length
  chunkFault : services.chunkFault = none
  storeFault : ∀ n, services.storeFault n = none

/-- A reindex request is accepted, and its job, where nothing fails, publishes the chunks of
the document's text and opens them to searches. -/
def Reindexable (settings : Settings) (tables : Tables) (orgId : OrgId) (documentId : Nat) : Prop :=
  ∃ job accepted, acceptReindex orgId documentId tables = (.ok job,accepted) ∧
    ∀ services : Services, services.Faultless → ∃ after versionId chunks embeddings,
      processJob services settings job.id accepted = (.ok (),after) ∧
      Prepares services settings accepted job versionId chunks embeddings ∧
      Published services after job versionId chunks embeddings ∧ versionId ∈ after.activeVersionIds orgId none

def failedJob (settings : Settings) (tables : Tables) (event : Event) : Option IngestJob :=
  (runs settings tables event).bind fun (services,jobId,started) =>
    match (processJob services settings jobId started).1 with
    | .ok () => none
    | .error _ => started.getJobById jobId

/-- A failing `REINDEX` of a document that searches found leaves every search as it was, and a
document whose job has failed can be indexed again. -/
structure Harmless (settings : Settings) (before after : Tables) (job : IngestJob) : Prop where
  searches : job.jobType = .reindex → Found before job.orgId job.documentId →
    ∀ q : Query, q.results after = q.results before
  recovers : ∀ document, after.getDocument job.documentId job.orgId = some document →
    Reindexable settings after job.orgId job.documentId

/-- The document of a job that fails in the worker has an active version, and if the job is a
`REINDEX` no search finds the document. What fails in a request is rolled back with it. -/
def Spared (settings : Settings) (tables : Tables) (event : Event) : Prop :=
  ∀ services, event = .work services → ∀ job ∈ failedJob settings tables event,
    (∀ document, tables.getDocument job.documentId job.orgId = some document → document.activeVersionId ≠ none) ∧
    ¬(job.jobType = .reindex ∧ Found tables job.orgId job.documentId)

section recovery
variable {settings : Settings} {tables after : Tables} {orgId : OrgId} {documentId : Nat}

theorem wf_empty : Wf {} := by constructor <;> simp

theorem getDocument_of_mem (h : Wf tables) {document : Document} (hmem : document ∈ tables.documents) :
    tables.getDocument document.id document.orgId = some document := by
  have hsome : (tables.getDocument document.id document.orgId).isSome := by
    apply List.find?_isSome.mpr
    exact ⟨document,hmem,by simp⟩
  obtain ⟨found,hfound⟩ := Option.isSome_iff_exists.mp hsome
  have hsame : found.id = document.id ∧ found.orgId = document.orgId := by simpa using List.find?_some hfound
  have heq := List.inj_on_of_nodup_map h.documentIds (List.mem_of_find?_eq_some hfound) hmem hsame.1
  rw [hfound,heq]

theorem ready_of_joined {S : Type} (h : Wf tables) {collectionId : Option Nat} {row : Scored S}
    (hrow : Joined tables orgId collectionId row) :
    tables.getDocument row.document.id orgId = some row.document ∧ row.document.status = .ready := by
  obtain ⟨⟨-,document,hmem,horg,hready,hactive,-⟩,hscored⟩ := hrow
  obtain ⟨version,hversion,hof⟩ := h.active document hmem _ hactive
  obtain ⟨version',hversion',hjoin⟩ := Option.bind_eq_some_iff.mp hscored
  obtain rfl : version = version' := Option.some.inj (hversion.symm.trans hversion')
  obtain ⟨document',hdocument',hresult⟩ := Option.map_eq_some_iff.mp hjoin
  have hsame : document' = document := by
    rw [hof] at hdocument'
    exact Option.some.inj (hdocument'.symm.trans (find?_key h.documentIds hmem))
  have hrowDocument : row.document = document := by rw [← hresult,← hsame]
  rw [hrowDocument,← horg]
  exact ⟨getDocument_of_mem h hmem,hready⟩

/-- A searchable chunk with an embedding is found by the search for that embedding. -/
theorem found_of_searchable {chunk : Chunk} (hchunk : chunk ∈ tables.chunks)
    (hsearchable : Searchable tables orgId none chunk) {embedding : Embedding} (hembedding : chunk.embedding = some embedding)
    (hne : embedding ≠ []) {version : DocumentVersion} (hversion : tables.getVersion chunk.documentVersionId = some version)
    {document : Document} (hdocument : tables.documents.find? (·.id = version.documentId) = some document) :
    Found tables orgId document.id := by
  let similarity := cosineSimilarity embedding embedding
  let row : Scored Float := { chunk, similarity, document, version }
  have hscored : tables.scored chunk similarity = some row := by
    unfold Tables.scored
    rw [hversion,Option.bind_some,hdocument]
    rfl
  have hactive := mem_activeVersionIds.mpr hsearchable
  refine ⟨⟨Pgvector.stable Real.sqrt,Pgvector.stable_exact Real.sqrt,false,orgId,none,embedding,tables.chunks.length,
    similarity⟩,rfl,row.map .inl,?_,rfl⟩
  unfold Query.results searchChunks searchSqlite
  dsimp only
  rw [if_neg (List.ne_nil_of_mem hactive.2),if_neg Bool.false_ne_true,List.take_of_length_le]
  · apply List.mem_map_of_mem
    apply (List.mergeSort_perm _ _).mem_iff.mpr
    refine List.mem_filterMap.mpr ⟨chunk,List.mem_filter.mpr ⟨hchunk,by simpa using hactive⟩,?_⟩
    rw [hembedding,Option.filter_some,if_pos (decide_eq_true hne),Option.bind_some,if_neg (float_lt_irrefl similarity)]
    exact hscored
  · rw [List.length_mergeSort]
    exact (List.length_filterMap_le _ _).trans (List.length_filter_le _ _)

theorem getJobById_enqueue (h : Wf tables) (orgId : OrgId) (documentId : Nat) (jobType : IngestJobType) (versionId : Option Nat) :
    (tables.enqueue orgId documentId jobType versionId).2.getJobById
      (tables.enqueue orgId documentId jobType versionId).1.id =
        some (tables.enqueue orgId documentId jobType versionId).1 := by
  have hnone : tables.jobs.find? (·.id = tables.nextId) = none := by
    simpa [List.find?_eq_none] using fun j hj => Nat.ne_of_lt (h.jobs j hj)
  unfold Tables.getJobById Tables.enqueue
  rw [List.find?_append,hnone]
  simp

theorem mem_activeVersionIds_of_getDocument {document : Document} {versionId : Nat}
    (hdocument : tables.getDocument documentId orgId = some document) (hready : document.status = .ready)
    (hactive : document.activeVersionId = some versionId) : versionId ∈ tables.activeVersionIds orgId none := by
  have hsame : document.id = documentId ∧ document.orgId = orgId := by simpa using List.find?_some hdocument
  apply List.mem_filterMap.mpr
  refine ⟨document,List.mem_filter.mpr ⟨List.mem_of_find?_eq_some hdocument,?_⟩,hactive⟩
  simp [hsame.2,hready]

theorem embedChunks_faultless {services : Services} (hfaultless : services.Faultless) (chunks : List RawChunk) :
    ∃ embeddings, embedChunks services chunks = .ok embeddings ∧ chunks.length = embeddings.length := by
  unfold embedChunks
  split
  · next hnone => exact ⟨[],rfl,by rw [hnone]; rfl⟩
  · obtain ⟨embeddings,hok,hlength⟩ := hfaultless.embedBatch (chunks.map (·.content))
    rw [List.length_map] at hlength
    exact ⟨embeddings,hok,hlength.symm⟩

/-- A reindex request is accepted, and comes to its end, where the document has an active version. -/
theorem reindexable (h : Wf tables) {document : Document} (hdocument : tables.getDocument documentId orgId = some document)
    (hactive : document.activeVersionId ≠ none) : Reindexable settings tables orgId documentId := by
  obtain ⟨versionId,hversionId⟩ := Option.ne_none_iff_exists'.mp hactive
  obtain ⟨version,hversion,-⟩ := h.active document (List.mem_of_find?_eq_some hdocument) versionId hversionId
  have hid : version.id = versionId := by simpa using List.find?_some hversion
  have hgetActive : tables.getActiveVersion documentId orgId = some version := by
    unfold Tables.getActiveVersion
    rw [hdocument,Option.bind_some,hversionId,Option.bind_some,hversion]
  have haccept : acceptReindex orgId documentId tables =
      (.ok (tables.enqueue orgId documentId .reindex (some version.id)).1,
        (tables.enqueue orgId documentId .reindex (some version.id)).2) := by
    unfold acceptReindex
    rw [hdocument]
    dsimp only
    rw [hgetActive]
  have hjob := getJobById_enqueue h orgId documentId .reindex (some version.id)
  refine ⟨_,_,haccept,fun services hfaultless => ?_⟩
  -- The job finds its rows, and every call of it answers.
  obtain ⟨bytes,hbytes⟩ := hfaultless.blobGet version.blobPath
  obtain ⟨parsed,hparsed⟩ := hfaultless.parse document.sourceType bytes (version.filename.getD "document")
  have hblob : parseBlob services document version = .ok parsed := by
    unfold parseBlob
    rw [hbytes]
    exact hparsed
  generalize htask : (tables.enqueue orgId documentId .reindex (some version.id)).1 = job at hjob ⊢
  generalize hstart : (tables.enqueue orgId documentId .reindex (some version.id)).2 = accepted at hjob ⊢
  have hjobDocument : job.documentId = documentId ∧ job.orgId = orgId := by rw [← htask]; exact ⟨rfl,rfl⟩
  have hstarted : accepted.getDocument job.documentId job.orgId = some document := by
    rw [hjobDocument.1,hjobDocument.2,← hstart]
    exact hdocument
  obtain ⟨embeddings,hembedded,hlength⟩ :=
    embedChunks_faultless hfaultless (chunk parsed (chunkingConfig settings document accepted))
  have hprepared : Prepares services settings accepted job version.id
      (chunk parsed (chunkingConfig settings document accepted)) embeddings := by
    refine ⟨by rw [← htask]; rfl,hfaultless.chunkFault,⟨document,version,parsed,hstarted,?_,hblob,rfl⟩,hembedded⟩
    rw [← hstart,hid]
    exact hversion
  obtain ⟨stored,hstored,hingest,hpublished⟩ := publishes hprepared (.inl (by rw [← htask]; rfl)) hlength
    fun i _ => hfaultless.storeFault i
  refine ⟨_,version.id,_,embeddings,processJob_eq hjob hingest,hprepared,hpublished job (.refl job),?_⟩
  have hbegun : stored.getDocument job.documentId job.orgId =
      (accepted.getDocument job.documentId job.orgId).map fun d => { d with status := .processing } := by
    rw [← getDocument_begun]
    unfold Tables.getDocument
    rw [hstored.documents]
  have hdone := getDocument_published stored job version.id
    (chunk parsed (chunkingConfig settings document accepted)).length
  rw [hbegun,hstarted,hjobDocument.1,hjobDocument.2] at hdone
  exact mem_activeVersionIds_of_getDocument hdone rfl rfl

theorem failedJob_eq {event : Event} {job : IngestJob} (h : job ∈ failedJob settings tables event) :
    ∃ services jobId started e failed, runs settings tables event = some (services,jobId,started) ∧
      processJob services settings jobId started = (.error e,failed) ∧ started.getJobById jobId = some job := by
  obtain ⟨⟨services,jobId,started⟩,hruns,hjob⟩ := Option.bind_eq_some_iff.mp h
  dsimp only at hjob
  split at hjob
  · cases hjob
  · next e he => exact ⟨services,jobId,started,e,_,hruns,Prod.ext he rfl,hjob⟩

/-- After a failure in the worker the document keeps its active version and is marked. -/
theorem failed_work {services : Services} {job : IngestJob} (h : job ∈ failedJob settings tables (.work services))
    (hstep : step settings tables (.work services) = some after) :
    Processing tables after ∧ ∃ f : Document → Document,
      after.getDocument job.documentId job.orgId = (tables.getDocument job.documentId job.orgId).map f ∧
      ∀ d, (f d).status = .failed ∧ (f d).activeVersionId = d.activeVersionId := by
  obtain ⟨services',jobId,started,e,failed,hruns,hfailed,hjob⟩ := failedJob_eq h
  obtain ⟨⟨queued,claimed⟩,hclaim,heq⟩ := Option.map_eq_some_iff.mp hruns
  obtain ⟨rfl,rfl,rfl⟩ : services = services' ∧ queued.id = jobId ∧ claimed = started := by simpa using heq
  have hafter : after = failed := by
    cases hstep
    unfold work
    rw [hclaim]
    dsimp only
    rw [hfailed]
  obtain ⟨job',middle,hjob',hprocessing,rfl⟩ := processJob_error hfailed
  obtain rfl : job = job' := Option.some.inj (hjob.symm.trans hjob')
  have hmiddle := (claimNext_processing hclaim).trans hprocessing
  rw [hafter]
  refine ⟨hmiddle.trans (.status middle _ _ _),?_⟩
  obtain ⟨f,hf,hfs⟩ := hmiddle.getDocument job.documentId job.orgId
  refine ⟨fun d => { f d with status := .failed },?_,fun d => ⟨rfl,?_⟩⟩
  · have hmarked := getDocument_updateDocument middle (f := fun d => { d with status := .failed }) (fun _ => ⟨rfl,rfl⟩)
      job.documentId job.orgId
    rw [hf,Option.map_map] at hmarked
    exact hmarked
  · obtain ⟨status,hd⟩ := hfs d
    change (f d).activeVersionId = d.activeVersionId
    rw [hd]

/-- A failure in the worker does no harm exactly if the document has an active version and was
not to be found before a `REINDEX`. -/
theorem harmless_work_iff (hwf : Wf tables) {services : Services} {job : IngestJob}
    (h : job ∈ failedJob settings tables (.work services)) (hstep : step settings tables (.work services) = some after) :
    Harmless settings tables after job ↔
      (∀ document, tables.getDocument job.documentId job.orgId = some document → document.activeVersionId ≠ none) ∧
      ¬(job.jobType = .reindex ∧ Found tables job.orgId job.documentId) := by
  obtain ⟨hprocessing,f,hf,hfs⟩ := failed_work h hstep
  have hwfAfter := hprocessing.wf hwf
  constructor
  · intro hharmless
    refine ⟨fun document hdocument => ?_,?_⟩
    · rw [hdocument,Option.map_some] at hf
      obtain ⟨accepted,tables',haccept,-⟩ := hharmless.recovers _ hf
      obtain ⟨document',version,hdocument',hversion,-⟩ := acceptReindex_ok haccept
      obtain ⟨found,hfound,hactive⟩ := Option.bind_eq_some_iff.mp hversion
      obtain rfl : f document = found := Option.some.inj (hf.symm.trans hfound)
      intro hnone
      rw [(hfs document).2,hnone] at hactive
      cases hactive
    · -- The search that found the document returns ready documents only.
      rintro ⟨htype,q,hq,row,hrow,hid⟩
      have hfound : Found tables job.orgId job.documentId := ⟨q,hq,row,hrow,hid⟩
      rw [← hharmless.searches htype hfound q] at hrow
      have hjoined := joined_of_mem_searchChunks (fun key rows => q.exact.perm key rows) hrow
      obtain ⟨hget,hready⟩ := ready_of_joined hwfAfter hjoined
      rw [hid,hq,hf] at hget
      obtain ⟨document,-,hmarked⟩ := Option.map_eq_some_iff.mp hget
      rw [← hmarked,(hfs document).1] at hready
      cases hready
  · rintro ⟨hactive,hnotFound⟩
    refine ⟨fun htype hfound => absurd ⟨htype,hfound⟩ hnotFound,fun document hdocument => ?_⟩
    apply reindexable hwfAfter hdocument
    rw [hf] at hdocument
    obtain ⟨document',hdocument',rfl⟩ := Option.map_eq_some_iff.mp hdocument
    rw [(hfs document').2]
    exact hactive document' hdocument'

theorem rolledBack {event : Event} (hevent : ∀ services, event ≠ .work services) {services : Services} {jobId : Nat}
    {started failed : Tables} {e : String} (hruns : runs settings tables event = some (services,jobId,started))
    (hfailed : processJob services settings jobId started = (.error e,failed)) :
    step settings tables event = some tables := by
  cases event with
  | createCollection orgId chunkingConfig => cases hruns
  | work services => exact absurd rfl (hevent services)
  | upload upload services' request =>
    dsimp only [runs] at hruns
    split at hruns
    · cases hruns
    · next hworker =>
      split at hruns
      · cases hruns
      · next haccept =>
        cases hruns
        simp only [step,uploadDocument,haccept,inline,if_neg hworker,hfailed]
        rfl
  | reindex services' orgId documentId =>
    dsimp only [runs] at hruns
    split at hruns
    · cases hruns
    · next hworker =>
      split at hruns
      · cases hruns
      · next haccept =>
        cases hruns
        simp only [step,reindexDocument,haccept,inline,if_neg hworker,hfailed]
        rfl

/-- The job that an upload runs is the first of a document that it has created. -/
theorem job_of_upload (hwf : Wf tables) {upload : UploadServices} {services services' : Services} {request : Upload}
    {jobId : Nat} {started : Tables} (hruns : runs settings tables (.upload upload services' request) =
      some (services,jobId,started)) {job : IngestJob} (hjob : started.getJobById jobId = some job) :
    job.documentId = tables.nextId := by
  dsimp only [runs] at hruns
  split at hruns
  · cases hruns
  · split at hruns
    · cases hruns
    · next document queued accepted haccept =>
      cases hruns
      obtain ⟨stored,versionId,hstored,-,henqueue⟩ := acceptUpload_ok hwf haccept
      have henqueued := getJobById_enqueue hstored request.orgId tables.nextId .ingest (some versionId)
      rw [← henqueue,hjob] at henqueued
      obtain rfl : job = queued := Option.some.inj henqueued
      have htask : job = (stored.enqueue request.orgId tables.nextId .ingest (some versionId)).1 :=
        (Prod.mk.inj henqueue).1
      rw [htask]
      rfl

/-- The job that a reindex request runs is one of a document with an active version. -/
theorem job_of_reindex (hwf : Wf tables) {services services' : Services} {orgId : OrgId} {documentId : Nat} {jobId : Nat}
    {started : Tables} (hruns : runs settings tables (.reindex services' orgId documentId) =
      some (services,jobId,started)) {job : IngestJob} (hjob : started.getJobById jobId = some job)
    {document : Document} (hdocument : tables.getDocument job.documentId job.orgId = some document) :
    document.activeVersionId ≠ none := by
  dsimp only [runs] at hruns
  split at hruns
  · cases hruns
  · split at hruns
    · cases hruns
    · next queued accepted haccept =>
      cases hruns
      obtain ⟨found,version,hfound,hversion,henqueue⟩ := acceptReindex_ok haccept
      have henqueued := getJobById_enqueue hwf orgId documentId .reindex (some version.id)
      rw [← henqueue,hjob] at henqueued
      obtain rfl : job = queued := Option.some.inj henqueued
      have htask : job = (tables.enqueue orgId documentId .reindex (some version.id)).1 :=
        (Prod.mk.inj henqueue).1
      have hsame : job.documentId = documentId ∧ job.orgId = orgId := by rw [htask]; exact ⟨rfl,rfl⟩
      rw [hsame.1,hsame.2] at hdocument
      unfold Tables.getActiveVersion at hversion
      rw [hdocument,Option.bind_some] at hversion
      intro hnone
      rw [hnone] at hversion
      cases hversion

/-- A request whose job fails has been accepted for a document that can be indexed. -/
theorem harmless_request (hwf : Wf tables) {event : Event} (hevent : ∀ services, event ≠ .work services)
    {job : IngestJob} (h : job ∈ failedJob settings tables event) (hstep : step settings tables event = some after) :
    Harmless settings tables after job := by
  obtain ⟨services,jobId,started,e,failed,hruns,hfailed,hjob⟩ := failedJob_eq h
  obtain rfl : tables = after := Option.some.inj ((rolledBack hevent hruns hfailed).symm.trans hstep)
  refine ⟨fun _ _ _ => rfl,fun document hdocument => ?_⟩
  cases event with
  | createCollection orgId chunkingConfig => cases hruns
  | work services => exact absurd rfl (hevent services)
  | upload upload services' request =>
    -- The document has been created and is gone with the rest.
    have hnew := job_of_upload hwf hruns hjob
    have hid : document.id = job.documentId ∧ document.orgId = job.orgId := by
      simpa using List.find?_some hdocument
    have hold := hwf.documents document (List.mem_of_find?_eq_some hdocument)
    rw [hid.1,hnew] at hold
    exact absurd hold (Nat.lt_irrefl _)
  | reindex services' orgId documentId => exact reindexable hwf hdocument (job_of_reindex hwf hruns hjob hdocument)

end recovery

/-- A failing job does no harm, in every run of requests and of the worker, exactly if every
job that fails in the worker is one whose document has an active version and, where it is a
`REINDEX`, is found by no search. -/
theorem job_failure_harmless_iff (settings : Settings) (events : List Event) :
    (∀ before event after, Fires (step settings) {} events before event after →
      ∀ job ∈ failedJob settings before event, Harmless settings before after job) ↔
    ∀ before event after, Fires (step settings) {} events before event after → Spared settings before event := by
  have hwf {before after : Tables} {event : Event} (hfires : Fires (step settings) {} events before event after) :
      Wf before := hfires.before.invariant wf_empty fun _ _ _ h hstep => step_wf h hstep
  constructor
  · intro h before event after hfires services hevent job hjob
    obtain ⟨-,-,-,hstep⟩ := id hfires
    subst hevent
    exact (harmless_work_iff (hwf hfires) hjob hstep).mp (h before _ after hfires job hjob)
  · intro h before event after hfires job hjob
    obtain ⟨-,-,-,hstep⟩ := id hfires
    by_cases hevent : ∃ services, event = .work services
    · obtain ⟨services,rfl⟩ := hevent
      exact (harmless_work_iff (hwf hfires) hjob hstep).mpr (h before _ after hfires services rfl job hjob)
    · exact harmless_request (hwf hfires) (fun services heq => hevent ⟨services,heq⟩) hjob hstep

def embedderDown : Services := { oneRowServices with embedBatch := fun _ => .error "Connection refused" }

def priceUpload : UploadServices where
  safeUploadFilename filename := filename
  detectSourceType _ _ := .ok .csv
  normalizeText text := text
  blobPut _ _ := .ok ()

def prices : Upload := { orgId := 1, collectionId := 1, filename := "prices.csv", content := ByteArray.empty }

def uploadPrices : List Event := [.createCollection 1 {},.upload priceUpload oneRowServices prices]

/-- The same document, indexed and to be indexed again. -/
def reindexPrices : List Event := uploadPrices ++ [.work oneRowServices,.reindex oneRowServices 1 2]

def worker : Settings := { knowledgeWorkerEnabled := true }

/-- A first job that fails leaves a document that cannot be indexed, and a failing `REINDEX`
one that is no longer found. -/
theorem embedder_down_is_harmful :
    (∃ before after job, Fires (step worker) {} (uploadPrices ++ [.work embedderDown]) before (.work embedderDown) after ∧
      failedJob worker before (.work embedderDown) = some job ∧ ¬Harmless worker before after job) ∧
    ∃ before after job, Fires (step worker) {} (reindexPrices ++ [.work embedderDown]) before (.work embedderDown) after ∧
      failedJob worker before (.work embedderDown) = some job ∧ ¬Harmless worker before after job := by
  have hfires (events : List Event) (hrun : (run (step worker) {} events).isSome) :
      Fires (step worker) {} (events ++ [.work embedderDown]) ((run (step worker) {} events).get hrun) (.work embedderDown)
        (work worker embedderDown ((run (step worker) {} events).get hrun)) :=
    ⟨events,List.prefix_rfl,(Option.some_get hrun).symm,rfl⟩
  have hwf {events : List Event} {before : Tables} {event : Event} {after : Tables}
      (h : Fires (step worker) {} events before event after) : Wf before :=
    h.before.invariant wf_empty fun _ _ _ h hstep => step_wf h hstep
  constructor
  · have hfirst := hfires uploadPrices (by decide +kernel)
    generalize hbefore : (run (step worker) {} uploadPrices).get _ = before at hfirst
    have hfailed : failedJob worker before (.work embedderDown) =
        some { id := 4, orgId := 1, documentId := 2, documentVersionId := some 3, jobType := .ingest, createdAt := 4,
               status := .running, stage := some .parsing } := by
      rw [← hbefore]
      decide +kernel
    refine ⟨before,_,_,hfirst,hfailed,fun hharmless => ?_⟩
    have hactive := ((harmless_work_iff (hwf hfirst) hfailed rfl).mp hharmless).1
    have hnone : (before.getDocument 2 1).map (·.activeVersionId) = some none := by
      rw [← hbefore]
      decide +kernel
    obtain ⟨document,hdocument,hversion⟩ := Option.map_eq_some_iff.mp hnone
    exact hactive document hdocument hversion
  · have hsecond := hfires reindexPrices (by decide +kernel)
    generalize hbefore : (run (step worker) {} reindexPrices).get _ = before at hsecond
    have hfailed : failedJob worker before (.work embedderDown) =
        some { id := 6, orgId := 1, documentId := 2, documentVersionId := some 3, jobType := .reindex, createdAt := 6,
               status := .running, stage := some .parsing } := by
      rw [← hbefore]
      decide +kernel
    refine ⟨before,_,_,hsecond,hfailed,fun hharmless => ?_⟩
    have hnotFound := ((harmless_work_iff (hwf hsecond) hfailed rfl).mp hharmless).2
    have hsearchable : ∃ chunk ∈ before.chunks, Searchable before 1 none chunk ∧ chunk.embedding = some [1] ∧
        ((before.getVersion chunk.documentVersionId).bind fun version =>
          before.documents.find? (·.id = version.documentId)).map (·.id) = some 2 := by
      rw [← hbefore]
      decide +kernel
    obtain ⟨chunk,hchunk,hactive,hembedding,hjoin⟩ := hsearchable
    obtain ⟨document,hdocument,hid⟩ := Option.map_eq_some_iff.mp hjoin
    obtain ⟨version,hversion,hof⟩ := Option.bind_eq_some_iff.mp hdocument
    have hfound := found_of_searchable hchunk hactive hembedding (List.cons_ne_nil 1 []) hversion hof
    rw [hid] at hfound
    exact hnotFound ⟨rfl,hfound⟩

end VoxForge.Knowledge
