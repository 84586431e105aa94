import VoxForge.Knowledge.JobQueue

/-! Transactions that nothing interleaves with: executed to their end one after another, the
programs are the rounds and requests as one state transformer each. -/
namespace VoxForge.Knowledge.JobQueue
open Core Foundation Prog

def Write.inserts : Write → Bool
  | .insertJob _ | .insertDocument _ | .insertVersion _ | .insertChunk _ => true
  | _ => false

/-- Execute a statement at once, with ids and times from the counter of the tables. -/
def alone (upload : UploadServices) (services : Services) (o : Statement) (tables : Tables) :
    Except String o.Reply × Tables :=
  let outcome := execute { skipped := [], newId := tables.nextId, now := tables.nextId, upload, services } tables () o
  let written := outcome.2.1.foldl Write.apply tables
  (outcome.1,{ written with nextId := tables.nextId + outcome.2.1.countP Write.inserts })

section alone
variable {settings : Settings} {upload : UploadServices} {services : Services} {tables after : Tables}

theorem exec_request {β : Type} {o : Statement} {a : o.Reply} {f : o.Reply → Work β}
    (h : alone upload services o tables = (.ok a,after)) :
    exec (alone upload services) (request o >>= f) tables = exec (alone upload services) (f a) after :=
  exec_bind_ok _ _ ((exec_perform _ _ o).trans h) f

theorem exec_request_error {β : Type} {o : Statement} {e : String} {f : o.Reply → Work β}
    (h : alone upload services o tables = (.error e,after)) :
    exec (alone upload services) (request o >>= f) tables = (.error e,after) :=
  exec_bind_error _ _ ((exec_perform _ _ o).trans h) f

/-! The statements -/

theorem foldl_deleteChunk (keys : List (Nat × Nat)) (tables : Tables) :
    (keys.map fun key => Write.deleteChunk key.1 key.2).foldl Write.apply tables =
      { tables with chunks := tables.chunks.filter fun c => (c.documentVersionId,c.chunkIndex) ∉ keys } := by
  induction keys generalizing tables with
  | nil => simp
  | cons key keys ih =>
    rw [List.map_cons,List.foldl_cons,ih]
    unfold Write.apply
    simp only [List.filter_filter]
    congr 1
    refine List.filter_congr fun c _ => ?_
    obtain ⟨versionId,chunkIndex⟩ := key
    by_cases hv : c.documentVersionId = versionId <;> by_cases hi : c.chunkIndex = chunkIndex <;> simp [hv,hi]

/-- Chunks that are told by their keys are deleted one by one as by one condition. -/
theorem foldl_chunkKeys {gone : Chunk → Bool} (tables : Tables)
    (hkeys : ∀ c d : Chunk, c.documentVersionId = d.documentVersionId → c.chunkIndex = d.chunkIndex → gone c = gone d) :
    (chunkKeys tables gone).foldl Write.apply tables = { tables with chunks := tables.chunks.filter (!gone ·) } := by
  have hmap : chunkKeys tables gone =
      ((tables.chunks.filter gone).map fun c => (c.documentVersionId,c.chunkIndex)).map fun key =>
        Write.deleteChunk key.1 key.2 := by
    rw [List.map_map]
    rfl
  rw [hmap,foldl_deleteChunk]
  congr 1
  refine List.filter_congr fun c hc => ?_
  rw [Bool.eq_iff_iff]
  simp only [List.mem_map,List.mem_filter,Prod.mk.injEq,decide_eq_true_eq,Bool.not_eq_true']
  constructor
  · intro hnone
    rw [← Bool.not_eq_true]
    exact fun hgone => hnone ⟨c,⟨hc,hgone⟩,rfl,rfl⟩
  · rintro hkept ⟨d,⟨-,hgone⟩,hv,hi⟩
    rw [hkeys c d hv.symm hi.symm,hgone] at hkept
    cases hkept

theorem countP_chunkKeys (gone : Chunk → Bool) : (chunkKeys tables gone).countP Write.inserts = 0 := by
  refine List.countP_eq_zero.mpr fun w hw => ?_
  obtain ⟨c,-,rfl⟩ := List.mem_map.mp hw
  exact Bool.false_ne_true

theorem alone_deleteByVersion (versionId : Nat) :
    alone upload services (.deleteByVersion versionId) tables = (.ok (),tables.deleteByVersion versionId) := by
  simp only [alone,execute,answer,countP_chunkKeys]
  rw [foldl_chunkKeys tables (by rintro c d hv -; simp [hv])]
  simp [Tables.deleteByVersion]

theorem alone_deleteChunksByIndices (versionId : Nat) (chunkIndices : List Nat) :
    alone upload services (.deleteChunksByIndices versionId chunkIndices) tables =
      (.ok (),tables.deleteChunksByIndices versionId chunkIndices) := by
  simp only [alone,execute,answer,countP_chunkKeys]
  rw [foldl_chunkKeys tables (by intro c d hv hi; simp [hv,hi])]
  rfl

theorem alone_insertChunk_error {n : Nat} {e : String} (hfault : services.storeFault n = some e) (orgId : OrgId)
    (versionId : Nat) (raw : RawChunk) (embedding : Embedding) :
    alone upload services (.insertChunk n orgId versionId raw embedding) tables = (.error e,tables) := by
  simp only [alone,execute,hfault]
  rfl

theorem alone_insertChunk {n : Nat} (hfault : services.storeFault n = none) (orgId : OrgId) (versionId : Nat)
    (raw : RawChunk) (embedding : Embedding) :
    alone upload services (.insertChunk n orgId versionId raw embedding) tables =
      (.ok (tables.insertChunk services.sha256 orgId versionId raw embedding).1,
        (tables.insertChunk services.sha256 orgId versionId raw embedding).2) := by
  simp only [alone,execute,hfault,Tables.insertChunk]
  split
  · rfl
  · rfl

/-! The run of a job -/

theorem exec_upsertChunks (orgId : OrgId) (versionId : Nat) (pairs : List (RawChunk × Embedding)) (n : Nat)
    (tables : Tables) : exec (alone upload services) (upsertChunks orgId versionId pairs n) tables =
      Knowledge.upsertChunks services orgId versionId pairs n tables := by
  induction pairs generalizing n tables with
  | nil => rfl
  | cons pair rest ih =>
    obtain ⟨raw,embedding⟩ := pair
    unfold upsertChunks Knowledge.upsertChunks
    cases hfault : services.storeFault n with
    | some e => rw [exec_request_error (alone_insertChunk_error hfault orgId versionId raw embedding)]
    | none =>
      rw [exec_request (alone_insertChunk hfault orgId versionId raw embedding),exec_bind,ih]
      dsimp only
      rcases Knowledge.upsertChunks services orgId versionId rest (n + 1)
        (tables.insertChunk services.sha256 orgId versionId raw embedding).2 with ⟨r | r,t⟩ <;> rfl

theorem exec_hashChunks (chunks : List RawChunk) :
    exec (alone upload services) (hashChunks chunks) tables =
      (.ok (chunks.map fun c => (c.chunkIndex,services.sha256 c.content)),tables) := by
  induction chunks with
  | nil => rfl
  | cons c rest ih =>
    unfold hashChunks
    have hhash : alone upload services (.sha256 c.content) tables = (.ok (services.sha256 c.content),tables) := rfl
    rw [exec_request hhash,exec_bind_ok _ _ ih]
    rfl

theorem exec_zipped (chunks : List RawChunk) (embeddings : List Embedding) :
    exec (alone upload services) (zipped chunks embeddings) tables = (zipStrict chunks embeddings,tables) := by
  unfold zipped
  split
  · next pairs h => rw [h]; rfl
  · next e h => rw [h]; rfl

theorem exec_selectPairs (job : IngestJob) (versionId : Nat) (chunks : List RawChunk) (embeddings : List Embedding) :
    exec (alone upload services) (selectPairs job versionId chunks embeddings) tables =
      Knowledge.selectPairs services job versionId chunks embeddings tables := by
  unfold selectPairs Knowledge.selectPairs
  split
  · rw [exec_request (alone_deleteByVersion versionId),exec_zipped]
  · have hhashes : alone upload services (.getChunkHashes versionId) tables = (.ok (tables.getChunkHashes versionId),tables) := rfl
    rw [exec_request hhashes,exec_bind_ok _ _ (exec_hashChunks chunks)]
    dsimp only
    split
    · rw [exec_request (alone_deleteChunksByIndices versionId _),exec_bind,exec_zipped]
      cases zipStrict chunks embeddings <;> rfl
    · rw [exec_bind,exec_zipped]
      cases zipStrict chunks embeddings <;> rfl

theorem getDocument_orgId {documentId : Nat} {orgId : OrgId} {document : Document}
    (h : tables.getDocument documentId orgId = some document) : document.orgId = orgId := by
  have hfound := List.find?_some h
  simp only [Bool.and_eq_true,decide_eq_true_eq] at hfound
  exact hfound.2

theorem configOf_eq {document : Document} {orgId : OrgId} (h : document.orgId = orgId) (tables : Tables) :
    configOf settings (tables.getCollection document.collectionId orgId) = chunkingConfig settings document tables := by
  unfold configOf chunkingConfig
  rw [h]
  cases tables.getCollection document.collectionId orgId <;> rfl

/-- The end of a job: what is done from the chunks on. -/
theorem exec_indexChunks (job : IngestJob) (versionId : Nat) (chunks : List RawChunk) (embeddings : List Embedding) :
    exec (alone upload services) (do
      let pairs ← selectPairs job versionId chunks embeddings
      let indexed ← upsertChunks job.orgId versionId pairs 0
      request (.updateVersionChunkCount versionId indexed)
      request (.setActiveVersion job.documentId job.orgId versionId)
      request (.updateDocumentStatus job.documentId job.orgId .ready)
      request (.completeJob job.id)) tables = indexChunks services job versionId chunks embeddings tables := by
  rw [exec_bind,exec_selectPairs]
  unfold indexChunks
  rcases Knowledge.selectPairs services job versionId chunks embeddings tables with ⟨e | pairs,selected⟩
  · rfl
  · dsimp only
    rw [exec_bind,exec_upsertChunks job.orgId versionId pairs 0 selected]
    rcases Knowledge.upsertChunks services job.orgId versionId pairs 0 selected with ⟨e | indexed,stored⟩
    · rfl
    · rfl

theorem alone_chunk_error {parsed : ParsedDocument} {config : ChunkingConfig} {e : String}
    (hfault : services.chunkFault = some e) :
    alone upload services (.chunk parsed config) tables = (.error e,tables) := by
  simp only [alone,execute,hfault]
  rfl

theorem alone_chunk {parsed : ParsedDocument} {config : ChunkingConfig} (hfault : services.chunkFault = none) :
    alone upload services (.chunk parsed config) tables = (.ok (Knowledge.chunk parsed config),tables) := by
  simp only [alone,execute,hfault]
  rfl

theorem exec_ingest (job : IngestJob) :
    exec (alone upload services) (ingest settings job) tables = Knowledge.ingest services settings job tables := by
  unfold ingest Knowledge.ingest
  have hdocument : alone upload services (.getDocument job.documentId job.orgId) tables =
      (.ok (tables.getDocument job.documentId job.orgId),tables) := rfl
  rw [exec_request hdocument]
  cases hfound : tables.getDocument job.documentId job.orgId with
  | none => rfl
  | some document =>
    cases job.documentVersionId with
    | none => rfl
    | some versionId =>
      have hversion : alone upload services (.getVersion versionId) tables = (.ok (tables.getVersion versionId),tables) := rfl
      dsimp only
      rw [exec_request hversion]
      cases tables.getVersion versionId with
      | none => rfl
      | some version =>
        have hstatus (t : Tables) (status : DocumentStatus) :
            alone upload services (.updateDocumentStatus job.documentId job.orgId status) t =
              (.ok (),t.updateDocumentStatus job.documentId job.orgId status) := rfl
        have hprogress (t : Tables) (pct : Nat) (stage : IngestStage) :
            alone upload services (.updateProgress job.id pct stage) t = (.ok (),t.updateProgress job.id pct stage) := rfl
        have hparse (t : Tables) : alone upload services (.parseBlob document version) t =
            (Knowledge.parseBlob services document version,t) := rfl
        have hcollection (t : Tables) : alone upload services (.getCollection document.collectionId job.orgId) t =
            (.ok (t.getCollection document.collectionId job.orgId),t) := rfl
        have hembed (t : Tables) (chunks : List RawChunk) :
            alone upload services (.embed chunks) t = (embedChunks services chunks,t) := rfl
        dsimp only
        rw [exec_request (hstatus _ _),exec_request (hprogress _ _ _)]
        cases hparsed : Knowledge.parseBlob services document version with
        | error e => rw [exec_request_error ((hparse _).trans (by rw [hparsed]))]
        | ok parsed =>
          rw [exec_request ((hparse _).trans (by rw [hparsed])),exec_request (hprogress _ _ _),exec_request (hcollection _),
            configOf_eq (getDocument_orgId hfound)]
          dsimp only
          cases hfault : services.chunkFault with
          | some e => rw [exec_request_error (alone_chunk_error hfault)]
          | none =>
            rw [exec_request (alone_chunk hfault),exec_request (hprogress _ _ _)]
            dsimp only
            generalize Knowledge.chunk parsed _ = chunks
            cases hembedded : embedChunks services chunks with
            | error e => rw [exec_request_error ((hembed _ chunks).trans (by rw [hembedded]))]
            | ok embeddings =>
              rw [exec_request ((hembed _ chunks).trans (by rw [hembedded])),exec_request (hprogress _ _ _)]
              exact exec_indexChunks job versionId chunks embeddings

/-- Alone, the statements of `process_job` are the whole of it. -/
theorem exec_processJob (k : Nat) :
    exec (alone upload services) (processJob settings k) tables = Knowledge.processJob services settings k tables := by
  unfold processJob Knowledge.processJob
  have hjob : alone upload services (.selectJob k) tables = (.ok (tables.getJobById k),tables) := rfl
  rw [exec_request hjob]
  cases hfound : tables.getJobById k with
  | none => rfl
  | some job =>
    have hid : job.id = k := by
      have hfound : tables.jobs.find? (fun job => decide (job.id = k)) = some job := hfound
      have hid := List.find?_some hfound
      exact of_decide_eq_true hid
    dsimp only
    rw [exec_tryCatch,exec_ingest job]
    rcases Knowledge.ingest services settings job tables with ⟨e | u,ended⟩
    · have hfail : alone upload services (.failJob job.id e) ended = (.ok (),ended.failJob job.id e) := rfl
      have hstatus (t : Tables) : alone upload services (.updateDocumentStatus job.documentId job.orgId .failed) t =
          (.ok (),t.updateDocumentStatus job.documentId job.orgId .failed) := rfl
      dsimp only
      unfold recordFailure
      rw [exec_request hfail,exec_request (hstatus _),hid]
      rfl
    · rfl

theorem getJobById_unique {job : IngestJob} (h : UniqueJobs tables) (hjob : job ∈ tables.jobs) :
    tables.getJobById job.id = some job := by
  rw [getJobById_eq,rows_singleton (uniqueJobs_iff.mp h job.id) (mem_rows.mpr ⟨hjob,rfl⟩)]
  rfl

theorem alone_lockNextQueued : alone upload services .lockNextQueued tables =
    (.ok ((tables.oldestQueued []).map (·.id)),tables) := by
  simp only [alone,execute,nextQueued]
  cases tables.oldestQueued [] <;> rfl

theorem exec_claimNext (h : UniqueJobs tables) : exec (alone upload services) claimNext tables =
    (.ok (tables.claimNext.map Prod.fst),(tables.claimNext.map Prod.snd).getD tables) := by
  unfold claimNext Tables.claimNext
  rw [exec_request alone_lockNextQueued]
  cases hfound : tables.oldestQueued [] with
  | none => rfl
  | some job =>
    have hselect : alone upload services (.selectJob job.id) tables = (.ok (some job),tables) := by
      rw [← getJobById_unique h (Tables.oldestQueued_eq_some hfound).1.1]
      rfl
    rw [Option.map_some]
    dsimp only
    rw [exec_request hselect]
    rfl

/-- Alone, a round of the worker is one step of the worker. -/
theorem exec_workerRound (h : UniqueJobs tables) :
    exec (alone upload services) (workerRound settings) tables = (.ok (),work settings services tables) := by
  unfold workerRound work
  rw [exec_bind,exec_claimNext h]
  cases tables.claimNext with
  | none => rfl
  | some claimed =>
    obtain ⟨job,claimed⟩ := claimed
    dsimp only [Option.map_some,Option.getD_some]
    rw [exec_tryCatch,exec_processJob job.id]
    rcases Knowledge.processJob services settings job.id claimed with ⟨e | u,ended⟩ <;> rfl

theorem exec_inlineJob (k : Nat) :
    exec (alone upload services) (inlineJob settings k) tables = inline settings services k tables := by
  unfold inlineJob inline
  split
  · rfl
  · exact exec_processJob k

theorem alone_enqueue (orgId : OrgId) (documentId : Nat) (jobType : IngestJobType) (versionId : Option Nat)
    (hfresh : ∀ j ∈ tables.jobs, j.id < tables.nextId) :
    alone upload services (.enqueue orgId documentId jobType versionId) tables =
      (.ok (tables.enqueue orgId documentId jobType versionId).1,(tables.enqueue orgId documentId jobType versionId).2) := by
  have hnone : tables.getJobById tables.nextId = none := by
    refine List.find?_eq_none.mpr fun j hj => ?_
    simpa using (hfresh j hj).ne
  simp only [alone,execute,hnone]
  rfl

/-- A submitted job, in both forms. -/
theorem exec_enqueue {orgId : OrgId} {documentId : Nat} {jobType : IngestJobType} {versionId : Option Nat}
    (hfresh : ∀ j ∈ tables.jobs, j.id < tables.nextId) :
    exec (alone upload services) (do
      let job ← request (.enqueue orgId documentId jobType versionId)
      inlineJob settings job.id) tables =
      inline settings services (tables.enqueue orgId documentId jobType versionId).1.id
        (tables.enqueue orgId documentId jobType versionId).2 := by
  rw [exec_request (alone_enqueue orgId documentId jobType versionId hfresh)]
  exact exec_inlineJob _

theorem alone_createVersion (documentId versionNumber : Nat) (contentHash blobPath filename : String) :
    alone upload services (.createVersion documentId versionNumber contentHash blobPath filename) tables =
      (.ok (tables.createVersion documentId versionNumber contentHash blobPath filename).1,
        (tables.createVersion documentId versionNumber contentHash blobPath filename).2) := by
  cases hfound : tables.versions.find? fun v => v.documentId = documentId && v.versionNumber = versionNumber with
  | none =>
    simp only [alone,execute,Tables.createVersion,hfound]
    rfl
  | some existing =>
    simp only [alone,execute,Tables.createVersion,hfound]
    rfl

theorem createVersion_jobs (tables : Tables) (documentId versionNumber : Nat) (contentHash blobPath filename : String) :
    (tables.createVersion documentId versionNumber contentHash blobPath filename).2.jobs = tables.jobs ∧
      tables.nextId ≤ (tables.createVersion documentId versionNumber contentHash blobPath filename).2.nextId := by
  unfold Tables.createVersion
  split
  · exact ⟨rfl,Nat.le_refl _⟩
  · exact ⟨rfl,Nat.le_succ _⟩

/-- What a request returns beside its end is not looked at. -/
def ended {α : Type} (outcome : Except String α × Tables) : Except String Unit × Tables :=
  (outcome.1.map fun _ => (),outcome.2)

theorem exec_uploadDocument (file : Upload) (hfresh : ∀ j ∈ tables.jobs, j.id < tables.nextId)
    :
    exec (alone upload services) (uploadDocument settings file) tables =
      ended (Knowledge.uploadDocument settings services upload file tables) := by
  have hcollection : alone upload services (.getCollection file.collectionId file.orgId) tables =
      (.ok (tables.getCollection file.collectionId file.orgId),tables) := rfl
  unfold uploadDocument Knowledge.uploadDocument acceptUpload
  rw [exec_request hcollection]
  cases tables.getCollection file.collectionId file.orgId with
  | none => rfl
  | some collection =>
    dsimp only
    have haccept : alone upload services (.acceptFile file) tables = (parseUpload services upload file,tables) := rfl
    cases hparsed : parseUpload services upload file with
    | error e =>
      rw [exec_request_error (haccept.trans (by rw [hparsed]))]
      rfl
    | ok accepted =>
      obtain ⟨filename,sourceType,parsed⟩ := accepted
      have hhash : alone upload services (.contentHash parsed) tables =
          (.ok (services.sha256 (upload.normalizeText parsed.text)),tables) := rfl
      rw [exec_request (haccept.trans (by rw [hparsed])),exec_request hhash]
      dsimp only
      generalize services.sha256 (upload.normalizeText parsed.text) = contentHash
      generalize (if file.title.getD "" = "" then parsed.title else file.title.getD "") = title
      have hdocument : alone upload services (.createDocument file.orgId file.collectionId title sourceType contentHash) tables =
          (.ok (tables.createDocument file.orgId file.collectionId title sourceType contentHash).1,
            (tables.createDocument file.orgId file.collectionId title sourceType contentHash).2) := rfl
      rw [exec_request hdocument]
      have hcreated : ∀ j ∈ (tables.createDocument file.orgId file.collectionId title sourceType contentHash).2.jobs,
          j.id < (tables.createDocument file.orgId file.collectionId title sourceType contentHash).2.nextId :=
        fun j hj => (hfresh j hj).trans (Nat.lt_succ_self _)
      generalize tables.createDocument file.orgId file.collectionId title sourceType contentHash = created at hcreated ⊢
      obtain ⟨document,created⟩ := created
      have hlatest : alone upload services (.getLatestVersionNumber document.id) created =
          (.ok (created.getLatestVersionNumber document.id),created) := rfl
      dsimp only
      rw [exec_request hlatest]
      generalize nextVersionNumber (created.getLatestVersionNumber document.id) = versionNumber
      generalize toString file.orgId ++ "/" ++ toString document.id ++ "/v" ++ toString versionNumber ++ "/" ++ toString filename = blobKey
      have hput : alone upload services (.putBlob blobKey file.content) created = (upload.blobPut blobKey file.content,created) := rfl
      cases hblob : upload.blobPut blobKey file.content with
      | error e =>
        rw [exec_request_error (hput.trans (by rw [hblob]))]
        rfl
      | ok u =>
        rw [exec_request (hput.trans (by rw [hblob])),exec_request (alone_createVersion _ _ _ _ _)]
        have hversion := createVersion_jobs created document.id versionNumber contentHash blobKey filename
        generalize created.createVersion document.id versionNumber contentHash blobKey filename = version at hversion ⊢
        obtain ⟨version,stored⟩ := version
        have hstored : ∀ j ∈ stored.jobs, j.id < stored.nextId := by
          intro j hj
          rw [hversion.1] at hj
          exact (hcreated j hj).trans_le hversion.2
        dsimp only
        rw [exec_enqueue hstored]
        rcases inline settings services (stored.enqueue file.orgId document.id .ingest (some version.id)).1.id
          (stored.enqueue file.orgId document.id .ingest (some version.id)).2 with ⟨e | u,run⟩ <;> rfl

theorem exec_reindexDocument (orgId : OrgId) (documentId : Nat) (hfresh : ∀ j ∈ tables.jobs, j.id < tables.nextId)
    :
    exec (alone upload services) (reindexDocument settings orgId documentId) tables =
      ended (Knowledge.reindexDocument settings services orgId documentId tables) := by
  have hdocument : alone upload services (.getDocument documentId orgId) tables =
      (.ok (tables.getDocument documentId orgId),tables) := rfl
  unfold reindexDocument Knowledge.reindexDocument acceptReindex
  rw [exec_request hdocument]
  cases hfound : tables.getDocument documentId orgId with
  | none => rfl
  | some document =>
    dsimp only
    rw [exec_request hdocument,hfound]
    unfold Tables.getActiveVersion
    rw [hfound,Option.bind_some,Option.bind_some]
    cases document.activeVersionId with
    | none => rfl
    | some versionId =>
      have hversion : alone upload services (.getVersion versionId) tables = (.ok (tables.getVersion versionId),tables) := rfl
      dsimp only
      rw [exec_request hversion,Option.bind_some]
      cases tables.getVersion versionId with
      | none => rfl
      | some version =>
        dsimp only
        rw [exec_enqueue hfresh]
        rcases inline settings services (tables.enqueue orgId documentId .reindex (some version.id)).1.id
          (tables.enqueue orgId documentId .reindex (some version.id)).2 with ⟨e | u,run⟩ <;> rfl

/-! What the rows are like before each event -/

/-- Each job has its own id, below the next one. -/
structure JobIds (tables : Tables) : Prop where
  unique : UniqueJobs tables
  fresh : ∀ j ∈ tables.jobs, j.id < tables.nextId

/-- The tables have the same jobs, as far as their ids go. -/
structure SameJobs (a b : Tables) : Prop where
  ids : b.jobs.map (·.id) = a.jobs.map (·.id)
  nextId : a.nextId ≤ b.nextId

theorem SameJobs.trans {a b c : Tables} (h : SameJobs a b) (k : SameJobs b c) : SameJobs a c :=
  ⟨k.ids.trans h.ids,h.nextId.trans k.nextId⟩

theorem SameJobs.jobIds {a b : Tables} (h : SameJobs a b) (ha : JobIds a) : JobIds b := by
  refine ⟨?_,fun j hj => ?_⟩
  · unfold UniqueJobs
    rw [h.ids]
    exact ha.unique
  · have hid : j.id ∈ a.jobs.map (·.id) := h.ids ▸ List.mem_map_of_mem hj
    obtain ⟨i,hi,hij⟩ := List.mem_map.mp hid
    rw [← hij]
    exact (ha.fresh i hi).trans_le h.nextId

theorem sameJobs_processing {a b : Tables} (h : Processing a b) : SameJobs a b := by
  obtain ⟨f,hf,hfs⟩ := h.jobs
  refine ⟨?_,h.nextId⟩
  rw [hf,List.map_map]
  exact List.map_congr_left fun j _ => (hfs j).id

theorem sameJobs_processJob (k : Nat) : SameJobs tables (Knowledge.processJob services settings k tables).2 := by
  cases hrun : Knowledge.processJob services settings k tables with
  | mk result after =>
    cases result with
    | error e =>
      obtain ⟨job,middle,-,hprocessing,rfl⟩ := processJob_error hrun
      exact sameJobs_processing (hprocessing.trans (.status middle job.documentId job.orgId .failed))
    | ok u =>
      cases hfound : tables.getJobById k with
      | none =>
        unfold Knowledge.processJob at hrun
        rw [hfound] at hrun
        cases hrun
        exact ⟨rfl,Nat.le_refl _⟩
      | some job =>
        obtain ⟨versionId,indexed,stored,-,hprocessing,rfl⟩ := processJob_published hfound hrun
        have hcompleted := Processing.job stored job.id
          (fun j => { j with status := .completed, progressPct := 100, stage := some .completed }) fun _ => ⟨rfl,rfl,rfl,rfl,rfl⟩
        exact (sameJobs_processing hprocessing).trans ⟨(sameJobs_processing hcompleted).ids,Nat.le_refl _⟩

theorem sameJobs_inline (k : Nat) : SameJobs tables (inline settings services k tables).2 := by
  unfold inline
  split
  · exact ⟨rfl,Nat.le_refl _⟩
  · exact sameJobs_processJob k

theorem jobIds_enqueue (h : JobIds tables) (orgId : OrgId) (documentId : Nat) (jobType : IngestJobType)
    (versionId : Option Nat) : JobIds (tables.enqueue orgId documentId jobType versionId).2 := by
  have hids : (tables.enqueue orgId documentId jobType versionId).2.jobs.map (·.id) = tables.jobs.map (·.id) ++ [tables.nextId] := by
    unfold Tables.enqueue
    rw [List.map_append]
    rfl
  refine ⟨?_,fun j hj => ?_⟩
  · unfold UniqueJobs
    rw [hids]
    refine List.nodup_append.mpr ⟨h.unique,List.nodup_singleton _,fun a ha b hb => ?_⟩
    obtain ⟨j,hj,rfl⟩ := List.mem_map.mp ha
    rw [List.mem_singleton.mp hb]
    exact (h.fresh j hj).ne
  · rcases List.mem_append.mp hj with hj | hj
    · exact (h.fresh j hj).trans (Nat.lt_succ_self _)
    · rw [List.mem_singleton.mp hj]
      exact Nat.lt_succ_self _

/-- What an accepted request enqueues has an id of its own. -/
theorem jobIds_acceptUpload {file : Upload} {created : Document × IngestJob} (h : JobIds tables)
    (haccepted : acceptUpload services upload file tables = (.ok created,after)) : JobIds after := by
  unfold acceptUpload at haccepted
  split at haccepted
  · cases haccepted
  · split at haccepted
    · cases haccepted
    · dsimp only at haccepted
      split at haccepted
      · cases haccepted
      · cases haccepted
        obtain ⟨hjobs,hnext⟩ := createVersion_jobs _ _ _ _ _ _
        refine jobIds_enqueue ⟨?_,fun j hj => ?_⟩ _ _ _ _
        · unfold UniqueJobs
          rw [hjobs]
          exact h.unique
        · rw [hjobs] at hj
          exact ((h.fresh j hj).trans (Nat.lt_succ_self _)).trans_le hnext

theorem jobIds_acceptReindex {orgId : OrgId} {documentId : Nat} {job : IngestJob} (h : JobIds tables)
    (haccepted : acceptReindex orgId documentId tables = (.ok job,after)) : JobIds after := by
  obtain ⟨document,version,-,-,heq⟩ := acceptReindex_ok haccepted
  rw [(Prod.mk.inj heq).2]
  exact jobIds_enqueue h orgId documentId .reindex (some version.id)

theorem jobIds_commitOnReturn {α : Type} {outcome : Except String α × Tables} (h : JobIds tables)
    (hrun : ∀ a, outcome.1 = .ok a → JobIds outcome.2) : JobIds (commitOnReturn tables outcome) := by
  obtain ⟨r | r,after⟩ := outcome
  · exact h
  · exact hrun r rfl

theorem jobIds_step {event : Event} (h : JobIds tables) (hstep : step settings tables event = some after) :
    JobIds after := by
  cases event with
  | createCollection orgId chunkingConfig =>
    cases hstep
    exact ⟨h.unique,fun j hj => (h.fresh j hj).trans (Nat.lt_succ_self _)⟩
  | upload upload services request =>
    cases hstep
    refine jobIds_commitOnReturn h fun created hcreated => ?_
    unfold Knowledge.uploadDocument at hcreated ⊢
    cases haccepted : acceptUpload services upload request tables with
    | mk result accepted =>
      rw [haccepted] at hcreated
      cases result with
      | error e => cases hcreated
      | ok pair => exact (sameJobs_inline pair.2.id).jobIds (jobIds_acceptUpload h haccepted)
  | reindex services orgId documentId =>
    cases hstep
    refine jobIds_commitOnReturn h fun created hcreated => ?_
    unfold Knowledge.reindexDocument at hcreated ⊢
    cases haccepted : acceptReindex orgId documentId tables with
    | mk result accepted =>
      rw [haccepted] at hcreated
      cases result with
      | error e => cases hcreated
      | ok job => exact (sameJobs_inline job.id).jobIds (jobIds_acceptReindex h haccepted)
  | work services =>
    cases hstep
    unfold work
    cases hclaim : tables.claimNext with
    | none => exact h
    | some claimed =>
      obtain ⟨job,claimed⟩ := claimed
      exact ((sameJobs_processing (claimNext_processing hclaim)).trans (sameJobs_processJob job.id)).jobIds h

/-- The transaction that an event is, with the services it runs on. -/
def transaction (upload : UploadServices) : Event → Option (UploadServices × Services × Task)
  | .createCollection _ _ => none
  | .upload upload services file => some (upload,services,.upload file)
  | .reindex services orgId documentId => some (upload,services,.reindex orgId documentId)
  | .work services => some (upload,services,.worker)

/-- In every run of the requests and of one worker, each event is its transaction: the statements
one after another, and a commit where the last one returns. -/
theorem event_is_transaction {events : List Event} {event : Event} {other : UploadServices} {task : Task}
    (h : JobIds tables) {before : Tables} (hf : Fires (step settings) tables events before event after)
    (htransaction : transaction other event = some (upload,services,task)) :
    after = commitOnReturn before (exec (alone upload services) (program settings task) before) := by
  have hids : JobIds before := hf.before.invariant h fun a e b ha hs => jobIds_step ha hs
  obtain ⟨-,-,-,hstep⟩ := hf
  have hended {α : Type} (outcome : Except String α × Tables) :
      commitOnReturn before outcome = commitOnReturn before (ended outcome) := by
    obtain ⟨r | r,t⟩ := outcome <;> rfl
  cases event with
  | createCollection orgId chunkingConfig => cases htransaction
  | upload upload services file =>
    cases htransaction
    cases hstep
    rw [hended]
    exact congrArg _ (exec_uploadDocument file hids.fresh).symm
  | reindex services orgId documentId =>
    cases htransaction
    cases hstep
    rw [hended]
    exact congrArg _ (exec_reindexDocument orgId documentId hids.fresh).symm
  | work services =>
    cases htransaction
    cases hstep
    have hround : exec (alone upload services) (workerRound settings) before = (.ok (),work settings services before) :=
      exec_workerRound hids.unique
    change _ = commitOnReturn before (exec (alone upload services) (workerRound settings) before)
    rw [hround]
    rfl

theorem round_on_one_job : ∃ after, Fires (step {}) { oneQueuedJob with nextId := 8 } [.work promptly.services]
    { oneQueuedJob with nextId := 8 } (.work promptly.services) after ∧
      after = commitOnReturn { oneQueuedJob with nextId := 8 }
        (exec (alone promptly.upload promptly.services) (program {} .worker) { oneQueuedJob with nextId := 8 }) := by
  have hids : JobIds { oneQueuedJob with nextId := 8 } := by
    refine ⟨List.nodup_singleton 7,fun j hj => ?_⟩
    rw [List.mem_singleton.mp hj]
    decide
  have hf : Fires (step {}) { oneQueuedJob with nextId := 8 } [.work promptly.services]
      { oneQueuedJob with nextId := 8 } (.work promptly.services) _ := ⟨[],List.prefix_rfl,rfl,rfl⟩
  have hround : transaction promptly.upload (.work promptly.services) =
      some (promptly.upload,promptly.services,.worker) := rfl
  exact ⟨_,hf,event_is_transaction hids hf hround⟩

end alone

end VoxForge.Knowledge.JobQueue
