import VoxForge.Foundation.Transactions
import VoxForge.Knowledge.Deletion

/-! Ingest jobs with several workers at once: a worker's round and the requests beside it, as
transactions that interleave statement by statement on PostgreSQL. -/
namespace VoxForge.Knowledge.JobQueue
open Core Foundation Prog

/-- The statements of the knowledge repository and the calls between them; a chunk is inserted as
the n-th of its job. -/
inductive Statement where
  | lockNextQueued
  | selectJob (jobId : Nat)
  | markRunning (jobId : Nat)
  | getCollection (collectionId : Nat) (orgId : OrgId)
  | getDocument (documentId : Nat) (orgId : OrgId)
  | getVersion (versionId : Nat)
  | getLatestVersionNumber (documentId : Nat)
  | getChunkHashes (versionId : Nat)
  | updateDocumentStatus (documentId : Nat) (orgId : OrgId) (status : DocumentStatus)
  | setActiveVersion (documentId : Nat) (orgId : OrgId) (versionId : Nat)
  | updateVersionChunkCount (versionId count : Nat)
  | deleteByVersion (versionId : Nat)
  | deleteChunksByIndices (versionId : Nat) (chunkIndices : List Nat)
  | insertChunk (n : Nat) (orgId : OrgId) (versionId : Nat) (raw : RawChunk) (embedding : Embedding)
  | updateProgress (jobId progressPct : Nat) (stage : IngestStage)
  | completeJob (jobId : Nat)
  | failJob (jobId : Nat) (errorMessage : String)
  | createDocument (orgId : OrgId) (collectionId : Nat) (title : String) (sourceType : SourceType) (contentHash : String)
  | createVersion (documentId versionNumber : Nat) (contentHash blobPath filename : String)
  | enqueue (orgId : OrgId) (documentId : Nat) (jobType : IngestJobType) (documentVersionId : Option Nat)
  | deleteDocument (documentId : Nat)
  | deleteCollection (collectionId : Nat)
  | parseBlob (document : Document) (version : DocumentVersion)
  | chunk (parsed : ParsedDocument) (config : ChunkingConfig)
  | embed (chunks : List RawChunk)
  | sha256 (text : String)
  | contentHash (parsed : ParsedDocument)
  | acceptFile (request : Upload)
  | putBlob (path : String) (content : ByteArray)

abbrev Statement.Reply : Statement → Type
  | lockNextQueued => Option Nat
  | selectJob _ => Option IngestJob
  | getCollection .. => Option Collection
  | getDocument .. => Option Document
  | getVersion _ => Option DocumentVersion
  | getLatestVersionNumber _ => Option Nat
  | getChunkHashes _ => List (Nat × String)
  | insertChunk .. => Bool
  | createDocument .. => Document
  | createVersion .. => DocumentVersion
  | enqueue .. => IngestJob
  | parseBlob .. => ParsedDocument
  | chunk .. => List RawChunk
  | embed _ => List Embedding
  | sha256 _ | contentHash _ => String
  | acceptFile _ => String × SourceType × ParsedDocument
  | _ => Unit

/-- An exception is told by its text. -/
abbrev Work (α : Type) := Prog Statement Statement.Reply String α

def request (o : Statement) : Work o.Reply := perform o

/-- `claim_next` on PostgreSQL: the row is locked first and read by its id then. -/
def claimNext : Work (Option IngestJob) := do
  match ← request .lockNextQueued with
  | none => return none
  | some jobId =>
    match ← request (.selectJob jobId) with
    | none => return none
    | some model => do
      request (.markRunning model.id)
      return some { model with status := .running, stage := some .parsing }

def upsertChunks (orgId : OrgId) (versionId : Nat) : List (RawChunk × Embedding) → Nat → Work Nat
  | [],_ => return 0
  | (raw,embedding) :: rest,n => do
    let inserted ← request (.insertChunk n orgId versionId raw embedding)
    let count ← upsertChunks orgId versionId rest (n + 1)
    return count + if inserted then 1 else 0

/-- The exception of `zip(…, strict=True)` is raised where the pairs are listed. -/
def zipped (chunks : List RawChunk) (embeddings : List Embedding) : Work (List (RawChunk × Embedding)) :=
  match zipStrict chunks embeddings with
  | .ok pairs => return pairs
  | .error e => .raise e

def hashChunks : List RawChunk → Work (List (Nat × String))
  | [] => return []
  | c :: rest => do
    let hash ← request (.sha256 c.content)
    return (c.chunkIndex,hash) :: (← hashChunks rest)

def selectPairs (job : IngestJob) (versionId : Nat) (chunks : List RawChunk) (embeddings : List Embedding) :
    Work (List (RawChunk × Embedding)) := do
  if job.jobType = .reindex then
    request (.deleteByVersion versionId)
    zipped chunks embeddings
  else
    let existingHashes ← request (.getChunkHashes versionId)
    let newPairs ← hashChunks chunks
    let (_,changed,removed) := computeChunkDiff existingHashes newPairs
    if removed ≠ [] then request (.deleteChunksByIndices versionId removed)
    let pairs ← zipped chunks embeddings
    return pairs.filter fun (c,_) => c.chunkIndex ∈ changed || existingHashes = []

section jobs
variable (settings : Settings)

def configOf (collection : Option Collection) : ChunkingConfig :=
  collection.elim
    { chunkSize := settings.knowledgeDefaultChunkSize, chunkOverlap := settings.knowledgeDefaultChunkOverlap }
    (·.chunkingConfig)

/-- The body of the `try` block of `process_job`. -/
def ingest (job : IngestJob) : Work Unit := do
  let document ← request (.getDocument job.documentId job.orgId)
  match document,job.documentVersionId with
  | some document,some versionId =>
    match ← request (.getVersion versionId) with
    | none => .raise "Version not found"
    | some version => do
      request (.updateDocumentStatus job.documentId job.orgId .processing)
      request (.updateProgress job.id 10 .parsing)
      let parsed ← request (.parseBlob document version)
      request (.updateProgress job.id 30 .chunking)
      let collection ← request (.getCollection document.collectionId job.orgId)
      let chunks ← request (.chunk parsed (configOf settings collection))
      request (.updateProgress job.id 50 .embedding)
      let embeddings ← request (.embed chunks)
      request (.updateProgress job.id 75 .indexing)
      let pairs ← selectPairs job versionId chunks embeddings
      let indexed ← upsertChunks job.orgId versionId pairs 0
      request (.updateVersionChunkCount versionId indexed)
      request (.setActiveVersion job.documentId job.orgId versionId)
      request (.updateDocumentStatus job.documentId job.orgId .ready)
      request (.completeJob job.id)
  | _,_ => .raise "Document or version missing"

/-- The `except` block of `process_job`. -/
def recordFailure (job : IngestJob) (e : String) : Work Unit := do
  request (.failJob job.id e)
  request (.updateDocumentStatus job.documentId job.orgId .failed)
  .raise e

def processJob (jobId : Nat) : Work Unit := do
  match ← request (.selectJob jobId) with
  | none => return ()
  | some job => (ingest settings job).tryCatch (recordFailure job)

/-- A round of `run_worker` up to its commit; an idle round ends without one, with nothing to commit. -/
def workerRound : Work Unit := do
  match ← claimNext with
  | none => return ()
  | some job => (processJob settings job.id).tryCatch fun _ => return ()

/-- A job runs in the request itself where no worker is enabled. -/
def inlineJob (jobId : Nat) : Work Unit :=
  if settings.knowledgeWorkerEnabled then return () else processJob settings jobId

def uploadDocument (file : Upload) : Work Unit := do
  match ← request (.getCollection file.collectionId file.orgId) with
  | none => .raise "Collection not found"
  | some _ => do
    let (filename,sourceType,parsed) ← request (.acceptFile file)
    let contentHash ← request (.contentHash parsed)
    let title := if file.title.getD "" = "" then parsed.title else file.title.getD ""
    let document ← request (.createDocument file.orgId file.collectionId title sourceType contentHash)
    let versionNumber := nextVersionNumber (← request (.getLatestVersionNumber document.id))
    let blobKey := s!"{file.orgId}/{document.id}/v{versionNumber}/{filename}"
    request (.putBlob blobKey file.content)
    let version ← request (.createVersion document.id versionNumber contentHash blobKey filename)
    let job ← request (.enqueue file.orgId document.id .ingest (some version.id))
    inlineJob settings job.id

def reindexDocument (orgId : OrgId) (documentId : Nat) : Work Unit := do
  match ← request (.getDocument documentId orgId) with
  | none => .raise "Document not found"
  | some _ => do
    match (← request (.getDocument documentId orgId)).bind (·.activeVersionId) with
    | none => .raise "No active version to reindex"
    | some versionId =>
      match ← request (.getVersion versionId) with
      | none => .raise "No active version to reindex"
      | some version => do
        let job ← request (.enqueue orgId documentId .reindex (some version.id))
        inlineJob settings job.id

end jobs

/-- What a deletion does to the tables; the paths of its blobs are read beside that. -/
def deleteDocument (documentId : Nat) (orgId : OrgId) : Work Unit := do
  match ← request (.getDocument documentId orgId) with
  | none => .raise "Document not found"
  | some document => request (.deleteDocument document.id)

def deleteCollection (collectionId : Nat) (orgId : OrgId) : Work Unit := do
  match ← request (.getCollection collectionId orgId) with
  | none => .raise "Collection not found"
  | some collection => request (.deleteCollection collection.id)

inductive Task where
  | worker
  | upload (file : Upload)
  | reindex (orgId : OrgId) (documentId : Nat)
  | deleteDocument (documentId : Nat) (orgId : OrgId)
  | deleteCollection (collectionId : Nat) (orgId : OrgId)

def program (settings : Settings) : Task → Work Unit
  | .worker => workerRound settings
  | .upload file => uploadDocument settings file
  | .reindex orgId documentId => reindexDocument settings orgId documentId
  | .deleteDocument documentId orgId => JobQueue.deleteDocument documentId orgId
  | .deleteCollection collectionId orgId => JobQueue.deleteCollection collectionId orgId

/-! The database under the statements -/

inductive Lock where
  | job (jobId : Nat)
  | document (documentId : Nat)
  | version (versionId : Nat)
  | chunk (versionId chunkIndex : Nat)
  | collection (collectionId : Nat)
  deriving DecidableEq, Repr

/-- The assignments to a job's row. -/
inductive JobUpdate where
  | start
  | progress (progressPct : Nat) (stage : IngestStage)
  | complete
  | fail (errorMessage : String)

def JobUpdate.apply (job : IngestJob) : JobUpdate → IngestJob
  | start => { job with status := .running, stage := some .parsing }
  | progress progressPct stage => { job with progressPct, stage := some stage }
  | complete => { job with status := .completed, progressPct := 100, stage := some .completed }
  | fail errorMessage => { job with status := .failed, errorMessage := some errorMessage }

inductive Write where
  | lockJob (jobId : Nat)
  | updateJob (jobId : Nat) (update : JobUpdate)
  | insertJob (job : IngestJob)
  | deleteJob (jobId : Nat)
  | updateDocument (documentId : Nat) (orgId : OrgId) (f : Document → Document)
  | insertDocument (document : Document)
  | deleteDocument (documentId : Nat)
  | updateChunkCount (versionId count : Nat)
  | insertVersion (version : DocumentVersion)
  | insertChunk (chunk : Chunk)
  | deleteChunk (versionId chunkIndex : Nat)
  | deleteCollection (collectionId : Nat)

def Write.lock : Write → Option Lock
  | lockJob jobId | updateJob jobId _ | deleteJob jobId => some (.job jobId)
  | insertJob job => some (.job job.id)
  | updateDocument documentId _ _ | deleteDocument documentId => some (.document documentId)
  | insertDocument document => some (.document document.id)
  | updateChunkCount versionId _ => some (.version versionId)
  | insertVersion version => some (.version version.id)
  | insertChunk chunk => some (.chunk chunk.documentVersionId chunk.chunkIndex)
  | deleteChunk versionId chunkIndex => some (.chunk versionId chunkIndex)
  | deleteCollection collectionId => some (.collection collectionId)

/-- The jobs of a deleted document are deleted row by row. -/
def Write.apply (tables : Tables) : Write → Tables
  | lockJob _ => tables
  | updateJob jobId update => tables.updateJob jobId fun job => JobUpdate.apply job update
  | insertJob job => { tables with jobs := tables.jobs ++ [job] }
  | deleteJob jobId => { tables with jobs := tables.jobs.filter (·.id ≠ jobId) }
  | updateDocument documentId orgId f => tables.updateDocument documentId orgId f
  | insertDocument document => { tables with documents := tables.documents ++ [document] }
  | deleteDocument documentId => { tables.deleteDocument documentId with jobs := tables.jobs }
  | updateChunkCount versionId count => tables.updateVersionChunkCount versionId count
  | insertVersion version => { tables with versions := tables.versions ++ [version] }
  | insertChunk chunk => { tables with chunks := tables.chunks ++ [chunk] }
  | deleteChunk versionId chunkIndex =>
    { tables with chunks := tables.chunks.filter fun c => !(c.documentVersionId = versionId && c.chunkIndex = chunkIndex) }
  | deleteCollection collectionId => { tables with collections := tables.collections.filter (·.id ≠ collectionId) }

/-- What is outside the tables at one statement: the rows that are skipped because they are
locked, the next generated id, the time, and what the services answer. -/
structure Surroundings where
  skipped : List Nat := []
  newId : Nat := 0
  now : Nat := 0
  upload : UploadServices
  services : Services

abbrev Outcome (o : Statement) := Except String o.Reply × List Write × Unit

def answer {o : Statement} (reply : o.Reply) (writes : List Write := []) : Outcome o := (.ok reply,writes,())

/-- A service answers, or raises an exception. -/
def served {o : Statement} (reply : Except String o.Reply) : Outcome o := (reply,[],())

/-- `SELECT id … ORDER BY created_at ASC LIMIT 1 FOR UPDATE SKIP LOCKED`. -/
def nextQueued (tables : Tables) (skipped : List Nat) : Option Nat := (tables.oldestQueued skipped).map (·.id)

def chunkKeys (tables : Tables) (gone : Chunk → Bool) : List Write :=
  (tables.chunks.filter gone).map fun c => .deleteChunk c.documentVersionId c.chunkIndex

/-- The jobs of some documents and the documents, one row after another. -/
def deletions (tables : Tables) (gone : Document → Bool) : List Write :=
  let documentIds := (tables.documents.filter gone).map (·.id)
  ((tables.jobs.filter (·.documentId ∈ documentIds)).map fun j => .deleteJob j.id) ++ documentIds.map .deleteDocument

/-- One statement, on the tables as its transaction sees them. -/
def execute (around : Surroundings) (tables : Tables) (_ : Unit) : (o : Statement) → Outcome o
  | .lockNextQueued =>
    match nextQueued tables around.skipped with
    | none => answer none
    | some jobId => answer (some jobId) [.lockJob jobId]
  | .selectJob jobId => answer (tables.getJobById jobId)
  | .markRunning jobId => answer () [.updateJob jobId .start]
  | .getCollection collectionId orgId => answer (tables.getCollection collectionId orgId)
  | .getDocument documentId orgId => answer (tables.getDocument documentId orgId)
  | .getVersion versionId => answer (tables.getVersion versionId)
  | .getLatestVersionNumber documentId => answer (tables.getLatestVersionNumber documentId)
  | .getChunkHashes versionId => answer (tables.getChunkHashes versionId)
  | .updateDocumentStatus documentId orgId status =>
    answer () [.updateDocument documentId orgId fun d => { d with status }]
  | .setActiveVersion documentId orgId versionId =>
    answer () [.updateDocument documentId orgId fun d => { d with activeVersionId := some versionId }]
  | .updateVersionChunkCount versionId count => answer () [.updateChunkCount versionId count]
  | .deleteByVersion versionId => answer () (chunkKeys tables (·.documentVersionId = versionId))
  | .deleteChunksByIndices versionId chunkIndices =>
    answer () (chunkKeys tables fun c => c.documentVersionId = versionId && c.chunkIndex ∈ chunkIndices)
  | .insertChunk n orgId versionId raw embedding =>
    match around.services.storeFault n with
    | some e => (.error e,[],())
    | none =>
      if tables.chunks.any fun c => c.documentVersionId = versionId && c.chunkIndex = raw.chunkIndex then answer false
      else answer true [.insertChunk {
        id := around.newId
        orgId
        documentVersionId := versionId
        chunkIndex := raw.chunkIndex
        content := raw.content
        contentHash := around.services.sha256 raw.content
        tokenCount := raw.tokenCount
        metadata := raw.metadata
        embedding := some embedding }]
  | .updateProgress jobId progressPct stage => answer () [.updateJob jobId (.progress progressPct stage)]
  | .completeJob jobId => answer () [.updateJob jobId .complete]
  | .failJob jobId errorMessage => answer () [.updateJob jobId (.fail errorMessage)]
  | .createDocument orgId collectionId title sourceType contentHash =>
    let document : Document := { id := around.newId, orgId, collectionId, title, sourceType, contentHash }
    answer document [.insertDocument document]
  | .createVersion documentId versionNumber contentHash blobPath filename =>
    match tables.versions.find? fun v => v.documentId = documentId && v.versionNumber = versionNumber with
    | some existing => answer existing
    | none =>
      let version : DocumentVersion :=
        { id := around.newId, documentId, versionNumber, contentHash, blobPath, filename := some filename }
      answer version [.insertVersion version]
  | .enqueue orgId documentId jobType documentVersionId =>
    if (tables.getJobById around.newId).isSome then (.error "IntegrityError",[],())
    else
      let job : IngestJob :=
        { id := around.newId, orgId, documentId, documentVersionId, jobType, createdAt := around.now }
      answer job [.insertJob job]
  | .deleteDocument documentId => answer () (deletions tables (·.id = documentId))
  | .deleteCollection collectionId =>
    answer () (deletions tables (·.collectionId = collectionId) ++ [.deleteCollection collectionId])
  | .parseBlob document version => served (Knowledge.parseBlob around.services document version)
  | .chunk parsed config =>
    served (match around.services.chunkFault with
      | some e => .error e
      | none => .ok (Knowledge.chunk parsed config))
  | .embed chunks => served (embedChunks around.services chunks)
  | .sha256 text => answer (around.services.sha256 text)
  | .contentHash parsed => answer (around.services.sha256 (around.upload.normalizeText parsed.text))
  | .acceptFile file => served (parseUpload around.services around.upload file)
  | .putBlob path content => served (around.upload.blobPut path content)

/-- An error of the database ends the transaction, save one that a savepoint takes back: a chunk
that cannot be stored raises like a service, and the transaction goes on. -/
def database : Database Statement Statement.Reply String Tables Write Unit Surroundings Lock where
  apply := Write.apply
  lock := Write.lock
  perform := execute
  faults := fun _ => false

abbrev WorkerPool := Pool Statement Statement.Reply String Tables Write Unit Task

abbrev QueueLabel := PoolLabel Task Surroundings String

end VoxForge.Knowledge.JobQueue
