import Mathlib.Data.List.Dedup
import Mathlib.Data.List.Sort
import VoxForge.Knowledge.Chunking

/-! Ingest jobs: reading, parsing, chunking, embedding and storing one version, with the
points at which a job can fail. -/
namespace VoxForge.Knowledge
open Core

/-- What a job calls outside the repository, as it behaves during one run of the job. An
error is the text of the exception. -/
structure Services where
  blobGet : String → Except String ByteArray
  parse : SourceType → ByteArray → String → Except String ParsedDocument
  embedBatch : List String → Except String (List Embedding)
  sha256 : String → String
  /-- What reading the chunking configuration, or chunking itself, raises. -/
  chunkFault : Option String := none
  /-- What storing the n-th chunk raises, other than a violation of a constraint. -/
  storeFault : Nat → Option String := fun _ => none

structure Settings where
  knowledgeWorkerEnabled : Bool := false
  knowledgeDefaultChunkSize : Int := 512
  knowledgeDefaultChunkOverlap : Int := 64

/-- `compute_chunk_diff`: the unchanged, the changed or new, and the removed indices. A
later entry of an index counts, as in a dictionary. -/
def computeChunkDiff (existingHashes newChunks : List (Nat × String)) : List Nat × List Nat × List Nat :=
  let lookup (entries : List (Nat × String)) (i : Nat) : Option String :=
    (entries.reverse.find? (·.1 = i)).map Prod.snd
  let newIndices := (newChunks.map Prod.fst).dedup
  let oldIndices := (existingHashes.map Prod.fst).dedup
  let unchanged := newIndices.filter fun i => i ∈ oldIndices && lookup existingHashes i = lookup newChunks i
  let changedOrNew := (newIndices.filter (· ∉ unchanged)).insertionSort (· ≤ ·)
  let removed := (oldIndices.filter (· ∉ newIndices)).insertionSort (· ≤ ·)
  (unchanged,changedOrNew,removed)

section jobs
variable (services : Services) (settings : Settings)

/-- `upsert_chunks`, of which `n` are stored already: how many were inserted. -/
def upsertChunks (orgId : OrgId) (versionId : Nat) : List (RawChunk × Embedding) → Nat → Tables →
    Except String Nat × Tables
  | [], _, tables => (.ok 0,tables)
  | (raw,embedding) :: rest, n, tables =>
    match services.storeFault n with
    | some e => (.error e,tables)
    | none =>
      let (inserted,tables) := tables.insertChunk services.sha256 orgId versionId raw embedding
      let (result,tables) := upsertChunks orgId versionId rest (n + 1) tables
      (result.map (· + if inserted then 1 else 0),tables)

/-- `list(zip(chunks, embeddings, strict=True))`. -/
def zipStrict (chunks : List RawChunk) (embeddings : List Embedding) :
    Except String (List (RawChunk × Embedding)) :=
  if chunks.length = embeddings.length then .ok (chunks.zip embeddings)
  else .error "zip() arguments have different lengths"

/-- The pairs to store, after the chunks that go have been deleted. -/
def selectPairs (job : IngestJob) (versionId : Nat) (chunks : List RawChunk) (embeddings : List Embedding)
    (tables : Tables) : Except String (List (RawChunk × Embedding)) × Tables :=
  if job.jobType = .reindex then (zipStrict chunks embeddings,tables.deleteByVersion versionId)
  else
    let existingHashes := tables.getChunkHashes versionId
    let newPairs := chunks.map fun c => (c.chunkIndex,services.sha256 c.content)
    let (_,changed,removed) := computeChunkDiff existingHashes newPairs
    let tables := if removed ≠ [] then tables.deleteChunksByIndices versionId removed else tables
    ((zipStrict chunks embeddings).map fun pairs =>
      pairs.filter fun (c,_) => c.chunkIndex ∈ changed || existingHashes = [],tables)

/-- From the chunks on: store them and publish the version. -/
def indexChunks (job : IngestJob) (versionId : Nat) (chunks : List RawChunk) (embeddings : List Embedding)
    (tables : Tables) : Except String Unit × Tables :=
  match selectPairs services job versionId chunks embeddings tables with
  | (.error e,tables) => (.error e,tables)
  | (.ok pairs,tables) =>
    match upsertChunks services job.orgId versionId pairs 0 tables with
    | (.error e,tables) => (.error e,tables)
    | (.ok indexed,tables) =>
      let tables := tables.updateVersionChunkCount versionId indexed
      let tables := tables.setActiveVersion job.documentId job.orgId versionId
      let tables := tables.updateDocumentStatus job.documentId job.orgId .ready
      (.ok (),tables.completeJob job.id)

def chunkingConfig (document : Document) (tables : Tables) : ChunkingConfig :=
  match tables.getCollection document.collectionId document.orgId with
  | some collection => collection.chunkingConfig
  | none =>
    { chunkSize := settings.knowledgeDefaultChunkSize, chunkOverlap := settings.knowledgeDefaultChunkOverlap }

def parseBlob (document : Document) (version : DocumentVersion) : Except String ParsedDocument := do
  let rawBytes ← services.blobGet version.blobPath
  services.parse document.sourceType rawBytes (version.filename.getD "document")

def embedChunks (chunks : List RawChunk) : Except String (List Embedding) :=
  if chunks = [] then .ok [] else services.embedBatch (chunks.map (·.content))

/-- The body of the `try` block. -/
def ingest (job : IngestJob) (tables : Tables) : Except String Unit × Tables :=
  match tables.getDocument job.documentId job.orgId, job.documentVersionId with
  | some document, some versionId =>
    match tables.getVersion versionId with
    | none => (.error "Version not found",tables)
    | some version =>
      let tables := tables.updateDocumentStatus job.documentId job.orgId .processing
      let tables := tables.updateProgress job.id 10 .parsing
      match parseBlob services document version with
      | .error e => (.error e,tables)
      | .ok parsed =>
        let tables := tables.updateProgress job.id 30 .chunking
        match services.chunkFault with
        | some e => (.error e,tables)
        | none =>
          let chunks := chunk parsed (chunkingConfig settings document tables)
          let tables := tables.updateProgress job.id 50 .embedding
          match embedChunks services chunks with
          | .error e => (.error e,tables)
          | .ok embeddings =>
            indexChunks services job versionId chunks embeddings (tables.updateProgress job.id 75 .indexing)
  | _, _ => (.error "Document or version missing",tables)

/-- `process_job`: an error is recorded and raised again. -/
def processJob (jobId : Nat) (tables : Tables) : Except String Unit × Tables :=
  match tables.getJobById jobId with
  | none => (.ok (),tables)
  | some job =>
    match ingest services settings job tables with
    | (.ok (),tables) => (.ok (),tables)
    | (.error e,tables) =>
      let tables := tables.failJob jobId e
      (.error e,tables.updateDocumentStatus job.documentId job.orgId .failed)

end jobs

end VoxForge.Knowledge
