import Mathlib.Algebra.Order.Ring.Rat
import Mathlib.Data.List.MinMax
import VoxForge.Core.Auth

/-! Collections, documents, versions, chunks and ingest jobs: the rows and the statements
of the knowledge repository. -/
namespace VoxForge.Knowledge
open Core

inductive SourceType where
  | pdf | markdown | html | txt | csv
  deriving DecidableEq, Repr

inductive DocumentStatus where
  | pending | processing | ready | failed | archived
  deriving DecidableEq, Repr

inductive IngestJobType where
  | ingest | reindex | incremental
  deriving DecidableEq, Repr

inductive IngestJobStatus where
  | queued | running | completed | failed | cancelled
  deriving DecidableEq, Repr

inductive IngestStage where
  | queued | parsing | chunking | embedding | indexing | completed
  deriving DecidableEq, Repr

structure ChunkingConfig where
  strategy : String := "recursive"
  chunkSize : Int := 512
  chunkOverlap : Int := 64
  rowsPerChunk : Int := 50
  includeHeader : Bool := true
  deriving DecidableEq, Repr

structure ChunkMetadata where
  chunkIndex : Option Nat := none
  page : Option Nat := none
  heading : Option String := none
  rowStart : Option Nat := none
  rowEnd : Option Nat := none
  sourceType : Option SourceType := none
  deriving DecidableEq, Repr

abbrev Embedding := List Float

structure Collection where
  id : Nat
  orgId : OrgId
  chunkingConfig : ChunkingConfig := {}
  deriving DecidableEq, Repr

structure Document where
  id : Nat
  orgId : OrgId
  collectionId : Nat
  title : String
  sourceType : SourceType
  contentHash : String
  activeVersionId : Option Nat := none
  status : DocumentStatus := .pending
  deriving DecidableEq, Repr

structure DocumentVersion where
  id : Nat
  documentId : Nat
  versionNumber : Nat
  contentHash : String
  blobPath : String
  chunkCount : Nat := 0
  filename : Option String := none
  deriving DecidableEq, Repr

structure Chunk where
  id : Nat
  orgId : OrgId
  documentVersionId : Nat
  chunkIndex : Nat
  content : String
  contentHash : String
  tokenCount : Nat
  metadata : ChunkMetadata
  embedding : Option Embedding
  deriving DecidableEq, Repr

structure IngestJob where
  id : Nat
  orgId : OrgId
  documentId : Nat
  documentVersionId : Option Nat
  jobType : IngestJobType
  createdAt : Nat := 0
  status : IngestJobStatus := .queued
  progressPct : Nat := 0
  stage : Option IngestStage := some .queued
  errorMessage : Option String := none
  deriving DecidableEq, Repr

structure RawChunk where
  content : String
  chunkIndex : Nat
  metadata : ChunkMetadata
  tokenCount : Nat
  deriving DecidableEq, Repr

structure ParsedDocument where
  title : String
  text : String
  sourceType : SourceType
  pages : List String := []
  headings : List String := []
  deriving DecidableEq, Repr

/-- The rows. `nextId` is the next generated id; it also tells the time, as no two of the events
that run alone create a job at once. -/
structure Tables where
  collections : List Collection := []
  documents : List Document := []
  versions : List DocumentVersion := []
  chunks : List Chunk := []
  jobs : List IngestJob := []
  nextId : Nat := 1
  deriving DecidableEq, Repr

namespace Tables

def getCollection (tables : Tables) (collectionId : Nat) (orgId : OrgId) : Option Collection :=
  tables.collections.find? fun c => c.id = collectionId && c.orgId = orgId

def getDocument (tables : Tables) (documentId : Nat) (orgId : OrgId) : Option Document :=
  tables.documents.find? fun d => d.id = documentId && d.orgId = orgId

def getVersion (tables : Tables) (versionId : Nat) : Option DocumentVersion :=
  tables.versions.find? (·.id = versionId)

def getActiveVersion (tables : Tables) (documentId : Nat) (orgId : OrgId) : Option DocumentVersion :=
  (tables.getDocument documentId orgId).bind fun document => document.activeVersionId.bind tables.getVersion

def getJobById (tables : Tables) (jobId : Nat) : Option IngestJob := tables.jobs.find? (·.id = jobId)

def updateDocument (tables : Tables) (documentId : Nat) (orgId : OrgId) (f : Document → Document) : Tables :=
  { tables with documents := tables.documents.map fun d => if d.id = documentId && d.orgId = orgId then f d else d }

def updateDocumentStatus (tables : Tables) (documentId : Nat) (orgId : OrgId) (status : DocumentStatus) : Tables :=
  tables.updateDocument documentId orgId fun d => { d with status }

def setActiveVersion (tables : Tables) (documentId : Nat) (orgId : OrgId) (versionId : Nat) : Tables :=
  tables.updateDocument documentId orgId fun d => { d with activeVersionId := some versionId }

def updateVersionChunkCount (tables : Tables) (versionId count : Nat) : Tables :=
  { tables with versions := tables.versions.map fun v => if v.id = versionId then { v with chunkCount := count } else v }

def updateJob (tables : Tables) (jobId : Nat) (f : IngestJob → IngestJob) : Tables :=
  { tables with jobs := tables.jobs.map fun j => if j.id = jobId then f j else j }

def updateProgress (tables : Tables) (jobId progressPct : Nat) (stage : IngestStage) : Tables :=
  tables.updateJob jobId fun j => { j with progressPct, stage := some stage }

def completeJob (tables : Tables) (jobId : Nat) : Tables :=
  tables.updateJob jobId fun j => { j with status := .completed, progressPct := 100, stage := some .completed }

def failJob (tables : Tables) (jobId : Nat) (errorMessage : String) : Tables :=
  tables.updateJob jobId fun j => { j with status := .failed, errorMessage := some errorMessage }

def createDocument (tables : Tables) (orgId : OrgId) (collectionId : Nat) (title : String)
    (sourceType : SourceType) (contentHash : String) : Document × Tables :=
  let document : Document := { id := tables.nextId, orgId, collectionId, title, sourceType, contentHash }
  (document,{ tables with documents := tables.documents ++ [document], nextId := tables.nextId + 1 })

def getLatestVersionNumber (tables : Tables) (documentId : Nat) : Option Nat :=
  ((tables.versions.filter (·.documentId = documentId)).map (·.versionNumber)).max?

/-- A version of the same number is returned instead of a new one. -/
def createVersion (tables : Tables) (documentId versionNumber : Nat) (contentHash blobPath filename : String) :
    DocumentVersion × Tables :=
  match tables.versions.find? fun v => v.documentId = documentId && v.versionNumber = versionNumber with
  | some existing => (existing,tables)
  | none =>
    let version : DocumentVersion :=
      { id := tables.nextId, documentId, versionNumber, contentHash, blobPath, filename := some filename }
    (version,{ tables with versions := tables.versions ++ [version], nextId := tables.nextId + 1 })

def enqueue (tables : Tables) (orgId : OrgId) (documentId : Nat) (jobType : IngestJobType)
    (documentVersionId : Option Nat) : IngestJob × Tables :=
  let job : IngestJob :=
    { id := tables.nextId, orgId, documentId, documentVersionId, jobType, createdAt := tables.nextId }
  (job,{ tables with jobs := tables.jobs ++ [job], nextId := tables.nextId + 1 })

/-- The queued job that was created first, among those that are not skipped. -/
def oldestQueued (tables : Tables) (skipped : List Nat) : Option IngestJob :=
  (tables.jobs.filter fun job => job.status = .queued && job.id ∉ skipped).argmin (·.createdAt)

theorem oldestQueued_eq_some {tables : Tables} {skipped : List Nat} {job : IngestJob}
    (h : tables.oldestQueued skipped = some job) :
    (job ∈ tables.jobs ∧ job.status = .queued ∧ job.id ∉ skipped) ∧
      ∀ other ∈ tables.jobs, other.status = .queued → other.createdAt < job.createdAt → other.id ∈ skipped := by
  have hmem := List.mem_filter.mp (List.argmin_mem h)
  simp only [Bool.and_eq_true,decide_eq_true_eq] at hmem
  refine ⟨hmem,fun other hother hqueued holder => ?_⟩
  by_contra hfree
  have hcandidate : other ∈ tables.jobs.filter fun job => job.status = .queued && job.id ∉ skipped :=
    List.mem_filter.mpr ⟨hother,by simp [hqueued,hfree]⟩
  exact absurd (List.le_of_mem_argmin hcandidate h) (Nat.not_le_of_lt holder)

theorem oldestQueued_eq_none {tables : Tables} {skipped : List Nat} (h : tables.oldestQueued skipped = none) :
    ∀ job ∈ tables.jobs, job.status = .queued → job.id ∈ skipped := by
  intro job hjob hqueued
  by_contra hskipped
  have hempty := List.filter_eq_nil_iff.mp (List.argmin_eq_none.mp h) job hjob
  simp [hqueued,hskipped] at hempty

/-- The oldest queued job, marked as running. -/
def claimNext (tables : Tables) : Option (IngestJob × Tables) :=
  (tables.oldestQueued []).map fun job =>
    let claim (j : IngestJob) : IngestJob := { j with status := .running, stage := some .parsing }
    (claim job,tables.updateJob job.id claim)

def deleteChunksByIndices (tables : Tables) (documentVersionId : Nat) (chunkIndices : List Nat) : Tables :=
  { tables with
    chunks := tables.chunks.filter fun c => !(c.documentVersionId = documentVersionId && c.chunkIndex ∈ chunkIndices) }

def deleteByVersion (tables : Tables) (documentVersionId : Nat) : Tables :=
  { tables with chunks := tables.chunks.filter (·.documentVersionId ≠ documentVersionId) }

def getChunkHashes (tables : Tables) (documentVersionId : Nat) : List (Nat × String) :=
  (tables.chunks.filter (·.documentVersionId = documentVersionId)).map fun c => (c.chunkIndex,c.contentHash)

/-- Insert one chunk; `false` where the version has a chunk of that index. -/
def insertChunk (tables : Tables) (sha256 : String → String) (orgId : OrgId) (documentVersionId : Nat) (raw : RawChunk)
    (embedding : Embedding) : Bool × Tables :=
  if tables.chunks.any fun c => c.documentVersionId = documentVersionId && c.chunkIndex = raw.chunkIndex then
    (false,tables)
  else
    let chunk : Chunk := {
      id := tables.nextId
      orgId
      documentVersionId
      chunkIndex := raw.chunkIndex
      content := raw.content
      contentHash := sha256 raw.content
      tokenCount := raw.tokenCount
      metadata := raw.metadata
      embedding := some embedding }
    (true,{ tables with chunks := tables.chunks ++ [chunk], nextId := tables.nextId + 1 })

end Tables

end VoxForge.Knowledge
