import VoxForge.Foundation.Failures
import VoxForge.Knowledge.Worker

/-! Deleting documents and collections: the rows go in one transaction, the blobs beside it. -/
namespace VoxForge.Knowledge
open Core Foundation Prog

/-- Rows come in some order that the tables do not tell. -/
structure RowOrder (α : Type) where
  sort : List α → List α
  perm : ∀ rows, (sort rows).Perm rows

/-- The order of the documents, by the times of their updates, and that of the versions. -/
structure RowOrders where
  documents : RowOrder Document
  versions : RowOrder DocumentVersion

namespace Tables

/-- Versions and jobs vanish with their document, chunks with their version. -/
def deleteDocuments (tables : Tables) (gone : Document → Bool) : Tables :=
  let documentIds := (tables.documents.filter gone).map (·.id)
  let versionIds := (tables.versions.filter (·.documentId ∈ documentIds)).map (·.id)
  { tables with
    documents := tables.documents.filter (!gone ·)
    versions := tables.versions.filter (·.documentId ∉ documentIds)
    chunks := tables.chunks.filter (·.documentVersionId ∉ versionIds)
    jobs := tables.jobs.filter (·.documentId ∉ documentIds) }

def deleteDocument (tables : Tables) (documentId : Nat) : Tables :=
  tables.deleteDocuments (·.id = documentId)

/-- The documents vanish with their collection. -/
def deleteCollection (tables : Tables) (collectionId : Nat) : Tables :=
  { tables.deleteDocuments (·.collectionId = collectionId) with
    collections := tables.collections.filter (·.id ≠ collectionId) }

def listDocuments (orders : RowOrders) (tables : Tables) (orgId : OrgId) (collectionId : Option Nat) (limit : Nat) :
    List Document :=
  (orders.documents.sort (tables.documents.filter fun d =>
    d.orgId = orgId && collectionId.all (d.collectionId = ·))).take limit

def selectBlobPaths (orders : RowOrders) (tables : Tables) (documentId : Nat) : List String :=
  (orders.versions.sort (tables.versions.filter (·.documentId = documentId))).map (·.blobPath)

end Tables

inductive DeletionError where
  | osError
  | httpException (statusCode : Nat) (detail : String)
  | other (message : String)
  deriving DecidableEq, Repr

/-- The statements of a deletion, its calls on the blob store, and its commit. -/
inductive DeletionOp where
  | getCollection (collectionId : Nat) (orgId : OrgId)
  | getDocument (documentId : Nat) (orgId : OrgId)
  | listDocuments (orgId : OrgId) (collectionId : Option Nat) (limit : Nat)
  | selectBlobPaths (documentId : Nat)
  | deleteDocument (documentId : Nat)
  | deleteCollection (collectionId : Nat)
  | createBlobStore
  | deleteBlob (path : String)
  | commit
  deriving DecidableEq, Repr

abbrev DeletionOp.Reply : DeletionOp → Type
  | .getCollection .. => Option Collection
  | .getDocument .. => Option Document
  | .listDocuments .. => List Document
  | .selectBlobPaths _ => List String
  | _ => Unit

abbrev Deletes (α : Type) := Prog DeletionOp DeletionOp.Reply DeletionError α

/-- The committed tables, the tables as the request's transaction sees them, and the blobs. -/
structure Stores where
  committed : Tables
  session : Tables
  blobs : List String

def handle (orders : RowOrders) : (o : DeletionOp) → Stores → Except DeletionError o.Reply × Stores
  | .getCollection collectionId orgId,s => (.ok (s.session.getCollection collectionId orgId),s)
  | .getDocument documentId orgId,s => (.ok (s.session.getDocument documentId orgId),s)
  | .listDocuments orgId collectionId limit,s => (.ok (s.session.listDocuments orders orgId collectionId limit),s)
  | .selectBlobPaths documentId,s => (.ok (s.session.selectBlobPaths orders documentId),s)
  | .deleteDocument documentId,s => (.ok (),{ s with session := s.session.deleteDocument documentId })
  | .deleteCollection collectionId,s => (.ok (),{ s with session := s.session.deleteCollection collectionId })
  | .createBlobStore,s => (.ok (),s)
  | .deleteBlob path,s => (.ok (),{ s with blobs := s.blobs.filter (· ≠ path) })
  | .commit,s => (.ok (),{ s with committed := s.session })

def request (o : DeletionOp) : Deletes o.Reply := perform o

namespace KnowledgeRepository

def listBlobPathsForDocument (documentId : Nat) (orgId : OrgId) : Deletes (List String) := do
  match ← request (.getDocument documentId orgId) with
  | none => return []
  | some _ => return (← request (.selectBlobPaths documentId)).filter (· ≠ "")

def deleteDocument (documentId : Nat) (orgId : OrgId) : Deletes (List String) := do
  let blobPaths ← listBlobPathsForDocument documentId orgId
  match ← request (.getDocument documentId orgId) with
  | none => return []
  | some document => do
    request (.deleteDocument document.id)
    return blobPaths

/-- The loop of `delete_collection` over the listed documents. -/
def gatherBlobPaths (orgId : OrgId) : List Document → Deletes (List String)
  | [] => return []
  | document :: rest => do
    let blobPaths ← listBlobPathsForDocument document.id orgId
    return blobPaths ++ (← gatherBlobPaths orgId rest)

def listingLimit : Nat := 10000

def deleteCollection (collectionId : Nat) (orgId : OrgId) : Deletes (Nat × List String) := do
  match ← request (.getCollection collectionId orgId) with
  | none => return (0,[])
  | some _ => do
    let documents ← request (.listDocuments orgId (some collectionId) listingLimit)
    let blobPaths ← gatherBlobPaths orgId documents
    match ← request (.getCollection collectionId orgId) with
    | none => return (0,[])
    | some collection => do
      request (.deleteCollection collection.id)
      return (documents.length,blobPaths)

end KnowledgeRepository

/-- One turn of the loop of `_delete_blob_paths`: an `OSError` is passed over. -/
def deleteOne (path : String) : Deletes Unit :=
  .tryCatch (request (.deleteBlob path)) fun e => if e = .osError then return () else .raise e

def deleteEach : List String → Deletes Unit
  | [] => return ()
  | path :: rest => do
    deleteOne path
    deleteEach rest

def deleteBlobPaths (paths : List String) : Deletes Unit := do
  if paths ≠ [] then
    request .createBlobStore
    deleteEach paths

inductive DeletionResponse where
  | collection (collectionId documentsRemoved : Nat)
  | document (documentId : Nat)
  deriving DecidableEq, Repr

def deleteCollection (collectionId : Nat) (orgId : OrgId) : Deletes DeletionResponse := do
  if (← request (.getCollection collectionId orgId)).isNone then .raise (.httpException 404 "Collection not found")
  else
    let (documentsRemoved,blobPaths) ← KnowledgeRepository.deleteCollection collectionId orgId
    deleteBlobPaths blobPaths
    request .commit
    return .collection collectionId documentsRemoved

def deleteDocument (documentId : Nat) (orgId : OrgId) : Deletes DeletionResponse := do
  if (← request (.getDocument documentId orgId)).isNone then .raise (.httpException 404 "Document not found")
  else
    let blobPaths ← KnowledgeRepository.deleteDocument documentId orgId
    deleteBlobPaths blobPaths
    request .commit
    return .document documentId

/-! A request, as what it deletes and the operations it makes -/

inductive DeletionRequest where
  | collection (collectionId : Nat)
  | document (documentId : Nat)
  deriving DecidableEq, Repr

namespace DeletionRequest
variable (orders : RowOrders) (tables : Tables) (orgId : OrgId)

def program : DeletionRequest → Deletes DeletionResponse
  | collection collectionId => deleteCollection collectionId orgId
  | document documentId => deleteDocument documentId orgId

def found : DeletionRequest → Bool
  | collection collectionId => (tables.getCollection collectionId orgId).isSome
  | document documentId => (tables.getDocument documentId orgId).isSome

/-- The documents whose blobs are asked for. -/
def listed : DeletionRequest → List Document
  | collection collectionId => tables.listDocuments orders orgId (some collectionId) KnowledgeRepository.listingLimit
  | document documentId => (tables.getDocument documentId orgId).toList

def blobPaths (request : DeletionRequest) : List String :=
  (request.listed orders tables orgId).flatMap fun document =>
    (tables.selectBlobPaths orders document.id).filter (· ≠ "")

/-- The number of the first deletion of a blob, or of the commit where there is none. -/
def firstDeletion (request : DeletionRequest) : Nat :=
  (match request with
    | collection _ => 5 + 2 * (request.listed orders tables orgId).length
    | document _ => 5) + if request.blobPaths orders tables orgId = [] then 0 else 1

def response : DeletionRequest → DeletionResponse
  | request@(collection collectionId) => .collection collectionId (request.listed orders tables orgId).length
  | document documentId => .document documentId

def deleted : DeletionRequest → Tables
  | collection collectionId => tables.deleteCollection collectionId
  | document documentId => tables.deleteDocument documentId

/-- The collection is no longer than the listing. -/
def Fits : DeletionRequest → Prop
  | collection collectionId =>
    (tables.documents.filter (·.collectionId = collectionId)).length ≤ KnowledgeRepository.listingLimit
  | document _ => True

def run (request : DeletionRequest) (faults : Nat → Option DeletionError) (blobs : List String) :
    Except DeletionError DeletionResponse × Numbered DeletionOp Stores DeletionError :=
  exec (faulty (handle orders) faults) (request.program orgId)
    { state := { committed := tables, session := tables, blobs } }

end DeletionRequest

/-! The statements -/

section statements
variable {orders : RowOrders} {E : Stores → Prop} {s : Stores} {orgId : OrgId}

theorem passes_request {o : DeletionOp} {q : o.Reply → Stores → Prop} (hE : E s)
    (h : ∃ a t, handle orders o s = (.ok a,t) ∧ q a t) : Passes (handle orders) E 1 s (request o) q := by
  obtain ⟨a,t,ho,hq⟩ := h
  exact passes_perform hE ⟨a,t,by rw [exec_perform,ho],hq⟩

theorem passes_listBlobPaths (hE : E s) {documentId : Nat}
    (hfound : (s.session.getDocument documentId orgId).isSome = true) :
    Passes (handle orders) E 2 s (KnowledgeRepository.listBlobPathsForDocument documentId orgId) fun paths t =>
      paths = (s.session.selectBlobPaths orders documentId).filter (· ≠ "") ∧ t = s := by
  obtain ⟨document,hdocument⟩ := Option.isSome_iff_exists.mp hfound
  refine passes_then (m := 1) (Q := fun found t => found = some document ∧ t = s)
    (passes_request hE ⟨_,_,rfl,hdocument,rfl⟩) ?_
  rintro _ t ⟨rfl,ht⟩
  subst t
  refine passes_then (m := 0) (Q := fun paths t => paths = s.session.selectBlobPaths orders documentId ∧ t = s)
    (passes_request hE ⟨_,_,rfl,rfl,rfl⟩) ?_
  rintro _ _ ⟨rfl,rfl⟩
  exact passes_pure ⟨rfl,rfl⟩

theorem passes_gatherBlobPaths (hE : E s) {documents : List Document}
    (hfound : ∀ d ∈ documents, (s.session.getDocument d.id orgId).isSome = true) :
    Passes (handle orders) E (2 * documents.length) s (KnowledgeRepository.gatherBlobPaths orgId documents)
      fun paths t => paths = documents.flatMap (fun d =>
        (s.session.selectBlobPaths orders d.id).filter (· ≠ "")) ∧ t = s := by
  induction documents with
  | nil => exact passes_pure ⟨rfl,rfl⟩
  | cons document rest ih =>
    have hrest := ih fun d hd => hfound d (List.mem_cons_of_mem _ hd)
    rw [List.length_cons,Nat.mul_add,Nat.add_comm]
    refine passes_then (passes_listBlobPaths hE (hfound document List.mem_cons_self)) ?_
    rintro _ t ⟨rfl,ht⟩
    subst t
    refine passes_then (m := 0) hrest ?_
    rintro _ _ ⟨rfl,rfl⟩
    exact passes_pure ⟨rfl,rfl⟩

/-- What is left of a request when its rows are deleted. -/
def sweep (paths : List String) (response : DeletionResponse) : Deletes DeletionResponse := do
  deleteEach paths
  request .commit
  return response

theorem comes_deleteBlobPaths (hE : E s) (paths : List String) {β : Type} (f : Unit → Deletes β) :
    Comes (handle orders) E (if paths = [] then 0 else 1) s (deleteBlobPaths paths >>= f) fun p t =>
      p = (deleteEach paths >>= f) ∧ t = s := by
  unfold deleteBlobPaths
  by_cases hpaths : paths = []
  · rw [if_pos hpaths,if_neg (not_not.mpr hpaths),hpaths]
    exact ⟨_,_,.here _ s,rfl,rfl⟩
  · rw [if_neg hpaths,if_pos hpaths,bind_assoc']
    refine comes_then (m := 0) (Q := fun _ t => t = s) (passes_request hE ⟨_,_,rfl,rfl⟩) ?_
    rintro _ t ht
    subst t
    exact ⟨_,_,.here _ s,rfl,rfl⟩

theorem passes_deleteDocument (hE : E s) {documentId : Nat}
    (hfound : (s.session.getDocument documentId orgId).isSome = true) :
    Passes (handle orders) E 4 s (KnowledgeRepository.deleteDocument documentId orgId) fun paths t =>
      paths = (s.session.selectBlobPaths orders documentId).filter (· ≠ "") ∧
        t = { s with session := s.session.deleteDocument documentId } := by
  obtain ⟨document,hdocument⟩ := Option.isSome_iff_exists.mp hfound
  have hid : document.id = documentId := by
    have h := List.find?_some hdocument
    simp only [Bool.and_eq_true,decide_eq_true_eq] at h
    exact h.1
  refine passes_then (m := 2) (passes_listBlobPaths hE hfound) ?_
  rintro paths t ⟨hpaths,ht⟩
  subst t
  refine passes_then (m := 1) (Q := fun found t => found = some document ∧ t = s)
    (passes_request hE ⟨_,_,rfl,hdocument,rfl⟩) ?_
  rintro _ t ⟨rfl,ht⟩
  subst t
  refine passes_then (m := 0) (Q := fun _ t => t = { s with session := s.session.deleteDocument documentId })
    (passes_request hE ⟨_,_,rfl,?_⟩) ?_
  · rw [hid]
  · rintro _ t ht
    exact passes_pure ⟨hpaths,ht⟩

theorem passes_deleteCollection (hE : E s) {collectionId : Nat}
    (hfound : (s.session.getCollection collectionId orgId).isSome = true)
    (hdocuments : ∀ d ∈ s.session.documents, d.orgId = orgId → (s.session.getDocument d.id orgId).isSome = true) :
    let documents := s.session.listDocuments orders orgId (some collectionId) KnowledgeRepository.listingLimit
    Passes (handle orders) E (4 + 2 * documents.length) s (KnowledgeRepository.deleteCollection collectionId orgId)
      fun result t => result = (documents.length,documents.flatMap fun d =>
          (s.session.selectBlobPaths orders d.id).filter (· ≠ "")) ∧
        t = { s with session := s.session.deleteCollection collectionId } := by
  intro documents
  obtain ⟨collection,hcollection⟩ := Option.isSome_iff_exists.mp hfound
  have hid : collection.id = collectionId := by
    have h := List.find?_some hcollection
    simp only [Bool.and_eq_true,decide_eq_true_eq] at h
    exact h.1
  have hlisted : ∀ d ∈ documents, (s.session.getDocument d.id orgId).isSome = true := by
    intro d hd
    have hmem := (orders.documents.perm _).mem_iff.mp (List.mem_of_mem_take hd)
    rw [List.mem_filter,Bool.and_eq_true,decide_eq_true_eq] at hmem
    exact hdocuments d hmem.1 hmem.2.1
  have hlength : 4 + 2 * documents.length = 1 + (1 + (2 * documents.length + (1 + (1 + 0)))) := by omega
  rw [hlength]
  refine passes_then (Q := fun found t => found = some collection ∧ t = s)
    (passes_request hE ⟨_,_,rfl,hcollection,rfl⟩) ?_
  rintro _ t ⟨rfl,ht⟩
  subst t
  refine passes_then (Q := fun listed t => listed = documents ∧ t = s) (passes_request hE ⟨_,_,rfl,rfl,rfl⟩) ?_
  rintro _ t ⟨rfl,ht⟩
  subst t
  refine passes_then (passes_gatherBlobPaths hE hlisted) ?_
  rintro paths t ⟨hpaths,ht⟩
  subst t
  refine passes_then (Q := fun found t => found = some collection ∧ t = s)
    (passes_request hE ⟨_,_,rfl,hcollection,rfl⟩) ?_
  rintro _ t ⟨rfl,ht⟩
  subst t
  refine passes_then (Q := fun _ t => t = { s with session := s.session.deleteCollection collectionId })
    (passes_request hE ⟨_,_,rfl,?_⟩) ?_
  · rw [hid]
  · rintro _ t ht
    exact passes_pure ⟨by rw [hpaths],ht⟩

/-- A request that finds what it deletes comes to its first deletion of a blob. -/
theorem comes_sweep (request : DeletionRequest) (hE : E s) (hfound : request.found s.session orgId = true)
    (hdeleted : E { s with session := request.deleted s.session })
    (hdocuments : ∀ d ∈ s.session.documents, d.orgId = orgId → (s.session.getDocument d.id orgId).isSome = true) :
    Comes (handle orders) E (request.firstDeletion orders s.session orgId) s (request.program orgId) fun p t =>
      p = sweep (request.blobPaths orders s.session orgId) (request.response orders s.session orgId) ∧
        t = { s with session := request.deleted s.session } := by
  cases request with
  | document documentId =>
    obtain ⟨document,hdocument⟩ := Option.isSome_iff_exists.mp hfound
    have hid : document.id = documentId := by
      have h := List.find?_some hdocument
      simp only [Bool.and_eq_true,decide_eq_true_eq] at h
      exact h.1
    have hpaths : DeletionRequest.blobPaths orders s.session orgId (.document documentId) =
        (s.session.selectBlobPaths orders documentId).filter (· ≠ "") := by
      unfold DeletionRequest.blobPaths DeletionRequest.listed
      dsimp only
      rw [hdocument,Option.toList_some,List.flatMap_singleton,hid]
    unfold DeletionRequest.firstDeletion
    dsimp only
    rw [hpaths,show (5 : Nat) = 1 + 4 from rfl,Nat.add_assoc]
    refine comes_then (Q := fun found t => found = some document ∧ t = s)
      (passes_request hE ⟨_,_,rfl,hdocument,rfl⟩) ?_
    rintro _ t ⟨rfl,ht⟩
    subst t
    refine comes_then (passes_deleteDocument hE hfound) ?_
    rintro _ t ⟨rfl,ht⟩
    subst t
    exact comes_deleteBlobPaths hdeleted _ _
  | collection collectionId =>
    obtain ⟨collection,hcollection⟩ := Option.isSome_iff_exists.mp hfound
    unfold DeletionRequest.firstDeletion
    dsimp only
    rw [show ∀ n : Nat, 5 + 2 * n = 1 + (4 + 2 * n) from fun n => by omega,Nat.add_assoc]
    refine comes_then (Q := fun found t => found = some collection ∧ t = s)
      (passes_request hE ⟨_,_,rfl,hcollection,rfl⟩) ?_
    rintro _ t ⟨rfl,ht⟩
    subst t
    refine comes_then (passes_deleteCollection hE hfound hdocuments) ?_
    rintro _ t ⟨rfl,ht⟩
    subst t
    exact comes_deleteBlobPaths hdeleted _ _

end statements

/-! The blobs -/

section blobs
variable {orders : RowOrders} {faults : Nat → Option DeletionError} {s : Stores} {number : Nat}
  {raised : List (DeletionOp × DeletionError)} {paths blobs : List String} {path : String}

/-- The blobs that some deletions leave, the first of them under a given number. -/
def swept (faults : Nat → Option DeletionError) : Nat → List String → List String → List String
  | _,[],blobs => blobs
  | number,path :: rest,blobs =>
    swept faults (number + 1) rest (if faults number = none then blobs.filter (· ≠ path) else blobs)

/-- The deletions that raised and were passed over. -/
def refused (faults : Nat → Option DeletionError) : Nat → List String → List (DeletionOp × DeletionError)
  | _,[] => []
  | number,path :: rest =>
    (faults number).toList.map (fun e => (.deleteBlob path,e)) ++ refused faults (number + 1) rest

theorem mem_swept :
    path ∈ swept faults number paths blobs ↔ path ∈ blobs ∧ ∀ j, paths[j]? = some path → faults (number + j) ≠ none := by
  induction paths generalizing number blobs with
  | nil => simp [swept]
  | cons first rest ih =>
    rw [swept,ih]
    have hshift (j : Nat) : number + 1 + j = number + (j + 1) := by omega
    constructor
    · rintro ⟨hmem,hrest⟩
      constructor
      · split at hmem
        · exact List.mem_of_mem_filter hmem
        · exact hmem
      · intro j hj
        cases j with
        | zero =>
          obtain rfl : first = path := by simpa using hj
          intro hnone
          rw [Nat.add_zero] at hnone
          simp [hnone] at hmem
        | succ j => exact hshift j ▸ hrest j (by simpa using hj)
    · rintro ⟨hmem,hall⟩
      constructor
      · split
        · next hnone =>
          refine List.mem_filter.mpr ⟨hmem,decide_eq_true ?_⟩
          rintro rfl
          exact hall 0 rfl hnone
        · exact hmem
      · intro j hj
        exact (hshift j).symm ▸ hall (j + 1) (by simpa using hj)

theorem mem_refused {j : Nat} {e : DeletionError} (hpath : paths[j]? = some path) (hfault : faults (number + j) = some e) :
    (.deleteBlob path,e) ∈ refused faults number paths := by
  induction paths generalizing number j with
  | nil => simp at hpath
  | cons first rest ih =>
    rw [refused,List.mem_append]
    cases j with
    | zero =>
      left
      obtain rfl : first = path := by simpa using hpath
      rw [Nat.add_zero] at hfault
      simp [hfault]
    | succ j =>
      right
      exact ih (by simpa using hpath) (by rw [← hfault]; congr 1; omega)

theorem deleteEach_append (before rest : List String) :
    deleteEach (before ++ rest) = (do deleteEach before; deleteEach rest) := by
  induction before with
  | nil => rfl
  | cons path before ih =>
    rw [List.cons_append,deleteEach,ih,deleteEach,bind_assoc']

theorem exec_deleteOne_clear (h : faults number = none) :
    exec (faulty (handle orders) faults) (deleteOne path) ⟨s,number,raised⟩ =
      (.ok (),⟨{ s with blobs := s.blobs.filter (· ≠ path) },number + 1,raised⟩) := by
  unfold deleteOne
  rw [exec_tryCatch,request,exec_perform,faulty_clear h]
  rfl

theorem exec_deleteOne_refused (h : faults number = some .osError) :
    exec (faulty (handle orders) faults) (deleteOne path) ⟨s,number,raised⟩ =
      (.ok (),⟨s,number + 1,raised ++ [(.deleteBlob path,.osError)]⟩) := by
  unfold deleteOne
  rw [exec_tryCatch,request,exec_perform,faulty_fault h]
  rfl

theorem exec_deleteOne_fatal {e : DeletionError} (h : faults number = some e) (he : e ≠ .osError) :
    exec (faulty (handle orders) faults) (deleteOne path) ⟨s,number,raised⟩ =
      (.error e,⟨s,number + 1,raised ++ [(.deleteBlob path,e)]⟩) := by
  unfold deleteOne
  rw [exec_tryCatch,request,exec_perform,faulty_fault h]
  dsimp only
  rw [if_neg he]
  rfl

/-- As long as no deletion raises more than an `OSError`, all are tried. -/
theorem exec_deleteEach (h : ∀ j < paths.length, ∀ e, faults (number + j) = some e → e = .osError) :
    exec (faulty (handle orders) faults) (deleteEach paths) ⟨s,number,raised⟩ =
      (.ok (),⟨{ s with blobs := swept faults number paths s.blobs },number + paths.length,
        raised ++ refused faults number paths⟩) := by
  induction paths generalizing s number raised with
  | nil => simp [deleteEach,exec,swept,refused,pure]
  | cons path rest ih =>
    have hrest : ∀ j < rest.length, ∀ e, faults (number + 1 + j) = some e → e = .osError := by
      intro j hj e he
      refine h (j + 1) (Nat.succ_lt_succ hj) e ?_
      rw [← he]
      congr 1
      omega
    have hnumber : number + 1 + rest.length = number + (path :: rest).length := by
      rw [List.length_cons]
      omega
    rw [deleteEach]
    cases hfirst : faults number with
    | none =>
      rw [exec_bind_ok _ _ (exec_deleteOne_clear hfirst),ih hrest,hnumber]
      simp [swept,refused,hfirst]
    | some e =>
      obtain rfl := h 0 (Nat.succ_pos _) e hfirst
      rw [exec_bind_ok _ _ (exec_deleteOne_refused hfirst),ih hrest,hnumber]
      simp [swept,refused,hfirst]

/-- An operation of the sweep that ends the request: a deletion that raises more than an
`OSError`, or the commit, after all deletions, if it fails. -/
def Fatal (faults : Nat → Option DeletionError) (first : Nat) (paths : List String) (k : Nat) : Prop :=
  ∃ e, faults (first + k) = some e ∧ (k < paths.length → e ≠ .osError)

/-- A sweep that nothing ends deletes all blobs that it can, and commits. -/
theorem exec_sweep_clear (response : DeletionResponse) (h : ∀ k ≤ paths.length, ¬ Fatal faults number paths k) :
    exec (faulty (handle orders) faults) (sweep paths response) ⟨s,number,raised⟩ =
      (.ok response,⟨{ s with committed := s.session, blobs := swept faults number paths s.blobs },
        number + paths.length + 1,raised ++ refused faults number paths⟩) := by
  have hdeletions : ∀ j < paths.length, ∀ e, faults (number + j) = some e → e = .osError := by
    intro j hj e he
    by_contra hne
    exact h j (Nat.le_of_lt hj) ⟨e,he,fun _ => hne⟩
  have hcommit : faults (number + paths.length) = none := by
    cases hfault : faults (number + paths.length) with
    | none => rfl
    | some e => exact absurd ⟨e,hfault,fun hlt => absurd hlt (Nat.lt_irrefl _)⟩ (h paths.length (Nat.le_refl _))
  unfold sweep
  rw [exec_bind_ok _ _ (exec_deleteEach hdeletions)]
  refine exec_bind_ok _ _ (a := ()) ?_ _
  rw [request,exec_perform,faulty_clear hcommit]
  rfl

/-- What ends a sweep leaves the committed rows, but not the blobs deleted before. -/
theorem exec_sweep_fatal (response : DeletionResponse) {k : Nat} (hk : k ≤ paths.length)
    (hbefore : ∀ i < k, ¬ Fatal faults number paths i) (hfatal : Fatal faults number paths k) :
    ∃ e number' raised', exec (faulty (handle orders) faults) (sweep paths response) ⟨s,number,raised⟩ =
      (.error e,⟨{ s with blobs := swept faults number (paths.take k) s.blobs },number',raised'⟩) := by
  have hdeletions : ∀ j < (paths.take k).length, ∀ e, faults (number + j) = some e → e = .osError := by
    intro j hj e he
    rw [List.length_take_of_le hk] at hj
    by_contra hne
    exact hbefore j hj ⟨e,he,fun _ => hne⟩
  obtain ⟨e,hfault,he⟩ := hfatal
  have hlength : number + (paths.take k).length = number + k := by rw [List.length_take_of_le hk]
  have hpaths : sweep paths response = (do
      deleteEach (paths.take k)
      deleteEach (paths.drop k)
      request .commit
      return response) := by
    unfold sweep
    conv_lhs => rw [← List.take_append_drop k paths]
    rw [deleteEach_append,bind_assoc']
  rw [hpaths,exec_bind_ok _ _ (exec_deleteEach hdeletions),hlength]
  cases hrest : paths.drop k with
  | nil =>
    have hcommit (t : Stores) (l : List (DeletionOp × DeletionError)) :
        exec (faulty (handle orders) faults) (request .commit) ⟨t,number + k,l⟩ =
          (.error e,⟨t,number + k + 1,l ++ [(.commit,e)]⟩) := by
      rw [request,exec_perform,faulty_fault hfault]
    exact ⟨e,_,_,exec_bind_error _ _ (hcommit _ _) _⟩
  | cons path rest =>
    have hlt : k < paths.length := by
      by_contra hge
      rw [List.drop_eq_nil_of_le (Nat.not_lt.mp hge)] at hrest
      cases hrest
    have hdeletion (t : Stores) (l : List (DeletionOp × DeletionError)) :
        exec (faulty (handle orders) faults) (deleteEach (path :: rest)) ⟨t,number + k,l⟩ =
          (.error e,⟨t,number + k + 1,l ++ [(.deleteBlob path,e)]⟩) :=
      exec_bind_error _ _ (exec_deleteOne_fatal hfault (he hlt)) _
    exact ⟨e,_,_,exec_bind_error _ _ (hdeletion _ _) _⟩

end blobs

end VoxForge.Knowledge
