import VoxForge.Knowledge.Deletion

/-! Rows and blobs under deletions: the keys that uploads give, and when a request leaves
every version its blob and no blob of what it deleted. -/
namespace VoxForge.Knowledge
open Core Foundation Prog

/-! What is stored is found again by its keys -/

/-- A version's blob has the key that its upload made, and a document is in a collection of
its organisation. -/
structure Stored (tables : Tables) : Prop where
  keyed : ∀ v ∈ tables.versions, ∃ (orgId : OrgId) (versionNumber : Nat) (filename : String),
    v.blobPath = s!"{orgId}/{v.documentId}/v{versionNumber}/{filename}"
  housed : ∀ d ∈ tables.documents, ∃ c ∈ tables.collections, c.id = d.collectionId ∧ c.orgId = d.orgId
  collectionIds : (tables.collections.map (·.id)).Nodup
  collections : ∀ c ∈ tables.collections, c.id < tables.nextId

namespace Stored
variable {tables after : Tables}

theorem blobKey_document {orgId owner : OrgId} {documentId document m n : Nat} {filename name : String}
    (h : s!"{orgId}/{documentId}/v{m}/{filename}" = s!"{owner}/{document}/v{n}/{name}") : documentId = document := by
  have hslash : ('/' : Char).isDigit = false := by decide
  have hletters := congrArg String.toList h
  simp only [String.toList_append,List.append_assoc] at hletters
  have hrest := (toString_cons_inj hslash hletters).2
  exact (toString_cons_inj hslash hrest).1

theorem empty : Stored {} := by constructor <;> simp

theorem distinct (h : Stored tables) {v w : DocumentVersion} (hv : v ∈ tables.versions) (hw : w ∈ tables.versions)
    (hpath : v.blobPath = w.blobPath) : v.documentId = w.documentId := by
  obtain ⟨_,_,_,hkey⟩ := h.keyed v hv
  obtain ⟨_,_,_,hkey'⟩ := h.keyed w hw
  exact blobKey_document (hkey.symm.trans (hpath.trans hkey'))

theorem path_ne_empty (h : Stored tables) {v : DocumentVersion} (hv : v ∈ tables.versions) : v.blobPath ≠ "" := by
  obtain ⟨orgId,n,filename,hkey⟩ := h.keyed v hv
  rw [hkey]
  intro hempty
  have hletters := congrArg String.toList hempty
  simp at hletters

/-- The rows go on under their keys, in the same collections. -/
structure SameKeys (a b : Tables) : Prop where
  collections : b.collections = a.collections
  documents : ∀ d ∈ b.documents, ∃ c ∈ a.documents, c.collectionId = d.collectionId ∧ c.orgId = d.orgId
  versions : ∀ v ∈ b.versions, ∃ w ∈ a.versions, w.documentId = v.documentId ∧ w.blobPath = v.blobPath
  nextId : a.nextId ≤ b.nextId

theorem SameKeys.stored {a b : Tables} (h : SameKeys a b) (ha : Stored a) : Stored b := by
  refine ⟨fun v hv => ?_,fun d hd => ?_,h.collections ▸ ha.collectionIds,fun c hc => ?_⟩
  · obtain ⟨w,hw,hdocument,hpath⟩ := h.versions v hv
    rw [← hdocument,← hpath]
    exact ha.keyed w hw
  · obtain ⟨c,hc,hcollection,horg⟩ := h.documents d hd
    rw [h.collections,← hcollection,← horg]
    exact ha.housed c hc
  · exact (ha.collections c (h.collections ▸ hc)).trans_le h.nextId

theorem SameKeys.trans {a b c : Tables} (h : SameKeys a b) (k : SameKeys b c) : SameKeys a c := by
  refine ⟨k.collections.trans h.collections,fun d hd => ?_,fun v hv => ?_,h.nextId.trans k.nextId⟩
  · obtain ⟨e,he,hcollection,horg⟩ := k.documents d hd
    obtain ⟨f,hf,hcollection',horg'⟩ := h.documents e he
    exact ⟨f,hf,hcollection'.trans hcollection,horg'.trans horg⟩
  · obtain ⟨w,hw,hdocument,hpath⟩ := k.versions v hv
    obtain ⟨u,hu,hdocument',hpath'⟩ := h.versions w hw
    exact ⟨u,hu,hdocument'.trans hdocument,hpath'.trans hpath⟩

theorem sameKeys_processing (h : Processing tables after) : SameKeys tables after := by
  obtain ⟨f,hf,hfs⟩ := h.documents
  refine ⟨h.collections,fun d hd => ?_,fun v hv => ⟨v,h.versions ▸ hv,rfl,rfl⟩,h.nextId⟩
  rw [hf] at hd
  obtain ⟨c,hc,rfl⟩ := List.mem_map.mp hd
  obtain ⟨status,hstatus⟩ := hfs c
  exact ⟨c,hc,by rw [hstatus],by rw [hstatus]⟩

theorem sameKeys_published (job : IngestJob) (versionId indexed : Nat) :
    SameKeys tables (published job versionId indexed tables) := by
  have hcounted : SameKeys tables (tables.updateVersionChunkCount versionId indexed) := by
    refine ⟨rfl,fun d hd => ⟨d,hd,rfl,rfl⟩,fun v hv => ?_,Nat.le_refl _⟩
    obtain ⟨w,hw,rfl⟩ := List.mem_map.mp hv
    refine ⟨w,hw,?_,?_⟩ <;> split <;> rfl
  have hactive (a : Tables) : SameKeys a (a.setActiveVersion job.documentId job.orgId versionId) := by
    refine ⟨rfl,fun d hd => ?_,fun v hv => ⟨v,hv,rfl,rfl⟩,Nat.le_refl _⟩
    obtain ⟨c,hc,rfl⟩ := List.mem_map.mp hd
    refine ⟨c,hc,?_,?_⟩ <;> split <;> rfl
  have hready := (Processing.status ((tables.updateVersionChunkCount versionId indexed).setActiveVersion
    job.documentId job.orgId versionId) job.documentId job.orgId .ready)
  have hcompleted : Processing _ (published job versionId indexed tables) :=
    .job _ job.id _ fun _ => ⟨rfl,rfl,rfl,rfl,rfl⟩
  exact (hcounted.trans (hactive _)).trans (sameKeys_processing (hready.trans hcompleted))

theorem sameKeys_processJob (settings : Settings) (services : Services) (jobId : Nat) (tables : Tables) :
    SameKeys tables (processJob services settings jobId tables).2 := by
  cases hjob : tables.getJobById jobId with
  | none =>
    unfold processJob
    rw [hjob]
    exact sameKeys_processing (.refl tables)
  | some job =>
    cases hrun : processJob services settings jobId tables with
    | mk result after =>
      cases result with
      | error e =>
        obtain ⟨job,middle,-,hprocessing,rfl⟩ := processJob_error hrun
        exact sameKeys_processing (hprocessing.trans (.status middle _ _ _))
      | ok u =>
        obtain ⟨versionId,indexed,stored,-,hprocessing,rfl⟩ := processJob_published hjob hrun
        exact (sameKeys_processing hprocessing).trans (sameKeys_published job versionId indexed)

theorem sameKeys_enqueue (tables : Tables) (orgId : OrgId) (documentId : Nat) (jobType : IngestJobType)
    (versionId : Option Nat) : SameKeys tables (tables.enqueue orgId documentId jobType versionId).2 :=
  ⟨rfl,fun d hd => ⟨d,hd,rfl,rfl⟩,fun v hv => ⟨v,hv,rfl,rfl⟩,Nat.le_succ _⟩

theorem sameKeys_inline (settings : Settings) (services : Services) (jobId : Nat) (tables : Tables) :
    SameKeys tables (inline settings services jobId tables).2 := by
  unfold inline
  split
  · exact sameKeys_processing (.refl tables)
  · exact sameKeys_processJob settings services jobId tables

theorem createDocument (h : Stored tables) {orgId : OrgId} {collectionId : Nat}
    (hcollection : (tables.getCollection collectionId orgId).isSome = true) (title : String)
    (sourceType : SourceType) (contentHash : String) :
    Stored (tables.createDocument orgId collectionId title sourceType contentHash).2 := by
  obtain ⟨collection,hfound⟩ := Option.isSome_iff_exists.mp hcollection
  refine ⟨h.keyed,fun d hd => ?_,h.collectionIds,fun c hc => (h.collections c hc).trans (Nat.lt_succ_self _)⟩
  rcases List.mem_append.mp hd with hd | hd
  · exact h.housed d hd
  · have hkey := List.find?_some hfound
    simp only [Bool.and_eq_true,decide_eq_true_eq] at hkey
    rw [List.mem_singleton.mp hd]
    exact ⟨collection,List.mem_of_find?_eq_some hfound,hkey⟩

theorem createVersion (h : Stored tables) (orgId : OrgId) (documentId versionNumber : Nat) (contentHash filename : String) :
    Stored (tables.createVersion documentId versionNumber contentHash
      s!"{orgId}/{documentId}/v{versionNumber}/{filename}" filename).2 := by
  unfold Tables.createVersion
  split
  · exact h
  · refine ⟨fun v hv => ?_,h.housed,h.collectionIds,fun c hc => (h.collections c hc).trans (Nat.lt_succ_self _)⟩
    rcases List.mem_append.mp hv with hv | hv
    · exact h.keyed v hv
    · rw [List.mem_singleton.mp hv]
      exact ⟨orgId,versionNumber,filename,rfl⟩

theorem acceptUpload (h : Stored tables) {services : Services} {upload : UploadServices} {request : Upload}
    {created : Document × IngestJob}
    (hrequest : VoxForge.Knowledge.acceptUpload services upload request tables = (.ok created,after)) : Stored after := by
  unfold VoxForge.Knowledge.acceptUpload at hrequest
  split at hrequest
  · cases hrequest
  · next collection hcollection =>
    split at hrequest
    · cases hrequest
    · next filename sourceType parsed hparsed =>
      dsimp only at hrequest
      split at hrequest
      · cases hrequest
      · cases hrequest
        have hdocument := createDocument h (Option.isSome_of_eq_some hcollection)
          (if request.title.getD "" = "" then parsed.title else request.title.getD "") sourceType
          (services.sha256 (upload.normalizeText parsed.text))
        have hversion := createVersion hdocument request.orgId tables.nextId
        exact (sameKeys_enqueue _ _ _ _ _).stored (hversion _ _ _)

theorem commitOnReturn {α : Type} (h : Stored tables) {outcome : Except String α × Tables}
    (hok : ∀ a, outcome.1 = .ok a → Stored outcome.2) : Stored (VoxForge.Knowledge.commitOnReturn tables outcome) := by
  obtain ⟨_ | a,after⟩ := outcome
  · exact h
  · exact hok a rfl

/-- Uploads, reindex requests and the worker keep what is stored under its keys. -/
theorem stored_step {settings : Settings} {event : Event} (h : Stored tables)
    (hstep : step settings tables event = some after) : Stored after := by
  cases event with
  | createCollection orgId chunkingConfig =>
    cases hstep
    refine ⟨h.keyed,fun d hd => ?_,?_,fun c hc => ?_⟩
    · obtain ⟨c,hc,hkey⟩ := h.housed d hd
      exact ⟨c,List.mem_append_left _ hc,hkey⟩
    · unfold Tables.createCollection
      rw [List.map_append,List.nodup_append]
      refine ⟨h.collectionIds,List.nodup_singleton _,?_⟩
      intro a ha b hb heq
      obtain ⟨c,hc,rfl⟩ := List.mem_map.mp ha
      have hnew : b = tables.nextId := List.mem_singleton.mp hb
      exact absurd (heq.trans hnew) (Nat.ne_of_lt (h.collections c hc))
    · rcases List.mem_append.mp hc with hc | hc
      · exact (h.collections c hc).trans (Nat.lt_succ_self _)
      · rw [List.mem_singleton.mp hc]
        exact Nat.lt_succ_self _
  | upload upload services request =>
    cases hstep
    apply commitOnReturn h
    intro a ha
    unfold uploadDocument at ha ⊢
    cases hrequest : VoxForge.Knowledge.acceptUpload services upload request tables with
    | mk result accepted =>
      cases result with
      | error e =>
        rw [hrequest] at ha
        cases ha
      | ok created => exact (sameKeys_inline settings services created.2.id accepted).stored (acceptUpload h hrequest)
  | reindex services orgId documentId =>
    cases hstep
    apply commitOnReturn h
    intro a ha
    unfold reindexDocument at ha ⊢
    cases hrequest : acceptReindex orgId documentId tables with
    | mk result accepted =>
      cases result with
      | error e =>
        rw [hrequest] at ha
        cases ha
      | ok job =>
        obtain ⟨document,version,-,-,heq⟩ := acceptReindex_ok hrequest
        have haccepted : Stored accepted := by
          rw [(Prod.mk.inj heq).2]
          exact (sameKeys_enqueue tables orgId documentId .reindex (some version.id)).stored h
        exact (sameKeys_inline settings services job.id accepted).stored haccepted
  | work services =>
    cases hstep
    unfold work
    cases hclaim : tables.claimNext with
    | none => exact h
    | some claimed =>
      have hclaimed := (sameKeys_processing (claimNext_processing hclaim)).stored h
      exact (sameKeys_processJob settings services claimed.1.id claimed.2).stored hclaimed

theorem deleteDocuments (h : Stored tables) (gone : Document → Bool) : Stored (tables.deleteDocuments gone) :=
  ⟨fun v hv => h.keyed v (List.mem_of_mem_filter hv),fun d hd => h.housed d (List.mem_of_mem_filter hd),
    h.collectionIds,h.collections⟩

/-- Deletions do, too. -/
theorem deleted (h : Stored tables) (request : DeletionRequest) : Stored (request.deleted tables) := by
  cases request with
  | document documentId => exact deleteDocuments h _
  | collection collectionId =>
    have hrows := deleteDocuments h (·.collectionId = collectionId)
    refine ⟨hrows.keyed,fun d hd => ?_,?_,fun c hc => hrows.collections c (List.mem_of_mem_filter hc)⟩
    · obtain ⟨c,hc,hid,horg⟩ := hrows.housed d hd
      have hkept := List.of_mem_filter hd
      refine ⟨c,List.mem_filter.mpr ⟨hc,?_⟩,hid,horg⟩
      simpa [hid] using hkept
    · exact hrows.collectionIds.sublist ((List.filter_sublist).map _)

end Stored

/-! When rows and blobs stay consistent -/

/-- Committed versions keep their blobs. After a success no blob of a deleted document is
left but where its own deletion raised an `OSError`, and the documents are counted. -/
structure Consistent (tables : Tables) (blobs : List String)
    (outcome : Except DeletionError DeletionResponse × Numbered DeletionOp Stores DeletionError) : Prop where
  kept : ∀ v ∈ outcome.2.state.committed.versions, v.blobPath ∈ blobs → v.blobPath ∈ outcome.2.state.blobs
  cleared : ∀ response, outcome.1 = .ok response →
    ∀ d ∈ tables.documents, d ∉ outcome.2.state.committed.documents → ∀ v ∈ tables.versions, v.documentId = d.id →
      v.blobPath ∈ outcome.2.state.blobs → (.deleteBlob v.blobPath,.osError) ∈ outcome.2.raised
  counted : ∀ collectionId documentsRemoved, outcome.1 = .ok (.collection collectionId documentsRemoved) →
    documentsRemoved = (tables.documents.filter (· ∉ outcome.2.state.committed.documents)).length

section consistency
variable {orders : RowOrders} {tables : Tables} {orgId : OrgId} {blobs : List String} {request : DeletionRequest}
  {faults : Nat → Option DeletionError} {e : DeletionError} {number : Nat} {raised : List (DeletionOp × DeletionError)}

/-- A request that failed is consistent if it left the blobs of the versions. -/
theorem consistent_failed {left : List String} {session : Tables} :
    Consistent tables blobs (.error e,⟨{ committed := tables, session, blobs := left },number,raised⟩) ↔
      ∀ v ∈ tables.versions, v.blobPath ∈ blobs → v.blobPath ∈ left :=
  ⟨fun h => h.kept,fun h => ⟨h,nofun,nofun⟩⟩

theorem mem_deleteDocuments {gone : Document → Bool} {d : Document} :
    d ∈ (tables.deleteDocuments gone).documents ↔ d ∈ tables.documents ∧ gone d = false := by
  simp [Tables.deleteDocuments]

def DeletionRequest.Deletes (request : DeletionRequest) (d : Document) : Prop :=
  match request with
  | .collection collectionId => d.collectionId = collectionId
  | .document documentId => d.id = documentId

instance (request : DeletionRequest) (d : Document) : Decidable (request.Deletes d) := by
  unfold DeletionRequest.Deletes
  cases request <;> infer_instance

theorem mem_deleted_documents {d : Document} :
    d ∈ (request.deleted tables).documents ↔ d ∈ tables.documents ∧ ¬ request.Deletes d := by
  cases request <;> simp [DeletionRequest.deleted,Tables.deleteDocument,Tables.deleteCollection,mem_deleteDocuments,
    DeletionRequest.Deletes]

theorem mem_deleted_versions {v : DocumentVersion} :
    v ∈ (request.deleted tables).versions ↔
      v ∈ tables.versions ∧ ¬ ∃ d ∈ tables.documents, request.Deletes d ∧ d.id = v.documentId := by
  cases request <;> simp [DeletionRequest.deleted,Tables.deleteDocument,Tables.deleteCollection,Tables.deleteDocuments,
    DeletionRequest.Deletes]

theorem of_mem_listed {d : Document} (hd : d ∈ request.listed orders tables orgId) :
    d ∈ tables.documents ∧ request.Deletes d := by
  cases request with
  | document documentId =>
    have hfound : tables.getDocument documentId orgId = some d := by simpa [DeletionRequest.listed] using hd
    have hkey := List.find?_some hfound
    simp only [Bool.and_eq_true,decide_eq_true_eq] at hkey
    exact ⟨List.mem_of_find?_eq_some hfound,hkey.1⟩
  | collection collectionId =>
    have hmem := (orders.documents.perm _).mem_iff.mp (List.mem_of_mem_take hd)
    simpa [DeletionRequest.Deletes,and_assoc] using And.imp_right And.right (by simpa using hmem)

/-- A blob that is asked for is that of a version of a deleted document. -/
theorem of_mem_blobPaths {path : String} (hpath : path ∈ request.blobPaths orders tables orgId) :
    ∃ d ∈ tables.documents, request.Deletes d ∧ ∃ v ∈ tables.versions, v.documentId = d.id ∧ v.blobPath = path := by
  obtain ⟨d,hd,hpath⟩ := List.mem_flatMap.mp hpath
  obtain ⟨hmem,hdeletes⟩ := of_mem_listed hd
  obtain ⟨v,hv,rfl⟩ := List.mem_map.mp (List.mem_of_mem_filter hpath)
  have hversion := (orders.versions.perm _).mem_iff.mp hv
  rw [List.mem_filter,decide_eq_true_eq] at hversion
  exact ⟨d,hmem,hdeletes,v,hversion.1,hversion.2,rfl⟩

/-- All documents of a collection are of its organisation. -/
theorem filter_collection (h : Stored tables) {collectionId : Nat}
    (hfound : (tables.getCollection collectionId orgId).isSome = true) :
    (tables.documents.filter fun d => d.orgId = orgId && (some collectionId).all (d.collectionId = ·)) =
      tables.documents.filter (·.collectionId = collectionId) := by
  obtain ⟨collection,hcollection⟩ := Option.isSome_iff_exists.mp hfound
  have hkey := List.find?_some hcollection
  simp only [Bool.and_eq_true,decide_eq_true_eq] at hkey
  apply List.filter_congr
  intro d hd
  obtain ⟨c,hc,hid,horg⟩ := h.housed d hd
  by_cases hin : d.collectionId = collectionId
  · have hsame : c = collection := List.inj_on_of_nodup_map h.collectionIds hc
      (List.mem_of_find?_eq_some hcollection) (by rw [hid,hin,hkey.1])
    have hown : d.orgId = orgId := by rw [← horg,hsame,hkey.2]
    simp [hin,hown]
  · simp [hin]

theorem mem_listed (h : Stored tables) (hfound : request.found tables orgId = true) (hfits : request.Fits tables)
    {d : Document} (hd : d ∈ tables.documents) (hdeletes : request.Deletes d) :
    ∃ d' ∈ request.listed orders tables orgId, d'.id = d.id := by
  cases request with
  | document documentId =>
    obtain ⟨document,hdocument⟩ := Option.isSome_iff_exists.mp hfound
    have hkey := List.find?_some hdocument
    simp only [Bool.and_eq_true,decide_eq_true_eq] at hkey
    exact ⟨document,by simp [DeletionRequest.listed,hdocument],hkey.1.trans hdeletes.symm⟩
  | collection collectionId =>
    refine ⟨d,?_,rfl⟩
    unfold DeletionRequest.listed Tables.listDocuments
    dsimp only
    rw [filter_collection h hfound,List.take_of_length_le]
    · exact (orders.documents.perm _).mem_iff.mpr (List.mem_filter.mpr ⟨hd,decide_eq_true hdeletes⟩)
    · rw [(orders.documents.perm _).length_eq]
      exact hfits

/-- A listing that is long enough asks for every blob of the deleted documents. -/
theorem mem_blobPaths (h : Stored tables) (hfound : request.found tables orgId = true) (hfits : request.Fits tables)
    {d : Document} (hd : d ∈ tables.documents) (hdeletes : request.Deletes d) {v : DocumentVersion}
    (hv : v ∈ tables.versions) (hversion : v.documentId = d.id) : v.blobPath ∈ request.blobPaths orders tables orgId := by
  have hlisted : ∃ d' ∈ request.listed orders tables orgId, d'.id = d.id := mem_listed h hfound hfits hd hdeletes
  obtain ⟨d',hd',hid⟩ := hlisted
  refine List.mem_flatMap.mpr ⟨d',hd',List.mem_filter.mpr ⟨List.mem_map.mpr ⟨v,?_,rfl⟩,?_⟩⟩
  · refine (orders.versions.perm _).mem_iff.mpr (List.mem_filter.mpr ⟨hv,?_⟩)
    exact decide_eq_true (hversion.trans hid.symm)
  · exact decide_eq_true (h.path_ne_empty hv)

theorem filter_deleted {collectionId : Nat} :
    (tables.documents.filter fun d =>
        d ∉ (DeletionRequest.deleted tables (.collection collectionId)).documents) =
      tables.documents.filter (·.collectionId = collectionId) := by
  apply List.filter_congr
  intro d hd
  simp [mem_deleted_documents,hd,DeletionRequest.Deletes]

theorem length_listed (h : Stored tables) {collectionId : Nat}
    (hfound : (tables.getCollection collectionId orgId).isSome = true) :
    (DeletionRequest.listed orders tables orgId (.collection collectionId)).length =
      min KnowledgeRepository.listingLimit (tables.documents.filter (·.collectionId = collectionId)).length := by
  unfold DeletionRequest.listed Tables.listDocuments
  rw [List.length_take,(orders.documents.perm _).length_eq,filter_collection h hfound]

/-- The first deletions delete nothing: each finds no blob, or raises. -/
def Spares (faults : Nat → Option DeletionError) (first : Nat) (paths blobs : List String) (k : Nat) : Prop :=
  ∀ j < k, ∀ path, paths[j]? = some path → path ∈ blobs → faults (first + j) ≠ none

theorem mem_swept_iff_spares {first k : Nat} {paths : List String} {left : List String}
    (hleft : left = swept faults first (paths.take k) blobs)
    (hpaths : ∀ path ∈ paths, ∃ v ∈ tables.versions, v.blobPath = path) :
    (∀ v ∈ tables.versions, v.blobPath ∈ blobs → v.blobPath ∈ left) ↔ Spares faults first paths blobs k := by
  subst hleft
  constructor
  · intro h j hj path hpath hblob
    obtain ⟨v,hv,rfl⟩ := hpaths path (List.mem_of_getElem? hpath)
    refine (mem_swept.mp (h v hv hblob)).2 j ?_
    rw [List.getElem?_take_of_lt hj,hpath]
  · intro h v hv hblob
    refine mem_swept.mpr ⟨hblob,fun j hj => ?_⟩
    rw [List.getElem?_take] at hj
    split at hj
    · next hlt => exact h j hlt _ hj hblob
    · cases hj

/-- A request that deletes the rows, sweeps the blobs and commits is consistent if the
listing was long enough. -/
theorem consistent_swept (h : Stored tables) (hfound : request.found tables orgId = true) {first : Nat} {session : Tables}
    (hsession : session = request.deleted tables)
    (hfaults : ∀ k ≤ (request.blobPaths orders tables orgId).length,
      ¬ Fatal faults first (request.blobPaths orders tables orgId) k) :
    Consistent tables blobs (.ok (request.response orders tables orgId),
      ⟨{ committed := session, session, blobs := swept faults first (request.blobPaths orders tables orgId) blobs },
        number,[] ++ refused faults first (request.blobPaths orders tables orgId)⟩) ↔ request.Fits tables := by
  subst hsession
  constructor
  · intro hconsistent
    cases request with
    | document documentId => trivial
    | collection collectionId =>
      have hcount := hconsistent.counted collectionId _ rfl
      dsimp only at hcount
      rw [filter_deleted,length_listed h hfound] at hcount
      exact min_eq_right_iff.mp hcount
  · intro hfits
    refine ⟨fun v hv hblob => ?_,fun _ _ d hd hgone v hv hversion hleft => ?_,fun collectionId n heq => ?_⟩
    · obtain ⟨hv,hkept⟩ := mem_deleted_versions.mp hv
      refine mem_swept.mpr ⟨hblob,fun j hj => ?_⟩
      obtain ⟨d,hd,hdeletes,w,hw,hwd,hpath⟩ := of_mem_blobPaths (List.mem_of_getElem? hj)
      exact absurd ⟨d,hd,hdeletes,hwd.symm.trans (h.distinct hw hv hpath)⟩ hkept
    · have hdeletes : request.Deletes d := by
        by_contra hnot
        exact hgone (mem_deleted_documents.mpr ⟨hd,hnot⟩)
      have hpath : v.blobPath ∈ request.blobPaths orders tables orgId :=
        mem_blobPaths h hfound hfits hd hdeletes hv hversion
      obtain ⟨j,hj⟩ := List.mem_iff_getElem?.mp hpath
      have hfault := (mem_swept.mp hleft).2 j hj
      cases he : faults (first + j) with
      | none => exact absurd he hfault
      | some e =>
        have hlt : j < (request.blobPaths orders tables orgId).length := (List.getElem?_eq_some_iff.mp hj).1
        have hos : e = .osError := by
          by_contra hne
          exact hfaults j (Nat.le_of_lt hlt) ⟨e,he,fun _ => hne⟩
        rw [List.nil_append,← hos]
        exact mem_refused hj he
    · cases request with
      | document documentId => cases heq
      | collection collectionId' =>
        cases heq
        dsimp only
        rw [filter_deleted,length_listed h hfound]
        exact min_eq_right hfits

/-- A request for what is not there changes nothing. -/
theorem run_not_found (hfound : request.found tables orgId = false) :
    ∃ e number' raised', request.run orders tables orgId faults blobs =
      (.error e,⟨{ committed := tables, session := tables, blobs },number',raised'⟩) := by
  unfold DeletionRequest.run
  cases hfault : faults 0 with
  | some e =>
    cases request with
    | collection collectionId =>
      refine ⟨e,1,[] ++ [(.getCollection collectionId orgId,e)],exec_bind_error _ _ ?_ _⟩
      rw [VoxForge.Knowledge.request,exec_perform,faulty_fault hfault]
    | document documentId =>
      refine ⟨e,1,[] ++ [(.getDocument documentId orgId,e)],exec_bind_error _ _ ?_ _⟩
      rw [VoxForge.Knowledge.request,exec_perform,faulty_fault hfault]
  | none =>
    cases request with
    | collection collectionId =>
      have hnone : tables.getCollection collectionId orgId = none := by simpa [DeletionRequest.found] using hfound
      refine ⟨.httpException 404 "Collection not found",1,[],?_⟩
      refine (exec_bind_ok _ _ (a := none) (t := ⟨{ committed := tables, session := tables, blobs },1,[]⟩) ?_ _).trans rfl
      rw [VoxForge.Knowledge.request,exec_perform,faulty_clear hfault]
      exact Prod.ext (congrArg Except.ok hnone) rfl
    | document documentId =>
      have hnone : tables.getDocument documentId orgId = none := by simpa [DeletionRequest.found] using hfound
      refine ⟨.httpException 404 "Document not found",1,[],?_⟩
      refine (exec_bind_ok _ _ (a := none) (t := ⟨{ committed := tables, session := tables, blobs },1,[]⟩) ?_ _).trans rfl
      rw [VoxForge.Knowledge.request,exec_perform,faulty_clear hfault]
      exact Prod.ext (congrArg Except.ok hnone) rfl

/-- Where the rows are deleted, what ends the request comes before a blob is gone, and a
request that nothing ends has listed all documents. -/
def DeletionRequest.Safe (orders : RowOrders) (tables : Tables) (orgId : OrgId) (request : DeletionRequest)
    (faults : Nat → Option DeletionError) (blobs : List String) : Prop :=
  let first := request.firstDeletion orders tables orgId
  let paths := request.blobPaths orders tables orgId
  request.found tables orgId = true → (∀ i < first, faults i = none) →
    (∀ k ≤ paths.length, (∀ i < k, ¬ Fatal faults first paths i) → Fatal faults first paths k →
      Spares faults first paths blobs k) ∧
    ((∀ k ≤ paths.length, ¬ Fatal faults first paths k) → request.Fits tables)

/-- For all rows that uploads store, whatever operations of the request raise: rows and blobs
are consistent after it exactly if the request was safe. -/
theorem deletion_consistent_iff (orders : RowOrders) {tables : Tables} (h : Stored tables) (orgId : OrgId)
    (request : DeletionRequest) (faults : Nat → Option DeletionError) (blobs : List String) :
    Consistent tables blobs (request.run orders tables orgId faults blobs) ↔
      request.Safe orders tables orgId faults blobs := by
  cases hfound : request.found tables orgId with
  | false =>
    have hfails : ∃ e number' raised', request.run orders tables orgId faults blobs =
        (.error e,⟨{ committed := tables, session := tables, blobs },number',raised'⟩) := run_not_found hfound
    obtain ⟨e,number',raised',hrun⟩ := hfails
    rw [hrun,consistent_failed]
    refine iff_of_true (fun _ _ hblob => hblob) fun hthere => ?_
    rw [hfound] at hthere
    cases hthere
  | true =>
    have hdocuments : ∀ d ∈ tables.documents, d.orgId = orgId → (tables.getDocument d.id orgId).isSome = true := by
      intro d hd horg
      rw [Tables.getDocument,List.find?_isSome]
      exact ⟨d,hd,by simp [horg]⟩
    obtain ⟨p,t,hreaches,rfl,rfl⟩ :
        Comes (handle orders) (fun s => s.committed = tables ∧ s.blobs = blobs)
          (request.firstDeletion orders tables orgId) ⟨tables,tables,blobs⟩ (request.program orgId) fun p t =>
          p = sweep (request.blobPaths orders tables orgId) (request.response orders tables orgId) ∧
            t = ⟨tables,request.deleted tables,blobs⟩ :=
      comes_sweep request ⟨rfl,rfl⟩ hfound ⟨rfl,rfl⟩ hdocuments
    unfold DeletionRequest.Safe
    dsimp only at hreaches ⊢
    by_cases hclear : ∀ i < request.firstDeletion orders tables orgId, faults i = none
    · unfold DeletionRequest.run
      rw [exec_faulty_past hreaches (by simpa using hclear),Nat.zero_add]
      by_cases hends : ∃ k, k ≤ (request.blobPaths orders tables orgId).length ∧
          Fatal faults (request.firstDeletion orders tables orgId) (request.blobPaths orders tables orgId) k
      · classical
        obtain ⟨hk,hfatal⟩ := Nat.find_spec hends
        have hbefore (i : Nat) (hi : i < Nat.find hends) :
            ¬ Fatal faults (request.firstDeletion orders tables orgId) (request.blobPaths orders tables orgId) i :=
          fun hfatal' => Nat.find_min hends hi ⟨(Nat.le_of_lt hi).trans hk,hfatal'⟩
        let deleted : Stores := ⟨tables,request.deleted tables,blobs⟩
        obtain ⟨e,number',raised',hexec⟩ := @exec_sweep_fatal orders _ deleted _ [] _
          (request.response orders tables orgId) _ hk hbefore hfatal
        have hpaths : ∀ path ∈ request.blobPaths orders tables orgId, ∃ v ∈ tables.versions, v.blobPath = path := by
          intro path hpath
          obtain ⟨-,-,-,v,hv,-,heq⟩ := of_mem_blobPaths hpath
          exact ⟨v,hv,heq⟩
        rw [hexec,consistent_failed,mem_swept_iff_spares rfl hpaths]
        constructor
        · intro hspares _ _
          refine ⟨fun k hk' hbefore' hfatal' => ?_,fun hnone => absurd hfatal (hnone _ hk)⟩
          have hsame : k = Nat.find hends := by
            rcases Nat.lt_trichotomy k (Nat.find hends) with hlt | heq | hgt
            · exact absurd hfatal' (hbefore k hlt)
            · exact heq
            · exact absurd hfatal (hbefore' _ hgt)
          exact hsame ▸ hspares
        · intro hsafe
          exact (hsafe hfound hclear).1 _ hk hbefore hfatal
      · have hnone : ∀ k ≤ (request.blobPaths orders tables orgId).length,
            ¬ Fatal faults (request.firstDeletion orders tables orgId) (request.blobPaths orders tables orgId) k :=
          fun k hk hfatal => hends ⟨k,hk,hfatal⟩
        rw [exec_sweep_clear _ hnone,consistent_swept h hfound rfl hnone]
        constructor
        · intro hfits _ _
          exact ⟨fun k hk _ hfatal => absurd hfatal (hnone k hk),fun _ => hfits⟩
        · intro hsafe
          exact (hsafe hfound hclear).2 hnone
    · have hfault : ∃ i < request.firstDeletion orders tables orgId, faults (0 + i) ≠ none := by
        simpa using hclear
      obtain ⟨e,⟨committed,session,left⟩,number',raised',⟨rfl,rfl⟩,hexec⟩ :=
        exec_faulty_within hreaches hfault
      unfold DeletionRequest.run
      rw [hexec,consistent_failed]
      exact iff_of_true (fun _ _ hblob => hblob) fun _ h => absurd h hclear

end consistency

/-! A document with one version -/

def inOrder : RowOrders := ⟨⟨id,fun _ => .refl _⟩,⟨id,fun _ => .refl _⟩⟩

def oneDocument : Tables := {
  collections := [{ id := 1, orgId := 1 }]
  documents := [{ id := 2, orgId := 1, collectionId := 1, title := "a", sourceType := .txt, contentHash := "h" }]
  versions := [{ id := 3, documentId := 2, versionNumber := 1, contentHash := "h", blobPath := "1/2/v1/a.txt" }]
  nextId := 4 }

theorem stored_oneDocument : Stored oneDocument := by
  refine ⟨fun v hv => ?_,?_,by decide,by decide⟩
  · obtain rfl := List.mem_singleton.mp hv
    exact ⟨1,1,"a.txt",by decide⟩
  · intro d hd
    obtain rfl := List.mem_singleton.mp hd
    exact ⟨_,List.mem_singleton.mpr rfl,rfl,rfl⟩

/-- The commit fails after the blob is gone: the version's row stays without it. -/
theorem failed_commit_loses_blob : Stored oneDocument ∧
    ¬ Consistent oneDocument ["1/2/v1/a.txt"] (DeletionRequest.run inOrder oneDocument 1 (.document 2)
      (fun i => if i = 7 then some (.other "commit failed") else none) ["1/2/v1/a.txt"]) := by
  refine ⟨stored_oneDocument,fun h => ?_⟩
  have hrow := h.kept _ (List.mem_singleton.mpr rfl) (by decide)
  revert hrow
  decide

/-- The document after a second upload. -/
def twoVersions : Tables := { oneDocument with
  versions := oneDocument.versions ++
    [{ id := 4, documentId := 2, versionNumber := 2, contentHash := "g", blobPath := "1/2/v2/a.txt" }]
  nextId := 5 }

theorem stored_twoVersions : Stored twoVersions := by
  refine ⟨fun v hv => ?_,?_,by decide,by decide⟩
  · rcases List.mem_append.mp hv with hv | hv
    · exact stored_oneDocument.keyed v hv
    · obtain rfl := List.mem_singleton.mp hv
      exact ⟨1,2,"a.txt",by decide⟩
  · exact stored_oneDocument.housed

/-- The first blob cannot be deleted, which is passed over, and the second one is. -/
theorem deleted_document_consistent :
    let faults : Nat → Option DeletionError := fun i => if i = 6 then some .osError else none
    let blobs := ["1/2/v1/a.txt","1/2/v2/a.txt"]
    let outcome := DeletionRequest.run inOrder twoVersions 1 (.document 2) faults blobs
    Consistent twoVersions blobs outcome ∧ outcome.1.isOk = true ∧ outcome.2.state.blobs = ["1/2/v1/a.txt"] := by
  intro faults blobs outcome
  refine ⟨?_,by decide,by decide⟩
  refine (deletion_consistent_iff inOrder stored_twoVersions 1 (.document 2) faults blobs).mpr ?_
  intro _ _
  have hfirst : DeletionRequest.firstDeletion inOrder twoVersions 1 (.document 2) = 6 := by decide
  have hpaths : (DeletionRequest.blobPaths inOrder twoVersions 1 (.document 2)).length = 2 := by decide
  have hclear (k : Nat) : ¬Fatal faults (DeletionRequest.firstDeletion inOrder twoVersions 1 (.document 2))
      (DeletionRequest.blobPaths inOrder twoVersions 1 (.document 2)) k := by
    rintro ⟨e,he,hother⟩
    rw [hfirst] at he
    rcases Nat.eq_zero_or_pos k with rfl | hpos
    · obtain rfl : DeletionError.osError = e := Option.some.inj he
      exact hother (by rw [hpaths]; decide) rfl
    · rw [show faults (6 + k) = none from if_neg (by omega)] at he
      cases he
  exact ⟨fun k _ _ hfatal => absurd hfatal (hclear k),fun _ => trivial⟩

end VoxForge.Knowledge
