import VoxForge.Knowledge.Tables
import VoxForge.Persistence.Similarity

/-! The vector search of the knowledge repository, with and without pgvector: both return
the best chunks of the active versions. -/
namespace VoxForge.Knowledge
open Core Foundation Persistence

/-- A result of the search, with a similarity that is a float or a number of the database. -/
structure Scored (S : Type) where
  chunk : Chunk
  similarity : S
  document : Document
  version : DocumentVersion

def Scored.map {S T : Type} (f : S → T) (row : Scored S) : Scored T :=
  { row with similarity := f row.similarity }

namespace Tables

def activeVersionIds (tables : Tables) (orgId : OrgId) (collectionId : Option Nat) : List Nat :=
  let documents := tables.documents.filter fun d =>
    d.orgId = orgId && d.status = .ready && collectionId.all (d.collectionId = ·)
  documents.filterMap (·.activeVersionId)

/-- The chunk's row with those of its version and its document. -/
def scored {S : Type} (tables : Tables) (chunk : Chunk) (similarity : S) : Option (Scored S) :=
  (tables.getVersion chunk.documentVersionId).bind fun version =>
    (tables.documents.find? (·.id = version.documentId)).map fun document =>
      { chunk, similarity, document, version }

end Tables

section search
variable {R : Type} [Field R] [LinearOrder R] (sqrt : R → R) (db : Pgvector R) (tables : Tables) (orgId : OrgId)

/-- The rows of the `SELECT` before `ORDER BY`. -/
def joinedRows (queryEmbedding : Embedding) (versionIds : List Nat) : List (Scored R) :=
  let chunks := tables.chunks.filter fun c => c.orgId = orgId && c.documentVersionId ∈ versionIds
  chunks.filterMap fun c => (embeddingVec c.embedding).bind fun embedding =>
    tables.scored c (1 - db.distance embedding queryEmbedding)

/-- The key of `ORDER BY`. -/
def rowDistance (queryEmbedding : Embedding) (row : Scored R) : R :=
  db.distance ((embeddingVec row.chunk.embedding).getD []) queryEmbedding

def rowsToScored (rows : List (Scored R)) (minSimilarity : Float) (limit : Nat) : List (Scored R) :=
  (rows.filter fun row => !decide (row.similarity < (exactValue minSimilarity : R))).take limit

def searchPostgres (queryEmbedding : Embedding) (versionIds : List Nat) (limit : Nat) (minSimilarity : Float) :
    List (Scored R) :=
  let rows := db.orderBy (rowDistance db queryEmbedding) (joinedRows db tables orgId queryEmbedding versionIds)
  rowsToScored (rows.take (limit * 3)) minSimilarity limit

/-- `_search_sqlite`. Scores that are numbers are sorted in their order; how a sort treats others
is left open. -/
def searchSqlite (queryEmbedding : Embedding) (versionIds : List Nat) (limit : Nat) (minSimilarity : Float) :
    List (Scored Float) :=
  let chunks := tables.chunks.filter fun c => c.orgId = orgId && c.documentVersionId ∈ versionIds
  let scored := chunks.filterMap fun c => (c.embedding.filter (· ≠ [])).bind fun embedding =>
    let similarity := cosineSimilarity queryEmbedding embedding
    if similarity < minSimilarity then none else tables.scored c similarity
  (scored.mergeSort fun a b => !decide (a.similarity < b.similarity)).take limit

/-- `search_chunks`, with the path that the database's dialect asks for. -/
def searchChunks (postgresql : Bool) (queryEmbedding : Embedding) (collectionId : Option Nat) (limit : Nat)
    (minSimilarity : Float) : List (Scored (Float ⊕ R)) :=
  let versionIds := tables.activeVersionIds orgId collectionId
  if versionIds = [] then []
  else if postgresql then
    (searchPostgres db tables orgId queryEmbedding versionIds limit minSimilarity).map (·.map .inr)
  else (searchSqlite tables orgId queryEmbedding versionIds limit minSimilarity).map (·.map .inl)

/-- A chunk of the organisation and of the active version of a ready document, of the
collection if one is given. -/
def Searchable (tables : Tables) (orgId : OrgId) (collectionId : Option Nat) (chunk : Chunk) : Prop :=
  chunk.orgId = orgId ∧ ∃ document ∈ tables.documents, document.orgId = orgId ∧ document.status = .ready ∧
    document.activeVersionId = some chunk.documentVersionId ∧ ∀ c ∈ collectionId, document.collectionId = c

variable {tables orgId}

theorem mem_activeVersionIds {collectionId : Option Nat} {chunk : Chunk} :
    (chunk.orgId = orgId ∧ chunk.documentVersionId ∈ tables.activeVersionIds orgId collectionId) ↔
      Searchable tables orgId collectionId chunk := by
  simp only [Tables.activeVersionIds,Searchable,List.mem_filterMap,List.mem_filter]
  apply and_congr_right
  intro _
  apply exists_congr
  intro document
  cases collectionId <;> simp [and_assoc]
  tauto

instance (collectionId : Option Nat) (chunk : Chunk) : Decidable (Searchable tables orgId collectionId chunk) :=
  decidable_of_iff _ mem_activeVersionIds

variable (tables orgId)

/-- The searchable chunks with an embedding, a version and a document. -/
def candidates (collectionId : Option Nat) : List Chunk :=
  tables.chunks.filter fun c =>
    decide (Searchable tables orgId collectionId c) && c.embedding.isSome && (tables.scored c ()).isSome

/-- The similarities of a chunk as the two dialects compute them. -/
def chunkExact (queryEmbedding : Embedding) (chunk : Chunk) : R :=
  exactSimilarity sqrt queryEmbedding (chunk.embedding.getD [])

def chunkScore (queryEmbedding : Embedding) (chunk : Chunk) : Float :=
  cosineSimilarity queryEmbedding (chunk.embedding.getD [])

variable {sqrt db tables orgId}

theorem of_scored {S : Type} {chunk : Chunk} {similarity : S} {row : Scored S}
    (h : tables.scored chunk similarity = some row) : row.chunk = chunk ∧ row.similarity = similarity := by
  obtain ⟨version,-,hrow⟩ := Option.bind_eq_some_iff.mp h
  obtain ⟨document,-,rfl⟩ := Option.map_eq_some_iff.mp hrow
  exact ⟨rfl,rfl⟩

theorem scored_map {S T : Type} {chunk : Chunk} {similarity : S} {row : Scored S} (f : S → T)
    (h : tables.scored chunk similarity = some row) : tables.scored chunk (f similarity) = some (row.map f) := by
  obtain ⟨version,hversion,hrow⟩ := Option.bind_eq_some_iff.mp h
  obtain ⟨document,hdocument,rfl⟩ := Option.map_eq_some_iff.mp hrow
  rw [Tables.scored,hversion,Option.bind_some,hdocument]
  rfl

theorem isSome_scored {S : Type} (chunk : Chunk) (similarity : S) :
    (tables.scored chunk similarity).isSome = (tables.scored chunk ()).isSome := by
  unfold Tables.scored
  cases tables.getVersion chunk.documentVersionId <;> simp

theorem filter_active (collectionId : Option Nat) :
    (tables.chunks.filter fun c => c.orgId = orgId && c.documentVersionId ∈ tables.activeVersionIds orgId collectionId) =
      tables.chunks.filter (Searchable tables orgId collectionId) := by
  apply List.filter_congr
  intro c _
  simp only [← mem_activeVersionIds,Bool.decide_and]

/-- A row that a search returns is the join of a searchable chunk. -/
def Joined {S : Type} (tables : Tables) (orgId : OrgId) (collectionId : Option Nat) (row : Scored S) : Prop :=
  Searchable tables orgId collectionId row.chunk ∧ tables.scored row.chunk row.similarity = some row

theorem joined_of_scored {S : Type} {collectionId : Option Nat} {chunk : Chunk} {similarity : S} {row : Scored S}
    (hchunk : chunk ∈ tables.chunks.filter fun c =>
      c.orgId = orgId && c.documentVersionId ∈ tables.activeVersionIds orgId collectionId)
    (h : tables.scored chunk similarity = some row) : Joined tables orgId collectionId row := by
  obtain ⟨rfl,rfl⟩ := of_scored h
  have hwhere := (List.mem_filter.mp hchunk).2
  simp only [Bool.and_eq_true,decide_eq_true_eq] at hwhere
  exact ⟨mem_activeVersionIds.mp hwhere,h⟩

theorem Joined.map {S T : Type} {collectionId : Option Nat} {row : Scored S} (f : S → T)
    (h : Joined tables orgId collectionId row) : Joined tables orgId collectionId (row.map f) :=
  ⟨h.1,scored_map f h.2⟩

theorem joined_of_mem_searchChunks (hperm : ∀ (key : Scored R → R) rows, (db.orderBy key rows).Perm rows)
    {postgresql : Bool} {queryEmbedding : Embedding} {collectionId : Option Nat} {limit : Nat} {minSimilarity : Float}
    {row : Scored (Float ⊕ R)} (h : row ∈ searchChunks db tables orgId postgresql queryEmbedding collectionId limit
      minSimilarity) : Joined tables orgId collectionId row := by
  unfold searchChunks at h
  dsimp only at h
  split at h
  · cases h
  · split at h
    · obtain ⟨found,hfound,rfl⟩ := List.mem_map.mp h
      have hrow := List.mem_of_mem_take (List.mem_of_mem_filter (List.mem_of_mem_take hfound))
      obtain ⟨chunk,hchunk,hscored⟩ := List.mem_filterMap.mp ((hperm _ _).mem_iff.mp hrow)
      obtain ⟨embedding,-,hrow⟩ := Option.bind_eq_some_iff.mp hscored
      exact (joined_of_scored hchunk hrow).map Sum.inr
    · obtain ⟨found,hfound,rfl⟩ := List.mem_map.mp h
      have hrow := (List.mergeSort_perm _ _).mem_iff.mp (List.mem_of_mem_take hfound)
      obtain ⟨chunk,hchunk,hscored⟩ := List.mem_filterMap.mp hrow
      obtain ⟨embedding,-,hrow⟩ := Option.bind_eq_some_iff.mp hscored
      dsimp only at hrow
      split at hrow
      · cases hrow
      · exact (joined_of_scored hchunk hrow).map Sum.inl

section paths
variable {queryEmbedding : Embedding} {collectionId : Option Nat}
  (hembeddings : ∀ c ∈ tables.chunks, ∀ embedding ∈ c.embedding, Comparable queryEmbedding embedding)

include hembeddings

variable (db) in
omit [LinearOrder R] in
/-- The chunks of the rows that the database orders. -/
theorem joinedRows_chunks :
    (joinedRows db tables orgId queryEmbedding (tables.activeVersionIds orgId collectionId)).map (·.chunk) =
      candidates tables orgId collectionId := by
  unfold joinedRows candidates
  rw [filter_active,List.map_filterMap,List.filterMap_filter,← List.filterMap_eq_filter]
  apply List.filterMap_congr
  intro c hc
  rw [Option.guard]
  cases he : c.embedding with
  | none => simp [embeddingVec]
  | some embedding =>
    rw [(hembeddings c hc embedding he).embeddingVec,Option.bind_some,Option.isSome_some,Bool.and_true,
      ← isSome_scored c (1 - db.distance embedding queryEmbedding)]
    cases hrow : tables.scored c (1 - db.distance embedding queryEmbedding) with
    | none => simp
    | some row => simp [(of_scored hrow).1]

theorem of_mem_joinedRows (hdb : db.Exact sqrt) {row : Scored R}
    (h : row ∈ joinedRows db tables orgId queryEmbedding (tables.activeVersionIds orgId collectionId)) :
    row.similarity = 1 - rowDistance db queryEmbedding row ∧ row.similarity = chunkExact sqrt queryEmbedding row.chunk := by
  obtain ⟨chunk,hchunk,hrow⟩ := List.mem_filterMap.mp h
  obtain ⟨embedding,hembedding,hscored⟩ := Option.bind_eq_some_iff.mp hrow
  obtain ⟨rfl,hsimilarity⟩ := of_scored hscored
  cases he : row.chunk.embedding with
  | none =>
    rw [he] at hembedding
    cases hembedding
  | some present =>
    have hcomparable := hembeddings _ (List.mem_of_mem_filter hchunk) present he
    rw [he,hcomparable.embeddingVec] at hembedding
    obtain rfl := Option.some.inj hembedding
    rw [hsimilarity,rowDistance,chunkExact,he,hcomparable.embeddingVec,Option.getD_some]
    exact ⟨rfl,by rw [hdb.distance queryEmbedding present hcomparable,sub_sub_cancel]⟩

variable (orgId collectionId) in
/-- Truncating before the threshold loses nothing, as the rows are ordered by distance. -/
theorem searchPostgres_best [IsStrictOrderedRing R] (hdb : db.Exact sqrt) (limit : Nat) (minSimilarity : Float) :
    Best (chunkExact sqrt queryEmbedding) limit
      ((candidates tables orgId collectionId).filter
        ((exactValue minSimilarity : R) ≤ chunkExact sqrt queryEmbedding ·))
      ((searchPostgres db tables orgId queryEmbedding (tables.activeVersionIds orgId collectionId) limit
        minSimilarity).map (·.chunk)) := by
  unfold searchPostgres rowsToScored
  dsimp only
  generalize hordered : db.orderBy _ _ = ordered
  have hperm := hdb.perm (rowDistance db queryEmbedding)
    (joinedRows db tables orgId queryEmbedding (tables.activeVersionIds orgId collectionId))
  have hsorted := hdb.sorted (rowDistance db queryEmbedding)
    (joinedRows db tables orgId queryEmbedding (tables.activeVersionIds orgId collectionId))
  rw [hordered] at hperm hsorted
  have hthreshold : ((ordered.take (limit * 3)).filter fun row => !decide (row.similarity < (exactValue minSimilarity : R))) =
      (ordered.take (limit * 3)).filter fun row =>
        !decide (1 - rowDistance db queryEmbedding row < (exactValue minSimilarity : R)) := by
    apply List.filter_congr
    intro row hrow
    rw [(of_mem_joinedRows hembeddings hdb (hperm.mem_iff.mp (List.mem_of_mem_take hrow))).1]
  rw [hthreshold]
  apply best_of_distance hperm hsorted _ (joinedRows_chunks db hembeddings) (by omega)
  intro row hrow
  obtain ⟨hdistance,hexact⟩ := of_mem_joinedRows hembeddings hdb hrow
  rw [← hdistance,hexact]

variable (orgId collectionId) in
/-- Whether a chunk of the other path is kept is the threshold's affair. -/
theorem searchSqlite_best {minSimilarity : Float} (ht : minSimilarity.isNaN = false)
    (hnumbers : ∀ c ∈ candidates tables orgId collectionId, (chunkScore queryEmbedding c).isNaN = false) (limit : Nat) :
    Best (fun c => floatRank (chunkScore queryEmbedding c)) limit
      ((candidates tables orgId collectionId).filter (minSimilarity ≤ chunkScore queryEmbedding ·))
      ((searchSqlite tables orgId queryEmbedding (tables.activeVersionIds orgId collectionId) limit minSimilarity).map
        (·.chunk)) := by
  unfold searchSqlite
  dsimp only
  rw [filter_active]
  apply best_of_scores _ _ hnumbers
  · intro row hrow
    obtain ⟨c,hc,hscored⟩ := List.mem_filterMap.mp hrow
    obtain ⟨embedding,hembedding,hkept⟩ := Option.bind_eq_some_iff.mp hscored
    split at hkept
    · cases hkept
    · obtain ⟨rfl,hsimilarity⟩ := of_scored hkept
      obtain ⟨he,-⟩ := Option.filter_eq_some_iff.mp hembedding
      rw [hsimilarity,chunkScore,he,Option.getD_some]
  · rw [candidates,List.filter_filter,List.map_filterMap,List.filterMap_filter,← List.filterMap_eq_filter]
    apply List.filterMap_congr
    intro c hc
    rw [Option.guard]
    cases he : c.embedding with
    | none => simp
    | some embedding =>
      have hvec : (some embedding).filter (· ≠ []) = some embedding := (hembeddings c hc embedding he).embeddingVec
      have hscore : cosineSimilarity queryEmbedding embedding = chunkScore queryEmbedding c := by
        rw [chunkScore,he,Option.getD_some]
      rw [hvec,Option.bind_some,hscore,Option.isSome_some,Bool.and_true,← isSome_scored c (chunkScore queryEmbedding c)]
      cases hrow : tables.scored c (chunkScore queryEmbedding c) with
      | none => simp
      | some row =>
        by_cases hs : Searchable tables orgId collectionId c
        · have hmem : c ∈ candidates tables orgId collectionId := by
            refine List.mem_filter.mpr ⟨hc,?_⟩
            rw [he,← isSome_scored c (chunkScore queryEmbedding c),hrow]
            simpa using hs
          have hnot := not_below_iff ht (hnumbers c hmem)
          by_cases hlow : chunkScore queryEmbedding c < minSimilarity
          · have hbelow : ¬ minSimilarity ≤ chunkScore queryEmbedding c := fun h => hnot.mpr h hlow
            simp [hs,hlow,hbelow]
          · simp [hs,hlow,hnot.mp hlow,(of_scored hrow).1]
        · simp [hs]

/-- The two dialects over the searchable chunks. -/
theorem searchChunks_agree [IsStrictOrderedRing R] (hdb : db.Exact sqrt) {minSimilarity : Float}
    (ht : minSimilarity.isNaN = false) (limit : Nat) :
    BackendsAgree (chunkExact sqrt queryEmbedding) (chunkScore queryEmbedding) minSimilarity limit
      (candidates tables orgId collectionId) fun postgresql =>
        (searchChunks db tables orgId postgresql queryEmbedding collectionId limit minSimilarity).map (·.chunk) := by
  have hchunks {S T : Type} (f : S → T) (rows : List (Scored S)) : (rows.map (·.map f)).map (·.chunk) = rows.map (·.chunk) := by
    rw [List.map_map]
    rfl
  have hpostgresql := searchPostgres_best orgId collectionId hembeddings hdb limit minSimilarity
  have hsqlite := fun hnumbers => searchSqlite_best orgId collectionId hembeddings ht hnumbers limit
  unfold searchChunks
  dsimp only
  by_cases hnone : tables.activeVersionIds orgId collectionId = []
  · have hempty : candidates tables orgId collectionId = [] := by
      rw [← joinedRows_chunks db hembeddings,hnone]
      simp [joinedRows]
    simp only [if_pos hnone,hempty]
    exact ⟨⟨List.Pairwise.nil,by simp,[],by simp,by simp⟩,fun _ => ⟨List.Pairwise.nil,by simp,[],by simp,by simp⟩,
      fun _ => ⟨rfl,fun _ _ => List.Perm.refl _⟩⟩
  · refine ⟨?_,fun hnumbers => ?_,fun hround => ?_⟩
    · rw [if_neg hnone,if_pos rfl,hchunks]
      exact hpostgresql
    · rw [if_neg hnone,if_neg Bool.false_ne_true,hchunks]
      exact hsqlite hnumbers
    · rw [if_neg hnone,if_pos rfl,hchunks,if_neg hnone,if_neg Bool.false_ne_true,hchunks]
      exact hround.same hpostgresql (hsqlite hround.numbers)

end paths

end search
end VoxForge.Knowledge
