import Mathlib.Analysis.Real.Sqrt
import VoxForge.Knowledge.Search

/-! The vector search over a session's turns, and the agreement of the two databases in both
repositories. -/
namespace VoxForge.Memory
open Core Foundation Persistence

inductive MemoryEntryType where
  | turn | summary | fact
  deriving DecidableEq, Repr

/-- A row of `memory_entries`. -/
structure MemoryEntryModel where
  id : Nat
  orgId : OrgId
  sessionId : Nat
  messageId : Option Nat := none
  role : String
  content : String
  entryType : MemoryEntryType
  embedding : Option (List Float)
  metadata : List (String × String) := []
  createdAt : Nat := 0
  deriving DecidableEq, Repr

/-- An entry with a similarity that is a float or a number of the database. -/
structure MemoryEntry (S : Type) where
  id : Nat
  orgId : OrgId
  sessionId : Nat
  role : String
  content : String
  entryType : MemoryEntryType
  messageId : Option Nat
  metadata : List (String × String)
  similarity : Option S
  createdAt : Nat

def toEntry {S : Type} (model : MemoryEntryModel) (similarity : Option S) : MemoryEntry S where
  id := model.id
  orgId := model.orgId
  sessionId := model.sessionId
  role := model.role
  content := model.content
  entryType := model.entryType
  messageId := model.messageId
  metadata := model.metadata
  similarity := similarity
  createdAt := model.createdAt

section search
variable {R : Type} [Field R] [LinearOrder R] (sqrt : R → R) (db : Pgvector R) (entries : List MemoryEntryModel)
  (orgId : OrgId) (sessionId : Nat) (queryEmbedding : List Float) (limit : Nat) (minSimilarity : Float)

/-- The rows of the `SELECT` before `ORDER BY`, with their distance. -/
def turnRows : List (R × MemoryEntryModel) :=
  let rows := entries.filter fun m => m.orgId = orgId && m.sessionId = sessionId && m.entryType = .turn
  rows.filterMap fun m => (embeddingVec m.embedding).map fun embedding => (db.distance embedding queryEmbedding,m)

/-- `search_similar` on PostgreSQL. -/
def searchSimilarPostgres : List (MemoryEntry R) :=
  let rows := db.orderBy Prod.fst (turnRows db entries orgId sessionId queryEmbedding)
  (rows.take limit).filterMap fun (distance,m) =>
    let similarity := 1 - distance
    if similarity < (exactValue minSimilarity : R) then none else some (toEntry m (some similarity))

def searchSimilarInMemory : List (MemoryEntry Float) :=
  let rows := entries.filter fun m =>
    m.orgId = orgId && m.sessionId = sessionId && m.entryType = .turn && m.embedding.isSome
  let scored := rows.filterMap fun m =>
    let similarity := cosineSimilarity queryEmbedding (m.embedding.getD [])
    if minSimilarity ≤ similarity then some (similarity,m) else none
  ((scored.mergeSort fun a b => !decide (a.1 < b.1)).take limit).map fun (score,m) => toEntry m (some score)

def MemoryEntry.map {S T : Type} (f : S → T) (entry : MemoryEntry S) : MemoryEntry T :=
  { entry with similarity := entry.similarity.map f }

def searchSimilar (postgresql : Bool) : List (MemoryEntry (Float ⊕ R)) :=
  if postgresql then
    (searchSimilarPostgres db entries orgId sessionId queryEmbedding limit minSimilarity).map (·.map .inr)
  else (searchSimilarInMemory entries orgId sessionId queryEmbedding limit minSimilarity).map (·.map .inl)

/-- The session's turns with an embedding. -/
def turnsOf : List MemoryEntryModel :=
  entries.filter fun m =>
    m.orgId = orgId && m.sessionId = sessionId && m.entryType = .turn && m.embedding.isSome

/-- The similarities of a turn as the two dialects compute them. -/
def turnExact (m : MemoryEntryModel) : R := exactSimilarity sqrt queryEmbedding (m.embedding.getD [])

def turnScore (m : MemoryEntryModel) : Float := cosineSimilarity queryEmbedding (m.embedding.getD [])

def turnEntry (postgresql : Bool) (m : MemoryEntryModel) : MemoryEntry (Float ⊕ R) :=
  toEntry m (some (if postgresql then .inr (turnExact sqrt queryEmbedding m) else .inl (turnScore queryEmbedding m)))

/-- The rows behind the results of each dialect. -/
def turnsFound (postgresql : Bool) : List MemoryEntryModel :=
  if postgresql then
    let rows := db.orderBy Prod.fst (turnRows db entries orgId sessionId queryEmbedding)
    (((rows.take limit).filter fun row => !decide (1 - row.1 < (exactValue minSimilarity : R))).take limit).map (·.2)
  else
    let scored := ((turnsOf entries orgId sessionId).filter (minSimilarity ≤ turnScore queryEmbedding ·)).map fun m =>
      (turnScore queryEmbedding m,m)
    ((scored.mergeSort fun a b => !decide (a.1 < b.1)).take limit).map (·.2)

variable {sqrt db entries orgId sessionId queryEmbedding limit minSimilarity}

theorem of_mem_turnsOf {m : MemoryEntryModel} (h : m ∈ turnsOf entries orgId sessionId) :
    m.orgId = orgId ∧ m.sessionId = sessionId ∧ m.entryType = .turn := by
  have hwhere := (List.mem_filter.mp h).2
  simp only [Bool.and_eq_true,decide_eq_true_eq] at hwhere
  obtain ⟨⟨⟨horg,hsession⟩,hturn⟩,-⟩ := hwhere
  exact ⟨horg,hsession,hturn⟩

omit [Field R] [LinearOrder R] in
theorem of_mem_turnRows {row : R × MemoryEntryModel} (h : row ∈ turnRows db entries orgId sessionId queryEmbedding) :
    row.2 ∈ turnsOf entries orgId sessionId := by
  obtain ⟨m,hm,hrow⟩ := List.mem_filterMap.mp h
  obtain ⟨embedding,hvec,rfl⟩ := Option.map_eq_some_iff.mp hrow
  obtain ⟨he,-⟩ := Option.filter_eq_some_iff.mp hvec
  obtain ⟨hm,hwhere⟩ := List.mem_filter.mp hm
  refine List.mem_filter.mpr ⟨hm,?_⟩
  rw [hwhere,he]
  rfl

theorem turnsFound_subset (hperm : ∀ {α : Type} (key : α → R) rows, (db.orderBy key rows).Perm rows) {postgresql : Bool}
    {m : MemoryEntryModel} (h : m ∈ turnsFound db entries orgId sessionId queryEmbedding limit minSimilarity postgresql) :
    m ∈ turnsOf entries orgId sessionId := by
  unfold turnsFound at h
  split at h
  · obtain ⟨row,hrow,rfl⟩ := List.mem_map.mp h
    have hordered := List.mem_of_mem_take (List.mem_of_mem_filter (List.mem_of_mem_take hrow))
    exact of_mem_turnRows ((hperm _ _).mem_iff.mp hordered)
  · obtain ⟨row,hrow,rfl⟩ := List.mem_map.mp h
    obtain ⟨m,hm,rfl⟩ := List.mem_map.mp ((List.mergeSort_perm _ _).mem_iff.mp (List.mem_of_mem_take hrow))
    exact List.mem_of_mem_filter hm

/-- The path in memory sorts the turns that reach the threshold. -/
theorem inMemory_found :
    (searchSimilarInMemory entries orgId sessionId queryEmbedding limit minSimilarity).map (·.map .inl) =
      (turnsFound db entries orgId sessionId queryEmbedding limit minSimilarity false).map
        (turnEntry sqrt queryEmbedding false) := by
  have hscored : (turnsOf entries orgId sessionId).filterMap (fun m =>
        let similarity := cosineSimilarity queryEmbedding (m.embedding.getD [])
        if minSimilarity ≤ similarity then some (similarity,m) else none) =
      ((turnsOf entries orgId sessionId).filter (minSimilarity ≤ turnScore queryEmbedding ·)).map fun m =>
        (turnScore queryEmbedding m,m) := by
    rw [← List.filterMap_eq_map,List.filterMap_filter]
    apply List.filterMap_congr
    intro m _
    change (if minSimilarity ≤ turnScore queryEmbedding m then some (turnScore queryEmbedding m,m) else none) = _
    by_cases hreaches : minSimilarity ≤ turnScore queryEmbedding m
    · rw [if_pos hreaches,if_pos (decide_eq_true hreaches)]
      rfl
    · rw [if_neg hreaches,if_neg (by simpa using hreaches)]
  unfold searchSimilarInMemory turnsFound
  dsimp only
  rw [show (entries.filter fun m => decide (m.orgId = orgId) && decide (m.sessionId = sessionId) &&
      decide (m.entryType = .turn) && m.embedding.isSome) = turnsOf entries orgId sessionId from rfl,hscored,
    if_neg Bool.false_ne_true,List.map_map,List.map_map]
  apply List.map_congr_left
  intro row hrow
  obtain ⟨m,-,rfl⟩ := List.mem_map.mp ((List.mergeSort_perm _ _).mem_iff.mp (List.mem_of_mem_take hrow))
  rfl

section paths
variable (hembeddings : ∀ m ∈ entries, ∀ embedding ∈ m.embedding, Comparable queryEmbedding embedding)

include hembeddings

omit [Field R] [LinearOrder R] in
theorem turnRows_turns :
    (turnRows db entries orgId sessionId queryEmbedding).map Prod.snd = turnsOf entries orgId sessionId := by
  unfold turnRows turnsOf
  rw [List.map_filterMap,List.filterMap_filter,← List.filterMap_eq_filter]
  apply List.filterMap_congr
  intro m hm
  rw [Option.guard]
  cases he : m.embedding with
  | none => simp [embeddingVec]
  | some embedding =>
    rw [(hembeddings m hm embedding he).embeddingVec,Option.isSome_some,Bool.and_true]
    rfl

theorem turnRows_exact (hdb : db.Exact sqrt) {row : R × MemoryEntryModel}
    (h : row ∈ turnRows db entries orgId sessionId queryEmbedding) :
    1 - row.1 = turnExact sqrt queryEmbedding row.2 := by
  obtain ⟨m,hm,hrow⟩ := List.mem_filterMap.mp h
  obtain ⟨embedding,hvec,rfl⟩ := Option.map_eq_some_iff.mp hrow
  obtain ⟨he,-⟩ := Option.filter_eq_some_iff.mp hvec
  have hcomparable := hembeddings m (List.mem_of_mem_filter hm) embedding he
  rw [hdb.distance queryEmbedding embedding hcomparable,sub_sub_cancel,turnExact,he,Option.getD_some]

theorem postgres_found (hdb : db.Exact sqrt) :
    (searchSimilarPostgres db entries orgId sessionId queryEmbedding limit minSimilarity).map (·.map .inr) =
      (turnsFound db entries orgId sessionId queryEmbedding limit minSimilarity true).map
        (turnEntry sqrt queryEmbedding true) := by
  unfold searchSimilarPostgres turnsFound
  dsimp only
  have hperm := hdb.perm Prod.fst (turnRows db entries orgId sessionId queryEmbedding)
  generalize db.orderBy Prod.fst (turnRows db entries orgId sessionId queryEmbedding) = rows at hperm
  have hcut : ((rows.take limit).filter fun row => !decide (1 - row.1 < (exactValue minSimilarity : R))).length ≤ limit :=
    (List.length_filter_le _ _).trans (List.length_take_le _ _)
  rw [if_pos rfl,List.take_of_length_le hcut,List.map_filterMap,List.map_map,← List.filterMap_eq_map,
    List.filterMap_filter]
  apply List.filterMap_congr
  intro row hrow
  have hexact := turnRows_exact hembeddings hdb (hperm.mem_iff.mp (List.mem_of_mem_take hrow))
  simp only [hexact]
  by_cases hlow : turnExact sqrt queryEmbedding row.2 < (exactValue minSimilarity : R)
  · simp [hlow]
  · simp [hlow,turnEntry,MemoryEntry.map,toEntry]

theorem turns_agree [IsStrictOrderedRing R] (hdb : db.Exact sqrt) :
    BackendsAgree (turnExact sqrt queryEmbedding) (turnScore queryEmbedding) minSimilarity limit
      (turnsOf entries orgId sessionId)
      (turnsFound db entries orgId sessionId queryEmbedding limit minSimilarity) := by
  have hperm := hdb.perm Prod.fst (turnRows db entries orgId sessionId queryEmbedding)
  have hsorted := hdb.sorted Prod.fst (turnRows db entries orgId sessionId queryEmbedding)
  have hpostgresql : Best (turnExact sqrt queryEmbedding) limit
      ((turnsOf entries orgId sessionId).filter ((exactValue minSimilarity : R) ≤ turnExact sqrt queryEmbedding ·))
      (turnsFound db entries orgId sessionId queryEmbedding limit minSimilarity true) := by
    apply best_of_distance hperm hsorted _ (turnRows_turns hembeddings) le_rfl
    intro row hrow
    exact turnRows_exact hembeddings hdb hrow
  have hsqlite (hnumbers : ∀ m ∈ turnsOf entries orgId sessionId, (turnScore queryEmbedding m).isNaN = false) :
      Best (fun m => floatRank (turnScore queryEmbedding m)) limit
        ((turnsOf entries orgId sessionId).filter (minSimilarity ≤ turnScore queryEmbedding ·))
        (turnsFound db entries orgId sessionId queryEmbedding limit minSimilarity false) := by
    apply best_of_scores _ _ hnumbers
    · intro row hrow
      obtain ⟨m,-,rfl⟩ := List.mem_map.mp hrow
      rfl
    · rw [List.map_map]
      exact List.map_id _
  exact ⟨hpostgresql,hsqlite,fun hround => hround.same hpostgresql (hsqlite hround.numbers)⟩

end paths

/-- The results are the entries of the rows found. -/
theorem searchSimilar_found (hembeddings : ∀ m ∈ entries, ∀ embedding ∈ m.embedding, Comparable queryEmbedding embedding)
    (hdb : db.Exact sqrt) (postgresql : Bool) :
    searchSimilar db entries orgId sessionId queryEmbedding limit minSimilarity postgresql =
      (turnsFound db entries orgId sessionId queryEmbedding limit minSimilarity postgresql).map
        (turnEntry sqrt queryEmbedding postgresql) := by
  cases postgresql with
  | true => exact postgres_found hembeddings hdb
  | false => exact inMemory_found

end search

/-- Both searches return only what the caller may see, on each dialect the best by the
similarity that it computes, and the same up to ties where rounding changes neither the
threshold's verdict nor the order. -/
theorem searches_agree (db : Pgvector ℝ) (hdb : db.Exact Real.sqrt) (tables : Knowledge.Tables)
    (entries : List MemoryEntryModel) (orgId : OrgId) (collectionId : Option Nat) (sessionId : Nat)
    (queryEmbedding : List Float) (limit : Nat) (minSimilarity : Float) (ht : minSimilarity.isNaN = false)
    (hchunks : ∀ c ∈ tables.chunks, ∀ embedding ∈ c.embedding, Comparable queryEmbedding embedding)
    (hentries : ∀ m ∈ entries, ∀ embedding ∈ m.embedding, Comparable queryEmbedding embedding) :
    let chunks (postgresql : Bool) := Knowledge.searchChunks db tables orgId postgresql queryEmbedding collectionId
      limit minSimilarity
    let turns := searchSimilar db entries orgId sessionId queryEmbedding limit minSimilarity
    (∀ postgresql, ∀ row ∈ chunks postgresql, Knowledge.Joined tables orgId collectionId row) ∧
    BackendsAgree (Knowledge.chunkExact Real.sqrt queryEmbedding) (Knowledge.chunkScore queryEmbedding) minSimilarity
      limit (Knowledge.candidates tables orgId collectionId) (fun postgresql => (chunks postgresql).map (·.chunk)) ∧
    ∃ found : Bool → List MemoryEntryModel,
      (∀ postgresql, turns postgresql = (found postgresql).map (turnEntry Real.sqrt queryEmbedding postgresql) ∧
        ∀ m ∈ found postgresql, m.orgId = orgId ∧ m.sessionId = sessionId ∧ m.entryType = .turn) ∧
      BackendsAgree (turnExact Real.sqrt queryEmbedding) (turnScore queryEmbedding) minSimilarity limit
        (turnsOf entries orgId sessionId) found := by
  intro chunks turns
  refine ⟨fun postgresql row hrow => ?_,Knowledge.searchChunks_agree hchunks hdb ht limit,
    turnsFound db entries orgId sessionId queryEmbedding limit minSimilarity,fun postgresql => ⟨?_,fun m hm => ?_⟩,?_⟩
  · exact Knowledge.joined_of_mem_searchChunks (fun key rows => hdb.perm key rows) hrow
  · exact searchSimilar_found hentries hdb postgresql
  · exact of_mem_turnsOf (turnsFound_subset (fun key rows => hdb.perm key rows) hm)
  · exact turns_agree hentries hdb

/-- A ready document with a stale and an active version, chunks of it and of another organisation,
and turns with the same embeddings. -/
def shelf : Knowledge.Tables where
  documents := [{ id := 1, orgId := 1, collectionId := 1, title := "prices", sourceType := .csv, contentHash := "",
                  activeVersionId := some 2, status := .ready }]
  versions := [{ id := 2, documentId := 1, versionNumber := 2, contentHash := "", blobPath := "1/1/v2/prices.csv" },
               { id := 9, documentId := 1, versionNumber := 1, contentHash := "", blobPath := "1/1/v1/prices.csv" }]
  chunks := [chunk 3 1 2 [4,-3],chunk 4 1 2 [4,3],chunk 5 1 2 [3,4],chunk 6 1 2 [5,0],chunk 7 1 9 [3,4],
             chunk 8 2 2 [3,4]]
where
  chunk (id orgId documentVersionId : Nat) (embedding : List Float) : Knowledge.Chunk :=
    { id, orgId, documentVersionId, chunkIndex := id, content := "apple", contentHash := "", tokenCount := 1,
      metadata := {}, embedding := some embedding }

def remembered : List MemoryEntryModel :=
  [turn 1 1 [5,0],turn 2 1 [4,3],turn 3 2 [3,4],turn 4 1 [3,4]]
where
  turn (id sessionId : Nat) (embedding : List Float) : MemoryEntryModel :=
    { id, orgId := 1, sessionId, role := "user", content := "apple", entryType := .turn, embedding := some embedding }

/-- The product of an embedding with the query of the shelf. -/
def dotFive (embedding : List Float) : ℚ :=
  ((([3,4] : List Float).map exactValue).zipWith (· * ·) (embedding.map exactValue)).sum

theorem exactSimilarity_five {embedding : List Float}
    (hnorm : ((embedding.map exactValue).map fun x => x * x).sum = 25) :
    exactSimilarity Real.sqrt [3,4] embedding = ((dotFive embedding / 25 : ℚ) : ℝ) := by
  have hquery : ((([3,4] : List Float).map exactValue).map fun x => x * x).sum = 25 := by decide +kernel
  have hroot : Real.sqrt ((25 : ℚ) : ℝ) = 5 := by
    rw [show ((25 : ℚ) : ℝ) = 5 ^ 2 by norm_num]
    exact Real.sqrt_sq (by norm_num)
  unfold exactSimilarity
  simp only [hquery,hnorm,hroot]
  rw [if_neg (by norm_num),← dotFive]
  norm_num

theorem shelf_searches_agree :
    let db := Pgvector.stable Real.sqrt
    let chunks (postgresql : Bool) := (Knowledge.searchChunks db shelf 1 postgresql [3,4] (some 1) 2 0.5).map (·.chunk)
    ((chunks false).length = 2 ∧ SameUpToTies (Knowledge.chunkExact Real.sqrt [3,4]) (chunks true) (chunks false)) ∧
    ∃ found : Bool → List MemoryEntryModel,
      (∀ postgresql, searchSimilar db remembered 1 1 [3,4] 2 0.5 postgresql =
        (found postgresql).map (turnEntry Real.sqrt [3,4] postgresql)) ∧
      (found false).length = 2 ∧ SameUpToTies (turnExact Real.sqrt [3,4]) (found true) (found false) := by
  intro db chunks
  have hchunks : ∀ c ∈ shelf.chunks, ∀ embedding ∈ c.embedding, Comparable [3,4] embedding := by
    decide +kernel
  have hentries : ∀ m ∈ remembered, ∀ embedding ∈ m.embedding, Comparable [3,4] embedding := by
    decide +kernel
  obtain ⟨-,hagree,found,hfound,hturns⟩ := searches_agree db (Pgvector.stable_exact Real.sqrt) shelf remembered 1 (some 1)
    1 [3,4] 2 0.5 (by decide +kernel) hchunks hentries
  refine ⟨⟨?_,hagree.agree ?_⟩,found,fun postgresql => (hfound postgresql).1,?_,hturns.agree ?_⟩
  · rw [(hagree.sqlite (by decide +kernel)).length]
    decide +kernel
  · refine .of_rat (fun c => dotFive (c.embedding.getD []) / 25) (fun c hc => exactSimilarity_five ?_) (by decide +kernel)
    have hnorms : ∀ c ∈ Knowledge.candidates shelf 1 (some 1),
        (((c.embedding.getD []).map exactValue).map fun x => x * x).sum = 25 := by decide +kernel
    exact hnorms c hc
  · rw [(hturns.sqlite (by decide +kernel)).length]
    decide +kernel
  · refine .of_rat (fun m => dotFive (m.embedding.getD []) / 25) (fun m hm => exactSimilarity_five ?_) (by decide +kernel)
    have hnorms : ∀ m ∈ turnsOf remembered 1 1,
        (((m.embedding.getD []).map exactValue).map fun x => x * x).sum = 25 := by decide +kernel
    exact hnorms m hm

def twins : Knowledge.Tables where
  documents := [{ id := 1, orgId := 1, collectionId := 1, title := "prices", sourceType := .csv, contentHash := "",
                  activeVersionId := some 2, status := .ready }]
  versions := [{ id := 2, documentId := 1, versionNumber := 1, contentHash := "", blobPath := "1/1/v1/prices.csv" }]
  chunks := [shelf.chunk 3 1 2 [1,1]]

/-- The chunk that has the query's own embedding is found on PostgreSQL at the threshold one, and
not on SQLite, where its similarity is rounded down. -/
theorem own_embedding_missed :
    let db := Pgvector.stable Real.sqrt
    let chunks (postgresql : Bool) := (Knowledge.searchChunks db twins 1 postgresql [1,1] none 5 1).map (·.chunk)
    db.Exact Real.sqrt ∧ (∀ c ∈ twins.chunks, ∀ embedding ∈ c.embedding, Comparable [1,1] embedding) ∧
      chunks true = twins.chunks ∧ chunks false = [] ∧
      ¬ SameUpToTies (Knowledge.chunkExact Real.sqrt [1,1]) (chunks true) (chunks false) := by
  intro db chunks
  have hdb := Pgvector.stable_exact Real.sqrt
  have hchunks : ∀ c ∈ twins.chunks, ∀ embedding ∈ c.embedding, Comparable [1,1] embedding := by
    decide +kernel
  have hagree : BackendsAgree (Knowledge.chunkExact Real.sqrt [1,1]) (Knowledge.chunkScore [1,1]) 1 5
      (Knowledge.candidates twins 1 none) chunks :=
    Knowledge.searchChunks_agree hchunks hdb (by decide +kernel) 5
  have hexact : Knowledge.chunkExact Real.sqrt [1,1] (shelf.chunk 3 1 2 [1,1]) = (1 : ℝ) := by
    have hnorm : ((([1,1] : List Float).map exactValue).map fun x => x * x).sum = 2 := by decide +kernel
    have hdot : ((([1,1] : List Float).map exactValue).zipWith (· * ·) (([1,1] : List Float).map exactValue)).sum = 2 := by
      decide +kernel
    change exactSimilarity Real.sqrt [1,1] [1,1] = 1
    unfold exactSimilarity
    simp only [hnorm,hdot]
    rw [if_neg (by norm_num),Real.mul_self_sqrt (by norm_num)]
    norm_num
  have htrue : chunks true = twins.chunks := by
    have hcandidates : Knowledge.candidates twins 1 none = twins.chunks := by decide +kernel
    have hone : exactValue 1 = 1 := by decide +kernel
    have hbest := hagree.postgresql
    have hreaches : (Knowledge.candidates twins 1 none).filter
        (((exactValue 1 : ℚ) : ℝ) ≤ Knowledge.chunkExact Real.sqrt [1,1] ·) = [shelf.chunk 3 1 2 [1,1]] := by
      rw [hcandidates,hone]
      simp [twins,hexact]
    rw [hreaches] at hbest
    obtain ⟨c,hc⟩ := List.length_eq_one_iff.mp hbest.length
    have hmem := hbest.mem (x := c) (by rw [hc]; exact List.mem_singleton_self c)
    rw [List.mem_singleton.mp hmem] at hc
    exact hc
  have hfalse : chunks false = [] := by
    have hnumbers : ∀ c ∈ Knowledge.candidates twins 1 none, (Knowledge.chunkScore [1,1] c).isNaN = false := by
      decide +kernel
    apply List.length_eq_zero_iff.mp
    rw [(hagree.sqlite hnumbers).length]
    decide +kernel
  refine ⟨hdb,hchunks,htrue,hfalse,fun hsame => ?_⟩
  have hscores := congrArg List.length hsame.scores
  rw [htrue,hfalse] at hscores
  simp [twins] at hscores

end VoxForge.Memory
