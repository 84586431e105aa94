import Mathlib.Algebra.Order.Ring.Defs
import Mathlib.Data.Rat.Cast.Order
import VoxForge.Core.Floats
import VoxForge.Foundation.Ranking

/-! Similarity of embeddings, as the repositories compute it in floats and as the database
does, and what the two rankings of the same rows have to do with each other. -/
namespace VoxForge.Persistence
open Core Foundation

/-- `_cosine_similarity`. The product of two norms that are not zero is not zero either. -/
def cosineSimilarity (a b : List Float) : Float :=
  if a = [] ∨ b = [] ∨ a.length ≠ b.length then 0
  else
    let dot := floatSum (a.zipWith (· * ·) b)
    let normA := (floatSum (a.map fun x => x * x)).sqrt
    let normB := (floatSum (b.map fun y => y * y)).sqrt
    if normA == 0 || normB == 0 then 0 else dot / (normA * normB)

/-- The finite vectors that a search compares: not the zero vector, and of the query's dimension. -/
structure Comparable (query embedding : List Float) : Prop where
  length : embedding.length = query.length
  finite : ∀ x ∈ query ++ embedding, x.isFinite = true
  nonzero : ∃ x ∈ embedding, exactValue x ≠ 0

instance (query embedding : List Float) : Decidable (Comparable query embedding) :=
  decidable_of_iff (embedding.length = query.length ∧ (∀ x ∈ query ++ embedding, x.isFinite = true) ∧
      ∃ x ∈ embedding, exactValue x ≠ 0)
    ⟨fun ⟨hlength,hfinite,hnonzero⟩ => ⟨hlength,hfinite,hnonzero⟩,fun h => ⟨h.length,h.finite,h.nonzero⟩⟩

/-- The content of an `embedding_vec` column: it is written with a nonempty embedding only. -/
def embeddingVec (embedding : Option (List Float)) : Option (List Float) := embedding.filter (· ≠ [])

theorem Comparable.embeddingVec {query embedding : List Float} (h : Comparable query embedding) :
    embeddingVec (some embedding) = some embedding := by
  obtain ⟨x,hx,-⟩ := h.nonzero
  have hne : embedding ≠ [] := List.ne_nil_of_mem hx
  simp [Persistence.embeddingVec,hne]

section similarity
variable {R : Type} [Field R] [LinearOrder R] (sqrt : R → R)

/-- The cosine similarity of the numbers that the floats stand for, without rounding. -/
def exactSimilarity (a b : List Float) : R :=
  let dot : ℚ := ((a.map exactValue).zipWith (· * ·) (b.map exactValue)).sum
  let normA : R := sqrt (((a.map exactValue).map fun x => x * x).sum : ℚ)
  let normB : R := sqrt (((b.map exactValue).map fun y => y * y).sum : ℚ)
  if normA = 0 ∨ normB = 0 then 0 else dot / (normA * normB)

/-- The database's distance operator and its `ORDER BY`. -/
structure Pgvector (R : Type) where
  distance : List Float → List Float → R
  orderBy : {α : Type} → (α → R) → List α → List α

/-- The distance to a query is one minus the cosine similarity, and `ORDER BY` sorts, with ties
in any order. -/
structure Pgvector.Exact (db : Pgvector R) : Prop where
  distance : ∀ query embedding, Comparable query embedding →
    db.distance embedding query = 1 - exactSimilarity sqrt query embedding
  perm : ∀ {α : Type} (key : α → R) rows, (db.orderBy key rows).Perm rows
  sorted : ∀ {α : Type} (key : α → R) rows, (db.orderBy key rows).Pairwise fun a b => key a ≤ key b

/-- A database that computes without rounding and keeps the order of ties. -/
def Pgvector.stable : Pgvector R where
  distance embedding query := 1 - exactSimilarity sqrt query embedding
  orderBy key rows := rows.mergeSort (key · ≤ key ·)

theorem Pgvector.stable_exact : (Pgvector.stable sqrt).Exact sqrt where
  distance _ _ _ := rfl
  perm _ rows := rows.mergeSort_perm _
  sorted key rows := pairwise_mergeSort_key key rows

end similarity

section rankings
variable {R α ρ : Type} [Field R] [LinearOrder R] (exact : α → R) (float : α → Float) (minSimilarity : Float) (limit : Nat)
  (candidates : List α)

/-- Rounding changes nothing that the search looks at: the scores are numbers, they reach the
threshold if the exact similarities do, and where those differ, the scores differ likewise. -/
structure RoundsAlike : Prop where
  numbers : ∀ x ∈ candidates, (float x).isNaN = false
  threshold : ∀ x ∈ candidates, minSimilarity ≤ float x ↔ (exactValue minSimilarity : R) ≤ exact x
  order : ∀ x ∈ candidates, ∀ y ∈ candidates, (exactValue minSimilarity : R) ≤ exact x → exact x < exact y →
    float x < float y

/-- What the two dialects find of the same candidates. Each finds the best by the similarity
that it computes; if rounding changes nothing, they find the same up to ties. -/
structure BackendsAgree (found : Bool → List α) : Prop where
  postgresql : Best exact limit (candidates.filter ((exactValue minSimilarity : R) ≤ exact ·)) (found true)
  sqlite : (∀ x ∈ candidates, (float x).isNaN = false) →
    Best (fun x => floatRank (float x)) limit (candidates.filter (minSimilarity ≤ float ·)) (found false)
  agree : RoundsAlike exact float minSimilarity candidates → SameUpToTies exact (found true) (found false)

variable {exact float minSimilarity limit candidates}

theorem RoundsAlike.same (h : RoundsAlike exact float minSimilarity candidates) {xs ys : List α}
    (hxs : Best exact limit (candidates.filter ((exactValue minSimilarity : R) ≤ exact ·)) xs)
    (hys : Best (fun x => floatRank (float x)) limit (candidates.filter (minSimilarity ≤ float ·)) ys) :
    SameUpToTies exact xs ys := by
  have hsame : candidates.filter (minSimilarity ≤ float ·) =
      candidates.filter ((exactValue minSimilarity : R) ≤ exact ·) := by
    apply List.filter_congr
    intro x hx
    rw [decide_eq_decide]
    exact h.threshold x hx
  rw [hsame] at hys
  apply hxs.sameUpToTies
  apply hys.of_order
  intro x hx y hy hlt
  obtain ⟨hx,hreaches⟩ := List.mem_filter.mp hx
  obtain ⟨hy,-⟩ := List.mem_filter.mp hy
  have hfloat := h.order x hx y hy (of_decide_eq_true hreaches) hlt
  exact (float_lt_iff (h.numbers x hx) (h.numbers y hy)).mp hfloat

/-- Where the exact similarities are rational, finitely many comparisons show that rounding
changes nothing. -/
theorem RoundsAlike.of_rat [IsStrictOrderedRing R] (value : α → ℚ) (hexact : ∀ x ∈ candidates, exact x = (value x : R))
    (h : ∀ x ∈ candidates, (float x).isNaN = false ∧ (minSimilarity ≤ float x ↔ exactValue minSimilarity ≤ value x) ∧
      ∀ y ∈ candidates, value x < value y → float x < float y) :
    RoundsAlike exact float minSimilarity candidates := by
  refine ⟨fun x hx => (h x hx).1,fun x hx => ?_,fun x hx y hy _ hlt => ?_⟩
  · rw [hexact x hx,Rat.cast_le]
    exact (h x hx).2.1
  · rw [hexact x hx,hexact y hy,Rat.cast_lt] at hlt
    exact (h x hx).2.2 y hy hlt

/-- Rows ordered by their distance and cut, before the threshold and again after it, are the
best by the exact similarity. -/
theorem best_of_distance [IsStrictOrderedRing R] {ordered rows : List ρ} {key : ρ → R} {item : ρ → α} {cut : Nat}
    (hperm : ordered.Perm rows) (hsorted : ordered.Pairwise fun a b => key a ≤ key b)
    (hkey : ∀ row ∈ rows, 1 - key row = exact (item row)) (hitems : rows.map item = candidates) (hcut : limit ≤ cut) :
    Best exact limit (candidates.filter ((exactValue minSimilarity : R) ≤ exact ·))
      ((((ordered.take cut).filter fun row => !decide (1 - key row < exactValue minSimilarity)).take limit).map item) := by
  have hranked : Ranked (fun row => 1 - key row) ordered := hsorted.imp fun hle => sub_le_sub_left hle 1
  have hreaches (row : ρ) : (!decide (1 - key row < (exactValue minSimilarity : R))) =
      decide ((exactValue minSimilarity : R) ≤ 1 - key row) := by
    rw [← decide_not,decide_eq_decide,not_lt]
  simp only [hreaches]
  rw [hranked.take_filter,List.take_take,min_eq_left hcut]
  have hbest := (hranked.filter fun row => decide ((exactValue minSimilarity : R) ≤ 1 - key row)).best_take
    (hperm.filter _) limit
  have hitem : (rows.filter fun row => decide ((exactValue minSimilarity : R) ≤ 1 - key row)).map item =
      candidates.filter ((exactValue minSimilarity : R) ≤ exact ·) := by
    rw [← hitems,List.filter_map]
    congr 1
    apply List.filter_congr
    intro row hrow
    rw [hkey row hrow]
    rfl
  rw [← hitem]
  apply Best.map
  apply hbest.of_order
  intro row hrow row' hrow' hlt
  rwa [hkey row (List.mem_of_mem_filter hrow),hkey row' (List.mem_of_mem_filter hrow')]

/-- Rows that reach the threshold, sorted by their score and cut, are the best by that score. -/
theorem best_of_scores {rows : List ρ} {similarity : ρ → Float} {item : ρ → α}
    (hsimilarity : ∀ row ∈ rows, similarity row = float (item row))
    (hitems : rows.map item = candidates.filter (minSimilarity ≤ float ·))
    (hnumbers : ∀ x ∈ candidates, (float x).isNaN = false) :
    Best (fun x => floatRank (float x)) limit (candidates.filter (minSimilarity ≤ float ·))
      (((rows.mergeSort fun a b => !decide (similarity a < similarity b)).take limit).map item) := by
  have hnumber {row : ρ} (hrow : row ∈ rows) : (float (item row)).isNaN = false := by
    have hmem : item row ∈ candidates.filter (minSimilarity ≤ float ·) := by
      rw [← hitems]
      exact List.mem_map_of_mem hrow
    exact hnumbers _ (List.mem_of_mem_filter hmem)
  rw [List.map_take,List.map_mergeSort (s := fun x y => floatRank (float x) ≥ floatRank (float y)),hitems]
  · exact (ranked_mergeSort _ _).best_take (List.mergeSort_perm _ _) limit
  · intro row hrow row' hrow'
    rw [hsimilarity row hrow,hsimilarity row' hrow',← decide_not,decide_eq_decide,
      float_lt_iff (hnumber hrow) (hnumber hrow'),not_lt]

theorem not_below_iff {threshold score : Float} (ht : threshold.isNaN = false) (hs : score.isNaN = false) :
    ¬ score < threshold ↔ threshold ≤ score := by
  rw [float_lt_iff hs ht,float_le_iff ht hs,not_lt]

end rankings
end VoxForge.Persistence
