import Mathlib.Data.Finset.Sort
import Mathlib.Data.List.Sort
import VoxForge.Foundation.Fallible
import VoxForge.Foundation.Dict
import VoxForge.Foundation.Rows
import VoxForge.Knowledge.Ingestion

/-! `compute_chunk_diff` in whatever order a set is walked: the lists are a script that turns
the stored chunks into the new ones. -/
namespace VoxForge.Knowledge.Citation
open Foundation

/-- An order to walk sets in. -/
structure Walk (ι : Type) where
  order : Finset ι → List ι
  nodup : ∀ s, (order s).Nodup
  mem_order : ∀ s i, i ∈ order s ↔ i ∈ s

variable {ι η : Type} [LinearOrder ι]

/-- The names of a list first, each where it last stands, and what else there is in order. -/
def Walk.along (names : List ι) : Walk ι where
  order s := names.dedup.filter (· ∈ s) ++ (s \ names.toFinset).sort (· ≤ ·)
  nodup s := by
    refine List.nodup_append'.mpr ⟨names.nodup_dedup.filter _,Finset.sort_nodup ..,fun i hin hout => ?_⟩
    exact (Finset.mem_sdiff.mp ((Finset.mem_sort _).mp hout)).2
      (List.mem_toFinset.mpr (List.mem_dedup.mp (List.mem_filter.mp hin).1))
  mem_order s i := by
    by_cases hi : i ∈ names <;> simp [hi]

theorem Walk.order_along {names : List ι} {s : Finset ι} (h : s ⊆ names.toFinset) :
    (Walk.along names).order s = names.dedup.filter (· ∈ s) := by
  change _ ++ (s \ names.toFinset).sort (· ≤ ·) = _
  rw [Finset.sdiff_eq_empty_iff_subset.mpr h,Finset.sort_empty,List.append_nil]

def indices (hashes : Dict ι η) : Finset ι := (hashes.entries.map Prod.fst).toFinset

/-- `dict(new_chunks)`. -/
def byIndex (newChunks : List (ι × η)) : Dict ι η := Dict.setAll Prod.fst Prod.snd .empty newChunks

@[simp] theorem mem_indices {hashes : Dict ι η} {i : ι} : i ∈ indices hashes ↔ ∃ h, hashes.get? i = some h := by
  simp [indices,Dict.get?_eq_some_iff]

theorem indices_byIndex (newChunks : List (ι × η)) :
    indices (byIndex newChunks) = (newChunks.map Prod.fst).toFinset := by
  ext i
  rw [mem_indices,← Option.isSome_iff_exists,byIndex,Dict.isSome_get?_setAll,List.mem_toFinset]
  simp

theorem get?_byIndex {newChunks : List (ι × η)} (hn : (newChunks.map Prod.fst).Nodup) (i : ι) (h : η) :
    (byIndex newChunks).get? i = some h ↔ (i,h) ∈ newChunks := by
  rw [byIndex,Dict.get?_setAll_pairs hn]
  simp

def removedIndices (existingHashes newByIndex : Dict ι η) : List ι :=
  (indices existingHashes \ indices newByIndex).sort (· ≤ ·)

@[simp] theorem mem_removedIndices (existingHashes newByIndex : Dict ι η) (i : ι) :
    i ∈ removedIndices existingHashes newByIndex ↔
      (∃ h, existingHashes.get? i = some h) ∧ newByIndex.get? i = none := by
  simp [removedIndices,Option.eq_none_iff_forall_ne_some]

/-- `hashes[i]`, which raises for an index that is not there. -/
def getItem (hashes : Dict ι η) (i : ι) : Except ι η := (hashes.get? i).elim (.error i) .ok

variable [DecidableEq η]

def sameHash (existingHashes newByIndex : Dict ι η) (i : ι) : Except ι Bool := do
  let stored ← getItem existingHashes i
  let new ← getItem newByIndex i
  return decide (stored = new)

/-- A round of the second loop. -/
def reclassify (existingHashes newByIndex : Dict ι η) (changedOrNew : List ι) (i : ι) : Except ι (List ι) := do
  let same ← sameHash existingHashes newByIndex i
  return if !same && i ∉ changedOrNew then changedOrNew ++ [i] else changedOrNew

/-- The unchanged, the changed or new, and the removed indices. -/
def computeChunkDiff (walk : Walk ι) (existingHashes : Dict ι η) (newChunks : List (ι × η)) :
    Except ι (List ι × List ι × List ι) := do
  let newByIndex := byIndex newChunks
  let newIndices := indices newByIndex
  let oldIndices := indices existingHashes
  let unchanged ← (walk.order (newIndices ∩ oldIndices)).filterM (sameHash existingHashes newByIndex)
  let changedOrNew := (newIndices \ unchanged.toFinset).sort (· ≤ ·)
  let removed := (oldIndices \ newIndices).sort (· ≤ ·)
  let changedOrNew ←
    (walk.order (newIndices ∩ oldIndices)).foldlM (reclassify existingHashes newByIndex) changedOrNew
  return (unchanged,changedOrNew.insertionSort (· ≤ ·),removed)

section diff
variable (walk : Walk ι) (existingHashes newByIndex : Dict ι η)

/-- The indices on both sides whose hash has not changed. -/
def unchangedIndices : List ι :=
  (walk.order (indices newByIndex ∩ indices existingHashes)).filter fun i =>
    existingHashes.get? i = newByIndex.get? i

def changedIndices : List ι :=
  (indices newByIndex \ (unchangedIndices walk existingHashes newByIndex).toFinset).sort (· ≤ ·)

/-- No look-up of an index on both sides raises. -/
theorem sameHash_ok {i : ι} (hi : i ∈ walk.order (indices newByIndex ∩ indices existingHashes)) :
    sameHash existingHashes newByIndex i = .ok (decide (existingHashes.get? i = newByIndex.get? i)) := by
  rw [walk.mem_order,Finset.mem_inter,mem_indices,mem_indices] at hi
  obtain ⟨⟨new,hnew⟩,stored,hstored⟩ := hi
  simp only [sameHash,getItem,hnew,hstored,Option.some.injEq]
  rfl

@[simp] theorem mem_unchangedIndices (i : ι) :
    i ∈ unchangedIndices walk existingHashes newByIndex ↔
      ∃ h, existingHashes.get? i = some h ∧ newByIndex.get? i = some h := by
  simp only [unchangedIndices,List.mem_filter,walk.mem_order,Finset.mem_inter,mem_indices,decide_eq_true_eq]
  constructor
  · rintro ⟨⟨⟨new,hnew⟩,-⟩,heq⟩
    exact ⟨new,heq.trans hnew,hnew⟩
  · rintro ⟨h,hstored,hnew⟩
    exact ⟨⟨⟨h,hnew⟩,h,hstored⟩,hstored.trans hnew.symm⟩

@[simp] theorem mem_changedIndices (i : ι) :
    i ∈ changedIndices walk existingHashes newByIndex ↔
      ∃ h, newByIndex.get? i = some h ∧ existingHashes.get? i ≠ some h := by
  simp only [changedIndices,Finset.mem_sort,Finset.mem_sdiff,mem_indices,List.mem_toFinset,mem_unchangedIndices]
  constructor
  · rintro ⟨⟨h,hnew⟩,hdiffers⟩
    exact ⟨h,hnew,fun hstored => hdiffers ⟨h,hstored,hnew⟩⟩
  · rintro ⟨h,hnew,hdiffers⟩
    refine ⟨⟨h,hnew⟩,?_⟩
    rintro ⟨h',hstored,hnew'⟩
    exact hdiffers (hstored.trans (hnew'.symm.trans hnew))

/-- The second loop has nothing to add: what differs is among the changed indices already. -/
theorem reclassify_ok {i : ι} (hi : i ∈ walk.order (indices newByIndex ∩ indices existingHashes)) :
    reclassify existingHashes newByIndex (changedIndices walk existingHashes newByIndex) i =
      .ok (changedIndices walk existingHashes newByIndex) := by
  have hsame := sameHash_ok walk existingHashes newByIndex hi
  rw [walk.mem_order,Finset.mem_inter,mem_indices] at hi
  obtain ⟨⟨new,hnew⟩,-⟩ := hi
  rw [reclassify,hsame]
  by_cases heq : existingHashes.get? i = newByIndex.get? i
  · simp only [heq,decide_true]
    rfl
  · have hin : i ∈ changedIndices walk existingHashes newByIndex :=
      (mem_changedIndices ..).mpr ⟨new,hnew,fun hstored => heq (hstored.trans hnew.symm)⟩
    simp only [hin,not_true_eq_false,decide_false,Bool.and_false]
    rfl

end diff

/-- The lists, with no fault on the way. -/
theorem computeChunkDiff_eq (walk : Walk ι) (existingHashes : Dict ι η) (newChunks : List (ι × η)) :
    computeChunkDiff walk existingHashes newChunks =
      .ok (unchangedIndices walk existingHashes (byIndex newChunks),
        changedIndices walk existingHashes (byIndex newChunks),
        removedIndices existingHashes (byIndex newChunks)) := by
  have hkept := filterM_ok_of_forall fun i hi => sameHash_ok walk existingHashes (byIndex newChunks) (i := i) hi
  have hloop := foldlM_ok_of_forall fun i hi => reclassify_ok walk existingHashes (byIndex newChunks) (i := i) hi
  have hsorted : (changedIndices walk existingHashes (byIndex newChunks)).insertionSort (· ≤ ·) =
      changedIndices walk existingHashes (byIndex newChunks) :=
    List.Pairwise.insertionSort_eq (Finset.pairwise_sort _ _)
  simp only [computeChunkDiff,bind_eq_ok]
  exact ⟨_,hkept,_,hloop,by rw [hsorted]; rfl⟩

/-- The stored chunks without the removed ones, with the changed ones put in. -/
def applyDiff (existingHashes : Dict ι η) (newChunks : List (ι × η)) (changedOrNew removed : List ι) : Dict ι η :=
  Dict.setAll Prod.fst Prod.snd (existingHashes.popWhere (· ∈ removed)) (newChunks.filter (·.1 ∈ changedOrNew))

/-- Three lists that part the indices of both sides, and a script from one side to the other. -/
structure EditScript (existingHashes : Dict ι η) (newChunks : List (ι × η))
    (unchanged changedOrNew removed : List ι) : Prop where
  nodup : (unchanged ++ changedOrNew ++ removed).Nodup
  union : ∀ i, i ∈ unchanged ++ changedOrNew ++ removed ↔
    (existingHashes.get? i).isSome ∨ i ∈ newChunks.map Prod.fst
  mem_unchanged : ∀ i, i ∈ unchanged ↔ ∃ h, existingHashes.get? i = some h ∧ (i,h) ∈ newChunks
  mem_changedOrNew : ∀ i, i ∈ changedOrNew ↔ ∃ h, (i,h) ∈ newChunks ∧ existingHashes.get? i ≠ some h
  mem_removed : ∀ i, i ∈ removed ↔ (existingHashes.get? i).isSome ∧ i ∉ newChunks.map Prod.fst
  applied : ∀ i h, (applyDiff existingHashes newChunks changedOrNew removed).get? i = some h ↔ (i,h) ∈ newChunks

section script
variable (walk : Walk ι) (existingHashes newByIndex : Dict ι η)

theorem diff_nodup :
    (unchangedIndices walk existingHashes newByIndex ++ changedIndices walk existingHashes newByIndex ++
      removedIndices existingHashes newByIndex).Nodup := by
  refine List.nodup_append'.mpr ⟨List.nodup_append'.mpr ⟨(walk.nodup _).filter _,Finset.sort_nodup ..,?_⟩,
    Finset.sort_nodup ..,?_⟩
  · intro i hsame hchanged
    obtain ⟨h,hstored,hnew⟩ := (mem_unchangedIndices ..).mp hsame
    obtain ⟨h',hnew',hdiffers⟩ := (mem_changedIndices ..).mp hchanged
    exact hdiffers (hstored.trans (hnew.symm.trans hnew'))
  · intro i hin hremoved
    have hnone := ((mem_removedIndices ..).mp hremoved).2
    rcases List.mem_append.mp hin with hin | hin
    · obtain ⟨h,-,hnew⟩ := (mem_unchangedIndices ..).mp hin
      exact absurd hnew (by simp [hnone])
    · obtain ⟨h,hnew,-⟩ := (mem_changedIndices ..).mp hin
      exact absurd hnew (by simp [hnone])

theorem mem_diff (i : ι) :
    i ∈ unchangedIndices walk existingHashes newByIndex ++ changedIndices walk existingHashes newByIndex ++
      removedIndices existingHashes newByIndex ↔
    (existingHashes.get? i).isSome ∨ (newByIndex.get? i).isSome := by
  simp only [List.mem_append,mem_unchangedIndices,mem_changedIndices,mem_removedIndices]
  cases hstored : existingHashes.get? i with
  | none => cases hnew : newByIndex.get? i <;> simp
  | some h =>
    cases hnew : newByIndex.get? i with
    | none => simp
    | some h' => simpa using (eq_or_ne h h').imp_left Eq.symm

end script

/-- Lists of the right indices are a script: a new pair is put in if its index is in the
script, and was there already if it is not. -/
theorem get?_applyDiff {existingHashes : Dict ι η} {newChunks : List (ι × η)} {changedOrNew removed : List ι}
    (hn : (newChunks.map Prod.fst).Nodup)
    (hchanged : ∀ i, i ∈ changedOrNew ↔ ∃ h, (i,h) ∈ newChunks ∧ existingHashes.get? i ≠ some h)
    (hremoved : ∀ i, i ∈ removed ↔ (existingHashes.get? i).isSome ∧ i ∉ newChunks.map Prod.fst) (i : ι) (h : η) :
    (applyDiff existingHashes newChunks changedOrNew removed).get? i = some h ↔ (i,h) ∈ newChunks := by
  have hpicked := hn.sublist ((List.filter_sublist (p := fun e => decide (e.1 ∈ changedOrNew))).map Prod.fst)
  have hnames : i ∈ (newChunks.filter (·.1 ∈ changedOrNew)).map Prod.fst ↔ i ∈ changedOrNew := by
    constructor
    · intro hin
      obtain ⟨e,he,rfl⟩ := List.mem_map.mp hin
      exact of_decide_eq_true (List.mem_filter.mp he).2
    · intro hin
      obtain ⟨h',hnew,-⟩ := (hchanged i).mp hin
      exact List.mem_map.mpr ⟨(i,h'),List.mem_filter.mpr ⟨hnew,decide_eq_true hin⟩,rfl⟩
  rw [applyDiff,Dict.get?_setAll_pairs hpicked,Dict.get?_popWhere,hnames,List.mem_filter]
  by_cases hin : i ∈ changedOrNew
  · simp [hin]
  · have hkept : ∀ h', (i,h') ∈ newChunks → existingHashes.get? i = some h' := fun h' hnew => by
      by_contra hdiffers
      exact hin ((hchanged i).mpr ⟨h',hnew,hdiffers⟩)
    simp only [hin,decide_false,Bool.false_eq_true,and_false,false_or,not_false_eq_true,true_and,
      decide_eq_true_eq]
    constructor
    · intro hget
      split_ifs at hget with hgone
      have hname : i ∈ newChunks.map Prod.fst := by
        by_contra hout
        exact hgone ((hremoved i).mpr ⟨Option.isSome_iff_exists.mpr ⟨h,hget⟩,hout⟩)
      obtain ⟨e,he,rfl⟩ := List.mem_map.mp hname
      obtain rfl : e.2 = h := Option.some.inj ((hkept e.2 he).symm.trans hget)
      exact he
    · intro hnew
      have hstays : i ∉ removed := fun hgone =>
        ((hremoved i).mp hgone).2 (List.mem_map_of_mem (f := Prod.fst) hnew)
      rw [if_neg hstays,hkept h hnew]

theorem diff_editScript (walk : Walk ι) (existingHashes : Dict ι η) {newChunks : List (ι × η)}
    (hn : (newChunks.map Prod.fst).Nodup) :
    EditScript existingHashes newChunks (unchangedIndices walk existingHashes (byIndex newChunks))
      (changedIndices walk existingHashes (byIndex newChunks))
      (removedIndices existingHashes (byIndex newChunks)) := by
  have hnames : ∀ i, ((byIndex newChunks).get? i).isSome ↔ i ∈ newChunks.map Prod.fst := fun i => by
    simp [byIndex,Dict.isSome_get?_setAll]
  have hchanged : ∀ i, i ∈ changedIndices walk existingHashes (byIndex newChunks) ↔
      ∃ h, (i,h) ∈ newChunks ∧ existingHashes.get? i ≠ some h := fun i => by
    simp only [mem_changedIndices,get?_byIndex hn]
  have hremoved : ∀ i, i ∈ removedIndices existingHashes (byIndex newChunks) ↔
      (existingHashes.get? i).isSome ∧ i ∉ newChunks.map Prod.fst := fun i => by
    rw [mem_removedIndices,← hnames,Option.isSome_iff_exists,Option.not_isSome_iff_eq_none]
  exact {
    nodup := diff_nodup walk existingHashes (byIndex newChunks)
    union i := by rw [mem_diff,hnames]
    mem_unchanged i := by simp only [mem_unchangedIndices,get?_byIndex hn]
    mem_changedOrNew := hchanged
    mem_removed := hremoved
    applied := get?_applyDiff hn hchanged hremoved }

/-- The diff comes back, and is a script from the stored chunks to the new ones. -/
theorem chunk_diff_script (walk : Walk ι) (existingHashes : Dict ι η) (newChunks : List (ι × η))
    (hn : (newChunks.map Prod.fst).Nodup) :
    ∃ unchanged changedOrNew removed,
      computeChunkDiff walk existingHashes newChunks = .ok (unchanged,changedOrNew,removed) ∧
        EditScript existingHashes newChunks unchanged changedOrNew removed :=
  ⟨_,_,_,computeChunkDiff_eq walk existingHashes newChunks,diff_editScript walk existingHashes hn⟩

theorem chunk_diff_script_revised :
    ∃ unchanged changedOrNew removed,
      computeChunkDiff (.along []) (byIndex [((0 : Int),"a"),(1,"b"),(2,"c")]) [(3,"d"),(0,"a"),(1,"x")] =
          .ok (unchanged,changedOrNew,removed) ∧
        EditScript (byIndex [((0 : Int),"a"),(1,"b"),(2,"c")]) [(3,"d"),(0,"a"),(1,"x")]
          unchanged changedOrNew removed :=
  chunk_diff_script _ _ _ (by decide)

theorem sort_eq_insertionSort {s : Finset ι} {l : List ι} (hn : l.Nodup) (h : ∀ i, i ∈ l ↔ i ∈ s) :
    s.sort (· ≤ ·) = l.insertionSort (· ≤ ·) := by
  have hset : (l.insertionSort (· ≤ ·)).toFinset = s := by
    ext i
    rw [List.mem_toFinset,List.mem_insertionSort,h]
  rw [← hset]
  exact (List.toFinset_sort (· ≤ ·) ((List.perm_insertionSort _ l).nodup_iff.mpr hn)).mpr
    (List.pairwise_insertionSort _ l)

/-- What ingestion runs is the diff with its sets walked along the new chunks. -/
theorem computeChunkDiff_along (existingHashes : Dict Nat String) (newChunks : List (Nat × String)) :
    computeChunkDiff (.along (newChunks.map Prod.fst)) existingHashes newChunks =
      .ok (Knowledge.computeChunkDiff existingHashes.entries newChunks) := by
  have hkeys : (existingHashes.entries.reverse.map Prod.fst).Nodup := by
    rw [List.map_reverse]
    exact List.nodup_reverse.mpr existingHashes.nodup
  have hold : ∀ i, (existingHashes.entries.reverse.find? (·.1 = i)).map Prod.snd = existingHashes.get? i :=
    fun i => congrArg _ (find?_perm (List.reverse_perm _) hkeys i)
  have hnew : ∀ i, (newChunks.reverse.find? (·.1 = i)).map Prod.snd = (byIndex newChunks).get? i := fun i => by
    rw [byIndex,Dict.get?_setAll,Dict.get?_empty,Option.or_none]
  have hunchanged : unchangedIndices (.along (newChunks.map Prod.fst)) existingHashes (byIndex newChunks) =
      (newChunks.map Prod.fst).dedup.filter fun i =>
        i ∈ (existingHashes.entries.map Prod.fst).dedup &&
          decide (existingHashes.get? i = (byIndex newChunks).get? i) := by
    have hnames : indices (byIndex newChunks) ∩ indices existingHashes ⊆ (newChunks.map Prod.fst).toFinset := by
      rw [← indices_byIndex]
      exact Finset.inter_subset_left
    rw [unchangedIndices,Walk.order_along hnames,List.filter_filter]
    refine List.filter_congr fun i hi => ?_
    have hin : i ∈ indices (byIndex newChunks) := by
      rw [indices_byIndex]
      exact List.mem_toFinset.mpr (List.mem_dedup.mp hi)
    have hboth : i ∈ indices (byIndex newChunks) ∩ indices existingHashes ↔
        i ∈ (existingHashes.entries.map Prod.fst).dedup := by
      rw [Finset.mem_inter,List.mem_dedup,indices,indices,List.mem_toFinset,List.mem_toFinset]
      exact and_iff_right (List.mem_toFinset.mp hin)
    simp only [hboth,Bool.and_comm]
  rw [computeChunkDiff_eq]
  simp only [Knowledge.computeChunkDiff,hold,hnew,← hunchanged,Except.ok.injEq,Prod.mk.injEq,true_and]
  constructor
  · exact sort_eq_insertionSort ((List.nodup_dedup _).filter _) fun i => by
      rw [indices_byIndex]
      simp only [List.mem_filter,List.mem_dedup,decide_eq_true_eq,Finset.mem_sdiff,List.mem_toFinset]
  · exact sort_eq_insertionSort ((List.nodup_dedup _).filter _) fun i => by
      rw [indices_byIndex]
      simp only [indices,List.mem_filter,List.mem_dedup,decide_eq_true_eq,Finset.mem_sdiff,List.mem_toFinset]

/-- What ingestion deletes and inserts is such a script. -/
theorem ingestion_editScript (existingHashes : Dict Nat String) {newChunks : List (Nat × String)}
    (hn : (newChunks.map Prod.fst).Nodup) {unchanged changedOrNew removed : List Nat}
    (h : Knowledge.computeChunkDiff existingHashes.entries newChunks = (unchanged,changedOrNew,removed)) :
    EditScript existingHashes newChunks unchanged changedOrNew removed := by
  have hdiff := computeChunkDiff_along existingHashes newChunks
  rw [computeChunkDiff_eq,h,Except.ok.injEq,Prod.mk.injEq,Prod.mk.injEq] at hdiff
  obtain ⟨rfl,rfl,rfl⟩ := hdiff
  exact diff_editScript _ existingHashes hn

end VoxForge.Knowledge.Citation
