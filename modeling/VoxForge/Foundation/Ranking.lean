import Mathlib.Data.List.Sort

/-! The best entries of a list by a score, and rankings that differ only in ties. -/
namespace VoxForge.Foundation
variable {α β γ : Type} [LinearOrder β] (score : α → β)

/-- Highest score first. -/
def Ranked (xs : List α) : Prop := xs.Pairwise fun a b => score b ≤ score a

/-- A ranking of the `n` best entries: what is left out scores no higher. -/
structure Best (n : Nat) (eligible result : List α) : Prop where
  ranked : Ranked score result
  length : result.length = min n eligible.length
  rest : ∃ left, (result ++ left).Perm eligible ∧ ∀ x ∈ result, ∀ y ∈ left, score y ≤ score x

/-- The same scores in the same order, and the same entries above the lowest score. -/
structure SameUpToTies (xs ys : List α) : Prop where
  scores : xs.map score = ys.map score
  above : ∀ s, (∃ x ∈ xs, score x < s) → (xs.filter (score · = s)).Perm (ys.filter (score · = s))

variable {score}

/-- A threshold cuts a ranking at some place, so it may be applied before or after a limit. -/
theorem Ranked.take_filter {xs : List α} (h : Ranked score xs) (t : β) (n : Nat) :
    (xs.take n).filter (t ≤ score ·) = (xs.filter (t ≤ score ·)).take n := by
  induction xs generalizing n with
  | nil => simp
  | cons x rest ih =>
    obtain ⟨hx,hrest⟩ := List.pairwise_cons.mp h
    cases n with
    | zero => simp
    | succ n =>
      by_cases ht : t ≤ score x
      · simp [ht,ih hrest n]
      · have hnone : rest.filter (t ≤ score ·) = [] := by
          apply List.filter_eq_nil_iff.mpr
          intro y hy hty
          exact ht ((of_decide_eq_true hty).trans (hx y hy))
        have htaken : (rest.take n).filter (t ≤ score ·) = [] := by rw [ih hrest n,hnone,List.take_nil]
        simp [ht,hnone,htaken]

theorem Ranked.filter {xs : List α} (h : Ranked score xs) (p : α → Bool) : Ranked score (xs.filter p) :=
  List.Pairwise.filter p h

theorem Ranked.best_take {xs eligible : List α} (h : Ranked score xs) (hperm : xs.Perm eligible) (n : Nat) :
    Best score n eligible (xs.take n) := by
  refine ⟨h.sublist (List.take_sublist n xs),?_,xs.drop n,?_,?_⟩
  · rw [List.length_take,hperm.length_eq]
  · rwa [List.take_append_drop]
  · have hsplit := h
    rw [Ranked,← List.take_append_drop n xs,List.pairwise_append] at hsplit
    exact hsplit.2.2

theorem pairwise_mergeSort_key (key : α → β) (xs : List α) :
    (xs.mergeSort (key · ≤ key ·)).Pairwise fun a b => key a ≤ key b := by
  have h : (xs.mergeSort (key · ≤ key ·)).Pairwise fun a b => decide (key a ≤ key b) = true := by
    apply List.pairwise_mergeSort
    · intro a b c hab hbc
      rw [decide_eq_true_eq] at *
      exact hab.trans hbc
    · intro a b
      simpa using le_total (key a) (key b)
  exact h.imp fun hab => of_decide_eq_true hab

theorem ranked_mergeSort (score : α → β) (xs : List α) : Ranked score (xs.mergeSort (score · ≥ score ·)) :=
  pairwise_mergeSort_key (β := βᵒᵈ) score xs

theorem Best.map {n : Nat} {f : γ → α} {eligible result : List γ} (h : Best (fun x => score (f x)) n eligible result) :
    Best score n (eligible.map f) (result.map f) := by
  obtain ⟨left,hperm,hleft⟩ := h.rest
  refine ⟨List.pairwise_map.mpr h.ranked,by simpa using h.length,left.map f,?_,?_⟩
  · rw [← List.map_append]
    exact hperm.map f
  · intro x hx y hy
    obtain ⟨a,ha,rfl⟩ := List.mem_map.mp hx
    obtain ⟨b,hb,rfl⟩ := List.mem_map.mp hy
    exact hleft a ha b hb

/-- The best by one score are the best by another that tells no more of the entries apart. -/
theorem Best.of_order {δ : Type} [LinearOrder δ] {score' : α → δ} {n : Nat} {eligible result : List α}
    (h : Best score' n eligible result)
    (horder : ∀ x ∈ eligible, ∀ y ∈ eligible, score x < score y → score' x < score' y) : Best score n eligible result := by
  obtain ⟨left,hperm,hleft⟩ := h.rest
  have hresult {x : α} (hx : x ∈ result) : x ∈ eligible := hperm.mem_iff.mp (List.mem_append_left left hx)
  have hle {x y : α} (hx : x ∈ eligible) (hy : y ∈ eligible) (hxy : score' y ≤ score' x) : score y ≤ score x :=
    not_lt.mp fun hlt => not_lt.mpr hxy (horder x hx y hy hlt)
  refine ⟨?_,h.length,left,hperm,fun x hx y hy => ?_⟩
  · exact h.ranked.imp_of_mem fun hx hy hxy => hle (hresult hx) (hresult hy) hxy
  · exact hle (hresult hx) (hperm.mem_iff.mp (List.mem_append_right result hy)) (hleft x hx y hy)

theorem Best.mem {n : Nat} {eligible result : List α} (h : Best score n eligible result) {x : α} (hx : x ∈ result) :
    x ∈ eligible := by
  obtain ⟨left,hperm,-⟩ := h.rest
  exact hperm.mem_iff.mp (List.mem_append_left left hx)

/-- Two best lists of the same entries have the same scores: those of all entries in
descending order, up to the limit. -/
theorem Best.scores_eq {n : Nat} {eligible xs ys : List α} (hx : Best score n eligible xs)
    (hy : Best score n eligible ys) : xs.map score = ys.map score := by
  have hsorted {zs : List α} (hz : Best score n eligible zs) :
      ∃ all : List β, all.Pairwise (· ≥ ·) ∧ all.Perm (eligible.map score) ∧
        zs.map score = all.take (min n eligible.length) := by
    obtain ⟨left,hperm,hleft⟩ := hz.rest
    have hsort := left.mergeSort_perm (score · ≥ score ·)
    refine ⟨(zs ++ left.mergeSort (score · ≥ score ·)).map score,?_,?_,?_⟩
    · rw [List.pairwise_map,List.pairwise_append]
      refine ⟨hz.ranked,ranked_mergeSort score left,fun x hx y hy => ?_⟩
      exact hleft x hx y (hsort.mem_iff.mp hy)
    · exact ((hsort.append_left zs).trans hperm).map score
    · rw [List.map_append,List.take_left' (by rw [List.length_map,hz.length])]
  obtain ⟨as,has,hpa,hxs⟩ := hsorted hx
  obtain ⟨bs,hbs,hpb,hys⟩ := hsorted hy
  rw [hxs,hys,List.Perm.eq_of_pairwise' has hbs (hpa.trans hpb.symm)]

/-- Entries above the lowest score of a best list are all in it. -/
theorem Best.above {n : Nat} {eligible xs : List α} (h : Best score n eligible xs) {s : β}
    (hs : ∃ x ∈ xs, score x < s) : (xs.filter (score · = s)).Perm (eligible.filter (score · = s)) := by
  obtain ⟨left,hperm,hleft⟩ := h.rest
  obtain ⟨x,hx,hlow⟩ := hs
  have hnone : left.filter (score · = s) = [] := by
    apply List.filter_eq_nil_iff.mpr
    intro y hy heq
    have hys : score y = s := of_decide_eq_true heq
    exact absurd (hleft x hx y hy) (not_le.mpr (hys ▸ hlow))
  have hfilter := hperm.filter (score · = s)
  rwa [List.filter_append,hnone,List.append_nil] at hfilter

theorem Best.sameUpToTies {n : Nat} {eligible xs ys : List α} (hx : Best score n eligible xs)
    (hy : Best score n eligible ys) : SameUpToTies score xs ys := by
  have hscores := hx.scores_eq hy
  refine ⟨hscores,fun s hs => ?_⟩
  have hs' : ∃ y ∈ ys, score y < s := by
    obtain ⟨x,hx,hlow⟩ := hs
    obtain ⟨y,hy,heq⟩ := List.mem_map.mp (hscores ▸ List.mem_map_of_mem hx)
    exact ⟨y,hy,heq ▸ hlow⟩
  exact (hx.above hs).trans (hy.above hs').symm

/-- A sort that keeps the order of ties: entries with equal keys are as they were, so what
related every entry to the later ones still relates them. -/
theorem pairwise_mergeSort_stable {R : α → α → Prop} (key : α → β) {xs : List α} (h : xs.Pairwise R) :
    (xs.mergeSort (key · ≤ key ·)).Pairwise fun a b => key a < key b ∨ key a = key b ∧ R a b := by
  have hle : (xs.zipIdx.mergeSort (List.zipIdxLE (key · ≤ key ·))).Pairwise fun a b =>
      List.zipIdxLE (key · ≤ key ·) a b = true := by
    apply List.pairwise_mergeSort
    · refine List.zipIdxLE_trans fun a b c hab hbc => ?_
      rw [decide_eq_true_eq] at *
      exact hab.trans hbc
    · exact List.zipIdxLE_total fun a b => by simpa using le_total (key a) (key b)
  have hperm := xs.zipIdx.mergeSort_perm (List.zipIdxLE (key · ≤ key ·))
  have hdistinct : (xs.zipIdx.mergeSort (List.zipIdxLE (key · ≤ key ·))).Pairwise fun a b => a.2 ≠ b.2 := by
    refine List.pairwise_map.mp ((hperm.map Prod.snd).nodup_iff.mpr ?_)
    rw [List.zipIdx_map_snd]
    exact List.nodup_range'
  rw [← List.mergeSort_zipIdx,List.pairwise_map]
  refine (hle.and hdistinct).imp_of_mem fun {a b} ha hb ⟨hab,hne⟩ => ?_
  unfold List.zipIdxLE at hab
  split_ifs at hab with hba hback
  · have hbefore : a.2 < b.2 := Nat.lt_of_le_of_ne (of_decide_eq_true hab) hne
    have hkey := le_antisymm (of_decide_eq_true hba) (of_decide_eq_true hback)
    obtain ⟨hi,hx⟩ := List.getElem?_eq_some_iff.mp (List.mem_zipIdx_iff_getElem?.mp (hperm.mem_iff.mp ha))
    obtain ⟨hj,hy⟩ := List.getElem?_eq_some_iff.mp (List.mem_zipIdx_iff_getElem?.mp (hperm.mem_iff.mp hb))
    refine .inr ⟨hkey,?_⟩
    rw [← hx,← hy]
    exact List.pairwise_iff_getElem.mp h a.2 b.2 hi hj hbefore
  · exact .inl (lt_of_not_ge fun hge => hback (decide_eq_true hge))

/-- If enough entries score at least as much, so do all that a limit keeps. -/
theorem Ranked.take_all {xs : List α} (h : Ranked score xs) {t : β} {n : Nat}
    (hn : n ≤ (xs.filter (t ≤ score ·)).length) : ∀ x ∈ xs.take n, t ≤ score x := by
  have hkept : ((xs.take n).filter (t ≤ score ·)).length = n := by
    rw [h.take_filter,List.length_take,Nat.min_eq_left hn]
  have hall : (xs.take n).filter (t ≤ score ·) = xs.take n := by
    refine List.filter_sublist.eq_of_length_le ?_
    rw [hkept]
    exact List.length_take_le n xs
  intro x hx
  exact of_decide_eq_true (List.filter_eq_self.mp hall x hx)

/-- What the best of several lists leave out, with a full list that beats each entry of it. -/
theorem Best.lefts {n : Nat} {parts : List (List α × List α)} (h : ∀ p ∈ parts, Best score n p.1 p.2) :
    ∃ left, (parts.flatMap Prod.snd ++ left).Perm (parts.flatMap Prod.fst) ∧
      ∀ y ∈ left, ∃ p ∈ parts, p.2.length = n ∧ ∀ x ∈ p.2, score y ≤ score x := by
  induction parts with
  | nil => exact ⟨[],List.Perm.refl _,fun y hy => by cases hy⟩
  | cons p rest ih =>
    obtain ⟨left,hperm,hbeaten⟩ := ih fun q hq => h q (List.mem_cons_of_mem p hq)
    have hp := h p (List.mem_cons_self ..)
    obtain ⟨own,hown,hlow⟩ := hp.rest
    refine ⟨own ++ left,?_,fun y hy => ?_⟩
    · rw [List.flatMap_cons,List.flatMap_cons,List.append_assoc,← List.append_assoc _ own left]
      refine ((List.perm_append_comm.append_right left).append_left p.2).trans ?_
      rw [List.append_assoc,← List.append_assoc p.2]
      exact hown.append hperm
    · rcases List.mem_append.mp hy with hmine | hother
      · refine ⟨p,List.mem_cons_self ..,?_,fun x hx => hlow x hx y hmine⟩
        have hsplit := hown.length_eq
        have hpos : 0 < own.length := List.length_pos_of_mem hmine
        have hlength := hp.length
        rw [List.length_append] at hsplit
        omega
      · obtain ⟨q,hq,hfull⟩ := hbeaten y hother
        exact ⟨q,List.mem_cons_of_mem p hq,hfull⟩

theorem Best.length_flatMap {n : Nat} {parts : List (List α × List α)} (h : ∀ p ∈ parts, Best score n p.1 p.2) :
    min n (parts.flatMap Prod.snd).length = min n (parts.flatMap Prod.fst).length := by
  induction parts with
  | nil => rfl
  | cons p rest ih =>
    have hrest := ih fun q hq => h q (List.mem_cons_of_mem p hq)
    have hlength := (h p (List.mem_cons_self ..)).length
    rw [List.flatMap_cons,List.flatMap_cons,List.length_append,List.length_append]
    omega

/-- Of several lists cut to their best entries, the best are the best of all of them. -/
theorem Best.merge {n : Nat} {parts : List (List α × List α)} (h : ∀ p ∈ parts, Best score n p.1 p.2)
    {merged : List α} (hperm : merged.Perm (parts.flatMap Prod.snd)) (hranked : Ranked score merged) :
    Best score n (parts.flatMap Prod.fst) (merged.take n) := by
  obtain ⟨left,hall,hbeaten⟩ := Best.lefts h
  refine ⟨hranked.sublist (List.take_sublist n merged),?_,merged.drop n ++ left,?_,?_⟩
  · rw [List.length_take,hperm.length_eq,Best.length_flatMap h]
  · rw [← List.append_assoc,List.take_append_drop]
    exact (hperm.append_right left).trans hall
  · intro x hx y hy
    rcases List.mem_append.mp hy with hdropped | hleft
    · have hsplit := hranked
      rw [Ranked,← List.take_append_drop n merged,List.pairwise_append] at hsplit
      exact hsplit.2.2 x hx y hdropped
    · obtain ⟨p,hp,hfull,hbeats⟩ := hbeaten y hleft
      refine hranked.take_all ?_ x hx
      have hkept : p.2.filter (score y ≤ score ·) = p.2 :=
        List.filter_eq_self.mpr fun z hz => decide_eq_true (hbeats z hz)
      have hsub : p.2.Sublist (parts.flatMap Prod.snd) := by
        rw [List.flatMap_def]
        exact List.sublist_flatten_of_mem (List.mem_map_of_mem hp)
      calc n = (p.2.filter (score y ≤ score ·)).length := by rw [hkept,hfull]
        _ ≤ ((parts.flatMap Prod.snd).filter (score y ≤ score ·)).length := (hsub.filter _).length_le
        _ = (merged.filter (score y ≤ score ·)).length := (hperm.filter _).length_eq.symm

/-- A sort by a key that leaves the order of ties open. -/
structure Sorter where
  sortBy : {α β : Type} → [LinearOrder β] → (α → β) → List α → List α
  perm : ∀ {α β : Type} [LinearOrder β] (key : α → β) (xs : List α), (sortBy key xs).Perm xs
  sorted : ∀ {α β : Type} [LinearOrder β] (key : α → β) (xs : List α),
    (sortBy key xs).Pairwise fun a b => key a ≤ key b

namespace Sorter

/-- The sort that keeps ties as they are. -/
def stable : Sorter where
  sortBy key xs := xs.mergeSort (key · ≤ key ·)
  perm _ xs := xs.mergeSort_perm _
  sorted := pairwise_mergeSort_key

/-- The latest entries first, cut to a limit. -/
def latest (sorter : Sorter) (score : α → β) (n : Nat) (xs : List α) : List α :=
  (sorter.sortBy (β := βᵒᵈ) score xs).take n

theorem best_latest (sorter : Sorter) (score : α → β) (n : Nat) (xs : List α) :
    Best score n xs (sorter.latest score n xs) := by
  have hranked : Ranked score (sorter.sortBy (β := βᵒᵈ) score xs) := sorter.sorted (β := βᵒᵈ) score xs
  exact hranked.best_take (sorter.perm (β := βᵒᵈ) score xs) n

end Sorter

/-- Lists of one rank each, one after another, are in the order of the ranks. -/
theorem pairwise_flatten_rank {rank : α → Nat} {parts : List (List α)} {k : Nat}
    (h : ∀ part ∈ parts.zipIdx k, ∀ x ∈ part.1, rank x = part.2) :
    (parts.flatten.Pairwise fun a b => rank a ≤ rank b) ∧ ∀ x ∈ parts.flatten, k ≤ rank x := by
  induction parts generalizing k with
  | nil => exact ⟨List.Pairwise.nil,fun x hx => by cases hx⟩
  | cons part rest ih =>
    rw [List.zipIdx_cons] at h
    obtain ⟨hsorted,habove⟩ := ih fun p hp => h p (List.mem_cons_of_mem _ hp)
    have hown : ∀ x ∈ part, rank x = k := h (part,k) (List.mem_cons_self ..)
    rw [List.flatten_cons]
    constructor
    · refine List.pairwise_append.mpr ⟨List.pairwise_of_forall_mem_list fun a ha b hb => ?_,hsorted,?_⟩
      · rw [hown a ha,hown b hb]
      · intro a ha b hb
        have hb' := habove b hb
        rw [hown a ha]
        omega
    · intro x hx
      rcases List.mem_append.mp hx with hmine | hlater
      · exact (hown x hmine).ge
      · exact Nat.le_of_succ_le (habove x hlater)

end VoxForge.Foundation
