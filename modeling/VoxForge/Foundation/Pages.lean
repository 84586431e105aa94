import Mathlib.Algebra.GroupWithZero.Nat
import Mathlib.Data.List.Infix
import Mathlib.Data.List.Nodup

/-! A page of a list that grows at its end, and what it takes for the page to be recent. -/
namespace VoxForge.Foundation
variable {α : Type} {page rows : List α}

/-- The page holds the newest rows in their order, and some if there are any. -/
structure Recent (page rows : List α) : Prop where
  suffix : page <:+ rows
  some : rows ≠ [] → page ≠ []

theorem Recent.refl (rows : List α) : Recent rows rows := ⟨List.suffix_rfl,id⟩

/-- Of distinct rows, only all of them are at both ends. -/
theorem eq_of_prefix_of_suffix (hrows : rows.Nodup) (hpage : page ≠ []) (hp : page <+: rows)
    (hs : page <:+ rows) : page = rows := by
  obtain ⟨before,hbefore⟩ := hs
  cases before with
  | nil => exact hbefore
  | cons first before =>
    cases page with
    | nil => exact absurd rfl hpage
    | cons a page =>
      obtain ⟨rest,hrest⟩ := hp
      have hhead : first = a := by
        rw [← hbefore] at hrest
        exact (List.cons.inj hrest).1.symm
      rw [← hbefore,hhead,List.cons_append,List.nodup_cons] at hrows
      exact absurd (List.mem_append_right before (List.mem_cons_self ..)) hrows.1

theorem recent_take_iff {n : Nat} (hrows : rows.Nodup) :
    Recent (rows.take n) rows ↔ rows.length ≤ n := by
  constructor
  · intro h
    by_cases hempty : rows = []
    · rw [hempty]
      exact Nat.zero_le n
    · have heq := eq_of_prefix_of_suffix hrows (h.some hempty) (List.take_prefix n rows) h.suffix
      rw [← heq]
      exact List.length_take_le n rows
  · intro h
    rw [List.take_of_length_le h]
    exact .refl rows

/-- A page from the front that holds the last row holds all. -/
theorem take_eq_of_newest {n : Nat} (hrows : rows.Nodup) (h : ∀ e ∈ rows.getLast?, e ∈ rows.take n) :
    rows.take n = rows := by
  by_cases hdrop : rows.drop n = []
  · exact List.take_of_length_le (List.drop_eq_nil_iff.mp hdrop)
  · have hlast : rows.getLast? = some ((rows.drop n).getLast hdrop) := by
      have happend : (rows.take n ++ rows.drop n).getLast? = _ := List.getLast?_append
      rw [List.take_append_drop,List.getLast?_eq_getLast_of_ne_nil hdrop] at happend
      exact happend
    have hdisjoint := List.disjoint_take_drop hrows (Nat.le_refl n)
    exact absurd (List.getLast_mem hdrop) (hdisjoint (h _ hlast))

/-- In an order of their own, rows of one list that begin another begin both. -/
theorem eq_of_prefix_of_recent {key : α → Nat} {kept : List α} (hrows : rows.Pairwise (key · < key ·))
    (hkept : kept.Pairwise (key · < key ·)) (hfirst : ∀ e ∈ kept.head?, e ∈ rows) (hp : page <+: rows)
    (h : Recent page kept) : page = kept := by
  obtain ⟨before,hbefore⟩ := h.suffix
  cases before with
  | nil => exact hbefore
  | cons first before =>
    have hpage : page ≠ [] := h.some (by rw [← hbefore]; simp)
    cases page with
    | nil => exact absurd rfl hpage
    | cons a page =>
      obtain ⟨rest,hrest⟩ := hp
      have hlt : key first < key a := by
        rw [← hbefore,List.cons_append,List.pairwise_cons] at hkept
        exact hkept.1 a (List.mem_append_right before (List.mem_cons_self ..))
      have hmem : first ∈ rows := hfirst first (by rw [← hbefore]; rfl)
      have hle : key a ≤ key first := by
        rw [← hrest,List.cons_append,List.pairwise_cons] at hrows
        rw [← hrest,List.cons_append,List.mem_cons] at hmem
        rcases hmem with rfl | hmem
        · exact Nat.le_refl _
        · exact Nat.le_of_lt (hrows.1 first hmem)
      omega

/-! What fits in a bounded room -/

/-- The rows from the front, as long as there is room for the next. -/
def fitting (cost : α → Nat) : Nat → List α → List α
  | _,[] => []
  | room,a :: rest => if cost a ≤ room then a :: fitting cost (room - cost a) rest else []

theorem fitting_begins (cost : α → Nat) (room : Nat) (rows : List α) : fitting cost room rows <+: rows := by
  induction rows generalizing room with
  | nil => exact List.prefix_rfl
  | cons a rest ih =>
    simp only [fitting]
    split
    · exact (List.prefix_cons_inj a).mpr (ih _)
    · exact List.nil_prefix

theorem sum_fitting_le (cost : α → Nat) (room : Nat) (rows : List α) :
    ((fitting cost room rows).map cost).sum ≤ room := by
  induction rows generalizing room with
  | nil => exact Nat.zero_le _
  | cons a rest ih =>
    simp only [fitting]
    split
    · next h =>
      have := ih (room - cost a)
      rw [List.map_cons,List.sum_cons]
      omega
    · exact Nat.zero_le _

theorem fitting_eq_self_iff (cost : α → Nat) (room : Nat) (rows : List α) :
    fitting cost room rows = rows ↔ (rows.map cost).sum ≤ room := by
  constructor
  · intro h
    have hsum := sum_fitting_le cost room rows
    rwa [h] at hsum
  · intro h
    induction rows generalizing room with
    | nil => rfl
    | cons a rest ih =>
      rw [List.map_cons,List.sum_cons] at h
      rw [fitting,if_pos (by omega),ih (room - cost a) (by omega)]

/-! A page as long as the number of marked rows -/

/-- The page holds every marked row exactly if no other row stands before one. -/
theorem filter_take_count_iff {p : α → Bool} (rows : List α) :
    (rows.take (rows.filter p).length).filter p = rows.filter p ↔
      rows.Pairwise fun before after => p after = true → p before = true := by
  induction rows with
  | nil => simp
  | cons x rest ih =>
    rw [List.pairwise_cons]
    by_cases hx : p x = true
    · rw [List.filter_cons_of_pos hx,List.length_cons,List.take_succ_cons,List.filter_cons_of_pos hx,
        List.cons_inj_right,ih]
      exact (and_iff_right fun _ _ _ => hx).symm
    · rw [List.filter_cons_of_neg hx]
      cases hcount : (rest.filter p).length with
      | zero =>
        have hnil : rest.filter p = [] := List.eq_nil_of_length_eq_zero hcount
        have hnone : ∀ y ∈ rest, ¬p y = true := List.filter_eq_nil_iff.mp hnil
        refine iff_of_true (by simp [hnil]) ⟨fun y hy hp => absurd hp (hnone y hy),?_⟩
        exact List.pairwise_iff_forall_sublist.mpr fun hsub hp =>
          absurd hp (hnone _ (hsub.subset (List.mem_cons_of_mem _ (List.mem_singleton_self _))))
      | succ m =>
        refine iff_of_false (fun heq => ?_) fun h => ?_
        · -- the unmarked row takes the place of a marked one
          have hshort : ((rest.take m).filter p).length ≤ m :=
            (List.length_filter_le _ _).trans (List.length_take_le m rest)
          have hlength := congrArg List.length heq
          rw [List.take_succ_cons,List.filter_cons_of_neg hx,hcount] at hlength
          omega
        · obtain ⟨y,hy⟩ := List.exists_mem_of_length_pos (by omega : 0 < (rest.filter p).length)
          obtain ⟨hmem,hp⟩ := List.mem_filter.mp hy
          exact hx (h.1 y hmem hp)

end VoxForge.Foundation
