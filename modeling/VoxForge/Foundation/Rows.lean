import Mathlib.Data.List.Find
import Mathlib.Data.List.Nodup

/-! Tables as lists of rows: an update of the rows that a condition picks. -/
namespace VoxForge.Foundation
variable {α : Type}

/-- A look-up whose condition an update keeps finds the row it found before, updated. -/
theorem find?_update {p q : α → Bool} {f : α → α} (hf : ∀ x, p x → q (f x) = q x) (rows : List α) :
    (rows.map fun x => if p x then f x else x).find? q =
      (rows.find? q).map fun x => if p x then f x else x := by
  induction rows with
  | nil => rfl
  | cons x rest ih =>
    have hq : q (if p x then f x else x) = q x := by
      split
      · next hp => exact hf x hp
      · rfl
    cases hx : q x with
    | true => simp [hq,hx]
    | false => simp [hq,hx,ih]

/-- A row is found by its key, where keys are distinct. -/
theorem find?_key {κ : Type} [DecidableEq κ] {key : α → κ} {xs : List α} (hkeys : (xs.map key).Nodup) {x : α}
    (hx : x ∈ xs) : xs.find? (key · = key x) = some x := by
  induction xs with
  | nil => cases hx
  | cons y rest ih =>
    obtain ⟨hnew,hrest⟩ := List.nodup_cons.mp hkeys
    rcases List.mem_cons.mp hx with rfl | hx
    · simp
    · have hne : key y ≠ key x := fun heq => hnew (heq ▸ List.mem_map_of_mem hx)
      simp [hne,ih hrest hx]

/-- A search that one row alone can answer. -/
theorem find?_only {p : α → Bool} {xs : List α} {a : α} (ha : a ∈ xs) (h : ∀ x ∈ xs, p x = true → x = a) :
    xs.find? p = if p a then some a else none := by
  cases hfound : xs.find? p with
  | none =>
    have hno := List.find?_eq_none.mp hfound a ha
    rw [if_neg hno]
  | some x =>
    have hx := List.find?_some hfound
    obtain rfl := h x (List.mem_of_find?_eq_some hfound) hx
    rw [if_pos hx]

/-- Rows with distinct keys are found in whatever order they stand. -/
theorem find?_perm {κ : Type} [DecidableEq κ] {key : α → κ} {xs ys : List α} (h : xs.Perm ys)
    (hkeys : (xs.map key).Nodup) (k : κ) : xs.find? (key · = k) = ys.find? (key · = k) := by
  apply List.find?_eq_find?_of_perm h
  rintro x ⟨hx,hxk⟩ y ⟨hy,hyk⟩
  have hkey : key x = key y := (of_decide_eq_true hxk).trans (of_decide_eq_true hyk).symm
  exact List.inj_on_of_nodup_map hkeys hx hy hkey

/-- An update of rows that a selection leaves out before and after is not seen by it. -/
theorem filter_update {p : α → Bool} {q : α → Prop} [DecidablePred q] {f : α → α} {rows : List α}
    (h : ∀ x ∈ rows, q x → p x = false ∧ p (f x) = false) :
    (rows.map fun x => if q x then f x else x).filter p = rows.filter p := by
  induction rows with
  | nil => rfl
  | cons x rest ih =>
    have hrest := ih fun y hy => h y (List.mem_cons_of_mem x hy)
    rw [List.map_cons,List.filter_cons,List.filter_cons,hrest]
    by_cases hq : q x
    · obtain ⟨hx,hfx⟩ := h x (List.mem_cons_self ..) hq
      rw [if_pos hq,hx,hfx]
      rfl
    · rw [if_neg hq]

/-- Rows numbered one after another: their ids are distinct and below the next one. -/
structure Serial (id : α → Nat) (next : Nat) (rows : List α) : Prop where
  distinct : (rows.map id).Nodup
  below : ∀ x ∈ rows, id x < next

namespace Serial
variable {id : α → Nat} {next : Nat} {rows : List α}

theorem nil : Serial id next [] := ⟨List.nodup_nil,fun _ h => by cases h⟩

theorem mono {later : Nat} (h : Serial id next rows) (hle : next ≤ later) : Serial id later rows :=
  ⟨h.distinct,fun x hx => Nat.lt_of_lt_of_le (h.below x hx) hle⟩

theorem append (h : Serial id next rows) {x : α} (hx : id x = next) : Serial id (next + 1) (rows ++ [x]) where
  distinct := by
    rw [List.map_append,List.map_singleton]
    refine List.nodup_append.mpr ⟨h.distinct,List.nodup_singleton _,?_⟩
    intro i hi j hj
    obtain ⟨y,hy,rfl⟩ := List.mem_map.mp hi
    rw [List.mem_singleton.mp hj,hx]
    exact Nat.ne_of_lt (h.below y hy)
  below y hy := by
    rcases List.mem_append.mp hy with hold | hnew
    · exact Nat.lt_succ_of_lt (h.below y hold)
    · rw [List.mem_singleton.mp hnew,hx]
      exact Nat.lt_succ_self _

theorem map (h : Serial id next rows) {f : α → α} (hf : ∀ x ∈ rows, id (f x) = id x) :
    Serial id next (rows.map f) where
  distinct := by
    have hids : (rows.map f).map id = rows.map id := by
      rw [List.map_map]
      exact List.map_congr_left hf
    rw [hids]
    exact h.distinct
  below y hy := by
    obtain ⟨x,hx,rfl⟩ := List.mem_map.mp hy
    rw [hf x hx]
    exact h.below x hx

theorem filter (h : Serial id next rows) (p : α → Bool) : Serial id next (rows.filter p) where
  distinct := h.distinct.sublist (List.filter_sublist.map id)
  below x hx := h.below x (List.mem_of_mem_filter hx)

theorem unique (h : Serial id next rows) {x y : α} (hx : x ∈ rows) (hy : y ∈ rows) (hid : id x = id y) : x = y :=
  List.inj_on_of_nodup_map h.distinct hx hy hid

end Serial

end VoxForge.Foundation
