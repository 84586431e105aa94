import Mathlib.Data.List.Nodup

/-! Finite maps that keep the order of first insertion, as a scripting language's
dictionaries do. Distinct keys are part of the value. -/
namespace VoxForge.Foundation
variable {κ ν α : Type} [DecidableEq κ]

private def setEntry (k : κ) (v : ν) : List (κ × ν) → List (κ × ν)
  | [] => [(k,v)]
  | e :: es => if e.1 = k then (k,v) :: es else e :: setEntry k v es

private theorem setEntry_keys (k : κ) (v : ν) (es : List (κ × ν)) :
    (setEntry k v es).map Prod.fst =
      if k ∈ es.map Prod.fst then es.map Prod.fst else es.map Prod.fst ++ [k] := by
  induction es with
  | nil => simp [setEntry]
  | cons e es ih =>
    unfold setEntry
    split_ifs with he hm hm
    · simp [he]
    · exact absurd (by simp [he]) hm
    · have hin : k ∈ es.map Prod.fst := by
        rw [List.map_cons,List.mem_cons] at hm
        exact hm.resolve_left (Ne.symm he)
      rw [List.map_cons,ih,if_pos hin,List.map_cons]
    · have hout : k ∉ es.map Prod.fst := fun h => hm (List.mem_cons_of_mem _ h)
      rw [List.map_cons,ih,if_neg hout,List.map_cons,List.cons_append]

private theorem find?_setEntry (k j : κ) (v : ν) (es : List (κ × ν)) :
    (setEntry k v es).find? (·.1 = j) = if j = k then some (k,v) else es.find? (·.1 = j) := by
  induction es with
  | nil =>
    by_cases h : j = k
    · simp [setEntry,h]
    · simp [setEntry,h,Ne.symm h]
  | cons e es ih =>
    unfold setEntry
    by_cases he : e.1 = k
    · by_cases h : j = k
      · simp [he,h]
      · simp [he,h,Ne.symm h]
    · by_cases hj : e.1 = j
      · have hne : j ≠ k := fun h => he (hj.trans h)
        simp [hj,hne]
      · simpa [he,hj] using ih

private theorem setEntry_perm (k : κ) (v : ν) (es : List (κ × ν)) :
    (((es.find? (·.1 = k)).map Prod.snd).toList ++ (setEntry k v es).map Prod.snd).Perm (v :: es.map Prod.snd) := by
  induction es with
  | nil => exact List.Perm.refl [v]
  | cons e es ih =>
    unfold setEntry
    by_cases he : e.1 = k
    · rw [List.find?_cons_of_pos (by simpa using he),if_pos he]
      exact List.Perm.swap v e.2 (es.map Prod.snd)
    · rw [List.find?_cons_of_neg (by simpa using he),if_neg he]
      exact List.perm_middle.trans ((ih.cons e.2).trans (List.Perm.swap v e.2 (es.map Prod.snd)))

structure Dict (κ ν : Type) where
  entries : List (κ × ν)
  nodup : (entries.map Prod.fst).Nodup

namespace Dict

def empty : Dict κ ν := ⟨[],List.nodup_nil⟩

def get? (d : Dict κ ν) (k : κ) : Option ν := (d.entries.find? (·.1 = k)).map Prod.snd

def values (d : Dict κ ν) : List ν := d.entries.map Prod.snd

/-- An existing key keeps its place, a new one goes to the end. -/
def set (d : Dict κ ν) (k : κ) (v : ν) : Dict κ ν where
  entries := setEntry k v d.entries
  nodup := by
    rw [setEntry_keys]
    split_ifs with h
    · exact d.nodup
    · exact List.nodup_append.mpr ⟨d.nodup,List.nodup_singleton k,
        fun a ha b hb he => h (List.mem_singleton.mp hb ▸ he ▸ ha)⟩

/-- Drop every key that satisfies a test. -/
def popWhere (d : Dict κ ν) (p : κ → Bool) : Dict κ ν where
  entries := d.entries.filter (! p ·.1)
  nodup := d.nodup.sublist (List.filter_sublist.map Prod.fst)

def pop (d : Dict κ ν) (k : κ) : Dict κ ν := d.popWhere (· = k)

@[simp] theorem get?_empty (k : κ) : (empty : Dict κ ν).get? k = none := rfl

@[simp] theorem get?_set (d : Dict κ ν) (k j : κ) (v : ν) :
    (d.set k v).get? j = if j = k then some v else d.get? j := by
  unfold get? set
  rw [find?_setEntry]
  split_ifs <;> rfl

theorem get?_eq_some_iff (d : Dict κ ν) (k : κ) (v : ν) :
    d.get? k = some v ↔ (k,v) ∈ d.entries := by
  obtain ⟨es,hn⟩ := d
  unfold get?
  dsimp only at hn ⊢
  induction es with
  | nil => simp
  | cons e es ih =>
    rw [List.map_cons,List.nodup_cons] at hn
    by_cases he : e.1 = k
    · have hout : (k,v) ∉ es := fun h => hn.1 (he ▸ List.mem_map_of_mem (f := Prod.fst) h)
      rw [List.find?_cons_of_pos (by simpa using he)]
      simp only [Option.map_some,Option.some.injEq,List.mem_cons,hout,or_false]
      exact ⟨fun h => by rw [← he,← h],fun h => by rw [← h]⟩
    · rw [List.find?_cons_of_neg (by simpa using he),ih hn.2,List.mem_cons]
      exact ⟨Or.inr,fun h => h.resolve_left fun hk => he (by rw [← hk])⟩

@[simp] theorem get?_popWhere (d : Dict κ ν) (p : κ → Bool) (k : κ) :
    (d.popWhere p).get? k = if p k then none else d.get? k := by
  apply Option.ext
  intro v
  rw [get?_eq_some_iff]
  by_cases hp : p k
  · simp [popWhere,hp]
  · simp [popWhere,hp,get?_eq_some_iff]

@[simp] theorem get?_pop (d : Dict κ ν) (k j : κ) :
    (d.pop k).get? j = if j = k then none else d.get? j := by
  simp [pop]

theorem mem_values_iff (d : Dict κ ν) (v : ν) : v ∈ d.values ↔ ∃ k, d.get? k = some v := by
  simp only [values,List.mem_map,get?_eq_some_iff]
  exact ⟨fun ⟨e,he,hv⟩ => ⟨e.1,by rwa [← hv]⟩,fun ⟨k,hk⟩ => ⟨(k,v),hk,rfl⟩⟩

/-- The new value comes in and the old one, if there is one, goes. -/
theorem values_set_perm (d : Dict κ ν) (k : κ) (v : ν) :
    ((d.get? k).toList ++ (d.set k v).values).Perm (v :: d.values) :=
  setEntry_perm k v d.entries

/-- Insert a list of values under their names; a later value replaces an earlier one. -/
def setAll (name : α → κ) (value : α → ν) (d : Dict κ ν) (xs : List α) : Dict κ ν :=
  xs.foldl (fun d x => d.set (name x) (value x)) d

/-- The last value of a name wins over the earlier ones and over the old entry. -/
theorem get?_setAll (name : α → κ) (value : α → ν) (d : Dict κ ν) (xs : List α) (k : κ) :
    (setAll name value d xs).get? k =
      ((xs.reverse.find? (name · = k)).map value).or (d.get? k) := by
  induction xs generalizing d with
  | nil => simp [setAll]
  | cons x xs ih =>
    change (setAll name value (d.set (name x) (value x)) xs).get? k = _
    rw [ih,get?_set,List.reverse_cons,List.find?_append]
    cases h : xs.reverse.find? (name · = k) with
    | some y => simp
    | none =>
      by_cases hk : name x = k
      · simp [hk]
      · simp [hk,Ne.symm hk]

/-- A name has an entry afterwards if it was inserted or had one. -/
theorem isSome_get?_setAll (name : α → κ) (value : α → ν) (d : Dict κ ν) (xs : List α) (k : κ) :
    ((setAll name value d xs).get? k).isSome ↔ k ∈ xs.map name ∨ (d.get? k).isSome := by
  rw [get?_setAll,Option.isSome_or,Option.isSome_map,Bool.or_eq_true,List.find?_isSome]
  simp [and_comm]

/-- Inserting one value under many names leaves the other names alone. -/
theorem get?_setAll_const (name : α → κ) (v : ν) (d : Dict κ ν) (xs : List α) (k : κ) :
    (setAll name (fun _ => v) d xs).get? k = if k ∈ xs.map name then some v else d.get? k := by
  rw [get?_setAll]
  cases hf : xs.reverse.find? (name · = k) with
  | none =>
    have hout : k ∉ xs.map name := fun hin => by
      obtain ⟨x,hx,hk⟩ := List.mem_map.mp hin
      exact List.find?_eq_none.mp hf x (List.mem_reverse.mpr hx) (by simpa using hk)
    simp [hout]
  | some x =>
    have hx : x ∈ xs := List.mem_reverse.mp (List.mem_of_find?_eq_some hf)
    have hk : name x = k := by simpa using List.find?_some hf
    have hin : k ∈ xs.map name := hk ▸ List.mem_map_of_mem hx
    simp [hin]

/-- Pairs with distinct names, inserted: a name has the value of its pair, or its old one. -/
theorem get?_setAll_pairs {d : Dict κ ν} {xs : List (κ × ν)} (hn : (xs.map Prod.fst).Nodup) (k : κ) (v : ν) :
    (setAll Prod.fst Prod.snd d xs).get? k = some v ↔
      (k,v) ∈ xs ∨ k ∉ xs.map Prod.fst ∧ d.get? k = some v := by
  have hreverse : (xs.reverse.map Prod.fst).Nodup := by
    rw [List.map_reverse]
    exact List.nodup_reverse.mpr hn
  have hfind : (xs.reverse.find? (·.1 = k)).map Prod.snd = some v ↔ (k,v) ∈ xs :=
    (get?_eq_some_iff ⟨xs.reverse,hreverse⟩ k v).trans List.mem_reverse
  have hnone : (xs.reverse.find? (·.1 = k)).map Prod.snd = none ↔ k ∉ xs.map Prod.fst := by
    rw [Option.map_eq_none_iff,List.find?_eq_none]
    simp only [List.mem_reverse,decide_eq_true_eq,List.mem_map,not_exists,not_and]
  rw [get?_setAll,Option.or_eq_some_iff,hfind,hnone]

/-- What every inserted value and every old value satisfy, every value satisfies. -/
theorem setAll_forall {name : α → κ} {value : α → ν} {d : Dict κ ν} {xs : List α}
    {P : κ → ν → Prop} (hd : ∀ k v, d.get? k = some v → P k v)
    (hx : ∀ x ∈ xs, P (name x) (value x)) (k : κ) (v : ν)
    (h : (setAll name value d xs).get? k = some v) : P k v := by
  rw [get?_setAll] at h
  cases hf : xs.reverse.find? (name · = k) with
  | none => exact hd k v (by simpa [hf] using h)
  | some x =>
    have hk : name x = k := by simpa using List.find?_some hf
    have hv : value x = v := by simpa [hf] using h
    exact hk ▸ hv ▸ hx x (List.mem_reverse.mp (List.mem_of_find?_eq_some hf))

/-- Where every value is stored under its own name, the last value of a name is
the entry of that name. -/
theorem find?_values {name : ν → κ} {d : Dict κ ν}
    (hd : ∀ k v, d.get? k = some v → name v = k) (k : κ) :
    d.values.reverse.find? (name · = k) = d.get? k := by
  cases hf : d.values.reverse.find? (name · = k) with
  | none =>
    symm
    rw [Option.eq_none_iff_forall_not_mem]
    intro v hv
    have hmem : v ∈ d.values := (d.mem_values_iff v).mpr ⟨k,hv⟩
    have hout := List.find?_eq_none.mp hf v (List.mem_reverse.mpr hmem)
    exact hout (by simpa using hd k v hv)
  | some v =>
    have hk : name v = k := by simpa using List.find?_some hf
    obtain ⟨j,hj⟩ := (d.mem_values_iff v).mp (List.mem_reverse.mp (List.mem_of_find?_eq_some hf))
    have hjk : j = k := (hd j v hj).symm.trans hk
    exact (hjk ▸ hj).symm

/-- The names of values stored under their own names are the keys. -/
theorem mem_map_values {name : ν → κ} {d : Dict κ ν}
    (h : ∀ k v, d.get? k = some v → name v = k) (k : κ) :
    k ∈ d.values.map name ↔ (d.get? k).isSome := by
  simp only [List.mem_map,mem_values_iff,Option.isSome_iff_exists]
  constructor
  · rintro ⟨v,⟨j,hj⟩,rfl⟩
    exact ⟨v,(h j v hj).symm ▸ hj⟩
  · rintro ⟨v,hv⟩
    exact ⟨v,⟨k,hv⟩,h k v hv⟩

end Dict
end VoxForge.Foundation
