import Mathlib.Data.List.Rotate
import Mathlib.Data.List.Chain
import Mathlib.Data.List.Count
import Mathlib.Data.List.Perm.Basic

/-! Taking turns on a list: each turn goes to the next one, and after the last comes the first. -/
namespace VoxForge.Foundation
variable {α : Type} [DecidableEq α]

/-- The next of a list in a circle; the first after anyone who is not in it. -/
def successor (l : List α) (a : α) : Option α :=
  if a ∈ l then l[(l.idxOf a + 1) % l.length]? else l.head?

/-- Each turn is the successor of the turn before. -/
def InTurn (l turns : List α) : Prop := turns.IsChain fun a b => successor l a = some b

section turns
variable {l turns : List α}

theorem successor_mem {a b : α} (h : successor l a = some b) : b ∈ l := by
  unfold successor at h
  split at h
  · exact List.mem_of_getElem? h
  · exact List.mem_of_mem_head? h

theorem successor_injective (hnodup : l.Nodup) {a b : α} (ha : a ∈ l) (hb : b ∈ l)
    (h : successor l a = successor l b) : a = b := by
  have hia := List.idxOf_lt_length_of_mem ha
  have hib := List.idxOf_lt_length_of_mem hb
  rw [successor,successor,if_pos ha,if_pos hb] at h
  have hlt : (l.idxOf a + 1) % l.length < l.length := Nat.mod_lt _ (by omega)
  have hmod := (List.getElem?_inj hlt hnodup).mp h
  refine (List.idxOf_inj ha).mp ?_
  rcases Nat.lt_or_eq_of_le (show l.idxOf a + 1 ≤ l.length by omega) with h1 | h1 <;>
    rcases Nat.lt_or_eq_of_le (show l.idxOf b + 1 ≤ l.length by omega) with h2 | h2
  · rw [Nat.mod_eq_of_lt h1,Nat.mod_eq_of_lt h2] at hmod
    omega
  · rw [Nat.mod_eq_of_lt h1,h2,Nat.mod_self] at hmod
    omega
  · rw [Nat.mod_eq_of_lt h2,h1,Nat.mod_self] at hmod
    omega
  · omega

theorem inTurn_append_singleton (h : InTurn l turns) {b : α}
    (hb : ∀ a, turns.getLast? = some a → successor l a = some b) : InTurn l (turns ++ [b]) := by
  refine List.isChain_append.mpr ⟨h,.singleton b,fun a ha c hc => ?_⟩
  obtain rfl : b = c := by simpa using hc
  exact hb a ha

/-- Turns are the list itself, read in a circle from where they begin. -/
theorem InTurn.getElem?_eq (hnodup : l.Nodup) {a : α} (ha : a ∈ l) (h : InTurn l (a :: turns)) (i : Nat)
    (hi : i ≤ turns.length) : (a :: turns)[i]? = l[(l.idxOf a + i) % l.length]? := by
  induction turns generalizing a i with
  | nil =>
    obtain rfl : i = 0 := by simpa using hi
    rw [Nat.add_zero,Nat.mod_eq_of_lt (List.idxOf_lt_length_of_mem ha),List.getElem?_idxOf ha]
    rfl
  | cons b turns ih =>
    cases i with
    | zero =>
      rw [Nat.add_zero,Nat.mod_eq_of_lt (List.idxOf_lt_length_of_mem ha),List.getElem?_idxOf ha]
      rfl
    | succ i =>
      obtain ⟨hab,hrest⟩ := List.isChain_cons_cons.mp h
      have hb : b ∈ l := successor_mem hab
      have hnext : l.idxOf b = (l.idxOf a + 1) % l.length := by
        rw [successor,if_pos ha] at hab
        obtain ⟨hlt,hget⟩ := List.getElem?_eq_some_iff.mp hab
        rw [← hget,hnodup.idxOf_getElem]
      rw [List.getElem?_cons_succ,ih hb hrest i (by simpa using hi),hnext]
      congr 1
      rw [Nat.mod_add_mod]
      congr 1
      omega

/-- One round of turns is a rotation of the list. -/
theorem InTurn.round (hnodup : l.Nodup) {a : α} (ha : a ∈ l) (h : InTurn l (a :: turns))
    (hlen : (a :: turns).length = l.length) : a :: turns = l.rotate (l.idxOf a) := by
  refine List.ext_getElem? fun i => ?_
  by_cases hi : i < l.length
  · rw [h.getElem?_eq hnodup ha i (by simp at hlen; omega),List.getElem?_rotate hi,Nat.add_comm]
  · rw [List.getElem?_eq_none (by omega),List.getElem?_eq_none (by rw [List.length_rotate]; omega)]

/-- Over whole rounds everyone has the same number of turns. -/
theorem InTurn.count_eq (hnodup : l.Nodup) (hmem : ∀ a ∈ turns, a ∈ l) (h : InTurn l turns) (k : Nat)
    (hlen : turns.length = k * l.length) {m : α} (hm : m ∈ l) : turns.count m = k := by
  induction k generalizing turns with
  | zero =>
    obtain rfl : turns = [] := List.length_eq_zero_iff.mp (by omega)
    rfl
  | succ k ih =>
    have hpos : 0 < l.length := List.length_pos_of_mem hm
    have hfirst : (turns.take l.length).length = l.length := by
      rw [List.length_take,hlen,Nat.succ_mul]
      omega
    have hround : (turns.take l.length).Perm l := by
      cases hround : turns.take l.length with
      | nil => rw [hround] at hfirst; simp at hfirst; omega
      | cons a rest =>
        have hin : InTurn l (a :: rest) := hround ▸ h.take l.length
        have ha : a ∈ l := hmem a (List.mem_of_mem_take (hround ▸ List.mem_cons_self ..))
        rw [hround] at hfirst
        rw [hin.round hnodup ha hfirst]
        exact List.rotate_perm ..
    have hrest : (turns.drop l.length).count m = k := by
      refine ih (fun a ha => hmem a (List.mem_of_mem_drop ha)) (h.drop l.length) ?_
      rw [List.length_drop,hlen,Nat.succ_mul,Nat.add_sub_cancel]
    calc
      turns.count m = (turns.take l.length).count m + (turns.drop l.length).count m := by
        rw [← List.count_append,List.take_append_drop]
      _ = k + 1 := by
        rw [hround.count_eq,hrest,List.count_eq_one_of_mem hnodup hm,Nat.add_comm]

end turns
end VoxForge.Foundation
