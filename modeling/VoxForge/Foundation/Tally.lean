import Mathlib.Algebra.GroupWithZero.Nat
import Mathlib.Algebra.BigOperators.Group.List.Basic
import VoxForge.Foundation.Dict

/-! Counts of the entries of a list, kept in a dictionary under the entries' keys. -/
namespace VoxForge.Foundation
variable {κ ν α : Type} [DecidableEq κ] (key : α → κ) (count : ν → α → ν) (zero : ν)

/-- An entry of the list is counted under its key, which starts from `zero`. -/
def tallyEntry (d : Dict κ ν) (x : α) : Dict κ ν := d.set (key x) (count ((d.get? (key x)).getD zero) x)

def tally (xs : List α) : Dict κ ν := xs.foldl (tallyEntry key count zero) .empty

/-- A key's value has counted the entries of this key, in their order. -/
theorem get?_foldl_tally (d : Dict κ ν) (xs : List α) (k : κ) :
    (xs.foldl (tallyEntry key count zero) d).get? k =
      if k ∈ xs.map key then some ((xs.filter (key · = k)).foldl count ((d.get? k).getD zero)) else d.get? k := by
  induction xs generalizing d with
  | nil => simp
  | cons x rest ih =>
    rw [List.foldl_cons,ih,tallyEntry,Dict.get?_set]
    by_cases hx : key x = k
    · subst hx
      by_cases hin : key x ∈ rest.map key
      · simp [hin]
      · have hnone : rest.filter (key · = key x) = [] :=
          List.filter_eq_nil_iff.mpr fun y hy hkey => hin (List.mem_map.mpr ⟨y,hy,of_decide_eq_true hkey⟩)
        simp [hin,hnone]
    · have hk : k ≠ key x := Ne.symm hx
      simp [hx,hk]

theorem get?_tally (xs : List α) (k : κ) :
    (tally key count zero xs).get? k =
      if k ∈ xs.map key then some ((xs.filter (key · = k)).foldl count zero) else none :=
  get?_foldl_tally key count zero .empty xs k

variable {key count zero} (measure : ν → Nat)

/-- A measure that grows by the weight of what is counted: one entry adds its weight. -/
theorem sum_tallyEntry (weight : α → Nat) (hzero : measure zero = 0)
    (hcount : ∀ v x, measure (count v x) = measure v + weight x) (d : Dict κ ν) (x : α) :
    ((tallyEntry key count zero d x).values.map measure).sum = (d.values.map measure).sum + weight x := by
  have hperm := (d.values_set_perm (key x) (count ((d.get? (key x)).getD zero) x)).map measure
  have hsum := hperm.sum_eq
  rw [List.map_append,List.sum_append,List.map_cons,List.sum_cons,hcount] at hsum
  cases hold : d.get? (key x) with
  | none =>
    rw [hold] at hsum
    simp only [Option.toList_none,List.map_nil,List.sum_nil,Option.getD_none,hzero] at hsum
    rw [tallyEntry,hold,Option.getD_none]
    omega
  | some old =>
    rw [hold] at hsum
    simp only [Option.toList_some,List.map_cons,List.map_nil,List.sum_cons,List.sum_nil,Option.getD_some] at hsum
    rw [tallyEntry,hold,Option.getD_some]
    omega

/-- Over all keys, the whole weight of the list. -/
theorem sum_tally (weight : α → Nat) (hzero : measure zero = 0)
    (hcount : ∀ v x, measure (count v x) = measure v + weight x) (xs : List α) :
    ((tally key count zero xs).values.map measure).sum = (xs.map weight).sum := by
  have hfrom : ∀ d : Dict κ ν, ((xs.foldl (tallyEntry key count zero) d).values.map measure).sum =
      (d.values.map measure).sum + (xs.map weight).sum := by
    induction xs with
    | nil => simp
    | cons x rest ih =>
      intro d
      rw [List.foldl_cons,ih,sum_tallyEntry measure weight hzero hcount,List.map_cons,List.sum_cons,Nat.add_assoc]
  simpa [tally,Dict.values,Dict.empty] using hfrom .empty

theorem sum_map_ite (p : α → Bool) (xs : List α) : (xs.map fun x => if p x then 1 else 0).sum = xs.countP p := by
  induction xs with
  | nil => rfl
  | cons x rest ih => rw [List.map_cons,List.sum_cons,ih,List.countP_cons,Nat.add_comm]

/-- A measure that counts the entries with some property. -/
theorem sum_tally_countP (p : α → Bool) (hzero : measure zero = 0)
    (hcount : ∀ v x, measure (count v x) = measure v + if p x then 1 else 0) (xs : List α) :
    ((tally key count zero xs).values.map measure).sum = xs.countP p :=
  (sum_tally measure _ hzero hcount xs).trans (sum_map_ite p xs)

end VoxForge.Foundation
