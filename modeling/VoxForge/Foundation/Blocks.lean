import Mathlib.Algebra.BigOperators.Group.Finset.Basic
import Mathlib.Algebra.GroupWithZero.Nat
import Mathlib.Data.List.Range

/-! A list cut into blocks of one size, the last of which may be shorter. -/
namespace VoxForge.Foundation
variable {α : Type} {size k m n : Nat}

def block (size : Nat) (l : List α) (k : Nat) : List α := (l.drop (k * size)).take size

/-- So many blocks hold `n` elements. -/
def blockCount (size n : Nat) : Nat := (n + size - 1) / size

theorem length_block (l : List α) : (block size l k).length = min size (l.length - k * size) := by
  rw [block,List.length_take,List.length_drop]

theorem mem_of_mem_block {l : List α} {a : α} (h : a ∈ block size l k) : a ∈ l :=
  List.mem_of_mem_drop (List.mem_of_mem_take h)

theorem getElem?_block {l : List α} {j : Nat} (hj : j < size) : (block size l k)[j]? = l[k * size + j]? := by
  rw [block,List.getElem?_take_of_lt hj,List.getElem?_drop]

/-- A block begins inside of the list. -/
theorem lt_blockCount_iff (hsize : 0 < size) : k < blockCount size n ↔ k * size < n := by
  rw [blockCount,Nat.lt_iff_add_one_le,Nat.le_div_iff_mul_le hsize,Nat.add_one_mul]
  omega

theorem take_add_block (l : List α) : l.take ((m + 1) * size) = l.take (m * size) ++ block size l m := by
  rw [Nat.add_one_mul,List.take_add]
  rfl

/-- Blocks one after another are the beginning of the list. -/
theorem flatMap_block (size m : Nat) (l : List α) : (List.range m).flatMap (block size l) = l.take (m * size) := by
  induction m with
  | zero => simp
  | succ m ih => rw [List.range_succ,List.flatMap_append,ih,take_add_block,List.flatMap_singleton]

theorem length_le_blockCount_mul (hsize : 0 < size) (n : Nat) : n ≤ blockCount size n * size := by
  by_contra hlt
  exact Nat.lt_irrefl _ ((lt_blockCount_iff hsize).mpr (Nat.lt_of_not_le hlt))

theorem take_blockCount (hsize : 0 < size) {l : List α} (hn : l.length = n) : l.take (blockCount size n * size) = l :=
  List.take_of_length_le (hn ▸ length_le_blockCount_mul hsize n)

/-- The numbers of the elements in a block. -/
theorem block_range' : block size (List.range' 1 n) k = List.range' (k * size + 1) (min size (n - k * size)) := by
  rw [block,List.drop_range',Nat.mul_one,Nat.add_comm 1]
  rcases Nat.le_total size (n - k * size) with h | h
  · rw [List.take_range'_of_length_ge h,Nat.min_eq_left h]
  · rw [List.take_range'_of_length_le h,Nat.min_eq_right h]

theorem sum_take_block (f : α → Nat) (l : List α) (m : Nat) :
    ((l.take (m * size)).map f).sum = ∑ k ∈ Finset.range m, ((block size l k).map f).sum := by
  induction m with
  | zero => simp
  | succ m ih => rw [take_add_block,List.map_append,List.sum_append,ih,Finset.sum_range_succ]

end VoxForge.Foundation
