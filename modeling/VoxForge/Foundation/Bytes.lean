import Mathlib.Algebra.GroupWithZero.Nat
import Mathlib.Data.List.Basic

/-! Byte strings, and numbers written in them with the lowest byte first. -/
namespace VoxForge.Foundation

abbrev Bytes := List UInt8

/-- `bytes[i:j]`. -/
def slice {α : Type} (l : List α) (i j : Nat) : List α := (l.drop i).take (j - i)

/-- What stands between two parts. -/
theorem slice_middle {α : Type} {pre mid post : List α} {i j : Nat} (hi : i = pre.length) (hj : j = i + mid.length) :
    slice (pre ++ (mid ++ post)) i j = mid := by
  rw [slice,hj,hi,List.drop_left,Nat.add_sub_cancel_left,List.take_left]

/-- The last bytes of a number in little-endian order. -/
def leBytes : Nat → Nat → Bytes
  | 0,_ => []
  | width + 1,v => UInt8.ofNat v :: leBytes width (v / 256)

def leValue : Bytes → Nat
  | [] => 0
  | b :: rest => b.toNat + 256 * leValue rest

@[simp] theorem length_leBytes (width v : Nat) : (leBytes width v).length = width := by
  induction width generalizing v with
  | zero => rfl
  | succ width ih => rw [leBytes,List.length_cons,ih]

theorem leValue_lt (bytes : Bytes) : leValue bytes < 256 ^ bytes.length := by
  induction bytes with
  | nil => decide
  | cons b rest ih =>
    have hb := b.toNat_lt
    rw [leValue,List.length_cons,Nat.pow_succ]
    omega

/-- A number that fits is read back. -/
theorem leValue_leBytes {width v : Nat} (h : v < 256 ^ width) : leValue (leBytes width v) = v := by
  induction width generalizing v with
  | zero =>
    have : v = 0 := by simpa using h
    rw [this]
    rfl
  | succ width ih =>
    have hrest : v / 256 < 256 ^ width := by
      rw [Nat.pow_succ] at h
      omega
    rw [leBytes,leValue,ih hrest,UInt8.toNat_ofNat']
    omega

end VoxForge.Foundation
