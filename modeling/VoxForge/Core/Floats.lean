import Mathlib.Data.Prod.Lex
import Mathlib.Data.Rat.Lemmas
import Mathlib.Algebra.Order.Field.Rat

/-! Floats as the code computes with them: the exact value of a float, the order of those that
are numbers, and `sum`. -/
namespace VoxForge.Core
open Float.Model

/-- The number a float stands for. -/
def exactValue (x : Float) : ℚ :=
  match x.toModel.unpack with
  | .finite .positive m e _ => m * 2 ^ e
  | .finite .negative m e _ => -(m * 2 ^ e)
  | .zero _ | .infinity _ | .notANumber => 0

/-- One addition of `sum`, and what it lost. -/
def addCompensated (acc : Float × Float) (x : Float) : Float × Float :=
  let (total,lost) := acc
  let t := total + x
  if x.abs ≤ total.abs then (t,lost + ((total - t) + x)) else (t,lost + ((x - t) + total))

/-- `sum` of floats as Python has it from 3.12 on: it adds what the additions have lost, if that
is a number. -/
def floatSum : List Float → Float
  | [] => 0
  | x :: xs =>
    let (total,lost) := xs.foldl addCompensated (0 + x,0)
    if lost != 0 && lost.isFinite then total + lost else total

/-- The place of a float in the order of the floats: its sign, its exponent and its mantissa. -/
def rankOf : UnpackedFloat → ℤ ×ₗ ℤ ×ₗ ℤ
  | .infinity .negative => toLex (-2,toLex (0,0))
  | .finite .negative m e _ => toLex (-1,toLex (-e,-m))
  | .zero _ | .notANumber => toLex (0,toLex (0,0))
  | .finite .positive m e _ => toLex (1,toLex (e,m))
  | .infinity .positive => toLex (2,toLex (0,0))

def floatRank (x : Float) : ℤ ×ₗ ℤ ×ₗ ℤ := rankOf x.toModel.unpack

private theorem compare_cast (m n : Nat) : compare (m : ℤ) n = compare m n := by
  rcases lt_trichotomy m n with h | rfl | h
  · rw [compare_lt_iff_lt.mpr h,compare_lt_iff_lt.mpr (by exact_mod_cast h)]
  · simp
  · rw [compare_gt_iff_gt.mpr h,compare_gt_iff_gt.mpr (by exact_mod_cast h)]

private theorem compare_neg (d e : ℤ) : compare (-d) (-e) = (compare d e).swap := by
  rcases lt_trichotomy d e with h | rfl | h
  · rw [compare_lt_iff_lt.mpr h,compare_gt_iff_gt.mpr (neg_lt_neg h)]
    rfl
  · simp
  · rw [compare_gt_iff_gt.mpr h,compare_lt_iff_lt.mpr (neg_lt_neg h)]
    rfl

private theorem compare_sign (i : ℤ) (x y : ℤ ×ₗ ℤ) : compare (toLex (i,x)) (toLex (i,y)) = compare x y := by
  change (compare i i).then (compare x y) = compare x y
  simp

private theorem compare_place (m n : Nat) (d e : ℤ) :
    compare (toLex (d,(m : ℤ))) (toLex (e,(n : ℤ))) = (compare d e).then (compare m n) := by
  rw [← compare_cast m n]
  rfl

private theorem compare_place_neg (m n : Nat) (d e : ℤ) :
    compare (toLex (-d,-(m : ℤ))) (toLex (-e,-(n : ℤ))) = ((compare d e).then (compare m n)).swap := by
  rw [← compare_cast m n,Ordering.swap_then,← compare_neg,← compare_neg]
  rfl

/-- Numbers compare as their places. -/
theorem compare_rankOf {a b : UnpackedFloat} (ha : a.isNaN = false) (hb : b.isNaN = false) :
    a.compare b = some (compare (rankOf a) (rankOf b)) := by
  cases a with
  | notANumber => cases ha
  | infinity s =>
    cases b with
    | notANumber => cases hb
    | infinity t => cases s <;> cases t <;> decide
    | zero t => cases s <;> rfl
    | finite t n e hn => cases s <;> cases t <;> rfl
  | zero s =>
    cases b with
    | notANumber => cases hb
    | infinity t => cases t <;> rfl
    | zero t => rfl
    | finite t n e hn => cases t <;> rfl
  | finite s m d hm =>
    cases b with
    | notANumber => cases hb
    | infinity t => cases s <;> cases t <;> rfl
    | zero t => cases s <;> rfl
    | finite t n e hn =>
      cases s <;> cases t
      · change _ = some (compare (toLex (-1,toLex (-d,-(m : ℤ)))) (toLex (-1,toLex (-e,-(n : ℤ)))))
        rw [compare_sign,compare_place_neg]
        rfl
      · rfl
      · rfl
      · change _ = some (compare (toLex (1,toLex (d,(m : ℤ)))) (toLex (1,toLex (e,(n : ℤ)))))
        rw [compare_sign,compare_place]
        rfl

theorem float_lt_def (x y : Float) : x < y ↔ x.toModel.unpack.compare y.toModel.unpack = some .lt := by
  change decide (x.toModel.unpack.lt y.toModel.unpack = true) = true ↔ _
  rw [decide_eq_true_iff,UnpackedFloat.lt,beq_iff_eq]

theorem float_le_def (x y : Float) : x ≤ y ↔ (x.toModel.unpack.compare y.toModel.unpack).any (·.isLE) = true := by
  change decide (x.toModel.unpack.le y.toModel.unpack = true) = true ↔ _
  rw [decide_eq_true_iff,UnpackedFloat.le]

section order
variable {x y : Float} (hx : x.isNaN = false) (hy : y.isNaN = false)

include hx hy

theorem float_lt_iff : x < y ↔ floatRank x < floatRank y := by
  have hcompare := compare_rankOf (a := x.toModel.unpack) (b := y.toModel.unpack) hx hy
  rw [float_lt_def,hcompare,Option.some.injEq,compare_lt_iff_lt]
  rfl

theorem float_le_iff : x ≤ y ↔ floatRank x ≤ floatRank y := by
  have hcompare := compare_rankOf (a := x.toModel.unpack) (b := y.toModel.unpack) hx hy
  rw [float_le_def,hcompare,Option.any_some,Ordering.isLE_iff_ne_gt,compare_gt_iff_gt,not_lt]
  rfl

end order

/-- No float is below itself. -/
theorem float_lt_irrefl (x : Float) : ¬ x < x := by
  cases hx : x.isNaN with
  | false => exact fun h => lt_irrefl _ ((float_lt_iff hx hx).mp h)
  | true =>
    rw [float_lt_def]
    change x.toModel.unpack.isNaN = true at hx
    generalize x.toModel.unpack = a at hx ⊢
    cases a with
    | notANumber => exact nofun
    | infinity | zero | finite => cases hx

end VoxForge.Core
