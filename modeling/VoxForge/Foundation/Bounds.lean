import Mathlib.Algebra.Order.BigOperators.Group.List
import Mathlib.Algebra.Order.Floor.Ring
import Mathlib.Algebra.Order.Ring.Int
import Mathlib.Tactic.Ring

/-! Values made of others that stay between the bounds of these: selections, means and interpolation. -/
namespace VoxForge.Foundation

def Bounded {α : Type} [LE α] (lo hi : α) (values : List α) : Prop := ∀ v ∈ values, lo ≤ v ∧ v ≤ hi

/-- Whatever bounds the one list, bounds the other. -/
def Within {α : Type} [LE α] (values source : List α) : Prop :=
  ∀ ⦃lo hi⦄, Bounded lo hi source → Bounded lo hi values

section lists
variable {α : Type} [LE α] {values source first : List α}

theorem Within.trans (h : Within values source) (h' : Within source first) : Within values first :=
  fun _ _ hb => h (h' hb)

theorem Within.refl (values : List α) : Within values values := fun _ _ hb => hb

theorem Within.of_subset (h : values ⊆ source) : Within values source := fun _ _ hb v hv => hb v (h hv)

end lists

/-- The rounded mean of some numbers is between their bounds. -/
theorem Bounded.sum_ediv {values : List ℤ} {lo hi : ℤ} (h : Bounded lo hi values) (hne : values ≠ []) :
    lo ≤ values.sum / values.length ∧ values.sum / values.length ≤ hi := by
  have hlength : (0 : ℤ) < values.length := by exact_mod_cast List.length_pos_of_ne_nil hne
  have hleast : lo * values.length ≤ values.sum := by
    have := List.card_nsmul_le_sum values lo fun v hv => (h v hv).1
    rwa [nsmul_eq_mul,mul_comm] at this
  have hgreatest : values.sum ≤ hi * values.length := by
    have := List.sum_le_card_nsmul values hi fun v hv => (h v hv).2
    rwa [nsmul_eq_mul,mul_comm] at this
  refine ⟨(Int.le_ediv_iff_mul_le hlength).mpr hleast,?_⟩
  calc
    values.sum / values.length ≤ hi * values.length / values.length := Int.ediv_le_ediv hlength hgreatest
    _ = hi := Int.mul_ediv_cancel hi hlength.ne'

section rounding
variable {K : Type} [Field K] [LinearOrder K] [FloorRing K]

def towardZero (q : K) : ℤ := if 0 ≤ q then ⌊q⌋ else ⌈q⌉

theorem towardZero_of_nonneg {q : K} (h : 0 ≤ q) : towardZero q = ⌊q⌋ := if_pos h

/-- Rounding does not leave bounds that are whole numbers. -/
theorem towardZero_between [IsStrictOrderedRing K] {q : K} {lo hi : ℤ} (hlo : (lo : K) ≤ q) (hhi : q ≤ hi) :
    lo ≤ towardZero q ∧ towardZero q ≤ hi := by
  unfold towardZero
  split
  · refine ⟨Int.le_floor.mpr hlo,?_⟩
    exact_mod_cast (Int.floor_le q).trans hhi
  · refine ⟨?_,Int.ceil_le.mpr hhi⟩
    exact_mod_cast hlo.trans (Int.le_ceil q)

end rounding

/-- A point between two values is between their bounds. -/
theorem interpolated_between {K : Type} [Field K] [LinearOrder K] [IsStrictOrderedRing K] {a b t lo hi : K}
    (ha : lo ≤ a ∧ a ≤ hi) (hb : lo ≤ b ∧ b ≤ hi) (ht : 0 ≤ t) (ht' : t ≤ 1) :
    lo ≤ a * (1 - t) + b * t ∧ a * (1 - t) + b * t ≤ hi := by
  have hrest : 0 ≤ 1 - t := sub_nonneg.mpr ht'
  constructor
  · calc
      lo = lo * (1 - t) + lo * t := by ring
      _ ≤ a * (1 - t) + b * t :=
        add_le_add (mul_le_mul_of_nonneg_right ha.1 hrest) (mul_le_mul_of_nonneg_right hb.1 ht)
  · calc
      a * (1 - t) + b * t ≤ hi * (1 - t) + hi * t :=
        add_le_add (mul_le_mul_of_nonneg_right ha.2 hrest) (mul_le_mul_of_nonneg_right hb.2 ht)
      _ = hi := by ring

end VoxForge.Foundation
