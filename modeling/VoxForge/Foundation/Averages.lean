import Mathlib.Algebra.BigOperators.Ring.List
import Mathlib.Algebra.Order.BigOperators.Group.List
import Mathlib.Algebra.Order.Field.Basic

/-! Weighted means of values, each with a weight of its own. -/
namespace VoxForge.Foundation
variable {K : Type} [Field K] [LinearOrder K] [IsStrictOrderedRing K]

def totalWeight (parts : List (K × K)) : K := (parts.map Prod.snd).sum

def weightedSum (parts : List (K × K)) : K := (parts.map fun p => p.1 * p.2).sum

/-- The mean, if there is any weight. -/
def weightedMean (parts : List (K × K)) : Option K :=
  if totalWeight parts = 0 then none else some (weightedSum parts / totalWeight parts)

/-- The same weights on values that are at least as large. -/
def Raises (parts raised : List (K × K)) : Prop :=
  parts.Forall₂ (fun p q => p.1 ≤ q.1 ∧ p.2 = q.2 ∧ 0 ≤ p.2) raised

section means
variable {parts raised : List (K × K)}

theorem totalWeight_nonneg (h : ∀ p ∈ parts, 0 ≤ p.2) : 0 ≤ totalWeight parts := by
  refine List.sum_nonneg fun w hw => ?_
  obtain ⟨p,hp,rfl⟩ := List.mem_map.mp hw
  exact h p hp

theorem totalWeight_pos (h : ∀ p ∈ parts, 0 ≤ p.2) (hne : totalWeight parts ≠ 0) : 0 < totalWeight parts :=
  lt_of_le_of_ne (totalWeight_nonneg h) hne.symm

/-- No mean is above all values. -/
theorem weightedSum_le (h : ∀ p ∈ parts, 0 ≤ p.2) {hi : K} (hhi : ∀ p ∈ parts, p.1 ≤ hi) :
    weightedSum parts ≤ hi * totalWeight parts := by
  calc
    weightedSum parts ≤ (parts.map fun p => hi * p.2).sum :=
      List.sum_le_sum fun p hp => mul_le_mul_of_nonneg_right (hhi p hp) (h p hp)
    _ = hi * totalWeight parts := List.sum_map_mul_left ..

/-- No mean is below all values. -/
theorem le_weightedSum (h : ∀ p ∈ parts, 0 ≤ p.2) {lo : K} (hlo : ∀ p ∈ parts, lo ≤ p.1) :
    lo * totalWeight parts ≤ weightedSum parts := by
  calc
    lo * totalWeight parts = (parts.map fun p => lo * p.2).sum := (List.sum_map_mul_left ..).symm
    _ ≤ weightedSum parts := List.sum_le_sum fun p hp => mul_le_mul_of_nonneg_right (hlo p hp) (h p hp)

omit [IsStrictOrderedRing K] in
theorem Raises.totalWeight_eq (h : Raises parts raised) : totalWeight raised = totalWeight parts := by
  induction h with
  | nil => rfl
  | cons hpq _ ih =>
    unfold totalWeight at ih ⊢
    rw [List.map_cons,List.map_cons,List.sum_cons,List.sum_cons,ih,hpq.2.1]

theorem Raises.weightedSum_le (h : Raises parts raised) : weightedSum parts ≤ weightedSum raised := by
  induction h with
  | nil => exact le_rfl
  | cons hpq _ ih =>
    unfold weightedSum at ih ⊢
    rw [List.map_cons,List.map_cons,List.sum_cons,List.sum_cons,← hpq.2.1]
    exact add_le_add (mul_le_mul_of_nonneg_right hpq.1 hpq.2.2) ih

/-- A mean lies between any bounds of the values. -/
theorem weightedMean_between (h : ∀ p ∈ parts, 0 ≤ p.2) {c lo hi : K} (hc : weightedMean parts = some c)
    (hlo : ∀ p ∈ parts, lo ≤ p.1) (hhi : ∀ p ∈ parts, p.1 ≤ hi) : lo ≤ c ∧ c ≤ hi := by
  unfold weightedMean at hc
  split at hc
  · cases hc
  · next hne =>
    obtain rfl := Option.some.inj hc
    have hpos := totalWeight_pos h hne
    exact ⟨(le_div_iff₀ hpos).mpr (le_weightedSum h hlo),(div_le_iff₀ hpos).mpr (weightedSum_le h hhi)⟩

/-- Raised values never have a lower mean. -/
theorem Raises.weightedMean (h : Raises parts raised) (hnonneg : ∀ p ∈ parts, 0 ≤ p.2) :
    Option.Rel (· ≤ ·) (weightedMean parts) (weightedMean raised) := by
  unfold Foundation.weightedMean
  rw [h.totalWeight_eq]
  split
  · exact .none
  · exact .some (div_le_div_of_nonneg_right h.weightedSum_le (totalWeight_nonneg hnonneg))

end means
end VoxForge.Foundation
