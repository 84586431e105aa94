import Mathlib.Order.Lattice
import VoxForge.Foundation.Dict

/-! Counters under keys that expire. A key that is hit again before any of its deadlines
counts all its hits. -/
namespace VoxForge.Foundation
variable {κ τ : Type} [DecidableEq κ] [LinearOrder τ]

structure Counter (τ : Type) where
  count : Nat
  expiresAt : Option τ := none
  deriving DecidableEq, Repr

abbrev Counters (κ τ : Type) := Dict κ (Counter τ)

namespace Counters

/-- The counter under a key, unless its time is over. -/
def live (now : τ) (k : κ) (counters : Counters κ τ) : Option (Counter τ) :=
  (Dict.get? counters k).filter fun counter => counter.expiresAt.all (now < ·)

/-- A key that is not there, or not any more, starts at zero and does not expire. -/
def incr (now : τ) (k : κ) (counters : Counters κ τ) : Nat × Counters κ τ :=
  let counter := ((counters.live now k).getD { count := 0 })
  (counter.count + 1,Dict.set counters k { counter with count := counter.count + 1 })

def expire (now deadline : τ) (k : κ) (counters : Counters κ τ) : Counters κ τ :=
  match counters.live now k with
  | none => counters
  | some counter => Dict.set counters k { counter with expiresAt := some deadline }

/-- Count one hit; the first one sets the deadline. -/
def hit (now deadline : τ) (k : κ) (counters : Counters κ τ) : Nat × Counters κ τ :=
  let counted := counters.incr now k
  if counted.1 = 1 then (counted.1,counted.2.expire now deadline k) else counted

/-- The counters hold the hits of a past, each a key with the deadline it would set. -/
def Counts (past : List (κ × τ)) (counters : Counters κ τ) : Prop :=
  ∀ k, match past.find? (·.1 = k) with
    | none => Dict.get? counters k = none
    | some first => Dict.get? counters k =
        some { count := past.countP (·.1 = k), expiresAt := some first.2 }

variable {past : List (κ × τ)} {counters : Counters κ τ} {k : κ} {now : τ}

omit [LinearOrder τ] in
theorem counts_empty : Counts ([] : List (κ × τ)) (Dict.empty : Counters κ τ) := fun _ => rfl

omit [LinearOrder τ] in
theorem countP_concat (k j : κ) (deadline : τ) (past : List (κ × τ)) :
    (past ++ [(k,deadline)]).countP (·.1 = j) = past.countP (·.1 = j) + if j = k then 1 else 0 := by
  rw [List.countP_append,List.countP_singleton]
  by_cases h : j = k
  · simp [h]
  · simp [h,Ne.symm h]

omit [LinearOrder τ] in
theorem find?_concat (k j : κ) (deadline : τ) (past : List (κ × τ)) :
    (past ++ [(k,deadline)]).find? (·.1 = j) =
      (past.find? (·.1 = j)).or (if j = k then some (k,deadline) else none) := by
  rw [List.find?_append,List.find?_singleton]
  by_cases h : j = k
  · simp [h]
  · simp [h,Ne.symm h]

/-- A hit before all deadlines of its key is counted with the earlier ones. -/
theorem Counts.hit (h : Counts past counters) (deadline : τ)
    (halive : ∀ e ∈ past, e.1 = k → now < e.2) :
    (counters.hit now deadline k).1 = past.countP (·.1 = k) + 1 ∧
      Counts (past ++ [(k,deadline)]) (counters.hit now deadline k).2 := by
  have hk := h k
  cases hfirst : past.find? (·.1 = k) with
  | none =>
    rw [hfirst] at hk
    have hzero : past.countP (·.1 = k) = 0 := by
      rw [List.countP_eq_zero]
      exact List.find?_eq_none.mp hfirst
    have hlive : counters.live now k = none := by
      unfold live
      rw [hk]
      rfl
    have hhit : counters.hit now deadline k =
        (1,Dict.set (Dict.set counters k { count := 1 }) k { count := 1, expiresAt := some deadline }) := by
      simp only [Counters.hit,incr,hlive]
      simp [expire,live,Option.filter]
    rw [hhit,hzero]
    refine ⟨rfl,fun j => ?_⟩
    rw [find?_concat,countP_concat]
    by_cases hj : j = k
    · subst hj
      simp [hfirst,hzero]
    · have hother := h j
      simpa [hj] using hother
  | some first =>
    rw [hfirst] at hk
    have hmem := List.mem_of_find?_eq_some hfirst
    have hkey : first.1 = k := by simpa using List.find?_some hfirst
    have hlive : counters.live now k = some { count := past.countP (·.1 = k), expiresAt := some first.2 } := by
      unfold live
      rw [hk]
      simp [halive first hmem hkey]
    have hpos : past.countP (·.1 = k) ≠ 0 := by
      intro hzero
      exact List.countP_eq_zero.mp hzero first hmem (by simp [hkey])
    have hhit : counters.hit now deadline k =
        (past.countP (·.1 = k) + 1,
          Dict.set counters k { count := past.countP (·.1 = k) + 1, expiresAt := some first.2 }) := by
      simp [Counters.hit,incr,hlive,hpos]
    rw [hhit]
    refine ⟨rfl,fun j => ?_⟩
    rw [find?_concat,countP_concat]
    by_cases hj : j = k
    · subst hj
      simp [hfirst]
    · have hother := h j
      simpa [hj] using hother

end Counters
end VoxForge.Foundation
