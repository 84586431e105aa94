import Mathlib.Data.Finset.Max
import VoxForge.Foundation.Averages
import VoxForge.Handoffs.Policy

/-! The confidence score over the rationals, and what raising a signal does to a decision. -/
namespace VoxForge.Handoffs
open Foundation Core

inductive Signal where
  | criticApproved | hallucinationScore | toolSuccessRatio | sttConfidence | kbTopSimilarity
  deriving DecidableEq, Repr

/-- The signals in the order in which they are weighed. -/
def Signal.all : List Signal :=
  [.criticApproved,.hallucinationScore,.toolSuccessRatio,.sttConfidence,.kbTopSimilarity]

structure RationalSignals where
  criticApproved : Option Bool := none
  hallucinationScore : Option ℚ := none
  toolSuccessRatio : Option ℚ := none
  sttConfidence : Option ℚ := none
  kbTopSimilarity : Option ℚ := none
  deriving DecidableEq, Repr

namespace RationalSignals

def value (signals : RationalSignals) : Signal → Option ℚ
  | .criticApproved => signals.criticApproved.map fun approved => if approved then 1 else 0
  | .hallucinationScore => signals.hallucinationScore
  | .toolSuccessRatio => signals.toolSuccessRatio
  | .sttConfidence => signals.sttConfidence
  | .kbTopSimilarity => signals.kbTopSimilarity

/-- The same signals as floats. -/
def toFloats (signals : RationalSignals) : ConfidenceSignals where
  criticApproved := signals.criticApproved
  hallucinationScore := signals.hallucinationScore.map .finite
  toolSuccessRatio := signals.toolSuccessRatio.map .finite
  sttConfidence := signals.sttConfidence.map .finite
  kbTopSimilarity := signals.kbTopSimilarity.map .finite

/-- Each signal that is there stays there, and is not lowered. -/
def Raised (signals raised : RationalSignals) : Prop :=
  ∀ s, Option.Rel (· ≤ ·) (signals.value s) (raised.value s)

end RationalSignals

def defaultSignalWeights : Signal → ℚ
  | .criticApproved => 30 / 100
  | .hallucinationScore => 25 / 100
  | .toolSuccessRatio => 20 / 100
  | .sttConfidence => 15 / 100
  | .kbTopSimilarity => 10 / 100

inductive ArithmeticError where
  | zeroDivision
  deriving DecidableEq, Repr

def divide (a b : ℚ) : Except ArithmeticError ℚ := if b = 0 then .error .zeroDivision else .ok (a / b)

namespace RationalSignals

def components (signals : RationalSignals) (w : Signal → ℚ) : List (ℚ × ℚ) :=
  Signal.all.filterMap fun s => (signals.value s).map (·,w s)

/-- `compute_confidence_score` over the rationals. -/
def computeConfidenceScore (signals : RationalSignals) (weights : Option (Signal → ℚ)) :
    Except ArithmeticError (Option ℚ) :=
  let w := weights.getD defaultSignalWeights
  let components := signals.components w
  if components = [] then .ok none
  else
    let total := totalWeight components
    if total = 0 then .ok none
    else (divide (weightedSum components) total).map some

end RationalSignals

/-- A score is there unless no signal is or the weights of those that are sum to zero; it lies between
the least and the greatest signal. -/
structure ScoreLaw (signals : RationalSignals) (w : Signal → ℚ) (score : Option ℚ) : Prop where
  none_iff : score = none ↔ (∀ s, signals.value s = none) ∨
    ((Signal.all.filter fun s => (signals.value s).isSome).map w).sum = 0
  between : ∀ c, score = some c → ∃ least greatest : Signal, ∃ lo hi,
    signals.value least = some lo ∧ signals.value greatest = some hi ∧
      (∀ s v, signals.value s = some v → lo ≤ v ∧ v ≤ hi) ∧ lo ≤ c ∧ c ≤ hi

section components
variable {signals raised : RationalSignals} {w : Signal → ℚ}

theorem Signal.mem_all (s : Signal) : s ∈ Signal.all := by
  cases s <;> decide

theorem mem_components {p : ℚ × ℚ} : p ∈ signals.components w ↔ ∃ s, signals.value s = some p.1 ∧ p.2 = w s := by
  unfold RationalSignals.components
  rw [List.mem_filterMap]
  constructor
  · rintro ⟨s,-,hs⟩
    obtain ⟨v,hv,rfl⟩ := Option.map_eq_some_iff.mp hs
    exact ⟨s,hv,rfl⟩
  · rintro ⟨s,hv,hw⟩
    exact ⟨s,s.mem_all,by rw [hv,Option.map_some,← hw]⟩

theorem components_eq_nil_iff : signals.components w = [] ↔ ∀ s, signals.value s = none := by
  unfold RationalSignals.components
  rw [List.filterMap_eq_nil_iff]
  constructor
  · exact fun h s => Option.map_eq_none_iff.mp (h s s.mem_all)
  · exact fun h s _ => Option.map_eq_none_iff.mpr (h s)

theorem totalWeight_components :
    totalWeight (signals.components w) = ((Signal.all.filter fun s => (signals.value s).isSome).map w).sum := by
  unfold totalWeight RationalSignals.components
  congr 1
  induction Signal.all with
  | nil => rfl
  | cons s rest ih =>
    cases hs : signals.value s with
    | none => simp [hs,ih]
    | some v => simp [hs,ih]

theorem components_nonneg (hw : ∀ s, 0 ≤ w s) : ∀ p ∈ signals.components w, 0 ≤ p.2 := by
  intro p hp
  obtain ⟨s,-,heq⟩ := mem_components.mp hp
  exact heq ▸ hw s

theorem raises_components (hw : ∀ s, 0 ≤ w s) (h : signals.Raised raised) :
    Raises (signals.components w) (raised.components w) := by
  unfold RationalSignals.components
  induction Signal.all with
  | nil => exact .nil
  | cons s rest ih =>
    have hs := h s
    cases hv : signals.value s with
    | none =>
      rw [hv] at hs
      have hnone : raised.value s = none := by cases hr : raised.value s with
        | none => rfl
        | some v => rw [hr] at hs; cases hs
      simp only [List.filterMap_cons,hv,hnone,Option.map_none]
      exact ih
    | some v =>
      cases hr : raised.value s with
      | none => rw [hv,hr] at hs; cases hs
      | some v' =>
        rw [hv,hr] at hs
        have hle : v ≤ v' := by cases hs with
          | some h => exact h
        simp only [List.filterMap_cons,hv,hr,Option.map_some]
        exact .cons ⟨hle,rfl,hw s⟩ ih

/-- The score never divides by zero. -/
theorem computeConfidenceScore_eq (weights : Option (Signal → ℚ)) :
    signals.computeConfidenceScore weights =
      .ok (weightedMean (signals.components (weights.getD defaultSignalWeights))) := by
  unfold RationalSignals.computeConfidenceScore weightedMean
  dsimp only
  split
  · next h =>
    rw [h]
    rfl
  · split
    · rfl
    · next htotal =>
      rw [divide,if_neg htotal]
      rfl

/-- There is a least part by any measure. -/
theorem exists_least {parts : List (ℚ × ℚ)} (hne : parts ≠ []) (f : ℚ × ℚ → ℚ) :
    ∃ p ∈ parts, ∀ q ∈ parts, f p ≤ f q := by
  obtain ⟨p,hp⟩ := List.exists_mem_of_ne_nil parts hne
  obtain ⟨q,hq,hleast⟩ := parts.toFinset.exists_min_image f ⟨p,List.mem_toFinset.mpr hp⟩
  exact ⟨q,List.mem_toFinset.mp hq,fun r hr => hleast r (List.mem_toFinset.mpr hr)⟩

theorem scoreLaw (hw : ∀ s, 0 ≤ w s) : ScoreLaw signals w (weightedMean (signals.components w)) where
  none_iff := by
    rw [← components_eq_nil_iff (w := w),← totalWeight_components]
    unfold weightedMean
    split
    · next h => exact iff_of_true rfl (.inr h)
    · next h =>
      refine iff_of_false (by simp) (not_or.mpr ⟨fun hnil => h ?_,h⟩)
      rw [hnil]
      rfl
  between := by
    intro c hc
    have hne : signals.components w ≠ [] := by
      intro hnil
      rw [hnil] at hc
      cases hc
    obtain ⟨p,hp,hleast⟩ := exists_least hne Prod.fst
    obtain ⟨q,hq,hgreatest⟩ := exists_least hne fun r => -r.1
    obtain ⟨least,hlo,-⟩ := mem_components.mp hp
    obtain ⟨greatest,hhi,-⟩ := mem_components.mp hq
    have hmax : ∀ r ∈ signals.components w, r.1 ≤ q.1 := fun r hr => neg_le_neg_iff.mp (hgreatest r hr)
    refine ⟨least,greatest,p.1,q.1,hlo,hhi,fun s v hv => ?_,?_⟩
    · have hmem : (v,w s) ∈ signals.components w := mem_components.mpr ⟨s,hv,rfl⟩
      exact ⟨hleast _ hmem,hmax _ hmem⟩
    · exact weightedMean_between (components_nonneg hw) hc hleast hmax

end components

/-! What the engine makes of it -/

theorem signalComponents_toFloats (signals : RationalSignals) :
    signalComponents signals.toFloats =
      (signals.components defaultSignalWeights).map fun p => (PyFloat.finite p.1,p.2) := by
  rcases signals with ⟨_ | _,_ | _,_ | _,_ | _,_ | _⟩ <;> rfl

theorem foldl_finite (parts : List (ℚ × ℚ)) (start : ℚ) :
    (parts.map fun p => (PyFloat.finite p.1,p.2)).foldl
        (fun (total : PyFloat) component => total.add (component.1.scale component.2)) (.finite start) =
      .finite (start + weightedSum parts) := by
  induction parts generalizing start with
  | nil => simp [weightedSum]
  | cons p parts ih =>
    rw [List.map_cons,List.foldl_cons,PyFloat.scale,PyFloat.add,ih]
    simp only [weightedSum,List.map_cons,List.sum_cons,add_assoc]

/-- The engine scores signals as the rationals do, with the default weights. -/
theorem computeConfidenceScore_toFloats (signals : RationalSignals) :
    computeConfidenceScore signals.toFloats =
      (weightedMean (signals.components defaultSignalWeights)).map .finite := by
  unfold computeConfidenceScore weightedMean
  dsimp only
  rw [signalComponents_toFloats,foldl_finite]
  have htotal : (((signals.components defaultSignalWeights).map fun p => (PyFloat.finite p.1,p.2)).map Prod.snd).sum =
      totalWeight (signals.components defaultSignalWeights) := by
    rw [List.map_map]
    rfl
  rw [htotal]
  split
  · next h =>
    have hzero : totalWeight (signals.components defaultSignalWeights) = 0 := by
      rcases h with hnil | hzero
      · rw [List.map_eq_nil_iff.mp hnil]
        rfl
      · exact hzero
    rw [if_pos hzero]
    rfl
  · next h =>
    rw [if_neg (not_or.mp h).2,zero_add,Option.map_some,PyFloat.scale,div_eq_mul_inv]

/-- A float is not below what a smaller one is not below. -/
theorem lt_of_raised {a b : ℚ} (hab : a ≤ b) {m : PyFloat} (h : PyFloat.lt (.finite a) m = false) :
    PyFloat.lt (.finite b) m = false := by
  cases m with
  | finite q =>
    have hq : ¬ a < q := of_decide_eq_false h
    exact decide_eq_false fun hb => hq (lt_of_le_of_lt hab hb)
  | nan => rfl
  | infinite n => exact h

theorem filter_raised {a b : Option ℚ} (hab : Option.Rel (· ≤ ·) a b) {m : PyFloat}
    (h : (a.map PyFloat.finite).filter (PyFloat.lt · m) = none) :
    (b.map PyFloat.finite).filter (PyFloat.lt · m) = none := by
  cases hab with
  | none => rfl
  | some hle =>
    simp only [Option.map_some,Option.filter_some,ite_eq_right_iff,reduceCtorEq,imp_false,
      Bool.not_eq_true] at h ⊢
    exact lt_of_raised hle h

section engine
variable (host : Host) (fixed : PyFloat → String) (policy : EscalationPolicy) (context : TurnHandoffContext)

/-- When the engine does not escalate. -/
theorem evaluate_stays_iff :
    (evaluate host fixed context policy).shouldEscalate = false ↔ policy.fallbackToHuman = false ∨
      detect host policy.requireExplicitRequest context.userTranscript = none ∧
      (policy.escalateOnCriticalToolFailure && context.criticalToolFailed) = false ∧
      (policy.escalateOnToolFailure && context.toolFailuresThisTurn > 0) = false ∧
      (policy.escalateOnToolFailure && context.consecutiveToolFailures ≥ policy.maxToolFailures) = false ∧
      (computeConfidenceScore context.confidenceSignals).filter (PyFloat.lt · policy.minConfidence) = none ∧
      context.interrupted = false := by
  unfold evaluate
  cases policy.fallbackToHuman with
  | false => simp
  | true =>
    cases detect host policy.requireExplicitRequest context.userTranscript with
    | some reason => simp
    | none =>
      simp only [Bool.not_true,Bool.false_eq_true,if_false,reduceCtorEq,false_or,true_and]
      split
      · next h => simp [h]
      · next hcritical =>
        rw [Bool.not_eq_true] at hcritical
        split
        · next h => simp [h]
        · next hfailures =>
          rw [Bool.not_eq_true] at hfailures
          split
          · next h => simp [h]
          · next hconsecutive =>
            rw [Bool.not_eq_true] at hconsecutive
            simp only [hcritical,hfailures,hconsecutive,true_and]
            cases (computeConfidenceScore context.confidenceSignals).filter (PyFloat.lt · policy.minConfidence) with
            | some low => simp
            | none => cases context.interrupted <;> simp

end engine

/-- The score of any signals under any weights that are not negative: it never fails, lies between its
signals, does not fall when they rise, and a rise makes no decision an escalation. -/
theorem confidence_law (weights : Option (Signal → ℚ)) (hweights : ∀ w, weights = some w → ∀ s, 0 ≤ w s)
    (signals : RationalSignals) :
    ∃ score, signals.computeConfidenceScore weights = .ok score ∧
      ScoreLaw signals (weights.getD defaultSignalWeights) score ∧
      ∀ raised, signals.Raised raised →
        (∃ higher, raised.computeConfidenceScore weights = .ok higher ∧ Option.Rel (· ≤ ·) score higher) ∧
        ∀ (host : Host) (fixed : PyFloat → String) (context : TurnHandoffContext) (policy : EscalationPolicy),
          (evaluate host fixed { context with confidenceSignals := signals.toFloats } policy).shouldEscalate = false →
          (evaluate host fixed { context with confidenceSignals := raised.toFloats } policy).shouldEscalate = false := by
  have hdefault : ∀ s, 0 ≤ defaultSignalWeights s := by
    intro s
    cases s <;> norm_num [defaultSignalWeights]
  have hw : ∀ s, 0 ≤ (weights.getD defaultSignalWeights) s := by
    cases weights with
    | none => exact hdefault
    | some w => exact hweights w rfl
  refine ⟨_,computeConfidenceScore_eq weights,scoreLaw hw,fun raised hraised => ⟨⟨_,computeConfidenceScore_eq weights,?_⟩,?_⟩⟩
  · exact (raises_components hw hraised).weightedMean (components_nonneg hw)
  · intro host fixed context policy hstays
    rw [evaluate_stays_iff] at hstays ⊢
    refine hstays.imp_right fun ⟨hdetect,hcritical,hfailures,hconsecutive,hconfidence,hinterrupted⟩ =>
      ⟨hdetect,hcritical,hfailures,hconsecutive,?_,hinterrupted⟩
    rw [computeConfidenceScore_toFloats] at hconfidence ⊢
    exact filter_raised ((raises_components hdefault hraised).weightedMean (components_nonneg hdefault)) hconfidence

theorem confidence_law_weighted :
    ∃ score, RationalSignals.computeConfidenceScore { criticApproved := some false, sttConfidence := some (1 / 2) }
        (some fun _ => 1) = .ok score ∧
      ScoreLaw { criticApproved := some false, sttConfidence := some (1 / 2) } (fun _ => 1) score :=
  have ⟨score,hscore,hlaw,_⟩ := confidence_law (some fun _ => 1) (by intro w hw s; cases hw; exact zero_le_one)
    { criticApproved := some false, sttConfidence := some (1 / 2) }
  ⟨score,hscore,hlaw⟩

end VoxForge.Handoffs
