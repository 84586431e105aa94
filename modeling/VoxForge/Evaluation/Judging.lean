import VoxForge.Evaluation.Hallucination

/-! Which texts of a judge are scored soundly: a metric from 0 to 1, which passes only on a
number, and a turn whose evaluation goes on. -/
namespace VoxForge.Evaluation
open Core Foundation

theorem pyMin_finite (p q : ℚ) : pyMin (.finite p) (.finite q) = .finite (min p q) := by
  unfold pyMin PyFloat.lt
  by_cases h : q < p
  · rw [if_pos (by simpa using h),min_eq_right h.le]
  · rw [if_neg (by simpa using h),min_eq_left (not_lt.mp h)]

theorem pyMax_finite (p q : ℚ) : pyMax (.finite p) (.finite q) = .finite (max p q) := by
  unfold pyMax PyFloat.lt
  by_cases h : p < q
  · rw [if_pos (by simpa using h),max_eq_right h.le]
  · rw [if_neg (by simpa using h),max_eq_left (not_lt.mp h)]

theorem clampFloat_finite (q : ℚ) : clampFloat (.finite q) = .finite (clamp q) := by
  unfold clampFloat
  rw [pyMin_finite,pyMax_finite]
  rfl

/-- No number is not below 1, so that it is clamped to 1. -/
theorem clampFloat_nan : clampFloat .nan = .finite 1 := by decide +kernel

theorem clampFloat_infinite (negative : Bool) : clampFloat (.infinite negative) = .finite (if negative then 0 else 1) := by
  cases negative <;> decide +kernel

theorem inUnit_clampFloat (digits : Nat) (x : PyFloat) : InUnit (roundFloat digits (clampFloat x)) := by
  cases x with
  | finite q =>
    rw [clampFloat_finite]
    exact inUnit_clamp digits q
  | infinite negative =>
    rw [clampFloat_infinite]
    cases negative
    · exact inUnit_roundTo zero_le_one le_rfl
    · exact inUnit_roundTo le_rfl zero_le_one
  | nan =>
    rw [clampFloat_nan]
    exact inUnit_roundTo zero_le_one le_rfl

theorem statusFromScore_eq_passed {score : PyFloat} :
    statusFromScore score = .passed ↔ atLeast (8 / 10) score = true := by
  unfold statusFromScore
  split_ifs with hhigh hmiddle
  · exact iff_of_true rfl hhigh
  · exact iff_of_false nofun hhigh
  · exact iff_of_false nofun hhigh

/-- What is not below the bound passes, and so does what is no number. -/
theorem passed_clampFloat_iff {x : PyFloat} :
    statusFromScore (clampFloat x) = .passed ↔ x.lt (.finite (8 / 10)) = false := by
  rw [statusFromScore_eq_passed]
  cases x with
  | finite q =>
    rw [clampFloat_finite]
    simp only [atLeast,PyFloat.lt,clamp,decide_eq_true_eq,decide_eq_false_iff_not,not_lt,le_max_iff,le_min_iff]
    constructor
    · rintro (h | ⟨-,h⟩)
      · norm_num at h
      · exact h
    · intro h
      exact .inr ⟨by norm_num,h⟩
  | infinite negative =>
    rw [clampFloat_infinite]
    cases negative <;> decide +kernel
  | nan =>
    rw [clampFloat_nan]
    decide +kernel

section judging
variable (engine : Engine)

/-- A JSON number that is finite. -/
def IsNumber (value : Json) : Prop := (∃ n, value = .int n) ∨ ∃ q, value = .float (.finite q)

/-- The braced span of the text is a JSON object with a finite numeric score. -/
def HoldsScore (text : String) : Prop :=
  ∃ span entries score, bracedSpan text = some span ∧
    JsonDecoder.loads engine.recursionLimit span = .ok (.obj entries) ∧ entries.lookup "score" = some score ∧
    IsNumber score

/-- The engine with a judge that writes a text, or with none. -/
def withJudge (parts : Option (List String)) : Engine :=
  { engine with llm := parts.map fun parts _ _ => .ok parts }

/-- The judge's text gives a metric from 0 to 1, which passes only on a number; and a turn that is
evaluated without the judge is evaluated with it. -/
structure JudgedSoundly (turn : TurnEvaluationInput) (parts : List String) : Prop where
  metric : ∃ metric, hallucination engine (fun _ _ => .ok parts) turn = .ok metric ∧ InUnit metric.score ∧
    (metric.status = .passed → HoldsScore engine (String.join parts))
  turn : (evaluateTurn (withJudge engine none) turn).isOk = true →
    (evaluateTurn (withJudge engine (some parts)) turn).isOk = true

/-- The score of an object, half where it is missing. -/
def scoreEntry (entries : List (String × Json)) : Json := (entries.lookup "score").getD (.float (.finite (1 / 2)))

/-- There is no JSON in the braces, or an object whose score becomes a float that is below the
passing score or is the score's own number. -/
def Scored (text : String) : Prop :=
  bracedSpan text = none ∨ ∃ span, bracedSpan text = some span ∧
    (JsonDecoder.loads engine.recursionLimit span = .error .decodeError ∨
      ∃ entries x, JsonDecoder.loads engine.recursionLimit span = .ok (.obj entries) ∧
        (scoreEntry entries).toFloat engine.host = .ok x ∧
        (x.lt (.finite (8 / 10)) = true ∨ IsNumber (scoreEntry entries)))

/-- What the metric keeps of the judge's text. -/
def detailsOf (turn : TurnEvaluationInput) (text : String) : Json :=
  let parsed := (parseJudgeResponse engine text).toOption.getD .null
  if strip turn.assistantResponse = "" then .obj [("reason",.str "empty response")]
  else .obj [("hallucinated",(parsed.get? "hallucinated").getD .null),("reason",(parsed.get? "reason").getD .null)]

/-- The evaluators return without the judge, and their metrics are stored. -/
def Evaluated (turn : TurnEvaluationInput) : Prop :=
  ∃ measured, measure engine turn = .ok measured ∧ ∀ metric ∈ measured, engine.storable metric.details = true

variable {engine} {turn : TurnEvaluationInput} {parts : List String} {text : String}

theorem judged_eq_ok {metric : EvaluationMetric} :
    judged engine text = .ok metric ↔ ∃ entries x, parseJudgeResponse engine text = .ok (.obj entries) ∧
      (scoreEntry entries).toFloat engine.host = .ok x ∧ metric = {
        name := .hallucination
        score := roundFloat 3 (clampFloat x)
        status := statusFromScore (clampFloat x)
        details := .obj [("hallucinated",(entries.lookup "hallucinated").getD .null),
          ("reason",(entries.lookup "reason").getD .null)] } := by
  constructor
  · intro h
    obtain ⟨parsed,hparse,h⟩ := bind_eq_ok.mp h
    obtain ⟨entry,hentry,h⟩ := bind_eq_ok.mp h
    cases parsed with
    | obj entries =>
      obtain rfl := Except.ok.inj hentry
      obtain ⟨x,hx,hmetric⟩ := bind_eq_ok.mp h
      refine ⟨entries,x,hparse,?_,(Except.ok.inj hmetric).symm⟩
      unfold toFloat at hx
      split at hx
      · next y hy =>
        obtain rfl := Except.ok.inj hx
        exact hy
      · cases hx
    | _ => cases hentry
  · rintro ⟨entries,x,hparse,hx,rfl⟩
    have hfloat : toFloat engine (scoreEntry entries) = .ok x := by
      unfold toFloat
      rw [hx]
    unfold judged
    rw [hparse]
    change (toFloat engine (scoreEntry entries) >>= _) = _
    rw [hfloat]
    rfl

/-- An object is read from the braces, or stands for what is no JSON. -/
theorem parseJudgeResponse_cases (text : String) :
    (bracedSpan text = none ∧ ∃ entries, parseJudgeResponse engine text = .ok (.obj entries) ∧
        scoreEntry entries = .float (.finite (1 / 2))) ∨
    ∃ span, bracedSpan text = some span ∧
      ((JsonDecoder.loads engine.recursionLimit span = .error .decodeError ∧
          ∃ entries, parseJudgeResponse engine text = .ok (.obj entries) ∧
            scoreEntry entries = .float (.finite (1 / 2))) ∨
        (JsonDecoder.loads engine.recursionLimit span ≠ .error .decodeError ∧
          ∀ v, parseJudgeResponse engine text = .ok v ↔ JsonDecoder.loads engine.recursionLimit span = .ok v)) := by
  unfold parseJudgeResponse
  cases hspan : bracedSpan text with
  | none => exact .inl ⟨rfl,_,rfl,rfl⟩
  | some span =>
    refine .inr ⟨span,rfl,?_⟩
    dsimp only
    cases hloads : JsonDecoder.loads engine.recursionLimit span with
    | ok v => exact .inr ⟨nofun,fun w => by simp⟩
    | error e =>
      cases e with
      | decodeError => exact .inl ⟨rfl,_,rfl,rfl⟩
      | valueError => exact .inr ⟨nofun,fun w => by simp⟩
      | recursionError => exact .inr ⟨nofun,fun w => by simp⟩

/-- A metric that passes only on a number comes exactly from a text that is scored. -/
theorem judged_sound_iff :
    (∃ metric, judged engine text = .ok metric ∧ InUnit metric.score ∧
        (metric.status = .passed → HoldsScore engine text)) ↔ Scored engine text := by
  have hsound : (∃ metric, judged engine text = .ok metric ∧ InUnit metric.score ∧
        (metric.status = .passed → HoldsScore engine text)) ↔
      ∃ entries x, parseJudgeResponse engine text = .ok (.obj entries) ∧
        (scoreEntry entries).toFloat engine.host = .ok x ∧
        (x.lt (.finite (8 / 10)) = true ∨ HoldsScore engine text) := by
    constructor
    · rintro ⟨metric,hmetric,-,hpassed⟩
      obtain ⟨entries,x,hparse,hx,rfl⟩ := judged_eq_ok.mp hmetric
      refine ⟨entries,x,hparse,hx,?_⟩
      cases hlt : x.lt (.finite (8 / 10)) with
      | true => exact .inl rfl
      | false => exact .inr (hpassed (passed_clampFloat_iff.mpr hlt))
    · rintro ⟨entries,x,hparse,hx,hscore⟩
      refine ⟨_,judged_eq_ok.mpr ⟨entries,x,hparse,hx,rfl⟩,inUnit_clampFloat _ _,fun hpassed => ?_⟩
      rw [passed_clampFloat_iff.mp hpassed] at hscore
      exact hscore.resolve_left Bool.false_ne_true
  have hhalf : (Json.float (.finite (1 / 2))).toFloat engine.host = .ok (.finite (1 / 2)) := rfl
  have hbelow : (PyFloat.finite (1 / 2)).lt (.finite (8 / 10)) = true := by decide +kernel
  rw [hsound]
  unfold Scored
  rcases @parseJudgeResponse_cases engine text with
    ⟨hspan,entries,hparse,hscore⟩ | ⟨span,hspan,⟨hnone,entries,hparse,hscore⟩ | ⟨hjson,hparse⟩⟩
  · exact iff_of_true ⟨entries,_,hparse,by rw [hscore]; exact hhalf,.inl hbelow⟩ (.inl hspan)
  · exact iff_of_true ⟨entries,_,hparse,by rw [hscore]; exact hhalf,.inl hbelow⟩ (.inr ⟨span,hspan,.inl hnone⟩)
  · constructor
    · rintro ⟨entries,x,hobject,hx,hscore⟩
      refine .inr ⟨span,hspan,.inr ⟨entries,x,(hparse _).mp hobject,hx,hscore.imp id ?_⟩⟩
      rintro ⟨span',entries',score,hspan',hobject',hlookup,hnumber⟩
      obtain rfl := Option.some.inj (hspan.symm.trans hspan')
      obtain rfl : entries = entries' := Json.obj.inj (Except.ok.inj (((hparse _).mp hobject).symm.trans hobject'))
      rw [scoreEntry,hlookup]
      exact hnumber
    · rintro (hnone | ⟨span',hspan',hread⟩)
      · rw [hspan] at hnone
        cases hnone
      obtain rfl := Option.some.inj (hspan.symm.trans hspan')
      rcases hread with hnone | ⟨entries,x,hobject,hx,hscore⟩
      · exact absurd hnone hjson
      refine ⟨entries,x,(hparse _).mpr hobject,hx,?_⟩
      cases hlookup : entries.lookup "score" with
      | none =>
        rw [scoreEntry,hlookup] at hx
        obtain rfl := Except.ok.inj hx
        exact .inl hbelow
      | some score =>
        rw [scoreEntry,hlookup] at hscore
        exact hscore.imp id fun hnumber => ⟨span,entries,score,hspan,hobject,hlookup,hnumber⟩

/-- The details of a metric are those of its text. -/
theorem details_eq {metric : EvaluationMetric} (h : hallucination engine (fun _ _ => .ok parts) turn = .ok metric) :
    metric.details = detailsOf engine turn (String.join parts) := by
  unfold hallucination at h
  unfold detailsOf
  split at h
  · next hblank =>
    obtain rfl := Except.ok.inj h
    rw [if_pos hblank]
  · next hblank =>
    obtain ⟨entries,x,hparse,-,rfl⟩ := judged_eq_ok.mp h
    rw [if_neg hblank,hparse]
    rfl

theorem hallucination_sound_iff :
    (∃ metric, hallucination engine (fun _ _ => .ok parts) turn = .ok metric ∧ InUnit metric.score ∧
        (metric.status = .passed → HoldsScore engine (String.join parts))) ↔
      strip turn.assistantResponse = "" ∨ Scored engine (String.join parts) := by
  unfold hallucination
  by_cases hblank : strip turn.assistantResponse = ""
  · rw [if_pos hblank]
    exact iff_of_true ⟨_,rfl,⟨0,rfl,le_rfl,zero_le_one⟩,nofun⟩ (.inl hblank)
  · rw [if_neg hblank,or_iff_right hblank]
    exact judged_sound_iff

theorem isOk_saveRun {run : EvaluationRun} :
    (saveRun engine run).isOk = true ↔ ∀ metric ∈ run.metrics, engine.storable metric.details = true := by
  unfold saveRun
  split
  · next h => exact iff_of_true rfl (List.all_eq_true.mp h)
  · next h => exact iff_of_false Bool.false_ne_true fun hall => h (List.all_eq_true.mpr hall)

theorem isOk_evaluateTurn (henabled : engine.settings.evaluationEnabled = true) :
    (evaluateTurn engine turn).isOk = true ↔ ∃ metrics, allMetrics engine turn = .ok metrics ∧
      ∀ metric ∈ metrics, engine.storable metric.details = true := by
  have hrun (metrics : List EvaluationMetric) : (do
      let run ← saveRun engine (runOf turn metrics)
      return some run : Except EvaluationError (Option EvaluationRun)).isOk = true ↔
      ∀ metric ∈ metrics, engine.storable metric.details = true := by
    refine Iff.trans ?_ (@isOk_saveRun engine (runOf turn metrics))
    cases saveRun engine (runOf turn metrics) <;> rfl
  unfold evaluateTurn
  rw [henabled]
  cases hmetrics : allMetrics engine turn with
  | error e => exact iff_of_false Bool.false_ne_true nofun
  | ok metrics =>
    refine (hrun metrics).trans ⟨fun h => ⟨metrics,rfl,h⟩,?_⟩
    rintro ⟨others,hothers,h⟩
    obtain rfl := Except.ok.inj hothers
    exact h

/-- Without a judge that is asked the evaluators alone decide. -/
theorem evaluated_iff {texts : Option (List String)} (henabled : engine.settings.evaluationEnabled = true)
    (hidle : judge (withJudge engine texts) = none) :
    (evaluateTurn (withJudge engine texts) turn).isOk = true ↔ Evaluated engine turn := by
  have hnone : allMetrics (withJudge engine texts) turn = measure engine turn := by
    unfold allMetrics
    rw [hidle]
    exact bind_pure (measure engine turn)
  rw [isOk_evaluateTurn (show (withJudge engine texts).settings.evaluationEnabled = true from henabled),hnone]
  rfl

theorem judge_withJudge_none : judge (withJudge engine none) = none := by
  unfold judge withJudge
  split <;> rfl

theorem evaluated_judged_iff (henabled : engine.settings.evaluationEnabled = true)
    (hjudging : engine.settings.hallucinationEnabled = true) :
    (evaluateTurn (withJudge engine (some parts)) turn).isOk = true ↔ Evaluated engine turn ∧
      ∃ metric, hallucination engine (fun _ _ => .ok parts) turn = .ok metric ∧
        engine.storable metric.details = true := by
  have hjudge : judge (withJudge engine (some parts)) = some fun _ _ => .ok parts := if_pos hjudging
  rw [isOk_evaluateTurn (show (withJudge engine (some parts)).settings.evaluationEnabled = true from henabled)]
  unfold allMetrics
  rw [hjudge]
  constructor
  · rintro ⟨metrics,hmetrics,hstored⟩
    obtain ⟨measured,hmeasured,hrest⟩ := bind_eq_ok.mp hmetrics
    obtain ⟨metric,hmetric,hall⟩ := bind_eq_ok.mp hrest
    obtain rfl := Except.ok.inj hall
    exact ⟨⟨measured,hmeasured,fun m hm => hstored m (List.mem_append_left _ hm)⟩,metric,hmetric,
      hstored metric (List.mem_append_right _ List.mem_cons_self)⟩
  · rintro ⟨⟨measured,hmeasured,hstored⟩,metric,hmetric,hlast⟩
    refine ⟨measured ++ [metric],bind_eq_ok.mpr ⟨measured,hmeasured,bind_eq_ok.mpr ⟨metric,hmetric,rfl⟩⟩,?_⟩
    intro m hm
    rcases List.mem_append.mp hm with hm | hm
    · exact hstored m hm
    · obtain rfl := List.mem_singleton.mp hm
      exact hlast

/-- A judge's text is scored soundly exactly if a blank answer makes it idle or its score is sound, and
its details are stored where they have to be. -/
theorem judgedSoundly_iff (engine : Engine) (turn : TurnEvaluationInput) (parts : List String) :
    JudgedSoundly engine turn parts ↔
      (strip turn.assistantResponse = "" ∨ Scored engine (String.join parts)) ∧
      (engine.settings.evaluationEnabled = true → engine.settings.hallucinationEnabled = true →
        Evaluated engine turn → engine.storable (detailsOf engine turn (String.join parts)) = true) := by
  constructor
  · rintro ⟨hmetric,hturn⟩
    refine ⟨hallucination_sound_iff.mp hmetric,fun henabled hjudging heval => ?_⟩
    obtain ⟨-,metric,hok,hstored⟩ :=
      (evaluated_judged_iff henabled hjudging).mp (hturn ((evaluated_iff henabled judge_withJudge_none).mpr heval))
    rwa [← details_eq hok]
  · rintro ⟨hsound,hstored⟩
    have hmetric := hallucination_sound_iff.mpr hsound
    refine ⟨hmetric,fun hbase => ?_⟩
    cases henabled : engine.settings.evaluationEnabled with
    | false =>
      unfold evaluateTurn
      rw [show (withJudge engine (some parts)).settings.evaluationEnabled = false from henabled]
      rfl
    | true =>
      have heval := (evaluated_iff henabled judge_withJudge_none).mp hbase
      cases hjudging : engine.settings.hallucinationEnabled with
      | false =>
        have hidle : judge (withJudge engine (some parts)) = none :=
          if_neg fun h => Bool.false_ne_true (hjudging.symm.trans h)
        exact (evaluated_iff henabled hidle).mpr heval
      | true =>
        obtain ⟨metric,hok,-⟩ := hmetric
        exact (evaluated_judged_iff henabled hjudging).mpr ⟨heval,metric,hok,
          by rw [details_eq hok]; exact hstored henabled hjudging heval⟩

/-- The judge writes no number as its score. -/
theorem null_score_raises :
    ¬ JudgedSoundly { host := asciiHost, recursionLimit := 1000, llm := none, storable := fun _ => true }
      { userTranscript := "hello", assistantResponse := "Hello." } ["\x7b\"score\": null\x7d"] := by
  intro h
  obtain ⟨metric,hmetric,-⟩ := h.metric
  have hraised : (hallucination { host := asciiHost, recursionLimit := 1000, llm := none, storable := fun _ => true }
      (fun _ _ => .ok ["\x7b\"score\": null\x7d"])
      { userTranscript := "hello", assistantResponse := "Hello." }).isOk = false := by decide +kernel
  rw [hmetric] at hraised
  cases hraised

end judging
end VoxForge.Evaluation
