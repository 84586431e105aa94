import Mathlib.Data.List.Infix

/-! Labelled machines whose steps may be disabled, and what their runs preserve.
Nothing here names a program: states and labels are arbitrary types. -/
namespace VoxForge.Foundation
variable {σ ℓ : Type}

/-- Execute a list of labels; a disabled label makes the whole list no run. -/
def run (step : σ → ℓ → Option σ) : σ → List ℓ → Option σ
  | s, [] => some s
  | s, l :: ls => (step s l).bind (run step · ls)

/-- The states a run passes through, its first and last included. -/
def Visits (step : σ → ℓ → Option σ) (s : σ) (ls : List ℓ) (b : σ) : Prop :=
  ∃ p, p <+: ls ∧ run step s p = some b

/-- The transitions a run takes, with the state before and after. -/
def Fires (step : σ → ℓ → Option σ) (s : σ) (ls : List ℓ) (a : σ) (l : ℓ) (b : σ) : Prop :=
  ∃ p, p ++ [l] <+: ls ∧ run step s p = some a ∧ step a l = some b

@[simp] theorem run_nil (step : σ → ℓ → Option σ) (s : σ) : run step s [] = some s := rfl

@[simp] theorem run_cons (step : σ → ℓ → Option σ) (s : σ) (l : ℓ) (ls : List ℓ) :
    run step s (l :: ls) = (step s l).bind (run step · ls) := rfl

theorem run_append (step : σ → ℓ → Option σ) (s : σ) (ls ms : List ℓ) :
    run step s (ls ++ ms) = (run step s ls).bind (run step · ms) := by
  induction ls generalizing s with
  | nil => rfl
  | cons l ls ih =>
    cases h : step s l with
    | none => simp [h]
    | some t => simp [h,ih]

theorem run_concat (step : σ → ℓ → Option σ) (s : σ) (ls : List ℓ) (l : ℓ) :
    run step s (ls ++ [l]) = (run step s ls).bind (step · l) := by
  rw [run_append]
  cases run step s ls with
  | none => rfl
  | some t => simp

/-- A state reached after a nonempty prefix is reached by one enabled step. -/
theorem run_concat_eq_some {step : σ → ℓ → Option σ} {s b : σ} {ls : List ℓ} {l : ℓ} :
    run step s (ls ++ [l]) = some b ↔ ∃ a, run step s ls = some a ∧ step a l = some b := by
  rw [run_concat,Option.bind_eq_some_iff]

/-- A mark in a list is its last element, or stands before it. -/
theorem concat_eq_split {ls before after : List ℓ} {l mark : ℓ} (h : ls ++ [l] = before ++ mark :: after) :
    (ls = before ∧ l = mark ∧ after = []) ∨ ∃ rest, ls = before ++ mark :: rest ∧ after = rest ++ [l] := by
  rcases List.eq_nil_or_concat after with rfl | ⟨rest,last,rfl⟩
  · obtain ⟨hb,hl⟩ := List.append_inj' h rfl
    exact .inl ⟨hb,List.singleton_inj.mp hl,rfl⟩
  · rw [List.concat_eq_append,← List.cons_append,← List.append_assoc] at h
    obtain ⟨hrest,hl⟩ := List.append_inj' h rfl
    exact .inr ⟨rest,hrest,by rw [List.concat_eq_append,List.singleton_inj.mp hl]⟩

/-- A relation between earlier and later elements, told from each element's past. -/
theorem pairwise_iff_past {R : ℓ → ℓ → Prop} {ls : List ℓ} :
    ls.Pairwise R ↔ ∀ past l, past ++ [l] <+: ls → ∀ m ∈ past, R m l := by
  constructor
  · intro h past l hp m hm
    exact (List.pairwise_append.mp (h.sublist hp.sublist)).2.2 m hm l (List.mem_singleton_self l)
  · intro h
    induction ls using List.reverseRecOn with
    | nil => exact List.Pairwise.nil
    | append_singleton ls l ih =>
      refine List.pairwise_append.mpr ⟨?_,List.pairwise_singleton R l,?_⟩
      · exact ih fun past m hp => h past m (hp.trans (List.prefix_append ls [l]))
      · intro m hm l' hl'
        obtain rfl := List.mem_singleton.mp hl'
        exact h ls l' List.prefix_rfl m hm

/-- What holds of some nonempty list holds of a first nonempty one among its beginnings. -/
theorem exists_first_past {P : List ℓ → Prop} {ls : List ℓ} (hne : ls ≠ []) (h : P ls) :
    ∃ past l, past ++ [l] <+: ls ∧ P (past ++ [l]) ∧ ∀ done, done <+: past → done ≠ [] → ¬P done := by
  induction hlen : ls.length using Nat.strong_induction_on generalizing ls with
  | _ n ih =>
    obtain ⟨past,l,rfl⟩ := (List.eq_nil_or_concat ls).resolve_left hne
    rw [List.concat_eq_append] at h hlen ⊢
    by_cases hearlier : ∃ done, done <+: past ∧ done ≠ [] ∧ P done
    · obtain ⟨done,hdone,hne,hP⟩ := hearlier
      have hshort : done.length < n := by
        have hle := hdone.length_le
        rw [List.length_append,List.length_singleton] at hlen
        omega
      obtain ⟨past',l',hp,hfirst⟩ := ih done.length hshort hne hP rfl
      exact ⟨past',l',hp.trans (hdone.trans (List.prefix_append past [l])),hfirst⟩
    · exact ⟨past,l,List.prefix_rfl,h,fun done hp hne hP => hearlier ⟨done,hp,hne,hP⟩⟩

theorem Visits.of_run {step : σ → ℓ → Option σ} {s b : σ} {ls : List ℓ}
    (h : run step s ls = some b) : Visits step s ls b :=
  ⟨ls,List.prefix_rfl,h⟩

theorem Fires.before {step : σ → ℓ → Option σ} {s a b : σ} {ls : List ℓ} {l : ℓ}
    (h : Fires step s ls a l b) : Visits step s ls a := by
  obtain ⟨p,hp,ha,_⟩ := h
  exact ⟨p,(List.prefix_append p [l]).trans hp,ha⟩

theorem Fires.after {step : σ → ℓ → Option σ} {s a b : σ} {ls : List ℓ} {l : ℓ}
    (h : Fires step s ls a l b) : Visits step s ls b := by
  obtain ⟨p,hp,ha,hb⟩ := h
  exact ⟨p ++ [l],hp,run_concat_eq_some.mpr ⟨a,ha,hb⟩⟩

theorem Fires.append {step : σ → ℓ → Option σ} {s a b : σ} {ls ms : List ℓ} {l : ℓ}
    (h : Fires step s ls a l b) : Fires step s (ls ++ ms) a l b := by
  obtain ⟨p,hp,ha,hab⟩ := h
  exact ⟨p,hp.trans (List.prefix_append ls ms),ha,hab⟩

/-- The transitions of a run are its first one and those of the rest. -/
theorem fires_cons_iff {step : σ → ℓ → Option σ} {s a b : σ} {l m : ℓ} {ls : List ℓ} :
    Fires step s (l :: ls) a m b ↔
      (a = s ∧ m = l ∧ step s l = some b) ∨ ∃ t, step s l = some t ∧ Fires step t ls a m b := by
  constructor
  · rintro ⟨p,hp,ha,hab⟩
    cases p with
    | nil =>
      cases ha
      obtain rfl : m = l := (List.cons_prefix_cons.mp hp).1
      exact .inl ⟨rfl,rfl,hab⟩
    | cons x p =>
      obtain ⟨rfl,hrest⟩ := List.cons_prefix_cons.mp hp
      obtain ⟨t,ht,ha⟩ := Option.bind_eq_some_iff.mp ha
      exact .inr ⟨t,ht,p,hrest,ha,hab⟩
  · rintro (⟨rfl,rfl,hab⟩ | ⟨t,ht,p,hp,ha,hab⟩)
    · exact ⟨[],by simp,rfl,hab⟩
    · exact ⟨l :: p,by simpa using hp,by rw [run_cons,ht]; exact ha,hab⟩

theorem not_fires_nil {step : σ → ℓ → Option σ} {s a b : σ} {m : ℓ} : ¬ Fires step s [] a m b := by
  rintro ⟨p,hp,-,-⟩
  simp at hp

/-- The transitions of a run are those of its beginning and its last one. -/
theorem fires_concat_iff {step : σ → ℓ → Option σ} {s a b : σ} {l m : ℓ} {ls : List ℓ} :
    Fires step s (ls ++ [l]) a m b ↔
      Fires step s ls a m b ∨ (m = l ∧ run step s ls = some a ∧ step a l = some b) := by
  constructor
  · rintro ⟨p,hp,ha,hab⟩
    rcases List.prefix_concat_iff.mp hp with hwhole | hbefore
    · obtain ⟨rfl,hlast⟩ := List.append_inj' hwhole rfl
      obtain rfl := List.singleton_inj.mp hlast
      exact .inr ⟨rfl,ha,hab⟩
    · exact .inl ⟨p,hbefore,ha,hab⟩
  · rintro (h | ⟨rfl,ha,hab⟩)
    · exact h.append
    · exact ⟨ls,List.prefix_rfl,ha,hab⟩

/-- Check the transitions of a run one after another. -/
def checkRun (step : σ → ℓ → Option σ) (ok : σ → ℓ → Bool) : σ → List ℓ → Bool
  | _, [] => true
  | s, l :: ls => ok s l && (step s l).all (checkRun step ok · ls)

theorem ok_of_checkRun {step : σ → ℓ → Option σ} {ok : σ → ℓ → Bool} {s a b : σ} {l : ℓ} {ls : List ℓ}
    (h : checkRun step ok s ls) (hf : Fires step s ls a l b) : ok a l := by
  induction ls generalizing s with
  | nil => exact absurd hf not_fires_nil
  | cons m ls ih =>
    obtain ⟨hok,hrest⟩ := Bool.and_eq_true_iff.mp h
    rcases fires_cons_iff.mp hf with ⟨rfl,rfl,-⟩ | ⟨t,ht,hf⟩
    · exact hok
    · rw [ht] at hrest
      exact ih hrest hf

/-- The induction rule of runs: what holds at the start and survives every step
the run takes holds at every state the run visits. -/
theorem Visits.induction {step : σ → ℓ → Option σ} {s : σ} {ls : List ℓ} {I : σ → Prop}
    (h0 : I s) (hs : ∀ a l b, Fires step s ls a l b → I a → I b) {b : σ}
    (h : Visits step s ls b) : I b := by
  obtain ⟨p,hp,hb⟩ := h
  induction p using List.reverseRecOn generalizing b with
  | nil =>
    cases hb
    exact h0
  | append_singleton p l ih =>
    obtain ⟨a,ha,hab⟩ := run_concat_eq_some.mp hb
    exact hs a l b ⟨p,hp,ha,hab⟩ (ih ((List.prefix_append p [l]).trans hp) ha)

/-- The last step of a run that brought a property about: it has held since. -/
def LastIntroduced (step : σ → ℓ → Option σ) (s : σ) (ls : List ℓ) (P : σ → Prop) (a : σ) (l : ℓ) : Prop :=
  ∃ before after b, ls = before ++ l :: after ∧ run step s before = some a ∧ step a l = some b ∧ ¬P a ∧
    ∀ c, Visits step b after c → P c

section introduced
variable {step : σ → ℓ → Option σ} {s a a' b : σ} {l l' : ℓ} {ls : List ℓ} {P : σ → Prop}

theorem LastIntroduced.unique (h : LastIntroduced step s ls P a l) (h' : LastIntroduced step s ls P a' l') :
    a = a' ∧ l = l' := by
  -- a later introduction would find the property holding since the earlier one
  have hlater {before after before' after' : List ℓ} {x y b : σ} {m m' : ℓ} {mid : List ℓ}
      (hbefore : before' = before ++ m :: mid) (hafter : after = mid ++ m' :: after')
      (hx : run step s before = some x) (hstep : step x m = some b) (hsince : ∀ c, Visits step b after c → P c)
      (hy : run step s before' = some y) : P y := by
    refine hsince y ⟨mid,?_,?_⟩
    · rw [hafter]
      exact List.prefix_append mid _
    · rw [hbefore,run_append,hx] at hy
      simpa [hstep] using hy
  obtain ⟨before,after,b,rfl,ha,hab,hnot,hsince⟩ := h
  obtain ⟨before',after',b',hsplit,ha',hab',hnot',hsince'⟩ := h'
  rcases List.append_eq_append_iff.mp hsplit with ⟨mid,hbefore,htail⟩ | ⟨mid,hbefore,htail⟩
  · cases mid with
    | nil =>
      obtain ⟨rfl,-⟩ := List.cons.inj htail
      rw [hbefore,List.append_nil,ha] at ha'
      exact ⟨Option.some_inj.mp ha',rfl⟩
    | cons m mid =>
      obtain ⟨rfl,hrest⟩ := List.cons.inj htail
      exact absurd (hlater hbefore hrest ha hab hsince ha') hnot'
  · cases mid with
    | nil =>
      obtain ⟨rfl,-⟩ := List.cons.inj htail
      rw [hbefore,List.append_nil,ha'] at ha
      exact ⟨(Option.some_inj.mp ha).symm,rfl⟩
    | cons m mid =>
      obtain ⟨rfl,hrest⟩ := List.cons.inj htail
      exact absurd (hlater hbefore hrest ha' hab' hsince' ha) hnot

end introduced

/-- An invariant of the machine holds wherever its runs go. -/
theorem Visits.invariant {step : σ → ℓ → Option σ} {s : σ} {ls : List ℓ} {I : σ → Prop}
    (h0 : I s) (hs : ∀ a l b, I a → step a l = some b → I b) {b : σ}
    (h : Visits step s ls b) : I b :=
  h.induction h0 fun a l b hf ha => hs a l b ha hf.choose_spec.2.2

/-- When a step from a good state leads to a good state exactly if a condition
on its source and label holds, the good runs are the runs all of whose steps
meet that condition. The invariant collects what every run keeps anyway. -/
theorem visits_good_iff {step : σ → ℓ → Option σ} {s : σ} {ls : List ℓ}
    {I Good : σ → Prop} {Ok : σ → ℓ → Prop} (hi : I s) (hg : Good s)
    (hI : ∀ a l b, I a → step a l = some b → I b)
    (hs : ∀ a l b, I a → Good a → step a l = some b → (Good b ↔ Ok a l)) :
    (∀ b, Visits step s ls b → Good b) ↔ (∀ a l b, Fires step s ls a l b → Ok a l) := by
  have hinv {a : σ} (ha : Visits step s ls a) : I a := ha.invariant hi hI
  constructor
  · intro h a l b hf
    obtain ⟨_,_,_,hab⟩ := id hf
    exact (hs a l b (hinv hf.before) (h a hf.before) hab).mp (h b hf.after)
  · intro h b hb
    refine hb.induction hg fun a l b hf ha => ?_
    obtain ⟨_,_,_,hab⟩ := id hf
    exact (hs a l b (hinv hf.before) ha hab).mpr (h a l b hf)

section recording
variable {η : Type} (step : σ → ℓ → Option σ) (note : σ → η → ℓ → σ → η)

def recording (s : σ × η) (l : ℓ) : Option (σ × η) := (step s.1 l).map fun t => (t,note s.1 s.2 l t)

variable {step}

theorem run_recording (s : σ × η) (ls : List ℓ) : (run (recording step note) s ls).map Prod.fst = run step s.1 ls := by
  induction ls generalizing s with
  | nil => rfl
  | cons l ls ih =>
    rw [run_cons,run_cons,recording]
    cases step s.1 l with
    | none => rfl
    | some t => exact ih (t,note s.1 s.2 l t)

variable {note}

variable (note) in
theorem Fires.recording {s a b : σ} {ls : List ℓ} {l : ℓ} (h : Fires step s ls a l b) (r : η) :
    ∃ x y, Fires (recording step note) (s,r) ls (a,x) l (b,y) := by
  obtain ⟨p,hp,ha,hab⟩ := h
  have hrun : (run (Foundation.recording step note) (s,r) p).map Prod.fst = some a := (run_recording note (s,r) p).trans ha
  obtain ⟨⟨a',x⟩,hx,rfl⟩ := Option.map_eq_some_iff.mp hrun
  exact ⟨x,note a' x l b,p,hp,hx,by rw [Foundation.recording,hab]; rfl⟩

end recording

/-- Every schedule leads to the property: it holds already, or some step is left and each one
leads to it. -/
inductive Inevitable (step : σ → ℓ → Option σ) (P : σ → Prop) : σ → Prop where
  | now {s : σ} (h : P s) : Inevitable step P s
  | later {s : σ} (left : ∃ l t, step s l = some t)
      (next : ∀ l t, step s l = some t → Inevitable step P t) : Inevitable step P s

/-- A machine that is never stuck before the property holds, and whose steps all use up some
measure, cannot avoid it. -/
theorem inevitable_of_decreasing {step : σ → ℓ → Option σ} {I P : σ → Prop} (μ : σ → Nat)
    (hI : ∀ a l b, I a → step a l = some b → I b) (hleft : ∀ a, I a → ¬P a → ∃ l b, step a l = some b)
    (hμ : ∀ a l b, I a → step a l = some b → μ b < μ a) {s : σ} (hs : I s) : Inevitable step P s := by
  induction hn : μ s using Nat.strong_induction_on generalizing s with
  | _ n ih =>
    by_cases h : P s
    · exact .now h
    · refine .later (hleft s hs h) fun l t ht => ?_
      have hless : μ t < n := hn ▸ hμ s l t hs ht
      exact ih (μ t) hless (hI s l t hs ht) rfl

end VoxForge.Foundation
