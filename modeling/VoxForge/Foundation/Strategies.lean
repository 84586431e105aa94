import VoxForge.Foundation.Effects
import VoxForge.Foundation.Runs

/-! Programs answered by a strategy: each answer may depend on all that was asked and
answered before. What a discipline guarantees for all answers holds of every such run. -/
namespace VoxForge.Foundation.Prog
variable {Op : Type} {Reply : Op → Type} {ε α χ : Type}

/-- An operation with its answer. -/
abbrev Event (Op : Type) (Reply : Op → Type) (ε : Type) := (o : Op) × Except ε (Reply o)

abbrev Strategy (Op : Type) (Reply : Op → Type) (ε : Type) :=
  List (Event Op Reply ε) → (o : Op) → Except ε (Reply o)

def consult (strategy : Strategy Op Reply ε) (o : Op) (past : List (Event Op Reply ε)) :
    Except ε (Reply o) × List (Event Op Reply ε) :=
  (strategy past o,past ++ [⟨o,strategy past o⟩])

/-- The outcome of a run, and its events in order. -/
def play (strategy : Strategy Op Reply ε) (p : Prog Op Reply ε α) :
    Except ε α × List (Event Op Reply ε) :=
  exec (consult strategy) p []

/-- Every event is answered by the strategy, as of what came before. -/
def Answered (strategy : Strategy Op Reply ε) (events : List (Event Op Reply ε)) : Prop :=
  ∀ before event rest, events = before ++ event :: rest → event.2 = strategy before event.1

section answered
variable {strategy : Strategy Op Reply ε} {events : List (Event Op Reply ε)}

theorem answered_concat (h : Answered strategy events) (o : Op) :
    Answered strategy (events ++ [⟨o,strategy events o⟩]) := by
  intro before event rest heq
  rcases concat_eq_split heq with ⟨rfl,rfl,-⟩ | ⟨rest',hevents,-⟩
  · rfl
  · exact h before event rest' hevents

theorem answered_play (p : Prog Op Reply ε α) : Answered strategy (play strategy p).2 := by
  refine exec_keeps (performs_any p) (fun o past _ hpast => answered_concat hpast o) ?_
  intro before event rest heq
  simp at heq

theorem Answered.before {rest : List (Event Op Reply ε)} (h : Answered strategy (events ++ rest)) :
    Answered strategy events := by
  rintro before event after rfl
  exact h before event (after ++ rest) (by simp)

/-- What holds at the start and after each answer holds after all events. -/
theorem Answered.induct {J : List (Event Op Reply ε) → Prop} (h : Answered strategy events) (nil : J [])
    (answer : ∀ past o, J past → J (past ++ [⟨o,strategy past o⟩])) : J events := by
  induction events using List.reverseRecOn with
  | nil => exact nil
  | append_singleton past event ih =>
    have hlast : event = ⟨event.1,strategy past event.1⟩ := Sigma.ext rfl (heq_of_eq (h past event [] rfl))
    rw [hlast]
    exact answer past event.1 (ih h.before)

end answered

/-- The context after some events. -/
def Discipline.follow (d : Discipline Op Reply ε χ) (c : χ) (events : List (Event Op Reply ε)) : χ :=
  events.foldl (fun c event => d.after c event.1 event.2) c

/-- Every event is an operation allowed in the context it meets. -/
def Discipline.Obeyed (d : Discipline Op Reply ε χ) (c : χ) (events : List (Event Op Reply ε)) : Prop :=
  ∀ before event rest, events = before ++ event :: rest → d.allowed (d.follow c before) event.1

@[simp] theorem Discipline.follow_concat (d : Discipline Op Reply ε χ) (c : χ) (events : List (Event Op Reply ε))
    (event : Event Op Reply ε) : d.follow c (events ++ [event]) = d.after (d.follow c events) event.1 event.2 := by
  simp [Discipline.follow]

section rules
variable {d : Discipline Op Reply ε χ} {c : χ}

theorem Discipline.obeyed_nil : d.Obeyed c [] := by
  intro before event rest h
  simp at h

theorem Discipline.obeyed_cons {event : Event Op Reply ε} {events : List (Event Op Reply ε)}
    (he : d.allowed c event.1) (h : d.Obeyed (d.after c event.1 event.2) events) :
    d.Obeyed c (event :: events) := by
  intro before next rest heq
  cases before with
  | nil =>
    obtain ⟨rfl,-⟩ := List.cons.inj heq
    exact he
  | cons first before =>
    obtain ⟨rfl,htail⟩ := List.cons.inj heq
    exact h before next rest htail

private theorem exec_consult (strategy : Strategy Op Reply ε) {p : Prog Op Reply ε α} {post : χ → Except ε α → Prop}
    (hany : ∀ o r, d.possible o r) (h : wp d c p post) (past : List (Event Op Reply ε)) :
    ∃ events, (exec (consult strategy) p past).2 = past ++ events ∧ d.Obeyed c events ∧
      post (d.follow c events) (exec (consult strategy) p past).1 := by
  induction p generalizing c past with
  | ret a => exact ⟨[],by simp [exec],Discipline.obeyed_nil,h⟩
  | raise e => exact ⟨[],by simp [exec],Discipline.obeyed_nil,h⟩
  | call o k ih =>
    obtain ⟨events,heq,hobey,hpost⟩ :=
      ih (strategy past o) (h.2 _ (hany o _)) (past ++ [⟨o,strategy past o⟩])
    refine ⟨⟨o,strategy past o⟩ :: events,?_,Discipline.obeyed_cons h.1 hobey,hpost⟩
    exact heq.trans (by simp)

/-- A program that keeps a discipline for all answers keeps it under every strategy. -/
theorem wp_play (strategy : Strategy Op Reply ε) {p : Prog Op Reply ε α} {post : χ → Except ε α → Prop} (hany : ∀ o r, d.possible o r)
    (h : wp d c p post) :
    d.Obeyed c (play strategy p).2 ∧ post (d.follow c (play strategy p).2) (play strategy p).1 := by
  obtain ⟨events,heq,hobey,hpost⟩ := exec_consult strategy hany h []
  have hevents : (play strategy p).2 = events := heq
  rw [hevents]
  exact ⟨hobey,hpost⟩

end rules
end VoxForge.Foundation.Prog
