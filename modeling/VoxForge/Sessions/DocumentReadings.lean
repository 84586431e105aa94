import VoxForge.Sessions.MutatorDiscipline

/-! What the tasks at work on a document hold of it: versions that they have read, each
kept until the task reads or writes again. -/
namespace VoxForge.Sessions
open Foundation Core Persistence Prog

namespace Store
variable {settings : Settings}

theorem step_cases {s s' : Store} {l : Label} (h : s.step settings l = some s') :
    (∃ m, l = .spawn m ∧
      s' = { s with tasks := s.tasks ++ [{ mutator := m, rest := m.program settings }] }) ∨
    (∃ i t o k, s.tasks[i]? = some t ∧ t.rest = .call o k ∧
      ((∃ e : Err, l = .step i (.fault e) ∧ e.external ∧
        s' = { s with tasks := s.tasks.set i { t with rest := k (.error e) } }) ∨
      ∃ answers seen row, l = .step i (.answer answers seen) ∧ s.history[seen]? = some row ∧
        s' = s.perform i t o k answers row)) := by
  cases l with
  | spawn m =>
    cases h
    exact .inl ⟨m,rfl,rfl⟩
  | step i choice =>
    obtain ⟨t,ht,h⟩ := Option.bind_eq_some_iff.mp h
    cases hrest : t.rest with
    | ret a => simp [hrest] at h
    | raise e => simp [hrest] at h
    | call o k =>
      refine .inr ⟨i,t,o,k,ht,hrest,?_⟩
      cases choice with
      | fault e =>
        simp only [hrest] at h
        split at h
        · next he =>
          cases h
          exact .inl ⟨e,rfl,he,rfl⟩
        · cases h
      | answer answers seen =>
        simp only [hrest] at h
        obtain ⟨row,hrow,h⟩ := Option.bind_eq_some_iff.mp h
        cases h
        exact .inr ⟨answers,seen,row,rfl,hrow,rfl⟩

def document (s : Store) : Option Streaming := s.keys.state.map streamingOf

end Store

/-- The stored document and what the run has recorded of it. -/
structure Account where
  document : Option Streaming
  version : Nat
  due : Option Nat
  phaseAt : Nat
  changes : List Nat
  deletedAt : Option Nat
  deriving DecidableEq, Repr

namespace Account

def missed (a : Account) (version : Nat) : Nat := a.changes.countP (version < ·)

/-- After a task has written a document that it made from one read at a version. -/
def write (a : Account) (m : Mutator) (readAt : Nat) (new : Streaming) : Account where
  document := some new
  version := a.version + 1
  due := match m with
    | .setInterrupt => some (a.version + 1)
    | .clearInterrupt => a.due.filter (readAt < ·)
    | _ => a.due
  phaseAt := if a.document.map (·.phase) = some new.phase then a.phaseAt else a.version + 1
  changes := if a.document.map (·.sequence) = some new.sequence then a.changes else a.changes ++ [a.version + 1]
  deletedAt := a.deletedAt

def delete (a : Account) : Account :=
  { a with document := none, version := a.version + 1, due := none, deletedAt := some (a.version + 1) }

end Account

namespace Store
variable {settings : Settings}

def account (s : Store) : Account where
  document := s.document
  version := s.version
  due := s.due
  phaseAt := s.phaseAt
  changes := s.changes
  deletedAt := s.deletedAt

section performing
variable {s : Store} {i : Nat} {t : Running} {o : Op} {k : Except Err (Reply o) → Action Unit}
  {answers : Answers} {seen : SessionRow}

theorem perform_document :
    (s.perform i t o k answers seen).document = (o.stateAfter s.keys.state).map streamingOf :=
  congrArg (·.map streamingOf) (perform_state answers _ s.keys o)

theorem perform_rowAfter : (s.perform i t o k answers seen).row = o.rowAfter s.row :=
  perform_row answers _ _ s.keys o

theorem account_setState {state : SessionState} {ttlSeconds : Nat} {k : Except Err Unit → Action Unit} :
    (s.perform i t (.setState state ttlSeconds) k answers seen).account =
      s.account.write t.mutator t.readAt (streamingOf state) := by
  have hphase : s.keys.state.map (·.phase) = s.document.map (·.phase) := by
    unfold document
    cases s.keys.state <;> rfl
  have hsequence : s.keys.state.map (·.sequence) = s.document.map (·.sequence) := by
    unfold document
    cases s.keys.state <;> rfl
  unfold account Account.write Store.perform
  simp only [phaseAtAfter,changesAfter,hphase,hsequence]
  rfl

def quiet : Op → Bool
  | .setState _ _ | .deleteState => false
  | _ => true

theorem account_quiet (h : quiet o) : (s.perform i t o k answers seen).account = s.account := by
  have hdocument : (s.perform i t o k answers seen).document = s.document := by
    rw [perform_document]
    cases o <;> first | rfl | cases h
  unfold account
  rw [hdocument]
  cases o <;> first | rfl | cases h

end performing

/-! What every run keeps -/

structure Sound (s : Store) : Prop where
  disciplined : ∀ t ∈ s.tasks,
    wp (discipline t.mutator) t.knowledge t.rest (returns fun _ _ => True)
  past : ∀ t ∈ s.tasks, t.readAt ≤ s.version ∧ t.createdAt ≤ s.version
  dated : ∀ v, v ∈ s.due ∨ v ∈ s.deletedAt → v ≤ s.version
  ended : ∀ t ∈ s.tasks, t.knowledge.ended → s.row.status.terminal
  history : ∀ row ∈ s.history, row.status.terminal → s.row.status.terminal
  gone : s.deletedAt.isSome → s.row.status.terminal

theorem sound_start (keys : Keys) (row : SessionRow) : (start keys row).Sound where
  disciplined := by simp [start]
  past := by simp [start]
  dated := by simp [start]
  ended := by simp [start]
  history := by simp [start]
  gone := by simp [start]

section performing
variable {s : Store} {i : Nat} {t : Running} {o : Op} {k : Except Err (Reply o) → Action Unit}
  {answers : Answers} {seen : SessionRow}

theorem terminal_rowAfter {m : Mutator} {c : Knowledge} {row : SessionRow} (hp : c.permits m o)
    (h : row.status.terminal) : (o.rowAfter row).status.terminal := by
  cases o with
  | updateSessionStatus status => exact hp.elim
  | updateSessionEnded status endedAt => exact hp
  | _ => exact h

theorem le_versionAfter (s : Store) (o : Op) : s.version ≤ s.versionAfter o := by
  unfold versionAfter
  split <;> omega

theorem perform_past (h : s.Sound) (ht : t ∈ s.tasks) :
    ∀ u ∈ (s.perform i t o k answers seen).tasks, u.readAt ≤ (s.perform i t o k answers seen).version ∧
      u.createdAt ≤ (s.perform i t o k answers seen).version := by
  intro u hu
  have hver := s.le_versionAfter o
  rcases List.mem_or_eq_of_mem_set hu with hu | rfl
  · exact ⟨(h.past u hu).1.trans hver,(h.past u hu).2.trans hver⟩
  · obtain ⟨hread,hcreated⟩ := h.past t ht
    show s.readAtAfter t o ≤ s.versionAfter o ∧ s.createdAtAfter t o ≤ s.versionAfter o
    cases o with
    | setState state ttlSeconds =>
      refine ⟨le_rfl,?_⟩
      show (if t.knowledge.base = some none then s.version + 1 else t.createdAt) ≤ s.version + 1
      split <;> omega
    | deleteState => exact ⟨hread.trans hver,hcreated.trans hver⟩
    | getState => exact ⟨le_rfl,hcreated⟩
    | selectSession =>
      refine ⟨?_,hcreated⟩
      show (if t.knowledge.created.isSome then t.createdAt else t.readAt) ≤ s.version
      split
      · exact hcreated
      · exact hread
    | _ => exact ⟨hread,hcreated⟩

theorem perform_dated (h : s.Sound) :
    ∀ v, v ∈ (s.perform i t o k answers seen).due ∨ v ∈ (s.perform i t o k answers seen).deletedAt →
      v ≤ (s.perform i t o k answers seen).version := by
  intro v hv
  have hv : v ∈ s.dueAfter t o ∨ v ∈ s.deletedAtAfter o := hv
  show v ≤ s.versionAfter o
  have hold (hbefore : v ∈ s.due ∨ v ∈ s.deletedAt) : v ≤ s.versionAfter o :=
    (h.dated v hbefore).trans (s.le_versionAfter o)
  cases o with
  | setState state ttlSeconds =>
    rcases hv with hdue | hdeleted
    · cases hm : t.mutator with
      | setInterrupt =>
        simp only [dueAfter,hm,Option.mem_def,Option.some_inj] at hdue
        exact hdue.symm.le
      | clearInterrupt =>
        simp only [dueAfter,hm,Option.mem_def,Option.filter_eq_some_iff] at hdue
        exact hold (.inl hdue.1)
      | _ => exact hold (.inl (by simpa [dueAfter,hm] using hdue))
    · exact hold (.inr hdeleted)
  | deleteState =>
    rcases hv with hdue | hdeleted
    · cases hdue
    · cases hdeleted
      exact le_rfl
  | _ => exact hold hv

theorem perform_ended (h : s.Sound) (ht : t ∈ s.tasks) (hseen : seen ∈ s.history)
    (hp : t.knowledge.permits t.mutator o) :
    ∀ u ∈ (s.perform i t o k answers seen).tasks, u.knowledge.ended →
      (s.perform i t o k answers seen).row.status.terminal := by
  intro u hu hended
  rw [perform_rowAfter]
  rcases List.mem_or_eq_of_mem_set hu with hu | rfl
  · exact terminal_rowAfter hp (h.ended u hu hended)
  · cases o with
    | selectSession =>
      rcases Bool.or_eq_true_iff.mp hended with hknown | hterm
      · exact h.ended t ht hknown
      · exact h.history seen hseen hterm
    | updateSessionEnded status endedAt => exact hp
    | updateSessionStatus status => exact hp.elim
    | _ => exact h.ended t ht hended

theorem perform_history (h : s.Sound) (hp : t.knowledge.permits t.mutator o) :
    ∀ row ∈ (s.perform i t o k answers seen).history, row.status.terminal →
      (s.perform i t o k answers seen).row.status.terminal := by
  intro row hrow hterm
  rcases List.mem_append.mp hrow with hrow | hrow
  · rw [perform_rowAfter]
    exact terminal_rowAfter hp (h.history row hrow hterm)
  · rw [List.mem_singleton.mp hrow] at hterm
    exact hterm

theorem perform_gone (h : s.Sound) (ht : t ∈ s.tasks) (hp : t.knowledge.permits t.mutator o) :
    (s.perform i t o k answers seen).deletedAt.isSome → (s.perform i t o k answers seen).row.status.terminal := by
  intro hdeleted
  rw [perform_rowAfter]
  have hdeleted : (s.deletedAtAfter o).isSome := hdeleted
  cases o with
  | deleteState => exact h.ended t ht hp
  | _ => exact terminal_rowAfter hp (h.gone hdeleted)

end performing

theorem forall_mem_set {P : Running → Prop} {ts : List Running} {i : Nat} {t : Running} (h : ∀ u ∈ ts, P u)
    (ht : P t) : ∀ u ∈ ts.set i t, P u := by
  intro u hu
  rcases List.mem_or_eq_of_mem_set hu with hu | rfl
  · exact h u hu
  · exact ht

theorem forall_mem_concat {P : Running → Prop} {ts : List Running} {t : Running} (h : ∀ u ∈ ts, P u)
    (ht : P t) : ∀ u ∈ ts ++ [t], P u := by
  intro u hu
  rcases List.mem_append.mp hu with hu | hu
  · exact h u hu
  · rw [List.mem_singleton.mp hu]
    exact ht

theorem Sound.permits {s : Store} (h : s.Sound) {t : Running} (ht : t ∈ s.tasks) {o : Op}
    {k : Except Err (Reply o) → Action Unit} (hrest : t.rest = .call o k) : t.knowledge.permits t.mutator o := by
  have hwp := h.disciplined t ht
  rw [hrest] at hwp
  exact hwp.1

theorem sound_step {s s' : Store} {l : Label} (h : s.Sound) (hs : s.step settings l = some s') : s'.Sound := by
  rcases step_cases hs with ⟨m,rfl,rfl⟩ | ⟨i,t,o,k,ht,hrest,⟨e,rfl,he,rfl⟩ | ⟨answers,seen,row,rfl,hrow,rfl⟩⟩
  · exact ⟨forall_mem_concat h.disciplined (program_disciplined settings m),
      forall_mem_concat h.past ⟨Nat.zero_le _,Nat.zero_le _⟩,h.dated,forall_mem_concat h.ended (fun he => by cases he),
      h.history,h.gone⟩
  · have ht := List.mem_of_getElem? ht
    have hwp := h.disciplined t ht
    rw [hrest] at hwp
    have hnext := hwp.2 (.error e) fun e' he' => by
      cases he'
      exact he
    have hsame : t.knowledge.after o (.error e) = t.knowledge := by
      cases o <;> rfl
    exact ⟨forall_mem_set h.disciplined (hsame ▸ hnext),forall_mem_set h.past (h.past t ht),h.dated,
      forall_mem_set h.ended (h.ended t ht),h.history,h.gone⟩
  · have ht := List.mem_of_getElem? ht
    have hp := h.permits ht hrest
    have hwp := h.disciplined t ht
    rw [hrest] at hwp
    have hnext := hwp.2 (Persistence.perform answers { session := row } s.keys o).1 fun e he => perform_external he
    exact ⟨forall_mem_set h.disciplined hnext,perform_past h ht,perform_dated h,
      perform_ended h ht (List.mem_of_getElem? hrow) hp,perform_history h hp,perform_gone h ht hp⟩

/-! What holds of every version that a task goes by -/

/-- A property of documents and the versions they were read at, for all that the tasks know and
for what is stored. -/
structure Recorded (J : Account → Nat → Option Streaming → Prop) (s : Store) : Prop where
  base : ∀ t ∈ s.tasks, ∀ b ∈ t.knowledge.base, J s.account t.readAt b
  created : ∀ t ∈ s.tasks, ∀ d ∈ t.knowledge.created, J s.account t.createdAt (some d)
  now : J s.account s.version s.document

section recorded
variable {J : Account → Nat → Option Streaming → Prop} {s s' : Store} {l : Label}

theorem recorded_start (keys : Keys) (row : SessionRow) (h : J (start keys row).account 0 (start keys row).document) :
    Recorded J (start keys row) where
  base := by simp [start]
  created := by simp [start]
  now := h

/-- What the task at work goes by after an operation is what it went by, or what is stored then. -/
theorem Recorded.perform {i : Nat} {t : Running} {o : Op} {k : Except Err (Reply o) → Action Unit} {answers : Answers}
    {seen : SessionRow} (h : Recorded J s) (hs : s.Sound) (ht : t ∈ s.tasks)
    (holder : ∀ v b, v ≤ s.version → J s.account v b → J (s.perform i t o k answers seen).account v b)
    (hnow : J (s.perform i t o k answers seen).account (s.perform i t o k answers seen).version
      (s.perform i t o k answers seen).document) :
    Recorded J (s.perform i t o k answers seen) := by
  have hbase (u : Running) (hu : u ∈ s.tasks) (b) (hb : b ∈ u.knowledge.base) :=
    holder u.readAt b (hs.past u hu).1 (h.base u hu b hb)
  have hcreated (u : Running) (hu : u ∈ s.tasks) (d) (hd : d ∈ u.knowledge.created) :=
    holder u.createdAt (some d) (hs.past u hu).2 (h.created u hu d hd)
  refine ⟨forall_mem_set hbase fun b hb => ?_,forall_mem_set hcreated fun d hd => ?_,hnow⟩
  · cases o with
    | getState =>
      cases hb
      exact hnow
    | setState state ttlSeconds =>
      cases hb
      exact hnow
    | selectSession =>
      have hb : b ∈ if t.knowledge.created.isSome then some t.knowledge.created else t.knowledge.base := hb
      show J _ (if t.knowledge.created.isSome then t.createdAt else t.readAt) b
      split at hb
      · next hsome =>
        obtain ⟨d,hd⟩ := Option.isSome_iff_exists.mp hsome
        cases hb
        rw [if_pos hsome,hd]
        exact hcreated t ht d hd
      · next hnone =>
        rw [if_neg hnone]
        exact hbase t ht b hb
    | _ => exact hbase t ht b hb
  · cases o with
    | setState state ttlSeconds =>
      have hd : d ∈ if t.knowledge.base = some none then some (streamingOf state) else t.knowledge.created := hd
      show J _ (if t.knowledge.base = some none then s.version + 1 else t.createdAt) (some d)
      split at hd
      · next hmissing =>
        cases hd
        rw [if_pos hmissing]
        exact hnow
      · next hfound =>
        rw [if_neg hfound]
        exact hcreated t ht d hd
    | _ => exact hcreated t ht d hd

/-- The rule of one step: a property of what was read survives a write and a deletion, and holds
of what is stored after each. -/
theorem Recorded.step (h : Recorded J s) (hs : s.Sound) (hstep : s.step settings l = some s')
    (hwrite : ∀ i answers seen, l = .step i (.answer answers seen) → ∀ t, s.tasks[i]? = some t →
      ∀ state ttlSeconds k, t.rest = .call (.setState state ttlSeconds) k →
        (∀ v b, v ≤ s.version → J s.account v b → J (s.account.write t.mutator t.readAt (streamingOf state)) v b) ∧
          J (s.account.write t.mutator t.readAt (streamingOf state)) (s.version + 1) (some (streamingOf state)))
    (hdelete : (∀ v b, v ≤ s.version → J s.account v b → J s.account.delete v b) ∧
      J s.account.delete (s.version + 1) none) : Recorded J s' := by
  rcases step_cases hstep with ⟨m,rfl,rfl⟩ | ⟨i,t,o,k,ht,hrest,⟨e,rfl,he,rfl⟩ | ⟨answers,seen,row,rfl,hrow,rfl⟩⟩
  · exact ⟨forall_mem_concat h.base (fun b hb => by cases hb),forall_mem_concat h.created (fun d hd => by cases hd),
      h.now⟩
  · have ht := List.mem_of_getElem? ht
    exact ⟨forall_mem_set h.base (h.base t ht),forall_mem_set h.created (h.created t ht),h.now⟩
  · have hmem := List.mem_of_getElem? ht
    by_cases hquiet : quiet o
    · have hsame : (s.perform i t o k answers row).account = s.account := account_quiet hquiet
      have hversion : (s.perform i t o k answers row).version = s.version := congrArg Account.version hsame
      have hdocument : (s.perform i t o k answers row).document = s.document := congrArg Account.document hsame
      refine h.perform hs hmem (fun v b _ hold => hsame ▸ hold) ?_
      rw [hsame,hversion,hdocument]
      exact h.now
    · cases o with
      | setState state ttlSeconds =>
        obtain ⟨holder,hnow⟩ := hwrite i answers seen rfl t ht state ttlSeconds k hrest
        refine h.perform hs hmem (fun v b hv hold => ?_) ?_
        · rw [account_setState]
          exact holder v b hv hold
        · rw [account_setState]
          exact hnow
      | deleteState => exact h.perform hs hmem hdelete.1 hdelete.2
      | _ => exact absurd rfl hquiet

/-- Where a task writes, it goes by a document with the property: it makes its own of it, or finds
it missing and creates another. -/
theorem Recorded.writer (h : Recorded J s) (hs : s.Sound) {t : Running} (ht : t ∈ s.tasks) {state : SessionState}
    {ttlSeconds : Nat} {k : Except Err Unit → Action Unit} (hrest : t.rest = .call (.setState state ttlSeconds) k) :
    (∃ old, J s.account t.readAt (some old) ∧ streamingOf state = t.mutator.effect old) ∨
      (J s.account t.readAt none ∧ t.knowledge.MayCreate t.mutator) := by
  rcases hs.permits ht hrest with ⟨old,hbase,heffect⟩ | hcreate
  · exact .inl ⟨old,h.base t ht _ hbase,heffect⟩
  · exact .inr ⟨h.base t ht _ hcreate.missing,hcreate⟩

end recorded

end Store
end VoxForge.Sessions
