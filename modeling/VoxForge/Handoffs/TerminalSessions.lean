import VoxForge.Handoffs.StatusWrites

/-! A session that has ended, under every interleaving of the operations that write its
row: what a commit may have done for the row to keep its end. -/
namespace VoxForge.Handoffs
open Foundation Core Persistence Sessions Prog

abbrev SessionPool := Pool Op Reply Err Tables Write Keys SessionOperation

/-- `COMPLETED` or `FAILED`, with `ended_at` set. -/
def ended (row : SessionRow) : Bool := row.status.terminal && row.endedAt.isSome

abbrev SessionLabel := PoolLabel SessionOperation Answers Err

/-- How many operations had begun when the session ended. -/
def noteEnd (p : SessionPool) (begun : Option Nat) (_ : SessionLabel) (q : SessionPool) : Option Nat :=
  if ended q.committed.session && !ended p.committed.session then some p.running.length else begun

section runs
variable (settings : HandoffOrchestrator.Settings)

abbrev watched : SessionPool × Option Nat → SessionLabel → Option (SessionPool × Option Nat) :=
  recording (Pool.step database (SessionOperation.program settings)) noteEnd

end runs

/-! What the runs keep in which no ended row has changed -/

section kept
variable {settings : HandoffOrchestrator.Settings} {committed : Tables} {i : Nat}

abbrev Running := Transaction Op Reply Err Write SessionOperation

def Running.statusWrites (t : Running) : List Write := t.pending.filter setsStatus

structure Follows (begun : Option Nat) (i : Nat) (t : Running) : Prop where
  sets : Sets t.kind t.statusWrites
  left : wp (statusDiscipline t.kind) t.statusWrites t.rest fun _ _ => True
  /-- One that began after the end and checks has set no status. -/
  alert : ∀ n ∈ begun, n ≤ i → t.kind.checks →
    t.statusWrites = [] ∧ wp alertDiscipline () t.rest (returns fun _ _ => True)

structure Kept (s : SessionPool × Option Nat) : Prop where
  noted : s.2.isSome = ended s.1.committed.session
  follows : ∀ {i t}, s.1.transaction? i = some t → Follows s.2 i t

theorem endOf_view {p : SessionPool} (t : Running) :
    endOf (p.view database t) = t.statusWrites.foldl actOnEnd (endOf p.committed) :=
  endOf_foldl p.committed t.pending

theorem ended_iff (row : SessionRow) : ended row ↔ ∃ t, row.status.terminal ∧ row.endedAt = some t := by
  simp [ended,Option.isSome_iff_exists]

theorem statusWrites_of_error {answers : Answers} {t : Tables} {keys : Keys} {o : Op} {e : Err}
    (h : (Persistence.perform answers t keys o).1 = .error e) : statusWrites o = [] := by
  cases o with
  | updateSessionStatus status => cases h
  | updateSessionEnded status endedAt => cases h
  | _ => rfl

variable {begun : Option Nat} {t : Running}

theorem Follows.begin (kind : SessionOperation) :
    Follows begun i { kind, rest := kind.program settings } where
  sets := by
    show Sets kind []
    unfold Sets
    split
    · exact .inl rfl
    · simp
  left := sets_program settings kind
  alert _ _ _ hchecks := ⟨rfl,alert_program settings hchecks⟩

/-- The answer to a statement is one to reckon with: a row that has ended is seen as it is. -/
theorem Follows.statement (h : Follows begun i t) {p : SessionPool} (hended : begun.isSome → ended p.committed.session)
    {answers : Answers} {o : Op} {k : Except Err (Reply o) → Action Unit} (hrest : t.rest = .call o k) :
    Follows begun i { t with
      pending := t.pending ++ (Persistence.perform answers (p.view database t) p.shared o).2.1
      rest := k (Persistence.perform answers (p.view database t) p.shared o).1 } := by
  have hwrites (rest : Action Unit) : Running.statusWrites { t with
      pending := t.pending ++ (Persistence.perform answers (p.view database t) p.shared o).2.1, rest } =
      t.statusWrites ++ statusWrites o := by
    unfold Running.statusWrites
    rw [List.filter_append,filter_perform]
  have hleft := h.left
  rw [hrest] at hleft
  obtain ⟨hsets,hnext⟩ := hleft
  refine ⟨?_,?_,fun n hn hi hchecks => ?_⟩
  · rw [hwrites]
    exact hsets
  · rw [hwrites]
    have hafter := hnext (Persistence.perform answers (p.view database t) p.shared o).1 trivial
    cases hreply : (Persistence.perform answers (p.view database t) p.shared o).1 with
    | ok a =>
      rw [hreply] at hafter
      exact hafter
    | error e =>
      rw [hreply] at hafter
      rw [statusWrites_of_error hreply,List.append_nil]
      exact hafter
  · obtain ⟨hnone,halert⟩ := h.alert n hn hi hchecks
    rw [hrest] at halert
    obtain ⟨hsilent,hnext⟩ := halert
    rw [hwrites,hnone,show statusWrites o = [] from hsilent]
    refine ⟨rfl,hnext _ ?_⟩
    cases o with
    | selectSession =>
      have hview : endOf (p.view database t) = endOf p.committed := by rw [endOf_view,hnone]; rfl
      obtain ⟨_,hterminal,_⟩ := (ended_iff _).mp (hended (Option.isSome_iff_exists.mpr ⟨n,hn⟩))
      exact ⟨_,rfl,(congrArg (fun e => e.1.terminal) hview).trans hterminal⟩
    | _ => trivial

theorem Follows.fault (h : Follows begun i t) {o : Op} {k : Except Err (Reply o) → Action Unit} {e : Err}
    (hrest : t.rest = .call o k) : Follows begun i { t with rest := k (.error e) } := by
  have hleft := h.left
  rw [hrest] at hleft
  refine ⟨h.sets,hleft.2 (.error e) trivial,fun n hn hi hchecks => ?_⟩
  obtain ⟨hnone,halert⟩ := h.alert n hn hi hchecks
  rw [hrest] at halert
  refine ⟨hnone,halert.2 (.error e) ?_⟩
  cases o <;> trivial

/-- Where one place changes, the invariant is owed for that place alone. -/
theorem Kept.replace {p : SessionPool} (shared : Keys) (h : Kept (p,begun)) (ht : p.transaction? i = some t)
    {x : Option Running} (hx : ∀ t' ∈ x, Follows begun i t') :
    Kept ({ p.replace i x with shared },begun) := by
  refine ⟨h.noted,fun {j u} hu => ?_⟩
  by_cases hj : j = i
  · subst hj
    rw [show ({ p.replace j x with shared } : SessionPool).transaction? j = x from
      Pool.transaction?_replace_self ht x] at hu
    exact hx u hu
  · exact h.follows ((Pool.transaction?_replace_ne hj x).symm.trans hu)

/-- A commit that leaves an ended row alone: the one that ends the row comes after all that run. -/
theorem Kept.commit {p : SessionPool} (h : Kept (p,begun)) (ht : p.transaction? i = some t)
    (hgood : ended p.committed.session → endOf (p.view database t) = endOf p.committed) :
    Kept ({ p.replace i none with committed := p.view database t },
      if ended (p.view database t).session && !ended p.committed.session then some p.running.length
      else begun) := by
  have hrolled : Kept ({ p.replace i none with shared := p.shared },begun) := h.replace p.shared ht (by simp)
  have hlength : (p.running.set i none).length = p.running.length := List.length_set
  have hnoted : begun.isSome = ended p.committed.session := h.noted
  by_cases hwas : ended p.committed.session
  · have hsame := hgood hwas
    have hstays : ended (p.view database t).session = true := by
      have hrow : ended (p.view database t).session = ended p.committed.session :=
        congrArg (fun e : SessionStatus × Option Time => e.1.terminal && e.2.isSome) hsame
      exact hrow.trans hwas
    rw [if_neg (by simp [hwas])]
    exact ⟨by rw [hnoted,hwas,hstays],hrolled.follows⟩
  · by_cases hnow : ended (p.view database t).session
    · rw [if_pos (by simp [hwas,hnow])]
      refine ⟨hnow.symm,fun {j u} hu => ?_⟩
      have hfollows := hrolled.follows hu
      have hj : j < p.running.length := hlength ▸ Pool.transaction?_lt hu
      refine ⟨hfollows.sets,hfollows.left,fun n hn hle => ?_⟩
      cases hn
      omega
    · rw [if_neg (by simp [hnow])]
      exact ⟨by simp [hnoted,hwas,hnow],hrolled.follows⟩

theorem Kept.step {s s' : SessionPool × Option Nat} {l : SessionLabel} (h : Kept s) (hs : watched settings s l = some s')
    (hgood : ended s.1.committed.session → endOf s'.1.committed = endOf s.1.committed) : Kept s' := by
  obtain ⟨p,begun⟩ := s
  obtain ⟨q,hq,rfl⟩ := Option.map_eq_some_iff.mp hs
  have hended : begun.isSome → ended p.committed.session := fun hbegun => h.noted.symm.trans hbegun
  have hsame (hcommitted : q.committed = p.committed) : noteEnd p begun l q = begun := by
    unfold noteEnd
    rw [hcommitted,Bool.and_not_self]
    rfl
  rcases Pool.step_cases database (SessionOperation.program settings) hq with ⟨kind,-,rfl⟩ |
    ⟨i,t,ht,⟨choice,o,k,-,hrest,hfree,rfl⟩ | ⟨e,o,k,-,hrest,he,rfl⟩ | ⟨-,-,rfl⟩ | ⟨-,rfl⟩⟩
  · rw [hsame rfl]
    refine ⟨h.noted,fun hu => ?_⟩
    rcases Pool.transaction?_begin hu with hu | rfl
    · exact h.follows hu
    · exact .begin kind
  · rw [hsame rfl]
    refine h.replace _ ht fun t' ht' => ?_
    cases ht'
    exact (h.follows ht).statement hended hrest
  · rw [hsame rfl]
    refine h.replace p.shared ht fun t' ht' => ?_
    cases ht'
    exact (h.follows ht).fault hrest
  · exact h.commit ht hgood
  · rw [hsame rfl]
    exact h.replace p.shared ht (by simp)

end kept

private def steps (number i : Nat) (now : Nat) : List (PoolLabel SessionOperation Answers Err) :=
  List.replicate number (.statement i { now })

end VoxForge.Handoffs
