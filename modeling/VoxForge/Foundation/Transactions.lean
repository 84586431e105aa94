import Mathlib.Logic.Relation
import VoxForge.Foundation.Effects
import VoxForge.Foundation.Runs

/-! Transactions that interleave statement by statement. A statement sees what is
committed and what its own transaction has written, and waits while another
transaction holds a lock that it needs; locks are kept to the end. Nothing here names
a program: what one lock protects is reasoned about transaction by transaction. -/
namespace VoxForge.Foundation

/-- Tables `τ` changed by writes `ω` under locks `ν`, next to a store `κ` that is
shared at once; `γ` is what the environment adds to an answer. -/
structure Database (Op : Type) (Reply : Op → Type) (ε τ ω κ γ ν : Type) where
  apply : τ → ω → τ
  lock : ω → Option ν
  perform : γ → τ → κ → (o : Op) → Except ε (Reply o) × List ω × κ
  /-- The exceptions that may come instead of an answer. -/
  faults : ε → Bool

structure Transaction (Op : Type) (Reply : Op → Type) (ε ω ι : Type) where
  kind : ι
  pending : List ω := []
  rest : Prog Op Reply ε Unit

/-- A transaction that has ended leaves its place empty. -/
structure Pool (Op : Type) (Reply : Op → Type) (ε τ ω κ ι : Type) where
  committed : τ
  shared : κ
  running : List (Option (Transaction Op Reply ε ω ι)) := []

inductive PoolLabel (ι γ ε : Type) where
  | begin (kind : ι)
  | statement (i : Nat) (choice : γ)
  | fault (i : Nat) (e : ε)
  | commit (i : Nat)
  | rollback (i : Nat)
  deriving DecidableEq, Repr

variable {Op : Type} {Reply : Op → Type} {ε τ ω κ γ ν ι χ Λ : Type} [DecidableEq ν]

namespace Pool
variable (db : Database Op Reply ε τ ω κ γ ν) (program : ι → Prog Op Reply ε Unit)

def transaction? (p : Pool Op Reply ε τ ω κ ι) (i : Nat) : Option (Transaction Op Reply ε ω ι) :=
  p.running[i]?.join

def replace (p : Pool Op Reply ε τ ω κ ι) (i : Nat) (t : Option (Transaction Op Reply ε ω ι)) :
    Pool Op Reply ε τ ω κ ι :=
  { p with running := p.running.set i t }

def view (p : Pool Op Reply ε τ ω κ ι) (t : Transaction Op Reply ε ω ι) : τ :=
  t.pending.foldl db.apply p.committed

/-- Whether a write needs a lock that another transaction holds. -/
def blocked (p : Pool Op Reply ε τ ω κ ι) (i : Nat) (writes : List ω) : Bool :=
  (p.running.set i none).any fun u => u.any fun u => u.pending.any fun w => writes.any fun w' =>
    (db.lock w).isSome && db.lock w = db.lock w'

def step (p : Pool Op Reply ε τ ω κ ι) : PoolLabel ι γ ε → Option (Pool Op Reply ε τ ω κ ι)
  | .begin kind => some { p with running := p.running ++ [some { kind, rest := program kind }] }
  | .statement i choice => do
    let t ← p.transaction? i
    match t.rest with
    | .call o k =>
      let (reply,writes,shared) := db.perform choice (p.view db t) p.shared o
      if p.blocked db i writes then none
      else return { p.replace i (some { t with pending := t.pending ++ writes, rest := k reply }) with
        shared }
    | _ => none
  | .fault i e => do
    let t ← p.transaction? i
    match t.rest with
    | .call _ k => if db.faults e then return p.replace i (some { t with rest := k (.error e) }) else none
    | _ => none
  | .commit i => do
    let t ← p.transaction? i
    match t.rest with
    | .ret _ => return { p.replace i none with committed := p.view db t }
    | _ => none
  | .rollback i => do
    let _ ← p.transaction? i
    return p.replace i none

section access
variable {p : Pool Op Reply ε τ ω κ ι} {i j : Nat} {t u : Transaction Op Reply ε ω ι}

theorem transaction?_lt (h : p.transaction? i = some t) : i < p.running.length := by
  by_contra hlt
  rw [transaction?,List.getElem?_eq_none (Nat.le_of_not_lt hlt)] at h
  cases h

theorem transaction?_replace_self (h : p.transaction? i = some t)
    (x : Option (Transaction Op Reply ε ω ι)) : (p.replace i x).transaction? i = x := by
  simp [transaction?,replace,transaction?_lt h]

theorem transaction?_replace_ne (h : j ≠ i) (x : Option (Transaction Op Reply ε ω ι)) :
    (p.replace i x).transaction? j = p.transaction? j := by
  simp [transaction?,replace,Ne.symm h]

theorem mem_running (h : p.transaction? i = some t) : p.running[i]? = some (some t) :=
  Option.join_eq_some_iff.mp h

/-- Beside those that ran before, only the one that has just begun runs. -/
theorem transaction?_begin {kind : ι} {program : ι → Prog Op Reply ε Unit}
    (h : ({ p with running := p.running ++ [some { kind, rest := program kind }] } : Pool Op Reply ε τ ω κ ι).transaction? j =
      some u) : p.transaction? j = some u ∨ u = { kind, rest := program kind } := by
  have hmem := mem_running h
  rw [List.getElem?_append] at hmem
  split at hmem
  · exact .inl (by rw [transaction?,hmem]; rfl)
  · exact .inr (by simpa using List.mem_of_getElem? hmem)

end access

theorem step_cases {p q : Pool Op Reply ε τ ω κ ι} {l : PoolLabel ι γ ε}
    (h : p.step db program l = some q) :
    (∃ kind, l = .begin kind ∧
      q = { p with running := p.running ++ [some { kind, rest := program kind }] }) ∨
    ∃ i t, p.transaction? i = some t ∧
      ((∃ choice o k, l = .statement i choice ∧ t.rest = .call o k ∧
        p.blocked db i (db.perform choice (p.view db t) p.shared o).2.1 = false ∧
        q = { p.replace i (some { t with
            pending := t.pending ++ (db.perform choice (p.view db t) p.shared o).2.1
            rest := k (db.perform choice (p.view db t) p.shared o).1 }) with
          shared := (db.perform choice (p.view db t) p.shared o).2.2 }) ∨
      (∃ e o k, l = .fault i e ∧ t.rest = .call o k ∧ db.faults e ∧
        q = p.replace i (some { t with rest := k (.error e) })) ∨
      (l = .commit i ∧ t.rest = .ret () ∧ q = { p.replace i none with committed := p.view db t }) ∨
      (l = .rollback i ∧ q = p.replace i none)) := by
  cases l with
  | begin kind =>
    cases h
    exact .inl ⟨kind,rfl,rfl⟩
  | statement i choice =>
    obtain ⟨t,ht,h⟩ := Option.bind_eq_some_iff.mp h
    cases hrest : t.rest with
    | ret a => simp [hrest] at h
    | raise e => simp [hrest] at h
    | call o k =>
      simp only [hrest] at h
      split at h
      · cases h
      · next hfree =>
        cases h
        exact .inr ⟨i,t,ht,.inl ⟨choice,o,k,rfl,hrest,by simpa using hfree,rfl⟩⟩
  | fault i e =>
    obtain ⟨t,ht,h⟩ := Option.bind_eq_some_iff.mp h
    cases hrest : t.rest with
    | ret a => simp [hrest] at h
    | raise e' => simp [hrest] at h
    | call o k =>
      simp only [hrest] at h
      split at h
      · next he =>
        cases h
        exact .inr ⟨i,t,ht,.inr (.inl ⟨e,o,k,rfl,hrest,he,rfl⟩)⟩
      · cases h
  | commit i =>
    obtain ⟨t,ht,h⟩ := Option.bind_eq_some_iff.mp h
    cases hrest : t.rest with
    | ret a =>
      simp only [hrest] at h
      cases h
      exact .inr ⟨i,t,ht,.inr (.inr (.inl ⟨rfl,hrest,rfl⟩))⟩
    | raise e => simp [hrest] at h
    | call o k => simp [hrest] at h
  | rollback i =>
    obtain ⟨t,ht,h⟩ := Option.bind_eq_some_iff.mp h
    cases h
    exact .inr ⟨i,t,ht,.inr (.inr (.inr ⟨rfl,rfl⟩))⟩

end Pool

def Transaction.Holds (db : Database Op Reply ε τ ω κ γ ν) (t : Transaction Op Reply ε ω ι) (l : ν) :
    Prop :=
  ∃ w ∈ t.pending, db.lock w = some l

/-- A statement that is not blocked writes nothing under a lock of another transaction. -/
theorem Pool.not_held {db : Database Op Reply ε τ ω κ γ ν} {p : Pool Op Reply ε τ ω κ ι} {i j : Nat}
    {u : Transaction Op Reply ε ω ι} {writes : List ω} (h : p.blocked db i writes = false)
    (hu : p.transaction? j = some u) (hne : j ≠ i) {l : ν} (hl : u.Holds db l) :
    ∀ w ∈ writes, db.lock w ≠ some l := by
  intro w' hw' hlock'
  obtain ⟨w,hw,hlock⟩ := hl
  have hmem : some u ∈ p.running.set i none := by
    refine List.mem_of_getElem? (i := j) ?_
    rw [List.getElem?_set_ne (Ne.symm hne)]
    exact mem_running hu
  refine absurd h (ne_of_eq_of_ne ?_ (by decide : true ≠ false))
  refine List.any_eq_true.mpr ⟨some u,hmem,?_⟩
  refine List.any_eq_true.mpr ⟨w,hw,List.any_eq_true.mpr ⟨w',hw',?_⟩⟩
  simp [hlock,hlock']

/-- Writes that change nothing, wherever they are made. -/
theorem foldl_invisible {act : Λ → ω → Λ} {writes : List ω} (h : ∀ w ∈ writes, ∀ a, act a w = a) (a : Λ) :
    writes.foldl act a = a := by
  induction writes with
  | nil => rfl
  | cons w writes ih =>
    rw [List.foldl_cons,h w (by simp)]
    exact ih fun w hw => h w (by simp [hw])

/-- What one lock protects. The observed part of the tables is written only under the
lock; a transaction that has not taken it is idle and sees what is committed, and one
that holds it is related to what is committed by what it has done so far. -/
structure Protocol (db : Database Op Reply ε τ ω κ γ ν) (program : ι → Prog Op Reply ε Unit) (lock : ν)
    (χ Λ : Type) where
  observe : τ → Λ
  act : Λ → ω → Λ
  discipline : ι → Prog.Discipline Op Reply ε χ
  start : χ
  Idle : χ → Prop
  /-- The context of a transaction, what is committed and what it sees itself. -/
  Sees : χ → Λ → Λ → Prop
  Good : Λ → Prop
  /-- What a commit may do. -/
  Move : Λ → Λ → Prop
  /-- The statements that the runs in question execute. -/
  Fair : τ → Op → Prop
  /-- What a program of a kind has done when it has ended. -/
  Final : ι → χ → Except ε Unit → Prop := fun _ _ _ => True
  observe_apply : ∀ t w, observe (db.apply t w) = act (observe t) w
  disciplined : ∀ kind, Prog.wp (discipline kind) start (program kind) (Final kind)
  idle_start : Idle start
  idle_sees : ∀ {c a}, Good a → Idle c → Sees c a a
  possible_perform : ∀ {kind choice v shared o},
    (discipline kind).possible o (db.perform choice v shared o).1
  possible_fault : ∀ {kind o e}, db.faults e → (discipline kind).possible o (.error e)
  sees_perform : ∀ {kind c a choice v shared o}, Good a → (discipline kind).allowed c o → Fair v o →
    Sees c a (observe v) →
      Sees ((discipline kind).after c o (db.perform choice v shared o).1) a
        ((db.perform choice v shared o).2.1.foldl act (observe v))
  idle_perform : ∀ {kind c choice v shared o}, (discipline kind).allowed c o → Idle c →
    (∀ w ∈ (db.perform choice v shared o).2.1, db.lock w ≠ some lock) →
      Idle ((discipline kind).after c o (db.perform choice v shared o).1) ∧
        ∀ w ∈ (db.perform choice v shared o).2.1, ∀ a, act a w = a
  after_fault : ∀ {kind c o e}, (discipline kind).after c o (.error e) = c
  commits : ∀ {c a b}, Good a → Sees c a b → Good b ∧ Move a b

namespace Protocol
variable {db : Database Op Reply ε τ ω κ γ ν} {program : ι → Prog Op Reply ε Unit} {lock : ν}
  (P : Protocol db program lock χ Λ)

/-- A transaction is as its discipline and its lock have it. -/
def Follows (committed : τ) (t : Transaction Op Reply ε ω ι) : Prop :=
  ∃ c, Prog.wp (P.discipline t.kind) c t.rest (P.Final t.kind) ∧
    P.Sees c (P.observe committed) (t.pending.foldl P.act (P.observe committed)) ∧
    (t.Holds db lock ∨ P.Idle c ∧ ∀ w ∈ t.pending, ∀ a, P.act a w = a)

/-- What every run keeps: no two transactions hold the lock, and each follows its discipline. -/
structure Inv (p : Pool Op Reply ε τ ω κ ι) : Prop where
  exclusive : ∀ {i j t u}, p.transaction? i = some t → p.transaction? j = some u →
    t.Holds db lock → u.Holds db lock → i = j
  follows : ∀ {i t}, p.transaction? i = some t → P.Follows p.committed t
  good : P.Good (P.observe p.committed)

omit [DecidableEq ν] in
theorem observe_foldl (v : τ) (writes : List ω) :
    P.observe (writes.foldl db.apply v) = writes.foldl P.act (P.observe v) := by
  induction writes generalizing v with
  | nil => rfl
  | cons w writes ih => rw [List.foldl_cons,ih,P.observe_apply,List.foldl_cons]

variable {P} {p q : Pool Op Reply ε τ ω κ ι} {i : Nat} {t : Transaction Op Reply ε ω ι}

omit [DecidableEq ν] in
/-- Where one place changes, the invariant is owed for that place alone. -/
theorem Inv.replace (shared : κ) (h : P.Inv p) (ht : p.transaction? i = some t)
    {x : Option (Transaction Op Reply ε ω ι)}
    (hx : ∀ t' ∈ x, P.Follows p.committed t' ∧
      (t'.Holds db lock → ∀ j u, j ≠ i → p.transaction? j = some u → ¬ u.Holds db lock)) :
    P.Inv { p.replace i x with shared } := by
  have hself : ({ p.replace i x with shared } : Pool Op Reply ε τ ω κ ι).transaction? i = x :=
    Pool.transaction?_replace_self ht x
  have hother {j : Nat} (hj : j ≠ i) :
      ({ p.replace i x with shared } : Pool Op Reply ε τ ω κ ι).transaction? j = p.transaction? j :=
    Pool.transaction?_replace_ne hj x
  refine ⟨fun {j k u v} hu hv hlu hlv => ?_,fun {j u} hu => ?_,h.good⟩
  · by_cases hj : j = i <;> by_cases hk : k = i
    · exact hj.trans hk.symm
    · subst hj
      rw [hself] at hu
      rw [hother hk] at hv
      exact absurd hlv ((hx u hu).2 hlu k v hk hv)
    · subst hk
      rw [hself] at hv
      rw [hother hj] at hu
      exact absurd hlu ((hx v hv).2 hlv j u hj hu)
    · rw [hother hj] at hu
      rw [hother hk] at hv
      exact h.exclusive hu hv hlu hlv
  · by_cases hj : j = i
    · subst hj
      rw [hself] at hu
      exact (hx u hu).1
    · rw [hother hj] at hu
      exact h.follows hu

omit [DecidableEq ν] in
theorem Inv.begin (h : P.Inv p) (kind : ι) :
    P.Inv { p with running := p.running ++ [some { kind, rest := program kind }] } := by
  have hnew : ¬ ({ kind, rest := program kind } : Transaction Op Reply ε ω ι).Holds db lock := by
    rintro ⟨w,hw,-⟩
    cases hw
  refine ⟨fun {j k u v} hu hv hlu hlv => ?_,fun {j u} hu => ?_,h.good⟩
  · rcases Pool.transaction?_begin hu with hu | rfl
    · rcases Pool.transaction?_begin hv with hv | rfl
      · exact h.exclusive hu hv hlu hlv
      · exact absurd hlv hnew
    · exact absurd hlu hnew
  · rcases Pool.transaction?_begin hu with hu | rfl
    · exact h.follows hu
    · exact ⟨P.start,P.disciplined kind,P.idle_sees h.good P.idle_start,.inr ⟨P.idle_start,by simp⟩⟩

theorem Inv.statement (h : P.Inv p) (ht : p.transaction? i = some t) {o : Op}
    {k : Except ε (Reply o) → Prog Op Reply ε Unit} {choice : γ} (hrest : t.rest = .call o k)
    (hfair : P.Fair (p.view db t) o)
    (hfree : p.blocked db i (db.perform choice (p.view db t) p.shared o).2.1 = false) :
    P.Inv { p.replace i (some { t with
        pending := t.pending ++ (db.perform choice (p.view db t) p.shared o).2.1
        rest := k (db.perform choice (p.view db t) p.shared o).1 }) with
      shared := (db.perform choice (p.view db t) p.shared o).2.2 } := by
  refine h.replace _ ht fun t' ht' => ?_
  cases ht'
  obtain ⟨c,hwp,hsees,hlock⟩ := h.follows ht
  rw [hrest] at hwp
  obtain ⟨hallowed,hnext⟩ := hwp
  have hview : P.observe (p.view db t) = t.pending.foldl P.act (P.observe p.committed) :=
    P.observe_foldl p.committed t.pending
  rw [← hview] at hsees
  refine ⟨⟨_,hnext _ P.possible_perform,?_,?_⟩,fun hl j u hj hu hlu => ?_⟩
  · rw [List.foldl_append,← hview]
    exact P.sees_perform h.good hallowed hfair hsees
  · rcases hlock with ⟨w,hw,hl⟩ | ⟨hidle,hinv⟩
    · exact .inl ⟨w,List.mem_append_left _ hw,hl⟩
    · by_cases htake : ∃ w ∈ (db.perform choice (p.view db t) p.shared o).2.1, db.lock w = some lock
      · obtain ⟨w,hw,hl⟩ := htake
        exact .inl ⟨w,List.mem_append_right _ hw,hl⟩
      · obtain ⟨hidle',hinv'⟩ := P.idle_perform hallowed hidle fun w hw hl => htake ⟨w,hw,hl⟩
        refine .inr ⟨hidle',fun w hw => ?_⟩
        rcases List.mem_append.mp hw with hw | hw
        · exact hinv w hw
        · exact hinv' w hw
  · -- the lock was held before, or this statement has just taken it
    obtain ⟨w,hw,hl⟩ := hl
    rcases List.mem_append.mp hw with hw | hw
    · exact hj (h.exclusive hu ht hlu ⟨w,hw,hl⟩)
    · exact Pool.not_held hfree hu hj hlu w hw hl

omit [DecidableEq ν] in
theorem Inv.fault (h : P.Inv p) (ht : p.transaction? i = some t) {o : Op}
    {k : Except ε (Reply o) → Prog Op Reply ε Unit} {e : ε} (hrest : t.rest = .call o k)
    (he : db.faults e) : P.Inv (p.replace i (some { t with rest := k (.error e) })) := by
  refine h.replace p.shared ht fun t' ht' => ?_
  cases ht'
  obtain ⟨c,hwp,hsees,hlock⟩ := h.follows ht
  rw [hrest] at hwp
  have hnext := hwp.2 _ (P.possible_fault he)
  rw [P.after_fault] at hnext
  exact ⟨⟨c,hnext,hsees,hlock⟩,fun hl j u hj hu hlu => hj (h.exclusive hu ht hlu hl)⟩

omit [DecidableEq ν] in
theorem Inv.rollback (h : P.Inv p) (ht : p.transaction? i = some t) : P.Inv (p.replace i none) :=
  h.replace p.shared ht fun _ ht' => by cases ht'

omit [DecidableEq ν] in
/-- Only the holder of the lock changes the observed part; the others are idle then. -/
theorem Inv.commit (h : P.Inv p) (ht : p.transaction? i = some t) :
    P.Inv { p.replace i none with committed := p.view db t } ∧
      P.Move (P.observe p.committed) (P.observe (p.view db t)) := by
  obtain ⟨c,-,hsees,hlock⟩ := h.follows ht
  have hview : P.observe (p.view db t) = t.pending.foldl P.act (P.observe p.committed) :=
    P.observe_foldl p.committed t.pending
  rw [← hview] at hsees
  obtain ⟨hgood,hmove⟩ := P.commits h.good hsees
  refine ⟨⟨fun {j k u v} hu hv hlu hlv => ?_,fun {j u} hu => ?_,hgood⟩,hmove⟩
  · have hrolled := h.rollback ht
    exact hrolled.exclusive hu hv hlu hlv
  · have hj : j ≠ i := by
      rintro rfl
      have hnone := Pool.transaction?_replace_self ht none
      exact absurd (hu.symm.trans hnone) (by simp)
    have hu : p.transaction? j = some u := (Pool.transaction?_replace_ne hj none).symm.trans hu
    obtain ⟨c',hwp',hsees',hlock'⟩ := h.follows hu
    rcases hlock with hl | ⟨-,hinv⟩
    · have hlu : ¬ u.Holds db lock := fun hlu => hj (h.exclusive hu ht hlu hl)
      obtain ⟨hidle,hinv⟩ := hlock'.resolve_left hlu
      refine ⟨c',hwp',?_,.inr ⟨hidle,hinv⟩⟩
      rw [foldl_invisible hinv]
      exact P.idle_sees hgood hidle
    · have hsame : P.observe (p.view db t) = P.observe p.committed :=
        hview.trans (foldl_invisible hinv _)
      exact ⟨c',hwp',by rw [hsame]; exact hsees',hlock'⟩

/-- What is committed is what a transaction saw that has done all that its program is for. -/
theorem Inv.committed (h : P.Inv p) (hs : p.step db program (.commit i) = some q) :
    ∃ t c, p.transaction? i = some t ∧ P.Final t.kind c (.ok ()) ∧
      P.Sees c (P.observe p.committed) (P.observe q.committed) := by
  rcases Pool.step_cases db program hs with ⟨kind,hl,-⟩ | ⟨j,t,ht,⟨choice,o,k,hl,-⟩ | ⟨e,o,k,hl,-⟩ |
    ⟨hl,hrest,rfl⟩ | ⟨hl,-⟩⟩ <;> cases hl
  obtain ⟨c,hwp,hsees,-⟩ := h.follows ht
  rw [hrest] at hwp
  refine ⟨t,c,ht,hwp,?_⟩
  have hview : P.observe (p.view db t) = t.pending.foldl P.act (P.observe p.committed) :=
    P.observe_foldl p.committed t.pending
  rw [← hview] at hsees
  exact hsees

/-- The statement that a label executes is one of those in question. -/
def FairStep (P : Protocol db program lock χ Λ) (p : Pool Op Reply ε τ ω κ ι) : PoolLabel ι γ ε → Prop
  | .statement i _ => ∀ t ∈ p.transaction? i, ∀ o k, t.rest = .call o k → P.Fair (p.view db t) o
  | _ => True

theorem Inv.step {l : PoolLabel ι γ ε} (h : P.Inv p) (hfair : P.FairStep p l)
    (hs : p.step db program l = some q) :
    P.Inv q ∧ (P.observe q.committed = P.observe p.committed ∨
      P.Move (P.observe p.committed) (P.observe q.committed)) := by
  rcases Pool.step_cases db program hs with ⟨kind,-,rfl⟩ | ⟨i,t,ht,⟨choice,o,k,rfl,hrest,hfree,rfl⟩ |
    ⟨e,o,k,-,hrest,he,rfl⟩ | ⟨-,-,rfl⟩ | ⟨-,rfl⟩⟩
  · exact ⟨h.begin kind,.inl rfl⟩
  · exact ⟨h.statement ht hrest (hfair t ht o k hrest) hfree,.inl rfl⟩
  · exact ⟨h.fault ht hrest he,.inl rfl⟩
  · exact ⟨(h.commit ht).1,.inr (h.commit ht).2⟩
  · exact ⟨h.rollback ht,.inl rfl⟩

omit [DecidableEq ν] in
theorem inv_start (committed : τ) (shared : κ) (h : P.Good (P.observe committed)) :
    P.Inv { committed, shared } := by
  have hnone {i : Nat} {t : Transaction Op Reply ε ω ι}
      (ht : ({ committed, shared } : Pool Op Reply ε τ ω κ ι).transaction? i = some t) : False := by
    simp [Pool.transaction?] at ht
  exact ⟨fun ht _ _ _ => (hnone ht).elim,fun ht => (hnone ht).elim,h⟩

/-- The rule of the lock: a run takes what is committed from good state to good state,
by the moves of single commits. -/
theorem Inv.run {ls : List (PoolLabel ι γ ε)} (h : P.Inv p)
    (hfair : ∀ a l b, Fires (Pool.step db program) p ls a l b → P.FairStep a l)
    (hq : Visits (Pool.step db program) p ls q) :
    P.Inv q ∧ Relation.ReflTransGen P.Move (P.observe p.committed) (P.observe q.committed) := by
  refine hq.induction (I := fun q => P.Inv q ∧
    Relation.ReflTransGen P.Move (P.observe p.committed) (P.observe q.committed))
    ⟨h,.refl⟩ fun a l b hf ha => ?_
  obtain ⟨hinv,hmoves⟩ := ha
  obtain ⟨hb,hstep⟩ := hinv.step (hfair a l b hf) hf.choose_spec.2.2
  refine ⟨hb,?_⟩
  rcases hstep with hsame | hmove
  · rw [hsame]
    exact hmoves
  · exact hmoves.tail hmove

end Protocol
end VoxForge.Foundation
