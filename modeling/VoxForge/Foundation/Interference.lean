import VoxForge.Foundation.Transactions

/-! Interleaved transactions, each with what it knows of the committed tables. What a
transaction knows has to survive the commits of the others, with which it shares no lock. -/
namespace VoxForge.Foundation
variable {Op : Type} {Reply : Op → Type} {ε τ ω κ γ ν ι : Type} [DecidableEq ν]

def Transaction.Apart (db : Database Op Reply ε τ ω κ γ ν) (t u : Transaction Op Reply ε ω ι) : Prop :=
  ∀ l, t.Holds db l → ¬ u.Holds db l

/-- What a program knows at each of its statements, and what its commit does. -/
structure Interference (db : Database Op Reply ε τ ω κ γ ν) (program : ι → Prog Op Reply ε Unit) where
  Good : τ → Prop
  Knows : τ → Transaction Op Reply ε ω ι → Prop
  /-- What the commit of a transaction may do. -/
  Move : Transaction Op Reply ε ω ι → τ → τ → Prop
  begins : ∀ {c} kind, Good c → Knows c { kind, rest := program kind }
  statement : ∀ {c t o k choice shared}, Good c → Knows c t → t.rest = .call o k →
    Knows c { t with
      pending := t.pending ++ (db.perform choice (t.pending.foldl db.apply c) shared o).2.1
      rest := k (db.perform choice (t.pending.foldl db.apply c) shared o).1 }
  fault : ∀ {c t o k e}, Good c → Knows c t → t.rest = .call o k → db.faults e →
    Knows c { t with rest := k (.error e) }
  commits : ∀ {c t}, Good c → Knows c t → t.rest = .ret () →
    Good (t.pending.foldl db.apply c) ∧ Move t c (t.pending.foldl db.apply c)
  overtaken : ∀ {c t u}, Good c → Knows c t → t.rest = .ret () → Knows c u → u.Apart db t →
    Knows (t.pending.foldl db.apply c) u

namespace Interference
variable {db : Database Op Reply ε τ ω κ γ ν} {program : ι → Prog Op Reply ε Unit} (P : Interference db program)

structure Inv (p : Pool Op Reply ε τ ω κ ι) : Prop where
  good : P.Good p.committed
  knows : ∀ {i t}, p.transaction? i = some t → P.Knows p.committed t
  apart : ∀ {i j t u}, i ≠ j → p.transaction? i = some t → p.transaction? j = some u → t.Apart db u

variable {P} {p q : Pool Op Reply ε τ ω κ ι} {i : Nat} {t : Transaction Op Reply ε ω ι}

omit [DecidableEq ν] in
theorem apart_symm {u : Transaction Op Reply ε ω ι} (h : t.Apart db u) : u.Apart db t :=
  fun l hu ht => h l ht hu

omit [DecidableEq ν] in
/-- Where one place changes, the invariant is owed for that place alone. -/
theorem Inv.replace (shared : κ) (h : P.Inv p) (ht : p.transaction? i = some t)
    {x : Option (Transaction Op Reply ε ω ι)}
    (hx : ∀ t' ∈ x, P.Knows p.committed t' ∧ ∀ j u, j ≠ i → p.transaction? j = some u → t'.Apart db u) :
    P.Inv { p.replace i x with shared } := by
  have hself : ({ p.replace i x with shared } : Pool Op Reply ε τ ω κ ι).transaction? i = x :=
    Pool.transaction?_replace_self ht x
  have hother {j : Nat} (hj : j ≠ i) :
      ({ p.replace i x with shared } : Pool Op Reply ε τ ω κ ι).transaction? j = p.transaction? j :=
    Pool.transaction?_replace_ne hj x
  refine ⟨h.good,fun {j u} hu => ?_,fun {j k u v} hne hu hv => ?_⟩
  · by_cases hj : j = i
    · subst hj
      rw [hself] at hu
      exact (hx u hu).1
    · rw [hother hj] at hu
      exact h.knows hu
  · by_cases hj : j = i
    · subst hj
      rw [hself] at hu
      rw [hother (Ne.symm hne)] at hv
      exact (hx u hu).2 k v (Ne.symm hne) hv
    · rw [hother hj] at hu
      by_cases hk : k = i
      · subst hk
        rw [hself] at hv
        exact apart_symm ((hx v hv).2 j u hj hu)
      · rw [hother hk] at hv
        exact h.apart hne hu hv

omit [DecidableEq ν] in
theorem Inv.begin (h : P.Inv p) (kind : ι) :
    P.Inv { p with running := p.running ++ [some { kind, rest := program kind }] } := by
  have hnew (u : Transaction Op Reply ε ω ι) :
      Transaction.Apart db ({ kind, rest := program kind } : Transaction Op Reply ε ω ι) u := by
    rintro l ⟨w,hw,-⟩
    cases hw
  refine ⟨h.good,fun {j u} hu => ?_,fun {j k u v} hne hu hv => ?_⟩
  · rcases Pool.transaction?_begin hu with hu | rfl
    · exact h.knows hu
    · exact P.begins kind h.good
  · rcases Pool.transaction?_begin hu with hu | rfl
    · rcases Pool.transaction?_begin hv with hv | rfl
      · exact h.apart hne hu hv
      · exact apart_symm (hnew u)
    · exact hnew v

omit [DecidableEq ν] in
theorem Inv.commit (h : P.Inv p) (ht : p.transaction? i = some t) (hrest : t.rest = .ret ()) :
    P.Inv { p.replace i none with committed := p.view db t } ∧ P.Move t p.committed (p.view db t) := by
  obtain ⟨hgood,hmove⟩ := P.commits h.good (h.knows ht) hrest
  have hrolled : P.Inv (p.replace i none) := h.replace p.shared ht fun _ ht' => by cases ht'
  refine ⟨⟨hgood,fun {j u} hu => ?_,fun hne hu hv => hrolled.apart hne hu hv⟩,hmove⟩
  have hj : j ≠ i := by
    rintro rfl
    exact absurd (hu.symm.trans (Pool.transaction?_replace_self ht none)) (by simp)
  have hu : p.transaction? j = some u := (Pool.transaction?_replace_ne hj none).symm.trans hu
  exact P.overtaken h.good (h.knows ht) hrest (h.knows hu) (h.apart hj hu ht)

/-- Only a commit changes what is committed, and by the move of its transaction. -/
def Moves (P : Interference db program) (p : Pool Op Reply ε τ ω κ ι) (q : Pool Op Reply ε τ ω κ ι) :
    PoolLabel ι γ ε → Prop
  | .commit i => ∃ t, p.transaction? i = some t ∧ P.Move t p.committed q.committed
  | _ => q.committed = p.committed

theorem Inv.step {l : PoolLabel ι γ ε} (h : P.Inv p) (hs : p.step db program l = some q) :
    P.Inv q ∧ P.Moves p q l := by
  rcases Pool.step_cases db program hs with ⟨kind,rfl,rfl⟩ | ⟨i,t,ht,⟨choice,o,k,rfl,hrest,hfree,rfl⟩ |
    ⟨e,o,k,rfl,hrest,he,rfl⟩ | ⟨rfl,hrest,rfl⟩ | ⟨rfl,rfl⟩⟩
  · exact ⟨h.begin kind,rfl⟩
  · refine ⟨h.replace _ ht fun t' ht' => ?_,rfl⟩
    cases ht'
    refine ⟨P.statement h.good (h.knows ht) hrest,fun j u hj hu l hl hlu => ?_⟩
    obtain ⟨w,hw,hl⟩ := hl
    rcases List.mem_append.mp hw with hw | hw
    · exact h.apart (Ne.symm hj) ht hu l ⟨w,hw,hl⟩ hlu
    · exact Pool.not_held hfree hu hj hlu w hw hl
  · refine ⟨h.replace p.shared ht fun t' ht' => ?_,rfl⟩
    cases ht'
    exact ⟨P.fault h.good (h.knows ht) hrest he,fun j u hj hu l hl => h.apart (Ne.symm hj) ht hu l hl⟩
  · exact ⟨(h.commit ht hrest).1,t,ht,(h.commit ht hrest).2⟩
  · exact ⟨h.replace p.shared ht fun _ ht' => (by cases ht'),rfl⟩

omit [DecidableEq ν] in
theorem inv_start (committed : τ) (shared : κ) (h : P.Good committed) : P.Inv { committed, shared } := by
  have hnone {i : Nat} {t : Transaction Op Reply ε ω ι}
      (ht : ({ committed, shared } : Pool Op Reply ε τ ω κ ι).transaction? i = some t) : False := by
    simp [Pool.transaction?] at ht
  exact ⟨h,fun ht => (hnone ht).elim,fun _ ht => (hnone ht).elim⟩

/-- Every run keeps the tables good, and changes them by the moves of its commits alone. -/
theorem Inv.run (h : P.Inv p) (ls : List (PoolLabel ι γ ε)) :
    (∀ q, Visits (Pool.step db program) p ls q → P.Inv q) ∧
      ∀ a l b, Fires (Pool.step db program) p ls a l b → P.Moves a b l := by
  have hinv (q : Pool Op Reply ε τ ω κ ι) (hq : Visits (Pool.step db program) p ls q) : P.Inv q :=
    hq.invariant h fun a l b ha hs => (ha.step hs).1
  refine ⟨hinv,fun a l b hf => ?_⟩
  obtain ⟨_,_,_,hstep⟩ := id hf
  exact ((hinv a hf.before).step hstep).2

end Interference
end VoxForge.Foundation
