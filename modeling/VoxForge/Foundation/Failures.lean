import VoxForge.Foundation.Effects

/-! Programs on a connection that may fail. One operation of a run raises instead of
taking effect, and the failure may break the connection for all that still need it.
What the run leaves follows from the run that does not fail. -/
namespace VoxForge.Foundation.Prog
variable {Op : Type} {Reply : Op → Type} {ε α β σ : Type}

/-- The operation that fails: how many go before it, and what its failure does. -/
structure Failure (ε : Type) where
  after : Nat
  error : ε
  breaks : Bool
  deriving DecidableEq, Repr

/-- Seen `n` operations later. -/
def Failure.closer (n : Nat) (f : Failure ε) : Failure ε := { f with after := f.after - n }

theorem Failure.closer_zero : (Failure.closer 0 : Failure ε → Failure ε) = id := rfl

theorem Failure.closer_succ (n : Nat) :
    (Failure.closer (n + 1) : Failure ε → Failure ε) = Failure.closer n ∘ Failure.closer 1 := by
  funext f
  simp only [Failure.closer,Function.comp,Nat.sub_sub,Nat.add_comm]

structure Connection (σ ε : Type) where
  state : σ
  failure : Option (Failure ε) := none
  broken : Bool := false
  deriving DecidableEq, Repr

/-- The handler of a connection: on a broken one, the operations that need it raise `lost`. -/
def failing (handle : (o : Op) → σ → Except ε (Reply o) × σ) (needs : Op → Bool) (lost : ε)
    (o : Op) (c : Connection σ ε) : Except ε (Reply o) × Connection σ ε :=
  match c.failure with
  | some ⟨0,error,breaks⟩ => (.error error,{ c with failure := none, broken := c.broken || breaks })
  | failure =>
    if c.broken && needs o then (.error lost,{ c with failure := failure.map (Failure.closer 1) })
    else
      let (reply,state) := handle o c.state
      (reply,{ c with state, failure := failure.map (Failure.closer 1) })

/-- The run of a program comes to another program after `n` operations. Each starts
where `E` holds, and its exception would end the run. -/
inductive Reaches (handle : (o : Op) → σ → Except ε (Reply o) × σ) (E : σ → Prop) :
    Prog Op Reply ε α → σ → Nat → Prog Op Reply ε α → σ → Prop
  | here (p : Prog Op Reply ε α) (s : σ) : Reaches handle E p s 0 p s
  | call {o : Op} {k : Except ε (Reply o) → Prog Op Reply ε α} {s t u : σ} {r : Reply o} {n : Nat}
      {p : Prog Op Reply ε α} (hraise : ∀ e, k (.error e) = raise e) (hE : E s)
      (ho : handle o s = (.ok r,t)) (hrest : Reaches handle E (k (.ok r)) t n p u) :
      Reaches handle E (call o k) s (n + 1) p u

section rules
variable {handle : (o : Op) → σ → Except ε (Reply o) × σ} {E : σ → Prop} {s t u : σ} {n m : Nat}

theorem Reaches.trans {p q r : Prog Op Reply ε α} (h : Reaches handle E p s n q t)
    (h' : Reaches handle E q t m r u) : Reaches handle E p s (n + m) r u := by
  induction h with
  | here p s => rwa [Nat.zero_add]
  | call hraise hE ho _ ih =>
    rw [Nat.add_right_comm]
    exact .call hraise hE ho (ih h')

theorem Reaches.bind {p q : Prog Op Reply ε α} (h : Reaches handle E p s n q t)
    (f : α → Prog Op Reply ε β) : Reaches handle E (p >>= f) s n (q >>= f) t := by
  induction h with
  | here p s => exact .here _ s
  | call hraise hE ho _ ih => exact .call (fun e => by rw [hraise e]; rfl) hE ho ih

/-- After `n` operations the program has become one as asked, in a state as asked. -/
def Comes (handle : (o : Op) → σ → Except ε (Reply o) × σ) (E : σ → Prop) (n : Nat) (s : σ)
    (p : Prog Op Reply ε α) (q : Prog Op Reply ε α → σ → Prop) : Prop :=
  ∃ p' t, Reaches handle E p s n p' t ∧ q p' t

/-- The program returns after `n` operations. -/
def Passes (handle : (o : Op) → σ → Except ε (Reply o) × σ) (E : σ → Prop) (n : Nat) (s : σ)
    (p : Prog Op Reply ε α) (q : α → σ → Prop) : Prop :=
  ∃ a t, Reaches handle E p s n (ret a) t ∧ q a t

variable {p : Prog Op Reply ε α} {f : α → Prog Op Reply ε β} {Q : α → σ → Prop}

theorem passes_pure {a : α} {q : α → σ → Prop} (h : q a s) :
    Passes handle E 0 s (pure a : Prog Op Reply ε α) q :=
  ⟨a,s,.here _ s,h⟩

theorem passes_mono {q q' : α → σ → Prop} (h : Passes handle E n s p q) (hq : ∀ a t, q a t → q' a t) :
    Passes handle E n s p q' := by
  obtain ⟨a,t,ht,hat⟩ := h
  exact ⟨a,t,ht,hq a t hat⟩

/-- One operation that finishes passes. -/
theorem passes_perform {o : Op} {q : Reply o → σ → Prop} (hE : E s)
    (h : Finishes handle s (perform o) q) : Passes handle E 1 s (perform o) q := by
  obtain ⟨r,t,ho,hq⟩ := h
  rw [exec_perform] at ho
  exact ⟨r,t,.call (fun _ => rfl) hE ho (.here _ t),hq⟩

theorem passes_then {q : β → σ → Prop} (hp : Passes handle E n s p Q)
    (hf : ∀ a t, Q a t → Passes handle E m t (f a) q) : Passes handle E (n + m) s (p >>= f) q := by
  obtain ⟨a,t,ht,hmid⟩ := hp
  obtain ⟨b,u,hu,hq⟩ := hf a t hmid
  exact ⟨b,u,(ht.bind f).trans hu,hq⟩

theorem passes_discard {q : σ → Prop} (h : Passes handle E n s p fun _ t => q t) :
    Passes handle E n s (discard p) fun _ t => q t :=
  passes_then (m := 0) h fun _ _ hq => passes_pure hq

theorem comes_then {q : Prog Op Reply ε β → σ → Prop} (hp : Passes handle E n s p Q)
    (hf : ∀ a t, Q a t → Comes handle E m t (f a) q) : Comes handle E (n + m) s (p >>= f) q := by
  obtain ⟨a,t,ht,hmid⟩ := hp
  obtain ⟨p',u,hu,hq⟩ := hf a t hmid
  exact ⟨p',u,(ht.bind f).trans hu,hq⟩

theorem comes_bind {q : Prog Op Reply ε β → σ → Prop}
    (hp : Comes handle E n s p fun p' t => q (p' >>= f) t) : Comes handle E n s (p >>= f) q := by
  obtain ⟨p',t,ht,hq⟩ := hp
  exact ⟨_,t,ht.bind f,hq⟩

end rules

section failing
variable {handle : (o : Op) → σ → Except ε (Reply o) × σ} {needs : Op → Bool} {lost : ε} {E : σ → Prop}
  {s t : σ} {n : Nat} {p q : Prog Op Reply ε α}

theorem failing_here (o : Op) (s : σ) (error : ε) (breaks : Bool) :
    failing handle needs lost o ⟨s,some ⟨0,error,breaks⟩,false⟩ = (.error error,⟨s,none,breaks⟩) := rfl

/-- An operation before the failure has its usual effect. -/
theorem failing_later {o : Op} {failure : Option (Failure ε)} (h : ∀ f ∈ failure, 0 < f.after) :
    failing handle needs lost o ⟨s,failure,false⟩ =
      ((handle o s).1,⟨(handle o s).2,failure.map (Failure.closer 1),false⟩) := by
  rcases failure with _ | ⟨_ | k,error,breaks⟩
  · rfl
  · exact absurd (h _ rfl) (by simp)
  · rfl

/-- A run in which nothing fails before its first `n` operations are done. -/
theorem exec_failing_past (needs : Op → Bool) (lost : ε) (h : Reaches handle E p s n q t) {failure : Option (Failure ε)}
    (hlater : ∀ f ∈ failure, n ≤ f.after) :
    exec (failing handle needs lost) p ⟨s,failure,false⟩ =
      exec (failing handle needs lost) q ⟨t,failure.map (Failure.closer n),false⟩ := by
  induction h generalizing failure with
  | here p s => rw [Failure.closer_zero,Option.map_id,id]
  | @call o k s t u r n p _ _ ho _ ih =>
    have hstep : failing handle needs lost o ⟨s,failure,false⟩ =
        (.ok r,⟨t,failure.map (Failure.closer 1),false⟩) := by
      rw [failing_later fun f hf => Nat.lt_of_lt_of_le (Nat.succ_pos n) (hlater f hf),ho]
    have hlater' : ∀ g ∈ failure.map (Failure.closer 1), n ≤ g.after := by
      intro g hg
      obtain ⟨f,hf,rfl⟩ := Option.map_eq_some_iff.mp hg
      exact Nat.le_sub_of_add_le (hlater f hf)
    have hrest := ih hlater'
    rw [Option.map_map,← Failure.closer_succ] at hrest
    rw [exec,hstep]
    exact hrest

/-- A run in which one of the first `n` operations fails ends there. -/
theorem exec_failing_within (needs : Op → Bool) (lost : ε) (h : Reaches handle E p s n q t) {f : Failure ε} (hwithin : f.after < n) :
    ∃ u, E u ∧ exec (failing handle needs lost) p ⟨s,some f,false⟩ = (.error f.error,⟨u,none,f.breaks⟩) := by
  induction h generalizing f with
  | here p s => exact absurd hwithin (Nat.not_lt_zero _)
  | @call o k s t u r n p hraise hE ho _ ih =>
    obtain ⟨_ | after,error,breaks⟩ := f
    · exact ⟨s,hE,by rw [exec,failing_here,hraise]; rfl⟩
    · obtain ⟨v,hv,hexec⟩ := ih (f := ⟨after,error,breaks⟩) (Nat.lt_of_succ_lt_succ hwithin)
      refine ⟨v,hv,?_⟩
      rw [exec,failing_later (by simp),ho]
      exact hexec

/-- What every operation of a program keeps, the program keeps, whatever fails. -/
theorem exec_failing_keeps {P : Op → Prop} {J : σ → Prop} (hp : Performs P p)
    (hJ : ∀ o s, P o → J s → J (handle o s).2) {c : Connection σ ε} (hc : J c.state) :
    J (exec (failing handle needs lost) p c).2.state := by
  induction p generalizing c with
  | ret a => exact hc
  | raise e => exact hc
  | call o k ih =>
    refine ih _ (hp.2 _) ?_
    unfold failing
    split
    · exact hc
    · split
      · exact hc
      · exact hJ o c.state hp.1 hc

theorem exec_failing_broken {c : Connection σ ε} (hc : c.broken = true) :
    (exec (failing handle needs lost) p c).2.broken = true := by
  induction p generalizing c with
  | ret a => exact hc
  | raise e => exact hc
  | call o k ih =>
    refine ih _ ?_
    unfold failing
    split
    · simp [hc]
    · split <;> exact hc

/-- On a broken connection an operation that needs it raises. -/
theorem failing_broken (handle : (o : Op) → σ → Except ε (Reply o) × σ) (needs : Op → Bool) (lost : ε)
    {o : Op} {c : Connection σ ε} (hc : c.broken = true) (hn : needs o = true) :
    ∃ e c', failing handle needs lost o c = (.error e,c') := by
  unfold failing
  split
  · exact ⟨_,_,rfl⟩
  · rw [if_pos (by rw [hc,hn]; rfl)]
    exact ⟨_,_,rfl⟩

end failing

/-! Operations are numbered, and any of them may raise -/

/-- A state, with the number of the next operation and the operations that have raised. -/
structure Numbered (Op σ ε : Type) where
  state : σ
  number : Nat := 0
  raised : List (Op × ε) := []

/-- The handler under faults: an operation that raises has no effect. -/
def faulty (handle : (o : Op) → σ → Except ε (Reply o) × σ) (faults : Nat → Option ε) (o : Op)
    (c : Numbered Op σ ε) : Except ε (Reply o) × Numbered Op σ ε :=
  match faults c.number with
  | some e => (.error e,{ c with number := c.number + 1, raised := c.raised ++ [(o,e)] })
  | none => ((handle o c.state).1,{ c with state := (handle o c.state).2, number := c.number + 1 })

section faulty
variable {handle : (o : Op) → σ → Except ε (Reply o) × σ} {faults : Nat → Option ε} {E : σ → Prop} {s t : σ}
  {n number : Nat} {raised : List (Op × ε)} {p q : Prog Op Reply ε α}

theorem faulty_clear (h : faults number = none) (o : Op) :
    faulty handle faults o ⟨s,number,raised⟩ = ((handle o s).1,⟨(handle o s).2,number + 1,raised⟩) := by
  simp [faulty,h]

theorem faulty_fault {e : ε} (h : faults number = some e) (o : Op) :
    faulty handle faults o ⟨s,number,raised⟩ = (.error e,⟨s,number + 1,raised ++ [(o,e)]⟩) := by
  simp [faulty,h]

/-- A run in which none of the first `n` operations raises. -/
theorem exec_faulty_past (h : Reaches handle E p s n q t) (hclear : ∀ i < n, faults (number + i) = none) :
    exec (faulty handle faults) p ⟨s,number,raised⟩ = exec (faulty handle faults) q ⟨t,number + n,raised⟩ := by
  induction h generalizing number with
  | here p s => rfl
  | @call o k s t u r n p _ _ ho _ ih =>
    have hfirst : faults number = none := hclear 0 (Nat.succ_pos n)
    have hrest : ∀ i < n, faults (number + 1 + i) = none := by
      intro i hi
      rw [Nat.add_assoc,Nat.add_comm 1 i]
      exact hclear (i + 1) (Nat.succ_lt_succ hi)
    rw [exec,faulty_clear hfirst,ho,ih hrest,Nat.add_right_comm,Nat.add_assoc]

/-- A run in which one of the first `n` operations raises ends there. -/
theorem exec_faulty_within (h : Reaches handle E p s n q t) (hfault : ∃ i < n, faults (number + i) ≠ none) :
    ∃ e u number' raised', E u ∧
      exec (faulty handle faults) p ⟨s,number,raised⟩ = (.error e,⟨u,number',raised'⟩) := by
  induction h generalizing number with
  | here p s =>
    obtain ⟨i,hi,-⟩ := hfault
    exact absurd hi (Nat.not_lt_zero i)
  | @call o k s t u r n p hraise hE ho _ ih =>
    cases hfirst : faults number with
    | some e =>
      refine ⟨e,s,number + 1,raised ++ [(o,e)],hE,?_⟩
      rw [exec,faulty_fault hfirst,hraise]
      rfl
    | none =>
      have hrest : ∃ i < n, faults (number + 1 + i) ≠ none := by
        obtain ⟨_ | i,hi,hf⟩ := hfault
        · exact absurd hfirst hf
        · exact ⟨i,Nat.lt_of_succ_lt_succ hi,by rwa [Nat.add_assoc,Nat.add_comm 1 i]⟩
      obtain ⟨e,v,number',raised',hv,hexec⟩ := ih hrest
      refine ⟨e,v,number',raised',hv,?_⟩
      rw [exec,faulty_clear hfirst,ho]
      exact hexec

end faulty
end VoxForge.Foundation.Prog
