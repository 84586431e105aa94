import Mathlib.Logic.Basic

/-! Programs over operations whose answers come from outside, as free monads with
exceptions. A discipline says which operations may come next, judged by a context
that follows the answers; programs are run to their end or taken apart step by step. -/
namespace VoxForge.Foundation

inductive Prog (Op : Type) (Reply : Op → Type) (ε α : Type) where
  | ret (a : α)
  | raise (e : ε)
  | call (o : Op) (k : Except ε (Reply o) → Prog Op Reply ε α)

namespace Prog
variable {Op : Type} {Reply : Op → Type} {ε α β χ σ : Type}

def bind : Prog Op Reply ε α → (α → Prog Op Reply ε β) → Prog Op Reply ε β
  | ret a,f => f a
  | raise e,_ => raise e
  | call o k,f => call o fun r => (k r).bind f

/-- Run a handler on an exception, as `try … except` does. -/
def tryCatch : Prog Op Reply ε α → (ε → Prog Op Reply ε α) → Prog Op Reply ε α
  | ret a,_ => ret a
  | raise e,h => h e
  | call o k,h => call o fun r => (k r).tryCatch h

/-- One operation; its exception is raised. -/
def perform (o : Op) : Prog Op Reply ε (Reply o) :=
  call o fun | .ok r => ret r | .error e => raise e

instance : Monad (Prog Op Reply ε) where
  pure := ret
  bind := bind

theorem bind_assoc' {γ : Type} (p : Prog Op Reply ε α) (f : α → Prog Op Reply ε β)
    (g : β → Prog Op Reply ε γ) : p >>= f >>= g = p >>= fun a => f a >>= g := by
  induction p with
  | ret a => rfl
  | raise e => rfl
  | call o k ih => exact congrArg (call o) (funext ih)

theorem bind_pure' (p : Prog Op Reply ε α) : (p >>= fun a => pure a) = p := by
  induction p with
  | ret a => rfl
  | raise e => rfl
  | call o k ih => exact congrArg (call o) (funext ih)

/-! Disciplines -/

/-- Which operation a program may perform in a context, the answers it has to reckon
with, and the context after each. -/
structure Discipline (Op : Type) (Reply : Op → Type) (ε χ : Type) where
  allowed : χ → Op → Prop
  possible : (o : Op) → Except ε (Reply o) → Prop
  after : χ → (o : Op) → Except ε (Reply o) → χ

/-- Whatever the answers, every operation is allowed where it is performed, and the
final context and result satisfy a postcondition. -/
def wp (d : Discipline Op Reply ε χ) : χ → Prog Op Reply ε α → (χ → Except ε α → Prop) → Prop
  | c,ret a,post => post c (.ok a)
  | c,raise e,post => post c (.error e)
  | c,call o k,post => d.allowed c o ∧ ∀ r, d.possible o r → wp d (d.after c o r) (k r) post

/-- A condition on what is returned; exceptions may leave any context. -/
def returns (q : χ → α → Prop) : χ → Except ε α → Prop
  | c,.ok a => q c a
  | _,.error _ => True

section rules
variable {d : Discipline Op Reply ε χ} {c : χ}

@[simp] theorem wp_ret (a : α) (post : χ → Except ε α → Prop) :
    wp d c (ret a) post ↔ post c (.ok a) := Iff.rfl

@[simp] theorem wp_pure (a : α) (post : χ → Except ε α → Prop) :
    wp d c (pure a) post ↔ post c (.ok a) := Iff.rfl

@[simp] theorem wp_raise (e : ε) (post : χ → Except ε α → Prop) :
    wp d c (raise e) post ↔ post c (.error e) := Iff.rfl

theorem wp_call (o : Op) (k : Except ε (Reply o) → Prog Op Reply ε α)
    (post : χ → Except ε α → Prop) :
    wp d c (call o k) post ↔
      d.allowed c o ∧ ∀ r, d.possible o r → wp d (d.after c o r) (k r) post := Iff.rfl

@[simp] theorem wp_perform (o : Op) (post : χ → Except ε (Reply o) → Prop) :
    wp d c (perform o) post ↔ d.allowed c o ∧ ∀ r, d.possible o r → post (d.after c o r) r := by
  refine and_congr_right fun _ => forall_congr' fun r => imp_congr_right fun _ => ?_
  cases r <;> rfl

@[simp] theorem returns_ok (q : χ → α → Prop) (a : α) :
    returns q c (.ok a : Except ε α) ↔ q c a := Iff.rfl

@[simp] theorem returns_error (q : χ → α → Prop) (e : ε) :
    returns q c (.error e : Except ε α) ↔ True := Iff.rfl

/-- One operation and what follows it: its exception ends the program, each answer goes on. -/
theorem wp_perform_then {o : Op} {f : Reply o → Prog Op Reply ε β} {post : χ → Except ε β → Prop}
    (hallowed : d.allowed c o) (herror : ∀ e, post (d.after c o (.error e)) (.error e))
    (hok : ∀ a, wp d (d.after c o (.ok a)) (f a) post) : wp d c (perform o >>= f) post := by
  refine ⟨hallowed,fun r _ => ?_⟩
  cases r with
  | ok a => exact hok a
  | error e => exact herror e

theorem wp_mono {p : Prog Op Reply ε α} {post post' : χ → Except ε α → Prop}
    (h : wp d c p post) (hpost : ∀ c r, post c r → post' c r) : wp d c p post' := by
  induction p generalizing c with
  | ret a => exact hpost _ _ h
  | raise e => exact hpost _ _ h
  | call o k ih => exact ⟨h.1,fun r hr => ih r (h.2 r hr)⟩

theorem wp_returns_mono {p : Prog Op Reply ε α} {q q' : χ → α → Prop}
    (h : wp d c p (returns q)) (hq : ∀ c a, q c a → q' c a) : wp d c p (returns q') :=
  wp_mono h fun c r hr => match r with
    | .ok a => hq c a hr
    | .error _ => trivial

/-- What a continuation must meet after each result of the first program. -/
def andThen (d : Discipline Op Reply ε χ) (f : α → Prog Op Reply ε β)
    (post : χ → Except ε β → Prop) (c : χ) : Except ε α → Prop
  | .ok a => wp d c (f a) post
  | .error e => post c (.error e)

theorem wp_bind (p : Prog Op Reply ε α) (f : α → Prog Op Reply ε β)
    (post : χ → Except ε β → Prop) :
    wp d c (p >>= f) post ↔ wp d c p (andThen d f post) := by
  induction p generalizing c with
  | ret a => exact Iff.rfl
  | raise e => exact Iff.rfl
  | call o k ih =>
    exact and_congr_right fun _ => forall_congr' fun r => imp_congr_right fun _ => ih r

/-- The sequence rule: each result of the first program leads to a context and a
value from which the second returns what is asked. -/
theorem wp_then {p : Prog Op Reply ε α} {f : α → Prog Op Reply ε β} {mid : χ → α → Prop}
    {q : χ → β → Prop} (hp : wp d c p (returns mid))
    (hf : ∀ c a, mid c a → wp d c (f a) (returns q)) : wp d c (p >>= f) (returns q) := by
  rw [wp_bind]
  refine wp_mono hp fun c r hr => ?_
  cases r with
  | ok a => exact hf c a hr
  | error e => trivial

/-- The program returns, and a condition holds of what it does. -/
def yields (q : χ → α → Prop) : χ → Except ε α → Prop
  | c,.ok a => q c a
  | _,.error _ => False

/-- After a program that returns, all that is asked is asked of its continuation. -/
theorem wp_yields {p : Prog Op Reply ε α} {f : α → Prog Op Reply ε β} {mid : χ → α → Prop}
    {post : χ → Except ε β → Prop} (hp : wp d c p (yields mid)) (hf : ∀ c a, mid c a → wp d c (f a) post) :
    wp d c (p >>= f) post := by
  rw [wp_bind]
  apply wp_mono hp
  intro c r hr
  cases r with
  | ok a => exact hf c a hr
  | error e => exact hr.elim

theorem wp_yields_discard {p : Prog Op Reply ε α} {q : χ → Prop} (h : wp d c p (yields fun c _ => q c)) :
    wp d c (discard p) (yields fun c _ => q c) :=
  wp_yields h fun _ _ hq => hq

theorem wp_discard {p : Prog Op Reply ε α} {q : χ → Prop}
    (h : wp d c p (returns fun c _ => q c)) : wp d c (discard p) (returns fun c _ => q c) :=
  wp_then h fun _ _ hq => hq

/-- What a handler must meet after an exception. -/
def orElse (d : Discipline Op Reply ε χ) (h : ε → Prog Op Reply ε α)
    (post : χ → Except ε α → Prop) (c : χ) : Except ε α → Prop
  | .ok a => post c (.ok a)
  | .error e => wp d c (h e) post

theorem wp_tryCatch (p : Prog Op Reply ε α) (h : ε → Prog Op Reply ε α)
    (post : χ → Except ε α → Prop) :
    wp d c (p.tryCatch h) post ↔ wp d c p (orElse d h post) := by
  induction p generalizing c with
  | ret a => exact Iff.rfl
  | raise e => exact Iff.rfl
  | call o k ih =>
    exact and_congr_right fun _ => forall_congr' fun r => imp_congr_right fun _ => ih r

end rules

/-! The operations of a program, whatever it is answered -/

def Performs (P : Op → Prop) : Prog Op Reply ε α → Prop
  | ret _ => True
  | raise _ => True
  | call o k => P o ∧ ∀ r, Performs P (k r)

section performs
variable {P : Op → Prop}

theorem performs_perform {o : Op} (h : P o) : Performs P (perform o : Prog Op Reply ε (Reply o)) := by
  refine ⟨h,fun r => ?_⟩
  cases r <;> trivial

theorem performs_bind {p : Prog Op Reply ε α} {f : α → Prog Op Reply ε β} (hp : Performs P p)
    (hf : ∀ a, Performs P (f a)) : Performs P (p >>= f) := by
  induction p with
  | ret a => exact hf a
  | raise e => trivial
  | call o k ih => exact ⟨hp.1,fun r => ih r (hp.2 r)⟩

theorem performs_mono {Q : Op → Prop} {p : Prog Op Reply ε α} (hp : Performs P p) (h : ∀ o, P o → Q o) :
    Performs Q p := by
  induction p with
  | ret a => trivial
  | raise e => trivial
  | call o k ih => exact ⟨h o hp.1,fun r => ih r (hp.2 r)⟩

theorem performs_discard {p : Prog Op Reply ε α} (hp : Performs P p) : Performs P (discard p) :=
  performs_bind hp fun _ => trivial

theorem performs_tryCatch {p : Prog Op Reply ε α} {h : ε → Prog Op Reply ε α} (hp : Performs P p)
    (hh : ∀ e, Performs P (h e)) : Performs P (p.tryCatch h) := by
  induction p with
  | ret a => trivial
  | raise e => exact hh e
  | call o k ih => exact ⟨hp.1,fun r => ih r (hp.2 r)⟩

theorem performs_any (p : Prog Op Reply ε α) : Performs (fun _ => True) p := by
  induction p with
  | ret a => trivial
  | raise e => trivial
  | call o k ih => exact ⟨trivial,ih⟩

/-- Operations that are allowed in a context and never leave it. -/
theorem wp_of_performs {d : Discipline Op Reply ε χ} {c : χ} {p : Prog Op Reply ε α}
    (hp : Performs P p) (h : ∀ o, P o → d.allowed c o ∧ ∀ r, d.after c o r = c) :
    wp d c p fun c' _ => c' = c := by
  induction p with
  | ret a => rfl
  | raise e => rfl
  | call o k ih =>
    obtain ⟨hallowed,hafter⟩ := h o hp.1
    refine ⟨hallowed,fun r _ => ?_⟩
    rw [hafter r]
    exact ih r (hp.2 r)

end performs

/-! Programs that keep a property of the context, whatever they are answered and however they end -/

def Keeps (d : Discipline Op Reply ε χ) (I : χ → Prop) (p : Prog Op Reply ε α) : Prop :=
  ∀ c, I c → wp d c p fun c' _ => I c'

section keeps
variable {d : Discipline Op Reply ε χ} {I : χ → Prop} {p : Prog Op Reply ε α}

theorem keeps_pure (a : α) : Keeps d I (pure a : Prog Op Reply ε α) := fun _ h => h

theorem keeps_raise (e : ε) : Keeps d I (raise e : Prog Op Reply ε α) := fun _ h => h

theorem keeps_bind {f : α → Prog Op Reply ε β} (hp : Keeps d I p) (hf : ∀ a, Keeps d I (f a)) :
    Keeps d I (p >>= f) := by
  intro c hc
  rw [wp_bind]
  apply wp_mono (hp c hc)
  intro c' r hc'
  cases r with
  | ok a => exact hf a c' hc'
  | error e => exact hc'

/-- Operations that each keep a property of the context. -/
theorem keeps_of_performs {P : Op → Prop} (hp : Performs P p)
    (h : ∀ o c, P o → I c → d.allowed c o ∧ ∀ r, d.possible o r → I (d.after c o r)) : Keeps d I p := by
  intro c hc
  induction p generalizing c with
  | ret a => exact hc
  | raise e => exact hc
  | call o k ih =>
    obtain ⟨hallowed,hafter⟩ := h o c hp.1 hc
    exact ⟨hallowed,fun r hr => ih r (hp.2 r) _ (hafter r hr)⟩

theorem keeps_discard (hp : Keeps d I p) : Keeps d I (discard p) := keeps_bind hp fun _ => keeps_pure _

theorem keeps_tryCatch {h : ε → Prog Op Reply ε α} (hp : Keeps d I p) (hh : ∀ e, Keeps d I (h e)) :
    Keeps d I (p.tryCatch h) := by
  intro c hc
  rw [wp_tryCatch]
  apply wp_mono (hp c hc)
  intro c' r hc'
  cases r with
  | ok a => exact hc'
  | error e => exact hh e c' hc'

end keeps

/-! Properties that are proved of a program part by part -/

/-- A property that results, exceptions, sequences and handlers pass on. -/
structure Compositional (C : (α : Type) → Prog Op Reply ε α → Prop) : Prop where
  pure : ∀ {α : Type} (a : α), C α (ret a)
  raise : ∀ {α : Type} (e : ε), C α (raise e)
  bind : ∀ {α β : Type} {p : Prog Op Reply ε α} {f : α → Prog Op Reply ε β}, C α p → (∀ a, C β (f a)) → C β (p >>= f)
  tryCatch : ∀ {α : Type} {p : Prog Op Reply ε α} {h : ε → Prog Op Reply ε α}, C α p → (∀ e, C α (h e)) →
    C α (p.tryCatch h)

theorem compositional_performs (P : Op → Prop) :
    Compositional fun (α : Type) (p : Prog Op Reply ε α) => Performs P p where
  pure _ := trivial
  raise _ := trivial
  bind := performs_bind
  tryCatch := performs_tryCatch

theorem compositional_keeps (d : Discipline Op Reply ε χ) (I : χ → Prop) : Compositional fun _ p => Keeps d I p where
  pure := keeps_pure
  raise := keeps_raise
  bind := keeps_bind
  tryCatch := keeps_tryCatch

theorem Compositional.discard {C : (α : Type) → Prog Op Reply ε α → Prop} (hC : Compositional C)
    {p : Prog Op Reply ε α} (h : C α p) : C PUnit (discard p) :=
  hC.bind h fun _ => hC.pure PUnit.unit

/-! Programs over one kind of operations, among those over two -/

section sum
variable {Op' : Type} {Reply' : Op' → Type}

def inl : Prog Op Reply ε α → Prog (Op ⊕ Op') (Sum.elim Reply Reply') ε α
  | ret a => ret a
  | raise e => raise e
  | call o k => call (.inl o) fun r => (k r).inl

/-- What a discipline asks of the first kind. -/
def Discipline.left (d : Discipline (Op ⊕ Op') (Sum.elim Reply Reply') ε χ) : Discipline Op Reply ε χ where
  allowed c o := d.allowed c (.inl o)
  possible o r := d.possible (.inl o) r
  after c o r := d.after c (.inl o) r

variable {d : Discipline (Op ⊕ Op') (Sum.elim Reply Reply') ε χ} {I : χ → Prop} {p : Prog Op Reply ε α}

theorem wp_inl {c : χ} {post : χ → Except ε α → Prop} : wp d c p.inl post ↔ wp d.left c p post := by
  induction p generalizing c with
  | ret a => exact Iff.rfl
  | raise e => exact Iff.rfl
  | call o k ih =>
    exact and_congr_right fun _ => forall_congr' fun r => imp_congr_right fun _ => ih r

theorem performs_inl {P : Op ⊕ Op' → Prop} (h : Performs (fun o => P (.inl o)) p) :
    Performs P (p.inl : Prog (Op ⊕ Op') (Sum.elim Reply Reply') ε α) := by
  induction p with
  | ret a => trivial
  | raise e => trivial
  | call o k ih => exact ⟨h.1,fun r => ih r (h.2 r)⟩

theorem keeps_inl (h : Keeps d.left I p) : Keeps d I (p.inl : Prog (Op ⊕ Op') (Sum.elim Reply Reply') ε α) :=
  fun c hc => wp_inl.mpr (h c hc)

end sum

/-! Running to the end -/

/-- Run a program with a handler of its operations. -/
def exec (handle : (o : Op) → σ → Except ε (Reply o) × σ) :
    Prog Op Reply ε α → σ → Except ε α × σ
  | ret a,s => (.ok a,s)
  | raise e,s => (.error e,s)
  | call o k,s => exec handle (k (handle o s).1) (handle o s).2

section exec
variable (handle : (o : Op) → σ → Except ε (Reply o) × σ) (s : σ)

@[simp] theorem exec_perform (o : Op) : exec handle (perform o) s = handle o s := by
  unfold perform exec
  rcases handle o s with ⟨r | r,t⟩ <;> rfl

theorem exec_bind (p : Prog Op Reply ε α) (f : α → Prog Op Reply ε β) :
    exec handle (p >>= f) s =
      match exec handle p s with
      | (.ok a,t) => exec handle (f a) t
      | (.error e,t) => (.error e,t) := by
  induction p generalizing s with
  | ret a => rfl
  | raise e => rfl
  | call o k ih => exact ih _ _

/-- A first program that returns passes its value and state on. -/
theorem exec_bind_ok {p : Prog Op Reply ε α} {a : α} {t : σ} (h : exec handle p s = (.ok a,t))
    (f : α → Prog Op Reply ε β) : exec handle (p >>= f) s = exec handle (f a) t := by
  rw [exec_bind,h]

theorem exec_bind_error {p : Prog Op Reply ε α} {e : ε} {t : σ}
    (h : exec handle p s = (.error e,t)) (f : α → Prog Op Reply ε β) :
    exec handle (p >>= f) s = (.error e,t) := by
  rw [exec_bind,h]

theorem exec_tryCatch (p : Prog Op Reply ε α) (h : ε → Prog Op Reply ε α) :
    exec handle (p.tryCatch h) s =
      match exec handle p s with
      | (.ok a,t) => (.ok a,t)
      | (.error e,t) => exec handle (h e) t := by
  induction p generalizing s with
  | ret a => rfl
  | raise e => rfl
  | call o k ih => exact ih _ _

/-- Total correctness: the program returns, in a state as asked. -/
def Finishes (p : Prog Op Reply ε α) (q : α → σ → Prop) : Prop :=
  ∃ a t, exec handle p s = (.ok a,t) ∧ q a t

/-- Partial correctness: if the program returns, it does so in a state as asked. -/
def Settles (p : Prog Op Reply ε α) (q : α → σ → Prop) : Prop :=
  ∀ a t, exec handle p s = (.ok a,t) → q a t

variable {handle s} {p : Prog Op Reply ε α} {f : α → Prog Op Reply ε β}

theorem Finishes.settles {q : α → σ → Prop} (h : Finishes handle s p q) : Settles handle s p q := by
  intro a t ht
  obtain ⟨a',t',ht',hq⟩ := h
  rw [ht'] at ht
  cases ht
  exact hq

theorem finishes_pure {a : α} {q : α → σ → Prop} (h : q a s) :
    Finishes handle s (pure a : Prog Op Reply ε α) q :=
  ⟨a,s,rfl,h⟩

theorem finishes_mono {q q' : α → σ → Prop} (h : Finishes handle s p q) (hq : ∀ a t, q a t → q' a t) :
    Finishes handle s p q' := by
  obtain ⟨a,t,ht,hat⟩ := h
  exact ⟨a,t,ht,hq a t hat⟩

theorem finishes_then {mid : α → σ → Prop} {q : β → σ → Prop} (hp : Finishes handle s p mid)
    (hf : ∀ a t, mid a t → Finishes handle t (f a) q) : Finishes handle s (p >>= f) q := by
  obtain ⟨a,t,ht,hmid⟩ := hp
  obtain ⟨b,u,hu,hq⟩ := hf a t hmid
  exact ⟨b,u,by rw [exec_bind_ok handle s ht,hu],hq⟩

/-- However a continuation ends, it starts where the first program finished. -/
theorem exec_then {mid : α → σ → Prop} {q : Except ε β × σ → Prop} (hp : Finishes handle s p mid)
    (hf : ∀ a t, mid a t → q (exec handle (f a) t)) : q (exec handle (p >>= f) s) := by
  obtain ⟨a,t,ht,hmid⟩ := hp
  rw [exec_bind_ok handle s ht]
  exact hf a t hmid

theorem finishes_discard {q : σ → Prop} (h : Finishes handle s p fun _ t => q t) :
    Finishes handle s (discard p) fun _ t => q t :=
  finishes_then h fun _ _ hq => finishes_pure hq

theorem settles_pure {a : α} {q : α → σ → Prop} (h : q a s) :
    Settles handle s (pure a : Prog Op Reply ε α) q :=
  (finishes_pure h).settles

theorem settles_raise {e : ε} {q : α → σ → Prop} :
    Settles handle s (raise e : Prog Op Reply ε α) q := by
  intro a t ht
  cases ht

theorem settles_mono {q q' : α → σ → Prop} (h : Settles handle s p q) (hq : ∀ a t, q a t → q' a t) :
    Settles handle s p q' :=
  fun a t ht => hq a t (h a t ht)

theorem settles_then {mid : α → σ → Prop} {q : β → σ → Prop} (hp : Settles handle s p mid)
    (hf : ∀ a t, mid a t → Settles handle t (f a) q) : Settles handle s (p >>= f) q := by
  intro b u hu
  rw [exec_bind] at hu
  split at hu
  · next a t ht => exact hf a t (hp a t ht) b u hu
  · cases hu

theorem settles_discard {q : σ → Prop} (h : Settles handle s p fun _ t => q t) :
    Settles handle s (discard p) fun _ t => q t :=
  settles_then h fun _ _ hq => settles_pure hq

theorem settles_tryCatch {h : ε → Prog Op Reply ε α} {q : α → σ → Prop} (hp : Settles handle s p q)
    (hh : ∀ e t, exec handle p s = (.error e,t) → Settles handle t (h e) q) :
    Settles handle s (p.tryCatch h) q := by
  intro a u hu
  rw [exec_tryCatch] at hu
  split at hu
  · next b t ht =>
    cases hu
    exact hp a u ht
  · next e t ht => exact hh e t ht a u hu

/-- However the program ends, outcome and state are as asked. -/
def Ends (handle : (o : Op) → σ → Except ε (Reply o) × σ) (s : σ) (p : Prog Op Reply ε α)
    (q : Except ε α → σ → Prop) : Prop :=
  q (exec handle p s).1 (exec handle p s).2

theorem ends_pure {a : α} {q : Except ε α → σ → Prop} (h : q (.ok a) s) :
    Ends handle s (pure a : Prog Op Reply ε α) q := h

theorem ends_raise {e : ε} {q : Except ε α → σ → Prop} (h : q (.error e) s) :
    Ends handle s (raise e : Prog Op Reply ε α) q := h

theorem ends_mono {q q' : Except ε α → σ → Prop} (h : Ends handle s p q) (hq : ∀ r t, q r t → q' r t) :
    Ends handle s p q' := hq _ _ h

/-- An exception of the first program is that of both. -/
theorem ends_then {m : Except ε α → σ → Prop} {q : Except ε β → σ → Prop} (hp : Ends handle s p m)
    (herror : ∀ e t, m (.error e) t → q (.error e) t) (hok : ∀ a t, m (.ok a) t → Ends handle t (f a) q) :
    Ends handle s (p >>= f) q := by
  unfold Ends at hp ⊢
  rw [exec_bind]
  rcases hexec : exec handle p s with ⟨r,t⟩
  rw [hexec] at hp
  cases r with
  | ok a => exact hok a t hp
  | error e => exact herror e t hp

theorem ends_discard {q : Except ε PUnit → σ → Prop}
    (h : Ends handle s p fun r t => q (r.map fun _ => PUnit.unit) t) : Ends handle s (discard p) q :=
  ends_then h (fun _ _ hq => hq) fun _ _ hq => hq

theorem ends_tryCatch {h : ε → Prog Op Reply ε α} {m q : Except ε α → σ → Prop} (hp : Ends handle s p m)
    (hok : ∀ a t, m (.ok a) t → q (.ok a) t) (herror : ∀ e t, m (.error e) t → Ends handle t (h e) q) :
    Ends handle s (p.tryCatch h) q := by
  unfold Ends at hp ⊢
  rw [exec_tryCatch]
  rcases hexec : exec handle p s with ⟨r,t⟩
  rw [hexec] at hp
  cases r with
  | ok a => exact hok a t hp
  | error e => exact herror e t hp

/-- What every operation of a program keeps, the program keeps. -/
theorem exec_keeps {P : Op → Prop} {J : σ → Prop} (hp : Performs P p)
    (hJ : ∀ o s, P o → J s → J (handle o s).2) (hs : J s) : J (exec handle p s).2 := by
  induction p generalizing s with
  | ret a => exact hs
  | raise e => exact hs
  | call o k ih => exact ih _ (hp.2 _) (hJ o s hp.1 hs)

/-- The state in which a program ends does not depend on what is done with its value. -/
theorem exec_discard_state : (exec handle (discard p) s).2 = (exec handle p s).2 := by
  have heq : exec handle (discard p) s = exec handle (p >>= fun _ => pure PUnit.unit) s := rfl
  rw [heq,exec_bind]
  split
  · next a t ht =>
    rw [ht]
    rfl
  · next e t ht => rw [ht]

end exec

end Prog
end VoxForge.Foundation
