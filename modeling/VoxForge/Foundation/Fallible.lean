import Mathlib.Logic.Basic

/-! Computations that may fail, taken apart by their success. -/
namespace VoxForge.Foundation
variable {ε α β γ : Type}

theorem bind_eq_ok {x : Except ε α} {f : α → Except ε β} {b : β} :
    x >>= f = .ok b ↔ ∃ a, x = .ok a ∧ f a = .ok b := by
  cases x with
  | error e => simp [bind,Except.bind]
  | ok a => simp [bind,Except.bind]

theorem map_eq_ok {x : Except ε α} {f : α → β} {b : β} :
    x.map f = .ok b ↔ ∃ a, x = .ok a ∧ f a = b := by
  cases x with
  | error e => simp [Except.map]
  | ok a => simp [Except.map]

theorem toOption_eq_some {x : Except ε α} {a : α} : x.toOption = some a ↔ x = .ok a := by
  cases x <;> simp [Except.toOption]

/-- Steps that all succeed, one after another. -/
theorem mapM_ok_of_forall {P : β → Prop} {f : α → Except ε β} {l : List α}
    (h : ∀ a ∈ l, ∃ b, f a = .ok b ∧ P b) : ∃ out, l.mapM f = .ok out ∧ out.length = l.length ∧ ∀ b ∈ out, P b := by
  induction l with
  | nil => exact ⟨[],rfl,rfl,by simp⟩
  | cons a rest ih =>
    obtain ⟨b,hb,hP⟩ := h a (List.mem_cons_self ..)
    obtain ⟨out,hout,hlength,hall⟩ := ih fun c hc => h c (List.mem_cons_of_mem _ hc)
    refine ⟨b :: out,?_,by rw [List.length_cons,List.length_cons,hlength],List.forall_mem_cons.mpr ⟨hP,hall⟩⟩
    rw [List.mapM_cons,hb,hout]
    rfl

/-- What every success of a step satisfies, all results satisfy. -/
theorem forall_of_mapM_ok {P : β → Prop} {f : α → Except ε β} {l : List α} {out : List β}
    (h : l.mapM f = .ok out) (hf : ∀ a b, f a = .ok b → P b) : ∀ b ∈ out, P b := by
  induction l generalizing out with
  | nil =>
    cases h
    exact fun b hb => (List.not_mem_nil hb).elim
  | cons a rest ih =>
    rw [List.mapM_cons] at h
    obtain ⟨b,hb,h⟩ := bind_eq_ok.mp h
    obtain ⟨bs,hbs,h⟩ := bind_eq_ok.mp h
    obtain rfl := Except.ok.inj h
    exact List.forall_mem_cons.mpr ⟨hf a b hb,ih hbs⟩

/-- Steps succeed together exactly if each does. -/
theorem exists_mapM_ok {f : α → Except ε β} {l : List α} :
    (∃ out, l.mapM f = .ok out) ↔ ∀ a ∈ l, ∃ b, f a = .ok b := by
  constructor
  · rintro ⟨out,h⟩
    induction l generalizing out with
    | nil => exact nofun
    | cons a rest ih =>
      rw [List.mapM_cons] at h
      obtain ⟨b,hb,h⟩ := bind_eq_ok.mp h
      obtain ⟨bs,hbs,-⟩ := bind_eq_ok.mp h
      exact List.forall_mem_cons.mpr ⟨⟨b,hb⟩,ih bs hbs⟩
  · intro h
    obtain ⟨out,hout,-⟩ := mapM_ok_of_forall (P := fun _ => True) fun a ha => (h a ha).imp fun _ hb => ⟨hb,trivial⟩
    exact ⟨out,hout⟩

/-- What the result of each step keeps of its input, the results keep in order. -/
theorem map_of_mapM_ok {f : α → Except ε β} {g : α → γ} {k : β → γ} {l : List α} {out : List β}
    (h : l.mapM f = .ok out) (hf : ∀ a b, f a = .ok b → k b = g a) : out.map k = l.map g := by
  induction l generalizing out with
  | nil =>
    cases h
    rfl
  | cons a rest ih =>
    rw [List.mapM_cons] at h
    obtain ⟨b,hb,h⟩ := bind_eq_ok.mp h
    obtain ⟨bs,hbs,h⟩ := bind_eq_ok.mp h
    obtain rfl := Except.ok.inj h
    rw [List.map_cons,List.map_cons,hf a b hb,ih hbs]

private theorem filterAuxM_ok {f : α → Except ε Bool} {p : α → Bool} {l : List α}
    (h : ∀ a ∈ l, f a = .ok (p a)) (acc : List α) :
    l.filterAuxM f acc = .ok ((l.filter p).reverse ++ acc) := by
  induction l generalizing acc with
  | nil => rfl
  | cons a rest ih =>
    have hrest := fun acc => ih (fun b hb => h b (List.mem_cons_of_mem _ hb)) acc
    unfold List.filterAuxM
    rw [h a (List.mem_cons_self ..)]
    change rest.filterAuxM f _ = _
    rw [hrest]
    cases hp : p a <;> simp [hp]

/-- A test that never fails keeps what the pure test keeps. -/
theorem filterM_ok_of_forall {f : α → Except ε Bool} {p : α → Bool} {l : List α}
    (h : ∀ a ∈ l, f a = .ok (p a)) : l.filterM f = .ok (l.filter p) := by
  unfold List.filterM
  rw [filterAuxM_ok h []]
  change Except.ok _ = Except.ok _
  rw [List.append_nil,List.reverse_reverse]

/-- Rounds that each leave the state alone. -/
theorem foldlM_ok_of_forall {f : β → α → Except ε β} {b : β} {l : List α}
    (h : ∀ a ∈ l, f b a = .ok b) : l.foldlM f b = .ok b := by
  induction l with
  | nil => rfl
  | cons a rest ih =>
    rw [List.foldlM_cons,h a (List.mem_cons_self ..)]
    exact ih fun c hc => h c (List.mem_cons_of_mem _ hc)

end VoxForge.Foundation
