import VoxForge.Foundation.Runs

/-! What goes into a buffer and what comes out of it along a run: first in, first out, with
nothing lost and nothing made up, from each time on that the buffer is emptied. -/
namespace VoxForge.Foundation
variable {σ ℓ α : Type}

/-- What one step puts into a buffer and takes out of it. -/
inductive Flow (α : Type) where
  | moved (taken given : List α)
  | emptied
  deriving DecidableEq, Repr

/-- An account holds all that was taken and all that was given; an emptied buffer has a new one. -/
def Flow.book : Flow α → List α × List α → List α × List α
  | .moved taken given,entry => (entry.1 ++ taken,entry.2 ++ given)
  | .emptied,_ => ([],[])

def account (step : σ → ℓ → Option σ) (flow : σ → ℓ → Flow α) : List α × List α → σ → List ℓ → List α × List α
  | entry,_,[] => entry
  | entry,s,l :: ls => (step s l).elim entry fun t => account step flow ((flow s l).book entry) t ls

/-- A step moves items through the buffer in their order. -/
def Flow.Balances (before after : List α) : Flow α → Prop
  | .moved taken given => before ++ taken = given ++ after
  | .emptied => after = []

variable {step : σ → ℓ → Option σ} {flow : σ → ℓ → Flow α} {held : σ → List α}

theorem Flow.Balances.book {f : Flow α} {before after : List α} {entry : List α × List α}
    (h : f.Balances before after) (hentry : entry.1 = entry.2 ++ before) :
    (f.book entry).1 = (f.book entry).2 ++ after := by
  cases f with
  | moved taken given =>
    have hmoved : before ++ taken = given ++ after := h
    rw [Flow.book,hentry,List.append_assoc,hmoved,List.append_assoc]
  | emptied =>
    have hemptied : after = [] := h
    rw [Flow.book,hemptied,List.append_nil]

/-- The law of the buffer: what was taken is what was given and what is held. -/
theorem account_balanced {s t : σ} {ls : List ℓ} {entry : List α × List α}
    (h : ∀ a l b, l ∈ ls → step a l = some b → (flow a l).Balances (held a) (held b))
    (hentry : entry.1 = entry.2 ++ held s) (hrun : run step s ls = some t) :
    (account step flow entry s ls).1 = (account step flow entry s ls).2 ++ held t := by
  induction ls generalizing s entry with
  | nil =>
    cases hrun
    exact hentry
  | cons l ls ih =>
    obtain ⟨u,hu,hrest⟩ := Option.bind_eq_some_iff.mp hrun
    rw [account,hu]
    have hbalance := h s l u List.mem_cons_self hu
    exact ih (fun a m b hm => h a m b (List.mem_cons_of_mem _ hm)) (hbalance.book hentry) hrest

end VoxForge.Foundation
