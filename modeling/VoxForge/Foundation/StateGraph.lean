import VoxForge.Foundation.Effects

/-! Graphs of nodes that work on one state: a node runs, then an edge, which may look at
the state, leads to the next node or to the end. -/
namespace VoxForge.Foundation
variable {ν σ Op : Type} {Reply : Op → Type} {ε χ : Type}
open Prog

structure StateGraph (ν σ Op : Type) (Reply : Op → Type) (ε : Type) where
  node : ν → σ → Prog Op Reply ε σ
  next : ν → σ → Option ν

namespace StateGraph

/-- Run from a node to the end; `limit` is raised when `steps` nodes have not sufficed. -/
def invoke (graph : StateGraph ν σ Op Reply ε) (limit : ε) : Nat → ν → σ → Prog Op Reply ε σ
  | 0,_,_ => raise limit
  | steps + 1,node,s => do
    let s ← graph.node node s
    match graph.next node s with
    | none => return s
    | some node => invoke graph limit steps node s

/-- What a node has to leave: the end as asked, or the next node as its invariant asks. -/
def Leads (graph : StateGraph ν σ Op Reply ε) (I : Nat → ν → σ → χ → Prop)
    (post : χ → Except ε σ → Prop) (steps : Nat) (node : ν) (c : χ) : Except ε σ → Prop
  | .error e => post c (.error e)
  | .ok s =>
    match graph.next node s with
    | none => post c (.ok s)
    | some next => I steps next s c

/-- The induction rule: an invariant of the nodes that never holds without steps left
carries the graph to its end. -/
theorem wp_invoke {graph : StateGraph ν σ Op Reply ε} {limit : ε} {d : Discipline Op Reply ε χ}
    {I : Nat → ν → σ → χ → Prop} {post : χ → Except ε σ → Prop}
    (hlimit : ∀ node s c, ¬I 0 node s c)
    (hnode : ∀ steps node s c, I (steps + 1) node s c →
      wp d c (graph.node node s) (graph.Leads I post steps node))
    {steps : Nat} {node : ν} {s : σ} {c : χ} (h : I steps node s c) :
    wp d c (graph.invoke limit steps node s) post := by
  induction steps generalizing node s c with
  | zero => exact absurd h (hlimit node s c)
  | succ steps ih =>
    rw [invoke,wp_bind]
    apply wp_mono (hnode steps node s c h)
    intro c' r hr
    cases r with
    | error e => exact hr
    | ok s' =>
      cases hnext : graph.next node s' with
      | none =>
        simp only [Leads,hnext] at hr
        simp only [andThen,hnext]
        exact hr
      | some next =>
        simp only [Leads,hnext] at hr
        simp only [andThen,hnext]
        exact ih hr

/-- What every last node leaves, however many nodes have run. -/
theorem wp_invoke_last {graph : StateGraph ν σ Op Reply ε} {limit : ε} {d : Discipline Op Reply ε χ} {q : χ → σ → Prop}
    (hlast : ∀ node s c, wp d c (graph.node node s) (returns fun c s => graph.next node s = none → q c s))
    (steps : Nat) (node : ν) (s : σ) (c : χ) : wp d c (graph.invoke limit steps node s) (returns q) := by
  induction steps generalizing node s c with
  | zero => trivial
  | succ steps ih =>
    rw [invoke]
    refine wp_then (hlast node s c) fun c' s' hs => ?_
    cases hnext : graph.next node s' with
    | none => exact hs hnext
    | some next => exact ih next s' c'

end StateGraph
end VoxForge.Foundation
