import Mathlib.Data.List.Lex

/-! Ordered trees, the positions of their nodes and document order. A position is
the list of child indices on the way down, so document order is the lexicographic
order and containment is the prefix relation. -/
namespace VoxForge.Foundation

inductive Tree (α : Type) where
  | node (label : α) (children : List (Tree α))

abbrev Position := List Nat

namespace Tree
variable {α : Type}

def label : Tree α → α
  | node a _ => a

def children : Tree α → List (Tree α)
  | node _ ts => ts

def at? : Tree α → Position → Option (Tree α)
  | t,[] => some t
  | t,i :: r => t.children[i]?.bind (·.at? r)

mutual

/-- Every node below and including the root with its position, in document order. -/
def nodes : Tree α → List (Position × Tree α)
  | node a ts => ([],node a ts) :: childNodes 0 ts

/-- The same for a list of siblings, the first of which has index `i`. -/
def childNodes (i : Nat) : List (Tree α) → List (Position × Tree α)
  | [] => []
  | t :: ts => t.nodes.map (fun e => (i :: e.1,e.2)) ++ childNodes (i + 1) ts

end

/-- The proper descendants, in document order. -/
def descendants (t : Tree α) : List (Position × Tree α) := childNodes 0 t.children

/-- The proper descendants whose label passes a test, in document order. -/
def findAll (p : α → Bool) (t : Tree α) : List (Position × Tree α) :=
  t.descendants.filter (p ·.2.label)

/-- The first proper descendant whose label passes a test. -/
def find (p : α → Bool) (t : Tree α) : Option (Position × Tree α) :=
  t.descendants.find? (p ·.2.label)

theorem at?_append (t : Tree α) (v r : Position) :
    t.at? (v ++ r) = (t.at? v).bind (·.at? r) := by
  induction v generalizing t with
  | nil => rfl
  | cons i v ih =>
    rw [List.cons_append,at?,at?]
    cases t.children[i]? with
    | none => rfl
    | some child => simp only [Option.bind_some,ih]

mutual

theorem at?_of_mem_nodes (t : Tree α) (e : Position × Tree α) (h : e ∈ t.nodes) :
    t.at? e.1 = some e.2 := by
  cases t with
  | node a ts =>
    rw [nodes,List.mem_cons] at h
    rcases h with rfl | h
    · rfl
    · obtain ⟨j,r,child,hp,hc,hr⟩ := at?_of_mem_childNodes 0 ts e h
      rw [Nat.zero_add] at hp
      rw [hp,at?,children,hc]
      exact hr

theorem at?_of_mem_childNodes (i : Nat) (ts : List (Tree α)) (e : Position × Tree α)
    (h : e ∈ childNodes i ts) :
    ∃ j r child, e.1 = (i + j) :: r ∧ ts[j]? = some child ∧ child.at? r = some e.2 := by
  cases ts with
  | nil => simp [childNodes] at h
  | cons t ts =>
    rw [childNodes,List.mem_append,List.mem_map] at h
    rcases h with ⟨f,hf,rfl⟩ | h
    · exact ⟨0,f.1,t,rfl,rfl,at?_of_mem_nodes t f hf⟩
    · obtain ⟨j,r,child,hp,hc,hr⟩ := at?_of_mem_childNodes (i + 1) ts e h
      exact ⟨j + 1,r,child,by rw [hp]; congr 1; omega,hc,hr⟩

end

/-- A listed descendant stands where its position says. -/
theorem at?_of_mem_descendants (t : Tree α) (e : Position × Tree α) (h : e ∈ t.descendants) :
    t.at? e.1 = some e.2 := by
  obtain ⟨j,r,child,hp,hc,hr⟩ := at?_of_mem_childNodes 0 t.children e h
  rw [Nat.zero_add] at hp
  rw [hp,at?,hc]
  exact hr

private theorem childNodes_start (i : Nat) (ts : List (Tree α)) (e : Position × Tree α)
    (h : e ∈ childNodes i ts) : ∃ k r, e.1 = k :: r ∧ i ≤ k := by
  obtain ⟨j,r,child,hp,-,-⟩ := at?_of_mem_childNodes i ts e h
  exact ⟨i + j,r,hp,Nat.le_add_right i j⟩

mutual

theorem nodes_sorted (t : Tree α) : t.nodes.Pairwise (·.1 < ·.1) := by
  cases t with
  | node a ts =>
    rw [nodes,List.pairwise_cons]
    refine ⟨fun e he => ?_,childNodes_sorted 0 ts⟩
    obtain ⟨k,r,hp,-⟩ := childNodes_start 0 ts e he
    rw [hp]
    exact List.nil_lt_cons k r

/-- Positions grow along the list: it is in document order. -/
theorem childNodes_sorted (i : Nat) (ts : List (Tree α)) :
    (childNodes i ts).Pairwise (·.1 < ·.1) := by
  cases ts with
  | nil => exact List.Pairwise.nil
  | cons t ts =>
    rw [childNodes,List.pairwise_append]
    refine ⟨?_,childNodes_sorted (i + 1) ts,?_⟩
    · rw [List.pairwise_map]
      exact (nodes_sorted t).imp fun h => List.cons_lt_cons_iff.mpr (.inr ⟨rfl,h⟩)
    · intro e he f hf
      obtain ⟨g,-,rfl⟩ := List.mem_map.mp he
      obtain ⟨k,r,hp,hk⟩ := childNodes_start (i + 1) ts f hf
      rw [hp]
      exact List.cons_lt_cons_iff.mpr (.inl hk)

end

theorem mem_findAll {p : α → Bool} {t : Tree α} {e : Position × Tree α} :
    e ∈ t.findAll p ↔ e ∈ t.descendants ∧ p e.2.label :=
  List.mem_filter

/-- The first match is a match, and no match precedes it. -/
theorem find_least {p : α → Bool} {t : Tree α} {e : Position × Tree α} (h : t.find p = some e) :
    e ∈ t.findAll p ∧ ∀ f ∈ t.findAll p, ¬f.1 < e.1 := by
  obtain ⟨hp,before,after,heq,hbefore⟩ := List.find?_eq_some_iff_append.mp h
  have hsorted := childNodes_sorted 0 t.children
  change t.descendants.Pairwise _ at hsorted
  rw [heq,List.pairwise_append,List.pairwise_cons] at hsorted
  refine ⟨mem_findAll.mpr ⟨by rw [heq]; simp,hp⟩,fun f hf hlt => ?_⟩
  obtain ⟨hmem,hpf⟩ := mem_findAll.mp hf
  rw [heq,List.mem_append,List.mem_cons] at hmem
  rcases hmem with hmem | rfl | hmem
  · exact absurd hpf (by simpa using hbefore f hmem)
  · exact List.lt_irrefl _ hlt
  · exact List.lt_asymm hlt (hsorted.2.1.1 f hmem)

/-- What precedes a node precedes its descendants. -/
theorem before_descendant {q v : Position} (rest : Position) (h : q < v) : q < v ++ rest := by
  induction v generalizing q with
  | nil => exact absurd h (List.not_lt_nil q)
  | cons i v ih =>
    cases q with
    | nil => exact List.nil_lt_cons i _
    | cons j q =>
      rw [List.cons_lt_cons_iff] at h
      rw [List.cons_append,List.cons_lt_cons_iff]
      exact h.imp_right fun ⟨hij,hq⟩ => ⟨hij,ih hq⟩

/-- What lies between a node and one of its descendants is a descendant too. -/
theorem position_between {v q s : Position} (hs : v <+: s) (hv : ¬q < v) (hq : ¬s < q) :
    v <+: q := by
  induction v generalizing q s with
  | nil => exact List.nil_prefix
  | cons i v ih =>
    obtain ⟨rest,rfl⟩ := hs
    cases q with
    | nil => exact absurd (List.nil_lt_cons i v) hv
    | cons j q =>
      rw [List.cons_lt_cons_iff,not_or,not_and] at hv
      rw [List.cons_append,List.cons_lt_cons_iff,not_or,not_and] at hq
      have hij : i = j := Nat.le_antisymm (Nat.not_lt.mp hv.1) (Nat.not_lt.mp hq.1)
      rw [List.cons_prefix_cons]
      exact ⟨hij,ih (List.prefix_append v rest) (hv.2 hij.symm) (hq.2 hij)⟩

/-- The first match lies within a node exactly when the node contains a match and
no match precedes the node. -/
theorem find_within_iff {p : α → Bool} {t : Tree α} {e : Position × Tree α}
    (h : t.find p = some e) (v : Position) :
    v <+: e.1 ↔ (∃ f ∈ t.findAll p, v <+: f.1) ∧ ∀ f ∈ t.findAll p, ¬f.1 < v := by
  obtain ⟨hmem,hleast⟩ := find_least h
  constructor
  · intro hv
    refine ⟨⟨e,hmem,hv⟩,fun f hf hlt => hleast f hf ?_⟩
    obtain ⟨rest,hrest⟩ := hv
    exact hrest ▸ before_descendant rest hlt
  · rintro ⟨⟨f,hf,hvf⟩,hbefore⟩
    exact position_between hvf (hbefore e hmem) (hleast f hf)

end Tree
end VoxForge.Foundation
