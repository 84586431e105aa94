import VoxForge.Foundation.Runs

/-! A document with a flag: one task reads it and writes it back, and others set the flag
in the meantime. Which settings of the flag outlast the writes.
Nothing here names a program. -/
namespace VoxForge.Foundation

/-- An access to the document: by the task, or by another that sets the flag. -/
inductive Access where
  | read
  /-- What the task has read, changed elsewhere. -/
  | wrote
  /-- The task writes the flag clear. -/
  | cleared
  | flagged
  deriving DecidableEq, Repr

namespace Access
variable {before after accesses : List Access}

/-- The task's first access in a stretch. -/
def first? (after : List Access) : Option Access := after.find? (· ≠ .flagged)

/-- After a setting: the task has not overwritten it with what it had read before, nor cleared it. -/
def Unanswered (after : List Access) : Prop := .cleared ∉ after ∧ first? after ≠ some .wrote

/-- Some setting of the flag outlasts what followed. -/
def Standing (accesses : List Access) : Prop :=
  ∃ before after, accesses = before ++ .flagged :: after ∧ Unanswered after

/-- The task has read it besides. -/
def Held (accesses : List Access) : Prop :=
  ∃ before after, accesses = before ++ .flagged :: after ∧ Unanswered after ∧ (first? after).isSome

theorem Held.standing (h : Held accesses) : Standing accesses := by
  obtain ⟨before,after,heq,hu,-⟩ := h
  exact ⟨before,after,heq,hu⟩

theorem not_standing_nil : ¬Standing [] := by
  rintro ⟨before,after,heq,-⟩
  cases before <;> cases heq

theorem first?_concat (after : List Access) (a : Access) :
    first? (after ++ [a]) = (first? after).or (first? [a]) := List.find?_append

theorem unanswered_nil : Unanswered [] := ⟨by simp,by simp [first?]⟩

theorem unanswered_flagged : Unanswered (after ++ [.flagged]) ↔ Unanswered after := by
  simp [Unanswered,first?]

theorem unanswered_read : Unanswered (after ++ [.read]) ↔ Unanswered after := by
  unfold Unanswered
  rw [first?_concat]
  cases first? after <;> simp [first?]

theorem unanswered_wrote : Unanswered (after ++ [.wrote]) ↔ Unanswered after ∧ (first? after).isSome := by
  unfold Unanswered
  rw [first?_concat]
  cases first? after <;> simp [first?]

theorem not_unanswered_cleared : ¬Unanswered (after ++ [.cleared]) := fun h => h.1 (by simp)

/-- A setting before the last access. -/
theorem standing_concat {a : Access} (h : a ≠ .flagged) : Standing (accesses ++ [a]) ↔
    ∃ before after, accesses = before ++ .flagged :: after ∧ Unanswered (after ++ [a]) := by
  constructor
  · rintro ⟨before,after,heq,hu⟩
    rcases concat_eq_split heq with ⟨-,rfl,-⟩ | ⟨rest,hrest,rfl⟩
    · exact absurd rfl h
    · exact ⟨before,rest,hrest,hu⟩
  · rintro ⟨before,after,rfl,hu⟩
    exact ⟨before,after ++ [a],by simp,hu⟩

theorem held_concat {a : Access} : Held (accesses ++ [a]) ↔ ∃ before after,
    accesses = before ++ .flagged :: after ∧ Unanswered (after ++ [a]) ∧ (first? (after ++ [a])).isSome := by
  constructor
  · rintro ⟨before,after,heq,hu,hf⟩
    rcases concat_eq_split heq with ⟨-,rfl,rfl⟩ | ⟨rest,hrest,rfl⟩
    · cases hf
    · exact ⟨before,rest,hrest,hu,hf⟩
  · rintro ⟨before,after,rfl,hu,hf⟩
    exact ⟨before,after ++ [a],by simp,hu,hf⟩

theorem standing_flagged : Standing (accesses ++ [.flagged]) := ⟨accesses,[],rfl,unanswered_nil⟩

theorem held_flagged : Held (accesses ++ [.flagged]) ↔ Held accesses := by
  rw [held_concat]
  simp only [unanswered_flagged,first?_concat]
  simp [Held,first?]

theorem standing_read : Standing (accesses ++ [.read]) ↔ Standing accesses := by
  rw [standing_concat (by simp)]
  simp only [unanswered_read]
  rfl

/-- What the task reads, it holds. -/
theorem held_read : Held (accesses ++ [.read]) ↔ Standing accesses := by
  rw [held_concat]
  simp only [unanswered_read,first?_concat]
  simp [Standing,first?]

/-- What the task writes is what it held. -/
theorem standing_wrote : Standing (accesses ++ [.wrote]) ↔ Held accesses := by
  rw [standing_concat (by simp)]
  simp only [unanswered_wrote]
  rfl

theorem held_wrote : Held (accesses ++ [.wrote]) ↔ Held accesses := by
  rw [held_concat]
  simp only [unanswered_wrote,first?_concat]
  simp [Held,first?]

theorem not_standing_cleared : ¬Standing (accesses ++ [.cleared]) := by
  rw [standing_concat (by simp)]
  rintro ⟨before,after,-,hu⟩
  exact not_unanswered_cleared hu

end Access
end VoxForge.Foundation
