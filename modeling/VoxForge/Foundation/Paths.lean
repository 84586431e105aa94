import Mathlib.Data.List.Basic

/-! Paths as lists of components, and how a text leads from one path to another. -/
namespace VoxForge.Foundation

abbrev Path := List (List Char)

namespace Path

/-- Go on to a component: the empty one and `.` stay, and `..` goes up, at most to the top. -/
def follow (base : Path) (part : List Char) : Path :=
  if part = [] ∨ part = ['.'] then base
  else if part = ['.','.'] then base.dropLast
  else base ++ [part]

/-- Where a text with slashes leads to; one that begins with a slash starts from the top. -/
def join (base : Path) (text : List Char) : Path :=
  (text.splitOn '/').foldl follow (if text.head? = some '/' then [] else base)

/-- A component that stands for itself. -/
structure Ordinary (part : List Char) : Prop where
  ne_nil : part ≠ []
  ne_dot : part ≠ ['.']
  ne_dots : part ≠ ['.','.']
  noSlash : '/' ∉ part

theorem follow_ordinary {base : Path} {part : List Char} (h : Ordinary part) : follow base part = base ++ [part] := by
  rw [follow,if_neg (not_or.mpr ⟨h.ne_nil,h.ne_dot⟩),if_neg h.ne_dots]

theorem foldl_follow {base : Path} {parts : List (List Char)} (h : ∀ part ∈ parts, Ordinary part) :
    parts.foldl follow base = base ++ parts := by
  induction parts generalizing base with
  | nil => simp
  | cons part parts ih =>
    rw [List.foldl_cons,follow_ordinary (h part (List.mem_cons_self ..)),
      ih fun p hp => h p (List.mem_cons_of_mem _ hp),List.append_assoc]
    rfl

/-- Ordinary components between slashes lead to exactly these components. -/
theorem join_intercalate {base : Path} {parts : List (List Char)} (hne : parts ≠ [])
    (h : ∀ part ∈ parts, Ordinary part) : join base (['/'].intercalate parts) = base ++ parts := by
  have hhead : (['/'].intercalate parts).head? ≠ some '/' := by
    cases parts with
    | nil => exact absurd rfl hne
    | cons part parts =>
      have hpart := h part (List.mem_cons_self ..)
      cases part with
      | nil => exact absurd rfl hpart.ne_nil
      | cons c part =>
        have hc : c ≠ '/' := by
          rintro rfl
          exact hpart.noSlash (List.mem_cons_self ..)
        cases parts <;> simpa [List.intercalate,List.intersperse] using hc
  rw [join,if_neg hhead,List.splitOn_intercalate '/' (fun part hpart => (h part hpart).noSlash) hne,foldl_follow h]

end Path
end VoxForge.Foundation
