import Mathlib.Algebra.GroupWithZero.Nat
import VoxForge.Knowledge.ChunkWindows
import VoxForge.Knowledge.Lines

/-! Texts that are joined from rows: their lengths, their ends and their lines. -/
namespace VoxForge.Knowledge
open Core

theorem length_strip_le (s : String) : (strip s).length ≤ s.length := by
  obtain ⟨lead,trail,hs,-,-⟩ := strip_between s
  have := congrArg List.length hs
  rw [List.length_append,List.length_append,String.length_toList,String.length_toList] at this
  omega

/-- The last character of a stripped text is none of white space. -/
theorem getLast?_strip {s : String} {c : Char} (h : (strip s).toList.getLast? = some c) : isSpace c = false := by
  have hfixed : (strip s).toList.rdropWhile isSpace = (strip s).toList := by
    rw [strip,String.toList_ofList,List.rdropWhile_idempotent]
  have hne : (strip s).toList ≠ [] := by
    rintro hempty
    rw [hempty] at h
    cases h
  have hlast := List.rdropWhile_eq_self_iff.mp hfixed hne
  rw [List.getLast?_eq_getLast_of_ne_nil hne] at h
  rw [← Option.some.inj h]
  simpa using hlast

/-- How much of a text is no white space. -/
def seen (s : String) : Nat := (visible s.toList).length

theorem seen_eq_zero_iff {s : String} : seen s = 0 ↔ strip s = "" := by
  rw [seen,List.length_eq_zero_iff,visible_eq_nil_iff,strip_eq_empty_iff]

section joins
variable {l : List String}

theorem length_joined (l : List String) : ("\n".intercalate l).length = (l.map String.length).sum + (l.length - 1) := by
  induction l with
  | nil => rfl
  | cons first l ih =>
    cases l with
    | nil => simp
    | cons second l =>
      have hsum : ((first :: second :: l).map String.length).sum =
          first.length + ((second :: l).map String.length).sum := List.sum_cons
      have hnewline : "\n".length = 1 := rfl
      rw [String.intercalate_cons_cons,String.length_append,String.length_append,ih,hsum]
      simp only [List.length_cons]
      omega

theorem seen_joined (l : List String) : seen ("\n".intercalate l) = (l.map seen).sum := by
  induction l with
  | nil => rfl
  | cons first l ih =>
    cases l with
    | nil => simp
    | cons second l =>
      rw [List.map_cons,List.sum_cons,← ih,String.intercalate_cons_cons,seen,String.toList_append,String.toList_append,
        visible_append,visible_append,List.length_append,List.length_append]
      rfl

/-- Rows that are not changed, and of which the last is blank, are one empty row. -/
theorem joined_eq_blank (hfixed : strip ("\n".intercalate l) = "\n".intercalate l) {last : String}
    (hlast : l.getLast? = some last) (hblank : strip last = "") : l = [""] := by
  obtain ⟨front,rfl⟩ := List.getLast?_eq_some_iff.mp hlast
  cases front with
  | nil =>
    rw [List.nil_append,String.intercalate_singleton,hblank] at hfixed
    rw [← hfixed]
    rfl
  | cons first front =>
    -- the text ends with a newline and white space
    have htext : ("\n".intercalate (first :: front ++ [last])).toList =
        ("\n".intercalate (first :: front)).toList ++ '\n' :: last.toList := by
      rw [String.intercalate_append_of_ne_nil (by simp) (by simp),String.intercalate_singleton,String.toList_append,
        String.toList_append]
      simp
    obtain ⟨c,hc⟩ : ∃ c, ('\n' :: last.toList).getLast? = some c := Option.isSome_iff_exists.mp (by simp)
    have hend : (strip ("\n".intercalate (first :: front ++ [last]))).toList.getLast? = some c := by
      rw [hfixed,htext,List.getLast?_append,hc]
      rfl
    have hspace : isSpace c = true := by
      rcases List.mem_cons.mp (List.mem_of_getLast? hc) with rfl | hmem
      · rfl
      · exact strip_eq_empty_iff.mp hblank c hmem
    rw [getLast?_strip hend] at hspace
    cases hspace

end joins
/-! The lines of a joined text -/

/-- The lines of a header and some rows: those of the header, and those of the rows. -/
theorem splitLines_joined {rows : List String} (header : String) (hne : rows ≠ []) :
    splitLines [] ("\n".intercalate (header :: rows)).toList =
      splitLines [] (header.toList ++ ['\n']) ++ splitLines [] (['\n'].intercalate (rows.map String.toList)) := by
  have htext : ("\n".intercalate (header :: rows)).toList =
      header.toList ++ '\n' :: ['\n'].intercalate (rows.map String.toList) := by
    rw [String.toList_intercalate,List.map_cons,List.intercalate_cons_of_ne_nil (by simpa using hne),List.append_assoc]
    rfl
  rw [htext,splitLines_newline]

/-- Joining adds nothing but breaks. -/
theorem filter_intercalate (rows : List (List Char)) :
    (['\n'].intercalate rows).filter (!isLineBreak ·) = rows.flatten.filter (!isLineBreak ·) := by
  induction rows with
  | nil => rfl
  | cons row rows ih =>
    cases rows with
    | nil => simp
    | cons second rows =>
      have hnewline : ['\n'].filter (!isLineBreak ·) = [] := rfl
      have hflat : (row :: second :: rows).flatten = row ++ (second :: rows).flatten := List.flatten_cons
      rw [List.intercalate_cons_cons,List.filter_append,List.filter_append,ih,hnewline,List.append_nil,hflat,
        List.filter_append]

theorem visible_filter (text : List Char) : visible (text.filter (!isLineBreak ·)) = visible text := by
  rw [visible,List.filter_filter]
  refine List.filter_congr fun c _ => ?_
  cases hbreak : isLineBreak c with
  | false => simp
  | true => simp [isSpace_of_isLineBreak hbreak]

/-- Rows that are one line each are no more than their breaks away from these lines. -/
theorem rowLines_visible (rows : List (List Char)) (h : (rowLines rows).length = rows.length) :
    (rowLines rows).map visible = rows.map visible := by
  induction rows with
  | nil => rfl
  | cons row rows ih =>
    have hrest := length_le_rowLines rows
    have hrow := length_le_rowLines [row]
    rw [rowLines_cons,List.length_append,List.length_cons] at h
    rw [rowLines_cons,rowLines,List.flatMap_nil,List.append_nil,List.length_singleton] at hrow
    obtain ⟨line,hline⟩ := List.length_eq_one_iff.mp (show (splitLines [] (row ++ ['\n'])).length = 1 by omega)
    have hflat := flatten_splitLines [] (row ++ ['\n'])
    rw [hline,List.flatten_singleton,List.nil_append] at hflat
    have hvisible : visible line = visible row := by
      rw [hflat,visible_filter,visible_append]
      exact List.append_nil _
    rw [rowLines_cons,hline,List.map_append,ih (by omega),List.map_cons,List.map_cons,hvisible]
    rfl

end VoxForge.Knowledge
