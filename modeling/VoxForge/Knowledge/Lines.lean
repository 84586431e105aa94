import VoxForge.Knowledge.Chunking

/-! The lines into which `splitlines` cuts a text, and what it cuts away. -/
namespace VoxForge.Knowledge
open Core

/-- Text without any of the characters at which `splitlines` cuts. -/
def breakFree (text : List Char) : Bool := text.all (!isLineBreak ·)

theorem breakFree_iff {text : List Char} : breakFree text = true ↔ ∀ c ∈ text, isLineBreak c = false := by
  simp [breakFree]

theorem isSpace_of_isLineBreak {c : Char} (h : isLineBreak c = true) : isSpace c = true := by
  have hcode := of_decide_eq_true h
  simp only [List.mem_cons,List.not_mem_nil,or_false] at hcode
  unfold isSpace
  rcases hcode with h | h | h | h | h | h | h | h | h | h <;> rw [h] <;> decide

section lines
variable {line text front rest : List Char} {c : Char}

theorem splitLines_cons (h : c = '\r' → ∀ tail, rest ≠ '\n' :: tail) :
    splitLines line (c :: rest) = if isLineBreak c then line :: splitLines [] rest else splitLines (line ++ [c]) rest := by
  rw [splitLines]
  exact fun tail hc hrest => h hc tail hrest

theorem splitLines_of_newline : splitLines line ('\n' :: rest) = line :: splitLines [] rest := by
  rw [splitLines_cons fun h => absurd h (by decide),if_pos (by decide)]

/-- Neither before nor after more text does a newline follow a carriage return that ends no text. -/
theorem no_newline_after (hother : ∀ tail, c = '\r' → text = '\n' :: tail → False) (h : ¬ (c = '\r' ∧ text = []))
    (rest : List Char) : c = '\r' → ∀ tail, text ++ '\n' :: rest ≠ '\n' :: tail := by
  intro hc tail happend
  cases text with
  | nil => exact h ⟨hc,rfl⟩
  | cons d text => exact hother text hc (by rw [(List.cons.inj happend).1])

/-- A text is cut at each newline, whatever stands around it. -/
theorem splitLines_newline (line front rest : List Char) :
    splitLines line (front ++ '\n' :: rest) = splitLines line (front ++ ['\n']) ++ splitLines [] rest := by
  fun_induction splitLines line front with
  | case1 =>
    rw [List.nil_append,List.nil_append,splitLines_of_newline,splitLines_of_newline]
    rfl
  | case2 line h =>
    rw [List.nil_append,List.nil_append,splitLines_of_newline,splitLines_of_newline]
    rfl
  | case3 line tail ih =>
    rw [List.cons_append,List.cons_append,List.cons_append,List.cons_append,splitLines,splitLines,ih]
    rfl
  | case4 line c tail hother hbreak ih =>
    by_cases hlast : c = '\r' ∧ tail = []
    · obtain ⟨rfl,rfl⟩ := hlast
      rw [List.cons_append,List.cons_append,List.nil_append,List.nil_append,splitLines,splitLines]
      rfl
    · rw [List.cons_append,List.cons_append,splitLines_cons (no_newline_after hother hlast rest),
        splitLines_cons (no_newline_after hother hlast []),if_pos hbreak,if_pos hbreak,ih]
      rfl
  | case5 line c tail hother hbreak ih =>
    have hlast : ¬ (c = '\r' ∧ tail = []) := fun h => hbreak (by rw [h.1]; decide)
    rw [List.cons_append,List.cons_append,splitLines_cons (no_newline_after hother hlast rest),
      splitLines_cons (no_newline_after hother hlast []),if_neg hbreak,if_neg hbreak,ih]

theorem flatten_splitLines (line text : List Char) :
    (splitLines line text).flatten = line ++ text.filter (!isLineBreak ·) := by
  fun_induction splitLines line text with
  | case1 => rfl
  | case2 line h => simp
  | case3 line tail ih =>
    rw [List.flatten_cons,ih]
    rfl
  | case4 line c tail hother hbreak ih =>
    rw [List.flatten_cons,ih,List.filter_cons_of_neg (by simp [hbreak])]
    rfl
  | case5 line c tail hother hbreak ih =>
    rw [ih,List.filter_cons_of_pos (by simpa using hbreak),List.append_assoc]
    rfl

theorem splitLines_eq_nil_iff : splitLines line text = [] ↔ line = [] ∧ text = [] := by
  fun_induction splitLines line text with
  | case1 => simp
  | case2 line h => simp [h]
  | case3 line tail ih => simp
  | case4 line c tail hother hbreak ih => simp
  | case5 line c tail hother hbreak ih => simp [ih]

/-- A text without breaks is one line, and none if it is empty. -/
theorem splitLines_of_breakFree (h : breakFree text = true) :
    splitLines line text = if line ++ text = [] then [] else [line ++ text] := by
  rw [breakFree_iff] at h
  induction text generalizing line with
  | nil => rw [splitLines,List.append_nil]
  | cons c text ih =>
    obtain ⟨hc,htext⟩ := List.forall_mem_cons.mp h
    have hreturn : c ≠ '\r' := by rintro rfl; cases hc
    rw [splitLines_cons fun h => absurd h hreturn,if_neg (by simp [hc]),ih htext,List.append_assoc]
    rfl

theorem splitLines_newline_of_breakFree (h : breakFree text = true) : splitLines line (text ++ ['\n']) = [line ++ text] := by
  rw [breakFree_iff] at h
  induction text generalizing line with
  | nil => rw [List.nil_append,splitLines_of_newline,List.append_nil]; rfl
  | cons c text ih =>
    obtain ⟨hc,htext⟩ := List.forall_mem_cons.mp h
    have hreturn : c ≠ '\r' := by rintro rfl; cases hc
    rw [List.cons_append,splitLines_cons fun h => absurd h hreturn,if_neg (by simp [hc]),ih htext,List.append_assoc]
    rfl

end lines

/-- The lines of each row, as if a newline followed it. -/
def rowLines (rows : List (List Char)) : List (List Char) := rows.flatMap fun row => splitLines [] (row ++ ['\n'])

section rows
variable {front rows : List (List Char)} {header last : List Char}

theorem rowLines_cons (row : List Char) (rows : List (List Char)) :
    rowLines (row :: rows) = splitLines [] (row ++ ['\n']) ++ rowLines rows := List.flatMap_cons

theorem splitLines_intercalate (front : List (List Char)) (last : List Char) :
    splitLines [] (['\n'].intercalate (front ++ [last])) = rowLines front ++ splitLines [] last := by
  induction front with
  | nil => simp [rowLines]
  | cons row front ih =>
    have hrest : front ++ [last] ≠ [] := by simp
    rw [List.cons_append,List.intercalate_cons_of_ne_nil hrest,List.append_assoc,List.singleton_append,
      splitLines_newline,ih,rowLines_cons,List.append_assoc]

/-- Each row is at least one line. -/
theorem length_le_rowLines (rows : List (List Char)) : rows.length ≤ (rowLines rows).length := by
  induction rows with
  | nil => exact Nat.le_refl _
  | cons row rows ih =>
    have hline : splitLines [] (row ++ ['\n']) ≠ [] := fun h => by simpa using (splitLines_eq_nil_iff.mp h).2
    have hpos := List.length_pos_of_ne_nil hline
    rw [rowLines_cons,List.length_append,List.length_cons]
    omega

theorem rowLines_of_breakFree (h : ∀ row ∈ rows, breakFree row = true) : rowLines rows = rows := by
  induction rows with
  | nil => rfl
  | cons row rows ih =>
    obtain ⟨hrow,hrows⟩ := List.forall_mem_cons.mp h
    rw [rowLines_cons,splitLines_newline_of_breakFree hrow,ih hrows]
    rfl

end rows
end VoxForge.Knowledge
