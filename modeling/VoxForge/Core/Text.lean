import Mathlib.Data.List.DropRight
import Mathlib.Data.List.Infix
import Mathlib.Data.String.Basic
import VoxForge.Foundation.Words

/-! The parts of the host language's string type that the code relies on. -/
namespace VoxForge.Core

/-- `str.isspace` of one character: the white space that `str.strip` removes. -/
def isSpace (c : Char) : Bool :=
  let n := c.toNat
  (0x09 ≤ n && n ≤ 0x0d) || (0x1c ≤ n && n ≤ 0x20) || n == 0x85 || n == 0xa0 || n == 0x1680 ||
    (0x2000 ≤ n && n ≤ 0x200a) || n == 0x2028 || n == 0x2029 || n == 0x202f || n == 0x205f ||
    n == 0x3000

def strip (s : String) : String :=
  String.ofList ((s.toList.dropWhile isSpace).rdropWhile isSpace)

def splitWords (text : String) : List (List Char) := Foundation.words isSpace text.toList

theorem splitWords_strip (s : String) : splitWords (strip s) = splitWords s := by
  unfold splitWords strip
  rw [String.toList_ofList,Foundation.words_rdropWhile,Foundation.words_dropWhile]

/-- Text that begins and ends with other characters is unchanged. -/
theorem strip_enclosed {first last : Char} (body : String) (hf : isSpace first = false)
    (hl : isSpace last = false) :
    strip (first.toString ++ body ++ last.toString) = first.toString ++ body ++ last.toString := by
  have htext : (first.toString ++ body ++ last.toString).toList =
      first :: (body.toList ++ [last]) := by simp
  have hdrop : (first :: (body.toList ++ [last])).dropWhile isSpace =
      (first :: body.toList) ++ [last] := by simp [hf]
  unfold strip
  rw [htext,hdrop,List.rdropWhile_concat_neg _ _ _ (by simp [hl])]
  exact String.ext (by simp)

/-- `phrase in text`. -/
def contains (phrase text : String) : Bool := decide (phrase.toList <:+: text.toList)

/-- `s.rsplit(sep, 1)` where the separator occurs. -/
def rsplitOnce (sep : Char) (s : String) : Option (String × String) :=
  if sep ∈ s.toList then
    some (String.ofList (s.toList.rdropWhile (· ≠ sep)).dropLast,
      String.ofList (s.toList.rtakeWhile (· ≠ sep)))
  else none

theorem rsplitOnce_append {sep : Char} {front back : String} (h : sep ∉ back.toList) :
    rsplitOnce sep (front ++ sep.toString ++ back) = some (front,back) := by
  have htext : (front ++ sep.toString ++ back).toList = front.toList ++ sep :: back.toList := by simp
  have hback : ∀ c ∈ back.toList.reverse, decide (c ≠ sep) = true := fun c hc =>
    decide_eq_true fun heq => h (heq ▸ List.mem_reverse.mp hc)
  unfold rsplitOnce List.rdropWhile List.rtakeWhile
  rw [htext,if_pos (by simp),List.reverse_append,List.reverse_cons,List.append_assoc,
    List.dropWhile_append_of_pos hback,List.takeWhile_append_of_pos hback]
  simp

theorem rsplitOnce_eq_none {sep : Char} {s : String} : rsplitOnce sep s = none ↔ sep ∉ s.toList := by
  simp [rsplitOnce]

theorem rsplitOnce_eq_some {sep : Char} {s front back : String} :
    rsplitOnce sep s = some (front,back) ↔
      s = front ++ sep.toString ++ back ∧ sep ∉ back.toList := by
  constructor
  · intro h
    have hin : sep ∈ s.toList.reverse := by
      by_contra hout
      rw [rsplitOnce_eq_none.mpr fun hin => hout (List.mem_reverse.mpr hin)] at h
      cases h
    obtain ⟨last,first,hs,hout⟩ := List.eq_append_cons_of_mem hin
    have hsplit : s = String.ofList first.reverse ++ sep.toString ++ String.ofList last.reverse :=
      String.ext (by simpa using congrArg List.reverse hs)
    have hlast : sep ∉ (String.ofList last.reverse).toList := by simpa using hout
    rw [hsplit,rsplitOnce_append hlast] at h
    cases h
    exact ⟨hsplit,hlast⟩
  · rintro ⟨rfl,hout⟩
    exact rsplitOnce_append hout

/-- Fields that do not hold the separator end at its first occurrence. -/
theorem append_cons_inj {sep : Char} {front back : List Char} {rest tail : List Char}
    (hf : sep ∉ front) (hb : sep ∉ back) (h : front ++ sep :: rest = back ++ sep :: tail) :
    front = back ∧ rest = tail := by
  rcases List.append_eq_append_iff.mp h with ⟨more,rfl,hmore⟩ | ⟨more,rfl,hmore⟩
  · cases more with
    | nil => simpa using hmore
    | cons c more => exact absurd (by simp [(List.cons.inj hmore).1]) hb
  · cases more with
    | nil => simpa [eq_comm] using hmore
    | cons c more => exact absurd (by simp [(List.cons.inj hmore).1]) hf

theorem toList_toString (n : Nat) : (toString n).toList = Nat.toDigits 10 n := by
  rw [Nat.toString_eq_repr,Nat.toList_repr]

theorem toString_injective {m n : Nat} (h : (toString m).toList = (toString n).toList) : m = n := by
  rw [toList_toString,toList_toString] at h
  have hread := congrArg (Nat.ofDigitChars 10 · 0) h
  rwa [Nat.ofDigitChars_toDigits (by decide) (by decide),
    Nat.ofDigitChars_toDigits (by decide) (by decide)] at hread

theorem notMem_toString {c : Char} (hc : c.isDigit = false) (n : Nat) : c ∉ (toString n).toList := by
  intro hmem
  rw [toList_toString] at hmem
  exact absurd (Nat.isDigit_of_mem_toDigits (by decide) (by decide) hmem) (by simp [hc])

/-- A number that ends at a separator. -/
theorem toString_cons_inj {sep : Char} (hsep : sep.isDigit = false) {m n : Nat} {rest tail : List Char}
    (h : (toString m).toList ++ sep :: rest = (toString n).toList ++ sep :: tail) : m = n ∧ rest = tail := by
  obtain ⟨hnumber,hrest⟩ := append_cons_inj (notMem_toString hsep m) (notMem_toString hsep n) h
  exact ⟨toString_injective hnumber,hrest⟩

/-- What is no white space, in order. -/
def visible (text : List Char) : List Char := text.filter (!isSpace ·)

theorem visible_append (s t : List Char) : visible (s ++ t) = visible s ++ visible t := List.filter_append ..

theorem visible_eq_nil_iff {text : List Char} : visible text = [] ↔ ∀ c ∈ text, isSpace c = true := by
  simp [visible,List.filter_eq_nil_iff]

@[simp] theorem visible_strip (s : String) : visible (strip s).toList = visible s.toList := by
  have hfront : visible s.toList = visible (s.toList.dropWhile isSpace) := by
    conv_lhs => rw [← List.takeWhile_append_dropWhile (p := isSpace) (l := s.toList)]
    rw [visible_append,visible_eq_nil_iff.mpr fun c hc => List.mem_takeWhile_imp hc,List.nil_append]
  have hback : visible (s.toList.dropWhile isSpace) = visible (strip s).toList := by
    conv_lhs => rw [← List.rdropWhile_append_rtakeWhile (p := isSpace) (l := s.toList.dropWhile isSpace)]
    rw [visible_append,visible_eq_nil_iff.mpr fun c hc => List.mem_rtakeWhile_imp hc,List.append_nil]
    simp [strip]
  rw [hfront,hback]

theorem strip_eq_empty_iff {s : String} : strip s = "" ↔ ∀ c ∈ s.toList, isSpace c = true := by
  constructor
  · intro h
    rw [← visible_eq_nil_iff,← visible_strip,h]
    rfl
  · intro h
    simp [strip,List.dropWhile_eq_nil_iff.mpr h]

@[simp] theorem strip_strip (s : String) : strip (strip s) = strip s := by
  have hhead := List.head?_dropWhile_not isSpace s.toList
  have hfront : ((s.toList.dropWhile isSpace).rdropWhile isSpace).dropWhile isSpace =
      (s.toList.dropWhile isSpace).rdropWhile isSpace := by
    cases hmid : (s.toList.dropWhile isSpace).rdropWhile isSpace with
    | nil => rfl
    | cons c mid =>
      obtain ⟨tail,htail⟩ := hmid ▸ List.rdropWhile_prefix isSpace (l := s.toList.dropWhile isSpace)
      rw [← htail] at hhead
      have hc : isSpace c = false := by simpa using hhead
      simp [hc]
  unfold strip
  rw [String.toList_ofList,hfront,List.rdropWhile_idempotent]

def isAscii (s : String) : Bool := s.toList.all (·.toNat < 128)

section split
open String

private theorem splitOnAux_singleton (d : Char) (l m r : List Char) (acc : List String) :
    splitOnAux (ofList (l ++ m ++ r)) (String.singleton d) ⟨utf8Len l⟩ ⟨utf8Len l + utf8Len m⟩ 0 acc =
      acc.reverse ++ (List.splitOnPPrepend (· == d) r m.reverse).map ofList := by
  induction r generalizing l m acc with
  | nil =>
    have hend : (⟨utf8Len l + utf8Len m⟩ : Pos.Raw).atEnd (ofList (l ++ m ++ [])) = true := by
      simpa using atEnd_of_valid (l ++ m) []
    rw [splitOnAux,if_pos hend,extract_of_valid]
    simp
  | cons c r ih =>
    have hpos : utf8Len (l ++ m) = utf8Len l + utf8Len m := utf8Len_append l m
    have hend : ¬(⟨utf8Len l + utf8Len m⟩ : Pos.Raw).atEnd (ofList (l ++ m ++ c :: r)) = true := by
      rw [← hpos,atEnd_of_valid]
      exact List.cons_ne_nil c r
    have hget : (⟨utf8Len l + utf8Len m⟩ : Pos.Raw).get (ofList (l ++ m ++ c :: r)) = c := by
      rw [← hpos,get_of_valid]
      rfl
    have hnext : (⟨utf8Len l + utf8Len m⟩ : Pos.Raw).next (ofList (l ++ m ++ c :: r)) =
        ⟨utf8Len l + utf8Len m + c.utf8Size⟩ := by
      rw [← hpos]
      exact next_of_valid (l ++ m) c r
    have hsep : (0 : Pos.Raw).get (String.singleton d) = d := get_of_valid [] [d]
    have hsepnext : (0 : Pos.Raw).next (String.singleton d) = ⟨d.utf8Size⟩ := by
      simpa [-ofList_append] using next_of_valid [] d []
    have hsepend : (⟨d.utf8Size⟩ : Pos.Raw).atEnd (String.singleton d) = true := by
      simpa using atEnd_of_valid [d] []
    have hback : Pos.Raw.unoffsetBy ⟨utf8Len l + utf8Len m⟩ 0 = ⟨utf8Len l + utf8Len m⟩ := rfl
    rw [splitOnAux,if_neg hend,hget,hnext,hsep,hsepnext,hback,hnext]
    dsimp only
    have hend' : utf8Len (l ++ m ++ [c]) = utf8Len l + utf8Len m + c.utf8Size := by simp [Nat.add_assoc]
    by_cases h : c = d
    · subst h
      have hcut : Pos.Raw.unoffsetBy ⟨utf8Len l + utf8Len m + c.utf8Size⟩ ⟨c.utf8Size⟩ = ⟨utf8Len l + utf8Len m⟩ :=
        congrArg Pos.Raw.mk (Nat.add_sub_cancel _ _)
      have hstep := ih (l ++ m ++ [c]) [] (ofList m :: acc)
      rw [hend',utf8Len_nil,Nat.add_zero,List.append_nil,List.append_assoc (l ++ m)] at hstep
      rw [if_pos (beq_self_eq_true c),if_pos hsepend,hcut,extract_of_valid]
      refine hstep.trans ?_
      simp [List.splitOnPPrepend_cons_eq_if]
    · have hstep := ih l (m ++ [c]) acc
      rw [← utf8Len_append,← List.append_assoc,hend',List.append_assoc (l ++ m)] at hstep
      rw [if_neg (by simpa using h)]
      refine hstep.trans ?_
      simp [List.splitOnPPrepend_cons_eq_if,h]

theorem splitOn_singleton (s : String) (d : Char) :
    s.splitOn (String.singleton d) = (s.toList.splitOn d).map ofList := by
  have hne : (String.singleton d == "") = false := by
    simp
  have h := splitOnAux_singleton d [] [] s.toList []
  unfold splitOn
  rw [hne]
  simpa [List.splitOn_eq_splitOnP] using h

end split
end VoxForge.Core
