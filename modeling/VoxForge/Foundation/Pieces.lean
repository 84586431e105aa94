import VoxForge.Foundation.Scanning

/-! Which letters of a text are left when the matches of one pattern after another are replaced. -/
namespace VoxForge.Foundation
variable {α : Type}

/-- A letter that stays, or a stretch for which a mark is written. -/
inductive Piece (α : Type) where
  | kept (c : α)
  | replaced (m : List α)

def Piece.source : Piece α → List α
  | .kept c => [c]
  | .replaced m => m

def source (ps : List (Piece α)) : List α := ps.flatMap Piece.source

namespace Redaction

def write (r : Redaction α) : Piece α → List α
  | .kept c => [c]
  | .replaced _ => r.mark

def written (r : Redaction α) (ps : List (Piece α)) : List α := ps.flatMap r.write

/-- How a pattern takes a text to pieces, from left to right; the word of a match stays. -/
inductive Splits (r : Redaction α) : List (Piece α) → List α → Prop
  | done : Splits r [] []
  | letter {c : α} {s : List α} {ps : List (Piece α)} (hrule : r.rule (c :: s) = none) (hs : Splits r ps s) :
    Splits r (.kept c :: ps) (c :: s)
  | stretch {word m rest : List α} {ps : List (Piece α)}
    (hrule : r.rule (word ++ (m ++ rest)) = some (word ++ r.mark,rest)) (hs : Splits r ps rest) :
    Splits r (word.map .kept ++ .replaced m :: ps) (word ++ (m ++ rest))

/-- `part` stands between `front` and `back`, and none of the patterns, applied one after
another, replaces a letter of it. -/
def Escapes (part : List α) : List (Redaction α) → List α → List α → Prop
  | [], _, _ => True
  | r :: rs, front, back => ∃ before after : List (Piece α), source before = front ∧ source after = back ∧
    r.Splits (before ++ (part.map .kept ++ after)) (front ++ (part ++ back)) ∧
    Escapes part rs (r.written before) (r.written after)

/-- One of the patterns writes a mark that makes up `part`, or the rest of it, with what is
beside the mark, and it escapes the patterns after that one. -/
def Arises (part : List α) : List (Redaction α) → List α → Prop
  | [], _ => False
  | r :: rs, s => (∃ (before after : List (Piece α)) (m front back : List α),
      r.Splits (before ++ .replaced m :: after) s ∧
      r.written before ++ (r.mark ++ r.written after) = front ++ (part ++ back) ∧
      front.length < (r.written before ++ r.mark).length ∧ (r.written before).length < (front ++ part).length ∧
      Escapes part rs front back) ∨
    Arises part rs (r.substitute s)

def substituteAll (rs : List (Redaction α)) (s : List α) : List α := rs.foldl (fun s r => r.substitute s) s

variable {r : Redaction α} {ps : List (Piece α)} {s part front back a b : List α}

@[simp] theorem source_append (ps qs : List (Piece α)) : source (ps ++ qs) = source ps ++ source qs :=
  List.flatMap_append

@[simp] theorem written_append (ps qs : List (Piece α)) : r.written (ps ++ qs) = r.written ps ++ r.written qs :=
  List.flatMap_append

@[simp] theorem source_kept (part : List α) : source (part.map .kept) = part := by
  induction part with
  | nil => rfl
  | cons c part ih => exact congrArg (c :: ·) ih

@[simp] theorem written_kept (part : List α) : r.written (part.map .kept) = part := by
  induction part with
  | nil => rfl
  | cons c part ih => exact congrArg (c :: ·) ih

@[simp] theorem written_replaced (m : List α) (ps : List (Piece α)) :
    r.written (.replaced m :: ps) = r.mark ++ r.written ps := rfl

theorem Splits.source_eq (h : r.Splits ps s) : source ps = s := by
  induction h with
  | done => rfl
  | letter _ _ ih => exact congrArg (_ :: ·) ih
  | @stretch word m rest ps _ _ ih =>
    rw [source_append,source_kept]
    exact congrArg (fun t => word ++ (m ++ t)) ih

theorem Splits.written_eq (h : r.Splits ps s) : r.written ps = r.substitute s := by
  induction h with
  | done => rfl
  | letter hrule _ ih =>
    rw [substitute_none hrule]
    exact congrArg (_ :: ·) ih
  | stretch hrule _ ih => rw [substitute_some hrule,written_append,written_kept,written_replaced,ih,List.append_assoc]

theorem exists_splits (r : Redaction α) (s : List α) : ∃ ps, r.Splits ps s := by
  induction s using r.substitute_induction with
  | nil => exact ⟨[],.done⟩
  | kept c s hrule ih =>
    obtain ⟨ps,hs⟩ := ih
    exact ⟨_,.letter hrule hs⟩
  | replaced s out rest hrule ih =>
    obtain ⟨ps,hs⟩ := ih
    obtain ⟨w,-,word,m,rfl,-,-,-,rfl⟩ := rule_eq hrule
    exact ⟨_,.stretch hrule hs⟩

/-- What is written may be cut between two pieces, or within a mark. -/
theorem written_cut (h : r.written ps = a ++ b) :
    (∃ before after, ps = before ++ after ∧ r.written before = a ∧ r.written after = b) ∨
      ∃ before m after x y, ps = before ++ .replaced m :: after ∧ r.mark = x ++ y ∧ x ≠ [] ∧ y ≠ [] ∧
        a = r.written before ++ x ∧ b = y ++ r.written after := by
  induction ps generalizing a with
  | nil =>
    obtain ⟨rfl,rfl⟩ := List.nil_eq_append_iff.mp h
    exact .inl ⟨[],[],rfl,rfl,rfl⟩
  | cons p ps ih =>
    have hfirst {a' : List α} (hps : r.written ps = a' ++ b) (ha : a = r.write p ++ a') :
        (∃ before after, p :: ps = before ++ after ∧ r.written before = a ∧ r.written after = b) ∨
          ∃ before m after x y, p :: ps = before ++ .replaced m :: after ∧ r.mark = x ++ y ∧ x ≠ [] ∧ y ≠ [] ∧
            a = r.written before ++ x ∧ b = y ++ r.written after := by
      subst ha
      rcases ih hps with ⟨before,after,rfl,rfl,rfl⟩ | ⟨before,m,after,x,y,rfl,hmark,hx,hy,rfl,rfl⟩
      · exact .inl ⟨p :: before,after,rfl,rfl,rfl⟩
      · exact .inr ⟨p :: before,m,after,x,y,rfl,hmark,hx,hy,(List.append_assoc _ _ _).symm,rfl⟩
    cases p with
    | kept c =>
      cases a with
      | nil => exact .inl ⟨[],_,rfl,rfl,h⟩
      | cons d a =>
        obtain ⟨rfl,hps⟩ := List.cons.inj h
        exact hfirst hps rfl
    | replaced m =>
      rw [written_replaced] at h
      rcases List.append_eq_append_iff.mp h with ⟨a',rfl,hps⟩ | ⟨y,hy,rfl⟩
      · exact hfirst hps rfl
      · by_cases ha : a = []
        · exact .inl ⟨[],_,rfl,ha.symm,by rw [written_replaced,hy,ha,List.nil_append]⟩
        by_cases hyn : y = []
        · exact .inl ⟨[.replaced m],ps,rfl,by simp [written,write,hy,hyn],by rw [hyn,List.nil_append]⟩
        · exact .inr ⟨[],m,ps,a,y,rfl,hy,ha,hyn,rfl,rfl⟩

/-- Pieces without a replaced one among them are letters that stay. -/
theorem kept_or_replaced (ps : List (Piece α)) :
    ps = (r.written ps).map .kept ∨ ∃ before m after, ps = before ++ .replaced m :: after := by
  induction ps with
  | nil => exact .inl rfl
  | cons p ps ih =>
    cases p with
    | replaced m => exact .inr ⟨[],m,ps,rfl⟩
    | kept c =>
      rcases ih with hps | ⟨before,m,after,rfl⟩
      · exact .inl (congrArg (Piece.kept c :: ·) hps)
      · exact .inr ⟨.kept c :: before,m,after,rfl⟩

/-- Where a part of what is written comes from: letters that stay, or a mark. -/
theorem written_part (hmark : r.mark ≠ []) (h : r.written ps = front ++ (part ++ back)) :
    (∃ before after, ps = before ++ (part.map .kept ++ after) ∧ r.written before = front ∧ r.written after = back) ∨
      ∃ before m after, ps = before ++ .replaced m :: after ∧
        front.length < (r.written before ++ r.mark).length ∧ (r.written before).length < (front ++ part).length := by
  have hpos := List.length_pos_iff.mpr hmark
  rcases written_cut h with ⟨before,after,rfl,rfl,hafter⟩ | ⟨before,m,after,x,y,rfl,hxy,hx,hy,rfl,-⟩
  · rcases written_cut hafter with ⟨middle,after,rfl,hpart,rfl⟩ | ⟨middle,m,after,x,y,rfl,hxy,hx,-,rfl,-⟩
    · rcases kept_or_replaced (r := r) middle with hkept | ⟨first,m,second,rfl⟩
      · rw [hpart] at hkept
        exact .inl ⟨before,after,by rw [hkept],rfl,rfl⟩
      · subst hpart
        refine .inr ⟨before ++ first,m,second ++ after,by simp,?_,?_⟩
        · simp only [written_append,List.length_append]
          omega
        · simp only [written_append,written_replaced,List.length_append]
          omega
    · have hxpos := List.length_pos_iff.mpr hx
      refine .inr ⟨before ++ middle,m,after,by simp,?_,?_⟩
      · simp only [written_append,List.length_append]
        omega
      · simp only [written_append,List.length_append]
        omega
  · have hxpos := List.length_pos_iff.mpr hx
    have hypos := List.length_pos_iff.mpr hy
    have hlen := congrArg List.length hxy
    rw [List.length_append] at hlen
    refine .inr ⟨before,m,after,rfl,?_,?_⟩
    · simp only [List.length_append]
      omega
    · simp only [List.length_append]
      omega

/-- A part is found when all patterns are through exactly if it escapes them or arises. -/
theorem infix_substituteAll {rs : List (Redaction α)} (hmarks : ∀ r ∈ rs, r.mark ≠ []) :
    part <:+: substituteAll rs s ↔
      (∃ front back, s = front ++ (part ++ back) ∧ Escapes part rs front back) ∨ Arises part rs s := by
  induction rs generalizing s with
  | nil =>
    constructor
    · rintro ⟨front,back,h⟩
      exact .inl ⟨front,back,by rw [← List.append_assoc]; exact h.symm,trivial⟩
    · rintro (⟨front,back,rfl,-⟩ | h)
      · exact ⟨front,back,List.append_assoc _ _ _⟩
      · exact h.elim
  | cons r rs ih =>
    have hlater := ih (s := r.substitute s) fun q hq => hmarks q (List.mem_cons_of_mem r hq)
    refine hlater.trans ?_
    rw [Arises,← or_assoc]
    refine or_congr ?_ Iff.rfl
    constructor
    · rintro ⟨front,back,hout,hrest⟩
      obtain ⟨ps,hps⟩ := r.exists_splits s
      have hwritten := hps.written_eq.trans hout
      rcases written_part (hmarks r List.mem_cons_self) hwritten with
        ⟨before,after,rfl,rfl,rfl⟩ | ⟨before,m,after,rfl,hfront,hback⟩
      · have hs : s = source before ++ (part ++ source after) := by
          rw [← hps.source_eq,source_append,source_append,source_kept]
        exact .inl ⟨_,_,hs,before,after,rfl,rfl,hs ▸ hps,hrest⟩
      · rw [written_append,written_replaced] at hwritten
        exact .inr ⟨before,after,m,front,back,hps,hwritten,hfront,hback,hrest⟩
    · rintro (⟨front,back,rfl,before,after,-,-,hps,hrest⟩ | ⟨before,after,m,front,back,hps,hwritten,-,-,hrest⟩)
      · refine ⟨_,_,?_,hrest⟩
        rw [← hps.written_eq,written_append,written_append,written_kept]
      · exact ⟨front,back,by rw [← hps.written_eq,written_append,written_replaced,hwritten],hrest⟩

end Redaction
end VoxForge.Foundation
