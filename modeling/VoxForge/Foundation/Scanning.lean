import Mathlib.Data.List.Infix
import Mathlib.Data.List.TakeWhile

/-! Patterns that need no backtracking, and texts in which their matches are replaced.
Nothing here names a program: the letters of a text are of any type. -/
namespace VoxForge.Foundation
variable {α : Type}

/-- One letter of a class, or the longest run of its letters if it is long enough. -/
inductive Item (α : Type) where
  | one (accepts : α → Bool)
  | run (least : Nat) (accepts : α → Bool)

namespace Item

/-- What a text must be for the items to match the whole of it. -/
def Matches : List (Item α) → List α → Prop
  | [], m => m = []
  | .one p :: is, m => ∃ c rest, m = c :: rest ∧ p c = true ∧ Matches is rest
  | .run n p :: is, m => ∃ a rest, m = a ++ rest ∧ n ≤ a.length ∧ (∀ c ∈ a, p c = true) ∧ Matches is rest

/-- The match at the beginning of a text, and what follows it. -/
def consume : List (Item α) → List α → Option (List α × List α)
  | [], s => some ([],s)
  | .one _ :: _, [] => none
  | .one p :: is, c :: s => if p c then (consume is s).map fun t => (c :: t.1,t.2) else none
  | .run n p :: is, s =>
    if n ≤ (s.takeWhile p).length then
      (consume is (s.dropWhile p)).map fun t => (s.takeWhile p ++ t.1,t.2)
    else none

/-- A letter with which a match of the items may begin. -/
def Starts : List (Item α) → α → Prop
  | [], _ => False
  | .one p :: _, c => p c = true
  | .run n p :: is, c => p c = true ∨ (n = 0 ∧ Starts is c)

/-- No run can take a letter with which the items after it may begin. -/
def Deterministic : List (Item α) → Prop
  | [] => True
  | .one _ :: is => Deterministic is
  | .run _ p :: is => (∀ c, p c = true → ¬Starts is c) ∧ Deterministic is

variable {is : List (Item α)} {s m rest z : List α} {c : α}

theorem consume_eq (h : consume is s = some (m,rest)) : s = m ++ rest ∧ Matches is m := by
  induction is generalizing s m with
  | nil =>
    cases h
    exact ⟨rfl,rfl⟩
  | cons i is ih =>
    cases i with
    | one p =>
      cases s with
      | nil => cases h
      | cons c s =>
        unfold consume at h
        split_ifs at h with hc
        obtain ⟨⟨m',rest'⟩,hrest,heq⟩ := Option.map_eq_some_iff.mp h
        cases heq
        obtain ⟨rfl,hm⟩ := ih hrest
        exact ⟨rfl,c,m',rfl,hc,hm⟩
    | run n p =>
      unfold consume at h
      split_ifs at h with hn
      obtain ⟨⟨m',rest'⟩,hrest,heq⟩ := Option.map_eq_some_iff.mp h
      cases heq
      obtain ⟨hdrop,hm⟩ := ih hrest
      refine ⟨?_,s.takeWhile p,m',rfl,hn,fun c hc => List.mem_takeWhile_imp hc,hm⟩
      rw [List.append_assoc,← hdrop,List.takeWhile_append_dropWhile]

theorem Matches.starts (h : Matches is (c :: m)) : Starts is c := by
  induction is with
  | nil => cases h
  | cons i is ih =>
    cases i with
    | one p =>
      obtain ⟨d,rest,heq,hd,-⟩ := h
      cases heq
      exact hd
    | run n p =>
      obtain ⟨a,rest,heq,hn,ha,hrest⟩ := h
      cases a with
      | nil =>
        refine .inr ⟨Nat.le_zero.mp hn,?_⟩
        rw [List.nil_append] at heq
        exact ih (heq ▸ hrest)
      | cons d a =>
        cases heq
        exact .inl (ha c List.mem_cons_self)

/-- A last run stops at a letter that it does not take. -/
theorem consume_stops {n : Nat} {p : α → Bool} (h : consume (is ++ [.run n p]) s = some (m,c :: rest)) :
    p c = false := by
  induction is generalizing s m with
  | nil =>
    rw [List.nil_append,consume] at h
    split_ifs at h
    cases h' : s.dropWhile p with
    | nil => simp [consume,h'] at h
    | cons d t =>
      have hd := List.head_dropWhile_not p (l := s) (by simp [h'])
      simp only [consume,h',Option.map_some,Option.some.injEq,Prod.mk.injEq,List.cons.injEq] at h
      simpa [h',h.2.1] using hd
  | cons i is ih =>
    cases i with
    | one p =>
      cases s with
      | nil => cases h
      | cons d s =>
        rw [List.cons_append,consume] at h
        split_ifs at h
        obtain ⟨⟨m',rest'⟩,hrest,heq⟩ := Option.map_eq_some_iff.mp h
        cases heq
        exact ih hrest
    | run n p =>
      rw [List.cons_append,consume] at h
      split_ifs at h
      obtain ⟨⟨m',rest'⟩,hrest,heq⟩ := Option.map_eq_some_iff.mp h
      cases heq
      exact ih hrest

/-- A text that the items match is taken at the beginning of every longer one, or more. -/
theorem consume_of_matches (hd : Deterministic is) (h : Matches is m) (z : List α) :
    ∃ more rest, consume is (m ++ z) = some (m ++ more,rest) := by
  induction is generalizing m z with
  | nil =>
    cases h
    exact ⟨[],z,rfl⟩
  | cons i is ih =>
    cases i with
    | one p =>
      obtain ⟨c,m,rfl,hc,hm⟩ := h
      obtain ⟨more,rest,hrest⟩ := ih hd hm z
      refine ⟨more,rest,?_⟩
      rw [List.cons_append,consume,if_pos hc,hrest]
      rfl
    | run n p =>
      obtain ⟨a,m,rfl,hn,ha,hm⟩ := h
      cases m with
      | nil =>
        -- the run may go on into what follows the match
        obtain ⟨more,rest,hrest⟩ := ih hd.2 hm (z.dropWhile p)
        refine ⟨z.takeWhile p ++ more,rest,?_⟩
        have htake : (a ++ [] ++ z).takeWhile p = a ++ z.takeWhile p := by
          rw [List.append_nil,List.takeWhile_append_of_pos ha]
        have hdrop : (a ++ [] ++ z).dropWhile p = z.dropWhile p := by
          rw [List.append_nil,List.dropWhile_append_of_pos ha]
        have hlen : n ≤ (a ++ z.takeWhile p).length := by
          rw [List.length_append]
          exact Nat.le_add_right_of_le hn
        rw [List.nil_append] at hrest
        rw [consume,htake,hdrop,if_pos hlen,hrest]
        simp
      | cons c m =>
        have hstop : p c = false := Bool.eq_false_iff.mpr fun hc => hd.1 c hc hm.starts
        obtain ⟨more,rest,hrest⟩ := ih hd.2 hm z
        refine ⟨more,rest,?_⟩
        have htake : (a ++ c :: m ++ z).takeWhile p = a := by
          rw [List.append_assoc,List.takeWhile_append_of_pos ha]
          simp [hstop]
        have hdrop : (a ++ c :: m ++ z).dropWhile p = c :: m ++ z := by
          rw [List.append_assoc,List.dropWhile_append_of_pos ha]
          simp [hstop]
        rw [consume,htake,hdrop,if_pos hn,hrest]
        simp

def accepts : Item α → α → Bool
  | .one p => p
  | .run _ p => p

theorem Matches.accepted (h : Matches is m) (hc : c ∈ m) : ∃ i ∈ is, i.accepts c = true := by
  induction is generalizing m with
  | nil =>
    cases h
    cases hc
  | cons i is ih =>
    have hlater {m : List α} (h : Matches is m) (hc : c ∈ m) : ∃ j ∈ i :: is, j.accepts c = true := by
      obtain ⟨j,hj,hacc⟩ := ih h hc
      exact ⟨j,List.mem_cons_of_mem i hj,hacc⟩
    cases i with
    | one p =>
      obtain ⟨d,m,rfl,hd,hm⟩ := h
      rcases List.mem_cons.mp hc with rfl | hc
      · exact ⟨.one p,List.mem_cons_self,hd⟩
      · exact hlater hm hc
    | run n p =>
      obtain ⟨a,m,rfl,-,ha,hm⟩ := h
      rcases List.mem_append.mp hc with hc | hc
      · exact ⟨.run n p,List.mem_cons_self,ha c hc⟩
      · exact hlater hm hc

theorem Matches.append {js : List (Item α)} {t : List α} (h : Matches is m) (ht : Matches js t) :
    Matches (is ++ js) (m ++ t) := by
  induction is generalizing m with
  | nil =>
    cases h
    exact ht
  | cons i is ih =>
    cases i with
    | one p =>
      obtain ⟨c,m,rfl,hc,hm⟩ := h
      exact ⟨c,m ++ t,rfl,hc,ih hm⟩
    | run n p =>
      obtain ⟨a,m,rfl,hn,ha,hm⟩ := h
      exact ⟨a,m ++ t,List.append_assoc a m t,hn,ha,ih hm⟩

theorem matches_append {js : List (Item α)} (h : Matches (is ++ js) m) :
    ∃ front back, m = front ++ back ∧ Matches is front ∧ Matches js back := by
  induction is generalizing m with
  | nil => exact ⟨[],m,rfl,rfl,h⟩
  | cons i is ih =>
    cases i with
    | one p =>
      obtain ⟨c,m,rfl,hc,hm⟩ := h
      obtain ⟨front,back,rfl,hf,hb⟩ := ih hm
      exact ⟨c :: front,back,rfl,⟨c,front,rfl,hc,hf⟩,hb⟩
    | run n p =>
      obtain ⟨a,m,rfl,hn,ha,hm⟩ := h
      obtain ⟨front,back,rfl,hf,hb⟩ := ih hm
      exact ⟨a ++ front,back,(List.append_assoc a front back).symm,⟨a,front,rfl,hn,ha,hf⟩,hb⟩

/-- A match ends with a letter of its last item, unless that may be empty. -/
theorem Matches.last {i : Item α} (h : Matches (is ++ [i]) (m ++ [c])) (hi : ¬Matches [i] []) :
    i.accepts c = true := by
  obtain ⟨front,back,heq,-,hb⟩ := matches_append h
  rcases List.eq_nil_or_concat back with rfl | ⟨back,d,rfl⟩
  · exact absurd hb hi
  · rw [List.concat_eq_append,← List.append_assoc] at heq
    obtain rfl : c = d := List.singleton_inj.mp (List.append_inj_right' heq rfl)
    have hin : c ∈ back.concat c := by simp
    obtain ⟨j,hj,hacc⟩ := hb.accepted hin
    exact List.mem_singleton.mp hj ▸ hacc

/-- Letters at the end of a match that only its last run can have taken may be exchanged. -/
theorem Matches.exchange {i : Item α} {n : Nat} {p : α → Bool} {x e e' : List α}
    (h : Matches (is ++ [i,.run n p]) (x ++ e)) (hi : ¬Matches [i] []) (he : ∀ c ∈ e, i.accepts c = false)
    (hlen : e'.length = e.length) (he' : ∀ c ∈ e', p c = true) : Matches (is ++ [i,.run n p]) (x ++ e') := by
  rw [← List.singleton_append,← List.append_assoc] at h ⊢
  obtain ⟨front,a,heq,hfront,a',back,rfl,hn,ha,rfl⟩ := matches_append h
  rw [List.append_nil] at heq
  have hrun (t : List α) (ht : n ≤ t.length) (hp : ∀ c ∈ t, p c = true) : Matches [.run n p] t :=
    ⟨t,[],(List.append_nil t).symm,ht,hp,rfl⟩
  rcases List.append_eq_append_iff.mp heq with ⟨y,rfl,rfl⟩ | ⟨y,rfl,rfl⟩
  · -- the front would end in one of the letters
    rcases List.eq_nil_or_concat y with rfl | ⟨y,c,rfl⟩
    · rw [List.append_nil] at hfront
      exact hfront.append (hrun e' (hlen ▸ hn) he')
    · rw [List.concat_eq_append,← List.append_assoc] at hfront
      have hacc := hfront.last hi
      rw [he c (by simp)] at hacc
      cases hacc
  · rw [List.append_assoc front y e']
    refine hfront.append (hrun _ ?_ fun c hc => ?_)
    · rw [List.length_append,hlen,← List.length_append]
      exact hn
    · rcases List.mem_append.mp hc with hc | hc
      · exact ha c (List.mem_append_left e hc)
      · exact he' c hc

/-- A word, letter by letter, takes just itself. -/
theorem consume_word {w : List (α → Bool)} (h : Matches (w.map .one) m) (z : List α) :
    consume (w.map .one) (m ++ z) = some (m,z) := by
  induction w generalizing m with
  | nil =>
    cases h
    rfl
  | cons p w ih =>
    obtain ⟨c,m,rfl,hc,hm⟩ := h
    rw [List.map_cons,List.cons_append,consume,if_pos hc,ih hm]
    rfl

theorem deterministic_word {w : List (α → Bool)} (h : Deterministic is) :
    Deterministic (w.map .one ++ is) := by
  induction w with
  | nil => exact h
  | cons p w ih => exact ih

theorem deterministic_last {n : Nat} {p : α → Bool} : Deterministic [.run n p] :=
  ⟨fun _ _ h => h,trivial⟩

end Item

/-- Replaces a match by what its word took of the text, followed by a mark. -/
structure Redaction (α : Type) where
  words : List (List (α → Bool))
  body : List (Item α)
  mark : List α
  deterministic : Item.Deterministic body
  progress : ¬Item.Matches body []

namespace Redaction
section substitution
variable (r : Redaction α)

/-- What replaces the match at the beginning of a text, and what follows the match. -/
def rule (s : List α) : Option (List α × List α) :=
  r.words.findSome? fun w => (Item.consume (w.map .one) s).bind fun t =>
    (Item.consume r.body t.2).map fun u => (t.1 ++ r.mark,u.2)

def substituteWithin : Nat → List α → List α
  | 0, s => s
  | _ + 1, [] => []
  | n + 1, c :: s =>
    match r.rule (c :: s) with
    | none => c :: substituteWithin n s
    | some (out,rest) => out ++ substituteWithin n rest

/-- The text with its matches replaced, from left to right. -/
def substitute (s : List α) : List α := r.substituteWithin s.length s

/-- Nothing in the text matches. -/
def Free (s : List α) : Prop := ∀ u, u <:+ s → r.rule u = none

/-- Every match in the text is replaced by itself. -/
def Stable (s : List α) : Prop := ∀ u out rest, u <:+ s → r.rule u = some (out,rest) → u = out ++ rest

variable {r} {s u m rest out kept : List α}

theorem rule_eq (h : r.rule s = some (out,rest)) :
    ∃ w ∈ r.words, ∃ kept m, s = kept ++ (m ++ rest) ∧ Item.Matches (w.map .one) kept ∧
      Item.Matches r.body m ∧ Item.consume r.body (m ++ rest) = some (m,rest) ∧ out = kept ++ r.mark := by
  obtain ⟨w,hw,h⟩ := List.exists_of_findSome?_eq_some h
  obtain ⟨⟨kept,t⟩,hkept,h⟩ := Option.bind_eq_some_iff.mp h
  obtain ⟨⟨m,rest'⟩,hm,heq⟩ := Option.map_eq_some_iff.mp h
  cases heq
  obtain ⟨rfl,hword⟩ := Item.consume_eq hkept
  obtain ⟨rfl,hbody⟩ := Item.consume_eq hm
  exact ⟨w,hw,kept,m,rfl,hword,hbody,hm,rfl⟩

theorem rule_isSome {w : List (α → Bool)} (hw : w ∈ r.words) (hkept : Item.Matches (w.map .one) kept)
    (hm : Item.Matches r.body m) (z : List α) : (r.rule (kept ++ (m ++ z))).isSome := by
  obtain ⟨more,rest,hrest⟩ := Item.consume_of_matches r.deterministic hm z
  refine List.findSome?_isSome_iff.mpr ⟨w,hw,?_⟩
  rw [Item.consume_word hkept,Option.bind_some,hrest]
  rfl

theorem rule_shrinks (h : r.rule s = some (out,rest)) : rest.length < s.length := by
  obtain ⟨w,-,kept,m,rfl,-,hm,-⟩ := rule_eq h
  have hne : m ≠ [] := fun heq => r.progress (heq ▸ hm)
  have hpos := List.length_pos_iff.mpr hne
  simp only [List.length_append]
  omega

theorem rule_nil : r.rule [] = none := by
  cases h : r.rule [] with
  | none => rfl
  | some t => exact absurd (rule_shrinks h) (Nat.not_lt_zero _)

theorem substituteWithin_eq {n : Nat} (h : s.length ≤ n) : r.substituteWithin n s = r.substitute s := by
  induction hk : s.length using Nat.strong_induction_on generalizing s n with
  | _ k ih =>
    subst hk
    cases s with
    | nil => cases n <;> rfl
    | cons c s =>
      obtain ⟨n,rfl⟩ := Nat.exists_eq_add_one_of_ne_zero (Nat.ne_of_gt (Nat.lt_of_lt_of_le (Nat.succ_pos _) h))
      have hlen : s.length ≤ n := Nat.le_of_succ_le_succ h
      unfold substitute
      rw [List.length_cons,substituteWithin,substituteWithin]
      cases hrule : r.rule (c :: s) with
      | none =>
        dsimp only
        rw [ih _ (Nat.lt_succ_self _) hlen rfl,ih _ (Nat.lt_succ_self _) (Nat.le_refl _) rfl]
      | some t =>
        have hrest := rule_shrinks hrule
        have hle : t.2.length ≤ s.length := Nat.le_of_lt_succ hrest
        dsimp only
        rw [ih _ hrest (hle.trans hlen) rfl,ih _ hrest hle rfl]

theorem substitute_none {c : α} (h : r.rule (c :: s) = none) :
    r.substitute (c :: s) = c :: r.substitute s := by
  unfold substitute
  rw [List.length_cons,substituteWithin,h]

theorem substitute_some (h : r.rule s = some (out,rest)) : r.substitute s = out ++ r.substitute rest := by
  cases s with
  | nil => rw [rule_nil] at h; cases h
  | cons c s =>
    have hle : rest.length ≤ s.length := Nat.le_of_lt_succ (rule_shrinks h)
    unfold substitute
    rw [List.length_cons,substituteWithin,h]
    exact congrArg (out ++ ·) (substituteWithin_eq hle)

/-- Induction along a substitution, letter by letter and match by match. -/
theorem substitute_induction {P : List α → Prop} (nil : P [])
    (kept : ∀ c s, r.rule (c :: s) = none → P s → P (c :: s))
    (replaced : ∀ s out rest, r.rule s = some (out,rest) → P rest → P s) (s : List α) : P s := by
  induction hk : s.length using Nat.strong_induction_on generalizing s with
  | _ k ih =>
    subst hk
    cases s with
    | nil => exact nil
    | cons c s =>
      cases h : r.rule (c :: s) with
      | none => exact kept c s h (ih _ (Nat.lt_succ_self _) s rfl)
      | some t => exact replaced (c :: s) t.1 t.2 h (ih _ (rule_shrinks h) t.2 rfl)

/-- A text whose matches are replaced by themselves stays as it is. -/
theorem substitute_of_stable (h : r.Stable s) : r.substitute s = s := by
  induction s using r.substitute_induction with
  | nil => rfl
  | kept c s hrule ih =>
    rw [substitute_none hrule,ih fun u out rest hu => h u out rest (hu.trans (List.suffix_cons c s))]
  | replaced s out rest hrule ih =>
    have hs : s = out ++ rest := h s out rest List.suffix_rfl hrule
    have hrest : rest <:+ s := hs ▸ List.suffix_append out rest
    rw [substitute_some hrule,ih fun u out' rest' hu => h u out' rest' (hu.trans hrest),← hs]

theorem Free.stable (h : r.Free s) : r.Stable s := by
  intro u out rest hu hrule
  rw [h u hu] at hrule
  cases hrule

/-- The beginning of a substitution is that of the text, up to the first match. -/
theorem substitute_begin (s : List α) :
    r.substitute s = s ∨ ∃ p kept m rest, s = p ++ (kept ++ m) ∧
      r.rule (kept ++ m) = some (kept ++ r.mark,rest) ∧
      r.substitute s = p ++ (kept ++ (r.mark ++ r.substitute rest)) := by
  induction s using r.substitute_induction with
  | nil => exact .inl rfl
  | kept c s hrule ih =>
    rw [substitute_none hrule]
    rcases ih with hs | ⟨p,kept,m,rest,rfl,hmatch,hs⟩
    · exact .inl (congrArg (c :: ·) hs)
    · exact .inr ⟨c :: p,kept,m,rest,rfl,hmatch,congrArg (c :: ·) hs⟩
  | replaced s out rest hrule _ =>
    rw [substitute_some hrule]
    obtain ⟨w,-,kept,m,rfl,-,-,-,rfl⟩ := rule_eq hrule
    exact .inr ⟨[],kept,m ++ rest,rest,rfl,hrule,by simp⟩

private theorem suffix_append_cases {a b : List α} (h : u <:+ a ++ b) : u <:+ b ∨ ∃ x, x <:+ a ∧ u = x ++ b := by
  obtain ⟨t,ht⟩ := h
  rcases List.append_eq_append_iff.mp ht with ⟨x,rfl,rfl⟩ | ⟨x,rfl,rfl⟩
  · exact .inr ⟨x,List.suffix_append t x,rfl⟩
  · exact .inl (List.suffix_append x u)

/-- Where a suffix of a substitution begins: in what the text has, before a mark, or in one. -/
inductive Cut (r : Redaction α) (s u : List α) : Prop
  | untouched (hs : u <:+ s) (hnone : r.rule u = none)
  | before {x kept m rest : List α} (hs : x ++ m <:+ s) (hmatch : r.rule (kept ++ m) = some (kept ++ r.mark,rest))
      (hx : (kept <:+ x ∧ r.rule (x ++ m) = none) ∨ x <:+ kept) (hu : u = x ++ (r.mark ++ r.substitute rest))
  | within {o z : List α} (ho : o <:+ r.mark) (hne : o ≠ []) (hu : u = o ++ z)

theorem Cut.of_suffix {t : List α} (ht : t <:+ s) (h : Cut r t u) : Cut r s u := by
  cases h with
  | untouched hs hnone => exact .untouched (hs.trans ht) hnone
  | before hs hmatch hx hu => exact .before (hs.trans ht) hmatch hx hu
  | within ho hne hu => exact .within ho hne hu

theorem suffix_substitute (h : u <:+ r.substitute s) (hne : u ≠ []) : Cut r s u := by
  induction s using r.substitute_induction generalizing u with
  | nil => exact absurd (List.suffix_nil.mp h) hne
  | kept c s hrule ih =>
    rw [substitute_none hrule] at h
    rcases List.suffix_cons_iff.mp h with rfl | h
    · rcases r.substitute_begin s with hs | ⟨p,kept,m,rest,rfl,hmatch,hs⟩
      · rw [hs]
        exact .untouched List.suffix_rfl hrule
      · rw [hs]
        have hword : kept <:+ c :: (p ++ kept) := (List.suffix_append p kept).trans (List.suffix_cons c _)
        exact .before (x := c :: (p ++ kept)) (m := m) (by simp) hmatch
          (.inl ⟨hword,by simpa using hrule⟩) (by simp)
    · exact (ih h hne).of_suffix (List.suffix_cons c s)
  | replaced s out rest hrule ih =>
    rw [substitute_some hrule] at h
    obtain ⟨w,-,kept,m,rfl,-,-,-,rfl⟩ := rule_eq hrule
    have hrest : rest <:+ kept ++ (m ++ rest) := ⟨kept ++ m,by simp⟩
    rw [List.append_assoc] at h
    rcases suffix_append_cases h with h | ⟨x,hx,rfl⟩
    · rcases suffix_append_cases h with h | ⟨o,ho,rfl⟩
      · exact (ih h hne).of_suffix hrest
      · by_cases ho' : o = []
        · rw [ho',List.nil_append] at hne ⊢
          exact (ih List.suffix_rfl hne).of_suffix hrest
        · exact .within ho ho' rfl
    · obtain ⟨front,rfl⟩ := hx
      exact .before (x := x) (m := m ++ rest) ⟨front,by simp⟩ hrule (.inr (List.suffix_append front x)) rfl

/-- No part of a match is this letter. -/
def Avoids (q : Redaction α) (b : α) : Prop :=
  (∀ w ∈ q.words, ∀ p ∈ w, p b = false) ∧ ∀ i ∈ q.body, i.accepts b = false

instance (q : Redaction α) (b : α) : Decidable (q.Avoids b) := inferInstanceAs (Decidable (_ ∧ _))

variable {q : Redaction α} {x z : List α} {b : α}

theorem Avoids.notMem (h : q.Avoids b) {w : List (α → Bool)} (hw : w ∈ q.words)
    (hkept : Item.Matches (w.map .one) kept) (hm : Item.Matches q.body m) : b ∉ kept ++ m := by
  intro hb
  rcases List.mem_append.mp hb with hb | hb
  · obtain ⟨i,hi,hacc⟩ := hkept.accepted hb
    obtain ⟨p,hp,rfl⟩ := List.mem_map.mp hi
    exact absurd hacc (Bool.eq_false_iff.mp (h.1 w hw p hp))
  · obtain ⟨i,hi,hacc⟩ := hm.accepted hb
    exact absurd hacc (Bool.eq_false_iff.mp (h.2 i hi))

theorem prefix_before {y : List α} (h : y ++ rest = x ++ b :: z) (hb : b ∉ y) : y <+: x := by
  rcases List.append_eq_append_iff.mp h with ⟨t,rfl,-⟩ | ⟨t,rfl,ht⟩
  · exact List.prefix_append y t
  · cases t with
    | nil => simp
    | cons c t =>
      obtain rfl := (List.cons.inj ht).1
      exact absurd (List.mem_append_right x List.mem_cons_self) hb

/-- A match ends before a letter that it avoids, so it is one whatever comes there. -/
theorem rule_none_before (h : q.Avoids b) (hm : q.rule (x ++ m) = none) : q.rule (x ++ b :: z) = none := by
  cases hrule : q.rule (x ++ b :: z) with
  | none => rfl
  | some t =>
    obtain ⟨w,hw,kept,m',hs,hkept,hm',-⟩ := rule_eq hrule
    rw [← List.append_assoc] at hs
    obtain ⟨y,rfl⟩ := prefix_before hs.symm (h.notMem hw hkept hm')
    have hsome := rule_isSome hw hkept hm' (y ++ m)
    rw [← List.append_assoc,← List.append_assoc,hm] at hsome
    cases hsome

/-- A substitution brings about no match of a pattern that neither begins in its marks nor
reaches into them. -/
theorem free_substitute (hne : r.mark ≠ []) (hkept : ∀ u, u <:+ s → r.rule u = none → q.rule u = none)
    (hword : ∀ x kept m rest, x ++ m <:+ s → r.rule (kept ++ m) = some (kept ++ r.mark,rest) →
      x <:+ kept → x ≠ [] → q.rule (x ++ m) = none)
    (hmark : ∀ o z, o <:+ r.mark → o ≠ [] → q.rule (o ++ z) = none)
    (hbefore : ∀ x kept m rest z, r.rule (kept ++ m) = some (kept ++ r.mark,rest) →
      q.rule (x ++ m) = none → (kept <:+ x ∨ x <:+ kept) → x ≠ [] → q.rule (x ++ (r.mark ++ z)) = none) :
    q.Free (r.substitute s) := by
  intro u hu
  by_cases hempty : u = []
  · rw [hempty,rule_nil]
  cases suffix_substitute hu hempty with
  | untouched hs hnone => exact hkept u hs hnone
  | within ho hoe hu => exact hu ▸ hmark _ _ ho hoe
  | @before x kept m rest hs hmatch hx hu =>
    rw [hu]
    by_cases hxe : x = []
    · rw [hxe]
      exact hmark r.mark _ List.suffix_rfl hne
    · rcases hx with ⟨hx,hnone⟩ | hx
      · exact hbefore x kept m rest _ hmatch (hkept _ hs hnone) (.inl hx) hxe
      · exact hbefore x kept m rest _ hmatch (hword x kept m rest hs hmatch hx hxe) (.inr hx) hxe

theorem Free.substitute {tail : List α} (h : q.Free s) (hmark : r.mark = b :: tail) (ha : q.Avoids b)
    (hclean : ∀ o z, o <:+ r.mark → o ≠ [] → q.rule (o ++ z) = none) : q.Free (r.substitute s) := by
  refine free_substitute (by simp [hmark]) (fun u hu _ => h u hu) (fun x kept m rest hs _ _ _ => h _ hs) hclean ?_
  intro x kept m _ z _ hnone _ _
  rw [hmark]
  exact rule_none_before ha hnone

/-- The word of a match without words is empty. -/
theorem kept_nil (hwords : r.words = [[]]) (h : r.rule s = some (kept ++ r.mark,rest)) : kept = [] := by
  obtain ⟨w,hw,kept',m,-,hkept,-,-,hout⟩ := rule_eq h
  rw [hwords,List.mem_singleton] at hw
  subst hw
  rw [List.append_cancel_right hout]
  exact hkept

/-- No match of a pattern without words is left where its matches have been replaced. -/
theorem free_substitute_self {tail : List α} (hwords : r.words = [[]]) (hmark : r.mark = b :: tail)
    (ha : r.Avoids b) (hclean : ∀ o z, o <:+ r.mark → o ≠ [] → r.rule (o ++ z) = none) :
    r.Free (r.substitute s) := by
  refine free_substitute (by simp [hmark]) (fun u _ h => h) ?_ hclean ?_
  · intro x kept m rest _ hmatch hx hne
    rw [kept_nil hwords hmatch] at hx
    exact absurd (List.suffix_nil.mp hx) hne
  · intro x kept m _ z _ hnone _ _
    rw [hmark]
    exact rule_none_before ha hnone

/-- A name between two letters that a pattern avoids, with no match inside, starts no match. -/
theorem rule_none_of_mark {front name mark o : List α} {left right : α}
    (hmark : mark = front ++ left :: (name ++ [right])) (hl : q.Avoids left) (hr : q.Avoids right)
    (hfront : q.Free front) (hname : q.Free name) (ho : o <:+ mark) (hne : o ≠ []) (z : List α) :
    q.rule (o ++ z) = none := by
  subst hmark
  rcases suffix_append_cases ho with ho | ⟨x,hx,rfl⟩
  · rcases List.suffix_cons_iff.mp ho with rfl | ho
    · exact rule_none_before (x := []) (m := []) hl rule_nil
    · rcases suffix_append_cases ho with ho | ⟨x,hx,rfl⟩
      · obtain rfl : o = [right] := (List.suffix_cons_iff.mp ho).resolve_right
          fun h => hne (List.suffix_nil.mp h)
        exact rule_none_before (x := []) (m := []) hr rule_nil
      · rw [List.append_assoc]
        exact rule_none_before (m := []) hr (by rw [List.append_nil]; exact hname x hx)
  · rw [List.append_assoc]
    exact rule_none_before (m := []) hl (by rw [List.append_nil]; exact hfront x hx)

instance (q : Redaction α) (s : List α) : Decidable (q.Free s) :=
  decidable_of_iff (∀ u ∈ s.tails, (q.rule u).isNone = true)
    ⟨fun h u hu => Option.isNone_iff_eq_none.mp (h u ((List.mem_tails u s).mpr hu)),
      fun h u hu => Option.isNone_iff_eq_none.mpr (h u ((List.mem_tails u s).mp hu))⟩

theorem Free.within (h : q.Free s) (hx : x <:+: s) : q.Free x := by
  intro u hu
  cases hrule : q.rule u with
  | none => rfl
  | some t =>
    obtain ⟨w,hw,kept,m,rfl,hkept,hm,-⟩ := rule_eq hrule
    obtain ⟨front,back,rfl⟩ := hx
    obtain ⟨before,rfl⟩ := hu
    have hsome := rule_isSome hw hkept hm (t.2 ++ back)
    have hin : kept ++ (m ++ (t.2 ++ back)) <:+ front ++ (before ++ (kept ++ (m ++ t.2))) ++ back :=
      ⟨front ++ before,by simp⟩
    rw [h _ hin] at hsome
    cases hsome

end substitution
end Redaction
end VoxForge.Foundation
