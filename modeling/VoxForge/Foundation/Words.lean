import Mathlib.Data.List.DropRight

/-! The words of a list, which its separators keep apart. -/
namespace VoxForge.Foundation
variable {α : Type} (p : α → Bool)

/-- The longest runs without a separator, but for the empty ones. -/
def words (l : List α) : List (List α) := (l.splitOnP p).filter (!·.isEmpty)

/-- A new word begins behind the list. -/
def Separated (l : List α) : Prop := ∀ x ∈ l.getLast?, p x = true

variable {p} {s x : α} {l front back : List α}

@[simp] theorem words_nil : words p [] = [] := rfl

theorem words_append_cons (hs : p s = true) : words p (front ++ s :: back) = words p front ++ words p back := by
  unfold words
  rw [List.splitOnP_append_cons front back hs,List.filter_append]

theorem words_cons (hs : p s = true) : words p (s :: l) = words p l :=
  @words_append_cons α p s [] l hs

theorem words_concat (hs : p s = true) : words p (l ++ [s]) = words p l :=
  (words_append_cons hs).trans (List.append_nil _)

/-- Text without a separator is one word. -/
theorem words_solid (hne : l ≠ []) (h : ∀ x ∈ l, p x = false) : words p l = [l] := by
  unfold words
  rw [List.splitOnP_eq_singleton h]
  simp [hne]

theorem separated_nil : Separated p [] := nofun

theorem separated_concat (hs : p s = true) : Separated p (l ++ [s]) := by
  intro x hx
  rw [List.getLast?_concat] at hx
  exact Option.some.inj hx ▸ hs

theorem words_append (h : Separated p front) : words p (front ++ back) = words p front ++ words p back := by
  induction front using List.reverseRecOn with
  | nil => rfl
  | append_singleton front s _ =>
    have hs : p s = true := h s (by simp)
    rw [words_concat hs,List.append_assoc,List.singleton_append,words_append_cons hs]

theorem words_append_solid (h : Separated p front) (hne : back ≠ []) (hsolid : ∀ x ∈ back, p x = false) :
    words p (front ++ back) = words p front ++ [back] := by
  rw [words_append h,words_solid hne hsolid]

theorem words_dropWhile (l : List α) : words p (l.dropWhile p) = words p l := by
  induction l with
  | nil => rfl
  | cons x l ih =>
    rw [List.dropWhile_cons]
    split
    · next hx => rw [ih,words_cons hx]
    · rfl

theorem words_rdropWhile (l : List α) : words p (l.rdropWhile p) = words p l := by
  induction l using List.reverseRecOn with
  | nil => rfl
  | append_singleton l x ih =>
    by_cases hx : p x = true
    · rw [List.rdropWhile_concat_pos p l x hx,ih,words_concat hx]
    · rw [List.rdropWhile_concat_neg p l x hx]

/-- A list is one run without a separator, or such a run with a separator and a list behind it. -/
theorem runs_induction {motive : List α → Prop} (solid : ∀ run, (∀ x ∈ run, p x = false) → motive run)
    (more : ∀ run s rest, (∀ x ∈ run, p x = false) → p s = true → motive rest → motive (run ++ s :: rest))
    (l : List α) : motive l := by
  suffices h : ∀ run, (∀ x ∈ run, p x = false) → motive (run ++ l) from h [] nofun
  induction l with
  | nil =>
    intro run hrun
    rw [List.append_nil]
    exact solid run hrun
  | cons s rest ih =>
    intro run hrun
    by_cases hs : p s = true
    · exact more run s rest hrun hs (ih [] nofun)
    · have hlonger : ∀ x ∈ run ++ [s], p x = false := by
        intro x hx
        rcases List.mem_append.mp hx with hin | hlast
        · exact hrun x hin
        · rw [List.mem_singleton.mp hlast]
          exact Bool.eq_false_iff.mpr hs
      rw [← List.singleton_append,← List.append_assoc]
      exact ih _ hlonger

theorem words_run {run : List α} (h : ∀ x ∈ run, p x = false) : words p run = [run].filter (!·.isEmpty) := by
  unfold words
  rw [List.splitOnP_eq_singleton h]

theorem mem_words {w : List α} (h : w ∈ words p l) : w ≠ [] ∧ ∀ x ∈ w, p x = false := by
  have hrun {run : List α} (hsolid : ∀ x ∈ run, p x = false) (hw : w ∈ words p run) :
      w ≠ [] ∧ ∀ x ∈ w, p x = false := by
    rw [words_run hsolid] at hw
    obtain ⟨hone,hne⟩ := List.mem_filter.mp hw
    obtain rfl := List.mem_singleton.mp hone
    exact ⟨by simpa using hne,hsolid⟩
  induction l using runs_induction (p := p) with
  | solid run hsolid => exact hrun hsolid h
  | more run s rest hsolid hs ih =>
    rw [words_append_cons hs] at h
    rcases List.mem_append.mp h with hfirst | hrest
    · exact hrun hsolid hfirst
    · exact ih hrest

/-- Words that are each followed by a separator. -/
theorem words_flatMap {ws : List (List α)} (hs : p s = true)
    (hws : ∀ w ∈ ws, w ≠ [] ∧ ∀ x ∈ w, p x = false) : words p (ws.flatMap (· ++ [s])) = ws := by
  induction ws with
  | nil => rfl
  | cons w ws ih =>
    obtain ⟨hne,hsolid⟩ := hws w (List.mem_cons_self ..)
    have hrest := ih fun v hv => hws v (List.mem_cons_of_mem _ hv)
    rw [List.flatMap_cons,List.append_assoc,List.singleton_append,words_append_cons hs,words_solid hne hsolid,hrest]
    rfl

/-! Words within a list -/

/-- A word ends before the list. -/
def Separates (p : α → Bool) (l : List α) : Prop := ∀ x ∈ l.head?, p x = true

theorem separates_nil : Separates p [] := by
  intro x hx
  cases hx

theorem separates_cons (hs : p s = true) : Separates p (s :: l) := by
  intro x hx
  exact Option.some.inj hx ▸ hs

theorem separated_append_cons (hs : p s = true) (h : Separated p back) : Separated p (front ++ s :: back) := by
  induction back using List.reverseRecOn with
  | nil => exact separated_concat hs
  | append_singleton back x _ =>
    have hx : p x = true := h x (by simp)
    have hlast : front ++ s :: (back ++ [x]) = (front ++ s :: back) ++ [x] := by simp
    rw [hlast]
    exact separated_concat hx

theorem words_append_left (h : Separates p back) : words p (front ++ back) = words p front ++ words p back := by
  cases back with
  | nil => simp
  | cons s back =>
    have hs : p s = true := h s rfl
    rw [words_append_cons hs,words_cons hs]

theorem words_surrounded {w : List α} (hf : Separated p front) (hb : Separates p back) (hne : w ≠ [])
    (hsolid : ∀ x ∈ w, p x = false) : words p (front ++ w ++ back) = words p front ++ w :: words p back := by
  rw [words_append_left hb,words_append_solid hf hne hsolid,List.append_assoc]
  rfl

theorem separated_rdropWhile (l : List α) : Separated p (l.rdropWhile (!p ·)) := by
  intro x hx
  have hne : l.rdropWhile (!p ·) ≠ [] := by
    intro hnil
    rw [hnil] at hx
    cases hx
  have hlast := List.rdropWhile_last_not (!p ·) l hne
  rw [List.getLast?_eq_some_getLast hne] at hx
  obtain rfl := Option.some.inj hx
  simpa using hlast

theorem separates_dropWhile (l : List α) : Separates p (l.dropWhile (!p ·)) := by
  intro x hx
  have hhead := List.head?_dropWhile_not (!p ·) l
  rw [hx] at hhead
  simpa using hhead

/-- The word of a piece reaches back and on to the next separators. -/
theorem words_around {piece : List α} (hne : piece ≠ []) (hsolid : ∀ x ∈ piece, p x = false) :
    words p (front ++ piece ++ back) = words p (front.rdropWhile (!p ·)) ++
      (front.rtakeWhile (!p ·) ++ piece ++ back.takeWhile (!p ·)) :: words p (back.dropWhile (!p ·)) := by
  have hsplit : front ++ piece ++ back = front.rdropWhile (!p ·) ++
      (front.rtakeWhile (!p ·) ++ piece ++ back.takeWhile (!p ·)) ++ back.dropWhile (!p ·) := by
    conv_lhs => rw [← List.rdropWhile_append_rtakeWhile (p := (!p ·)) (l := front),
      ← List.takeWhile_append_dropWhile (p := (!p ·)) (l := back)]
    simp only [List.append_assoc]
  rw [hsplit]
  refine words_surrounded (separated_rdropWhile front) (separates_dropWhile back) (by simp [hne]) ?_
  intro x hx
  rw [List.append_assoc,List.mem_append,List.mem_append] at hx
  rcases hx with hbefore | hin | hbehind
  · simpa using List.mem_rtakeWhile_imp hbefore
  · exact hsolid x hin
  · simpa using List.mem_takeWhile_imp hbehind

/-- Between two lists that no separator keeps apart there is a word. -/
theorem word_across (hfront : ¬Separated p front) (hback : ¬Separates p back) :
    ∃ before w v behind, front = before ++ w ∧ back = v ++ behind ∧ w ≠ [] ∧ v ≠ [] ∧
      Separated p before ∧ Separates p behind ∧ ∀ x ∈ w ++ v, p x = false := by
  have hends := List.rdropWhile_append_rtakeWhile (p := (!p ·)) (l := front)
  have hbegins := List.takeWhile_append_dropWhile (p := (!p ·)) (l := back)
  refine ⟨_,_,_,_,hends.symm,hbegins.symm,?_,?_,separated_rdropWhile front,separates_dropWhile back,?_⟩
  · intro hnil
    rw [hnil,List.append_nil] at hends
    exact hfront (hends ▸ separated_rdropWhile front)
  · intro hnil
    rw [hnil,List.nil_append] at hbegins
    exact hback (hbegins ▸ separates_dropWhile back)
  · intro x hx
    rcases List.mem_append.mp hx with hw | hv
    · simpa using List.mem_rtakeWhile_imp hw
    · simpa using List.mem_takeWhile_imp hv

/-- Where a word stands. -/
theorem surrounded_of_mem {w : List α} (h : w ∈ words p l) :
    ∃ front back, l = front ++ w ++ back ∧ Separated p front ∧ Separates p back := by
  induction l using runs_induction (p := p) with
  | solid run hsolid =>
    rw [words_run hsolid] at h
    obtain rfl := List.mem_singleton.mp (List.mem_filter.mp h).1
    exact ⟨[],[],by simp,separated_nil,separates_nil⟩
  | more run s rest hsolid hs ih =>
    rw [words_append_cons hs] at h
    rcases List.mem_append.mp h with hfirst | hrest
    · rw [words_run hsolid] at hfirst
      obtain rfl := List.mem_singleton.mp (List.mem_filter.mp hfirst).1
      exact ⟨[],s :: rest,by simp,separated_nil,separates_cons hs⟩
    · obtain ⟨front,back,rfl,hfront,hback⟩ := ih hrest
      exact ⟨run ++ s :: front,back,by simp,separated_append_cons hs hfront,hback⟩

theorem mem_words_infix {w part : List α} (h : w ∈ words p part) (hpart : part <:+: l) :
    ∃ whole ∈ words p l, w <:+: whole := by
  obtain ⟨before,behind,rfl⟩ := hpart
  obtain ⟨front,back,rfl,-,-⟩ := surrounded_of_mem h
  obtain ⟨hne,hsolid⟩ := mem_words h
  have hwords : words p (before ++ front ++ w ++ (back ++ behind)) = _ := words_around hne hsolid
  simp only [List.append_assoc] at hwords ⊢
  rw [hwords]
  exact ⟨_,List.mem_append_right _ (List.mem_cons_self ..),_,_,List.append_assoc ..⟩

/-! Runs of separators -/

/-- Each run of separators becomes one element, but for a run that has begun before the list. -/
def replaceRuns (p : α → Bool) (r : α) : Bool → List α → List α
  | _,[] => []
  | begun,x :: l =>
    if p x then if begun then replaceRuns p r true l else r :: replaceRuns p r true l
    else x :: replaceRuns p r false l

section runs
variable {r : α} {begun : Bool}

theorem replaceRuns_run {run : List α} (h : ∀ x ∈ run, p x = false) :
    replaceRuns p r begun (run ++ l) = run ++ replaceRuns p r (begun && run.isEmpty) l := by
  induction run generalizing begun with
  | nil => simp
  | cons x run ih =>
    have hx : p x = false := h x (List.mem_cons_self ..)
    have hrun : replaceRuns p r false (run ++ l) = run ++ replaceRuns p r false l :=
      ih fun y hy => h y (List.mem_cons_of_mem _ hy)
    simp [replaceRuns,hx,hrun]

theorem replaceRuns_solid {run : List α} (h : ∀ x ∈ run, p x = false) : replaceRuns p r begun run = run := by
  have hrun : replaceRuns p r begun (run ++ []) = _ := replaceRuns_run h
  simpa [replaceRuns] using hrun

theorem words_replaceRuns (hr : p r = true) : words p (replaceRuns p r begun l) = words p l := by
  induction l using runs_induction (p := p) generalizing begun with
  | solid run hsolid =>
    rw [replaceRuns_solid hsolid]
  | more run s rest hsolid hs ih =>
    rw [replaceRuns_run hsolid,words_append_cons hs,replaceRuns,if_pos hs]
    split
    · next hbegun =>
      have hempty : run = [] := by
        rw [Bool.and_eq_true,List.isEmpty_iff] at hbegun
        exact hbegun.2
      rw [hempty]
      exact ih
    · rw [words_append_cons hr,ih]

theorem mem_replaceRuns {x : α} (h : x ∈ replaceRuns p r begun l) : x = r ∨ x ∈ l ∧ p x = false := by
  induction l generalizing begun with
  | nil => cases h
  | cons y l ih =>
    rw [replaceRuns] at h
    split at h
    · split at h
      · exact (ih h).imp_right fun ⟨hin,hx⟩ => ⟨List.mem_cons_of_mem _ hin,hx⟩
      · rcases List.mem_cons.mp h with hfirst | hrest
        · exact .inl hfirst
        · exact (ih hrest).imp_right fun ⟨hin,hx⟩ => ⟨List.mem_cons_of_mem _ hin,hx⟩
    · next hy =>
      rcases List.mem_cons.mp h with rfl | hrest
      · exact .inr ⟨List.mem_cons_self ..,Bool.eq_false_iff.mpr hy⟩
      · exact (ih hrest).imp_right fun ⟨hin,hx⟩ => ⟨List.mem_cons_of_mem _ hin,hx⟩

end runs

theorem dropWhile_congr {p q : α → Bool} (h : ∀ x ∈ l, p x = q x) : l.dropWhile p = l.dropWhile q := by
  induction l with
  | nil => rfl
  | cons x l ih =>
    rw [List.dropWhile_cons,List.dropWhile_cons,h x (List.mem_cons_self ..),
      ih fun y hy => h y (List.mem_cons_of_mem _ hy)]

theorem rdropWhile_congr {p q : α → Bool} (h : ∀ x ∈ l, p x = q x) : l.rdropWhile p = l.rdropWhile q := by
  unfold List.rdropWhile
  rw [dropWhile_congr fun x hx => h x (List.mem_reverse.mp hx)]

theorem rdropWhile_append_of_ne_nil (h : back.rdropWhile p ≠ []) :
    (front ++ back).rdropWhile p = front ++ back.rdropWhile p := by
  induction back using List.reverseRecOn with
  | nil => exact absurd rfl h
  | append_singleton back x ih =>
    rw [← List.append_assoc]
    by_cases hx : p x = true
    · rw [List.rdropWhile_concat_pos p back x hx] at h ⊢
      rw [List.rdropWhile_concat_pos p _ x hx,ih h]
    · rw [List.rdropWhile_concat_neg p _ x hx,List.rdropWhile_concat_neg p _ x hx,List.append_assoc]

theorem rdropWhile_append_of_nil (h : back.rdropWhile p = []) : (front ++ back).rdropWhile p = front.rdropWhile p := by
  induction back using List.reverseRecOn with
  | nil => rw [List.append_nil]
  | append_singleton back x ih =>
    have hx : p x = true := List.rdropWhile_eq_nil_iff.mp h x (by simp)
    rw [List.rdropWhile_concat_pos p back x hx] at h
    rw [← List.append_assoc,List.rdropWhile_concat_pos p _ x hx,ih h]

theorem intercalate_concat {sep : List α} {ws : List (List α)} (h : ws ≠ []) (w : List α) :
    sep.intercalate (ws ++ [w]) = sep.intercalate ws ++ sep ++ w := by
  induction ws with
  | nil => exact absurd rfl h
  | cons v ws ih =>
    cases ws with
    | nil => simp
    | cons u ws =>
      have hfirst {rest : List (List α)} (hne : rest ≠ []) :
          sep.intercalate (v :: rest) = v ++ sep ++ sep.intercalate rest := List.intercalate_cons_of_ne_nil hne
      have hrest := ih (List.cons_ne_nil u ws)
      rw [List.cons_append,hfirst (List.append_ne_nil_of_left_ne_nil (List.cons_ne_nil u ws) [w]),hrest,
        hfirst (List.cons_ne_nil u ws)]
      simp only [List.append_assoc]

theorem intercalate_words_ne_nil {sep : List α} (h : words p l ≠ []) : sep.intercalate (words p l) ≠ [] := by
  have hwords : ∀ w ∈ words p l, w ≠ [] := fun w hw => (mem_words hw).1
  cases hl : words p l with
  | nil => exact absurd hl h
  | cons w ws =>
    rw [hl] at hwords
    have hw : w ≠ [] := hwords w (List.mem_cons_self ..)
    cases ws with
    | nil => simpa using hw
    | cons v ws => simp [List.intercalate_cons_cons,hw]

section trim
variable {r : α}

/-- After a run has begun, what remains without separators at the end are the words. -/
theorem rdropWhile_replaceRuns (hr : p r = true) :
    (replaceRuns p r true l).rdropWhile p = [r].intercalate (words p l) := by
  have hkeep {run : List α} (hne : run ≠ []) (hsolid : ∀ x ∈ run, p x = false) : run.rdropWhile p = run := by
    rw [List.rdropWhile_eq_self_iff]
    intro h
    simp [hsolid _ (List.getLast_mem h)]
  induction l using runs_induction (p := p) with
  | solid run hsolid =>
    rw [replaceRuns_solid hsolid,words_run hsolid]
    by_cases hne : run = []
    · simp [hne]
    · simp [hne,hkeep hne hsolid]
  | more run s rest hsolid hs ih =>
    rw [replaceRuns_run hsolid,words_append_cons hs,words_run hsolid,replaceRuns,if_pos hs]
    by_cases hne : run = []
    · simp [hne,ih]
    · have hbegun : (true && run.isEmpty) = false := by simp [hne]
      rw [hbegun,if_neg Bool.false_ne_true]
      have hone : [run].filter (!·.isEmpty) = [run] := by simp [hne]
      by_cases hrest : words p rest = []
      · rw [hrest,List.intercalate_nil] at ih
        have hall : (r :: replaceRuns p r true rest).rdropWhile p = [] := by
          rw [List.rdropWhile_eq_nil_iff] at ih ⊢
          exact List.forall_mem_cons.mpr ⟨hr,ih⟩
        rw [rdropWhile_append_of_nil hall,hkeep hne hsolid,hone,hrest,List.append_nil,List.intercalate_singleton]
      · have hsome : (replaceRuns p r true rest).rdropWhile p ≠ [] := by
          rw [ih]
          exact intercalate_words_ne_nil hrest
        have hsplit : run ++ r :: replaceRuns p r true rest = (run ++ [r]) ++ replaceRuns p r true rest := by simp
        rw [hsplit,rdropWhile_append_of_ne_nil hsome,ih,hone,List.singleton_append,
          List.intercalate_cons_of_ne_nil hrest]

/-- A run that has begun hides the separators at the front. -/
theorem dropWhile_replaceRuns (hr : p r = true) :
    (replaceRuns p r false l).dropWhile p = replaceRuns p r true l := by
  have hbegun (l : List α) : (replaceRuns p r true l).dropWhile p = replaceRuns p r true l := by
    induction l with
    | nil => rfl
    | cons x l ih =>
      rw [replaceRuns]
      by_cases hx : p x = true
      · rw [if_pos hx,if_pos rfl,ih]
      · rw [if_neg hx,List.dropWhile_cons_of_neg hx]
  cases l with
  | nil => rfl
  | cons x l =>
    rw [replaceRuns,replaceRuns]
    by_cases hx : p x = true
    · rw [if_pos hx,if_pos hx,if_neg Bool.false_ne_true,if_pos rfl,List.dropWhile_cons_of_pos hr,hbegun]
    · rw [if_neg hx,if_neg hx,List.dropWhile_cons_of_neg hx]

/-- Without separators at its ends, a list whose runs have been replaced is its words, joined. -/
theorem trim_replaceRuns (hr : p r = true) :
    ((replaceRuns p r false l).dropWhile p).rdropWhile p = [r].intercalate (words p l) := by
  rw [dropWhile_replaceRuns hr,rdropWhile_replaceRuns hr]

end trim

end VoxForge.Foundation
