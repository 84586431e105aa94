import VoxForge.Observability.Sanitization

/-! Sanitized text holds nothing that one of the patterns would change. -/
namespace VoxForge.Observability
open Foundation Core Redaction

def patterns : List (Redaction Char) := [jwtPattern,apiKeyPattern,bearerPattern,secretKeyPattern]

/-- Each pattern leaves the text as it is. -/
def Settled (text : List Char) : Prop := ∀ r ∈ patterns, r.Stable text

theorem sanitizeText_of_settled {text : List Char} (h : Settled text) : sanitizeText text = text := by
  unfold sanitizeText
  rw [substitute_of_stable (h jwtPattern (by simp [patterns])),
    substitute_of_stable (h apiKeyPattern (by simp [patterns])),
    substitute_of_stable (h bearerPattern (by simp [patterns])),
    substitute_of_stable (h secretKeyPattern (by simp [patterns]))]

section letters
variable {c : Char}

theorem matches_ignoringCase {s : String} {m : List Char} :
    Item.Matches ((ignoringCase s).map .one) m ↔ m.map fold = s.toList := by
  unfold ignoringCase
  induction s.toList generalizing m with
  | nil => simp [Item.Matches]
  | cons d ds ih =>
    constructor
    · rintro ⟨c,m,rfl,hc,hm⟩
      rw [List.map_cons,ih.mp hm,eq_of_beq hc]
    · intro h
      obtain ⟨c,m,rfl,hc,hm⟩ := List.map_eq_cons_iff.mp h
      exact ⟨c,m,rfl,by simp [hc],ih.mpr hm⟩

theorem fold_cases (c : Char) :
    (c ∈ ['\u0130','\u0131','\u017f','\u212a'] ∧ fold c ∈ ['i','s','k']) ∨ c.isUpper = true ∨ fold c = c := by
  unfold fold
  split_ifs with h1 h2 h3
  · exact .inl ⟨by rcases h1 with rfl | rfl <;> decide,by decide⟩
  · exact .inl ⟨by rw [h2]; decide,by decide⟩
  · exact .inl ⟨by rw [h3]; decide,by decide⟩
  · by_cases hc : c.isUpper = true
    · exact .inr (.inl hc)
    · refine .inr (.inr ?_)
      unfold Char.toLower
      rw [dif_neg]
      simpa [Char.isUpper] using hc

theorem isAlphanum_of_fold (h : fold c ∈ "bearer".toList) : c.isAlphanum = true := by
  rcases fold_cases c with ⟨-,hspecial⟩ | hupper | hsame
  · have hapart : ∀ d ∈ "bearer".toList, d ∉ ['i','s','k'] := List.all_iff_forall_prop.mp (by decide)
    exact absurd hspecial (hapart _ h)
  · simp [Char.isAlphanum,Char.isAlpha,hupper]
  · have hall : ∀ d ∈ "bearer".toList, d.isAlphanum = true := List.all_iff_forall_prop.mp (by decide)
    rw [hsame] at h
    exact hall c h

/-- A letter of a key in any case. -/
theorem bearerLetter_of_fold {key : String} (hkey : key ∈ secretKeys) (h : fold c ∈ key.toList) :
    bearerLetter c = true := by
  rcases fold_cases c with ⟨hspecial,-⟩ | hupper | hsame
  · have hall : ∀ d ∈ ['\u0130','\u0131','\u017f','\u212a'], bearerLetter d = true :=
      List.all_iff_forall_prop.mp (by decide)
    exact hall c hspecial
  · simp [bearerLetter,Char.isAlphanum,Char.isAlpha,hupper]
  · have hall : ∀ key ∈ secretKeys, key.toList.all bearerLetter = true := by decide
    rw [hsame] at h
    exact List.all_eq_true.mp (hall key hkey) c h

end letters

/-- What each of the patterns for tokens is: no words, and a last run after an item that is
never empty, none of which takes a bracket or, at its end, a blank. -/
structure TokenPattern (q : Redaction Char) (i : Item Char) (accepts : Char → Bool) : Prop where
  words : q.words = [[]]
  body : ∃ is n, 0 < n ∧ q.body = is ++ [i,.run n accepts]
  nonempty : ¬Item.Matches [i] []
  brackets : q.Avoids '[' ∧ q.Avoids ']'
  blank : accepts ' ' = false
  separate : ∀ c ∈ "Bearer".toList, i.accepts c = false
  letters : ∀ c, c.isAlphanum = true → accepts c = true
  unnamed : q.Free "REDACTED".toList ∧ q.Free "Bearer ".toList ∧ q.Free "=".toList

theorem tokenPattern_jwt : TokenPattern jwtPattern (.one (· == '.')) urlsafe where
  words := rfl
  body := ⟨(literal "eyJ").map .one ++ .run 1 urlsafe :: ((literal ".eyJ").map .one ++ [.run 1 urlsafe]),1,
    Nat.one_pos,rfl⟩
  nonempty := nofun
  brackets := by decide
  blank := by decide
  separate := List.all_iff_forall_prop.mp (by decide)
  letters c hc := by simp [urlsafe,hc]
  unnamed := by decide

theorem tokenPattern_apiKey : TokenPattern apiKeyPattern (.one (· == '_')) Char.isAlphanum where
  words := rfl
  body := ⟨(literal "vxf").map .one,20,by decide,rfl⟩
  nonempty := nofun
  brackets := by decide
  blank := by decide
  separate := List.all_iff_forall_prop.mp (by decide)
  letters c hc := hc
  unnamed := by decide

theorem tokenPattern_bearer : TokenPattern bearerPattern (.run 1 isSpace) bearerLetter where
  words := rfl
  body := ⟨(ignoringCase "bearer").map .one,1,Nat.one_pos,rfl⟩
  nonempty := by
    rintro ⟨a,rest,h,hlen,-⟩
    rw [(List.append_eq_nil_iff.mp h.symm).1] at hlen
    cases hlen
  brackets := by decide
  blank := by decide
  separate := List.all_iff_forall_prop.mp (by decide)
  letters c hc := by simp [bearerLetter,hc]
  unnamed := by decide

section tokens
variable {q r : Redaction Char} {i : Item Char} {accepts : Char → Bool} {x m rest text : List Char}

theorem TokenPattern.none_in_mark (h : TokenPattern q i accepts) (hr : r ∈ patterns) (o z : List Char)
    (ho : o <:+ r.mark) (hne : o ≠ []) : q.rule (o ++ z) = none := by
  have hnil : q.Free [] := h.unnamed.1.within List.nil_infix
  have hin (front : List Char) (hmark : r.mark = front ++ '[' :: ("REDACTED".toList ++ [']']))
      (hfront : q.Free front) : q.rule (o ++ z) = none :=
    rule_none_of_mark hmark h.brackets.1 h.brackets.2 hfront h.unnamed.1 ho hne z
  simp only [patterns,List.mem_cons,List.not_mem_nil,or_false] at hr
  rcases hr with rfl | rfl | rfl | rfl
  · exact hin [] rfl hnil
  · exact hin [] rfl hnil
  · exact hin "Bearer ".toList rfl h.unnamed.2.1
  · exact hin "=".toList rfl h.unnamed.2.2

theorem TokenPattern.not_matches (h : TokenPattern q i accepts) {y : List Char} (hy : y <+: text)
    (hnone : q.rule text = none) : ¬Item.Matches q.body y := by
  intro hm
  obtain ⟨back,rfl⟩ := hy
  have hword : Item.Matches (([] : List (Char → Bool)).map .one) [] := rfl
  have hin : ([] : List (Char → Bool)) ∈ q.words := h.words ▸ List.mem_singleton.mpr rfl
  have hsome := rule_isSome hin hword hm back
  rw [List.nil_append,hnone] at hsome
  cases hsome

theorem TokenPattern.rule_eq (h : TokenPattern q i accepts) {out : List Char} (hrule : q.rule text = some (out,rest)) :
    ∃ m, text = m ++ rest ∧ Item.Matches q.body m ∧ '[' ∉ m := by
  obtain ⟨w,hw,kept,m,hs,hkept,hm,-⟩ := Redaction.rule_eq hrule
  have hout := h.brackets.1.notMem hw hkept hm
  rw [h.words,List.mem_singleton] at hw
  subst hw
  obtain rfl : kept = [] := hkept
  exact ⟨m,hs,hm,hout⟩

theorem bearer_word (hm : bearerPattern.rule m = some (bearerPattern.mark,rest)) :
    ∃ word tail, m = word ++ tail ∧ word.map fold = "bearer".toList := by
  obtain ⟨m',rfl,hm',-⟩ := tokenPattern_bearer.rule_eq hm
  obtain ⟨word,back,rfl,hword,-⟩ := Item.matches_append hm'
  exact ⟨word,back ++ rest,by simp,matches_ignoringCase.mp hword⟩

/-- What a token would take of the mark `Bearer`, it would take of the word that was there. -/
theorem TokenPattern.none_before_bearer (h : TokenPattern q i accepts) {z : List Char}
    (hm : bearerPattern.rule m = some (bearerPattern.mark,rest)) (hnone : q.rule (x ++ m) = none) :
    q.rule (x ++ (bearerPattern.mark ++ z)) = none := by
  cases hrule : q.rule (x ++ (bearerPattern.mark ++ z)) with
  | none => rfl
  | some t =>
    obtain ⟨m',hs,hm',hout⟩ := h.rule_eq hrule
    obtain ⟨is,n,hn,hbody⟩ := h.body
    have hmark : x ++ (bearerPattern.mark ++ z) =
        (x ++ "Bearer".toList ++ [' ']) ++ '[' :: ("REDACTED]".toList ++ z) := by
      rw [List.append_assoc,List.append_assoc]
      rfl
    have hprefix : m' <+: x ++ "Bearer".toList := by
      refine (List.prefix_concat_iff.mp (prefix_before (hs.symm.trans hmark) hout)).resolve_left fun heq => ?_
      have hlast : Item.Matches ((is ++ [i]) ++ [.run n accepts]) ((x ++ "Bearer".toList) ++ [' ']) := by
        rw [List.append_assoc,← heq]
        exact hbody ▸ hm'
      have hblank := hlast.last fun ⟨a,b,hab,hlen,_⟩ => by
        rw [(List.append_eq_nil_iff.mp hab.symm).1] at hlen
        exact absurd hn (Nat.not_lt.mpr hlen)
      rw [Item.accepts,h.blank] at hblank
      cases hblank
    obtain ⟨back,hback⟩ := hprefix
    rcases List.append_eq_append_iff.mp hback with ⟨y,rfl,-⟩ | ⟨e,rfl,he⟩
    · exact absurd hm' (h.not_matches ⟨y ++ m,by simp⟩ hnone)
    · -- the match goes on into the mark, with letters only
      obtain ⟨word,tail,rfl,hword⟩ := bearer_word hm
      have hwordlen : word.length = 6 := by simpa using congrArg List.length hword
      have helen : e.length ≤ 6 := by
        have hlen := congrArg List.length he
        simp at hlen
        omega
      have hletters (c : Char) (hc : c ∈ word.take e.length) : accepts c = true :=
        h.letters c (isAlphanum_of_fold (hword ▸ List.mem_map_of_mem (List.mem_of_mem_take hc)))
      have hlen : (word.take e.length).length = e.length := by
        rw [List.length_take,hwordlen,Nat.min_eq_left helen]
      rw [hbody] at hm'
      have hx := hm'.exchange h.nonempty (fun c hc => h.separate c (he ▸ List.mem_append_left back hc)) hlen hletters
      refine absurd (hbody ▸ hx) (h.not_matches ?_ hnone)
      refine (List.prefix_append_right_inj x).mpr ?_
      exact (List.take_prefix e.length word).trans (List.prefix_append word tail)

theorem TokenPattern.free_bearer (h : TokenPattern q i accepts)
    (hkept : ∀ u, u <:+ text → bearerPattern.rule u = none → q.rule u = none) :
    q.Free (bearerPattern.substitute text) := by
  refine free_substitute (by decide) hkept ?_ (h.none_in_mark (by simp [patterns])) ?_
  · intro x kept m rest _ hmatch hx hne
    rw [kept_nil rfl hmatch] at hx
    exact absurd (List.suffix_nil.mp hx) hne
  · intro x kept m rest z hmatch hnone _ _
    obtain rfl := kept_nil rfl hmatch
    exact h.none_before_bearer hmatch hnone

/-- A keyword of the pattern for secrets. -/
def Keyword (kept : List Char) : Prop := ∃ key ∈ secretKeys, kept.map fold = key.toList

instance (kept : List Char) : Decidable (Keyword kept) :=
  inferInstanceAs (Decidable (∃ key ∈ secretKeys, kept.map fold = key.toList))

theorem keyword_iff {kept : List Char} :
    Keyword kept ↔ ∃ w ∈ secretKeyPattern.words, Item.Matches (w.map .one) kept := by
  constructor
  · rintro ⟨key,hkey,hfold⟩
    exact ⟨ignoringCase key,List.mem_map_of_mem hkey,matches_ignoringCase.mpr hfold⟩
  · rintro ⟨w,hw,hm⟩
    obtain ⟨key,hkey,rfl⟩ := List.mem_map.mp hw
    exact ⟨key,hkey,matches_ignoringCase.mp hm⟩

theorem Keyword.bearerLetter {kept : List Char} (h : Keyword kept) {c : Char} (hc : c ∈ kept) :
    bearerLetter c = true := by
  obtain ⟨key,hkey,hfold⟩ := h
  exact bearerLetter_of_fold hkey (hfold ▸ List.mem_map_of_mem hc)

theorem Keyword.not_space {kept : List Char} (h : Keyword kept) {c : Char} (hc : c ∈ kept) :
    isSpace c = false := by
  cases hspace : isSpace c with
  | false => rfl
  | true =>
    have hletter := h.bearerLetter hc
    rw [bearerLetter_space hspace] at hletter
    cases hletter

theorem Keyword.notMem {kept : List Char} (h : Keyword kept) {c : Char} (hc : c ∈ ['=',':','[',']']) : c ∉ kept := by
  intro hin
  obtain ⟨key,hkey,hfold⟩ := h
  have hapart : ∀ key ∈ secretKeys, (['=',':','[',']'].all fun d => fold d ∉ key.toList) = true := by decide
  have hout := of_decide_eq_true (List.all_eq_true.mp (hapart key hkey) c hc)
  exact hout (hfold ▸ List.mem_map_of_mem hin)

theorem Keyword.not_separator {kept : List Char} (h : Keyword kept) {c : Char} (hc : c ∈ ['=',':']) : c ∉ kept := by
  have hall : ∀ c ∈ ['=',':'], c ∈ ['=',':','[',']'] := List.all_iff_forall_prop.mp (by decide)
  exact h.notMem (hall c hc)

theorem Keyword.ne_nil {kept : List Char} (h : Keyword kept) : kept ≠ [] := by
  obtain ⟨key,hkey,hfold⟩ := h
  rintro rfl
  have hall : ∀ key ∈ secretKeys, key.toList ≠ [] := by decide
  exact hall key hkey hfold.symm

/-- No keyword begins with another. -/
theorem Keyword.eq_of_prefix {a b : List Char} (ha : Keyword a) (hb : Keyword b) (h : a <+: b) : a = b := by
  obtain ⟨key,hkey,hfold⟩ := ha
  obtain ⟨key',hkey',hfold'⟩ := hb
  have hall : ∀ key ∈ secretKeys, ∀ key' ∈ secretKeys, key.toList <+: key'.toList → key = key' := by decide
  have heq := hall key hkey key' hkey' (hfold ▸ hfold' ▸ h.map fold)
  refine h.eq_of_length ?_
  have hlen := congrArg List.length (hfold.trans (heq ▸ hfold'.symm))
  simpa using hlen

/-- A match of the pattern for secrets: a keyword, a separator among white space, and a run. -/
theorem secret_rule_eq {out : List Char} (h : secretKeyPattern.rule text = some (out,rest)) :
    ∃ kept m, text = kept ++ (m ++ rest) ∧ Keyword kept ∧ Item.Matches secretKeyPattern.body m ∧
      Item.consume secretKeyPattern.body (m ++ rest) = some (m,rest) ∧ out = kept ++ secretKeyPattern.mark := by
  obtain ⟨w,hw,kept,m,hs,hkept,hm,hbody,hout⟩ := Redaction.rule_eq h
  exact ⟨kept,m,hs,keyword_iff.mpr ⟨w,hw,hkept⟩,hm,hbody,hout⟩

theorem secret_rule_isSome {kept : List Char} (h : Keyword kept) (hm : Item.Matches secretKeyPattern.body m)
    (z : List Char) : (secretKeyPattern.rule (kept ++ (m ++ z))).isSome := by
  obtain ⟨w,hw,hkept⟩ := keyword_iff.mp h
  exact rule_isSome hw hkept hm z

/-- The word that a replaced secret keeps is a keyword. -/
theorem secret_kept {kept : List Char}
    (h : secretKeyPattern.rule text = some (kept ++ secretKeyPattern.mark,rest)) : Keyword kept := by
  obtain ⟨kept',m,-,hkey,-,-,hout⟩ := secret_rule_eq h
  exact List.append_cancel_right hout ▸ hkey

theorem last_mem_kept {kept y : List Char} {c : Char} (hkept : kept ≠ []) (hx : kept <:+ y ++ [c] ∨ y ++ [c] <:+ kept) :
    c ∈ kept := by
  rcases hx with hx | hx
  · rcases List.suffix_concat_iff.mp hx with rfl | ⟨t,rfl,-⟩
    · exact absurd rfl hkept
    · simp
  · exact hx.subset (by simp)

/-- Where the last letter is not the first of a bearer token's own, it can be left away. -/
theorem bearer_shorten {y : List Char} {c d : Char} (hc : isSpace c = false)
    (h : Item.Matches bearerPattern.body (y ++ [c] ++ [d])) : Item.Matches bearerPattern.body (y ++ [c]) := by
  have hbody : bearerPattern.body = (ignoringCase "bearer").map .one ++ [Item.run 1 isSpace] ++ [Item.run 1 bearerLetter] :=
    (List.append_assoc _ [Item.run 1 isSpace] _).symm
  rw [hbody] at h ⊢
  obtain ⟨front,back,heq,hfront,a,tail,rfl,hlen,ha,rfl⟩ := Item.matches_append h
  obtain ⟨a,d',rfl⟩ := (List.eq_nil_or_concat' a).resolve_left (List.ne_nil_of_length_pos hlen)
  rw [List.append_nil,← List.append_assoc] at heq
  obtain ⟨heq,-⟩ := List.append_inj' heq rfl
  rcases List.eq_nil_or_concat' a with rfl | ⟨a,c',rfl⟩
  · rw [List.append_nil] at heq
    have hspace := (heq ▸ hfront).last tokenPattern_bearer.nonempty
    rw [Item.accepts,hc] at hspace
    cases hspace
  · rw [heq]
    refine hfront.append ⟨a ++ [c'],[],by simp,by simp,fun e he => ha e ?_,rfl⟩
    exact List.mem_append_left [d'] he

/-- A bearer token would take of `keyword=` only what it takes of the keyword. -/
theorem free_bearer_secret (h : bearerPattern.Free text) :
    bearerPattern.Free (secretKeyPattern.substitute text) := by
  refine free_substitute (by decide) (fun u hu _ => h u hu) (fun x kept m rest hs _ _ _ => h _ hs)
    (tokenPattern_bearer.none_in_mark (by simp [patterns])) ?_
  intro x kept m rest z hmatch hnone hx hne
  have hkey := secret_kept hmatch
  cases hrule : bearerPattern.rule (x ++ (secretKeyPattern.mark ++ z)) with
  | none => rfl
  | some t =>
    obtain ⟨m',hs,hm',hout⟩ := tokenPattern_bearer.rule_eq hrule
    have hmark : x ++ (secretKeyPattern.mark ++ z) = (x ++ ['=']) ++ '[' :: ("REDACTED]".toList ++ z) := by
      rw [List.append_assoc]
      rfl
    rcases List.prefix_concat_iff.mp (prefix_before (hs.symm.trans hmark) hout) with rfl | hpre
    · obtain ⟨y,c,rfl⟩ := (List.eq_nil_or_concat' x).resolve_left hne
      have hc : isSpace c = false := hkey.not_space (last_mem_kept hkey.ne_nil hx)
      have hshort : Item.Matches bearerPattern.body (y ++ [c]) := bearer_shorten hc hm'
      exact absurd hshort (tokenPattern_bearer.not_matches (List.prefix_append _ m) hnone)
    · exact absurd hm' (tokenPattern_bearer.not_matches (hpre.trans (List.prefix_append x m)) hnone)

end tokens

section secrets
variable {x m rest text kept : List Char}

theorem secret_rule_eq_stops {z : List Char} {c : Char}
    (h : Item.consume secretKeyPattern.body text = some (m,c :: z)) : isSpace c = true := by
  have hbody : secretKeyPattern.body =
      [Item.run 0 isSpace,Item.one fun c => c == ':' || c == '=',Item.run 0 isSpace] ++ [Item.run 1 fun c => !isSpace c] := rfl
  rw [hbody] at h
  simpa using Item.consume_stops h

/-- A match ends its gap, white space with a separator in it, with the first letter of a value. -/
theorem secret_body_eq (h : Item.Matches secretKeyPattern.body m) :
    ∃ gap d tail, m = gap ++ d :: tail ∧ isSpace d = false ∧ (∀ f ∈ gap, isSpace f = true ∨ f ∈ ['=',':']) ∧
      (∃ f ∈ gap, f ∈ ['=',':']) ∧ ∀ e, isSpace e = false → Item.Matches secretKeyPattern.body (gap ++ [e]) := by
  obtain ⟨a,_,rfl,-,ha,c,_,rfl,hc,b,_,rfl,-,hb,v,_,rfl,hlen,hv,rfl⟩ := h
  obtain ⟨d,tail,rfl⟩ := List.exists_cons_of_ne_nil (List.ne_nil_of_length_pos hlen)
  have hsep : c ∈ ['=',':'] := by
    rcases Bool.or_eq_true_iff.mp hc with hc | hc <;> rw [eq_of_beq hc] <;> decide
  refine ⟨a ++ c :: b,d,tail,by simp,?_,?_,⟨c,by simp,hsep⟩,?_⟩
  · simpa using hv d List.mem_cons_self
  · intro f hf
    rcases List.mem_append.mp hf with hf | hf
    · exact .inl (ha f hf)
    · rcases List.mem_cons.mp hf with rfl | hf
      · exact .inr hsep
      · exact .inl (hb f hf)
  · intro e he
    refine ⟨a,c :: (b ++ [e]),by simp,Nat.zero_le _,ha,c,b ++ [e],rfl,hc,b,[e],rfl,Nat.zero_le _,hb,[e],[],rfl,
      Nat.le_refl 1,?_,rfl⟩
    intro f hf
    simp [List.mem_singleton.mp hf,he]

/-- After a mark, the value that is taken is the mark itself. -/
theorem consume_mark (hrest : ∀ c t, rest = c :: t → isSpace c = true) :
    Item.consume secretKeyPattern.body (secretKeyPattern.mark ++ rest) = some (secretKeyPattern.mark,rest) := by
  have htake : rest.takeWhile (fun c => !isSpace c) = [] := by
    cases rest with
    | nil => rfl
    | cons c t => simp [hrest c t rfl]
  have hdrop : rest.dropWhile (fun c => !isSpace c) = rest := by
    cases rest with
    | nil => rfl
    | cons c t => simp [hrest c t rfl]
  have hname : ∀ c ∈ redacted, (!isSpace c) = true := List.all_iff_forall_prop.mp (by decide)
  have heq : isSpace '=' = false := by decide
  have hleft : isSpace '[' = false := by decide
  have hval : Item.consume [.run 1 fun c => !isSpace c] (redacted ++ rest) = some (redacted,rest) := by
    rw [Item.consume,List.takeWhile_append_of_pos hname,List.dropWhile_append_of_pos hname,htake,hdrop,
      List.append_nil,if_pos (by decide)]
    simp [Item.consume]
  have hgap : Item.consume [.run 0 isSpace,.run 1 fun c => !isSpace c] (redacted ++ rest) = some (redacted,rest) := by
    have hcons : redacted ++ rest = '[' :: ("REDACTED]".toList ++ rest) := rfl
    have h1 : (redacted ++ rest).takeWhile isSpace = [] := by rw [hcons]; simp [hleft]
    have h2 : (redacted ++ rest).dropWhile isSpace = redacted ++ rest := by rw [hcons]; simp [hleft]
    rw [Item.consume,h1,h2,if_pos (by decide),hval]
    rfl
  have hmark : secretKeyPattern.mark ++ rest = '=' :: (redacted ++ rest) := rfl
  have h1 : ('=' :: (redacted ++ rest)).takeWhile isSpace = [] := by simp [heq]
  have h2 : ('=' :: (redacted ++ rest)).dropWhile isSpace = '=' :: (redacted ++ rest) := by simp [heq]
  rw [hmark]
  show Item.consume [.run 0 isSpace,.one fun c => c == ':' || c == '=',.run 0 isSpace,.run 1 fun c => !isSpace c] _ = _
  rw [Item.consume,h1,h2,if_pos (by decide),Item.consume,if_pos (by decide),hgap]
  rfl

/-- No keyword begins in a mark. -/
theorem secret_none_in_mark (o z : List Char) (ho : o <:+ secretKeyPattern.mark) (hne : o ≠ []) :
    secretKeyPattern.rule (o ++ z) = none := by
  cases hrule : secretKeyPattern.rule (o ++ z) with
  | none => rfl
  | some t =>
    obtain ⟨kept,m,hs,hkey,-⟩ := secret_rule_eq hrule
    have hend : secretKeyPattern.mark = "=[REDACTED".toList ++ [']'] := rfl
    rw [hend] at ho
    rcases List.suffix_concat_iff.mp ho with rfl | ⟨o,rfl,hin⟩
    · exact absurd rfl hne
    · have hpre : kept <+: o := by
        rw [List.append_assoc] at hs
        exact prefix_before hs.symm (hkey.notMem (by decide))
      have hall : ∀ o ∈ "=[REDACTED".toList.tails, ∀ kept ∈ o.inits, ¬Keyword kept := by decide
      exact absurd hkey (hall o ((List.mem_tails _ _).mpr hin) kept ((List.mem_inits _ _).mpr hpre))

/-- What follows a replaced secret begins with white space, also after the substitution. -/
theorem secret_stops {word : List Char}
    (h : secretKeyPattern.rule text = some (word ++ secretKeyPattern.mark,rest)) (c : Char) (t : List Char)
    (hs : secretKeyPattern.substitute rest = c :: t) : isSpace c = true := by
  obtain ⟨kept,m,-,-,-,hvalue,-⟩ := secret_rule_eq h
  cases rest with
  | nil => cases hs
  | cons d rest =>
    have hd := secret_rule_eq_stops hvalue
    have hnone : secretKeyPattern.rule (d :: rest) = none := by
      cases hrule : secretKeyPattern.rule (d :: rest) with
      | none => rfl
      | some u =>
        obtain ⟨kept,m,hsplit,hkey,-⟩ := secret_rule_eq hrule
        obtain ⟨e,kept,rfl⟩ := List.exists_cons_of_ne_nil hkey.ne_nil
        obtain rfl := (List.cons.inj hsplit).1
        rw [hkey.not_space List.mem_cons_self] at hd
        cases hd
    rw [substitute_none hnone] at hs
    exact (List.cons.inj hs).1 ▸ hd

theorem stable_secret (s : List Char) : secretKeyPattern.Stable (secretKeyPattern.substitute s) := by
  intro u out rest hu hrule
  by_cases hne : u = []
  · rw [hne,rule_nil] at hrule
    cases hrule
  cases suffix_substitute hu hne with
  | untouched _ hnone => rw [hnone] at hrule; cases hrule
  | within ho hoe hu => rw [hu,secret_none_in_mark _ _ ho hoe] at hrule; cases hrule
  | @before x word m back hs hmatch hx hu =>
    subst hu
    have hword := secret_kept hmatch
    obtain ⟨kept,m',hsplit,hkey,hbody,hvalue,rfl⟩ := secret_rule_eq hrule
    obtain ⟨y,rfl⟩ : kept <+: x := prefix_before hsplit.symm (hkey.notMem (by decide))
    rw [List.append_assoc] at hsplit
    replace hsplit := List.append_cancel_left hsplit
    rcases List.eq_nil_or_concat' y with rfl | ⟨y,c,rfl⟩
    · -- the keyword is the one whose value was replaced
      have hstops : ∀ c t, secretKeyPattern.substitute back = c :: t → isSpace c = true := secret_stops hmatch
      rw [List.nil_append] at hsplit
      rw [← hsplit,consume_mark hstops] at hvalue
      obtain ⟨rfl,rfl⟩ := Prod.mk.inj (Option.some.inj hvalue)
      simp
    · -- another keyword would have had its separator in the text, too
      rw [← List.append_assoc] at hx
      have hc : c ∈ word := last_mem_kept hword.ne_nil (hx.imp_left And.left)
      obtain ⟨gap,d,tail,rfl,hd,hgap,hsep,hshort⟩ := secret_body_eq hbody
      have hout : c ∉ gap := by
        intro hin
        rcases hgap c hin with hspace | hsep
        · rw [hword.not_space hc] at hspace
          cases hspace
        · exact hword.not_separator hsep hc
      rw [List.append_assoc,List.append_assoc] at hsplit
      obtain ⟨y',rfl⟩ : gap <+: y := prefix_before hsplit.symm hout
      rw [List.append_assoc] at hsplit
      have hfirst := List.append_cancel_left hsplit
      obtain ⟨t,ht⟩ : ∃ t, y' ++ [c] = d :: t := by
        cases y' with
        | nil => exact ⟨[],by rw [(List.cons.inj hfirst).1]; rfl⟩
        | cons e y' => exact ⟨y' ++ [c],by rw [(List.cons.inj hfirst).1]; rfl⟩
      have htext : kept ++ (gap ++ y') ++ [c] = kept ++ ((gap ++ [d]) ++ t) := by
        rw [List.append_assoc,List.append_assoc gap,ht]
        simp
      rcases hx with ⟨-,hnone⟩ | hx
      · have hsome := secret_rule_isSome hkey (hshort d hd) (t ++ m)
        rw [← List.append_assoc (gap ++ [d]),← List.append_assoc kept,← htext,hnone] at hsome
        cases hsome
      · obtain ⟨f,hf,hsep⟩ := hsep
        exact absurd (hx.subset (by simp [hf])) (hword.not_separator hsep)

/-- The text does not end within the name of a mark. -/
def Ended (text : List Char) : Prop :=
  ∀ front back, text = front ++ '[' :: back → ∃ c ∈ back, c ∉ "REDACTED]".toList

/-- The part of a stable text that ends within no mark is stable. -/
theorem stable_secret_within (h : secretKeyPattern.Stable text) (hx : x <:+: text) (he : Ended x) :
    secretKeyPattern.Stable x := by
  intro u out rest hu hrule
  obtain ⟨kept,m,rfl,hkey,hbody,hvalue,rfl⟩ := secret_rule_eq hrule
  obtain ⟨front,back,rfl⟩ := hx
  obtain ⟨before,rfl⟩ := hu
  have hin : kept ++ (m ++ (rest ++ back)) <:+ front ++ (before ++ (kept ++ (m ++ rest))) ++ back :=
    ⟨front ++ before,by simp⟩
  obtain ⟨⟨out,rest'⟩,hlater⟩ := Option.isSome_iff_exists.mp (secret_rule_isSome hkey hbody (rest ++ back))
  have hstable := h _ _ _ hin hlater
  obtain ⟨kept',m',hsplit,hkey',-,hvalue',rfl⟩ := secret_rule_eq hlater
  -- both matches begin with the same keyword
  obtain rfl : kept = kept' := by
    rcases List.prefix_or_prefix_of_prefix (List.prefix_append kept _) ⟨_,hsplit.symm⟩ with hp | hp
    · exact hkey.eq_of_prefix hkey' hp
    · exact (hkey'.eq_of_prefix hkey hp).symm
  rw [List.append_assoc] at hstable
  have hmark := List.append_cancel_left hstable
  have hstops : ∀ c t, rest' = c :: t → isSpace c = true := by
    rintro c t rfl
    exact secret_rule_eq_stops hvalue'
  rw [← List.append_assoc] at hmark
  rcases List.append_eq_append_iff.mp hmark with ⟨more,hm,-⟩ | ⟨more,hm,rfl⟩
  · -- the text would end within the mark
    obtain ⟨gap,d,tail,rfl,-,-,⟨f,hf,-⟩,-⟩ := secret_body_eq hbody
    obtain ⟨g,gap,rfl⟩ := List.exists_cons_of_ne_nil (List.ne_nil_of_mem hf)
    obtain ⟨y,p,hp⟩ : ∃ y p, gap ++ d :: tail ++ rest = y :: p := List.exists_cons_of_ne_nil (by simp)
    have hvalues : '=' :: '[' :: "REDACTED]".toList = g :: y :: (p ++ more) := by
      rw [← List.cons_append,← hp]
      exact hm
    simp only [List.cons.injEq] at hvalues
    obtain ⟨rfl,rfl,hname⟩ := hvalues
    have htext : before ++ (kept ++ ('=' :: gap ++ d :: tail ++ rest)) = before ++ kept ++ ['='] ++ '[' :: p := by
      rw [List.cons_append,List.cons_append,hp]
      simp
    rw [htext] at he
    obtain ⟨c,hc,hout⟩ := he _ p rfl
    exact absurd (hname ▸ List.mem_append_left more hc) hout
  · have hmore : ∀ c t, more = c :: t → isSpace c = true := fun c t hmore => hstops c (t ++ back) (by rw [hmore]; rfl)
    rw [hm,consume_mark hmore] at hvalue
    obtain ⟨rfl,rfl⟩ := Prod.mk.inj (Option.some.inj hvalue)
    simp

end secrets

/-- In sanitized text no token matches, and no secret that is not redacted. -/
theorem sanitizeText_free (text : List Char) :
    jwtPattern.Free (sanitizeText text) ∧ apiKeyPattern.Free (sanitizeText text) ∧
      bearerPattern.Free (sanitizeText text) ∧ secretKeyPattern.Stable (sanitizeText text) := by
  have hj : jwtPattern.Free (jwtPattern.substitute text) :=
    free_substitute_self rfl rfl (by decide) (tokenPattern_jwt.none_in_mark (by simp [patterns]))
  have hj' : jwtPattern.Free (apiKeyPattern.substitute (jwtPattern.substitute text)) :=
    hj.substitute rfl (by decide) (tokenPattern_jwt.none_in_mark (by simp [patterns]))
  have ha : apiKeyPattern.Free (apiKeyPattern.substitute (jwtPattern.substitute text)) :=
    free_substitute_self rfl rfl (by decide) (tokenPattern_apiKey.none_in_mark (by simp [patterns]))
  have hj'' := tokenPattern_jwt.free_bearer fun u hu _ => hj' u hu
  have ha' := tokenPattern_apiKey.free_bearer fun u hu _ => ha u hu
  have hb : bearerPattern.Free (bearerPattern.substitute (apiKeyPattern.substitute (jwtPattern.substitute text))) :=
    tokenPattern_bearer.free_bearer fun _ _ hnone => hnone
  exact ⟨hj''.substitute rfl (by decide) (tokenPattern_jwt.none_in_mark (by simp [patterns])),
    ha'.substitute rfl (by decide) (tokenPattern_apiKey.none_in_mark (by simp [patterns])),
    free_bearer_secret hb,stable_secret _⟩

/-- Whatever ends within no mark and is found in sanitized text, no pattern would change. -/
theorem settled_within {text part : List Char} (h : part <:+: sanitizeText text) (he : Ended part) : Settled part := by
  obtain ⟨hj,ha,hb,hs⟩ := sanitizeText_free text
  intro r hr
  simp only [patterns,List.mem_cons,List.not_mem_nil,or_false] at hr
  rcases hr with rfl | rfl | rfl | rfl
  · exact (hj.within h).stable
  · exact (ha.within h).stable
  · exact (hb.within h).stable
  · exact stable_secret_within hs h he

end VoxForge.Observability
