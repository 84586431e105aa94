import VoxForge.Pipeline.ProcessTurn

/-! `SentenceBuffer` and `token_stream_to_sentences`: what a token lets out of the buffer, and
which streams run it over its end. -/
namespace VoxForge.Pipeline.VoicePipelineService.SentenceBuffer
open Core Persistence

def unmarked (c : Char) : Bool := c ∉ sentenceEndings

/-- The text up to the last mark. -/
def upto (text : List Char) : List Char := text.rdropWhile unmarked

/-- The text after the last mark. -/
def after (text : List Char) : List Char := text.rtakeWhile unmarked

theorem upto_append_after (text : List Char) : upto text ++ after text = text :=
  List.rdropWhile_append_rtakeWhile

theorem unmarked_of_mem_after {text : List Char} {c : Char} (h : c ∈ after text) : unmarked c = true :=
  List.mem_rtakeWhile_imp h

theorem upto_eq_nil_iff {text : List Char} : upto text = [] ↔ ∀ c ∈ text, unmarked c = true :=
  List.rdropWhile_eq_nil_iff

/-- Text that is appended moves the last mark only where it holds one. -/
theorem upto_append {front back : List Char} (h : upto back ≠ []) : upto (front ++ back) = front ++ upto back := by
  have hdrop : back.reverse.dropWhile unmarked ≠ [] := fun hnil => h (by simp [upto,List.rdropWhile,hnil])
  unfold upto List.rdropWhile
  rw [List.reverse_append,List.dropWhile_append,if_neg (by simpa using hdrop),List.reverse_append,
    List.reverse_reverse]

theorem after_append {front back : List Char} (h : upto back ≠ []) : after (front ++ back) = after back := by
  have hsplit := upto_append_after (front ++ back)
  rw [upto_append h,List.append_assoc] at hsplit
  have hback := List.append_cancel_left hsplit
  exact List.append_cancel_left (hback.trans (upto_append_after back).symm)

theorem after_append_unmarked {front back : List Char} (h : upto back = []) :
    after (front ++ back) = after front ++ back := by
  have hback : after back = back := by simpa [h] using upto_append_after back
  have htake : back.reverse.takeWhile unmarked = back.reverse := by
    simpa [after,List.rtakeWhile,List.reverse_eq_iff] using hback
  unfold after List.rtakeWhile
  rw [List.reverse_append,List.takeWhile_append,if_pos (by rw [htake]),List.reverse_append,List.reverse_reverse]

/-! One token -/

/-- The loop passes over what is no mark. -/
theorem scan_pass {buffer : List Char} {i n : Nat} (hlength : i + n ≤ buffer.length)
    (h : ∀ j c, i ≤ j → buffer[j]? = some c → unmarked c = true) :
    scan buffer (i + n) = scan buffer i := by
  induction n with
  | zero => rfl
  | succ n ih =>
    have hin : i + n < buffer.length := by omega
    have hget : buffer[i + n]? = some buffer[i + n] := List.getElem?_eq_getElem hin
    have hmark : buffer[i + n] ∉ sentenceEndings := by
      simpa [unmarked] using h (i + n) _ (by omega) hget
    rw [← Nat.add_assoc,scan,hget]
    dsimp only
    rw [if_neg hmark]
    exact ih (by omega)

theorem scan_all {text : List Char} (h : ∀ c ∈ text, unmarked c = true) {n : Nat} (hlength : n ≤ text.length) :
    scan text n = (.ok none,text) := by
  have hpass : scan text (0 + n) = scan text 0 :=
    scan_pass (by omega) fun j c _ hc => h c (List.mem_of_getElem? hc)
  rw [← Nat.zero_add n,hpass,scan]

theorem scan_length (text : List Char) : scan text text.length = scan text (upto text).length := by
  have hlength := congrArg List.length (upto_append_after text)
  rw [List.length_append] at hlength
  rw [← hlength]
  refine scan_pass hlength.le fun j c hj hc => ?_
  rw [← upto_append_after text,List.getElem?_append_right hj] at hc
  exact unmarked_of_mem_after (List.mem_of_getElem? hc)

/-- What `add` does is decided at the last mark of the buffer and the token. -/
theorem scan_marked {text : List Char} {n : Nat} (h : (upto text).length = n + 1) :
    scan text text.length =
      if strip (String.ofList (upto text)) = "" then scan (after text) n
      else (.ok (some (strip (String.ofList (upto text)))),after text) := by
  have hne : upto text ≠ [] := fun hnil => by simp [hnil] at h
  have hget : text[n]? = some ((upto text).getLast hne) := by
    conv_lhs => rw [← upto_append_after text]
    rw [List.getElem?_append_left (by omega),List.getLast_eq_getElem,List.getElem?_eq_getElem (by omega)]
    simp [h]
  have hmark : (upto text).getLast hne ∈ sentenceEndings := by
    simpa [unmarked,upto] using List.rdropWhile_last_not unmarked text hne
  have htake : text.take (n + 1) = upto text := by
    conv_lhs => rw [← upto_append_after text]
    exact List.take_left' h
  have hdrop : text.drop (n + 1) = after text := by
    conv_lhs => rw [← upto_append_after text]
    exact List.drop_left' h
  rw [scan_length,h,scan,hget]
  dsimp only
  rw [if_pos hmark,htake,hdrop]

def isBlank (text : List Char) : Bool := text.all isSpace

/-- The text up to the last mark is blank, and longer by two than what comes after it. -/
def Overruns (text : List Char) : Prop :=
  isBlank (upto text) = true ∧ (after text).length + 2 ≤ (upto text).length

instance (text : List Char) : Decidable (Overruns text) := inferInstanceAs (Decidable (_ ∧ _))

theorem strip_ofList_eq_empty {text : List Char} : strip (String.ofList text) = "" ↔ isBlank text = true := by
  rw [strip_eq_empty_iff,isBlank,List.all_eq_true,String.toList_ofList]

/-- `add` by what the buffer and the token hold together. -/
theorem scan_cases (text : List Char) :
    (Overruns text ∧ (scan text text.length).1 = .error (.runtime "string index out of range")) ∨
    (¬ Overruns text ∧ isBlank (upto text) = true ∧ scan text text.length = (.ok none,after text)) ∨
    (isBlank (upto text) = false ∧
      scan text text.length = (.ok (some (strip (String.ofList (upto text)))),after text)) := by
  cases hlength : (upto text).length with
  | zero =>
    have hnil : upto text = [] := List.eq_nil_of_length_eq_zero hlength
    have htext : after text = text := by simpa [hnil] using upto_append_after text
    have hover : ¬ Overruns text := fun h => by simpa [hnil] using h.2
    refine .inr (.inl ⟨hover,by simp [hnil,isBlank],?_⟩)
    rw [scan_all (upto_eq_nil_iff.mp hnil) le_rfl,htext]
  | succ n =>
    rw [scan_marked hlength]
    by_cases hblank : isBlank (upto text) = true
    case neg =>
      rw [if_neg (mt strip_ofList_eq_empty.mp hblank)]
      exact .inr (.inr ⟨by simpa using hblank,rfl⟩)
    rw [if_pos (strip_ofList_eq_empty.mpr hblank)]
    by_cases hover : Overruns text
    · -- the next index is past the end of the rest
      have hpast : (after text).length < n := by have := hover.2; omega
      obtain ⟨m,rfl⟩ : ∃ m, n = m + 1 := ⟨n - 1,by omega⟩
      refine .inl ⟨hover,?_⟩
      rw [scan,List.getElem?_eq_none (by omega)]
    · have hin : n ≤ (after text).length := by
        have := mt (And.intro hblank) hover
        omega
      exact .inr (.inl ⟨hover,hblank,scan_all (fun c hc => unmarked_of_mem_after hc) hin⟩)

/-! The stream -/

/-- `token_stream_to_sentences` from the next token on: the sentences that are yielded, and the
exception that ends it. -/
def tokenStreamToSentences (buffer : List Char) : List String → List String × Option Err
  | [] => ((flush buffer).toList,none)
  | token :: rest =>
    match add buffer token with
    | (.error e,_) => ([],some e)
    | (.ok none,buffer) => tokenStreamToSentences buffer rest
    | (.ok (some sentence),buffer) =>
      let (sentences,e) := tokenStreamToSentences buffer rest
      (sentence :: sentences,e)

def joined (texts : List String) : List Char := texts.flatMap String.toList

/-- The stream ends without an exception, in stripped sentences that hold its text. -/
def LosesNoText (tokens : List String) : Prop :=
  (tokenStreamToSentences [] tokens).2 = none ∧
    (∀ sentence ∈ (tokenStreamToSentences [] tokens).1, sentence ≠ "" ∧ strip sentence = sentence) ∧
    visible (joined (tokenStreamToSentences [] tokens).1) = visible (joined tokens)

/-- A token with a mark, where all that is blank back to the mark before it is longer by two
than what the token goes on with. -/
def RunsOver (before : List Char) (token : String) : Prop :=
  upto token.toList ≠ [] ∧ isBlank (after before ++ upto token.toList) = true ∧
    (after token.toList).length + 2 ≤ (after before ++ upto token.toList).length

theorem overruns_iff (before : List Char) (token : String) :
    Overruns (after before ++ token.toList) ↔ RunsOver before token := by
  unfold Overruns RunsOver
  by_cases hmark : upto token.toList = []
  · have hnil : upto (after before ++ token.toList) = [] := by
      rw [upto_eq_nil_iff] at hmark ⊢
      intro c hc
      exact (List.mem_append.mp hc).elim unmarked_of_mem_after (hmark c)
    refine iff_of_false (fun h => ?_) fun h => h.1 hmark
    simpa [hnil] using h.2
  · rw [upto_append hmark,after_append hmark]
    exact (and_iff_right hmark).symm

/-- The buffer after a token holds what comes after the last mark of all that was read. -/
theorem after_after_append (before back : List Char) : after (after before ++ back) = after (before ++ back) := by
  by_cases hmark : upto back = []
  · rw [after_append_unmarked hmark,after_append_unmarked hmark]
    unfold after
    rw [List.rtakeWhile_idempotent]
  · rw [after_append hmark,after_append hmark]

/-- What a token lets out and what is held back are, up to whitespace, what was there. -/
theorem add_cases (before : List Char) (token : String) :
    (∃ e held, add (after before) token = (.error e,held)) ∨
    (add (after before) token = (.ok none,after (before ++ token.toList)) ∧
      visible (after before ++ token.toList) = visible (after (before ++ token.toList))) ∨
    ∃ sentence, add (after before) token = (.ok (some sentence),after (before ++ token.toList)) ∧
      visible (after before ++ token.toList) = visible (sentence.toList ++ after (before ++ token.toList)) := by
  have hadd : add (after before) token =
      scan (after before ++ token.toList) (after before ++ token.toList).length := rfl
  have hsplit : visible (after before ++ token.toList) =
      visible (upto (after before ++ token.toList)) ++ visible (after (before ++ token.toList)) := by
    rw [← after_after_append,← visible_append,upto_append_after]
  rw [hadd,hsplit,← after_after_append]
  rcases scan_cases (after before ++ token.toList) with ⟨-,hscan⟩ | ⟨-,hblank,hscan⟩ | ⟨-,hscan⟩
  · exact .inl ⟨_,_,Prod.ext hscan rfl⟩
  · have hnone : visible (upto (after before ++ token.toList)) = [] :=
      visible_eq_nil_iff.mpr (List.all_eq_true.mp hblank)
    exact .inr (.inl ⟨hscan,by rw [hnone,List.nil_append]⟩)
  · refine .inr (.inr ⟨_,hscan,?_⟩)
    rw [visible_append,visible_strip,String.toList_ofList]

theorem tokenStreamToSentences_cons (before : List Char) (token : String) (rest : List String) :
    (RunsOver before token ∧ tokenStreamToSentences (after before) (token :: rest) =
      ([],some (.runtime "string index out of range"))) ∨
    (¬ RunsOver before token ∧ isBlank (upto (after before ++ token.toList)) = true ∧
      tokenStreamToSentences (after before) (token :: rest) =
        tokenStreamToSentences (after (before ++ token.toList)) rest) ∨
    (¬ RunsOver before token ∧ isBlank (upto (after before ++ token.toList)) = false ∧
      tokenStreamToSentences (after before) (token :: rest) =
        (strip (String.ofList (upto (after before ++ token.toList))) ::
            (tokenStreamToSentences (after (before ++ token.toList)) rest).1,
          (tokenStreamToSentences (after (before ++ token.toList)) rest).2)) := by
  rw [← overruns_iff,← after_after_append]
  have hadd : add (after before) token =
      scan (after before ++ token.toList) (after before ++ token.toList).length := rfl
  rcases scan_cases (after before ++ token.toList) with ⟨hover,hscan⟩ | ⟨hover,hblank,hscan⟩ | ⟨hblank,hscan⟩
  · refine .inl ⟨hover,?_⟩
    rw [tokenStreamToSentences,hadd]
    rcases hraise : scan (after before ++ token.toList) (after before ++ token.toList).length with ⟨r,buffer⟩
    rw [hraise] at hscan
    obtain rfl : r = _ := hscan
    rfl
  · refine .inr (.inl ⟨hover,hblank,?_⟩)
    rw [tokenStreamToSentences,hadd,hscan]
  · refine .inr (.inr ⟨fun hover => by simp [hover.1] at hblank,hblank,?_⟩)
    rw [tokenStreamToSentences,hadd,hscan]

theorem runsOver_cons (before : List Char) (token : String) (rest : List String) :
    (∀ read next more, token :: rest = read ++ next :: more → ¬ RunsOver (before ++ joined read) next) ↔
      ¬ RunsOver before token ∧ ∀ read next more, rest = read ++ next :: more →
        ¬ RunsOver (before ++ token.toList ++ joined read) next := by
  constructor
  · intro h
    refine ⟨by simpa [joined] using h [] token rest rfl,fun read next more heq => ?_⟩
    simpa [joined] using h (token :: read) next more (by rw [heq]; rfl)
  · rintro ⟨hfirst,hlater⟩ read next more heq
    cases read with
    | nil =>
      obtain ⟨rfl,-⟩ := List.cons.inj heq
      simpa [joined] using hfirst
    | cons first read =>
      obtain ⟨rfl,htail⟩ := List.cons.inj heq
      simpa [joined] using hlater read next more htail

theorem visible_cut (before : List Char) (token : String) (rest : List Char) :
    visible (after before ++ (token.toList ++ rest)) =
      visible (upto (after before ++ token.toList)) ++ visible (after (before ++ token.toList) ++ rest) := by
  rw [← after_after_append,← List.append_assoc]
  conv_lhs => rw [← upto_append_after (after before ++ token.toList)]
  rw [List.append_assoc,visible_append]

/-- From any place in the stream: an exception comes exactly where a token runs the buffer over,
and what is yielded is stripped and holds, with no exception, all the text from there. -/
theorem tokenStreamToSentences_spec (before : List Char) (tokens : List String) :
    ((tokenStreamToSentences (after before) tokens).2 = none ↔
      ∀ read token rest, tokens = read ++ token :: rest → ¬ RunsOver (before ++ joined read) token) ∧
    (∀ sentence ∈ (tokenStreamToSentences (after before) tokens).1,
      sentence ≠ "" ∧ strip sentence = sentence) ∧
    ((tokenStreamToSentences (after before) tokens).2 = none →
      visible (joined (tokenStreamToSentences (after before) tokens).1) =
        visible (after before ++ joined tokens)) := by
  induction tokens generalizing before with
  | nil =>
    refine ⟨by simp [tokenStreamToSentences],?_,fun _ => ?_⟩
    · unfold tokenStreamToSentences flush
      intro sentence hmem
      by_cases hblank : strip (String.ofList (after before)) = ""
      · simp [hblank] at hmem
      · obtain rfl : sentence = strip (String.ofList (after before)) := by simpa [hblank] using hmem
        exact ⟨hblank,strip_strip _⟩
    · unfold tokenStreamToSentences flush
      by_cases hblank : strip (String.ofList (after before)) = ""
      · have hnone : visible (after before) = [] :=
          visible_eq_nil_iff.mpr (List.all_eq_true.mp (strip_ofList_eq_empty.mp hblank))
        simp [hblank,hnone,joined]
        rfl
      · simp [hblank,joined]
  | cons token rest ih =>
    have hjoined : joined (token :: rest) = token.toList ++ joined rest := rfl
    obtain ⟨hraise,hstripped,htext⟩ := ih (before ++ token.toList)
    rw [runsOver_cons,hjoined,visible_cut]
    rcases tokenStreamToSentences_cons before token rest with
      ⟨hover,hstream⟩ | ⟨hover,hblank,hstream⟩ | ⟨hover,hblank,hstream⟩
    · rw [hstream]
      exact ⟨iff_of_false nofun fun h => h.1 hover,by simp,nofun⟩
    · rw [hstream]
      refine ⟨hraise.trans (and_iff_right hover).symm,hstripped,fun hend => ?_⟩
      rw [htext hend,visible_eq_nil_iff.mpr (List.all_eq_true.mp hblank),List.nil_append]
    · rw [hstream]
      refine ⟨hraise.trans (and_iff_right hover).symm,?_,fun hend => ?_⟩
      · intro sentence hmem
        rcases List.mem_cons.mp hmem with rfl | hrest
        · refine ⟨fun hempty => ?_,strip_strip _⟩
          rw [strip_ofList_eq_empty.mp hempty] at hblank
          cases hblank
        · exact hstripped sentence hrest
      · calc visible (joined (strip (String.ofList (upto (after before ++ token.toList))) :: _))
            = visible (upto (after before ++ token.toList)) ++
                visible (joined (tokenStreamToSentences (after (before ++ token.toList)) rest).1) := by
              simp [joined,visible_append]
          _ = _ := by rw [htext hend]

/-- No text is lost exactly when no token runs the buffer over. -/
theorem losesNoText_iff (tokens : List String) :
    LosesNoText tokens ↔
      ∀ read token rest, tokens = read ++ token :: rest → ¬ RunsOver (joined read) token := by
  obtain ⟨hraise,hstripped,htext⟩ := tokenStreamToSentences_spec [] tokens
  constructor
  · rintro ⟨hend,-⟩
    exact hraise.mp hend
  · intro h
    have hend := hraise.mpr h
    exact ⟨hend,hstripped,htext hend⟩

/-- A paragraph break that comes as a token of its own. -/
theorem paragraph_runs_over : ¬ LosesNoText ["Hello.","\n\n","Goodbye."] := fun h =>
  absurd h.1 (by decide)

end VoxForge.Pipeline.VoicePipelineService.SentenceBuffer
