import VoxForge.Knowledge.ChunkWindows
import VoxForge.Knowledge.Parsers
import VoxForge.Knowledge.Publication

/-! Words in chunks: no window ends inside of a word that is shorter than half of a chunk, so each
such word of a text file is a word of some chunk that is stored. -/
namespace VoxForge.Knowledge
open Core Foundation

/-! The ends of windows -/

section ends
variable {text : List Char} {size start : Nat}

theorem mem_rfindSpace {stop i : Nat} (h : rfindSpace text start stop = some i) :
    start ≤ i ∧ i < stop ∧ text[i]? = some ' ' := by
  obtain ⟨hrange,hblank⟩ := List.mem_filter.mp (List.mem_of_getLast? h)
  have hbounds := List.mem_range'_1.mp hrange
  exact ⟨hbounds.1,by omega,of_decide_eq_true hblank⟩

/-- The last space comes after every other. -/
theorem le_rfindSpace {stop j : Nat} (hstart : start ≤ j) (hstop : j < stop) (hj : text[j]? = some ' ') :
    ∃ i, rfindSpace text start stop = some i ∧ j ≤ i := by
  unfold rfindSpace
  have hmem : j ∈ (List.range' start (stop - start)).filter fun i => text[i]? = some ' ' :=
    List.mem_filter.mpr ⟨List.mem_range'_1.mpr (by omega),decide_eq_true hj⟩
  have hsorted : ((List.range' start (stop - start)).filter fun i => text[i]? = some ' ').Pairwise (· < ·) :=
    List.Pairwise.filter _ List.pairwise_lt_range'
  generalize (List.range' start (stop - start)).filter _ = found at hmem hsorted
  cases found using List.reverseRecOn with
  | nil => cases hmem
  | append_singleton front i =>
    refine ⟨i,List.getLast?_concat,?_⟩
    rcases List.mem_append.mp hmem with hin | hlast
    · exact Nat.le_of_lt ((List.pairwise_append.mp hsorted).2.2 j hin i (List.mem_singleton_self i))
    · exact Nat.le_of_eq (List.mem_singleton.mp hlast)

/-- A window ends with the text, or before a blank, or where its second half holds no blank. -/
theorem chunkEnd_cases (text : List Char) (size start : Nat) :
    chunkEnd text size start = text.length ∨ text[chunkEnd text size start]? = some ' ' ∨
      chunkEnd text size start = start + size ∧
        ∀ j, start ≤ j → j < start + size → text[j]? = some ' ' → j ≤ start + size / 2 := by
  unfold chunkEnd
  dsimp only
  split
  · next hmore =>
    have hstop : min (start + size) text.length = start + size := by omega
    rw [hstop]
    split
    · next i hfind =>
      split
      · exact .inr (.inl (mem_rfindSpace hfind).2.2)
      · refine .inr (.inr ⟨rfl,fun j hstart hlt hj => ?_⟩)
        obtain ⟨last,hlast,hle⟩ := le_rfindSpace hstart hlt hj
        rw [hfind] at hlast
        obtain rfl := Option.some.inj hlast
        omega
    · next hnone =>
      refine .inr (.inr ⟨rfl,fun j hstart hlt hj => ?_⟩)
      obtain ⟨last,hlast,-⟩ := le_rfindSpace hstart hlt hj
      rw [hnone] at hlast
      cases hlast
  · left
    omega

end ends

/-! A word and the windows -/

section word
variable {front w back : List Char} {size start : Nat} {overlap : Int}

/-- Blanks are the only white space. -/
def Blanked (text : List Char) : Prop := ∀ c ∈ text, isSpace c = true → c = ' '

theorem getElem?_word (hsolid : ∀ c ∈ w, isSpace c = false) {i : Nat} (hfront : front.length ≤ i)
    (hback : i < front.length + w.length) : (front ++ w ++ back)[i]? ≠ some ' ' := by
  rw [List.append_assoc,List.getElem?_append_right hfront,List.getElem?_append_left (by omega)]
  intro hblank
  have hspace := hsolid ' ' (List.mem_of_getElem? hblank)
  cases hspace

theorem getElem?_before (hblanked : Blanked (front ++ w ++ back)) (hfront : Separated isSpace front)
    (hne : 0 < front.length) : (front ++ w ++ back)[front.length - 1]? = some ' ' := by
  rw [List.append_assoc,List.getElem?_append_left (by omega),← List.getLast?_eq_getElem?]
  have hlast := List.getLast?_eq_some_getLast (List.ne_nil_of_length_pos hne)
  rw [hlast]
  have hin : front.getLast (List.ne_nil_of_length_pos hne) ∈ front ++ w ++ back :=
    List.mem_append_left _ (List.mem_append_left _ (List.getLast_mem _))
  rw [hblanked _ hin (hfront _ hlast)]

theorem length_around : (front ++ w ++ back).length = front.length + w.length + back.length := by
  rw [List.length_append,List.length_append]

/-- No window ends inside of a word shorter than half of it. -/
theorem chunkEnd_spares (hblanked : Blanked (front ++ w ++ back)) (hfront : Separated isSpace front)
    (hsolid : ∀ c ∈ w, isSpace c = false) (hshort : 2 * w.length < size)
    (hstart : start < (front ++ w ++ back).length) :
    chunkEnd (front ++ w ++ back) size start ≤ front.length ∨
      front.length + w.length ≤ chunkEnd (front ++ w ++ back) size start := by
  by_contra hinside
  obtain ⟨hafter,hbefore⟩ := not_or.mp hinside
  have hlength := @length_around front w back
  have hsize : 0 < size := by omega
  obtain ⟨-,-,-,hhalf⟩ := chunkEnd_spec hsize hstart
  have hlong := hhalf (by omega)
  rcases chunkEnd_cases (front ++ w ++ back) size start with hend | hblank | ⟨hstop,hnone⟩
  · omega
  · exact getElem?_word hsolid (by omega) (by omega) hblank
  · -- the blank before the word would be in the second half of the window
    have hgap := getElem?_before hblanked hfront (by omega)
    have hfirst := hnone (front.length - 1) (by omega) (by omega) hgap
    omega

/-- Some window holds the word. -/
theorem windowsFrom_whole (hblanked : Blanked (front ++ w ++ back)) (hfront : Separated isSpace front) (hne : w ≠ [])
    (hsolid : ∀ c ∈ w, isSpace c = false) (hshort : 2 * w.length < size) (hoverlap : 0 ≤ overlap)
    (hstart : start ≤ front.length) :
    ∃ window ∈ windowsFrom (front ++ w ++ back) size overlap start,
      window.start ≤ front.length ∧ front.length + w.length ≤ window.stop := by
  generalize htext : front ++ w ++ back = text at *
  fun_induction windowsFrom text size overlap start with
  | case1 start h stop ih =>
    subst htext
    rcases chunkEnd_spares hblanked hfront hsolid hshort h with hbefore | hbehind
    · have hlength := @length_around front w back
      have hpos := List.length_pos_iff.mpr hne
      have hlt : stop < (front ++ w ++ back).length := by
        have : stop ≤ front.length := hbefore
        omega
      have hafter : start < stop := (chunkEnd_spec (by omega) h).1
      rw [if_neg (Nat.not_le_of_lt hlt)]
      have hstop : stop ≤ front.length := hbefore
      obtain ⟨window,hwindow,hholds⟩ := ih (by omega)
      exact ⟨window,List.mem_cons_of_mem _ hwindow,hholds⟩
    · exact ⟨_,List.mem_cons_self ..,hstart,hbehind⟩
  | case2 start h =>
    subst htext
    have hlength := @length_around front w back
    have hpos := List.length_pos_iff.mpr hne
    omega

theorem separated_drop (h : Separated isSpace front) (n : Nat) : Separated isSpace (front.drop n) := by
  intro c hc
  rw [List.getLast?_drop] at hc
  split at hc
  · cases hc
  · exact h c hc

theorem separates_take (h : Separates isSpace back) (n : Nat) : Separates isSpace (back.take n) := by
  intro c hc
  rw [List.head?_take] at hc
  split at hc
  · cases hc
  · exact h c hc

theorem mem_words_window (hfront : Separated isSpace front) (hback : Separates isSpace back) (hne : w ≠ [])
    (hsolid : ∀ c ∈ w, isSpace c = false) {window : Window} (hstart : window.start ≤ front.length)
    (hstop : front.length + w.length ≤ window.stop) : w ∈ words isSpace (window.text (front ++ w ++ back)) := by
  have htext : window.text (front ++ w ++ back) =
      front.drop window.start ++ w ++ back.take (window.stop - (front.length + w.length)) := by
    unfold Window.text
    rw [List.append_assoc,List.drop_append_of_le_length hstart,List.take_append,
      List.take_of_length_le (by simp; omega),List.take_append,List.take_of_length_le (by simp; omega)]
    simp only [List.length_drop,List.append_assoc]
    congr 3
    omega
  rw [htext,words_surrounded (separated_drop hfront _) (separates_take hback _) hne hsolid]
  exact List.mem_append_right _ (List.mem_cons_self ..)

end word

/-! Chunks without an overlap -/

section ordered
variable {text : List Char} {size start : Nat}

/-- Where all words are short, no window ends inside of a word. -/
theorem window_ends_word (hblanked : Blanked text) (hshort : ∀ w ∈ words isSpace text, 2 * w.length < size)
    (hsize : 0 < size) (hstart : start < text.length) :
    Separated isSpace (text.take (chunkEnd text size start)) ∨
      Separates isSpace (text.drop (chunkEnd text size start)) := by
  by_contra hinside
  obtain ⟨hfront,hback⟩ := not_or.mp hinside
  obtain ⟨before,w,v,behind,htake,hdrop,hw,hv,hbefore,hbehind,hsolid⟩ := word_across hfront hback
  have htext : text = before ++ (w ++ v) ++ behind := by
    rw [← List.take_append_drop (chunkEnd text size start) text,htake,hdrop]
    simp only [List.append_assoc]
  have hword : w ++ v ∈ words isSpace text := by
    rw [htext,words_surrounded hbefore hbehind (by simp [hw]) hsolid]
    exact List.mem_append_right _ (List.mem_cons_self ..)
  have hstop : chunkEnd text size start = before.length + w.length := by
    have hlength := congrArg List.length htake
    rw [List.length_take,List.length_append] at hlength
    have hin := (chunkEnd_spec hsize hstart).2.1
    omega
  have hspares := chunkEnd_spares (htext ▸ hblanked) hbefore hsolid (hshort _ hword) (htext ▸ hstart)
  rw [← htext,hstop,List.length_append] at hspares
  have := List.length_pos_iff.mpr hw
  have := List.length_pos_iff.mpr hv
  omega

/-- Without an overlap, the words of the windows are those of the text, in order. -/
theorem words_windows (hblanked : Blanked text) (hshort : ∀ w ∈ words isSpace text, 2 * w.length < size)
    (hsize : 0 < size) :
    (windowsFrom text size 0 start).flatMap (fun window => words isSpace (window.text text)) =
      words isSpace (text.drop start) := by
  fun_induction windowsFrom text size 0 start with
  | case1 start h stop ih =>
    obtain ⟨hlt,hle,-⟩ := chunkEnd_spec hsize h
    have hlater : start < stop := hlt
    have hsplit : text.drop start = Window.text text ⟨start,stop⟩ ++ text.drop stop := by
      have hrest : (text.drop start).drop (stop - start) = text.drop stop := by
        rw [List.drop_drop]
        congr 1
        omega
      rw [← hrest]
      exact (List.take_append_drop ..).symm
    have hwords : words isSpace (text.drop start) =
        words isSpace (Window.text text ⟨start,stop⟩) ++ words isSpace (text.drop stop) := by
      rw [hsplit]
      rcases window_ends_word hblanked hshort hsize h with hseparated | hseparates
      · refine words_append ?_
        have htext : Window.text text ⟨start,stop⟩ = (text.take stop).drop start := by
          rw [List.drop_take]
          rfl
        rw [htext]
        exact separated_drop hseparated start
      · exact words_append_left hseparates
    rw [List.flatMap_cons,hwords]
    congr 1
    split
    · next hend => rw [List.drop_eq_nil_of_le hend]; rfl
    · have hnext : max ((stop : Int) - 0).toNat (start + 1) = stop := by omega
      rw [hnext] at ih ⊢
      exact ih
  | case2 start h => rw [List.drop_eq_nil_of_le (Nat.le_of_not_lt h)]; rfl

end ordered

/-! Chunks and stored rows -/

def ChunkingConfig.size (config : ChunkingConfig) : Nat := (max config.chunkSize 64).toNat

/-- What chunks keep of the words of a text. -/
structure Carries (text : String) (config : ChunkingConfig) (contents : List String) : Prop where
  /-- Words shorter than half of a chunk are whole somewhere. -/
  whole : ∀ w ∈ splitWords text, 2 * w.length < config.size → ∃ content ∈ contents, w ∈ splitWords content
  /-- Nothing else is there but parts of words. -/
  own : ∀ content ∈ contents, ∀ v ∈ splitWords content, ∃ w ∈ splitWords text, v <:+: w
  inOrder : config.chunkOverlap = 0 → (∀ w ∈ splitWords text, 2 * w.length < config.size) →
    contents.flatMap splitWords = splitWords text

theorem splitWords_piece (text : List Char) (window : Window) :
    splitWords (window.piece text) = words isSpace (window.text text) := by
  rw [Window.piece,splitWords_strip,splitWords,String.toList_ofList]

theorem flatMap_words_filter (contents : List String) :
    (contents.filter (· ≠ "")).flatMap splitWords = contents.flatMap splitWords := by
  induction contents with
  | nil => rfl
  | cons content contents ih =>
    rw [List.filter_cons,List.flatMap_cons,← ih]
    by_cases hempty : content = ""
    · simp [hempty,splitWords]
    · simp [hempty]

theorem chunkRecursive_carries (document : ParsedDocument) (config : ChunkingConfig)
    (hoverlap : 0 ≤ config.chunkOverlap) (hblanked : Blanked document.text.toList) :
    Carries document.text config ((chunkRecursive document config).map (·.content)) := by
  have hsize : 0 < config.size := by
    unfold ChunkingConfig.size
    omega
  have hcontents := chunkFrom_contents document document.text.toList config.size
    (min config.chunkOverlap (config.size / 2 : Nat))
  change (chunkRecursive document config).map (·.content) = _ at hcontents
  rw [hcontents]
  have hmem {content : String} : content ∈ ((windowsFrom document.text.toList config.size
        (min config.chunkOverlap (config.size / 2 : Nat)) 0).map (·.piece document.text.toList)).filter (· ≠ "") ↔
      (∃ window ∈ windowsFrom document.text.toList config.size (min config.chunkOverlap (config.size / 2 : Nat)) 0,
        window.piece document.text.toList = content) ∧ content ≠ "" := by
    rw [List.mem_filter,List.mem_map,decide_eq_true_eq]
  constructor
  · intro w hw hshort
    obtain ⟨hne,hsolid⟩ := mem_words hw
    obtain ⟨front,back,htext,hfront,hback⟩ := surrounded_of_mem hw
    obtain ⟨window,hwindow,hstart,hstop⟩ := @windowsFrom_whole front w back config.size 0
      (min config.chunkOverlap (config.size / 2 : Nat)) (htext ▸ hblanked) hfront hne hsolid hshort (by omega)
      (Nat.zero_le _)
    rw [← htext] at hwindow
    have hin : w ∈ splitWords (window.piece document.text.toList) := by
      rw [splitWords_piece,htext]
      exact mem_words_window hfront hback hne hsolid hstart hstop
    refine ⟨_,hmem.mpr ⟨⟨window,hwindow,rfl⟩,?_⟩,hin⟩
    intro hempty
    rw [hempty] at hin
    cases hin
  · intro content hcontent v hv
    obtain ⟨⟨window,-,rfl⟩,-⟩ := hmem.mp hcontent
    rw [splitWords_piece] at hv
    exact mem_words_infix hv ((List.take_prefix ..).isInfix.trans (List.drop_suffix ..).isInfix)
  · intro hnone hshort
    have hzero : min config.chunkOverlap (config.size / 2 : Nat) = 0 := by omega
    rw [flatMap_words_filter,hzero,List.flatMap_map]
    simp only [splitWords_piece]
    exact words_windows hblanked hshort hsize

section jobs
variable {services : Services} {settings : Settings} {tables after : Tables} {job : IngestJob} {versionId : Nat}
  {chunks : List RawChunk} {embeddings : List Embedding}

/-- A job that deletes the version's chunks first, or finds none, stores all of its chunks. -/
theorem selectPairs_fresh (hfresh : job.jobType = .reindex ∨ rows tables versionId = [])
    {pairs : List (RawChunk × Embedding)} {middle : Tables}
    (h : selectPairs services job versionId chunks embeddings tables = (.ok pairs,middle)) :
    pairs = chunks.zip embeddings ∧ rows middle versionId = [] := by
  have hlength := selectPairs_lengths h
  unfold selectPairs at h
  split at h
  · simp only [zipStrict,if_pos hlength,Prod.mk.injEq,Except.ok.injEq] at h
    obtain ⟨rfl,rfl⟩ := h
    exact ⟨rfl,deleteByVersion_rows ..⟩
  · next hingest =>
    have hempty := hfresh.resolve_left hingest
    have hhashes : tables.getChunkHashes versionId = [] := by
      have hnone : tables.chunks.filter (·.documentVersionId = versionId) = [] := List.map_eq_nil_iff.mp hempty
      simp [Tables.getChunkHashes,hnone]
    have hremoved (new : List (Nat × String)) : (computeChunkDiff [] new).2.2 = [] := rfl
    simp only [hhashes,hremoved,zipStrict,if_pos hlength,ne_eq,not_true_eq_false,if_false,decide_true,Bool.or_true,
      List.filter_true,Except.map,Prod.mk.injEq,Except.ok.injEq] at h
    obtain ⟨rfl,rfl⟩ := h
    exact ⟨rfl,hempty⟩

theorem stored_contents (hindex : indexChunks services job versionId chunks embeddings tables = (.ok (),after))
    (hfresh : job.jobType = .reindex ∨ rows tables versionId = []) (hnodup : (chunks.map (·.chunkIndex)).Nodup) :
    (rows after versionId).map (·.content) = chunks.map (·.content) := by
  obtain ⟨pairs,indexed,middle,stored,hselect,hupsert,rfl⟩ := indexChunks_ok hindex
  have hlength := selectPairs_lengths hselect
  obtain ⟨rfl,hempty⟩ := selectPairs_fresh hfresh hselect
  have hstore := storeFault_of_ok hupsert
  have hunused : ∀ c ∈ rows middle versionId, c.chunkIndex ∉ (chunks.zip embeddings).map (·.1.chunkIndex) := by
    simp [hempty]
  obtain ⟨-,hrows⟩ := @upsertChunks_fresh services job.orgId versionId _ 0 middle
    (by rwa [zip_indices hlength]) hunused hstore
  rw [hupsert,hempty,List.nil_append] at hrows
  have hpublished : rows (published job versionId indexed stored) versionId = rows stored versionId := rfl
  have hfst : (chunks.zip embeddings).map Prod.fst = chunks := List.map_fst_zip (Nat.le_of_eq hlength)
  calc (rows (published job versionId indexed stored) versionId).map (·.content)
      = ((chunks.zip embeddings).map Prod.fst).map (·.content) := by
        rw [hpublished,hrows,List.map_map,List.map_map]
        rfl
    _ = chunks.map (·.content) := by rw [hfst]

/-- A job on a text or Markdown file that returns, where the version had no chunks or loses them
first, has stored the words of the file. -/
theorem plain_text_stored {jobId : Nat} (hjob : tables.getJobById jobId = some job)
    (hrun : processJob services settings jobId tables = (.ok (),after)) {decode : ByteArray → String}
    {others : SourceType → ByteArray → String → Except String ParsedDocument}
    (hparse : services.parse = readers decode others) (hversionId : job.documentVersionId = some versionId)
    {document : Document} (hdocument : tables.getDocument job.documentId job.orgId = some document)
    (hplain : document.sourceType = .txt ∨ document.sourceType = .markdown) {version : DocumentVersion}
    (hversion : tables.getVersion versionId = some version) {raw : ByteArray}
    (hraw : services.blobGet version.blobPath = .ok raw)
    (hfresh : job.jobType = .reindex ∨ rows tables versionId = [])
    (hoverlap : 0 ≤ (chunkingConfig settings document tables).chunkOverlap) :
    Carries (decode raw) (chunkingConfig settings document tables) ((rows after versionId).map (·.content)) := by
  obtain ⟨versionId',chunks,embeddings,hprepared,hindex⟩ := ingest_ok (processJob_ok hjob hrun)
  obtain rfl := Option.some.inj (hversionId.symm.trans hprepared.version)
  have hbegun : job.jobType = .reindex ∨ rows (begun job tables) versionId = [] := hfresh
  rw [stored_contents hindex hbegun hprepared.indices_nodup]
  obtain ⟨-,-,⟨document',version',parsed,hdocument',hversion',hparsed,rfl⟩,-⟩ := hprepared
  obtain rfl := Option.some.inj (hdocument.symm.trans hdocument')
  obtain rfl := Option.some.inj (hversion.symm.trans hversion')
  have hread : readers decode others document.sourceType raw (version.filename.getD "document") = .ok parsed := by
    have hblob : parseBlob services document version =
        services.parse document.sourceType raw (version.filename.getD "document") := by
      unfold parseBlob
      rw [hraw]
      rfl
    rw [← hparse,← hblob]
    exact hparsed
  obtain ⟨htext,htype⟩ := readers_plain hplain hread
  have hrecursive : chunk parsed (chunkingConfig settings document tables) =
      chunkRecursive parsed (chunkingConfig settings document tables) := by
    unfold chunk
    rw [htype]
    rcases hplain with hplain | hplain <;> simp [hplain]
  have hcarries := chunkRecursive_carries parsed (chunkingConfig settings document tables) hoverlap
    fun c hc hspace => blank_normalizeText (htext ▸ hc) hspace
  rw [hrecursive]
  rw [htext] at hcarries
  constructor
  · rw [← splitWords_normalizeText]
    exact hcarries.whole
  · rw [← splitWords_normalizeText]
    exact hcarries.own
  · rw [← splitWords_normalizeText]
    exact hcarries.inOrder

end jobs

/-- What the decoding is on bytes below 128. -/
def ascii (content : ByteArray) : String := String.ofList (content.data.toList.map fun byte => Char.ofNat byte.toNat)

def returns : String := "Items may be sent back within thirty days.\n Please keep the receipt for it."

def twoLineServices : Services where
  blobGet _ := .ok ⟨(returns.toList.map fun c => c.toNat.toUInt8).toArray⟩
  parse := readers ascii fun _ _ _ => .error "Unsupported source type"
  embedBatch texts := .ok (texts.map fun _ => [1])
  sha256 text := text

/-- A text file that has been uploaded to a collection of small chunks, with its job. -/
def noted : Tables where
  collections := [{ id := 1, orgId := 1, chunkingConfig := { chunkSize := 64, chunkOverlap := 16 } }]
  documents := [{ id := 2, orgId := 1, collectionId := 1, title := "notes", sourceType := .txt, contentHash := "" }]
  versions := [{ id := 3, documentId := 2, versionNumber := 1, contentHash := "", blobPath := "1/2/v1/notes.txt" }]
  jobs := [{ id := 4, orgId := 1, documentId := 2, documentVersionId := some 3, jobType := .ingest }]
  nextId := 5

theorem noted_stored : ∃ after, processJob twoLineServices {} 4 noted = (.ok (),after) ∧ (rows after 3).length = 2 ∧
    Carries returns { chunkSize := 64, chunkOverlap := 16 } ((rows after 3).map (·.content)) := by
  have hrun : (processJob twoLineServices {} 4 noted).1 = .ok () ∧
      (rows (processJob twoLineServices {} 4 noted).2 3).length = 2 := by decide +kernel
  have hdecoded : ascii ⟨(returns.toList.map fun c => c.toNat.toUInt8).toArray⟩ = returns := by decide +kernel
  rcases hpair : processJob twoLineServices {} 4 noted with ⟨outcome,after⟩
  rw [hpair] at hrun
  obtain ⟨rfl,hlength⟩ := hrun
  have hraw : twoLineServices.blobGet "1/2/v1/notes.txt" =
      .ok ⟨(returns.toList.map fun c => c.toNat.toUInt8).toArray⟩ := rfl
  have hcarries := plain_text_stored rfl hpair rfl rfl rfl (.inl rfl) rfl hraw (.inr rfl) (by decide)
  rw [hdecoded] at hcarries
  exact ⟨after,rfl,hlength,hcarries⟩

end VoxForge.Knowledge
