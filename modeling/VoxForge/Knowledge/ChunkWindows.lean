import Mathlib.Data.List.Chain
import VoxForge.Knowledge.Chunking

/-! The windows of a text from which the chunks are cut. -/
namespace VoxForge.Knowledge
open Core

/-- A range of positions in a text. -/
structure Window where
  start : Nat
  stop : Nat
  deriving DecidableEq, Repr

def Window.has (w : Window) (i : Nat) : Prop := w.start ≤ i ∧ i < w.stop

/-- The ranges that the loop cuts, blank or not. -/
def windowsFrom (text : List Char) (size : Nat) (overlap : Int) (start : Nat) : List Window :=
  if start < text.length then
    let stop := chunkEnd text size start
    ⟨start,stop⟩ :: if stop ≥ text.length then []
      else windowsFrom text size overlap (max (stop - overlap).toNat (start + 1))
  else []
termination_by text.length - start

def Window.text (text : List Char) (w : Window) : List Char := (text.drop w.start).take (w.stop - w.start)

/-- What a chunk keeps of a window. -/
def Window.piece (text : List Char) (w : Window) : String := strip (String.ofList (w.text text))

def rawChunk (document : ParsedDocument) (content : String) (index : Nat) : RawChunk where
  content := content
  chunkIndex := index
  metadata := {
    chunkIndex := some index
    sourceType := some document.sourceType
    heading := document.headings.head? }
  tokenCount := tokenCount content.length

/-- The chunks are the pieces of the windows that are not blank, numbered in order. -/
theorem chunkFrom_eq (document : ParsedDocument) (text : List Char) (size : Nat) (overlap : Int) (start index : Nat) :
    chunkFrom document text size overlap start index =
      ((((windowsFrom text size overlap start).map (·.piece text)).filter (· ≠ "")).zipIdx index).map
        fun (content,i) => rawChunk document content i := by
  fun_induction chunkFrom document text size overlap start index with
  | case1 start index h stop content rest hcontent ih =>
    rw [windowsFrom,if_pos h]
    dsimp only
    have hpiece : (⟨start,stop⟩ : Window).piece text ≠ "" := hcontent
    rw [List.map_cons,List.filter_cons_of_pos (by simpa using hpiece),List.zipIdx_cons,List.map_cons]
    refine congrArg₂ List.cons rfl ?_
    unfold rest
    split
    · rfl
    · exact ih (index + 1)
  | case2 start index h stop content rest hcontent ih =>
    rw [windowsFrom,if_pos h]
    dsimp only
    have hpiece : ¬ (⟨start,stop⟩ : Window).piece text ≠ "" := hcontent
    rw [List.map_cons,List.filter_cons_of_neg (by simpa using hpiece)]
    unfold rest
    split
    · rfl
    · exact ih index
  | case3 start index h =>
    rw [windowsFrom,if_neg h]
    rfl

section windows
variable {text : List Char} {size overlap start : Nat}

theorem rfindSpace_lt {stop i : Nat} (h : rfindSpace text start stop = some i) : i < stop := by
  have hmem := List.mem_of_getLast? h
  have hrange := List.mem_range'_1.mp (List.mem_filter.mp hmem).1
  omega

/-- A window is not empty and not too long, and takes more than half of its size unless the text ends. -/
theorem chunkEnd_spec (hsize : 0 < size) (hstart : start < text.length) :
    start < chunkEnd text size start ∧ chunkEnd text size start ≤ text.length ∧
      chunkEnd text size start ≤ start + size ∧
      (chunkEnd text size start < text.length → start + size / 2 < chunkEnd text size start) := by
  unfold chunkEnd
  dsimp only
  split
  · next hlt =>
    split
    · next splitAt hfind =>
      have := rfindSpace_lt hfind
      split <;> omega
    · omega
  · omega

/-- The next window begins as far before the end of this one as the overlap says. -/
theorem next_start (hsize : 0 < size) (hoverlap : overlap ≤ size / 2) (hstart : start < text.length)
    (hmore : chunkEnd text size start < text.length) :
    max ((chunkEnd text size start : Int) - overlap).toNat (start + 1) = chunkEnd text size start - overlap := by
  obtain ⟨-,-,-,hhalf⟩ := chunkEnd_spec hsize hstart
  have := hhalf hmore
  omega

theorem windowsFrom_cons (size overlap : Nat) (hstart : start < text.length) :
    ∃ rest, windowsFrom text size overlap start = ⟨start,chunkEnd text size start⟩ :: rest := by
  rw [windowsFrom,if_pos hstart]
  exact ⟨_,rfl⟩

/-- Each window is inside the text and at most of the size. -/
theorem windowsFrom_short (hsize : 0 < size) {w : Window} (hw : w ∈ windowsFrom text size overlap start) :
    w.start < w.stop ∧ w.stop ≤ text.length ∧ w.stop - w.start ≤ size := by
  fun_induction windowsFrom text size overlap start with
  | case1 start h stop ih =>
    obtain ⟨hlt,hle,hlen,-⟩ := chunkEnd_spec hsize h
    rcases List.mem_cons.mp hw with rfl | hw
    · exact ⟨hlt,hle,Nat.sub_le_iff_le_add'.mpr hlen⟩
    · split at hw
      · cases hw
      · exact ih hw
  | case2 start h => cases hw

/-- A window goes on from another: it shares so many characters with it, and goes beyond it. -/
structure Window.Continues (overlap : Nat) (a b : Window) : Prop where
  starts : a.start < b.start
  shares : b.start + overlap = a.stop
  beyond : a.stop < b.stop

theorem windowsFrom_continue (hsize : 0 < size) (hoverlap : overlap ≤ size / 2) :
    (windowsFrom text size overlap start).IsChain (Window.Continues overlap) := by
  fun_induction windowsFrom text size overlap start with
  | case1 start h stop ih =>
    split
    · exact .singleton _
    · next hmore =>
      have hlt : stop < text.length := Nat.lt_of_not_le hmore
      have hnext : max ((stop : Int) - overlap).toNat (start + 1) = stop - overlap :=
        next_start hsize hoverlap h hlt
      have hhalf := (chunkEnd_spec hsize h).2.2.2 hlt
      have hstop : stop = chunkEnd text size start := rfl
      rw [hnext] at ih ⊢
      have hnext_lt : stop - overlap < text.length := by omega
      obtain ⟨rest,hrest⟩ := windowsFrom_cons size overlap hnext_lt
      rw [hrest] at ih ⊢
      refine .cons_cons ⟨?_,?_,?_⟩ ih
      · dsimp only
        omega
      · dsimp only
        omega
      · obtain ⟨-,-,-,hnext_half⟩ := chunkEnd_spec hsize hnext_lt
        dsimp only
        omega
  | case2 start h => exact .nil

theorem windowsFrom_cover (hsize : 0 < size) (hoverlap : overlap ≤ size / 2) {i : Nat} (hi : start ≤ i)
    (hlen : i < text.length) : ∃ w ∈ windowsFrom text size overlap start, w.has i := by
  fun_induction windowsFrom text size overlap start with
  | case1 start h stop ih =>
    by_cases hin : i < stop
    · exact ⟨_,List.mem_cons_self ..,hi,hin⟩
    · have hlt : stop < text.length := by omega
      have hnext : max ((stop : Int) - overlap).toNat (start + 1) = stop - overlap :=
        next_start hsize hoverlap h hlt
      rw [if_neg (Nat.not_le_of_lt hlt)]
      obtain ⟨w,hw,hhas⟩ := ih (by omega)
      exact ⟨w,List.mem_cons_of_mem _ hw,hhas⟩
  | case2 start h => omega

end windows

/-- Stripping takes white space off both ends. -/
theorem strip_between (s : String) : ∃ lead trail, s.toList = lead ++ (strip s).toList ++ trail ∧
    (∀ c ∈ lead, isSpace c = true) ∧ ∀ c ∈ trail, isSpace c = true := by
  refine ⟨s.toList.takeWhile isSpace,(s.toList.dropWhile isSpace).rtakeWhile isSpace,?_,
    fun c hc => List.mem_takeWhile_imp hc,fun c hc => List.mem_rtakeWhile_imp hc⟩
  rw [strip,String.toList_ofList,List.append_assoc,List.rdropWhile_append_rtakeWhile,
    List.takeWhile_append_dropWhile]

/-- What is at a position of a text is in the stripped text, unless it is white space. -/
theorem mem_strip_of_getElem? {s : String} {i : Nat} {c : Char} (h : s.toList[i]? = some c) (hc : isSpace c = false) :
    ∃ lead, lead ≤ i ∧ (strip s).toList[i - lead]? = some c := by
  obtain ⟨lead,trail,hs,hlead,htrail⟩ := strip_between s
  rw [hs,List.append_assoc] at h
  have hi : lead.length ≤ i := by
    by_contra hlt
    rw [List.getElem?_append_left (by omega)] at h
    simp [hlead c (List.mem_of_getElem? h)] at hc
  rw [List.getElem?_append_right hi] at h
  refine ⟨lead.length,hi,?_⟩
  by_cases hmid : i - lead.length < (strip s).toList.length
  · rw [List.getElem?_append_left hmid] at h
    exact h
  · rw [List.getElem?_append_right (by omega)] at h
    simp [htrail c (List.mem_of_getElem? h)] at hc

/-- The windows of a text: none is too long, each shares so many characters with the one before, and
every position is in one. -/
structure WindowLaw (length size overlap : Nat) (windows : List Window) : Prop where
  short : ∀ w ∈ windows, w.start < w.stop ∧ w.stop ≤ length ∧ w.stop - w.start ≤ size
  continued : windows.IsChain (Window.Continues overlap)
  covered : ∀ i < length, ∃ w ∈ windows, w.has i

/-- The chunks of a text: the windows without white space at the ends, those that are blank left out,
in order and numbered from 0; no character but white space is lost. -/
structure ChunkLaw (text : List Char) (windows : List Window) (chunks : List RawChunk) : Prop where
  contents : chunks.map (·.content) = (windows.map (·.piece text)).filter (· ≠ "")
  numbered : chunks.map (·.chunkIndex) = List.range chunks.length
  notBlank : ∀ chunk ∈ chunks, ∃ c ∈ chunk.content.toList, isSpace c = false
  kept : ∀ i c, text[i]? = some c → isSpace c = false →
    ∃ chunk ∈ chunks, ∃ w ∈ windows, w.has i ∧ chunk.content = w.piece text ∧
      ∃ lead, lead ≤ i - w.start ∧ chunk.content.toList[i - w.start - lead]? = some c

theorem getElem?_window {text : List Char} {w : Window} {i : Nat} (hw : w.has i) :
    (w.text text)[i - w.start]? = text[i]? := by
  obtain ⟨hstart,hstop⟩ := hw
  unfold Window.text
  rw [List.getElem?_take,if_pos (by omega),List.getElem?_drop]
  congr 1
  omega

theorem chunkFrom_contents (document : ParsedDocument) (text : List Char) (size : Nat) (overlap : Int) :
    (chunkFrom document text size overlap 0 0).map (·.content) =
      ((windowsFrom text size overlap 0).map (·.piece text)).filter (· ≠ "") := by
  rw [chunkFrom_eq,List.map_map]
  exact List.zipIdx_map_fst ..

theorem chunkFrom_law (document : ParsedDocument) (text : List Char) {size overlap : Nat} (hsize : 0 < size)
    (hoverlap : overlap ≤ size / 2) :
    ChunkLaw text (windowsFrom text size overlap 0) (chunkFrom document text size overlap 0 0) where
  contents := chunkFrom_contents ..
  numbered := by
    rw [chunkFrom_indices,List.range_eq_range']
  notBlank := by
    intro chunk hchunk
    have hcontent := List.mem_map_of_mem (f := (·.content)) hchunk
    rw [chunkFrom_contents] at hcontent
    obtain ⟨hpiece,hne⟩ := List.mem_filter.mp hcontent
    obtain ⟨w,-,hw⟩ := List.mem_map.mp hpiece
    by_contra hblank
    refine of_decide_eq_true hne ?_
    rw [← hw,Window.piece,← strip_strip,strip_eq_empty_iff]
    intro c hc
    by_contra hspace
    exact hblank ⟨c,by rw [← hw]; exact hc,by simpa using hspace⟩
  kept := by
    intro i c hi hc
    have hlt : i < text.length := (List.getElem?_eq_some_iff.mp hi).1
    obtain ⟨w,hw,hhas⟩ := windowsFrom_cover hsize hoverlap (Nat.zero_le i) hlt
    have hin : (String.ofList (w.text text)).toList[i - w.start]? = some c := by
      rw [String.toList_ofList,getElem?_window hhas,hi]
    obtain ⟨lead,hlead,hget⟩ := mem_strip_of_getElem? hin hc
    have hpiece : w.piece text ≠ "" := by
      intro hempty
      rw [Window.piece] at hempty
      rw [hempty] at hget
      cases hget
    have hcontent : w.piece text ∈ (chunkFrom document text size overlap 0 0).map (·.content) := by
      rw [chunkFrom_contents]
      exact List.mem_filter.mpr ⟨List.mem_map_of_mem hw,decide_eq_true hpiece⟩
    obtain ⟨chunk,hchunk,heq⟩ := List.mem_map.mp hcontent
    exact ⟨chunk,hchunk,w,hw,hhas,heq,lead,hlead,heq ▸ hget⟩

/-- The windows of `_chunk_recursive`. -/
def windows (document : ParsedDocument) (config : ChunkingConfig) : List Window :=
  let size := (max config.chunkSize 64).toNat
  let overlap := min config.chunkOverlap (size / 2 : Nat)
  windowsFrom document.text.toList size overlap 0

/-- Every text is covered by its windows, and its chunks keep all of it but white space. -/
theorem chunkRecursive_covers (document : ParsedDocument) (config : ChunkingConfig) (hoverlap : 0 ≤ config.chunkOverlap) :
    WindowLaw document.text.toList.length (max config.chunkSize 64).toNat
        (min config.chunkOverlap.toNat ((max config.chunkSize 64).toNat / 2)) (windows document config) ∧
      ChunkLaw document.text.toList (windows document config) (chunkRecursive document config) := by
  have hsize : 0 < (max config.chunkSize 64).toNat := by omega
  have hcast : min config.chunkOverlap ((max config.chunkSize 64).toNat / 2 : Nat) =
      (min config.chunkOverlap.toNat ((max config.chunkSize 64).toNat / 2) : Nat) := by omega
  unfold windows chunkRecursive
  dsimp only
  rw [hcast]
  generalize hchosen : min config.chunkOverlap.toNat ((max config.chunkSize 64).toNat / 2) = overlap
  have hhalf : overlap ≤ (max config.chunkSize 64).toNat / 2 := hchosen ▸ Nat.min_le_right ..
  exact ⟨⟨fun w hw => windowsFrom_short hsize hw,windowsFrom_continue hsize hhalf,
    fun i hi => windowsFrom_cover hsize hhalf (Nat.zero_le i) hi⟩,chunkFrom_law document _ hsize hhalf⟩

/-- A text of two windows, of which the second takes up the end of the first. -/
theorem chunkRecursive_covers_default :
    let document : ParsedDocument := {
      title := "Returns"
      text := "Items may be sent back within thirty days. Please keep the receipt for it."
      sourceType := .txt }
    let config : ChunkingConfig := { chunkSize := 64, chunkOverlap := 16 }
    WindowLaw document.text.toList.length 64 16 (windows document config) ∧
      ChunkLaw document.text.toList (windows document config) (chunkRecursive document config) ∧
      (windows document config).length = 2 := by
  intro document config
  obtain ⟨hwindows,hchunks⟩ := chunkRecursive_covers document config (by decide)
  have hsize : (max config.chunkSize 64).toNat = 64 := by decide
  have hoverlap : min config.chunkOverlap.toNat (64 / 2) = 16 := by decide
  rw [hsize,hoverlap] at hwindows
  exact ⟨hwindows,hchunks,by decide +kernel⟩

end VoxForge.Knowledge
