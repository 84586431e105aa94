import Mathlib.Algebra.Order.BigOperators.Group.Finset
import VoxForge.Foundation.Blocks
import VoxForge.Knowledge.CsvParser
import VoxForge.Knowledge.JoinedText

/-! Which tables come out of the chunker with their rows whole. -/
namespace VoxForge.Knowledge
open Foundation Core

def rowsPer (config : ChunkingConfig) : Nat := (max config.rowsPerChunk 1).toNat

theorem rowsPer_pos (config : ChunkingConfig) : 0 < rowsPer config := by
  unfold rowsPer
  omega

/-- The text of some rows, after the header if chunks have it. -/
def chunkText (includeHeader : Bool) (header : String) (rows : List String) : String :=
  if includeHeader then header ++ "\n" ++ "\n".intercalate rows else "\n".intercalate rows

theorem length_chunkText (includeHeader : Bool) (header : String) (rows : List String) :
    (chunkText includeHeader header rows).length =
      (if includeHeader then header.length else 0) +
        ((if includeHeader then 1 else 0) + ((rows.map String.length).sum + (rows.length - 1))) := by
  have hnewline : "\n".length = 1 := rfl
  cases includeHeader with
  | false =>
    rw [chunkText,if_neg Bool.false_ne_true,length_joined]
    simp
  | true =>
    rw [chunkText,if_pos rfl,String.length_append,String.length_append,length_joined,hnewline,if_pos rfl,if_pos rfl]
    omega

theorem chunkText_congr {includeHeader : Bool} {header line : String} (h : includeHeader = true → line = header)
    (rows : List String) : chunkText includeHeader line rows = chunkText includeHeader header rows := by
  unfold chunkText
  split
  · next hincluded => rw [h hincluded]
  · rfl

def RawChunk.rowNumbers (chunk : RawChunk) : List Nat :=
  match chunk.metadata.rowStart,chunk.metadata.rowEnd with
  | some rowStart,some rowEnd => List.range' rowStart (rowEnd + 1 - rowStart)
  | _,_ => []

/-- Each row is in one chunk, in order, and a chunk is just its rows, not too many of them, after the
header if chunks have it. -/
structure RowsKept (config : ChunkingConfig) (header : String) (rows : List String) (chunks : List RawChunk) : Prop where
  partitioned : chunks.flatMap (·.rowNumbers) = List.range' 1 rows.length
  whole : ∀ chunk ∈ chunks, ∃ rowStart rowEnd, chunk.metadata.rowStart = some rowStart ∧
    chunk.metadata.rowEnd = some rowEnd ∧ 1 ≤ rowStart ∧ rowStart ≤ rowEnd ∧ rowEnd < rowStart + rowsPer config ∧
    chunk.content = chunkText config.includeHeader header (slice rows (rowStart - 1) rowEnd)

/-- A table that is still one row a line when its text is cut into lines: no cell has a break, and no
chunk begins or ends with white space. -/
structure Intact (config : ChunkingConfig) (header : String) (rows : List String) : Prop where
  head : if config.includeHeader then breakFree header.toList = true
    else (splitLines [] (header.toList ++ ['\n'])).length = 1
  cells : ∀ row ∈ rows, breakFree row.toList = true
  last : rows.getLast? ≠ some ""
  stripped : ∀ k < blockCount (rowsPer config) rows.length,
    strip (chunkText config.includeHeader header (block (rowsPer config) rows k)) =
      chunkText config.includeHeader header (block (rowsPer config) rows k)

/-- Rows without any text, each in a chunk of its own: a second line of the header that is blank takes the
place of the first of them. -/
structure AllBlank (config : ChunkingConfig) (header : String) (rows : List String) : Prop where
  excluded : config.includeHeader = false
  head : ∃ first second, splitLines [] (header.toList ++ ['\n']) = [first,second] ∧ second.all isSpace = true
  cells : ∀ row ∈ rows, row = ""
  single : rows.length = 1 ∨ rowsPer config = 1

/-- The tables that the chunker keeps. -/
def RowsSurvive (config : ChunkingConfig) (header : String) (rows : List String) : Prop :=
  rows = [] ∧ (splitLines [] header.toList).length ≤ 1 ∨
    rows ≠ [] ∧ (Intact config header rows ∨ AllBlank config header rows)

/-- There are as many lines as rows, and each block of lines reads as the rows. -/
structure BlocksRead (config : ChunkingConfig) (header line : String) (rows dataLines : List String) : Prop where
  length : dataLines.length = rows.length
  blocks : ∀ k < blockCount (rowsPer config) rows.length,
    strip (chunkText config.includeHeader line (block (rowsPer config) dataLines k)) =
      chunkText config.includeHeader header (block (rowsPer config) rows k)

/-- One chunk of `_chunk_csv`. -/
def csvChunk (config : ChunkingConfig) (header : String) (dataLines : List String) (index : Nat) : RawChunk :=
  let rowStart := index * rowsPer config + 1
  let rowEnd := min (index * rowsPer config + rowsPer config) dataLines.length
  let content := chunkText config.includeHeader header (block (rowsPer config) dataLines index)
  { content := strip content
    chunkIndex := index
    metadata := {
      chunkIndex := some index
      sourceType := some .csv
      heading := some ("rows " ++ toString rowStart ++ "-" ++ toString rowEnd)
      rowStart := some rowStart
      rowEnd := some rowEnd }
    tokenCount := tokenCount content.length }

section chunks
variable {config : ChunkingConfig} {header line : String} {rows dataLines : List String}

theorem chunkCsv_eq {document : ParsedDocument}
    (hlines : (splitLines [] document.text.toList).map String.ofList = line :: dataLines) :
    chunkCsv document config =
      (List.range (blockCount (rowsPer config) dataLines.length)).map (csvChunk config line dataLines) := by
  rw [chunkCsv,hlines]
  rfl

theorem rowNumbers_csvChunk (k : Nat) :
    (csvChunk config line dataLines k).rowNumbers = block (rowsPer config) (List.range' 1 dataLines.length) k := by
  have hlast : min (k * rowsPer config + rowsPer config) dataLines.length + 1 - (k * rowsPer config + 1) =
      min (rowsPer config) (dataLines.length - k * rowsPer config) := by omega
  rw [block_range',← hlast]
  rfl

theorem flatMap_rowNumbers :
    ((List.range (blockCount (rowsPer config) dataLines.length)).map (csvChunk config line dataLines)).flatMap
      (·.rowNumbers) = List.range' 1 dataLines.length := by
  have hall := flatMap_block (rowsPer config) (blockCount (rowsPer config) dataLines.length)
    (List.range' 1 dataLines.length)
  rw [take_blockCount (rowsPer_pos config) (List.length_range' ..)] at hall
  rw [List.flatMap_map,← hall]
  exact congrArg (List.flatMap · _) (funext rowNumbers_csvChunk)

/-- The rows that a chunk says it holds are a block. -/
theorem slice_rows (k : Nat) (hlength : dataLines.length = rows.length) :
    slice rows (k * rowsPer config + 1 - 1) (min (k * rowsPer config + rowsPer config) dataLines.length) =
      block (rowsPer config) rows k := by
  rw [slice,block,Nat.add_sub_cancel,List.take_eq_take_iff,List.length_drop]
  omega

theorem rowsKept_iff :
    RowsKept config header rows
        ((List.range (blockCount (rowsPer config) dataLines.length)).map (csvChunk config line dataLines)) ↔
      BlocksRead config header line rows dataLines := by
  have hpos := rowsPer_pos config
  constructor
  · intro h
    have hlength : dataLines.length = rows.length := by
      have := congrArg List.length (flatMap_rowNumbers.symm.trans h.partitioned)
      rwa [List.length_range',List.length_range'] at this
    refine ⟨hlength,fun k hk => ?_⟩
    obtain ⟨rowStart,rowEnd,hstart,hend,-,-,-,hcontent⟩ :=
      h.whole _ (List.mem_map_of_mem (List.mem_range.mpr (hlength ▸ hk)))
    obtain rfl := Option.some.inj hstart
    obtain rfl := Option.some.inj hend
    rw [slice_rows k hlength] at hcontent
    exact hcontent
  · rintro ⟨hlength,hblocks⟩
    refine ⟨by rw [flatMap_rowNumbers,hlength],fun chunk hchunk => ?_⟩
    obtain ⟨k,hk,rfl⟩ := List.mem_map.mp hchunk
    rw [List.mem_range] at hk
    have hinside := (lt_blockCount_iff hpos).mp hk
    refine ⟨_,_,rfl,rfl,Nat.le_add_left ..,?_,?_,?_⟩
    · omega
    · omega
    · rw [slice_rows k hlength]
      exact hblocks k (hlength ▸ hk)

/-- Taking white space off the chunks, no block gains characters; so neither do all lines. -/
theorem BlocksRead.length_le (h : BlocksRead config header line rows dataLines) :
    blockCount (rowsPer config) rows.length * (if config.includeHeader then header.length else 0) +
        (rows.map String.length).sum ≤
      blockCount (rowsPer config) rows.length * (if config.includeHeader then line.length else 0) +
        (dataLines.map String.length).sum := by
  have hpos := rowsPer_pos config
  have hblock : ∀ k ∈ Finset.range (blockCount (rowsPer config) rows.length),
      (if config.includeHeader then header.length else 0) + ((block (rowsPer config) rows k).map String.length).sum ≤
        (if config.includeHeader then line.length else 0) +
          ((block (rowsPer config) dataLines k).map String.length).sum := by
    intro k hk
    have hle := length_strip_le (chunkText config.includeHeader line (block (rowsPer config) dataLines k))
    rw [h.blocks k (Finset.mem_range.mp hk),length_chunkText,length_chunkText,length_block,length_block,h.length] at hle
    omega
  have hsum := Finset.sum_le_sum hblock
  rw [Finset.sum_add_distrib,Finset.sum_add_distrib,Finset.sum_const_nat fun _ _ => rfl,
    Finset.sum_const_nat fun _ _ => rfl,Finset.card_range,← sum_take_block,← sum_take_block,take_blockCount hpos rfl,
    take_blockCount hpos h.length] at hsum
  exact hsum

/-- Up to the end of any block, lines and rows hold the same amount of text but white space. -/
theorem BlocksRead.seen_eq (h : BlocksRead config header line rows dataLines) (hheader : config.includeHeader = false)
    {m : Nat} (hm : m ≤ blockCount (rowsPer config) rows.length) :
    ((dataLines.take (m * rowsPer config)).map seen).sum = ((rows.take (m * rowsPer config)).map seen).sum := by
  rw [sum_take_block,sum_take_block]
  refine Finset.sum_congr rfl fun k hk => ?_
  have hread := h.blocks k (Nat.lt_of_lt_of_le (Finset.mem_range.mp hk) hm)
  rw [hheader] at hread
  rw [← seen_joined,← seen_joined]
  calc
    seen ("\n".intercalate (block (rowsPer config) dataLines k)) =
        seen (strip ("\n".intercalate (block (rowsPer config) dataLines k))) := by rw [seen,seen,visible_strip]
    _ = seen ("\n".intercalate (block (rowsPer config) rows k)) := congrArg seen hread

end chunks

/-! The lines of a table whose rows have no breaks -/

section lines
variable {config : ChunkingConfig} {header : String} {rows : List String}

/-- Rows without breaks are the lines of their text, but for a last one that is empty. -/
theorem splitLines_rows {front : List String} {last : String} (h : ∀ row ∈ front ++ [last], breakFree row.toList = true) :
    splitLines [] (['\n'].intercalate ((front ++ [last]).map String.toList)) =
      front.map String.toList ++ if last = "" then [] else [last.toList] := by
  have hfront : ∀ row ∈ front.map String.toList, breakFree row = true := by
    intro row hrow
    obtain ⟨s,hs,rfl⟩ := List.mem_map.mp hrow
    exact h s (List.mem_append_left _ hs)
  rw [List.map_append,List.map_singleton,splitLines_intercalate,rowLines_of_breakFree hfront,
    splitLines_of_breakFree (h last (List.mem_append_right _ (List.mem_singleton_self _)))]
  simp

/-- A table of single lines is cut into its rows. -/
theorem lines_eq_rows (hne : rows ≠ []) (hcells : ∀ row ∈ rows, breakFree row.toList = true)
    (hlast : rows.getLast? ≠ some "") {first : List Char} (hhead : splitLines [] (header.toList ++ ['\n']) = [first]) :
    (splitLines [] ("\n".intercalate (header :: rows)).toList).map String.ofList = String.ofList first :: rows := by
  obtain ⟨front,last,rfl⟩ := (List.eq_nil_or_concat' rows).resolve_left hne
  have hfull : last ≠ "" := by simpa using hlast
  rw [splitLines_joined header hne,hhead,splitLines_rows hcells,if_neg hfull]
  simp

theorem Intact.head_line (h : Intact config header rows) :
    ∃ first, splitLines [] (header.toList ++ ['\n']) = [first] ∧
      (config.includeHeader = true → String.ofList first = header) := by
  have hhead := h.head
  split at hhead
  · exact ⟨_,splitLines_newline_of_breakFree hhead,fun _ => by simp⟩
  · next hexcluded =>
    obtain ⟨first,hfirst⟩ := List.length_eq_one_iff.mp hhead
    exact ⟨first,hfirst,fun hincluded => absurd hincluded hexcluded⟩

theorem Intact.blocksRead (h : Intact config header rows) {line : String}
    (hline : config.includeHeader = true → line = header) : BlocksRead config header line rows rows where
  length := rfl
  blocks k hk := by
    rw [chunkText_congr hline]
    exact h.stripped k hk

/-- Where there is one row, or one row a chunk, each block is one element. -/
theorem single_block {k : Nat} (hsingle : rows.length = 1 ∨ rowsPer config = 1)
    (hk : k < blockCount (rowsPer config) rows.length) {l : List String} (hl : l.length = rows.length) :
    ∃ s ∈ l, block (rowsPer config) l k = [s] := by
  have hpos := rowsPer_pos config
  have hinside := (lt_blockCount_iff hpos).mp hk
  have hone : (block (rowsPer config) l k).length = 1 := by
    rw [length_block,hl]
    rcases hsingle with h | h
    · rw [h] at hinside ⊢
      omega
    · rw [h] at hinside ⊢
      omega
  obtain ⟨s,hs⟩ := List.length_eq_one_iff.mp hone
  exact ⟨s,mem_of_mem_block (hs ▸ List.mem_singleton_self s),hs⟩

theorem AllBlank.blocksRead (h : AllBlank config header rows) {line : String} {dataLines : List String}
    (hlength : dataLines.length = rows.length) (hblank : ∀ s ∈ dataLines, strip s = "") :
    BlocksRead config header line rows dataLines where
  length := hlength
  blocks k hk := by
    obtain ⟨s,hs,hlines⟩ := single_block h.single hk hlength
    obtain ⟨row,hrow,hrows⟩ := single_block h.single hk rfl
    rw [h.excluded,hlines,hrows,h.cells row hrow]
    exact hblank s hs

/-- The lines of a table of empty rows: those of the header, and an empty one for each row but the last. -/
theorem AllBlank.lines (h : AllBlank config header rows) (hne : rows ≠ []) :
    ∃ line dataLines, (splitLines [] ("\n".intercalate (header :: rows)).toList).map String.ofList = line :: dataLines ∧
      dataLines.length = rows.length ∧ ∀ s ∈ dataLines, strip s = "" := by
  obtain ⟨front,last,rfl⟩ := (List.eq_nil_or_concat' rows).resolve_left hne
  obtain ⟨first,second,hhead,hblank⟩ := h.head
  have hlast : last = "" := h.cells last (List.mem_append_right _ (List.mem_singleton_self _))
  have hcells : ∀ row ∈ front ++ [last], breakFree row.toList = true := by
    intro row hrow
    rw [h.cells row hrow]
    rfl
  refine ⟨String.ofList first,String.ofList second :: front,?_,by simp,?_⟩
  · rw [splitLines_joined header hne,hhead,splitLines_rows hcells,if_pos hlast]
    simp
  · refine List.forall_mem_cons.mpr ⟨?_,fun s hs => ?_⟩
    · rw [strip_eq_empty_iff,String.toList_ofList]
      exact List.all_eq_true.mp hblank
    · rw [h.cells s (List.mem_append_left _ hs)]
      rfl

end lines

/-! Lines that are read as the rows, taken apart -/

section necessity
variable {config : ChunkingConfig} {header : String} {rows : List String} {first : List Char} {more : List (List Char)}

/-- The lines of the text of some rows. -/
def bodyLines (rows : List String) : List (List Char) := splitLines [] (['\n'].intercalate (rows.map String.toList))

theorem breakFree_of_length {text : List Char} (h : text.length ≤ (text.filter (!isLineBreak ·)).length) :
    breakFree text = true := by
  have hall := List.length_filter_eq_length_iff.mp (Nat.le_antisymm (List.length_filter_le ..) h)
  exact List.all_eq_true.mpr hall

theorem sum_length_ofList (l : List (List Char)) : ((l.map String.ofList).map String.length).sum = l.flatten.length := by
  rw [List.length_flatten,List.map_map]
  congr 2
  exact funext fun s => String.length_ofList

/-- Lines hold the characters of header and rows but for the breaks. -/
theorem length_lines (rows : List String) (hhead : splitLines [] (header.toList ++ ['\n']) = first :: more) :
    first.length + more.flatten.length = (header.toList.filter (!isLineBreak ·)).length ∧
      (bodyLines rows).flatten.length = ((rows.map String.toList).flatten.filter (!isLineBreak ·)).length := by
  have hheader := congrArg List.length (flatten_splitLines [] (header.toList ++ ['\n']))
  have hbody := congrArg List.length (flatten_splitLines [] (['\n'].intercalate (rows.map String.toList)))
  have hnewline : ['\n'].filter (!isLineBreak ·) = [] := rfl
  rw [hhead,List.flatten_cons,List.length_append,List.nil_append,List.filter_append,hnewline,List.append_nil] at hheader
  rw [List.nil_append,filter_intercalate] at hbody
  exact ⟨hheader,hbody⟩

/-- If the header stands in each chunk, or is one line, then no row loses a character. -/
theorem BlocksRead.length_filter (hne : rows ≠ []) (hhead : splitLines [] (header.toList ++ ['\n']) = first :: more)
    (h : BlocksRead config header (String.ofList first) rows ((more ++ bodyLines rows).map String.ofList))
    (hcase : config.includeHeader = true ∨ more = []) :
    (rows.map String.toList).flatten.length ≤ ((rows.map String.toList).flatten.filter (!isLineBreak ·)).length ∧
      (config.includeHeader = true → header.toList.length ≤ (header.toList.filter (!isLineBreak ·)).length) := by
  have hle := h.length_le
  have hrows : (rows.map String.length).sum = (rows.map String.toList).flatten.length := by
    rw [List.length_flatten,List.map_map]
    rfl
  obtain ⟨hheader,hbody⟩ := length_lines rows hhead
  rw [hrows,sum_length_ofList,List.flatten_append,List.length_append,hbody,String.length_ofList,
    ← String.length_toList] at hle
  have hheader_le := List.length_filter_le (!isLineBreak ·) header.toList
  have hrows_le := List.length_filter_le (!isLineBreak ·) (rows.map String.toList).flatten
  by_cases hincluded : config.includeHeader = true
  · -- a header that loses characters loses them in each of the chunks
    have hblocks : 0 < blockCount (rowsPer config) rows.length :=
      (lt_blockCount_iff (rowsPer_pos config)).mpr (by rw [Nat.zero_mul]; exact List.length_pos_of_ne_nil hne)
    obtain ⟨m,hm⟩ := Nat.exists_eq_add_of_lt hblocks
    rw [if_pos hincluded,if_pos hincluded,hm,Nat.zero_add,Nat.add_one_mul,Nat.add_one_mul] at hle
    have hless : m * first.length ≤ m * header.toList.length := Nat.mul_le_mul_left m (by omega)
    omega
  · rw [hcase.resolve_left hincluded,List.flatten_nil,List.length_nil] at hle
    rw [if_neg hincluded,if_neg hincluded] at hle
    exact ⟨by omega,fun h => absurd h hincluded⟩

theorem BlocksRead.cells (hne : rows ≠ []) (hhead : splitLines [] (header.toList ++ ['\n']) = first :: more)
    (h : BlocksRead config header (String.ofList first) rows ((more ++ bodyLines rows).map String.ofList))
    (hcase : config.includeHeader = true ∨ more = []) :
    (config.includeHeader = true → breakFree header.toList = true) ∧ ∀ row ∈ rows, breakFree row.toList = true := by
  obtain ⟨hrows,hheader⟩ := h.length_filter hne hhead hcase
  refine ⟨fun hincluded => breakFree_of_length (hheader hincluded),fun row hrow => ?_⟩
  have hall := breakFree_iff.mp (breakFree_of_length hrows)
  exact breakFree_iff.mpr fun c hc => hall c (List.mem_flatten_of_mem (List.mem_map_of_mem hrow) hc)

theorem BlocksRead.intact (hne : rows ≠ []) (hhead : splitLines [] (header.toList ++ ['\n']) = first :: more)
    (h : BlocksRead config header (String.ofList first) rows ((more ++ bodyLines rows).map String.ofList))
    (hcase : config.includeHeader = true ∨ more = []) : Intact config header rows := by
  obtain ⟨hheader,hcells⟩ := h.cells hne hhead hcase
  have hone : splitLines [] (header.toList ++ ['\n']) = [first] ∧
      (config.includeHeader = true → String.ofList first = header) := by
    rcases hcase with hincluded | rfl
    · rw [splitLines_newline_of_breakFree (hheader hincluded)] at hhead ⊢
      obtain ⟨hfirst,-⟩ := List.cons.inj hhead
      rw [← hfirst]
      exact ⟨rfl,fun _ => by simp⟩
    · refine ⟨hhead,fun hincluded => ?_⟩
      rw [splitLines_newline_of_breakFree (hheader hincluded)] at hhead
      rw [← (List.cons.inj hhead).1]
      simp
  obtain ⟨front,last,rfl⟩ := (List.eq_nil_or_concat' rows).resolve_left hne
  have hmore : more = [] := by
    rw [hhead] at hone
    exact (List.cons.inj hone.1).2
  have hlength := h.length
  rw [hmore,bodyLines,splitLines_rows hcells] at hlength
  have hlast : last ≠ "" := by
    rintro rfl
    simp at hlength
  have hlines : (more ++ bodyLines (front ++ [last])).map String.ofList = front ++ [last] := by
    rw [hmore,bodyLines,splitLines_rows hcells,if_neg hlast]
    simp
  rw [hlines] at h
  refine ⟨?_,hcells,by simpa using hlast,fun k hk => ?_⟩
  · split
    · next hincluded => exact hheader hincluded
    · rw [hone.1]
      rfl
  · have hread := h.blocks k hk
    rwa [chunkText_congr hone.2] at hread

/-- In lists that are shifted by one place, with a zero before the one and after the other, all partial sums
that agree have a zero at their end. -/
theorem shifted_zero {weights : List Nat} {i : Nat} (hi : i ≤ weights.length)
    (h : ((0 :: weights).take (i + 1)).sum = ((weights ++ [0]).take (i + 1)).sum) : (weights ++ [0])[i]? = some 0 := by
  have hlt : i < (weights ++ [0]).length := by
    rw [List.length_append,List.length_singleton]
    omega
  rw [List.take_succ_cons,List.sum_cons,Nat.zero_add,List.take_add_one,List.getElem?_eq_getElem hlt,
    List.take_append_of_le_length hi,List.sum_append] at h
  rw [List.getElem?_eq_getElem hlt]
  simpa using h

/-- Where the header has more lines than one, it has two, each row is one line, and the last row is empty. -/
theorem second_line {front : List String} {last : String} (hmore : more ≠ [])
    (hlength : (more ++ bodyLines (front ++ [last])).length = (front ++ [last]).length) :
    ∃ second, more = [second] ∧ last = "" ∧
      ((more ++ bodyLines (front ++ [last])).map String.ofList).map seen = seen (String.ofList second) :: front.map seen := by
  have hbody : bodyLines (front ++ [last]) = rowLines (front.map String.toList) ++ splitLines [] last.toList := by
    rw [bodyLines,List.map_append,List.map_singleton,splitLines_intercalate]
  have hfront := length_le_rowLines (front.map String.toList)
  have hpos := List.length_pos_of_ne_nil hmore
  rw [hbody,List.length_append,List.length_append,List.length_append,List.length_singleton] at hlength
  rw [List.length_map] at hfront
  obtain ⟨second,hsecond⟩ := List.length_eq_one_iff.mp (show more.length = 1 by omega)
  have hnone : splitLines [] last.toList = [] := List.length_eq_zero_iff.mp (by omega)
  have hlast : last.toList = [] := (splitLines_eq_nil_iff.mp hnone).2
  have hvisible := rowLines_visible (front.map String.toList) (by rw [List.length_map]; omega)
  refine ⟨second,hsecond,String.toList_eq_nil_iff.mp hlast,?_⟩
  have hseen : ((rowLines (front.map String.toList)).map String.ofList).map seen = front.map seen := by
    have := congrArg (List.map List.length) hvisible
    rw [List.map_map,List.map_map,List.map_map] at this
    rw [List.map_map]
    refine Eq.trans ?_ this
    exact List.map_congr_left fun s _ => by simp [seen]
  rw [hbody,hnone,hsecond,List.append_nil,List.map_append,List.map_append,hseen]
  rfl

section blank
variable {dataLines : List String} {line : String}

/-- A block of rows is not changed by taking white space off its ends. -/
theorem BlocksRead.fixed (h : BlocksRead config header line rows dataLines) (hexcluded : config.includeHeader = false)
    {k : Nat} (hk : k < blockCount (rowsPer config) rows.length) :
    strip ("\n".intercalate (block (rowsPer config) rows k)) = "\n".intercalate (block (rowsPer config) rows k) := by
  have hread := h.blocks k hk
  rw [hexcluded] at hread
  have htext : "\n".intercalate (block (rowsPer config) rows k) =
      strip ("\n".intercalate (block (rowsPer config) dataLines k)) := hread.symm
  rw [htext,strip_strip]

/-- Where the lines are shifted by one, a whole block is one empty row. -/
theorem BlocksRead.whole_block (h : BlocksRead config header line rows dataLines) (hexcluded : config.includeHeader = false)
    {weights : List Nat} (hlines : dataLines.map seen = 0 :: weights) (hrows : rows.map seen = weights ++ [0])
    {k : Nat} (hk : (k + 1) * rowsPer config ≤ rows.length) : block (rowsPer config) rows k = [""] := by
  have hpos := rowsPer_pos config
  have hmul := Nat.add_one_mul k (rowsPer config)
  have hcount : k < blockCount (rowsPer config) rows.length := (lt_blockCount_iff hpos).mpr (by omega)
  obtain ⟨i,hi⟩ : ∃ i, (k + 1) * rowsPer config = i + 1 := ⟨(k + 1) * rowsPer config - 1,by omega⟩
  have hsums := h.seen_eq hexcluded hcount
  rw [List.map_take,List.map_take,hlines,hrows,Nat.succ_eq_add_one,hi] at hsums
  have hlength := congrArg List.length hrows
  rw [List.length_map,List.length_append,List.length_singleton] at hlength
  have hzero := shifted_zero (by omega) hsums
  rw [← hrows,List.getElem?_map] at hzero
  obtain ⟨row,hrow,hblank⟩ := Option.map_eq_some_iff.mp hzero
  have hwhole : (block (rowsPer config) rows k).length = rowsPer config := by
    rw [length_block]
    omega
  have hlast : (block (rowsPer config) rows k).getLast? = some row := by
    rw [List.getLast?_eq_getElem?,hwhole,getElem?_block (by omega),← hrow]
    congr 1
    omega
  exact joined_eq_blank (h.fixed hexcluded hcount) hlast (seen_eq_zero_iff.mp hblank)

theorem BlocksRead.single (h : BlocksRead config header line rows dataLines) (hexcluded : config.includeHeader = false)
    (hne : rows ≠ []) (hlast : rows.getLast? = some "") {weights : List Nat} (hlines : dataLines.map seen = 0 :: weights)
    (hrows : rows.map seen = weights ++ [0]) : rows.length = 1 ∨ rowsPer config = 1 := by
  by_cases hshort : rows.length < rowsPer config
  · have hfirst : block (rowsPer config) rows 0 = rows := by
      rw [block,Nat.zero_mul,List.drop_zero,List.take_of_length_le (Nat.le_of_lt hshort)]
    have hcount : 0 < blockCount (rowsPer config) rows.length :=
      (lt_blockCount_iff (rowsPer_pos config)).mpr (by rw [Nat.zero_mul]; exact List.length_pos_of_ne_nil hne)
    have hfixed := h.fixed hexcluded hcount
    rw [hfirst] at hfixed
    have hone := joined_eq_blank hfixed hlast rfl
    exact .inl (congrArg List.length hone)
  · have hone := h.whole_block hexcluded hlines hrows (k := 0) (by omega)
    have hlength := congrArg List.length hone
    rw [length_block,List.length_singleton] at hlength
    exact .inr (by omega)

end blank

/-- Otherwise the header's second line takes the place of the last row, and all rows are empty. -/
theorem BlocksRead.allBlank (hne : rows ≠ []) (hhead : splitLines [] (header.toList ++ ['\n']) = first :: more)
    (h : BlocksRead config header (String.ofList first) rows ((more ++ bodyLines rows).map String.ofList))
    (hexcluded : config.includeHeader = false) (hmore : more ≠ []) : AllBlank config header rows := by
  obtain ⟨front,last,rfl⟩ := (List.eq_nil_or_concat' rows).resolve_left hne
  have hlength := h.length
  rw [List.length_map] at hlength
  obtain ⟨second,hsecond,hlast,hlines⟩ := second_line hmore hlength
  have hpos := rowsPer_pos config
  have hrows : (front ++ [last]).map seen = front.map seen ++ [0] := by
    rw [hlast,List.map_append]
    rfl
  -- all lines and all rows hold the same amount of text, so the second line holds none
  have hblank : seen (String.ofList second) = 0 := by
    have hsums := h.seen_eq hexcluded (Nat.le_refl _)
    rw [take_blockCount hpos rfl,take_blockCount hpos h.length,hlines,hrows,List.sum_cons,List.sum_append] at hsums
    simpa using hsums
  rw [hblank] at hlines
  have hsingle := h.single hexcluded hne (by simp [hlast]) hlines hrows
  refine ⟨hexcluded,⟨first,second,by rw [hhead,hsecond],?_⟩,fun row hrow => ?_,hsingle⟩
  · rw [seen_eq_zero_iff,strip_eq_empty_iff,String.toList_ofList] at hblank
    exact List.all_eq_true.mpr hblank
  · rcases hsingle with hone | hone
    · have hfront : front = [] := by simpa using hone
      rw [hfront,hlast] at hrow
      exact List.mem_singleton.mp hrow
    · obtain ⟨i,hi⟩ := List.mem_iff_getElem?.mp hrow
      have hlt := (List.getElem?_eq_some_iff.mp hi).1
      have hblock := h.whole_block hexcluded hlines hrows (k := i) (by rw [hone]; omega)
      have hget : (block (rowsPer config) (front ++ [last]) i)[0]? = (front ++ [last])[i * rowsPer config + 0]? :=
        getElem?_block hpos
      rw [hblock,hone,Nat.mul_one,Nat.add_zero,hi] at hget
      exact (Option.some.inj hget).symm

end necessity

/-! Tables that are kept -/

section tables
variable {config : ChunkingConfig} {header : String} {rows : List String} {document : ParsedDocument}

theorem rowsKept_of_no_rows (htext : document.text = header) :
    RowsKept config header [] (chunkCsv document config) ↔ (splitLines [] header.toList).length ≤ 1 := by
  cases hlines : splitLines [] header.toList with
  | nil =>
    have hnone : chunkCsv document config = [] := by
      rw [chunkCsv,htext,hlines]
      rfl
    rw [hnone]
    exact iff_of_true ⟨rfl,fun chunk hchunk => by cases hchunk⟩ (Nat.zero_le 1)
  | cons line more =>
    have hcut : (splitLines [] document.text.toList).map String.ofList = String.ofList line :: more.map String.ofList := by
      rw [htext,hlines,List.map_cons]
    rw [chunkCsv_eq hcut,rowsKept_iff,List.length_cons]
    constructor
    · intro h
      have := h.length
      rw [List.length_map,List.length_nil] at this
      omega
    · intro h
      refine ⟨by rw [List.length_map,List.length_nil]; omega,fun k hk => ?_⟩
      exact absurd ((lt_blockCount_iff (rowsPer_pos config)).mp hk) (Nat.not_lt_zero _)

theorem rowsKept_iff_survive (htext : document.text = "\n".intercalate (header :: rows)) :
    RowsKept config header rows (chunkCsv document config) ↔ RowsSurvive config header rows := by
  by_cases hne : rows = []
  · subst hne
    rw [String.intercalate_singleton] at htext
    rw [rowsKept_of_no_rows htext]
    exact ⟨fun h => .inl ⟨rfl,h⟩,fun h => h.elim And.right fun h => absurd rfl h.1⟩
  · constructor
    · intro h
      obtain ⟨first,more,hhead⟩ : ∃ first more, splitLines [] (header.toList ++ ['\n']) = first :: more :=
        List.exists_cons_of_ne_nil fun h => by simpa using (splitLines_eq_nil_iff.mp h).2
      have hcut : (splitLines [] document.text.toList).map String.ofList =
          String.ofList first :: (more ++ bodyLines rows).map String.ofList := by
        rw [htext,splitLines_joined header hne,hhead]
        rfl
      rw [chunkCsv_eq hcut,rowsKept_iff] at h
      refine .inr ⟨hne,?_⟩
      by_cases hcase : config.includeHeader = true ∨ more = []
      · exact .inl (h.intact hne hhead hcase)
      · rw [not_or,Bool.not_eq_true] at hcase
        exact .inr (h.allBlank hne hhead hcase.1 hcase.2)
    · rintro (⟨hnone,-⟩ | ⟨-,h | h⟩)
      · exact absurd hnone hne
      · obtain ⟨first,hhead,hline⟩ := h.head_line
        rw [chunkCsv_eq (by rw [htext]; exact lines_eq_rows hne h.cells h.last hhead),rowsKept_iff]
        exact h.blocksRead hline
      · obtain ⟨line,dataLines,hlines,hlength,hblank⟩ := h.lines hne
        rw [chunkCsv_eq (by rw [htext]; exact hlines),rowsKept_iff]
        exact h.blocksRead hlength hblank

end tables

/-- Of any file that the parser reads as a header and some rows, the chunker keeps the rows exactly if
they are still one a line in the text between the two. -/
theorem csv_rows_kept_iff (decode : Bytes → String) (content : Bytes) (filename : Option String) (config : ChunkingConfig)
    {header : List String} {rows : List (List String)} (hread : readRows (decode content) = .ok (header :: rows)) :
    ∃ document metadata, CsvParser.parse decode content filename = .ok (document,some metadata) ∧
      (RowsKept config (rowText header) (rows.map rowText) (chunkCsv document config) ↔
        RowsSurvive config (rowText header) (rows.map rowText)) :=
  ⟨_,_,CsvParser.parse_ok hread filename,rowsKept_iff_survive rfl⟩

/-- Bytes below 128 are the same in UTF-8. -/
def asciiText (content : Bytes) : String := String.ofList (content.map fun b => Char.ofNat b.toNat)

def plainTable : Bytes := "name,age\nAda,36\nAlan,41\n".toUTF8.toList

theorem csv_rows_kept_plain :
    ∃ document metadata, CsvParser.parse asciiText plainTable none = .ok (document,some metadata) ∧
      RowsKept {} "name, age" ["Ada, 36","Alan, 41"] (chunkCsv document {}) := by
  have hread : readRows (asciiText plainTable) = .ok [["name","age"],["Ada","36"],["Alan","41"]] := by decide +kernel
  obtain ⟨document,metadata,hparse,hkept⟩ := csv_rows_kept_iff asciiText plainTable none {} hread
  refine ⟨document,metadata,hparse,hkept.mpr (.inr ⟨by simp,.inl ⟨?_,?_,?_,?_⟩⟩)⟩ <;> decide +kernel

def quotedBreak : Bytes := "name\n\"a\nb\"\n".toUTF8.toList

/-- One row with a newline in a cell becomes two. -/
theorem csv_rows_broken :
    ∃ document metadata, CsvParser.parse asciiText quotedBreak none = .ok (document,some metadata) ∧
      readRows (asciiText quotedBreak) = .ok [["name"],["a\nb"]] ∧
        ¬ RowsKept {} "name" ["a\nb"] (chunkCsv document {}) := by
  have hread : readRows (asciiText quotedBreak) = .ok [["name"],["a\nb"]] := by decide +kernel
  refine ⟨_,_,CsvParser.parse_ok hread none,hread,fun h => ?_⟩
  have hrows := h.partitioned
  revert hrows
  decide +kernel

end VoxForge.Knowledge
