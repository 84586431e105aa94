import Mathlib.Data.List.Range
import VoxForge.Core.Text
import VoxForge.Knowledge.Tables

/-! The chunker, and the indices of its chunks. -/
namespace VoxForge.Knowledge
open Core

/-- `text.rfind(" ", start, stop)`. -/
def rfindSpace (text : List Char) (start stop : Nat) : Option Nat :=
  ((List.range' start (stop - start)).filter fun i => text[i]? = some ' ').getLast?

def tokenCount (length : Nat) : Nat := max (length / 4) 1

/-- The end of the chunk that begins at `start`: after `size` characters, or at the last
space in the second half of them. -/
def chunkEnd (text : List Char) (size start : Nat) : Nat :=
  let stop := min (start + size) text.length
  if stop < text.length then
    match rfindSpace text start stop with
    | some splitAt => if splitAt > start + size / 2 then splitAt else stop
    | none => stop
  else stop

/-- The loop over `start`; `index` counts the chunks so far. -/
def chunkFrom (document : ParsedDocument) (text : List Char) (size : Nat) (overlap : Int) (start index : Nat) :
    List RawChunk :=
  if start < text.length then
    let stop := chunkEnd text size start
    let content := strip (String.ofList ((text.drop start).take (stop - start)))
    let rest (index : Nat) : List RawChunk :=
      if stop ≥ text.length then []
      else chunkFrom document text size overlap (max (stop - overlap).toNat (start + 1)) index
    if content ≠ "" then
      { content
        chunkIndex := index
        metadata := {
          chunkIndex := some index
          sourceType := some document.sourceType
          heading := document.headings.head? }
        tokenCount := tokenCount content.length } :: rest (index + 1)
    else rest index
  else []
termination_by text.length - start

def chunkRecursive (document : ParsedDocument) (config : ChunkingConfig) : List RawChunk :=
  let size := (max config.chunkSize 64).toNat
  let overlap := min config.chunkOverlap (size / 2 : Nat)
  chunkFrom document document.text.toList size overlap 0 0

def chunkPages (document : ParsedDocument) : List RawChunk :=
  let pages := document.pages.zipIdx.filter fun page => strip page.1 ≠ ""
  pages.zipIdx.map fun ((pageText,i),index) =>
    { content := pageText
      chunkIndex := index
      metadata := { chunkIndex := some index, page := some (i + 1), sourceType := some .pdf }
      tokenCount := tokenCount pageText.length }

def isLineBreak (c : Char) : Bool :=
  c.toNat ∈ [0x0a,0x0b,0x0c,0x0d,0x1c,0x1d,0x1e,0x85,0x2028,0x2029]

/-- `str.splitlines`, after the characters of the current line. -/
def splitLines (line : List Char) : List Char → List (List Char)
  | [] => if line = [] then [] else [line]
  | '\r' :: '\n' :: rest => line :: splitLines [] rest
  | c :: rest => if isLineBreak c then line :: splitLines [] rest else splitLines (line ++ [c]) rest

def chunkCsv (document : ParsedDocument) (config : ChunkingConfig) : List RawChunk :=
  match (splitLines [] document.text.toList).map String.ofList with
  | [] => []
  | header :: dataLines =>
    let rowsPer := (max config.rowsPerChunk 1).toNat
    (List.range ((dataLines.length + rowsPer - 1) / rowsPer)).map fun index =>
      let i := index * rowsPer
      let block := "\n".intercalate ((dataLines.drop i).take rowsPer)
      let content := if config.includeHeader then header ++ "\n" ++ block else block
      let rowStart := i + 1
      let rowEnd := min (i + rowsPer) dataLines.length
      { content := strip content
        chunkIndex := index
        metadata := {
          chunkIndex := some index
          sourceType := some .csv
          heading := some ("rows " ++ toString rowStart ++ "-" ++ toString rowEnd)
          rowStart := some rowStart
          rowEnd := some rowEnd }
        tokenCount := tokenCount content.length }

def chunk (document : ParsedDocument) (config : ChunkingConfig) : List RawChunk :=
  if document.sourceType = .csv then chunkCsv document config
  else if document.sourceType = .pdf ∧ config.strategy = "page" then chunkPages document
  else chunkRecursive document config

theorem chunkFrom_indices (document : ParsedDocument) (text : List Char) (size : Nat) (overlap : Int)
    (start index : Nat) :
    (chunkFrom document text size overlap start index).map (·.chunkIndex) =
      List.range' index (chunkFrom document text size overlap start index).length := by
  fun_induction chunkFrom document text size overlap start index with
  | case1 start index h stop content rest hcontent ih =>
    have hrest : (rest (index + 1)).map (·.chunkIndex) = List.range' (index + 1) (rest (index + 1)).length := by
      unfold rest
      split
      · rfl
      · exact ih (index + 1)
    rw [List.map_cons,List.length_cons,List.range'_succ,hrest]
  | case2 start index h stop content rest hcontent ih =>
    unfold rest
    split
    · rfl
    · exact ih index
  | case3 start index h => rfl

/-- The chunks of a text are numbered from 0 on. -/
theorem chunk_indices (document : ParsedDocument) (config : ChunkingConfig) :
    (chunk document config).map (·.chunkIndex) = List.range (chunk document config).length := by
  unfold chunk
  split
  · unfold chunkCsv
    split
    · rfl
    · dsimp only
      rw [List.map_map,List.length_map,List.length_range]
      exact List.map_id _
  · split
    · unfold chunkPages
      dsimp only
      generalize document.pages.zipIdx.filter _ = pages
      rw [List.map_map,List.length_map,List.length_zipIdx,List.range_eq_range',← List.zipIdx_map_snd 0 pages]
      exact List.map_congr_left fun page _ => rfl
    · rw [List.range_eq_range']
      exact chunkFrom_indices ..

theorem chunk_indices_nodup (document : ParsedDocument) (config : ChunkingConfig) :
    ((chunk document config).map (·.chunkIndex)).Nodup := by
  rw [chunk_indices]
  exact List.nodup_range

end VoxForge.Knowledge
