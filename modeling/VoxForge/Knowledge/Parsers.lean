import VoxForge.Core.Text
import VoxForge.Knowledge.Tables

/-! The parsers of plain text and of Markdown. -/
namespace VoxForge.Knowledge
open Core Foundation

/-- `re.sub(r"\s+", " ", text.strip())`. -/
def normalizeText (text : String) : String :=
  String.ofList (replaceRuns isSpace ' ' false (strip text).toList)

theorem splitWords_normalizeText (text : String) : splitWords (normalizeText text) = splitWords text := by
  rw [splitWords,normalizeText,String.toList_ofList,words_replaceRuns rfl]
  exact splitWords_strip text

/-- Blanks are the only white space left. -/
theorem blank_normalizeText {text : String} {c : Char} (h : c ∈ (normalizeText text).toList)
    (hspace : isSpace c = true) : c = ' ' := by
  rw [normalizeText,String.toList_ofList] at h
  rcases mem_replaceRuns h with hblank | ⟨-,hsolid⟩
  · exact hblank
  · rw [hspace] at hsolid
    cases hsolid

/-- `(filename or "document").rsplit(".", 1)[0]`. -/
def stem (filename : Option String) : String :=
  let name := if filename.getD "" = "" then "document" else filename.getD ""
  ((rsplitOnce '.' name).map Prod.fst).getD name

/-- `decode` is the decoding of UTF-8 with replacements. -/
def TxtParser.parse (decode : ByteArray → String) (content : ByteArray) (filename : Option String) :
    ParsedDocument where
  title := stem filename
  text := normalizeText (decode content)
  sourceType := .txt

namespace MarkdownParser

/-- A match of `^#{1,6}\s+(.+)$` that begins here: the heading, stripped, and the length. -/
def heading? (text : List Char) : Option (String × Nat) :=
  let hashes := text.takeWhile (· = '#')
  let rest := text.dropWhile (· = '#')
  let blank := rest.takeWhile isSpace
  let line := (rest.dropWhile isSpace).takeWhile (· ≠ '\n')
  if hashes = [] ∨ 6 < hashes.length ∨ blank = [] then none
  else if rest.dropWhile isSpace = [] then
    -- the white space reaches the end of the text: `\s+` gives some of it back to `(.+)`
    if (blank.drop 1).any (· ≠ '\n') then some ("",text.length) else none
  else some (strip (String.ofList line),hashes.length + blank.length + line.length)

/-- `re.findall` from here on, where the last match still covers `skip` characters. -/
def headings : Nat → Bool → List Char → List String
  | _,_,[] => []
  | skip + 1,_,_ :: rest => headings skip false rest
  | 0,lineStart,c :: rest =>
    match if lineStart then heading? (c :: rest) else none with
    | some (heading,length) => heading :: headings (length - 1) false rest
    | none => headings 0 (c = '\n') rest

def parse (decode : ByteArray → String) (content : ByteArray) (filename : Option String) : ParsedDocument :=
  let text := decode content
  let headings := headings 0 true text.toList
  { title := strip (headings.head?.getD (stem filename))
    text := normalizeText text
    sourceType := .markdown
    headings }

example : headings 0 true "# One \n#no\n ## no\n###  Two\n\n# \nThree\n####### no".toList =
    ["One","Two","Three"] := by decide +kernel

end MarkdownParser

/-- `get_parser(source_type).parse`, but for the formats that other readers take apart. -/
def readers (decode : ByteArray → String) (others : SourceType → ByteArray → String → Except String ParsedDocument) :
    SourceType → ByteArray → String → Except String ParsedDocument
  | .txt,content,filename => .ok (TxtParser.parse decode content (some filename))
  | .markdown,content,filename => .ok (MarkdownParser.parse decode content (some filename))
  | sourceType,content,filename => others sourceType content filename

/-- Both parsers normalise the text. -/
theorem readers_plain {decode : ByteArray → String}
    {others : SourceType → ByteArray → String → Except String ParsedDocument} {sourceType : SourceType}
    {content : ByteArray} {filename : String} {document : ParsedDocument}
    (hplain : sourceType = .txt ∨ sourceType = .markdown)
    (h : readers decode others sourceType content filename = .ok document) :
    document.text = normalizeText (decode content) ∧ document.sourceType = sourceType := by
  rcases hplain with rfl | rfl
  · have hdocument : TxtParser.parse decode content (some filename) = document := Except.ok.inj h
    rw [← hdocument]
    exact ⟨rfl,rfl⟩
  · have hdocument : MarkdownParser.parse decode content (some filename) = document := Except.ok.inj h
    rw [← hdocument]
    exact ⟨rfl,rfl⟩

end VoxForge.Knowledge
