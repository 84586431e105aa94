import VoxForge.Foundation.Bytes
import VoxForge.Knowledge.Lines

/-! CSV files: the reader of the host language with its default dialect, and the parser over it. -/
namespace VoxForge.Knowledge
open Foundation Core

inductive CsvState where
  | startRecord | startField | inField | inQuotedField | quoteInQuotedField | eatCrnl
  deriving DecidableEq, Repr

inductive CsvError where
  /-- A carriage return inside of a line, outside of quotes. -/
  | newLineInField
  | fieldLimit
  deriving DecidableEq, Repr

structure CsvReader where
  state : CsvState := .startRecord
  field : List Char := []
  fields : List String := []
  deriving DecidableEq, Repr

namespace CsvReader

def saveField (reader : CsvReader) (state : CsvState) : CsvReader :=
  { state,field := [],fields := reader.fields ++ [String.ofList reader.field] }

def addChar (reader : CsvReader) (c : Char) (state : CsvState) : Except CsvError CsvReader :=
  if 131072 ≤ reader.field.length then .error .fieldLimit
  else .ok { reader with state,field := reader.field ++ [c] }

/-- The end of a record: `none` is the end of the line, after its last character. -/
def endRecord (reader : CsvReader) (c : Option Char) : CsvReader :=
  reader.saveField (if c = none then .startRecord else .eatCrnl)

def processField (reader : CsvReader) (c : Option Char) : Except CsvError CsvReader :=
  match c with
  | none | some '\n' | some '\r' => .ok (reader.endRecord c)
  | some '"' => .ok { reader with state := .inQuotedField }
  | some ',' => .ok (reader.saveField .startField)
  | some c => reader.addChar c .inField

/-- `parse_process_char`. -/
def processChar (reader : CsvReader) (c : Option Char) : Except CsvError CsvReader :=
  match reader.state with
  | .startRecord => match c with
    | none => .ok reader
    | some '\n' | some '\r' => .ok { reader with state := .eatCrnl }
    | some c => reader.processField (some c)
  | .startField => reader.processField c
  | .inField => match c with
    | none | some '\n' | some '\r' => .ok (reader.endRecord c)
    | some ',' => .ok (reader.saveField .startField)
    | some c => reader.addChar c .inField
  | .inQuotedField => match c with
    | none => .ok reader
    | some '"' => .ok { reader with state := .quoteInQuotedField }
    | some c => reader.addChar c .inQuotedField
  | .quoteInQuotedField => match c with
    | none | some '\n' | some '\r' => .ok (reader.endRecord c)
    | some '"' => reader.addChar '"' .inQuotedField
    | some ',' => .ok (reader.saveField .startField)
    | some c => reader.addChar c .inField
  | .eatCrnl => match c with
    | none => .ok { reader with state := .startRecord }
    | some '\n' | some '\r' => .ok reader
    | some _ => .error .newLineInField

def processLine (reader : CsvReader) (line : List Char) : Except CsvError CsvReader :=
  (line.map some ++ [none]).foldlM processChar reader

/-- The records of some lines; one that is open at their end is saved. -/
def records (reader : CsvReader) : List (List Char) → Except CsvError (List (List String))
  | [] =>
    if reader.field ≠ [] ∨ reader.state = .inQuotedField then .ok [(reader.saveField .startRecord).fields] else .ok []
  | line :: lines => do
    let reader ← reader.processLine line
    if reader.state = .startRecord then return reader.fields :: (← records {} lines)
    else records reader lines

end CsvReader

/-- The lines of `io.StringIO`, each with its newline. -/
def stringLines (line : List Char) : List Char → List (List Char)
  | [] => if line = [] then [] else [line]
  | c :: rest => if c = '\n' then (line ++ [c]) :: stringLines [] rest else stringLines (line ++ [c]) rest

/-- `list(csv.reader(io.StringIO(raw)))`. -/
def readRows (raw : String) : Except CsvError (List (List String)) :=
  CsvReader.records {} (stringLines [] raw.toList)

/-- The metadata of a parsed file that has rows. -/
structure CsvMetadata where
  header : List String
  rowCount : Nat
  deriving DecidableEq, Repr

def rowText (row : List String) : String := ", ".intercalate row

namespace CsvParser

def title (filename : Option String) : String :=
  let name := match filename with
    | none | some "" => "data"
    | some filename => filename
  ((rsplitOnce '.' name).map Prod.fst).getD name

/-- `decode` is the decoding of UTF-8 with replacements. -/
def parse (decode : Bytes → String) (content : Bytes) (filename : Option String) :
    Except CsvError (ParsedDocument × Option CsvMetadata) := do
  let raw := decode content
  match ← readRows raw with
  | [] => return ({ title := title filename,text := "",sourceType := .csv },none)
  | header :: rows =>
    let text := "\n".intercalate (rowText header :: rows.map rowText)
    return ({ title := title filename,text,sourceType := .csv },some { header,rowCount := rows.length })

/-- What the parser makes of a file with a header. -/
theorem parse_ok {decode : Bytes → String} {content : Bytes} {header : List String} {rows : List (List String)}
    (h : readRows (decode content) = .ok (header :: rows)) (filename : Option String) :
    parse decode content filename = .ok
      ({ title := title filename,text := "\n".intercalate (rowText header :: rows.map rowText),sourceType := .csv },
        some { header,rowCount := rows.length }) := by
  unfold parse
  dsimp only
  rw [h]
  rfl

end CsvParser

example : readRows "a,\"b\n\"\"c\"\r\n\n,d" = .ok [["a","b\n\"c"],[],["","d"]] := by decide +kernel

end VoxForge.Knowledge
