import ConferWorker.PythonErrors

/-! `csv.reader` over the lines of an `io.StringIO`, with the dialect `excel` and a delimiter:
fields may be in double quotes, and a quote inside is doubled. -/
namespace ConferWorker

/-- The state of the parser between two characters. -/
inductive CsvPlace
  | startRecord | startField | inField | inQuotedField | quoteInQuotedField | eatLineEnd
  deriving DecidableEq, Repr

/-- The parser: the fields of the record so far and the field that is being read. -/
structure CsvParser where
  place : CsvPlace
  fields : List Str
  field : Str
  deriving DecidableEq

namespace CsvParser

def quote : CodePoint := 0x22

/-- `csv.field_size_limit()`. -/
def fieldSizeLimit : ℕ := 131072

/-- The parser before a record. -/
def start : CsvParser := ⟨.startRecord, [], []⟩

/-- `parse_save_field`. -/
def saveField (parser : CsvParser) (place : CsvPlace) : CsvParser :=
  ⟨place, parser.fields++[parser.field], []⟩

def csvError (message : Str) : PythonError := ⟨.other (ofString "csv.Error"), message⟩

/-- `parse_add_char`. -/
def addChar (parser : CsvParser) (place : CsvPlace) (c : CodePoint) :
    Except PythonError CsvParser :=
  if fieldSizeLimit ≤ parser.field.length then
    .error (csvError (ofString "field larger than field limit (131072)"))
  else .ok { parser with place := place, field := parser.field++[c] }

def isLineEnd (c : CodePoint) : Bool := c == 10 || c == 13

/-- A character where a field begins. -/
def startFieldChar (delimiter : CodePoint) (parser : CsvParser) (c : CodePoint) :
    Except PythonError CsvParser :=
  if isLineEnd c then .ok (parser.saveField .eatLineEnd)
  else if c = quote then .ok { parser with place := .inQuotedField }
  else if c = delimiter then .ok (parser.saveField .startField)
  else parser.addChar .inField c

/-- `parse_process_char`. -/
def processChar (delimiter : CodePoint) (parser : CsvParser) (c : CodePoint) :
    Except PythonError CsvParser :=
  match parser.place with
  | .startRecord =>
    if isLineEnd c then .ok { parser with place := .eatLineEnd }
    else startFieldChar delimiter parser c
  | .startField => startFieldChar delimiter parser c
  | .inField =>
    if isLineEnd c then .ok (parser.saveField .eatLineEnd)
    else if c = delimiter then .ok (parser.saveField .startField)
    else parser.addChar .inField c
  | .inQuotedField =>
    if c = quote then .ok { parser with place := .quoteInQuotedField }
    else parser.addChar .inQuotedField c
  | .quoteInQuotedField =>
    if c = quote then parser.addChar .inQuotedField c
    else if c = delimiter then .ok (parser.saveField .startField)
    else if isLineEnd c then .ok (parser.saveField .eatLineEnd)
    else parser.addChar .inField c
  | .eatLineEnd =>
    if isLineEnd c then .ok parser
    else .error (csvError (ofString "new-line character seen in unquoted field - "
      ++ofString "do you need to open the file with newline=''?"))

/-- `parse_process_char` at the end of a line. -/
def endLine (parser : CsvParser) : CsvParser :=
  match parser.place with
  | .startRecord => parser
  | .startField | .inField | .quoteInQuotedField => parser.saveField .startRecord
  | .inQuotedField => parser
  | .eatLineEnd => { parser with place := .startRecord }

/-- The characters of one line, and its end. -/
def readLine (delimiter : CodePoint) (parser : CsvParser) (line : Str) :
    Except PythonError CsvParser :=
  endLine <$> line.foldlM (processChar delimiter) parser

end CsvParser

/-- The lines of `io.StringIO(text)`, each with its line feed; `line` is read so far. -/
def textLinesFrom (line : Str) : Str → List Str
  | [] => if line = [] then [] else [line]
  | c :: rest => if c = 10 then (line++[c]) :: textLinesFrom [] rest else textLinesFrom (line++[c]) rest

def textLines (text : Str) : List Str := textLinesFrom [] text

/-- The records up to the end of the lines or to an error, and the error. -/
structure CsvRecords where
  rows : List (List Str)
  failure : Option PythonError
  deriving DecidableEq

/-- `Reader.__next__` until it stops. -/
def readRecords (delimiter : CodePoint) (parser : CsvParser) : List Str → CsvRecords
  | [] =>
    if parser.field ≠ [] ∨ parser.place = .inQuotedField then
      ⟨[parser.fields++[parser.field]], none⟩
    else ⟨[], none⟩
  | line :: lines =>
    match parser.readLine delimiter line with
    | .error error => ⟨[], some error⟩
    | .ok parser =>
      if parser.place = .startRecord then
        let rest := readRecords delimiter .start lines
        ⟨parser.fields :: rest.rows, rest.failure⟩
      else readRecords delimiter parser lines

/-- `csv.reader(io.StringIO(text), delimiter=delimiter)`. -/
def csvReader (delimiter : CodePoint) (text : Str) : CsvRecords :=
  readRecords delimiter .start (textLines text)

end ConferWorker
