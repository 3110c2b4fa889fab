import ConferWorker.CsvLines
import ConferWorker.GroupedValues
import ConferWorker.TesseractTsv

/-! The rows that Tesseract prints, the words among them, and the texts that their lines have. -/
namespace ConferWorker

/-- A row of the TSV under the names of the header. -/
structure TsvRow where
  level : Str
  pageNum : Str
  blockNum : Str
  parNum : Str
  lineNum : Str
  wordNum : Str
  left : Str
  top : Str
  width : Str
  height : Str
  conf : Str
  text : Str
  deriving DecidableEq

/-- Fields with tabs between them and a line feed at the end. -/
def tsvLine (fields : List Str) (last : Str) : Str :=
  fields.flatMap (fun field => field++[9])++last++[10]

def tsvNames : List Str :=
  [ofString "level", ofString "page_num", ofString "block_num", ofString "par_num",
    ofString "line_num", ofString "word_num", ofString "left", ofString "top", ofString "width",
    ofString "height", ofString "conf"]

namespace TsvRow

/-- The fields in front of the text. -/
def numbers (row : TsvRow) : List Str :=
  [row.level, row.pageNum, row.blockNum, row.parNum, row.lineNum, row.wordNum, row.left, row.top,
    row.width, row.height, row.conf]

def fields (row : TsvRow) : List Str := row.numbers++[row.text]

/-- The fields are free of tab and line feed. -/
def IsRaw (row : TsvRow) : Prop := ∀ field ∈ row.fields, CsvParser.IsRaw 9 field

def line (row : TsvRow) : Str := tsvLine row.numbers row.text

/-- A row of level 5 with a text that is not blank. -/
def isWord (row : TsvRow) : Bool := row.level = ofString "5" ∧ strip row.text ≠ []

/-- The line that a row belongs to. -/
def lineKey (row : TsvRow) : TesseractTsvParser.LineKey :=
  (some row.blockNum, some row.parNum, some row.lineNum)

end TsvRow

/-- The output of Tesseract: the header line and the rows. -/
def tsvText (rows : List TsvRow) : Str :=
  tsvLine tsvNames (ofString "text")++rows.flatMap TsvRow.line

/-- The words of each line, the lines in the order in which they appear first. -/
def tsvLines (rows : List TsvRow) : List (List TsvRow) :=
  let words := rows.filter TsvRow.isWord
  (firstKeys (words.map TsvRow.lineKey)).map (fun key => words.filter (fun word => word.lineKey = key))

/-- The stripped texts of the words of a line, joined by spaces, and a final line feed. -/
def lineText (words : List TsvRow) : Str :=
  (ofString " ").intercalate (words.map (fun word => strip word.text))++[10]

namespace TsvRow

open TesseractTsvParser

/-- The row as `csv.DictReader` yields it. -/
def dict (row : TsvRow) : DictRow := dictRow (tsvNames++[ofString "text"]) row.fields

variable (row : TsvRow)

theorem dict_level : row.dict (ofString "level") = some (some row.level) := rfl

theorem dict_blockNum : row.dict (ofString "block_num") = some (some row.blockNum) := rfl

theorem dict_parNum : row.dict (ofString "par_num") = some (some row.parNum) := rfl

theorem dict_lineNum : row.dict (ofString "line_num") = some (some row.lineNum) := rfl

theorem dict_left : row.dict (ofString "left") = some (some row.left) := rfl

theorem dict_top : row.dict (ofString "top") = some (some row.top) := rfl

theorem dict_width : row.dict (ofString "width") = some (some row.width) := rfl

theorem dict_height : row.dict (ofString "height") = some (some row.height) := rfl

theorem dict_conf : row.dict (ofString "conf") = some (some row.conf) := rfl

theorem dict_text : row.dict (ofString "text") = some (some row.text) := rfl

theorem strippedText_dict : strippedText row.dict = .ok (strip row.text) := by
  rw [strippedText, dict_text]

theorem wordText_dict : wordText row.dict = .ok (strip row.text) := by
  rw [wordText, DictRow.item, dict_text, strippedText_dict]
  rfl

/-- A row is added to its line if it is a word. -/
theorem addRow_dict (lines : PythonDict LineKey (List DictRow)) :
    addRow lines row.dict = .ok (if row.isWord then lines.add row.lineKey row.dict else lines) := by
  rw [addRow, dict_level, strippedText_dict]
  by_cases hlevel : row.level = ofString "5"
  · rw [hlevel, if_neg (by simp), ok_bind]
    by_cases htext : strip row.text = []
    · rw [if_pos htext, if_neg (by simp [isWord, htext])]
      rfl
    · rw [if_neg htext, if_pos (by simp [isWord, hlevel, htext]), DictRow.item, DictRow.item,
        DictRow.item, dict_blockNum, dict_parNum, dict_lineNum]
      rfl
  · rw [if_pos (by simpa using hlevel), if_neg (by simp [isWord, hlevel])]

end TsvRow

/-- The loop over the rows groups the words by their line. -/
theorem addRow_rows (rows : List TsvRow)
    (lines : PythonDict TesseractTsvParser.LineKey (List DictRow)) :
    (rows.map TsvRow.dict).foldlM TesseractTsvParser.addRow lines
      = .ok ((rows.filter TsvRow.isWord).foldl
          (fun lines word => lines.add word.lineKey word.dict) lines) := by
  induction rows generalizing lines with
  | nil => rfl
  | cons row rows ih =>
    rw [List.map_cons, List.foldlM_cons, TsvRow.addRow_dict, ok_bind, ih, List.filter_cons]
    split_ifs
    · rfl
    · rfl

theorem group_words (rows : List TsvRow) :
    ((rows.filter TsvRow.isWord).foldl
        (fun lines word => lines.add word.lineKey word.dict) PythonDict.empty).values
      = (tsvLines rows).map (fun words => words.map TsvRow.dict) := by
  have hgroup := PythonDict.group_values
    ((rows.filter TsvRow.isWord).map (fun word => (word.lineKey, word.dict)))
  rw [PythonDict.group, List.foldl_map] at hgroup
  rw [hgroup, tsvLines, List.map_map, List.map_map]
  apply List.map_congr_left
  intro key _
  simp only [valuesOf, List.filter_map, List.map_map, Function.comp_def]

end ConferWorker
