import ConferWorker.CsvReader
import ConferWorker.PdfScan
import ConferWorker.PythonDict
import ConferWorker.PythonFloats
import ConferWorker.PythonNumbers

/-! `TesseractTsvParser`: the words of a TSV become the text blocks of their lines. -/
namespace ConferWorker

/-- A row of `csv.DictReader`: `none` for a key that is not in the header, and the value None
for a field that the row lacks. -/
abbrev DictRow := Str → Option (Option Str)

/-- The row under the names of the header; of two fields with one name the last counts. -/
def dictRow (fieldnames row : List Str) : DictRow := fun key =>
  ((fieldnames.zipIdx.filter (fun field => field.1 = key)).getLast?).map (fun field =>
    row[field.2]?)

/-- The rows of `csv.DictReader(io.StringIO(text), delimiter=delimiter)` up to the end or to an
error, and the error. -/
structure DictRows where
  rows : List DictRow
  failure : Option PythonError

def dictReader (delimiter : CodePoint) (text : Str) : DictRows :=
  let records := csvReader delimiter text
  match records.rows with
  | [] => ⟨[], records.failure⟩
  | fieldnames :: rows =>
    ⟨(rows.filter (fun row => row ≠ [])).map (dictRow fieldnames), records.failure⟩

/-- `row[key]`. -/
def DictRow.item (row : DictRow) (key : Str) : Except PythonError (Option Str) :=
  match row key with
  | some value => .ok value
  | none => .error (.keyError key)

namespace TesseractTsvParser

/-- `block_num`, `par_num` and `line_num`. -/
abbrev LineKey := Option Str × Option Str × Option Str

/-- `row.get("text", "").strip()`. -/
def strippedText (row : DictRow) : Except PythonError Str :=
  match row (ofString "text") with
  | none => .ok []
  | some none => .error ⟨.other (ofString "AttributeError"),
      ofString "'NoneType' object has no attribute 'strip'"⟩
  | some (some text) => .ok (strip text)

/-- One round of the loop over the rows. -/
def addRow (lines : PythonDict LineKey (List DictRow)) (row : DictRow) :
    Except PythonError (PythonDict LineKey (List DictRow)) :=
  if row (ofString "level") ≠ some (some (ofString "5")) then .ok lines
  else do
    let text ← strippedText row
    if text = [] then pure lines
    else
      let block ← row.item (ofString "block_num")
      let paragraph ← row.item (ofString "par_num")
      let line ← row.item (ofString "line_num")
      let key := (block, paragraph, line)
      pure (lines.set key ((lines.get? key).getD []++[row]))

/-- `int(word[key])`. -/
def intItem (word : DictRow) (key : Str) : Except PythonError ℤ := do
  match ← word.item key with
  | some value => readInt value
  | none => .error (.typeError
      (ofString "int() argument must be a string, a bytes-like object or a real number"))

/-- `int(word[first]) + int(word[second])`. -/
def sumItem (word : DictRow) (first second : Str) : Except PythonError ℤ := do
  let a ← intItem word first
  let b ← intItem word second
  pure (a+b)

/-- `max(0.0, float(word["conf"])) / 100`. -/
def confidence (word : DictRow) : Except PythonError PythonFloat := do
  match ← word.item (ofString "conf") with
  | some value =>
    let value ← readFloat value
    value.maxZero.div (.finite 100)
  | none => .error (.typeError (ofString "float() argument must be a string or a real number"))

/-- `sum(confidences) / len(confidences)`. -/
def meanConfidence (confidences : List PythonFloat) : Except PythonError PythonFloat := do
  let count ← PythonFloat.ofInt confidences.length
  (PythonFloat.sum confidences).div count

/-- `word["text"].strip()`. -/
def wordText (word : DictRow) : Except PythonError Str := do
  let _ ← word.item (ofString "text")
  strippedText word

/-- `image.page_width / image.width`, and the same of the heights. -/
def pixelScale (pageSize : ℚ) (pixels : ℕ) : Except PythonError PythonFloat := do
  let pixels ← PythonFloat.ofInt pixels
  (PythonFloat.finite pageSize).div pixels

/-- `round(image.page_x0 + left * x_scale, 2)`, and the same of the other sides. -/
def pagePosition (origin : ℚ) (scale : PythonFloat) (pixels : ℤ) :
    Except PythonError PythonFloat := do
  let pixels ← PythonFloat.ofInt pixels
  pure ((PythonFloat.finite origin).add (pixels.mul scale)).round

/-- `Bounds(x0, y0, x1, y1)`. -/
def createBounds (x0 y0 x1 y1 : PythonFloat) : Except PythonError Bounds :=
  match x0, y0, x1, y1 with
  | .finite x0, .finite y0, .finite x1, .finite y1 => Bounds.create x0 y0 x1 y1
  | _, _, _, _ => .error (.valueError (ofString "bounds must be finite"))

/-- `TextBlock(text, bounds, TextSource.OCR, confidence)`. -/
def createBlock (text : Str) (bounds : Bounds) (confidence : PythonFloat) :
    Except PythonError TextBlock :=
  match confidence with
  | .finite confidence => TextBlock.create text bounds .ocr confidence
  | _ => .error (.valueError (ofString "block confidence must be between zero and one"))

/-- The block of one line. -/
def lineBlock (image : RasterImage) (xScale yScale : PythonFloat) (words : List DictRow) :
    Except PythonError TextBlock := do
  let lefts ← words.mapM (fun word => intItem word (ofString "left"))
  let tops ← words.mapM (fun word => intItem word (ofString "top"))
  let rights ← words.mapM (fun word => sumItem word (ofString "left") (ofString "width"))
  let bottoms ← words.mapM (fun word => sumItem word (ofString "top") (ofString "height"))
  let confidences ← words.mapM confidence
  let texts ← words.mapM wordText
  let x0 ← pagePosition image.pageX0 xScale (lefts.min?.getD 0)
  let y0 ← pagePosition image.pageY0 yScale (tops.min?.getD 0)
  let x1 ← pagePosition image.pageX0 xScale (rights.max?.getD 0)
  let y1 ← pagePosition image.pageY0 yScale (bottoms.max?.getD 0)
  let bounds ← createBounds x0 y0 x1 y1
  let mean ← meanConfidence confidences
  createBlock ((ofString " ").intercalate texts++[10]) bounds mean

/-- `parse`. -/
def parse (tsv : Str) (image : RasterImage) : Except PythonError (List TextBlock) := do
  let records := dictReader 9 tsv
  let lines ← records.rows.foldlM addRow .empty
  match records.failure with
  | some error => .error error
  | none =>
    let xScale ← pixelScale image.pageWidth image.width
    let yScale ← pixelScale image.pageHeight image.height
    lines.values.mapM (lineBlock image xScale yScale)

end TesseractTsvParser

end ConferWorker
