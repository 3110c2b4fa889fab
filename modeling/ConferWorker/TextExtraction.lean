import ConferWorker.CsvReader
import ConferWorker.DomainConstructors
import ConferWorker.PathNames
import ConferWorker.PythonFloats
import ConferWorker.SessionValues

/-! `TextDocumentExtractor`: plain text and CSV become one container. -/
namespace ConferWorker

/-- `bytes.decode("utf-8", errors="replace")` after `skip` bytes already consumed. -/
def decodeReplaceFrom : ℕ → Bytes → Str
  | _, [] => []
  | k+1, _ :: bytes => decodeReplaceFrom k bytes
  | 0, b :: bytes =>
    match utf8Front (b :: bytes) with
    | (some c, width) => c :: decodeReplaceFrom (width-1) bytes
    | (none, width) => 0xFFFD :: decodeReplaceFrom (width-1) bytes

/-- `bytes.decode("utf-8", errors="replace")`. -/
def decodeReplace (bytes : Bytes) : Str := decodeReplaceFrom 0 bytes

structure TextDocumentExtractor where
  maxTextBytes : ℕ
  maxOutputBytes : ℕ
  blockCharacters : ℕ

namespace TextDocumentExtractor

/-- `TextDocumentExtractor()`. -/
def default : TextDocumentExtractor := ⟨50*1024*1024, 256*1024*1024, 4000⟩

/-- `source.decode("utf-8-sig", errors="replace")`. -/
def decodeSignature (source : Bytes) : Str :=
  if source.take 3 = [0xEF, 0xBB, 0xBF] then decodeReplace (source.drop 3) else decodeReplace source

/-- `_decode`. -/
def decode (source : Bytes) : Except PythonError Str := do
  let text := decodeSignature source
  let replacementRatio := Binary64.nearest ((text.count 0xFFFD : ℚ)/(max 1 text.length : ℕ))
  raiseIf (Binary64.nearest (1/50) < replacementRatio)
    (.valueError (ofString "document is not valid UTF-8 text"))
  pure (text.filter (· ≠ 0))

/-- `re.split(r"\n\s*\n", text)`; `piece` is read so far, and `skip` characters belong to the
last match. A match goes to the last line feed of the white space. -/
def splitBlankLinesFrom (skip : ℕ) (piece : Str) : Str → List Str
  | [] => [piece]
  | c :: rest =>
    match skip with
    | skip+1 => splitBlankLinesFrom skip piece rest
    | 0 =>
      match if c = 10 then rfindChar 10 (rest.takeWhile isSpace) else none with
      | some last => piece :: splitBlankLinesFrom (last+1) [] rest
      | none => splitBlankLinesFrom 0 (piece++[c]) rest

def splitBlankLines (text : Str) : List Str := splitBlankLinesFrom 0 [] text

/-- Where `_blocks` splits a paragraph that is too long. -/
def splitPoint (blockCharacters : ℕ) (remaining : Str) : ℕ :=
  let front := remaining.take blockCharacters
  let half := blockCharacters/2
  ((rfindChar 10 front).filter (half ≤ ·)).getD
    (((rfindChar 32 front).filter (half ≤ ·)).getD blockCharacters)

/-- The loop of `_blocks` over one paragraph; `none` when it needs more than `fuel` rounds. -/
def splitParagraph (blockCharacters : ℕ) : (fuel : ℕ) → Str → Option (List Str)
  | 0, remaining =>
    if blockCharacters < remaining.length then none
    else some (if remaining = [] then [] else [remaining])
  | fuel+1, remaining =>
    if blockCharacters < remaining.length then
      let split := splitPoint blockCharacters remaining
      (splitParagraph blockCharacters fuel (strip (remaining.drop split))).map
        (strip (remaining.take split) :: ·)
    else some (if remaining = [] then [] else [remaining])

/-- `_blocks`. -/
def blocks (extractor : TextDocumentExtractor) (fuel : ℕ) (text : Str) : Option (List Str) :=
  let paragraphs := ((splitBlankLines text).map strip).filter (fun value => value ≠ [])
  List.flatten <$> paragraphs.mapM (splitParagraph extractor.blockCharacters fuel)

/-- `value.replace("|", "\\|").replace("\n", " ")`. -/
def cellText (value : Str) : Str :=
  (value.flatMap (fun c => if c = 0x7C then [0x5C, 0x7C] else [c])).map
    (fun c => if c = 10 then 32 else c)

/-- `"| " + " | ".join(values) + " |"`. -/
def tableLine (values : List Str) : Str :=
  ofString "| "++(ofString " | ").intercalate values++ofString " |"

/-- The loop of `_csv_markdown`. -/
def csvLines (rowNumber : ℕ) : List (List Str) → Except PythonError (List Str)
  | [] => .ok []
  | row :: rows => do
    raiseIf (1000000 ≤ rowNumber) (.valueError (ofString "CSV contains too many rows"))
    raiseIf (16384 < row.length) (.valueError (ofString "CSV contains too many columns"))
    let lines ← csvLines (rowNumber+1) rows
    let separator := List.replicate (max 1 row.length) (ofString "---")
    pure (tableLine (row.map cellText)
      :: (if rowNumber = 0 then tableLine separator :: lines else lines))

/-- `_csv_markdown`. -/
def csvMarkdown (text : Str) : Except PythonError Str := do
  let records := csvReader 0x2C text
  let lines ← csvLines 0 records.rows
  match records.failure with
  | some error => .error error
  | none => pure ((ofString "\n").intercalate lines)

/-- `extract` up to the text that is cut into blocks. -/
def sourceText (extractor : TextDocumentExtractor) (source : DocumentSource) (mediaType : Str) :
    Except PythonError Str := do
  raiseIf (source.length = 0) (.valueError (ofString "document is empty"))
  raiseIf (extractor.maxTextBytes < source.length)
    (.valueError (ofString "document exceeds maximum size"))
  raiseIf (source.content.length ≠ source.length)
    (.valueError (ofString "document source length changed"))
  let text ← decode source.content
  let text ← if mediaType = ofString "text/csv" then csvMarkdown text else pure text
  let encoded ← encodeText text
  raiseIf (extractor.maxOutputBytes < encoded.length)
    (.valueError (ofString "extracted text exceeds maximum size"))
  pure text

/-- `extract` behind `_blocks`. -/
def blockContent (source : DocumentSource) (filename mediaType : Str) (texts : List Str) :
    Except PythonError DocumentContent := do
  let blocks ← texts.zipIdx.mapM (fun block => do
    let bounds ← Bounds.create 0 block.2 1 (block.2+1)
    TextBlock.create block.1 bounds .native 1)
  let height := max 1 blocks.length
  let tableBounds ← Bounds.create 0 0 1 height
  let regions ← (if mediaType = ofString "text/csv" ∧ texts ≠ [] then [tableBounds] else []).mapM
    (fun bounds => VisualRegion.create (ofString "c1-table-1") .table bounds 1 false none none)
  let container ← DocumentContainer.create 0 1 height blocks regions .text (some filename)
  let stem := pathStem filename
  DocumentContent.create source.sha256 [container] mediaType
    (if stem ≠ [] then some stem else none) []

/-- `extract`: `none` when a paragraph needs more than `fuel` rounds. -/
def extract (extractor : TextDocumentExtractor) (source : DocumentSource)
    (filename mediaType : Str) (fuel : ℕ) : Option (Except PythonError DocumentContent) :=
  match extractor.sourceText source mediaType with
  | .error error => some (.error error)
  | .ok text => (extractor.blocks fuel text).map (blockContent source filename mediaType)

end TextDocumentExtractor

end ConferWorker
