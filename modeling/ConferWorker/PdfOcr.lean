import ConferWorker.PdfScan
import ConferWorker.SlotAssignment

/-! `PdfOcrProcessor`: the containers of a PDF from the drafts of its pages. OCR jobs are
submitted ahead of the page whose result is awaited; here the future of a job is what the job
will give. -/
namespace ConferWorker

/-- `max_concurrency` is 1 for a backend without that attribute. -/
structure OcrBackend where
  maxConcurrency : ℤ
  extract : RasterImage → Except PythonError (List TextBlock)

structure PendingOcr (Future : Type) where
  pageNumber : ℕ
  pageWidth : ℚ
  pageHeight : ℚ
  future : Future

structure PdfOcrProcessor where
  backend : Option OcrBackend
  maxConcurrency : ℤ
  tables : UnicodeTables

namespace PdfOcrProcessor

def digitsLength (s : Str) : ℕ := (s.takeWhile isDecimal).length

/-- The length of the match of `\d+(?:[.,]\d+)?` at the start. -/
def numberLength (s : Str) : Option ℕ :=
  let whole := digitsLength s
  if whole = 0 then none
  else match s.drop whole with
    | c :: rest =>
      if (c = 0x2E ∨ c = 0x2C) ∧ 0 < digitsLength rest then some (whole+1+digitsLength rest)
      else some whole
    | [] => some whole

/-- The length of the match of `NUMERIC_TOKEN` at the start, behind a character that is not of
`\w`. -/
def numericTokenLength (s : Str) : Option ℕ :=
  let sign := if s.head? = some 0x3C ∨ s.head? = some 0x3E then 1 else 0
  (numberLength (s.drop sign)).map (fun number =>
    match s.drop (sign+number) with
    | c :: rest =>
      if c = 0x2D then sign+number+((numberLength rest).map (1+·)).getD 0 else sign+number
    | [] => sign+number)

/-- `len(NUMERIC_TOKEN.findall(line))`. `skip` characters belong to the last match, and
`afterWord` says that the character in front is of `\w`. -/
def numericTokensFrom (tables : UnicodeTables) (skip : ℕ) (afterWord : Bool) : Str → ℕ
  | [] => 0
  | c :: rest =>
    match skip with
    | skip+1 => numericTokensFrom tables skip (tables.isWord c) rest
    | 0 =>
      match if afterWord then none else numericTokenLength (c :: rest) with
      | some length => 1+numericTokensFrom tables (length-1) (tables.isWord c) rest
      | none => numericTokensFrom tables 0 (tables.isWord c) rest

def numericTokens (tables : UnicodeTables) (line : Str) : ℕ :=
  numericTokensFrom tables 0 false line

def isAsciiLetter (c : CodePoint) : Bool :=
  (0x41 ≤ c.val && c.val ≤ 0x5A) || (0x61 ≤ c.val && c.val ≤ 0x7A)

/-- `LABEL_TOKEN.search(line)`. -/
def hasLabel (line : Str) : Bool :=
  (line.zip line.tail).any (fun pair => isAsciiLetter pair.1 && isAsciiLetter pair.2)

/-- `_looks_tabular`. -/
def looksTabular (tables : UnicodeTables) (blocks : List TextBlock) : Bool :=
  let lines := (blocks.flatMap (fun block => (splitLines block.text).map strip)).filter
    (fun line => line ≠ [])
  let numericLines := lines.countP (fun line => 2 ≤ numericTokens tables line)
  let shortLabeledLines := lines.countP (fun line =>
    0 < numericTokens tables line ∧ line.length ≤ 100 ∧ hasLabel line = true)
  4 ≤ numericLines || 8 ≤ shortLabeledLines

/-- `f"p{page_number + 1}-{name}"`. -/
def pageId (pageNumber : ℕ) (name : Str) : Str :=
  ofString "p"++strOfNat (pageNumber+1)++ofString "-"++name

/-- `sum(block.confidence for block in blocks) / max(1, len(blocks))`. -/
def averageConfidence (blocks : List TextBlock) : ℚ :=
  Binary64.nearest (Binary64.compensatedSum (blocks.map TextBlock.confidence)
    /Binary64.nearest (max 1 blocks.length : ℕ))

/-- `_regions`. -/
def regions (tables : UnicodeTables) (pageNumber : ℕ) (pageBounds : Bounds)
    (blocks : List TextBlock) : Except PythonError (List VisualRegion) := do
  let confidence := averageConfidence blocks
  let scanned ← VisualRegion.create (pageId pageNumber (ofString "scanned-page")) .scannedPage
    pageBounds confidence true none none
  let table ← (if looksTabular tables blocks then [ofString "ocr-table"] else []).mapM (fun name =>
    VisualRegion.create (pageId pageNumber name) .table pageBounds (Binary64.nearest (3/5)) true
      none none)
  let low ← (if confidence < Binary64.nearest (17/20)
    then [ofString "ocr-low-confidence"] else []).mapM (fun name =>
    VisualRegion.create (pageId pageNumber name) .lowConfidence pageBounds confidence true none
      none)
  pure (scanned :: table++low)

/-- The container that `_resolve` builds from the blocks of a job. -/
def ocrContainer (tables : UnicodeTables) (pageNumber : ℕ) (pageWidth pageHeight : ℚ)
    (blocks : List TextBlock) : Except PythonError DocumentContainer := do
  let pageBounds ← Bounds.create 0 0 pageWidth pageHeight
  let regions ← regions tables pageNumber pageBounds blocks
  DocumentContainer.create pageNumber pageWidth pageHeight blocks regions .page none

/-- `pages[number] = container`. -/
def setPage (pages : List (Option DocumentContainer)) (number : ℕ)
    (container : DocumentContainer) : Except PythonError (List (Option DocumentContainer)) :=
  setSlot ⟨.other (ofString "IndexError"), ofString "list assignment index out of range"⟩ pages
    number container

/-- `_completed_pages`. -/
def completedPages (pages : List (Option DocumentContainer)) :
    Except PythonError (List DocumentContainer) :=
  filledSlots ⟨.other (ofString "RuntimeError"), ofString "PDF page processing is incomplete"⟩ pages

/-- The first loop of `process`, with the drafts that need OCR. -/
def placeDrafts : List (Option DocumentContainer) → List PageDraft →
    Except PythonError (List (Option DocumentContainer) × List PageDraft)
  | pages, [] => .ok (pages, [])
  | pages, draft :: drafts =>
    match draft.route with
    | .native => do
      let container ← DocumentContainer.create draft.number draft.width draft.height draft.blocks
        draft.regions .page none
      let pages ← setPage pages draft.number container
      placeDrafts pages drafts
    | .blank => do
      let container ← DocumentContainer.create draft.number draft.width draft.height [] [] .page none
      let pages ← setPage pages draft.number container
      placeDrafts pages drafts
    | .ocr => do
      let placed ← placeDrafts pages drafts
      pure (placed.1, draft :: placed.2)

/-- `self._rasterize(document[number])`. -/
def rasterOf (source : List PdfPage) (number : ℕ) : Except PythonError RasterImage := do
  let page ← loadPage source number
  page.raster

/-- `_resolve`. -/
def resolve (tables : UnicodeTables) (pages : List (Option DocumentContainer))
    (pending : PendingOcr (Except PythonError (List TextBlock))) :
    Except PythonError (List (Option DocumentContainer)) := do
  let blocks ← pending.future
  let container ← ocrContainer tables pending.pageNumber pending.pageWidth pending.pageHeight blocks
  setPage pages pending.pageNumber container

/-- The loop of `process` that submits a job for each draft. -/
def submitDrafts (tables : UnicodeTables) (backend : OcrBackend) (source : List PdfPage)
    (concurrency : ℕ) : List (Option DocumentContainer) →
      List (PendingOcr (Except PythonError (List TextBlock))) → List PageDraft →
      Except PythonError (List (Option DocumentContainer)
        × List (PendingOcr (Except PythonError (List TextBlock))))
  | pages, pending, [] => .ok (pages, pending)
  | pages, pending, draft :: drafts => do
    let image ← rasterOf source draft.number
    let pending := pending++[⟨draft.number, draft.width, draft.height, backend.extract image⟩]
    match pending with
    | first :: rest =>
      if concurrency ≤ rest.length+1 then do
        let pages ← resolve tables pages first
        submitDrafts tables backend source concurrency pages rest drafts
      else submitDrafts tables backend source concurrency pages (first :: rest) drafts
    | [] => submitDrafts tables backend source concurrency pages [] drafts

/-- `concurrency` of `process`, the number of threads. -/
def concurrency (processor : PdfOcrProcessor) (backend : OcrBackend) : ℕ :=
  (max 1 (min processor.maxConcurrency backend.maxConcurrency)).toNat

/-- `process`. -/
def process (processor : PdfOcrProcessor) (source : List PdfPage) (drafts : List PageDraft) :
    Except PythonError (List DocumentContainer) := do
  let (pages, ocrDrafts) ← placeDrafts (List.replicate drafts.length none) drafts
  match ocrDrafts with
  | [] => completedPages pages
  | draft :: rest =>
    match processor.backend with
    | none => .error ⟨.other (ofString "OcrRequiredError"),
        ofString "page "++strOfNat (draft.number+1)++ofString " requires OCR"⟩
    | some backend => do
      let (pages, pending) ← submitDrafts processor.tables backend source
        (processor.concurrency backend) pages [] (draft :: rest)
      let pages ← pending.foldlM (resolve processor.tables) pages
      completedPages pages

end PdfOcrProcessor

end ConferWorker
