import ConferWorker.ParallelPdf
import ConferWorker.SessionValues

/-! `PdfExtractor.extract`: the content of a PDF. -/
namespace ConferWorker

namespace PdfExtractor

def maxPages : ℕ := 5000

def maxPdfBytes : ℕ := 256*1024*1024

/-- `_clean_title`. -/
def cleanTitle (value : Option Str) : Option Str :=
  value.bind (fun value =>
    let cleaned := (strip (collapseSpace value)).take 500
    if cleaned = [] then none else some cleaned)

/-- The outline of `extract`. -/
def outline (document : PdfDocument) : Except PythonError (List OutlineEntry) :=
  (document.toc.filter (fun entry =>
      decide (1 ≤ entry.2.2 ∧ entry.2.2 ≤ (document.pages.length : ℤ)))).mapM
    (fun entry => OutlineEntry.create entry.1
      ((cleanTitle entry.2.1).getD (ofString "Untitled")) (entry.2.2-1).toNat)

/-- `extract`; `openPdf` is `pymupdf.open` on the bytes of a file, `none` for FileDataError. -/
def extract (extractor : PdfExtractor) (processor : PdfOcrProcessor)
    (openPdf : Bytes → Option PdfDocument) (source : DocumentSource) :
    Except PythonError DocumentContent := do
  raiseIf (source.length = 0) (.valueError (ofString "PDF is empty"))
  raiseIf (maxPdfBytes < source.length) (.valueError (ofString "PDF exceeds maximum size"))
  match openPdf source.content with
  | none => .error (.valueError (ofString "PDF is invalid"))
  | some document =>
    raiseIf (document.needsPass = true)
      (.valueError (ofString "password-protected PDFs are not supported"))
    raiseIf (maxPages < document.pages.length)
      (.valueError (ofString "PDF exceeds maximum page count"))
    let title := cleanTitle document.title
    let outline ← outline document
    let drafts ← extractor.scanPages document.pages
    let pages ← processor.process document.pages drafts
    DocumentContent.create source.sha256 pages (ofString "application/pdf") title outline

end PdfExtractor

end ConferWorker
