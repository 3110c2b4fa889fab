import Mathlib.Data.List.Sort
import ConferWorker.DomainConstructors
import ConferWorker.PythonFloats
import ConferWorker.UnicodeText

/-! Scanning a PDF: `PdfPageScanner` makes a draft of each page, `PdfExtractor._scan_pages`
of all pages, in one process or in ranges of pages in several. -/
namespace ConferWorker

inductive PageRoute
  | native | ocr | blank
  deriving DecidableEq, Repr

structure PageDraft where
  number : ℕ
  width : ℚ
  height : ℚ
  route : PageRoute
  blocks : List TextBlock
  regions : List VisualRegion

structure RasterImage where
  width : ℕ
  height : ℕ
  samples : Bytes
  pageWidth : ℚ
  pageHeight : ℚ
  pageX0 : ℚ
  pageY0 : ℚ

/-- A tuple of `page.get_text("blocks", sort=True)`: `block[6]`, `block[4]`, and what
`TableDetector.bounds` makes of `block[:4]`. -/
structure PageTextBlock where
  kind : ℕ
  text : Str
  bounds : Option Bounds

/-- A page as PyMuPDF and the geometry of `TableDetector` and `PageClassifier` show it:
`imageBounds` are the bounds of `page.get_image_info`, `tables` is `TableDetector.detect` and
`raster` is `_rasterize`. -/
structure PdfPage where
  number : ℕ
  width : ℚ
  height : ℚ
  textBlocks : List PageTextBlock
  imageCoverage : ℚ
  hasImages : Bool
  imageBounds : List (Option Bounds)
  tables : List Bounds
  raster : Except PythonError RasterImage

/-- An open PDF: `toc` holds level, title and page number of each entry of `get_toc`. -/
structure PdfDocument where
  pages : List PdfPage
  needsPass : Bool
  title : Option Str
  toc : List (ℕ × Option Str × ℤ)
  numbered : pages.map PdfPage.number = List.range pages.length

structure PageClassifier where
  minNativeCharacters : ℕ
  sparseNativeCharacters : ℕ
  minImageCoverage : ℚ
  fullPageImageCoverage : ℚ
  maxReplacementRatio : ℚ

namespace PageClassifier

/-- `PageClassifier()`. -/
def default : PageClassifier :=
  ⟨20, 300, Binary64.nearest (1/20), Binary64.nearest (9/20), Binary64.nearest (1/50)⟩

/-- The route of `classify`. -/
def classify (classifier : PageClassifier) (page : PdfPage) (blocks : List TextBlock) :
    PageRoute :=
  let text := blocks.flatMap TextBlock.text
  let nonWhitespace := text.countP (fun c => !isSpace c)
  let replacementRatio := Binary64.nearest ((text.count 0xFFFD : ℚ)/(max 1 text.length : ℕ))
  if replacementRatio ≤ classifier.maxReplacementRatio
      ∧ classifier.sparseNativeCharacters ≤ nonWhitespace then .native
  else if nonWhitespace = 0 then
    if classifier.minImageCoverage < page.imageCoverage then .ocr else .blank
  else if classifier.maxReplacementRatio < replacementRatio
      ∨ (classifier.fullPageImageCoverage ≤ page.imageCoverage
        ∧ nonWhitespace < classifier.sparseNativeCharacters)
      ∨ (nonWhitespace < classifier.minNativeCharacters
        ∧ classifier.minImageCoverage < page.imageCoverage) then .ocr
  else .native

end PageClassifier

namespace PdfPageScanner

/-- The lengths of the matches of `COLUMN_GAP` in a line without outer white space. -/
def columnGaps (line : Str) : List ℕ :=
  ((runs isSpace line).map List.length).filter (4 ≤ ·)

/-- The loop of `_may_contain_table`. -/
def gapsOrColumns (gapScore compactColumnBlocks : ℕ) : List TextBlock → Bool
  | [] => 3 ≤ compactColumnBlocks
  | block :: blocks =>
    let lines := ((splitLines block.text).map strip).filter (fun line => line ≠ [])
    let gapScore := gapScore+(lines.flatMap columnGaps).sum
    let compact := 3 ≤ lines.length ∧ lines.length ≤ 6
      ∧ (lines.map List.length).sum < 40*lines.length
    let compactColumnBlocks := if compact then compactColumnBlocks+1 else compactColumnBlocks
    if 100 ≤ gapScore then true else gapsOrColumns gapScore compactColumnBlocks blocks

/-- `_may_contain_table`. -/
def mayContainTable (blocks : List TextBlock) : Bool :=
  12 ≤ blocks.length || gapsOrColumns 0 0 blocks

/-- `_native_blocks`. -/
def nativeBlocks (page : PdfPage) : Except PythonError (List TextBlock) :=
  (page.textBlocks.filterMap (fun block =>
    if block.kind ≠ 0 ∨ isBlank block.text then none
    else block.bounds.map (fun bounds => (block.text, bounds)))).mapM
      (fun block => TextBlock.create block.1 block.2 .native 1)

/-- `f"p{page.number + 1}-{name}-{index + 1}"`. -/
def numberedId (pageNumber : ℕ) (name : Str) (index : ℕ) : Str :=
  ofString "p"++strOfNat (pageNumber+1)++ofString "-"++name++ofString "-"++strOfNat (index+1)

/-- The images that `_native_regions` keeps, each with its place in the list. The coordinates of
MuPDF are of single precision, so that no product overflows. -/
def keptImages (page : PdfPage) : List (Bounds × ℕ) :=
  let pageArea := max 1 (Binary64.nearest (page.width*page.height))
  (if page.hasImages then page.imageBounds else []).zipIdx.filterMap (fun image =>
    image.1.bind (fun bounds =>
      let area := Binary64.nearest
        (Binary64.nearest (bounds.x1-bounds.x0)*Binary64.nearest (bounds.y1-bounds.y0))
      if Binary64.nearest (area/pageArea) < Binary64.nearest (1/200) then none
      else some (bounds, image.2)))

/-- `_native_regions`. -/
def nativeRegions (page : PdfPage) (blocks : List TextBlock) :
    Except PythonError (List VisualRegion) := do
  let images ← (keptImages page).mapM (fun image =>
    VisualRegion.create (numberedId page.number (ofString "image") image.2) .image image.1 1 true
      none none)
  let tables ← (if mayContainTable blocks then page.tables else []).zipIdx.mapM (fun table =>
    VisualRegion.create (numberedId page.number (ofString "table") table.2) .table table.1 (3/4)
      true none none)
  pure (images++tables)

/-- `scan`. -/
def scan (classifier : PageClassifier) (page : PdfPage) : Except PythonError PageDraft := do
  let blocks ← nativeBlocks page
  let route := classifier.classify page blocks
  let width := roundHundredths page.width
  let height := roundHundredths page.height
  if route = .native then
    let regions ← nativeRegions page blocks
    pure ⟨page.number, width, height, route, blocks, regions⟩
  else pure ⟨page.number, width, height, route, [], []⟩

end PdfPageScanner

/-- `document[page_number]`. -/
def loadPage (pages : List PdfPage) (pageNumber : ℕ) : Except PythonError PdfPage :=
  match pages[pageNumber]? with
  | some page => .ok page
  | none => .error ⟨.other (ofString "IndexError"), ofString "page not in document"⟩

/-- `PdfExtractor` as far as it scans. `cpuCount` is `os.cpu_count()`, and `poolPermitted` says
whether the process pool can be made. -/
structure PdfExtractor where
  classifier : PageClassifier
  scanWorkers : Option ℤ
  maxScanWorkers : ℤ
  cpuCount : Option ℕ
  poolPermitted : Bool

namespace PdfExtractor

/-- `PARALLEL_SCAN_MIN_PAGES`. -/
def parallelScanMinPages : ℕ := 32

/-- `_scan_worker_count`. -/
def scanWorkerCount (extractor : PdfExtractor) (pageCount : ℕ) : ℕ :=
  match extractor.scanWorkers with
  | some scanWorkers => (max 1 (min extractor.maxScanWorkers (min scanWorkers pageCount))).toNat
  | none =>
    if pageCount < parallelScanMinPages then 1
    else
      let cpus := match extractor.cpuCount with
        | none | some 0 => 1
        | some n => n
      (max 1 (min extractor.maxScanWorkers (min cpus pageCount))).toNat

/-- The ranges of pages of `_scan_pages`. -/
def pageRanges (pageCount chunkSize : ℕ) : List (ℕ × ℕ) :=
  (List.range' 0 ((pageCount+chunkSize-1)/chunkSize) chunkSize).map (fun start =>
    (start, min pageCount (start+chunkSize)))

/-- The pages of `range(start, end)`. -/
def pagesOf (range : ℕ × ℕ) : List ℕ := List.range' range.1 (range.2-range.1)

/-- `math.ceil(page_count / workers)`. -/
def chunkSize (pageCount workers : ℕ) : ℕ := (pageCount+workers-1)/workers

/-- `PdfPageRangeScanner.__call__`. -/
def scanRange (classifier : PageClassifier) (pages : List PdfPage) (range : ℕ × ℕ) :
    Except PythonError (List PageDraft) :=
  (pagesOf range).mapM (fun pageNumber => do
    let page ← loadPage pages pageNumber
    PdfPageScanner.scan classifier page)

/-- One process scans all pages. -/
def scanInOrder (extractor : PdfExtractor) (pages : List PdfPage) :
    Except PythonError (List PageDraft) :=
  pages.mapM (PdfPageScanner.scan extractor.classifier)

/-- `_scan_pages`. -/
def scanPages (extractor : PdfExtractor) (pages : List PdfPage) :
    Except PythonError (List PageDraft) :=
  let workers := extractor.scanWorkerCount pages.length
  if workers = 1 then extractor.scanInOrder pages
  else if extractor.poolPermitted then do
    let ranges := pageRanges pages.length (chunkSize pages.length workers)
    let batches ← ranges.mapM (scanRange extractor.classifier pages)
    pure (batches.flatten.insertionSort (fun a b => a.number ≤ b.number))
  else extractor.scanInOrder pages

end PdfExtractor

namespace PdfPageScanner

theorem numberedId_ne_nil (pageNumber : ℕ) (name : Str) (index : ℕ) :
    numberedId pageNumber name index ≠ [] := by
  intro h
  have hlength := congrArg List.length h
  rw [numberedId] at hlength
  simp only [List.append_assoc, List.length_append, List.length_nil] at hlength
  have hfirst : (ofString "p").length = 1 := by decide
  omega

theorem nativeRegions_returns (page : PdfPage) (blocks : List TextBlock) :
    ∃ regions, nativeRegions page blocks = .ok regions := by
  obtain ⟨images, himages⟩ := mapM_returns (fun image : Bounds × ℕ =>
      VisualRegion.create (numberedId page.number (ofString "image") image.2) .image image.1 1 true
        none none) (keptImages page)
    (fun image _ => VisualRegion.create_plain .image image.1 true (numberedId_ne_nil _ _ _)
      ⟨zero_le_one, le_refl 1⟩)
  obtain ⟨tables, htables⟩ := mapM_returns (fun table : Bounds × ℕ =>
      VisualRegion.create (numberedId page.number (ofString "table") table.2) .table table.1 (3/4)
        true none none) (if mayContainTable blocks then page.tables else []).zipIdx
    (fun table _ => VisualRegion.create_plain .table table.1 true (numberedId_ne_nil _ _ _)
      (by norm_num))
  refine ⟨images++tables, ?_⟩
  rw [nativeRegions, himages, ok_bind, htables, ok_bind]
  rfl

/-- Scanning never fails, and a draft has the number of its page. -/
theorem scan_returns (classifier : PageClassifier) (page : PdfPage) :
    ∃ draft, scan classifier page = .ok draft ∧ draft.number = page.number := by
  obtain ⟨blocks, hnative⟩ : ∃ blocks, nativeBlocks page = .ok blocks :=
    mapM_returns _ _ (fun block _ => ⟨_, dif_pos ⟨zero_le_one, le_refl 1⟩⟩)
  obtain ⟨regions, hregions⟩ := nativeRegions_returns page blocks
  unfold scan
  rw [hnative, ok_bind]
  dsimp only
  split_ifs
  · rw [hregions, ok_bind]
    exact ⟨_, rfl, rfl⟩
  · exact ⟨_, rfl, rfl⟩

end PdfPageScanner

namespace PdfExtractor

/-- Consecutive ranges cover what lies between the first start and the last end. -/
theorem ranges_flatten (pageCount chunkSize start count : ℕ) :
    ((List.range' start count chunkSize).map (fun start =>
        (start, min pageCount (start+chunkSize)))).flatMap pagesOf
      = List.range' start (min pageCount (start+count*chunkSize)-start) := by
  induction count generalizing start with
  | zero =>
    have hnone : min pageCount (start+0*chunkSize)-start = 0 := by omega
    rw [hnone]
    rfl
  | succ count ih =>
    have hsucc : start+(count+1)*chunkSize = start+chunkSize+count*chunkSize := by ring
    rw [List.range'_succ, List.map_cons, List.flatMap_cons, ih, hsucc, pagesOf]
    dsimp only
    rcases Nat.lt_or_ge pageCount (start+chunkSize) with hlast | hmore
    · -- the first range reaches the end, the others are empty
      have hempty : min pageCount (start+chunkSize+count*chunkSize)-(start+chunkSize) = 0 := by
        omega
      have hwhole : min pageCount (start+chunkSize)-start
          = min pageCount (start+chunkSize+count*chunkSize)-start := by omega
      rw [hempty, hwhole, List.range'_zero, List.append_nil]
    · have hfirst : min pageCount (start+chunkSize)-start = chunkSize := by omega
      have hsplit : min pageCount (start+chunkSize+count*chunkSize)-start
          = chunkSize+(min pageCount (start+chunkSize+count*chunkSize)-(start+chunkSize)) := by
        omega
      rw [hfirst, hsplit, List.range'_append_1]

/-- The ranges partition the pages, in order. -/
theorem pageRanges_partition (pageCount : ℕ) {chunkSize : ℕ} (h : 0 < chunkSize) :
    (pageRanges pageCount chunkSize).flatMap pagesOf = List.range pageCount := by
  have hcovers : pageCount ≤ (pageCount+chunkSize-1)/chunkSize*chunkSize := by
    have hdiv := Nat.div_add_mod (pageCount+chunkSize-1) chunkSize
    have hmod := Nat.mod_lt (pageCount+chunkSize-1) h
    rw [Nat.mul_comm] at hdiv
    omega
  rw [pageRanges, ranges_flatten, Nat.zero_add, Nat.min_eq_left hcovers, Nat.sub_zero,
    List.range_eq_range']

theorem scanWorkerCount_pos (extractor : PdfExtractor) (pageCount : ℕ) :
    0 < extractor.scanWorkerCount pageCount := by
  unfold scanWorkerCount
  split
  · omega
  · split_ifs
    · exact Nat.one_pos
    · exact Int.pos_iff_toNat_pos.mp (lt_of_lt_of_le one_pos (le_max_left _ _))

theorem scanWorkerCount_le (extractor : PdfExtractor) (pageCount : ℕ) :
    extractor.scanWorkerCount pageCount ≤ max 1 pageCount := by
  unfold scanWorkerCount
  split
  · omega
  · split_ifs
    · exact le_max_left _ _
    · dsimp only
      split <;> omega

theorem chunkSize_pos {pageCount workers : ℕ} (hworkers : 0 < workers) (hpages : 0 < pageCount) :
    0 < chunkSize pageCount workers :=
  Nat.div_pos (by omega) hworkers

section Scans

variable {extractor : PdfExtractor} {pages : List PdfPage}

theorem scanInOrder_ok {drafts : List PageDraft} (h : extractor.scanInOrder pages = .ok drafts) :
    drafts.map PageDraft.number = pages.map PdfPage.number := by
  refine mapM_map_eq (fun page _ draft hdraft => ?_) h
  obtain ⟨scanned, hscanned, hnumber⟩ := PdfPageScanner.scan_returns extractor.classifier page
  rw [hdraft, Except.ok.injEq] at hscanned
  rw [hscanned, hnumber]

/-- Scanning the ranges one after the other is scanning the pages one after the other. -/
theorem scanRanges_eq (ranges : List (ℕ × ℕ))
    (hranges : ranges.flatMap pagesOf = List.range pages.length) :
    List.flatten <$> ranges.mapM (scanRange extractor.classifier pages)
      = extractor.scanInOrder pages := by
  have hflatten (ranges : List (ℕ × ℕ)) :
      List.flatten <$> ranges.mapM (scanRange extractor.classifier pages)
        = (ranges.flatMap pagesOf).mapM (fun pageNumber => do
            let page ← loadPage pages pageNumber
            PdfPageScanner.scan extractor.classifier page) := by
    induction ranges with
    | nil => rfl
    | cons range ranges ih =>
      rw [List.flatMap_cons, List.mapM_append, ← ih, List.mapM_cons, scanRange]
      simp only [map_eq_pure_bind, bind_assoc, pure_bind, List.flatten_cons]
  have hpages (rest : List PdfPage) (start : ℕ) (hrest : pages.drop start = rest) :
      (List.range' start rest.length).mapM (fun pageNumber => do
        let page ← loadPage pages pageNumber
        PdfPageScanner.scan extractor.classifier page)
        = rest.mapM (PdfPageScanner.scan extractor.classifier) := by
    induction rest generalizing start with
    | nil => rfl
    | cons page rest ih =>
      have hget : pages[start]? = some page := by
        rw [← List.head?_drop, hrest, List.head?_cons]
      have hload : loadPage pages start = .ok page := by rw [loadPage, hget]
      have htail : pages.drop (start+1) = rest := by
        rw [← List.drop_drop, hrest, List.drop_one, List.tail_cons]
      rw [List.length_cons, List.range'_succ, List.mapM_cons, List.mapM_cons, ih _ htail, hload]
      rfl
  rw [hflatten, hranges, List.range_eq_range', scanInOrder, hpages pages 0 rfl]

/-- However many processes scan, the drafts are those of one process. -/
theorem scanPages_eq (hnumbers : pages.map PdfPage.number = List.range pages.length) :
    extractor.scanPages pages = extractor.scanInOrder pages := by
  have hworkers := extractor.scanWorkerCount_pos pages.length
  have hmost := extractor.scanWorkerCount_le pages.length
  unfold scanPages
  dsimp only
  split_ifs with hone hpool
  · rfl
  · rcases Nat.eq_zero_or_pos pages.length with hzero | hpos
    · exact absurd (by omega) hone
    · have hranges : List.flatten <$> (pageRanges pages.length (chunkSize pages.length
          (extractor.scanWorkerCount pages.length))).mapM (scanRange extractor.classifier pages)
          = extractor.scanInOrder pages :=
        scanRanges_eq _ (pageRanges_partition pages.length (chunkSize_pos hworkers hpos))
      obtain ⟨drafts, hdrafts⟩ : ∃ drafts, extractor.scanInOrder pages = .ok drafts :=
        mapM_returns _ _ (fun page _ =>
          (PdfPageScanner.scan_returns extractor.classifier page).imp fun _ h => h.1)
      rw [hdrafts, map_eq_ok] at hranges
      obtain ⟨batches, hbatches, hflatten⟩ := hranges
      -- the drafts are sorted already, for they have the numbers of the pages
      have hsorted : drafts.Pairwise (fun a b => a.number ≤ b.number) := by
        have hlist := (List.pairwise_lt_range (n := pages.length)).imp Nat.le_of_lt
        rw [← hnumbers, ← scanInOrder_ok hdrafts, List.pairwise_map] at hlist
        exact hlist
      rw [hbatches, ok_bind, hflatten, hsorted.insertionSort_eq, hdrafts]
      rfl
  · rfl

end Scans

end PdfExtractor

end ConferWorker
