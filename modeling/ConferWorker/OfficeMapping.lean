import ConferWorker.DomainConstructors
import ConferWorker.PathNames
import ConferWorker.PythonDict
import ConferWorker.SessionValues

/-! `DoclingDocumentMapper`: the items of a converted document become the containers of a
`DocumentContent`. -/
namespace ConferWorker

structure BoundingBox where
  l : ℚ
  t : ℚ
  r : ℚ
  b : ℚ

/-- The first provenance of an item; `topLeft` is `bbox.to_top_left_origin`. -/
structure Provenance where
  pageNumber : ℤ
  bbox : BoundingBox
  topLeft : ℚ → BoundingBox

/-- What the mapper takes from an item of each class: `export_to_markdown`, `caption_text`,
the label, and the PNG that `_picture_png` makes of the image. Headings have a level. -/
inductive DoclingContent
  | table (markdown : Str)
  | picture (caption : Str) (chart : Bool) (png : Option Bytes)
  | sectionHeader (level : ℤ) (text : Str)
  | title (text : Str)
  | text (text : Str)
  | other

structure DoclingItem where
  provenance : Option Provenance
  content : DoclingContent

/-- A Docling document: `pages` holds the size of each page under its number, `sheetNames` the
names of the groups that are sheets. -/
structure DoclingDocument where
  pages : PythonDict ℤ (ℚ × ℚ)
  items : List DoclingItem
  sheetNames : List Str
  name : Option Str

structure ContainerDraft where
  number : ℤ
  width : ℚ
  height : ℚ
  kind : ContainerKind
  label : Option Str
  blocks : List TextBlock
  regions : List VisualRegion

structure OfficeExtractionLimits where
  sourceBytes : ℕ
  containers : ℕ
  imagePixels : ℕ
  imageBytes : ℕ
  totalImageBytes : ℕ

/-- The local variables of `map`; `regionCounts` is 0 for a key that it does not hold. -/
structure MapperState where
  drafts : PythonDict ℤ ContainerDraft
  outline : List OutlineEntry
  regionCounts : ℕ × Str → ℕ
  totalImageBytes : ℕ

namespace DoclingDocumentMapper

/-- `_kind`. -/
def containerKind (mediaType : Str) : ContainerKind :=
  if mediaType = ofString
      "application/vnd.openxmlformats-officedocument.presentationml.presentation" then .slide
  else if mediaType = ofString
      "application/vnd.openxmlformats-officedocument.spreadsheetml.sheet" then .sheet
  else if mediaType = ofString
      "application/vnd.openxmlformats-officedocument.wordprocessingml.document" then .document
  else .text

/-- `_container_labels`. -/
def containerLabels (document : DoclingDocument) (kind : ContainerKind) (index : ℤ) : Option Str :=
  if kind = .sheet ∧ 0 ≤ index then
    (document.sheetNames.filter (fun name => name ≠ []))[index.toNat]?
  else none

/-- The drafts before the first item. -/
def pageDrafts (document : DoclingDocument) (kind : ContainerKind) (filename : Str) :
    PythonDict ℤ ContainerDraft :=
  let labels := containerLabels document kind
  let drafts := document.pages.entries.foldl (fun (drafts : PythonDict ℤ ContainerDraft) page =>
    drafts.set (page.1-1)
      ⟨page.1-1, max 1 page.2.1, max 1 page.2.2, kind, labels (page.1-1), [], []⟩) .empty
  if drafts.entries.isEmpty then
    drafts.set 0 ⟨0, 1, 1, kind, some ((labels 0).getD filename), [], []⟩
  else drafts

/-- `_location`. -/
def location (item : DoclingItem) (drafts : PythonDict ℤ ContainerDraft) :
    Except PythonError (ℕ × Option Bounds) :=
  match item.provenance with
  | none => .ok (0, none)
  | some value => do
    let pageNumber := (max 0 (value.pageNumber-1)).toNat
    let pageHeight := match drafts.get? pageNumber with
      | some draft => draft.height
      | none => max 1 (max value.bbox.t value.bbox.b)
    let bbox := value.topLeft pageHeight
    let x0 := max 0 (min bbox.l bbox.r)
    let x1 := max (x0+1/1000) (max bbox.l bbox.r)
    let y0 := max 0 (min bbox.t bbox.b)
    let y1 := max (y0+1/1000) (max bbox.t bbox.b)
    let bounds ← Bounds.create x0 y0 x1 y1
    pure (pageNumber, some bounds)

/-- `f"c{page_number + 1}-{region_type.value}-{count}"`. -/
def regionId (pageNumber : ℕ) (type : VisualRegionType) (count : ℕ) : Str :=
  ofString "c"++strOfNat (pageNumber+1)++ofString "-"++type.value++ofString "-"++strOfNat count

/-- `_region`, with the counts after it. -/
def region (counts : ℕ × Str → ℕ) (pageNumber : ℕ) (type : VisualRegionType) (bounds : Bounds)
    (renderable : Bool) (asset : Option Bytes) :
    Except PythonError (VisualRegion × (ℕ × Str → ℕ)) := do
  let key := (pageNumber, type.value)
  let counts := Function.update counts key (counts key+1)
  let region ← VisualRegion.create (regionId pageNumber type (counts key)) type bounds 1 renderable
    (asset.map (fun _ => ofString "image/png")) asset
  pure (region, counts)

/-- `_picture_png`. -/
def picturePng (limits : OfficeExtractionLimits) (png : Option Bytes) (remainingBytes : ℤ) :
    Option Bytes :=
  if remainingBytes ≤ 0 then none
  else png.bind (fun png =>
    if limits.imageBytes < png.length ∨ remainingBytes < png.length then none else some png)

/-- `f"{'#' * min(6, level)} {text}"`. -/
def headingText (level : ℤ) (text : Str) : Str :=
  List.replicate (min 6 level).toNat 0x23++ofString " "++text

/-- A text item: its block, and the outline entry of a heading. -/
def mapText (state : MapperState) (pageNumber : ℕ) (draft : ContainerDraft) (bounds : Bounds)
    (level : Option ℤ) (text : Str) : Except PythonError MapperState :=
  let text := strip text
  if text = [] then .ok state
  else
    match level with
    | none => do
      let block ← TextBlock.create text bounds .native 1
      pure { state with
        drafts := state.drafts.set pageNumber { draft with blocks := draft.blocks++[block] } }
    | some level => do
      let entry ← OutlineEntry.create level.toNat text pageNumber
      let block ← TextBlock.create (headingText level text) bounds .native 1
      pure { state with
        outline := state.outline++[entry]
        drafts := state.drafts.set pageNumber { draft with blocks := draft.blocks++[block] } }

/-- A block and a region for a table or a picture. -/
def mapFigure (state : MapperState) (pageNumber : ℕ) (draft : ContainerDraft) (bounds : Bounds)
    (type : VisualRegionType) (text : Str) (renderable : Bool) (asset : Option Bytes) :
    Except PythonError MapperState := do
  let block ← TextBlock.create text bounds .native 1
  let (region, counts) ← region state.regionCounts pageNumber type bounds renderable asset
  pure { state with
    drafts := state.drafts.set pageNumber
      { draft with blocks := draft.blocks++[block], regions := draft.regions++[region] }
    regionCounts := counts }

/-- The draft that an item goes to, and its bounds: without a location it is a line of
its own. -/
def placeItem (kind : ContainerKind) (drafts : PythonDict ℤ ContainerDraft) (pageNumber : ℕ)
    (bounds : Option Bounds) :
    Except PythonError (PythonDict ℤ ContainerDraft × ContainerDraft × Bounds) := do
  let drafts := drafts.setDefault pageNumber ⟨pageNumber, 1, 1, kind, none, [], []⟩
  let draft := (drafts.get? pageNumber).getD ⟨pageNumber, 1, 1, kind, none, [], []⟩
  match bounds with
  | some bounds => pure (drafts, draft, bounds)
  | none =>
    let y := draft.blocks.length
    let bounds ← Bounds.create 0 y 1 (y+1)
    let draft := { draft with height := max draft.height (y+1) }
    pure (drafts.set pageNumber draft, draft, bounds)

/-- One round of the loop over the items. -/
def mapItem (limits : OfficeExtractionLimits) (kind : ContainerKind) (state : MapperState)
    (item : DoclingItem) : Except PythonError MapperState := do
  let (pageNumber, bounds) ← location item state.drafts
  raiseIf (limits.containers ≤ pageNumber)
    (.valueError (ofString "document item references an invalid container"))
  let (drafts, draft, bounds) ← placeItem kind state.drafts pageNumber bounds
  let state := { state with drafts := drafts }
  match item.content with
  | .table markdown =>
    let text := strip markdown
    if text = [] then pure state
    else mapFigure state pageNumber draft bounds .table text false none
  | .picture caption chart png =>
    let caption := strip caption
    let text := if caption = [] then ofString "[Image]"
      else ofString "[Image: "++caption++ofString "]"
    let asset := picturePng limits png (limits.totalImageBytes-state.totalImageBytes : ℤ)
    let state := { state with totalImageBytes := state.totalImageBytes+(asset.getD []).length }
    mapFigure state pageNumber draft bounds (if chart then .chart else .image) text asset.isSome
      asset
  | .sectionHeader level text => mapText state pageNumber draft bounds (some level) text
  | .title text => mapText state pageNumber draft bounds (some 1) text
  | .text text => mapText state pageNumber draft bounds none text
  | .other => pure state

/-- The drafts from 0 to `max(drafts)`, the missing ones filled in. -/
def completedDrafts (kind : ContainerKind) (drafts : PythonDict ℤ ContainerDraft) :
    List ContainerDraft :=
  let maximumContainer := drafts.keys.max?.getD 0
  (List.range (maximumContainer+1).toNat).map (fun index : ℕ =>
    (drafts.get? index).getD ⟨index, 1, 1, kind, none, [], []⟩)

/-- `map`. -/
def map (limits : OfficeExtractionLimits) (document : DoclingDocument) (source : DocumentSource)
    (filename mediaType : Str) : Except PythonError DocumentContent := do
  let kind := containerKind mediaType
  raiseIf (limits.containers < document.pages.entries.length)
    (.valueError (ofString "document contains too many containers"))
  let state ← document.items.foldlM (mapItem limits kind)
    ⟨pageDrafts document kind filename, [], fun _ => 0, 0⟩
  let containers ← (completedDrafts kind state.drafts).zipIdx.mapM (fun draft =>
    DocumentContainer.create draft.2 draft.1.width draft.1.height draft.1.blocks draft.1.regions
      draft.1.kind draft.1.label)
  let stem := pathStem filename
  DocumentContent.create source.sha256 containers mediaType
    (if stem ≠ [] then some stem else document.name) state.outline

end DoclingDocumentMapper

end ConferWorker
