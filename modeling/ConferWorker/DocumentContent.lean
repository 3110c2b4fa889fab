import Mathlib.Data.Rat.Defs
import Mathlib.Algebra.Order.Field.Rat
import ConferWorker.PythonText

/-! The domain classes of the document worker. What `__post_init__` checks is a
field of the structure. Floats are finite and stand for their rational values. -/
namespace ConferWorker

inductive ContainerKind
  | page | slide | sheet | document | text
  deriving DecidableEq, Repr

inductive TextSource
  | native | ocr
  deriving DecidableEq, Repr

inductive VisualRegionType
  | image | table | form | chart | scannedPage | lowConfidence
  deriving DecidableEq, Repr

/-- The value of the `StrEnum` member. -/
def ContainerKind.value : ContainerKind → Str
  | page => ofString "page"
  | slide => ofString "slide"
  | sheet => ofString "sheet"
  | document => ofString "document"
  | text => ofString "text"

def TextSource.value : TextSource → Str
  | native => ofString "native"
  | ocr => ofString "ocr"

def VisualRegionType.value : VisualRegionType → Str
  | image => ofString "image"
  | table => ofString "table"
  | form => ofString "form"
  | chart => ofString "chart"
  | scannedPage => ofString "scanned_page"
  | lowConfidence => ofString "low_confidence"

/-- `ContainerKind(value)`: `none` where Python raises ValueError. -/
def ContainerKind.ofValue (value : Str) : Option ContainerKind :=
  [page, slide, sheet, document, text].find? (fun kind => kind.value == value)

/-- `VisualRegionType(value)`: `none` where Python raises ValueError. -/
def VisualRegionType.ofValue (value : Str) : Option VisualRegionType :=
  [image, table, form, chart, scannedPage, lowConfidence].find? (fun type => type.value == value)

@[simp] theorem ContainerKind.ofValue_value (kind : ContainerKind) :
    ContainerKind.ofValue kind.value = some kind := by
  cases kind <;> rfl

@[simp] theorem VisualRegionType.ofValue_value (type : VisualRegionType) :
    VisualRegionType.ofValue type.value = some type := by
  cases type <;> rfl

structure Bounds where
  x0 : ℚ
  y0 : ℚ
  x1 : ℚ
  y1 : ℚ
  rectangle : 0 ≤ x0 ∧ 0 ≤ y0 ∧ x0 ≤ x1 ∧ y0 ≤ y1
  deriving DecidableEq

def Bounds.intersects (self other : Bounds) : Bool :=
  self.x0 < other.x1 && self.x1 > other.x0 && self.y0 < other.y1 && self.y1 > other.y0

structure TextBlock where
  text : Str
  bounds : Bounds
  source : TextSource
  confidence : ℚ
  confidence_range : 0 ≤ confidence ∧ confidence ≤ 1

structure VisualRegion where
  id : Str
  type : VisualRegionType
  bounds : Bounds
  confidence : ℚ
  renderable : Bool
  assetMediaType : Option Str
  asset : Option Bytes
  id_required : id ≠ []
  confidence_range : 0 ≤ confidence ∧ confidence ≤ 1
  asset_nonempty : asset ≠ some []
  asset_png : asset ≠ none → assetMediaType = some (ofString "image/png")
  asset_required : asset = none → assetMediaType = none
  asset_renderable : asset ≠ none → renderable = true

structure DocumentContainer where
  number : ℕ
  width : ℚ
  height : ℚ
  blocks : List TextBlock
  regions : List VisualRegion
  kind : ContainerKind
  label : Option Str
  dimensions : 0 < width ∧ 0 < height

structure OutlineEntry where
  level : ℕ
  title : Str
  containerNumber : ℕ
  level_positive : 1 ≤ level
  title_required : title ≠ []

structure DocumentContent where
  sourceSha256 : Str
  containers : List DocumentContainer
  mediaType : Str
  title : Option Str
  outline : List OutlineEntry
  sha_length : sourceSha256.length = 64
  sha_hexadecimal : (pythonInt 16 sourceSha256).isSome
  media_type_required : mediaType ≠ []
  contiguous : containers.map DocumentContainer.number = List.range containers.length
  outline_references : ∀ entry ∈ outline, entry.containerNumber < containers.length

/-- The hash of a `DocumentSource`: 64 hexadecimal digits, in lower case. -/
def IsSourceHash (sha256 : Str) : Prop :=
  sha256.length = 64 ∧ sha256.all isHexDigit = true ∧ lowerAscii sha256 = sha256

theorem DocumentContent.number_eq (document : DocumentContent) (i : ℕ)
    (h : i < document.containers.length) : document.containers[i].number = i := by
  have hget := congrArg (fun numbers => numbers[i]?) document.contiguous
  simpa [h] using hget

/-! What the constructors check, at the values of the sample documents. -/

theorem confidence_one : (0 : ℚ) ≤ 1 ∧ (1 : ℚ) ≤ 1 := by decide

theorem unit_rectangle : (0 : ℚ) ≤ 0 ∧ (0 : ℚ) ≤ 0 ∧ (0 : ℚ) ≤ 1 ∧ (0 : ℚ) ≤ 1 := by decide

theorem unit_dimensions : (0 : ℚ) < 1 ∧ (0 : ℚ) < 1 := by decide

theorem repeatedDigit_length : (List.replicate 64 (0x61 : CodePoint)).length = 64 := by decide

theorem repeatedDigit_hexadecimal :
    (pythonInt 16 (List.replicate 64 0x61)).isSome = true := by decide

theorem pdfType_ne_nil : ofString "application/pdf" ≠ [] := by decide

end ConferWorker
