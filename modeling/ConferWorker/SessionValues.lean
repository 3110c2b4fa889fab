import ConferWorker.DocumentContent
import ConferWorker.SessionRequests

/-! The values that pass through a document session. An artifact may come from
anywhere, so a column holds whatever SQLite stores in it. -/
namespace ConferWorker

/-- A value of a SQLite column, as `sqlite3` returns it. A float stands as its `repr`. -/
inductive SqlValue
  | null
  | integer (value : ℤ)
  | real (text : Str)
  | text (value : Str)
  | blob (value : Bytes)
  deriving DecidableEq

structure ContainerValue where
  number : SqlValue
  kind : ContainerKind
  label : SqlValue

structure RegionValue where
  id : SqlValue
  containerNumber : SqlValue
  type : VisualRegionType
  confidence : SqlValue
  renderable : Bool

structure WindowValue where
  containerStart : SqlValue
  containerEnd : SqlValue
  totalContainers : ℤ
  text : Str
  regions : List RegionValue
  containers : List ContainerValue
  truncated : Bool

structure HitValue where
  chunkId : SqlValue
  ordinal : SqlValue
  score : SqlValue
  containerStart : SqlValue
  containerEnd : SqlValue
  text : Str
  regions : List RegionValue
  containers : List ContainerValue

structure OutlineValue where
  level : SqlValue
  title : SqlValue
  containerNumber : SqlValue

/-- `title` is `null` for `None`. -/
structure MetadataValue where
  schemaVersion : ℤ
  sourceSha256 : Str
  mediaType : SqlValue
  title : SqlValue
  textBytes : ℤ
  containerCount : ℤ
  outlineCount : ℤ
  pageCount : Option ℤ

structure RenderedPage where
  png : Bytes
  width : ℕ
  height : ℕ
  containerNumber : ℕ

/-- A source and the contents of the file at its path. -/
structure DocumentSource where
  content : Bytes
  length : ℕ
  sha256 : Str
  source_hash : IsSourceHash sha256

def invalidHashMessage : PythonError := .valueError (ofString "document source hash is invalid")

/-- `DocumentSource(path, length, sha256)`. -/
def DocumentSource.create (content : Bytes) (length : ℕ) (sha256 : Str) :
    Except PythonError DocumentSource :=
  if h : sha256.length = 64 ∧ sha256.all isHexDigit = true then
    .ok ⟨content, length, lowerAscii sha256, by rw [lowerAscii_length]; exact h.1,
      isHexDigit_lowerAscii sha256 h.2, lowerAscii_idempotent sha256⟩
  else .error invalidHashMessage

/-- The types of a session that runs in the worker: an artifact is the contents of
its file. -/
def workerTypes (Reader Content : Type) : SessionTypes where
  Source := DocumentSource
  Artifact := Bytes
  Content := Content
  Reader := Reader
  Metadata := MetadataValue
  Outline := List OutlineValue
  Labels := List ContainerValue
  SearchHit := HitValue
  Window := WindowValue
  Rendered := RenderedPage

end ConferWorker
