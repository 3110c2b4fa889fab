import Mathlib.Data.List.Sort
import ConferWorker.ArtifactDatabase
import ConferWorker.DomainConstructors

/-! `ArtifactReader`: unpacking an artifact and answering queries from its tables. -/
namespace ConferWorker

structure ContainerReference where
  number : ℕ
  kind : ContainerKind
  label : Option Str
  deriving DecidableEq

structure RegionReference where
  id : Str
  containerNumber : ℕ
  type : VisualRegionType
  confidence : ℚ
  renderable : Bool
  deriving DecidableEq

structure StoredRegion where
  id : Str
  containerNumber : ℕ
  type : VisualRegionType
  bounds : Bounds
  confidence : ℚ
  renderable : Bool
  assetMediaType : Option Str
  asset : Option Bytes
  deriving DecidableEq

structure TextWindow where
  containerStart : ℕ
  containerEnd : ℕ
  totalContainers : ℕ
  text : Str
  regions : List RegionReference
  containers : List ContainerReference
  truncated : Bool
  deriving DecidableEq

structure ArtifactMetadata where
  schemaVersion : ℤ
  sourceSha256 : Str
  mediaType : Str
  title : Option Str
  textBytes : ℤ
  containerCount : ℤ
  outlineCount : ℤ
  pageCount : Option ℤ
  deriving DecidableEq

/-- `ArtifactMetadata.__post_init__`. -/
def ArtifactMetadata.check (metadata : ArtifactMetadata) : Except PythonError ArtifactMetadata := do
  raiseIf (metadata.schemaVersion < 1)
    (.valueError (ofString "artifact schema version must be positive"))
  raiseIf (metadata.sourceSha256.length ≠ 64 ∨ metadata.sourceSha256.all isHexDigit = false)
    (.valueError (ofString "artifact source hash is invalid"))
  raiseIf (metadata.mediaType = []) (.valueError (ofString "artifact media type is required"))
  raiseIf (min metadata.textBytes (min metadata.containerCount metadata.outlineCount) < 0)
    (.valueError (ofString "artifact metadata counts cannot be negative"))
  raiseIf (∃ pageCount ∈ metadata.pageCount, pageCount < 0)
    (.valueError (ofString "artifact page count cannot be negative"))
  pure metadata

/-- Only `ZstdError` is translated. -/
def unpackError (error : PythonError) : PythonError :=
  if error.errorClass = .zstdError then
    .valueError (ofString "artifact compression is invalid")
  else error

/-- The loop of `_unpack` from the `i`-th read on: the bytes in the database file
when it ends, and whether it raised. -/
def copyChunks (stream : ChunkStream) (expectedSize : ℕ) (i : ℕ) (database : Bytes) :
    Bytes × Except PythonError Unit :=
  match stream i with
  | .error error => (database, .error (unpackError error))
  | .ok [] => (database, .ok ())
  | .ok (b :: rest) =>
    if expectedSize < database.length+(b :: rest).length
        ∨ maxDatabaseBytes < database.length+(b :: rest).length then
      (database, .error (.valueError (ofString "artifact database exceeds declared size")))
    else copyChunks stream expectedSize (i+1) (database++b :: rest)
termination_by expectedSize-database.length
decreasing_by
  simp only [List.length_append, List.length_cons] at *
  omega

/-- `_unpack`: the database file and whether unpacking raised. -/
def unpack (storage : ArtifactStorage) (artifact : Bytes) : Bytes × Except PythonError Unit :=
  let encodedHeader := artifact.take headerSize
  if encodedHeader.length ≠ headerSize then
    ([], .error (.valueError (ofString "artifact is truncated")))
  else
    let expectedSize := fromBig (encodedHeader.drop 8)
    if encodedHeader.take 8 ≠ magic then
      ([], .error (.valueError (ofString "artifact magic is invalid")))
    else if maxDatabaseBytes < expectedSize then
      ([], .error (.valueError (ofString "artifact database exceeds maximum size")))
    else
      let (database, outcome) :=
        copyChunks (storage.decompress (artifact.drop headerSize)) expectedSize 0 []
      (database, do
        outcome
        raiseIf (database.length ≠ expectedSize)
          (.valueError (ofString "artifact database size does not match header")))

/-- `ArtifactDatabase.__init__` and `_validate_format`. -/
def openArtifactDatabase (storage : ArtifactStorage) (file : Bytes) :
    Except PythonError (Database × ℕ) := do
  let database ← match storage.openDatabase file with
    | .ok database => .ok database
    | .error error =>
      if error.errorClass = .sqliteDatabaseError then
        .error (.valueError (ofString "artifact database is invalid"))
      else .error error
  raiseIf (database.applicationId ≠ applicationId)
    (.valueError (ofString "artifact database application ID is invalid"))
  raiseIf (database.userVersion < minSupportedSchemaVersion ∨ schemaVersion < database.userVersion)
    (.valueError (ofString "unsupported artifact schema version: "++strOfNat database.userVersion))
  match database.documentText with
  | none => .error (.valueError (ofString "artifact canonical text is missing"))
  | some text => .ok (database, text.length)

/-- The open connection and the size of the canonical text. -/
structure ArtifactReader where
  database : Database
  textBytes : ℕ

namespace ArtifactReader

/-- `ArtifactReader(artifact)`. -/
def create (storage : ArtifactStorage) (artifact : Bytes) : Except PythonError ArtifactReader := do
  let (file, outcome) := unpack storage artifact
  outcome
  let (database, textBytes) ← openArtifactDatabase storage file
  pure ⟨database, textBytes⟩

/-- `substr(blob, start, length)` on a BLOB: NULL when the BLOB has no bytes. -/
def sqliteSubstr (blob : Bytes) (start length : ℕ) : Option Bytes :=
  if blob = [] then none else some (slice blob (start-1) (start-1+length))

/-- `_text`. -/
def text (reader : ArtifactReader) (start stop : ℕ) : Except PythonError Bytes := do
  raiseIf (stop < start ∨ reader.textBytes < stop)
    (.valueError (ofString "artifact text range is invalid"))
  match reader.database.documentText with
  | none => .error (.valueError (ofString "artifact canonical text is missing"))
  | some blob =>
    match sqliteSubstr blob (start+1) (stop-start) with
    | none => .error (.typeError (ofString "cannot convert 'NoneType' object to bytes"))
    | some bytes => .ok bytes

def containerKind (value : Str) : Except PythonError ContainerKind :=
  match ContainerKind.ofValue value with
  | some kind => .ok kind
  | none => .error (.valueError (value++ofString " is not a valid ContainerKind"))

def visualRegionType (value : Str) : Except PythonError VisualRegionType :=
  match VisualRegionType.ofValue value with
  | some type => .ok type
  | none => .error (.valueError (value++ofString " is not a valid VisualRegionType"))

/-- `ORDER BY container_number`. -/
def byContainerNumber (rows : List ContainerRow) : List ContainerRow :=
  rows.insertionSort (fun a b => a.containerNumber ≤ b.containerNumber)

/-- The containers with a number between two bounds. -/
def containersBetween (reader : ArtifactReader) (first last : ℕ) : List ContainerRow :=
  byContainerNumber (reader.database.containers.filter (fun row =>
    first ≤ row.containerNumber && row.containerNumber ≤ last))

def containerReference (row : ContainerRow) : Except PythonError ContainerReference := do
  let kind ← containerKind row.kind
  pure ⟨row.containerNumber, kind, row.label⟩

/-- `_containers`. -/
def containersIn (reader : ArtifactReader) (containerStart containerEnd : ℕ) :
    Except PythonError (List ContainerReference) :=
  (reader.containersBetween containerStart containerEnd).mapM containerReference

/-- The condition of the query of `_regions`. -/
def regionSelected (start stop containerStart containerEnd : ℕ) (row : RegionRow) : Bool :=
  match row.startOffset with
  | some startOffset => startOffset < stop && row.endOffset.any (fun endOffset => start < endOffset)
  | none => containerStart ≤ row.containerNumber && row.containerNumber ≤ containerEnd

/-- `ORDER BY container_number, id`; SQLite compares the UTF-8 bytes of two
texts, which is the order of their code points. -/
def regionBefore (a b : RegionRow) : Prop :=
  a.containerNumber < b.containerNumber ∨ (a.containerNumber = b.containerNumber ∧ a.id ≤ b.id)

instance (a b : RegionRow) : Decidable (regionBefore a b) :=
  inferInstanceAs (Decidable (_ ∨ _))

def regionReference (row : RegionRow) : Except PythonError RegionReference := do
  let type ← visualRegionType row.type
  pure ⟨row.id, row.containerNumber, type, row.confidence, row.renderable != 0⟩

/-- `_regions`. -/
def regionsIn (reader : ArtifactReader) (start stop containerStart containerEnd : ℕ) :
    Except PythonError (List RegionReference) :=
  (((reader.database.regions.filter
    (regionSelected start stop containerStart containerEnd)).insertionSort regionBefore).take
      20).mapM regionReference

/-- The window of `read_containers` when not even the first container fits: its
leading text, cut at a character boundary. -/
def truncatedWindow (reader : ArtifactReader) (totalContainers maxBytes : ℕ)
    (row : ContainerRow) : Except PythonError TextWindow := do
  let start := row.startOffset
  let bytes ← reader.text start (start+maxBytes)
  let windowText := decodeIgnore bytes
  let encoded ← encodeText windowText
  let number := row.containerNumber
  let regions ← reader.regionsIn start (start+encoded.length) number number
  let containers ← reader.containersIn number number
  pure ⟨number, number, totalContainers, windowText, regions, containers, true⟩

/-- The window of `read_containers` over the whole containers that fit. -/
def wholeWindow (reader : ArtifactReader) (totalContainers start : ℕ) (first last : ContainerRow) :
    Except PythonError TextWindow := do
  let stop := last.endOffset
  let bytes ← reader.text start stop
  let windowText ← decodeText bytes
  let containerStart := first.containerNumber
  let containerEnd := last.containerNumber
  let regions ← reader.regionsIn start stop containerStart containerEnd
  let containers ← reader.containersIn containerStart containerEnd
  pure ⟨containerStart, containerEnd, totalContainers, windowText, regions, containers, false⟩

/-- The part of `read_containers` after the rows were fetched. -/
def windowOf (reader : ArtifactReader) (totalContainers maxBytes : ℕ) (rows : List ContainerRow) :
    Except PythonError TextWindow :=
  match rows with
  | [] => .error ⟨.other (ofString "IndexError"), ofString "list index out of range"⟩
  | first :: _ =>
    let start := first.startOffset
    match rows.filter (fun row => row.endOffset-start ≤ maxBytes) with
    | [] => reader.truncatedWindow totalContainers maxBytes first
    | fitting :: more =>
      reader.wholeWindow totalContainers start fitting ((fitting :: more).getLast (by simp))

/-- `read_containers`. -/
def readContainers (reader : ArtifactReader) (containerNumber containerCount maxBytes : ℕ) :
    Except PythonError TextWindow := do
  raiseIf (containerCount < 1 ∨ 20 < containerCount)
    (.valueError (ofString "container count must be between 1 and 20"))
  let totalContainers := reader.database.containers.length
  raiseIf (totalContainers ≤ containerNumber)
    (.keyError (ofString "unknown container: "++strOfNat containerNumber))
  reader.windowOf totalContainers maxBytes (reader.containersBetween containerNumber
    (min (totalContainers-1) (containerNumber+containerCount-1)))

/-- `full_text`. -/
def fullText (reader : ArtifactReader) (maxBytes : ℕ) : Except PythonError Str := do
  raiseIf (maxBytes < reader.textBytes)
    (.valueError (ofString "document text exceeds full-text budget"))
  let bytes ← reader.text 0 reader.textBytes
  decodeText bytes

/-- `full_text_if_small`. -/
def fullTextIfSmall (reader : ArtifactReader) (maxBytes : ℕ) : Except PythonError (Option Str) :=
  if maxBytes < reader.textBytes then pure none
  else do
    let bytes ← reader.text 0 reader.textBytes
    let text ← decodeText bytes
    pure (some text)

/-- `int(values[key])`. -/
def metadataInteger (values : List (Str × Str)) (key : Str) : Except PythonError ℤ :=
  match pythonInt 10 ((values.lookup key).getD []) with
  | some n => .ok n
  | none => .error (.valueError (ofString "invalid literal for int() with base 10"))

/-- `int(values["page_count"]) if "page_count" in values else None`. -/
def metadataPageCount (values : List (Str × Str)) : Except PythonError (Option ℤ) :=
  match values.lookup (ofString "page_count") with
  | none => pure none
  | some _ => some <$> metadataInteger values (ofString "page_count")

/-- The keys that `metadata` requires. -/
def requiredKeys : List Str :=
  [ofString "schema_version", ofString "source_sha256", ofString "media_type", ofString "title",
    ofString "text_bytes", ofString "container_count", ofString "outline_count"]

/-- The body of the try block of `metadata`. -/
def parseMetadata (values : List (Str × Str)) : Except PythonError ArtifactMetadata := do
  let schemaVersion ← metadataInteger values (ofString "schema_version")
  let textBytes ← metadataInteger values (ofString "text_bytes")
  let containerCount ← metadataInteger values (ofString "container_count")
  let outlineCount ← metadataInteger values (ofString "outline_count")
  let pageCount ← metadataPageCount values
  let title := (values.lookup (ofString "title")).getD []
  ArtifactMetadata.check {
    schemaVersion := schemaVersion
    sourceSha256 := (values.lookup (ofString "source_sha256")).getD []
    mediaType := (values.lookup (ofString "media_type")).getD []
    title := if title = [] then none else some title
    textBytes := textBytes
    containerCount := containerCount
    outlineCount := outlineCount
    pageCount := pageCount }

/-- `metadata`. -/
def metadata (reader : ArtifactReader) : Except PythonError ArtifactMetadata := do
  let values := reader.database.metadata
  raiseIf (∃ key ∈ requiredKeys, values.lookup key = none)
    (.valueError (ofString "artifact metadata is incomplete"))
  match parseMetadata values with
  | .ok metadata => .ok metadata
  | .error error =>
    if error.isValueError then .error (.valueError (ofString "artifact metadata is invalid"))
    else .error error

/-- `outline`. -/
def outline (reader : ArtifactReader) (limit : ℕ) : Except PythonError (List OutlineEntry) := do
  let limit ← sqlInteger limit
  ((reader.database.outline.insertionSort (fun a b => a.ordinal ≤ b.ordinal)).take limit).mapM
    (fun row => OutlineEntry.create row.level row.title row.containerNumber)

/-- `first_chunk_id`. -/
def firstChunkId (reader : ArtifactReader) : Option ℕ :=
  (reader.database.chunks.insertionSort (fun a b => a.ordinal ≤ b.ordinal)).head?.map ChunkRow.id

/-- `labeled_containers`. -/
def labeledContainers (reader : ArtifactReader) (limit : ℕ) :
    Except PythonError (List ContainerReference) := do
  let limit ← sqlInteger limit
  ((byContainerNumber (reader.database.containers.filter (fun row => row.label.isSome))).take
    limit).mapM containerReference

/-- `containers`. -/
def containers (reader : ArtifactReader) (limit : ℕ) :
    Except PythonError (List ContainerReference) := do
  let limit ← sqlInteger limit
  ((byContainerNumber reader.database.containers).take limit).mapM containerReference

def storedRegion (row : RegionRow) : Except PythonError StoredRegion := do
  let type ← visualRegionType row.type
  let bounds ← Bounds.create row.x0 row.y0 row.x1 row.y1
  pure ⟨row.id, row.containerNumber, type, bounds, row.confidence, row.renderable != 0,
    row.assetMediaType, row.asset⟩

/-- `region`. -/
def region (reader : ArtifactReader) (regionId : Str) : Except PythonError StoredRegion := do
  let regionId ← sqlText regionId
  match reader.database.regions.find? (fun row => row.id == regionId) with
  | none => .error (.keyError (ofString "unknown region: "++regionId))
  | some row => storedRegion row

end ArtifactReader

end ConferWorker
