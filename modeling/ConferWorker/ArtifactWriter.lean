import ConferWorker.ArtifactDatabase

/-! `ArtifactWriter`: a document becomes the tables of its artifact, the tables
a SQLite file, and the file a header with a compressed body. -/
namespace ConferWorker

structure BlockRange where
  start : ℕ
  stop : ℕ
  deriving DecidableEq

structure ContainerRange where
  containerNumber : ℕ
  start : ℕ
  stop : ℕ
  deriving DecidableEq

/-- The database after `_create_schema`. -/
def createSchema : Database where
  applicationId := applicationId
  userVersion := schemaVersion
  metadata := []
  documentText := none
  containers := []
  blocks := []
  regions := []
  outline := []
  chunks := []
  chunkFts := []

/-- The local variables of `_write_content`. -/
structure ContentState where
  canonical : Bytes
  containerRanges : List ContainerRange
  database : Database

/-- The line feed before a block that does not start the container or a line. -/
def separateBlock (canonical : Bytes) (blockOrder : ℕ) : Bytes :=
  if blockOrder ≠ 0 ∧ canonical ≠ [] ∧ canonical.getLast? ≠ some 10 then canonical++[10]
  else canonical

def blockRow (number blockOrder : ℕ) (block : TextBlock) (range : BlockRange) : BlockRow where
  containerNumber := number
  blockOrder := blockOrder
  startOffset := range.start
  endOffset := range.stop
  x0 := block.bounds.x0
  y0 := block.bounds.y0
  x1 := block.bounds.x1
  y1 := block.bounds.y1
  source := block.source.value
  confidence := block.confidence

/-- One round of the loop over `container.blocks`. -/
def writeBlock (number : ℕ) (state : ContentState × List BlockRange) (entry : TextBlock × ℕ) :
    Except PythonError (ContentState × List BlockRange) := do
  let (content, containerBlocks) := state
  let (block, blockOrder) := entry
  let canonical := separateBlock content.canonical blockOrder
  let encoded ← encodeText block.text
  let blockRange : BlockRange := ⟨canonical.length, (canonical++encoded).length⟩
  let row := blockRow number blockOrder block blockRange
  let database := content.database.insertBlocks [row]
  pure (⟨canonical++encoded, content.containerRanges, database⟩, containerBlocks++[blockRange])

/-- The ranges of the blocks that intersect a region. -/
def overlapping (region : VisualRegion) (containerBlocks : List BlockRange)
    (blocks : List TextBlock) : List BlockRange :=
  ((containerBlocks.zip blocks).filter (fun pair => pair.2.bounds.intersects region.bounds)).map
    Prod.fst

def regionRow (number : ℕ) (region : VisualRegion) (overlaps : List BlockRange) : RegionRow where
  id := region.id
  containerNumber := number
  type := region.type.value
  x0 := region.bounds.x0
  y0 := region.bounds.y0
  x1 := region.bounds.x1
  y1 := region.bounds.y1
  startOffset := (overlaps.map BlockRange.start).min?
  endOffset := (overlaps.map BlockRange.stop).max?
  confidence := region.confidence
  renderable := if region.renderable then 1 else 0
  assetMediaType := region.assetMediaType
  asset := region.asset

/-- One round of the loop over `container.regions`. -/
def writeRegion (container : DocumentContainer) (containerBlocks : List BlockRange)
    (database : Database) (region : VisualRegion) : Except PythonError Database := do
  let overlaps := overlapping region containerBlocks container.blocks
  let id ← sqlText region.id
  -- regions.id is the primary key
  raiseIf (∃ other ∈ database.regions, other.id = id)
    (.integrityError (ofString "UNIQUE constraint failed: regions.id"))
  let row := regionRow container.number region overlaps
  pure (database.insertRegions [row])

def containerRow (container : DocumentContainer) (range : ContainerRange) : ContainerRow where
  containerNumber := container.number
  startOffset := range.start
  endOffset := range.stop
  width := container.width
  height := container.height
  kind := container.kind.value
  label := container.label

/-- The separator before every container but the first. -/
def separateContainer (canonical : Bytes) (containerIndex : ℕ) : Bytes :=
  if containerIndex ≠ 0 then canonical++containerSeparator else canonical

/-- One round of the loop over `document.containers`. -/
def writeContainer (state : ContentState) (entry : DocumentContainer × ℕ) :
    Except PythonError ContentState := do
  let (container, containerIndex) := entry
  let canonical := separateContainer state.canonical containerIndex
  let (content, containerBlocks) ← container.blocks.zipIdx.foldlM (writeBlock container.number)
    (⟨canonical, state.containerRanges, state.database⟩, [])
  let containerRange : ContainerRange :=
    ⟨container.number, canonical.length, content.canonical.length⟩
  let _ ← sqlOptionalText container.label
  let row := containerRow container containerRange
  let database := content.database.insertContainers [row]
  let database ← container.regions.foldlM (writeRegion container containerBlocks) database
  pure ⟨content.canonical, content.containerRanges++[containerRange], database⟩

/-- One row of the outline. -/
def writeOutlineEntry (database : Database) (entry : OutlineEntry × ℕ) :
    Except PythonError Database := do
  let (outlineEntry, ordinal) := entry
  let level ← sqlInteger outlineEntry.level
  let title ← sqlText outlineEntry.title
  let row : OutlineRow := ⟨ordinal, level, title, outlineEntry.containerNumber⟩
  pure (database.insertOutline [row])

/-- `_write_content`. -/
def writeContent (database : Database) (document : DocumentContent) :
    Except PythonError ContentState := do
  let state ← document.containers.zipIdx.foldlM writeContainer ⟨[], [], database⟩
  let database ← document.outline.zipIdx.foldlM writeOutlineEntry state.database
  pure { state with database := database }

structure ArtifactWriter where
  chunkBytes : ℕ
  overlapBytes : ℕ
  chunk_minimum : 256 ≤ chunkBytes
  overlap_smaller : overlapBytes < chunkBytes

namespace ArtifactWriter

/-- `ArtifactWriter()`. -/
def default : ArtifactWriter := ⟨6000, 600, by omega, by omega⟩

/-- `data.rfind(byte, low, high)`: `none` where Python returns -1. -/
def rfindByte (data : Bytes) (byte : UInt8) (low : ℕ) : ℕ → Option ℕ
  | 0 => none
  | high+1 =>
    if high < low then none
    else if data[high]? = some byte then some high
    else rfindByte data byte low high

/-- `_utf8_boundary`. -/
def utf8Boundary (data : Bytes) : ℕ → ℕ
  | 0 => 0
  | offset+1 =>
    if (data[offset+1]?).any isContinuation then utf8Boundary data offset else offset+1

/-- `_chunk_end`. -/
def chunkEnd (writer : ArtifactWriter) (canonical : Bytes) (start : ℕ) : ℕ :=
  let hardEnd := min canonical.length (start+writer.chunkBytes)
  if hardEnd = canonical.length then hardEnd
  else
    let minimum := min hardEnd (start+writer.chunkBytes/2)
    match rfindByte canonical 10 minimum hardEnd with
    | some newline =>
      if start < newline then newline+1
      else spaceEnd minimum hardEnd
    | none => spaceEnd minimum hardEnd
where
  spaceEnd (minimum hardEnd : ℕ) : ℕ :=
    match rfindByte canonical 32 minimum hardEnd with
    | some space => if start < space then space+1 else utf8Boundary canonical hardEnd
    | none => utf8Boundary canonical hardEnd

/-- `_nearest_container`. -/
def nearestContainer (containers : List ContainerRange) (offset : ℕ) : ℕ :=
  match containers with
  | [] => 0
  | first :: _ =>
    match (containers.filter (fun container => container.start ≤ offset)).getLast? with
    | some container => container.containerNumber
    | none => first.containerNumber

/-- The numbers of the containers that a chunk lies in. -/
def chunkContainers (containers : List ContainerRange) (start stop : ℕ) : List ℕ :=
  let numbers := (containers.filter (fun container =>
    container.start < stop && start < container.stop)).map ContainerRange.containerNumber
  if numbers = [] then [nearestContainer containers start] else numbers

def chunkRow (ordinal start stop : ℕ) (numbers : List ℕ) : ChunkRow where
  id := ordinal+1
  ordinal := ordinal
  startOffset := start
  endOffset := stop
  containerStart := numbers.min?.getD 0
  containerEnd := numbers.max?.getD 0

/-- The loop of `_write_chunks`; `none` when it needs more than `fuel` rounds. -/
def writeChunks (writer : ArtifactWriter) (canonical : Bytes) (containers : List ContainerRange) :
    (fuel start ordinal : ℕ) → Database → Option (Except PythonError Database)
  | 0, start, _, database => if start < canonical.length then none else some (.ok database)
  | fuel+1, start, ordinal, database =>
    if start < canonical.length then
      let stop := writer.chunkEnd canonical start
      let numbers := chunkContainers containers start stop
      match decodeText (slice canonical start stop) with
      | .error error => some (.error error)
      | .ok text =>
        let database :=
          database.insertChunks [chunkRow ordinal start stop numbers] [(ordinal+1, text)]
        if stop = canonical.length then some (.ok database)
        else
          let nextStart := max (start+1) (stop-writer.overlapBytes)
          writeChunks writer canonical containers fuel (utf8Boundary canonical nextStart)
            (ordinal+1) database
    else some (.ok database)

/-- The rows of the metadata table. -/
def metadataRows (document : DocumentContent) (canonical : Bytes) : List (Str × Str) :=
  [(ofString "schema_version", strOfNat schemaVersion),
    (ofString "source_sha256", lowerAscii document.sourceSha256),
    (ofString "media_type", document.mediaType),
    (ofString "title", document.title.getD []),
    (ofString "text_bytes", strOfNat canonical.length),
    (ofString "container_count", strOfNat document.containers.length),
    (ofString "outline_count", strOfNat document.outline.length)]
  ++ if document.mediaType = ofString "application/pdf" then
      [(ofString "page_count", strOfNat document.containers.length)]
    else []

/-- `executemany("INSERT INTO metadata ...")`. -/
def writeMetadata (database : Database) (rows : List (Str × Str)) : Except PythonError Database := do
  let values ← rows.mapM (fun row => do
    let value ← sqlText row.2
    pure (row.1, value))
  pure { database with metadata := database.metadata++values }

/-- What `write` returns and leaves in the destination file. -/
structure BuildResult where
  length : ℕ
  text : Bytes
  artifact : Bytes
  databaseSize : ℕ

/-- The database that `write` commits. -/
def documentDatabase (writer : ArtifactWriter) (document : DocumentContent) (fuel : ℕ) :
    Option (Except PythonError (Database × Bytes)) :=
  match writeContent createSchema document with
  | .error error => some (.error error)
  | .ok content =>
    (writer.writeChunks content.canonical content.containerRanges fuel 0 0 content.database).map
      fun chunked => do
        let database ← chunked
        let database := { database with documentText := some content.canonical }
        let database ← writeMetadata database (metadataRows document content.canonical)
        pure (database, content.canonical)

/-- `write`: `none` when the chunk loop needs more than `fuel` rounds. -/
def write (writer : ArtifactWriter) (storage : ArtifactStorage) (document : DocumentContent)
    (fuel : ℕ) : Option (Except PythonError BuildResult) :=
  (writer.documentDatabase document fuel).map fun built => do
    let (database, canonical) ← built
    let file ← storage.databaseFile database
    let header ← packHeader file.length
    let artifact := header++storage.compress file
    pure ⟨artifact.length, canonical, artifact, file.length⟩

end ArtifactWriter

end ConferWorker
