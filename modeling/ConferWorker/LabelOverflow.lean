import ConferWorker.AnsweredRuns
import ConferWorker.ArtifactSize
import ConferWorker.Paging

/-! A session over the artifact classes, and a text with a long filename: the
filename becomes the label of its container, and the answer to a read of the
container does not fit into a frame. -/
namespace ConferWorker

open ProtocolCodec ProtocolPresenter

/-! What an `ArtifactReader` on the writer's tables returns, as columns. -/

def ContainerReference.value (reference : ContainerReference) : ContainerValue where
  number := .integer reference.number
  kind := reference.kind
  label := match reference.label with
    | some label => .text label
    | none => .null

/-- `floatText` is `repr` on floats. -/
def RegionReference.value (floatText : ℚ → Str) (reference : RegionReference) : RegionValue where
  id := .text reference.id
  containerNumber := .integer reference.containerNumber
  type := reference.type
  confidence := .real (floatText reference.confidence)
  renderable := reference.renderable

def TextWindow.value (floatText : ℚ → Str) (window : TextWindow) : WindowValue where
  containerStart := .integer window.containerStart
  containerEnd := .integer window.containerEnd
  totalContainers := window.totalContainers
  text := window.text
  regions := window.regions.map (RegionReference.value floatText)
  containers := window.containers.map ContainerReference.value
  truncated := window.truncated

def OutlineEntry.value (entry : OutlineEntry) : OutlineValue where
  level := .integer entry.level
  title := .text entry.title
  containerNumber := .integer entry.containerNumber

def ArtifactMetadata.value (metadata : ArtifactMetadata) : MetadataValue where
  schemaVersion := metadata.schemaVersion
  sourceSha256 := metadata.sourceSha256
  mediaType := .text metadata.mediaType
  title := match metadata.title with
    | some title => .text title
    | none => .null
  textBytes := metadata.textBytes
  containerCount := metadata.containerCount
  outlineCount := metadata.outlineCount
  pageCount := metadata.pageCount

/-- `ArtifactWriter().write`, within a number of rounds of its chunk loop. -/
def writeArtifact (storage : ArtifactStorage) (fuel : ℕ) (content : DocumentContent) :
    Except PythonError ArtifactWriter.BuildResult :=
  match ArtifactWriter.default.write storage content fuel with
  | some result => result
  | none => .error ⟨.other (ofString "RuntimeError"), ofString "chunk loop"⟩

/-- The collaborators of a worker whose readers are `ArtifactReader`s and whose artifacts
come from the `ArtifactWriter`. -/
def artifactCalls (floatText : ℚ → Str) (storage : ArtifactStorage) (fuel : ℕ)
    (calls : WorkerCalls ArtifactReader DocumentContent) :
    WorkerCalls ArtifactReader DocumentContent where
  session := { calls.session with
    readerFactory := fun artifact => ArtifactReader.create storage artifact
    write := fun content => ArtifactWriter.BuildResult.artifact <$>
      writeArtifact storage fuel content
    metadata := fun reader => ArtifactMetadata.value <$> ArtifactReader.metadata reader
    outline := fun reader limit =>
      List.map OutlineEntry.value <$> ArtifactReader.outline reader limit
    labeledContainers := fun reader =>
      List.map ContainerReference.value <$> ArtifactReader.labeledContainers reader 500
    firstChunkId := fun reader => .ok ((ArtifactReader.firstChunkId reader).map Int.ofNat)
    fullTextIfSmall := fun reader maxBytes => ArtifactReader.fullTextIfSmall reader maxBytes
    readContainers := fun reader number count =>
      TextWindow.value floatText <$> ArtifactReader.readContainers reader number count 64000 }
  extract := calls.extract
  write := writeArtifact storage fuel

/-- The header that answers a read holds every label of its window. -/
theorem label_le_headerBytes (window : WindowValue) {container : ContainerValue}
    (h : container ∈ window.containers) :
    242+container.label.jsonBytes ≤ window.headerBytes := by
  have hmem : container.jsonBytes ∈ window.containers.map ContainerValue.jsonBytes :=
    List.mem_map_of_mem h
  have hsum : container.jsonBytes+1 ≤
      ((window.containers.map ContainerValue.jsonBytes).map (fun bytes => bytes+1)).sum :=
    List.single_le_sum (fun _ _ => Nat.zero_le _) _ (List.mem_map_of_mem hmem)
  unfold WindowValue.headerBytes
  have harray : container.jsonBytes+2 ≤
      arrayBytes (window.containers.map ContainerValue.jsonBytes) := by
    unfold arrayBytes
    omega
  have hlabel : container.jsonBytes = 28+container.number.jsonBytes
      +Json.quotedSize container.kind.value+container.label.jsonBytes := rfl
  omega

/-- The hash of the letter `a`. -/
def letterHash : Str :=
  ofString "ca978112ca1bbdcafac231b39a23dc4da786eff8147c4e72b9807785afee48bb"

/-- The document that `TextDocumentExtractor` makes of the letter `a` under a filename
without dots and slashes. -/
def letterDocument (filename : Str) : DocumentContent where
  sourceSha256 := letterHash
  containers := [{
    number := 0
    width := 1
    height := 1
    blocks := [⟨[0x61], ⟨0, 0, 1, 1, unit_rectangle⟩, .native, 1, confidence_one⟩]
    regions := []
    kind := .text
    label := some filename
    dimensions := unit_dimensions }]
  mediaType := ofString "text/plain"
  title := some filename
  outline := []
  sha_length := by decide
  sha_hexadecimal := by decide
  media_type_required := by decide
  contiguous := rfl
  outline_references := fun _ h => by cases h

theorem letterDocument_canonicalText (filename : Str) :
    (letterDocument filename).canonicalText = [0x61] := by
  simp [DocumentContent.canonicalText, letterDocument, DocumentContainer.ownText, appendBlock]

theorem letterDocument_storable {filename : Str} (h : Encodable filename) :
    Storable (letterDocument filename) where
  containers := by
    intro container hcontainer
    obtain rfl := List.mem_singleton.mp hcontainer
    constructor
    · intro block hblock
      obtain rfl := List.mem_singleton.mp hblock
      exact (by decide : Encodable [0x61])
    · intro label hlabel
      obtain rfl := Option.mem_some_iff.mp hlabel
      exact h
    · intro region hregion
      cases hregion
  distinctIds := List.nodup_nil
  outline := fun _ h => by cases h
  sourceSha256 := lowerAscii_encodable letterHash (by decide)
  mediaType := (by decide : Encodable (ofString "text/plain"))
  title := h

/-- The tables hold the filename twice and little else. -/
theorem letterDocument_storedBytes {filename : Str} {database : Database}
    (tables : ArtifactTables ArtifactWriter.default (letterDocument filename) database) :
    database.storedBytes ≤ 2*(utf8 filename).length+7000 := by
  have htext : (letterDocument filename).canonicalText = [0x61] :=
    letterDocument_canonicalText filename
  obtain ⟨spans, hspans, _, hfts⟩ := tables.chunks
  obtain ⟨hcount, hlimits⟩ := hspans.bounds (by decide)
  have hindexed := chunkTexts_bytes_le (utf8 (letterDocument filename).canonicalText)
    ArtifactWriter.default.chunkBytes spans hlimits
  have hone : (utf8 [0x61]).length = 1 := rfl
  have hchunk : ArtifactWriter.default.chunkBytes = 6000 := rfl
  rw [htext, hone] at hcount
  have hmetadata : ((ArtifactWriter.metadataRows (letterDocument filename) (utf8 [0x61])).map
      (fun row => (utf8 row.1).length+(utf8 row.2).length)).sum ≤ (utf8 filename).length+300 := by
    have hmedia : ¬(letterDocument filename).mediaType = ofString "application/pdf" :=
      (by decide : ofString "text/plain" ≠ ofString "application/pdf")
    have hkeys : (utf8 (ofString "schema_version")).length+(utf8 (strOfNat 4)).length
        +(utf8 (ofString "source_sha256")).length+(utf8 (lowerAscii letterHash)).length
        +(utf8 (ofString "media_type")).length+(utf8 (ofString "text/plain")).length
        +(utf8 (ofString "title")).length+(utf8 (ofString "text_bytes")).length
        +(utf8 (strOfNat 1)).length+(utf8 (ofString "container_count")).length
        +(utf8 (strOfNat 1)).length+(utf8 (ofString "outline_count")).length
        +(utf8 (strOfNat 0)).length ≤ 300 := by decide
    rw [ArtifactWriter.metadataRows, if_neg hmedia, hone]
    simp only [letterDocument, schemaVersion, List.append_nil, List.map_cons, List.map_nil,
      List.sum_cons, List.sum_nil, Option.getD_some, List.length_cons, List.length_nil,
      Nat.zero_add]
    omega
  have hregions : database.regions = [] := tables.regions
  have houtline : database.outline = [] := tables.outline
  have hcontainers : (database.containers.map (fun row =>
      (utf8 row.kind).length+(utf8 (row.label.getD [])).length)).sum
        = 4+(utf8 filename).length := by
    rw [tables.containers]
    rfl
  have hblocks : (database.blocks.map (fun row => (utf8 row.source).length)).sum = 6 := by
    rw [tables.blocks]
    rfl
  rw [← hfts, hchunk] at hindexed
  rw [Database.storedBytes, tables.metadata, tables.documentText, hregions, houtline,
    hcontainers, hblocks, Option.getD_some, htext, hone]
  simp only [List.map_nil, List.sum_nil]
  omega

/-- The window on the only container of the letter. -/
def letterWindow (filename : Str) : TextWindow :=
  ⟨0, 0, 1, [0x61], [], [⟨0, .text, some filename⟩], false⟩

/-- A reader of the letter's artifact answers a read of its container with a window that
holds the filename. -/
theorem letter_read {filename : Str} {reader : ArtifactReader}
    (written : DocumentWritten (letterDocument filename) reader.database)
    (htext : reader.textBytes = (utf8 (letterDocument filename).canonicalText).length) :
    reader.readContainers 0 1 64000 = .ok (letterWindow filename) := by
  have hnonempty : (letterDocument filename).canonicalText ≠ [] := by
    rw [letterDocument_canonicalText]
    exact List.cons_ne_nil _ _
  have hlength : (letterDocument filename).containers.length = 1 := rfl
  have hjoined : (letterDocument filename).joinedTexts 0 0 = [0x61] :=
    (joinedTexts_all _ (by rw [hlength]; omega)).trans (letterDocument_canonicalText filename)
  have hfits : (utf8 (letterDocument filename).containers[0].ownText).length ≤ 64000 := by
    rw [← joinedTexts_self (letterDocument filename) 0 (by rw [hlength]; omega), hjoined]
    decide
  obtain ⟨⟨first, last, total, text, regions, containers, cut⟩, hread, hwhole, htotal, hcontainers,
    hregions⟩ := readContainers_whole written htext hnonempty
    0 1 64000 (by rw [hlength]; omega) ⟨le_refl _, by omega⟩ hfits
  have hlast : last = 0 := by
    have hle := hwhole.end_le
    simp only [lastRequested, hlength] at hle
    omega
  have hnone : regions = [] := by
    have hrows : reader.database.regions = [] := written.regions
    simp only [ArtifactReader.regionsIn, hrows] at hregions
    exact (Except.ok.inj hregions).symm
  have hfirst : first = 0 := hwhole.start_eq
  have hcut : cut = false := hwhole.not_truncated
  have hwindowText : text = [0x61] := by
    have htextEq : text = (letterDocument filename).joinedTexts 0 last := hwhole.text_eq
    rw [htextEq, hlast, hjoined]
  dsimp only at htotal hcontainers
  rw [hread, hfirst, hlast, htotal, hwindowText, hnone, hcontainers, hlast, hcut]
  rfl

end ConferWorker
