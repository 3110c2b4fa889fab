import ConferWorker.LabelOverflow

/-! The artifact classes raise no error of the application: SQLite, zstandard and their own
checks raise other classes. A worker over them meets the assumption on collaborators. -/
namespace ConferWorker

variable {storage : ArtifactStorage}

/-- SQLite and zstandard raise no error of the application. -/
structure ArtifactStorage.Foreign (storage : ArtifactStorage) : Prop where
  databaseFile : ∀ database, RaisesOnly IsForeign (storage.databaseFile database)
  openDatabase : ∀ file, RaisesOnly IsForeign (storage.openDatabase file)
  decompress : ∀ bytes i, RaisesOnly IsForeign (storage.decompress bytes i)

theorem sqlText_raises (s : Str) : RaisesOnly IsForeign (sqlText s) :=
  raisesOnly_bind (encodeText_raises s) (fun _ _ => raisesOnly_ok s)

theorem sqlOptionalText_raises (s : Option Str) : RaisesOnly IsForeign (sqlOptionalText s) := by
  cases s with
  | none => exact raisesOnly_ok none
  | some s => exact raisesOnly_map some (sqlText_raises s)

theorem sqlInteger_raises (n : ℕ) : RaisesOnly IsForeign (sqlInteger n) :=
  raisesOnly_bind (raisesOnly_raiseIf _ rfl) (fun _ _ => raisesOnly_ok n)

section Writer

theorem writeBlock_raises (number : ℕ) (state : ContentState × List BlockRange)
    (entry : TextBlock × ℕ) : RaisesOnly IsForeign (writeBlock number state entry) :=
  raisesOnly_bind (encodeText_raises _) (fun _ _ => raisesOnly_ok _)

theorem writeRegion_raises (container : DocumentContainer) (containerBlocks : List BlockRange)
    (database : Database) (region : VisualRegion) :
    RaisesOnly IsForeign (writeRegion container containerBlocks database region) := by
  apply raisesOnly_bind (sqlText_raises _)
  intro id _
  exact raisesOnly_bind (raisesOnly_raiseIf _ rfl) (fun _ _ => raisesOnly_ok _)

theorem writeContainer_raises (state : ContentState) (entry : DocumentContainer × ℕ) :
    RaisesOnly IsForeign (writeContainer state entry) := by
  apply raisesOnly_bind (raisesOnly_foldlM _ _ _ (writeBlock_raises _))
  intro written _
  apply raisesOnly_bind (sqlOptionalText_raises _)
  intro label _
  exact raisesOnly_bind (raisesOnly_foldlM _ _ _ (writeRegion_raises _ _))
    (fun _ _ => raisesOnly_ok _)

theorem writeOutlineEntry_raises (database : Database) (entry : OutlineEntry × ℕ) :
    RaisesOnly IsForeign (writeOutlineEntry database entry) := by
  apply raisesOnly_bind (sqlInteger_raises _)
  intro level _
  exact raisesOnly_bind (sqlText_raises _) (fun _ _ => raisesOnly_ok _)

theorem writeContent_raises (database : Database) (document : DocumentContent) :
    RaisesOnly IsForeign (writeContent database document) := by
  apply raisesOnly_bind (raisesOnly_foldlM _ _ _ writeContainer_raises)
  intro state _
  exact raisesOnly_bind (raisesOnly_foldlM _ _ _ writeOutlineEntry_raises)
    (fun _ _ => raisesOnly_ok _)

namespace ArtifactWriter

theorem writeChunks_raises (writer : ArtifactWriter) (canonical : Bytes)
    (containers : List ContainerRange) (fuel start ordinal : ℕ) (database : Database) :
    ∀ result, writer.writeChunks canonical containers fuel start ordinal database = some result →
      RaisesOnly IsForeign result := by
  induction fuel generalizing start ordinal database with
  | zero =>
    intro result h
    rw [writeChunks] at h
    split_ifs at h
    obtain rfl := Option.some.inj h
    exact raisesOnly_ok _
  | succ fuel ih =>
    intro result h
    rw [writeChunks] at h
    split_ifs at h
    · rcases hdecode : decodeText (slice canonical start (writer.chunkEnd canonical start))
        with error | text
      · simp only [hdecode, Option.some.injEq] at h
        rw [← h]
        exact raisesOnly_error (decodeText_raises _ error hdecode)
      · simp only [hdecode] at h
        split_ifs at h
        · obtain rfl := Option.some.inj h
          exact raisesOnly_ok _
        · exact ih _ _ _ result h
    · obtain rfl := Option.some.inj h
      exact raisesOnly_ok _

theorem writeMetadata_raises (database : Database) (rows : List (Str × Str)) :
    RaisesOnly IsForeign (writeMetadata database rows) := by
  refine raisesOnly_bind (raisesOnly_mapM _ _ ?_) (fun _ _ => raisesOnly_ok _)
  exact fun row => raisesOnly_bind (sqlText_raises _) (fun _ _ => raisesOnly_ok _)

theorem documentDatabase_raises (writer : ArtifactWriter) (document : DocumentContent) (fuel : ℕ) :
    ∀ result, writer.documentDatabase document fuel = some result →
      RaisesOnly IsForeign result := by
  intro result h
  rw [documentDatabase] at h
  rcases hcontent : writeContent createSchema document with error | content
  · simp only [hcontent, Option.some.injEq] at h
    rw [← h]
    exact raisesOnly_error (writeContent_raises _ _ error hcontent)
  · simp only [hcontent, Option.map_eq_some_iff] at h
    obtain ⟨chunked, hchunked, rfl⟩ := h
    apply raisesOnly_bind (writeChunks_raises writer _ _ _ _ _ _ chunked hchunked)
    intro database _
    exact raisesOnly_bind (writeMetadata_raises _ _) (fun _ _ => raisesOnly_ok _)

end ArtifactWriter

theorem writeArtifact_raises (foreign : storage.Foreign) (fuel : ℕ) (content : DocumentContent) :
    RaisesOnly IsForeign (writeArtifact storage fuel content) := by
  unfold writeArtifact
  rcases hwrite : ArtifactWriter.default.write storage content fuel with _ | result
  · exact raisesOnly_error rfl
  · simp only [ArtifactWriter.write, Option.map_eq_some_iff] at hwrite
    obtain ⟨built, hbuilt, rfl⟩ := hwrite
    apply raisesOnly_bind (ArtifactWriter.documentDatabase_raises _ _ _ built hbuilt)
    intro database _
    apply raisesOnly_bind (foreign.databaseFile _)
    intro file _
    exact raisesOnly_bind (raisesOnly_bind (raisesOnly_raiseIf _ rfl) (fun _ _ => raisesOnly_ok _))
      (fun _ _ => raisesOnly_ok _)

end Writer

section Reader

theorem copyChunks_raises {stream : ChunkStream} (foreign : ∀ i, RaisesOnly IsForeign (stream i))
    (expectedSize i : ℕ) (database : Bytes) :
    RaisesOnly IsForeign (copyChunks stream expectedSize i database).2 := by
  fun_induction copyChunks stream expectedSize i database with
  | case1 i database error herror =>
    unfold unpackError
    split_ifs
    · exact raisesOnly_error rfl
    · exact raisesOnly_error (foreign i error herror)
  | case2 => exact raisesOnly_ok ()
  | case3 => exact raisesOnly_error rfl
  | case4 i database b rest hchunk hfits ih => exact ih

theorem unpack_raises (foreign : storage.Foreign) (artifact : Bytes) :
    RaisesOnly IsForeign (unpack storage artifact).2 := by
  unfold unpack
  dsimp only
  split_ifs
  · exact raisesOnly_error rfl
  · exact raisesOnly_error rfl
  · exact raisesOnly_error rfl
  · exact raisesOnly_bind (copyChunks_raises (foreign.decompress _) _ _ _)
      (fun _ _ => raisesOnly_raiseIf _ rfl)

theorem openArtifactDatabase_raises (foreign : storage.Foreign) (file : Bytes) :
    RaisesOnly IsForeign (openArtifactDatabase storage file) := by
  unfold openArtifactDatabase
  rcases hopen : storage.openDatabase file with error | database
  · dsimp only
    split_ifs
    · exact raisesOnly_error rfl
    · exact raisesOnly_error (foreign.openDatabase file error hopen)
  · dsimp only
    rw [ok_bind]
    refine raisesOnly_bind (raisesOnly_raiseIf _ rfl) (fun _ _ => ?_)
    refine raisesOnly_bind (raisesOnly_raiseIf _ rfl) (fun _ _ => ?_)
    cases database.documentText with
    | none => exact raisesOnly_error rfl
    | some text => exact raisesOnly_ok _

namespace ArtifactReader

theorem create_raises (foreign : storage.Foreign) (artifact : Bytes) :
    RaisesOnly IsForeign (create storage artifact) := by
  apply raisesOnly_bind (unpack_raises foreign artifact)
  intro _ _
  exact raisesOnly_bind (openArtifactDatabase_raises foreign _) (fun _ _ => raisesOnly_ok _)

variable (reader : ArtifactReader)

theorem text_raises (start stop : ℕ) : RaisesOnly IsForeign (reader.text start stop) := by
  refine raisesOnly_bind (raisesOnly_raiseIf _ rfl) (fun _ _ => ?_)
  cases reader.database.documentText with
  | none => exact raisesOnly_error rfl
  | some blob =>
    dsimp only
    cases sqliteSubstr blob (start+1) (stop-start) with
    | none => exact raisesOnly_error rfl
    | some bytes => exact raisesOnly_ok bytes

theorem containerReference_raises (row : ContainerRow) :
    RaisesOnly IsForeign (containerReference row) := by
  refine raisesOnly_bind ?_ (fun _ _ => raisesOnly_ok _)
  unfold containerKind
  cases ContainerKind.ofValue row.kind with
  | none => exact raisesOnly_error rfl
  | some kind => exact raisesOnly_ok kind

theorem regionReference_raises (row : RegionRow) : RaisesOnly IsForeign (regionReference row) := by
  refine raisesOnly_bind ?_ (fun _ _ => raisesOnly_ok _)
  unfold visualRegionType
  cases VisualRegionType.ofValue row.type with
  | none => exact raisesOnly_error rfl
  | some type => exact raisesOnly_ok type

theorem containersIn_raises (first last : ℕ) :
    RaisesOnly IsForeign (reader.containersIn first last) :=
  raisesOnly_mapM _ _ containerReference_raises

theorem regionsIn_raises (start stop first last : ℕ) :
    RaisesOnly IsForeign (reader.regionsIn start stop first last) :=
  raisesOnly_mapM _ _ regionReference_raises

theorem windowOf_raises (total maxBytes : ℕ) (rows : List ContainerRow) :
    RaisesOnly IsForeign (reader.windowOf total maxBytes rows) := by
  cases rows with
  | nil => exact raisesOnly_error rfl
  | cons first rest =>
    unfold windowOf
    dsimp only
    cases (first :: rest).filter (fun row => row.endOffset-first.startOffset ≤ maxBytes) with
    | nil =>
      apply raisesOnly_bind (text_raises reader _ _)
      intro bytes _
      apply raisesOnly_bind (encodeText_raises _)
      intro encoded _
      apply raisesOnly_bind (regionsIn_raises reader _ _ _ _)
      intro regions _
      exact raisesOnly_bind (containersIn_raises reader _ _) (fun _ _ => raisesOnly_ok _)
    | cons fitting more =>
      apply raisesOnly_bind (text_raises reader _ _)
      intro bytes _
      apply raisesOnly_bind (decodeText_raises _)
      intro windowText _
      apply raisesOnly_bind (regionsIn_raises reader _ _ _ _)
      intro regions _
      exact raisesOnly_bind (containersIn_raises reader _ _) (fun _ _ => raisesOnly_ok _)

theorem readContainers_raises (number count maxBytes : ℕ) :
    RaisesOnly IsForeign (reader.readContainers number count maxBytes) := by
  refine raisesOnly_bind (raisesOnly_raiseIf _ rfl) (fun _ _ => ?_)
  refine raisesOnly_bind (raisesOnly_raiseIf _ rfl) (fun _ _ => ?_)
  exact windowOf_raises reader _ _ _

theorem fullTextIfSmall_raises (maxBytes : ℕ) :
    RaisesOnly IsForeign (reader.fullTextIfSmall maxBytes) := by
  unfold fullTextIfSmall
  split_ifs
  · exact raisesOnly_ok none
  · apply raisesOnly_bind (text_raises reader _ _)
    intro bytes _
    exact raisesOnly_bind (decodeText_raises _) (fun _ _ => raisesOnly_ok _)

theorem metadataInteger_raises (values : List (Str × Str)) (key : Str) :
    RaisesOnly IsForeign (metadataInteger values key) := by
  unfold metadataInteger
  cases pythonInt 10 ((values.lookup key).getD []) with
  | none => exact raisesOnly_error rfl
  | some n => exact raisesOnly_ok n

theorem metadataPageCount_raises (values : List (Str × Str)) :
    RaisesOnly IsForeign (metadataPageCount values) := by
  unfold metadataPageCount
  cases values.lookup (ofString "page_count") with
  | none => exact raisesOnly_ok none
  | some value => exact raisesOnly_map some (metadataInteger_raises _ _)

theorem parseMetadata_raises (values : List (Str × Str)) :
    RaisesOnly IsForeign (parseMetadata values) := by
  -- four integers and the page count are read
  refine raisesOnly_bind (metadataInteger_raises _ _) (fun _ _ => ?_)
  refine raisesOnly_bind (metadataInteger_raises _ _) (fun _ _ => ?_)
  refine raisesOnly_bind (metadataInteger_raises _ _) (fun _ _ => ?_)
  refine raisesOnly_bind (metadataInteger_raises _ _) (fun _ _ => ?_)
  refine raisesOnly_bind (metadataPageCount_raises _) (fun _ _ => ?_)
  -- and checked by `ArtifactMetadata`
  refine raisesOnly_bind (raisesOnly_raiseIf _ rfl) (fun _ _ => ?_)
  refine raisesOnly_bind (raisesOnly_raiseIf _ rfl) (fun _ _ => ?_)
  refine raisesOnly_bind (raisesOnly_raiseIf _ rfl) (fun _ _ => ?_)
  refine raisesOnly_bind (raisesOnly_raiseIf _ rfl) (fun _ _ => ?_)
  exact raisesOnly_bind (raisesOnly_raiseIf _ rfl) (fun _ _ => raisesOnly_ok _)

theorem metadata_raises : RaisesOnly IsForeign reader.metadata := by
  refine raisesOnly_bind (raisesOnly_raiseIf _ rfl) (fun _ _ => ?_)
  rcases hparse : parseMetadata reader.database.metadata with error | metadata
  · -- the checks of the fields raise ValueError, and `int` does
    dsimp only
    split_ifs with hvalue
    · exact raisesOnly_error rfl
    · exact raisesOnly_error (parseMetadata_raises _ error hparse)
  · exact raisesOnly_ok metadata

theorem outline_raises (limit : ℕ) : RaisesOnly IsForeign (reader.outline limit) := by
  apply raisesOnly_bind (sqlInteger_raises limit)
  intro limit _
  refine raisesOnly_mapM _ _ (fun row => ?_)
  unfold OutlineEntry.create
  split_ifs
  · exact raisesOnly_ok _
  · exact raisesOnly_error rfl
  · exact raisesOnly_error rfl

theorem labeledContainers_raises (limit : ℕ) :
    RaisesOnly IsForeign (reader.labeledContainers limit) := by
  apply raisesOnly_bind (sqlInteger_raises limit)
  intro limit _
  exact raisesOnly_mapM _ _ containerReference_raises

end ArtifactReader

end Reader

/-- A worker over the artifact classes raises errors of the application only where its
extractor, its search or its renderer does. -/
theorem artifactCalls_foreign (foreign : storage.Foreign) (floatText : ℚ → Str) (fuel : ℕ)
    {calls : WorkerCalls ArtifactReader DocumentContent} (hcalls : calls.Foreign) :
    (artifactCalls floatText storage fuel calls).Foreign where
  readerFactory artifact := ArtifactReader.create_raises foreign artifact
  extractText := hcalls.extractText
  writeText content := raisesOnly_map _ (writeArtifact_raises foreign fuel content)
  metadata reader := raisesOnly_map _ reader.metadata_raises
  outline reader limit := raisesOnly_map _ (reader.outline_raises limit)
  labeledContainers reader := raisesOnly_map _ (reader.labeledContainers_raises 500)
  firstChunkId _ := raisesOnly_ok _
  fullTextIfSmall reader maxBytes := reader.fullTextIfSmall_raises maxBytes
  search := hcalls.search
  readContainers reader number count :=
    raisesOnly_map _ (reader.readContainers_raises number count 64000)
  renderFromReader := hcalls.renderFromReader
  extract := hcalls.extract
  write content := writeArtifact_raises foreign fuel content

theorem singleStorage_foreign (database : Database) : (singleStorage database).Foreign where
  databaseFile other := by
    simp only [singleStorage]
    split_ifs
    · exact raisesOnly_ok _
    · exact raisesOnly_error rfl
  openDatabase file := raisesOnly_ok _
  decompress bytes i := by
    simp only [singleStorage]
    exact raisesOnly_ok _

end ConferWorker
