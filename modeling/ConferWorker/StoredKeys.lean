import ConferWorker.OfficeRegionIds

/-! The primary keys of the tables that `_write_content` fills, for the documents that
the extractors return. -/
namespace ConferWorker

open ArtifactWriter

/-- The primary keys of the rows are distinct. -/
structure KeysDistinct (containers : List ContainerRow) (blocks : List BlockRow)
    (regions : List RegionRow) (outline : List OutlineRow) : Prop where
  containers : (containers.map ContainerRow.containerNumber).Nodup
  blocks : (blocks.map (fun row => (row.containerNumber, row.blockOrder))).Nodup
  regions : (regions.map RegionRow.id).Nodup
  outline : (outline.map OutlineRow.ordinal).Nodup

section Rows

variable (document : DocumentContent)

theorem containerRows_keys :
    (containerRows document).map ContainerRow.containerNumber
      = List.range document.containers.length :=
  calc (containerRows document).map ContainerRow.containerNumber
      = (document.containers.zipIdx.map Prod.fst).map DocumentContainer.number := by
        rw [containerRows, List.map_map, List.map_map]
        rfl
    _ = List.range document.containers.length := by
        rw [List.zipIdx_map_fst, document.contiguous]

/-- The blocks of a container are numbered from 0. -/
theorem containerBlockRows_keys (containers : List DocumentContainer)
    (entry : DocumentContainer × ℕ) :
    ((containerBlockRows containers entry).map (fun row => (row.containerNumber, row.blockOrder))).Nodup
      ∧ ∀ row ∈ containerBlockRows containers entry, row.containerNumber = entry.1.number := by
  unfold containerBlockRows blockRowsFrom
  constructor
  · rw [List.map_map]
    refine List.Nodup.of_map Prod.snd ?_
    rw [List.map_map]
    have hindices : ((entry.1.blocks.zip (blockRanges (canonicalRange containers entry).start []
        entry.1.blocks)).zipIdx.map Prod.snd).Nodup := by
      rw [List.zipIdx_map_snd]
      exact List.nodup_range'
    exact hindices
  · intro row hrow
    obtain ⟨block, _, rfl⟩ := List.mem_map.mp hrow
    rfl

theorem blockRows_keys :
    ((blockRows document).map (fun row => (row.containerNumber, row.blockOrder))).Nodup := by
  have hnumbers : (document.containers.zipIdx.map (fun entry => entry.1.number)).Nodup := by
    have hcompose : document.containers.zipIdx.map (fun entry => entry.1.number)
        = (document.containers.zipIdx.map Prod.fst).map DocumentContainer.number := by
      rw [List.map_map]
      rfl
    rw [hcompose, List.zipIdx_map_fst, document.contiguous]
    exact List.nodup_range
  unfold blockRows
  rw [List.map_flatMap, List.nodup_flatMap]
  refine ⟨fun entry _ => (containerBlockRows_keys document.containers entry).1, ?_⟩
  -- rows of two containers differ in the container number
  refine List.Pairwise.imp (fun {entry other} hne => ?_) (List.pairwise_map.mp hnumbers)
  intro key hkey hother
  obtain ⟨row, hrow, rfl⟩ := List.mem_map.mp hkey
  obtain ⟨row', hrow', heq⟩ := List.mem_map.mp hother
  have hfirst := (containerBlockRows_keys document.containers entry).2 row hrow
  have hsecond := (containerBlockRows_keys document.containers other).2 row' hrow'
  rw [Prod.mk.injEq, hfirst, hsecond] at heq
  exact hne heq.1.symm

theorem outlineRows_keys :
    (outlineRows document).map OutlineRow.ordinal = List.range document.outline.length := by
  rw [outlineRows, List.map_map, List.range_eq_range', ← List.zipIdx_map_snd]
  rfl

/-- Only the region ids are up to the document. -/
theorem documentRows_keys (hdistinct : (regionIds document.containers).Nodup) :
    KeysDistinct (containerRows document) (blockRows document) (regionRows document)
      (outlineRows document) := by
  refine ⟨?_, blockRows_keys document, ?_, ?_⟩
  · rw [containerRows_keys]
    exact List.nodup_range
  · rw [regionRows_ids]
    exact hdistinct
  · rw [outlineRows_keys]
    exact List.nodup_range

end Rows

/-- Not an error of SQLite, such as a failed key. -/
def NoSqliteError (error : PythonError) : Prop := error.errorClass ≠ .sqliteDatabaseError

section Inserts

theorem encodeText_noSqlite (s : Str) : RaisesOnly NoSqliteError (encodeText s) := by
  unfold encodeText
  cases encodeUtf8 s with
  | some bytes => exact raisesOnly_ok bytes
  | none => exact raisesOnly_error (fun h => by cases h)

theorem sqlText_noSqlite (s : Str) : RaisesOnly NoSqliteError (sqlText s) :=
  raisesOnly_bind (encodeText_noSqlite s) (fun _ _ => raisesOnly_ok s)

theorem sqlOptionalText_noSqlite (s : Option Str) :
    RaisesOnly NoSqliteError (sqlOptionalText s) := by
  cases s with
  | none => exact raisesOnly_ok none
  | some s => exact raisesOnly_map some (sqlText_noSqlite s)

theorem writeRegions_noSqlite (container : DocumentContainer) (containerBlocks : List BlockRange)
    (regions : List VisualRegion) (database : Database)
    (hdistinct : (database.regions.map RegionRow.id++regions.map VisualRegion.id).Nodup) :
    RaisesOnly NoSqliteError (regions.foldlM (writeRegion container containerBlocks) database) := by
  induction regions generalizing database with
  | nil => exact raisesOnly_ok database
  | cons region regions ih =>
    have hfresh : ¬∃ other ∈ database.regions, other.id = region.id := by
      rintro ⟨other, hother, heq⟩
      rw [List.map_cons] at hdistinct
      exact (List.disjoint_of_nodup_append hdistinct)
        (heq ▸ List.mem_map_of_mem hother) List.mem_cons_self
    rw [List.foldlM_cons]
    refine raisesOnly_bind ?_ fun next hnext => ?_
    · refine raisesOnly_bind (sqlText_noSqlite region.id) fun id hid => ?_
      rw [← ((sqlText_eq_ok region.id id).mp hid).2, raiseIf_of_not _ hfresh]
      exact raisesOnly_ok _
    · obtain ⟨id, hid, hrow⟩ := (bind_eq_ok _ _ _).mp hnext
      obtain ⟨_, _, hrow⟩ := (bind_eq_ok _ _ _).mp hrow
      rw [pure_eq_ok] at hrow
      rw [← hrow]
      apply ih
      simpa [Database.insertRegions, regionRow] using hdistinct

theorem writeBlocks_noSqlite (number order : ℕ) (blocks : List TextBlock)
    (state : ContentState × List BlockRange) :
    RaisesOnly NoSqliteError ((blocks.zipIdx order).foldlM (writeBlock number) state) := by
  induction blocks generalizing order state with
  | nil => exact raisesOnly_ok state
  | cons block blocks ih =>
    rw [List.zipIdx_cons, List.foldlM_cons]
    exact raisesOnly_bind (raisesOnly_bind (encodeText_noSqlite block.text)
      (fun _ _ => raisesOnly_ok _)) (fun next _ => ih (order+1) next)

theorem writeContainers_noSqlite (index : ℕ) (containers : List DocumentContainer)
    (state : ContentState)
    (hdistinct : (state.database.regions.map RegionRow.id++regionIds containers).Nodup) :
    RaisesOnly NoSqliteError ((containers.zipIdx index).foldlM writeContainer state) := by
  induction containers generalizing index state with
  | nil => exact raisesOnly_ok state
  | cons container containers ih =>
    rw [regionIds, List.flatMap_cons, ← regionIds, ← List.append_assoc] at hdistinct
    have hown := hdistinct.sublist (List.sublist_append_left _ _)
    rw [List.zipIdx_cons, List.foldlM_cons]
    refine raisesOnly_bind ?_ fun next hnext => ?_
    · refine raisesOnly_bind (writeBlocks_noSqlite _ 0 _ _) fun written hwritten => ?_
      have hkept := writeBlocks_regions hwritten
      refine raisesOnly_bind (sqlOptionalText_noSqlite container.label) fun _ _ => ?_
      refine raisesOnly_bind (writeRegions_noSqlite _ _ _ _ ?_) fun _ _ => raisesOnly_ok _
      rw [Database.insertContainers, hkept]
      exact hown
    · apply ih
      -- the round has added the ids of its container
      simp only [writeContainer, bind_eq_ok, Prod.exists, pure_eq_ok] at hnext
      obtain ⟨content, ranges, hwritten, _, _, database, hregions, rfl⟩ := hnext
      obtain ⟨_, rfl⟩ := writeRegions_ok hregions
      have hkept : content.database.regions = state.database.regions := writeBlocks_regions hwritten
      simpa [Database.insertRegions, Database.insertContainers, hkept, regionRow,
        Function.comp_def] using hdistinct

theorem writeOutline_noSqlite (entries : List (OutlineEntry × ℕ)) (database : Database) :
    RaisesOnly NoSqliteError (entries.foldlM writeOutlineEntry database) := by
  induction entries generalizing database with
  | nil => exact raisesOnly_ok database
  | cons entry entries ih =>
    rw [List.foldlM_cons]
    refine raisesOnly_bind ?_ fun next _ => ih next
    refine raisesOnly_bind ?_ fun _ _ => ?_
    · exact raisesOnly_bind (raisesOnly_raiseIf _ (fun h => by cases h)) fun _ _ => raisesOnly_ok _
    · exact raisesOnly_bind (sqlText_noSqlite _) fun _ _ => raisesOnly_ok _

theorem writeMetadata_noSqlite (database : Database) (rows : List (Str × Str)) :
    RaisesOnly NoSqliteError (writeMetadata database rows) :=
  raisesOnly_bind (raisesOnly_mapM _ rows fun row =>
      raisesOnly_bind (sqlText_noSqlite row.2) fun _ _ => raisesOnly_ok _)
    fun _ _ => raisesOnly_ok _

theorem writeChunks_noSqlite (writer : ArtifactWriter) (canonical : Bytes)
    (containers : List ContainerRange) (fuel start ordinal : ℕ) (database : Database)
    {result : Except PythonError Database}
    (h : writer.writeChunks canonical containers fuel start ordinal database = some result) :
    RaisesOnly NoSqliteError result := by
  induction fuel generalizing start ordinal database with
  | zero =>
    rw [writeChunks] at h
    split_ifs at h
    rw [← Option.some.inj h]
    exact raisesOnly_ok database
  | succ fuel ih =>
    rw [writeChunks] at h
    split_ifs at h
    · dsimp only at h
      cases htext : decodeText (slice canonical start (writer.chunkEnd canonical start)) with
      | error error =>
        rw [htext] at h
        rw [← Option.some.inj h]
        unfold decodeText at htext
        cases hdecode : decodeUtf8 (slice canonical start (writer.chunkEnd canonical start)) with
        | some s =>
          rw [hdecode] at htext
          cases htext
        | none =>
          rw [hdecode, Except.error.injEq] at htext
          rw [← htext]
          exact raisesOnly_error (fun h => by cases h)
      | ok text =>
        rw [htext] at h
        dsimp only at h
        split_ifs at h
        · rw [← Option.some.inj h]
          exact raisesOnly_ok _
        · exact ih _ _ _ h
    · rw [← Option.some.inj h]
      exact raisesOnly_ok database

/-- The writer never meets a used key. -/
theorem documentDatabase_noSqlite (writer : ArtifactWriter) {document : DocumentContent}
    (hdistinct : (regionIds document.containers).Nodup) {fuel : ℕ}
    {result : Except PythonError (Database × Bytes)}
    (h : writer.documentDatabase document fuel = some result) :
    RaisesOnly NoSqliteError result := by
  have hcontent : RaisesOnly NoSqliteError (writeContent createSchema document) :=
    raisesOnly_bind (writeContainers_noSqlite 0 document.containers _
      (by simpa [createSchema] using hdistinct)) fun state _ =>
      raisesOnly_bind (writeOutline_noSqlite _ _) fun _ _ => raisesOnly_ok _
  unfold documentDatabase at h
  cases hwritten : writeContent createSchema document with
  | error error =>
    rw [hwritten] at h
    rw [← Option.some.inj h]
    exact raisesOnly_error (hcontent error hwritten)
  | ok content =>
    rw [hwritten] at h
    obtain ⟨chunked, hchunked, rfl⟩ := Option.map_eq_some_iff.mp h
    refine raisesOnly_bind (writeChunks_noSqlite _ _ _ _ _ _ _ hchunked) fun database _ => ?_
    exact raisesOnly_bind (writeMetadata_noSqlite _ _) fun _ _ => raisesOnly_ok _

end Inserts

/-- The documents that the extractors return. -/
inductive Extracted : DocumentContent → Prop
  | pdf (extractor : PdfExtractor) (processor : PdfOcrProcessor)
    (openPdf : Bytes → Option PdfDocument) (source : DocumentSource) (content : DocumentContent)
    (h : extractor.extract processor openPdf source = .ok content) : Extracted content
  | office (limits : OfficeExtractionLimits) (document : DoclingDocument) (source : DocumentSource)
    (filename mediaType : Str) (content : DocumentContent)
    (h : DoclingDocumentMapper.map limits document source filename mediaType = .ok content) :
    Extracted content
  | text (extractor : TextDocumentExtractor) (source : DocumentSource) (filename mediaType : Str)
    (fuel : ℕ) (content : DocumentContent)
    (h : extractor.extract source filename mediaType fuel = some (.ok content)) :
    Extracted content

/-- No extractor returns a document with a region id twice, and so every insert of
`_write_content` has a new primary key: the writer meets no error of SQLite. -/
theorem extracted_keys_distinct {content : DocumentContent} (h : Extracted content) :
    (regionIds content.containers).Nodup
      ∧ KeysDistinct (containerRows content) (blockRows content) (regionRows content)
        (outlineRows content)
      ∧ ∀ (writer : ArtifactWriter) (fuel : ℕ) (result : Except PythonError (Database × Bytes)),
        writer.documentDatabase content fuel = some result →
          (∀ error, result = .error error → error.errorClass ≠ .sqliteDatabaseError)
          ∧ ∀ database canonical, result = .ok (database, canonical) →
            database.containers = containerRows content ∧ database.blocks = blockRows content
              ∧ database.regions = regionRows content
              ∧ database.outline = outlineRows content := by
  have hdistinct : (regionIds content.containers).Nodup := by
    cases h with
    | pdf extractor processor openPdf source _ h => exact pdf_regionIds_nodup h
    | office limits document source filename mediaType _ h =>
      exact DoclingDocumentMapper.map_regionIds_nodup h
    | text extractor source filename mediaType fuel _ h =>
      exact TextDocumentExtractor.extract_regionIds_nodup h
  refine ⟨hdistinct, documentRows_keys content hdistinct, fun writer fuel result hresult => ?_⟩
  refine ⟨documentDatabase_noSqlite writer hdistinct hresult, fun database canonical hok => ?_⟩
  rw [hok] at hresult
  obtain ⟨_, tables⟩ := documentDatabase_ok hresult
  exact ⟨tables.containers, tables.blocks, tables.regions, tables.outline⟩

/-- A page with a table and a picture. -/
def figurePage : DoclingDocument where
  pages := PythonDict.empty.set 1 (10, 10)
  items := [⟨none, .table (ofString "t")⟩, ⟨none, .picture [] false none⟩]
  sheetNames := []
  name := none

def figureSource : DocumentSource :=
  ⟨[], 1, List.replicate 64 0x30, by decide, by decide, by decide⟩

theorem figurePage_keys_distinct : ∃ content,
    DoclingDocumentMapper.map ⟨1, 5, 1, 1, 1⟩ figurePage figureSource (ofString "a")
      (ofString "text/html") = .ok content
    ∧ regionIds content.containers = [ofString "c1-table-1", ofString "c1-image-1"]
    ∧ (regionIds content.containers).Nodup
    ∧ KeysDistinct (containerRows content) (blockRows content) (regionRows content)
      (outlineRows content) := by
  have hids : (fun content : DocumentContent => regionIds content.containers)
      <$> DoclingDocumentMapper.map ⟨1, 5, 1, 1, 1⟩ figurePage figureSource (ofString "a")
        (ofString "text/html") = .ok [ofString "c1-table-1", ofString "c1-image-1"] := by
    decide +kernel
  obtain ⟨content, hmap, hids⟩ := (map_eq_ok _ _ _).mp hids
  obtain ⟨hdistinct, hkeys, _⟩ := extracted_keys_distinct (.office _ _ _ _ _ _ hmap)
  exact ⟨content, hmap, hids, hdistinct, hkeys⟩

end ConferWorker
