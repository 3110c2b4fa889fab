import ConferWorker.ArtifactBuild

/-! The documents that the writer stores: every text can be encoded, the region
ids are distinct and the outline levels are SQLite integers. -/
namespace ConferWorker

open ArtifactWriter

/-- The region ids of the containers, in the order of the inserts. -/
def regionIds (containers : List DocumentContainer) : List Str :=
  containers.flatMap (fun container => container.regions.map VisualRegion.id)

/-- The ids in the table are those of the document, in order. -/
theorem regionRows_ids (document : DocumentContent) :
    (regionRows document).map RegionRow.id = regionIds document.containers := by
  have hcontainer (entry : DocumentContainer × ℕ) :
      (containerRegionRows document.containers entry).map RegionRow.id
        = entry.1.regions.map VisualRegion.id := by
    rw [containerRegionRows, List.map_map]
    rfl
  calc (regionRows document).map RegionRow.id
      = document.containers.zipIdx.flatMap (fun entry => entry.1.regions.map VisualRegion.id) := by
        rw [regionRows, List.map_flatMap]
        exact congrArg (fun f => document.containers.zipIdx.flatMap f) (funext hcontainer)
    _ = (document.containers.zipIdx.map Prod.fst).flatMap
          (fun container => container.regions.map VisualRegion.id) := by rw [List.flatMap_map]
    _ = regionIds document.containers := by rw [List.zipIdx_map_fst]; rfl

/-- What the inserts of `write` need. -/
structure Storable (document : DocumentContent) : Prop where
  containers : ∀ container ∈ document.containers, ContainerEncodable container
  distinctIds : (regionIds document.containers).Nodup
  outline : ∀ entry ∈ document.outline, Encodable entry.title ∧ entry.level < 2^63
  sourceSha256 : Encodable (lowerAscii document.sourceSha256)
  mediaType : Encodable document.mediaType
  title : Encodable (document.title.getD [])

theorem writeBlocks_returns (number order : ℕ) (blocks : List TextBlock)
    (state : ContentState × List BlockRange) (h : ∀ block ∈ blocks, Encodable block.text) :
    ∃ state', (blocks.zipIdx order).foldlM (writeBlock number) state = .ok state' := by
  induction blocks generalizing order state with
  | nil => exact ⟨state, rfl⟩
  | cons block blocks ih =>
    obtain ⟨hblock, hblocks⟩ := List.forall_mem_cons.mp h
    have hencode := (encodeText_eq_ok block.text _).mpr ⟨hblock, rfl⟩
    rw [List.zipIdx_cons, List.foldlM_cons, writeBlock]
    simp only [hencode, ok_bind]
    exact ih (order+1) _ hblocks

theorem writeRegions_returns (container : DocumentContainer) (containerBlocks : List BlockRange)
    (regions : List VisualRegion) (database : Database)
    (hencodable : ∀ region ∈ regions, Encodable region.id)
    (hdistinct : (database.regions.map RegionRow.id++regions.map VisualRegion.id).Nodup) :
    ∃ database', regions.foldlM (writeRegion container containerBlocks) database
      = .ok database' := by
  induction regions generalizing database with
  | nil => exact ⟨database, rfl⟩
  | cons region regions ih =>
    obtain ⟨hregion, hregions⟩ := List.forall_mem_cons.mp hencodable
    have hid := (sqlText_eq_ok region.id region.id).mpr ⟨hregion, rfl⟩
    have hfresh : ¬∃ other ∈ database.regions, other.id = region.id := by
      intro hused
      obtain ⟨other, hother, heq⟩ := hused
      rw [List.map_cons] at hdistinct
      exact (List.disjoint_of_nodup_append hdistinct)
        (heq ▸ List.mem_map_of_mem hother) List.mem_cons_self
    rw [List.foldlM_cons, writeRegion]
    simp only [hid, ok_bind, raiseIf_of_not _ hfresh]
    apply ih _ hregions
    simpa [Database.insertRegions, regionRow] using hdistinct

/-- The blocks leave the regions as they are. -/
theorem writeBlocks_regions {number order : ℕ} {blocks : List TextBlock}
    {state state' : ContentState × List BlockRange}
    (h : (blocks.zipIdx order).foldlM (writeBlock number) state = .ok state') :
    state'.1.database.regions = state.1.database.regions := by
  induction blocks generalizing order state with
  | nil =>
    obtain rfl : state = state' := by simpa using h
    rfl
  | cons block blocks ih =>
    simp only [List.zipIdx_cons, List.foldlM_cons, bind_eq_ok, writeBlock, encodeText_eq_ok,
      pure_eq_ok] at h
    obtain ⟨next, ⟨encoded, _, rfl⟩, hrest⟩ := h
    have hkept := ih hrest
    exact hkept

theorem writeContainers_returns (index : ℕ) (containers : List DocumentContainer)
    (state : ContentState) (hencodable : ∀ container ∈ containers, ContainerEncodable container)
    (hdistinct : (state.database.regions.map RegionRow.id++regionIds containers).Nodup) :
    ∃ state', (containers.zipIdx index).foldlM writeContainer state = .ok state' := by
  induction containers generalizing index state with
  | nil => exact ⟨state, rfl⟩
  | cons container containers ih =>
    obtain ⟨hcontainer, hcontainers⟩ := List.forall_mem_cons.mp hencodable
    rw [regionIds, List.flatMap_cons, ← regionIds, ← List.append_assoc] at hdistinct
    obtain ⟨⟨content, ranges⟩, hblocks⟩ := writeBlocks_returns container.number 0 container.blocks
      (⟨separateContainer state.canonical index, state.containerRanges, state.database⟩, [])
      hcontainer.blocks
    have hkept : content.database.regions = state.database.regions := writeBlocks_regions hblocks
    have hlabel := (sqlOptionalText_eq_ok container.label _).mpr ⟨hcontainer.label, rfl⟩
    let row := containerRow container ⟨container.number,
      (separateContainer state.canonical index).length, content.canonical.length⟩
    obtain ⟨database, hregions⟩ := writeRegions_returns container ranges container.regions
      (content.database.insertContainers [row]) hcontainer.regions (by
        rw [Database.insertContainers, hkept]
        exact hdistinct.sublist (List.sublist_append_left _ _))
    have hstep : writeContainer state (container, index)
        = .ok ⟨content.canonical, content.containerRanges++[⟨container.number,
          (separateContainer state.canonical index).length, content.canonical.length⟩],
          database⟩ := by
      rw [writeContainer]
      simp only [hblocks, ok_bind, hlabel]
      rw [hregions]
      rfl
    obtain ⟨_, rfl⟩ := writeRegions_ok hregions
    rw [List.zipIdx_cons, List.foldlM_cons, hstep, ok_bind]
    apply ih _ _ hcontainers
    simpa [Database.insertRegions, Database.insertContainers, hkept, regionRow,
      Function.comp_def] using hdistinct

theorem writeOutline_returns (entries : List (OutlineEntry × ℕ)) (database : Database)
    (h : ∀ entry ∈ entries, Encodable entry.1.title ∧ entry.1.level < 2^63) :
    ∃ database', entries.foldlM writeOutlineEntry database = .ok database' := by
  induction entries generalizing database with
  | nil => exact ⟨database, rfl⟩
  | cons entry entries ih =>
    obtain ⟨⟨htitle, hlevel⟩, hentries⟩ := List.forall_mem_cons.mp h
    have htext := (sqlText_eq_ok entry.1.title _).mpr ⟨htitle, rfl⟩
    rw [List.foldlM_cons, writeOutlineEntry, sqlInteger]
    simp only [raiseIf_of_not _ (not_le.mpr hlevel), ok_bind, htext]
    exact ih _ hentries

theorem writeMetadata_returns (database : Database) (rows : List (Str × Str))
    (h : ∀ row ∈ rows, Encodable row.2) :
    ∃ database', writeMetadata database rows = .ok database' := by
  obtain ⟨values, hvalues⟩ := mapM_returns (fun row : Str × Str => do
      let value ← sqlText row.2
      pure (row.1, value)) rows (fun row hrow => by
    have htext := (sqlText_eq_ok row.2 _).mpr ⟨h row hrow, rfl⟩
    exact ⟨(row.1, row.2), by rw [htext, ok_bind]; rfl⟩)
  exact ⟨_, by rw [writeMetadata, hvalues]; rfl⟩

theorem metadataRows_encodable {document : DocumentContent} (storable : Storable document)
    (canonical : Bytes) : ∀ row ∈ metadataRows document canonical, Encodable row.2 := by
  intro row hrow
  simp only [metadataRows, List.mem_append, List.mem_cons, List.not_mem_nil, or_false] at hrow
  rcases hrow with (rfl | rfl | rfl | rfl | rfl | rfl | rfl) | hpage
  · exact strOfNat_encodable _
  · exact storable.sourceSha256
  · exact storable.mediaType
  · exact storable.title
  · exact strOfNat_encodable _
  · exact strOfNat_encodable _
  · exact strOfNat_encodable _
  · split_ifs at hpage
    · obtain rfl := List.mem_singleton.mp hpage
      exact strOfNat_encodable _
    · cases hpage

/-- The writer commits the tables of every storable document. -/
theorem documentDatabase_returns (writer : ArtifactWriter) {document : DocumentContent}
    (hoverlap : 2*writer.overlapBytes+8 ≤ writer.chunkBytes) (storable : Storable document) :
    ∃ fuel database, writer.documentDatabase document fuel
      = some (.ok (database, utf8 document.canonicalText)) := by
  obtain ⟨state, hcontainers⟩ := writeContainers_returns 0 document.containers
    ⟨[], [], createSchema⟩ storable.containers (by simpa [createSchema] using storable.distinctIds)
  obtain ⟨database, houtline⟩ := writeOutline_returns document.outline.zipIdx state.database
    (fun entry hentry => storable.outline _ (List.fst_mem_of_mem_zipIdx hentry))
  have hcontent : writeContent createSchema document
      = .ok { state with database := database } := by
    rw [writeContent, hcontainers, ok_bind, houtline, ok_bind]
    rfl
  have written := writeContent_ok hcontent
  have hcanonical : state.canonical = utf8 document.canonicalText := written.canonical
  have hencodable := document.canonicalText_encodable storable.containers
  obtain ⟨chunked, hchunked⟩ := writeChunks_returns hoverlap hencodable state.containerRanges
    (utf8 document.canonicalText).length 0 0 database (isBoundary_zero _) (by omega)
  obtain ⟨final, hfinal⟩ := writeMetadata_returns
    { chunked with documentText := some (utf8 document.canonicalText) } _
    (metadataRows_encodable storable (utf8 document.canonicalText))
  refine ⟨(utf8 document.canonicalText).length, final, ?_⟩
  unfold documentDatabase
  simp only [hcontent, hcanonical, hchunked, Option.map_some, ok_bind, hfinal]
  rfl

end ConferWorker
