import ConferWorker.ReaderTotality
import ConferWorker.StorableDocuments

/-! What `ArtifactReader` gives back of the document that `ArtifactWriter` wrote: the
metadata, the outline, the containers and every region, column by column. -/
namespace ConferWorker

open ArtifactWriter

/-- A region as the reader returns it. -/
def storedRegionOf (number : ℕ) (region : VisualRegion) : StoredRegion where
  id := region.id
  containerNumber := number
  type := region.type
  bounds := region.bounds
  confidence := region.confidence
  renderable := region.renderable
  assetMediaType := region.assetMediaType
  asset := region.asset

/-- Every column of a region's row comes back as it was written. -/
theorem storedRegion_row (number : ℕ) (region : VisualRegion) (overlaps : List BlockRange) :
    ArtifactReader.storedRegion (regionRow number region overlaps)
      = .ok (storedRegionOf number region) := by
  have htype : ArtifactReader.visualRegionType (regionRow number region overlaps).type
      = .ok region.type := by
    rw [ArtifactReader.visualRegionType, regionRow, VisualRegionType.ofValue_value]
  have hbounds : Bounds.create region.bounds.x0 region.bounds.y0 region.bounds.x1
      region.bounds.y1 = .ok region.bounds := dif_pos region.bounds.rectangle
  have hrenderable : ((if region.renderable then 1 else 0) != 0) = region.renderable := by
    cases region.renderable <;> rfl
  unfold ArtifactReader.storedRegion
  rw [htype, ok_bind]
  simp only [regionRow]
  rw [hbounds, ok_bind, hrenderable]
  rfl

/-- The row of each region of a container is in the table. -/
theorem regionRows_complete {document : DocumentContent} {container : DocumentContainer}
    (hcontainer : container ∈ document.containers) {region : VisualRegion}
    (hregion : region ∈ container.regions) :
    ∃ overlaps, regionRow container.number region overlaps ∈ regionRows document := by
  obtain ⟨i, hi, hget⟩ := List.mem_iff_getElem.mp hcontainer
  have hentry : (container, i) ∈ document.containers.zipIdx := by
    rw [List.mem_zipIdx_iff_getElem?, List.getElem?_eq_getElem hi, hget]
  obtain ⟨overlaps, hrow⟩ : ∃ overlaps, regionRow container.number region overlaps
      ∈ containerRegionRows document.containers (container, i) :=
    ⟨_, List.mem_map_of_mem hregion⟩
  exact ⟨overlaps, List.mem_flatMap.mpr ⟨_, hentry, hrow⟩⟩

section Built

variable {document : DocumentContent} {reader : ArtifactReader}
  (written : DocumentWritten document reader.database)

include written

theorem region_built (hdistinct : (regionIds document.containers).Nodup)
    {container : DocumentContainer} (hcontainer : container ∈ document.containers)
    {region : VisualRegion} (hregion : region ∈ container.regions) :
    reader.region region.id = .ok (storedRegionOf container.number region) := by
  obtain ⟨overlaps, hrow⟩ := regionRows_complete hcontainer hregion
  have hid := (sqlText_eq_ok region.id region.id).mpr
    ⟨(written.encodable container hcontainer).regions region hregion, rfl⟩
  have hfind := find_of_nodup RegionRow.id (by rwa [regionRows_ids]) hrow
  have hkey : (regionRow container.number region overlaps).id = region.id := rfl
  rw [hkey] at hfind
  unfold ArtifactReader.region
  rw [hid, ok_bind, written.regions, hfind]
  exact storedRegion_row container.number region overlaps

theorem region_unknown {regionId : Str} (hencodable : Encodable regionId)
    (hunknown : regionId ∉ regionIds document.containers) :
    reader.region regionId = .error (.keyError (ofString "unknown region: "++regionId)) := by
  have hnone : (regionRows document).find? (fun row => row.id == regionId) = none := by
    rw [List.find?_eq_none]
    intro row hrow heq
    apply hunknown
    rw [← regionRows_ids, ← beq_iff_eq.mp heq]
    exact List.mem_map_of_mem hrow
  unfold ArtifactReader.region
  rw [(sqlText_eq_ok regionId regionId).mpr ⟨hencodable, rfl⟩, ok_bind, written.regions, hnone]

end Built

/-- The reader gives back the document it was written from. A limit is bound to an INTEGER
and an id to a TEXT parameter. -/
structure ContentsReadBack (document : DocumentContent) (reader : ArtifactReader) : Prop where
  metadata : reader.metadata = .ok (storedMetadata document)
  outline : ∀ limit < 2^63, reader.outline limit = .ok (document.outline.take limit)
  containers : ∀ limit < 2^63, reader.containers limit
    = .ok ((document.containers.take limit).map containerReferenceOf)
  labeledContainers : ∀ limit < 2^63, reader.labeledContainers limit
    = .ok (((document.containers.filter (fun container => container.label.isSome)).take
        limit).map containerReferenceOf)
  region : ∀ container ∈ document.containers, ∀ region ∈ container.regions,
    reader.region region.id = .ok (storedRegionOf container.number region)
  unknownRegion : ∀ regionId, Encodable regionId → regionId ∉ regionIds document.containers →
    reader.region regionId = .error (.keyError (ofString "unknown region: "++regionId))

/-- Artifact contents round trip. -/
theorem artifact_reads_back {writer : ArtifactWriter} {storage : ArtifactStorage}
    {document : DocumentContent} {reader : ArtifactReader} (faithful : storage.Faithful)
    (built : BuiltReader writer storage document reader)
    (hdistinct : (regionIds document.containers).Nodup)
    (hdigits : document.sourceSha256.all isHexDigit = true) : ContentsReadBack document reader := by
  obtain ⟨written, -⟩ := built.contents faithful
  exact {
    metadata := metadata_built written hdigits
    outline := outline_built written
    containers := containers_built written
    labeledContainers := labeledContainers_built written
    region := fun _ hcontainer _ hregion => region_built written hdistinct hcontainer hregion
    unknownRegion := fun _ => region_unknown written }

/-- A region that fills its container. -/
def sampleRegion (id : Str) (type : VisualRegionType) (asset : Option Bytes)
    (hid : id ≠ []) (hasset : asset ≠ some []) : VisualRegion where
  id := id
  type := type
  bounds := ⟨0, 0, 1, 1, unit_rectangle⟩
  confidence := 1
  renderable := true
  assetMediaType := asset.map (fun _ => ofString "image/png")
  asset := asset
  id_required := hid
  confidence_range := confidence_one
  asset_nonempty := hasset
  asset_png h := by cases asset <;> first | rfl | exact absurd rfl h
  asset_required h := by rw [h]; rfl
  asset_renderable _ := rfl

/-- A labelled page with a figure over its text, and a page with a picture alone. -/
def figurePages : DocumentContent where
  sourceSha256 := List.replicate 64 0x41
  containers :=
    [{ samplePage 0 [ofString "a", ofString "b"] with
        label := some (ofString "Cover")
        regions := [sampleRegion (ofString "p1-image-1") .image none (by decide) (by decide)] },
      { samplePage 1 [] with
        regions := [sampleRegion (ofString "p2-scanned-page") .scannedPage (some [0x89])
          (by decide) (by decide)] }]
  mediaType := ofString "application/pdf"
  title := some []
  outline := [⟨1, ofString "Start", 0, by decide, by decide⟩]
  sha_length := by decide
  sha_hexadecimal := by decide
  media_type_required := pdfType_ne_nil
  contiguous := by decide
  outline_references := by decide

def figurePagesDatabase : Database :=
  ((ArtifactWriter.default.documentDatabase figurePages 1).bind Except.toOption).elim createSchema
    Prod.fst

def figurePagesReader : ArtifactReader :=
  ⟨figurePagesDatabase, (utf8 figurePages.canonicalText).length⟩

theorem figurePages_built :
    BuiltReader ArtifactWriter.default (singleStorage figurePagesDatabase) figurePages
      figurePagesReader := by
  have h : ArtifactWriter.default.documentDatabase figurePages 1
      = some (.ok (figurePagesDatabase, utf8 figurePages.canonicalText)) := by
    decide +kernel
  exact builtReader_single h (by decide +kernel)

theorem artifact_reads_back_figurePages : ContentsReadBack figurePages figurePagesReader :=
  artifact_reads_back (singleStorage_faithful figurePagesDatabase) figurePages_built (by decide)
    (by decide)

/-- A limit that is no SQLite integer and an id that is no UTF-8 text raise other errors. -/
theorem artifact_parameters_bounded :
    BuiltReader ArtifactWriter.default (singleStorage figurePagesDatabase) figurePages
        figurePagesReader ∧
      (regionIds figurePages.containers).Nodup ∧
      figurePages.sourceSha256.all isHexDigit = true ∧
      figurePagesReader.outline (2^63) ≠ .ok (figurePages.outline.take (2^63)) ∧
      [0xD800] ∉ regionIds figurePages.containers ∧
      ∀ message, figurePagesReader.region [0xD800] ≠ .error (.keyError message) := by
  have hlimit : figurePagesReader.outline (2^63) = .error
      (.overflowError (ofString "Python int too large to convert to SQLite INTEGER")) := by
    rw [ArtifactReader.outline, sqlInteger, raiseIf, if_pos le_rfl]
    rfl
  have hsurrogate : sqlText [0xD800]
      = .error (.unicodeError (ofString "surrogates not allowed")) := by decide
  refine ⟨figurePages_built, by decide, by decide, ?_, by decide, ?_⟩
  · intro h
    rw [hlimit] at h
    cases h
  · intro message h
    rw [ArtifactReader.region, hsurrogate] at h
    have hclass := congrArg PythonError.errorClass (Except.error.inj h)
    cases hclass

end ConferWorker
