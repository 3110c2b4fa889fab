import ConferWorker.SessionStore
import ConferWorker.Paging

/-! When the reader answers: on an artifact that the writer made, every
operation returns exactly when the canonical text is not empty. -/
namespace ConferWorker

open ArtifactWriter

/-- The session types of document artifacts. -/
def artifactTypes (Source SearchHit Rendered : Type) : SessionTypes where
  Source := Source
  Artifact := Bytes
  Content := DocumentContent
  Reader := ArtifactReader
  Metadata := ArtifactMetadata
  Outline := List OutlineEntry
  Labels := List ContainerReference
  SearchHit := SearchHit
  Window := TextWindow
  Rendered := Rendered

/-- `read_containers(..., max_bytes=64_000)`. -/
def defaultWindowBytes : ℕ := 64000

/-- The reader of the session is an `ArtifactReader`. -/
def withArtifactReader {Source SearchHit Rendered : Type}
    (calls : SessionCalls (artifactTypes Source SearchHit Rendered)) :
    SessionCalls (artifactTypes Source SearchHit Rendered) :=
  { calls with
    metadata := fun reader => ArtifactReader.metadata reader
    outline := fun reader limit => ArtifactReader.outline reader limit
    labeledContainers := fun reader => ArtifactReader.labeledContainers reader 500
    firstChunkId := fun reader => .ok ((ArtifactReader.firstChunkId reader).map Int.ofNat)
    fullTextIfSmall := fun reader maxBytes => ArtifactReader.fullTextIfSmall reader maxBytes
    readContainers := fun reader number count =>
      ArtifactReader.readContainers reader number count defaultWindowBytes }

section Built

variable {document : DocumentContent} {reader : ArtifactReader}
  (written : DocumentWritten document reader.database)

include written

theorem outline_built (limit : ℕ) (hlimit : limit < 2^63) :
    reader.outline limit = .ok (document.outline.take limit) := by
  have hsorted : (outlineRows document).insertionSort (fun a b => a.ordinal ≤ b.ordinal)
      = outlineRows document := by
    apply List.Pairwise.insertionSort_eq
    rw [List.pairwise_iff_getElem]
    intro i j hi hj hij
    simp only [outlineRows, List.getElem_map, List.getElem_zipIdx]
    omega
  have hentries : document.outline.take limit = (document.outline.zipIdx.take limit).map Prod.fst := by
    rw [List.map_take, List.zipIdx_map_fst]
  unfold ArtifactReader.outline
  rw [sqlInteger_ok hlimit, ok_bind, written.outline, hsorted, outlineRows, ← List.map_take,
    List.mapM_map, hentries]
  apply mapM_eq_ok_map
  intro entry _
  simp only [Function.comp, OutlineEntry.create]
  rw [dif_pos entry.1.level_positive, dif_pos entry.1.title_required]

theorem containers_built (limit : ℕ) (hlimit : limit < 2^63) :
    reader.containers limit
      = .ok ((document.containers.take limit).map containerReferenceOf) := by
  have hsorted : ArtifactReader.byContainerNumber (containerRows document)
      = containerRows document := (containerRows_sorted document).insertionSort_eq
  have hentries : document.containers.take limit
      = (document.containers.zipIdx.take limit).map Prod.fst := by
    rw [List.map_take, List.zipIdx_map_fst]
  unfold ArtifactReader.containers
  rw [sqlInteger_ok hlimit, ok_bind, written.containers, hsorted, containerRows,
    ← List.map_take, containerReferences_rows, hentries]

theorem labeledContainers_built (limit : ℕ) (hlimit : limit < 2^63) :
    reader.labeledContainers limit = .ok (((document.containers.filter (fun container =>
      container.label.isSome)).take limit).map containerReferenceOf) := by
  have hrows : (containerRows document).filter (fun row => row.label.isSome)
      = (document.containers.zipIdx.filter (fun entry => entry.1.label.isSome)).map (fun entry =>
          containerRow entry.1 (canonicalRange document.containers entry)) := by
    rw [containerRows, List.filter_map]
    rfl
  have hsorted : ArtifactReader.byContainerNumber
      ((containerRows document).filter (fun row => row.label.isSome))
      = (containerRows document).filter (fun row => row.label.isSome) :=
    ((containerRows_sorted document).sublist List.filter_sublist).insertionSort_eq
  have hentries : document.containers.filter (fun container => container.label.isSome)
      = (document.containers.zipIdx.filter (fun entry => entry.1.label.isSome)).map Prod.fst := by
    conv_lhs => rw [← List.zipIdx_map_fst 0 document.containers]
    rw [List.filter_map]
    rfl
  unfold ArtifactReader.labeledContainers
  rw [sqlInteger_ok hlimit, ok_bind, written.containers, hsorted, hrows, ← List.map_take,
    containerReferences_rows, hentries, List.map_take]

end Built

/-- The metadata of a document as the reader returns it. -/
def storedMetadata (document : DocumentContent) : ArtifactMetadata where
  schemaVersion := (schemaVersion : ℤ)
  sourceSha256 := lowerAscii document.sourceSha256
  mediaType := document.mediaType
  title := if document.title.getD [] = [] then none else some (document.title.getD [])
  textBytes := ((utf8 document.canonicalText).length : ℤ)
  containerCount := (document.containers.length : ℤ)
  outlineCount := (document.outline.length : ℤ)
  pageCount :=
    if document.mediaType = ofString "application/pdf" then some (document.containers.length : ℤ)
    else none

theorem storedMetadata_check (document : DocumentContent)
    (hdigits : document.sourceSha256.all isHexDigit = true) :
    (storedMetadata document).check = .ok (storedMetadata document) := by
  have hsha := isHexDigit_lowerAscii document.sourceSha256 hdigits
  have hpages : ¬∃ pageCount ∈ (storedMetadata document).pageCount, pageCount < 0 := by
    simp only [storedMetadata]
    split_ifs <;> simp
  unfold ArtifactMetadata.check
  rw [raiseIf_of_not _ (by simp [storedMetadata, schemaVersion]), ok_bind,
    raiseIf_of_not _ (by simp [storedMetadata, document.sha_length, hsha]), ok_bind,
    raiseIf_of_not _ (by simp [storedMetadata, document.media_type_required]), ok_bind,
    raiseIf_of_not _ (by simp only [storedMetadata]; omega), ok_bind,
    raiseIf_of_not _ hpages, ok_bind]
  rfl

/-- The check returns what it was given. -/
theorem metadata_checked {metadata checked : ArtifactMetadata} (h : metadata.check = .ok checked) :
    checked = metadata := by
  simp only [ArtifactMetadata.check, bind_eq_ok, pure_eq_ok] at h
  obtain ⟨_, _, _, _, _, _, _, _, _, _, heq⟩ := h
  exact heq.symm

theorem metadataInteger_stored {values : List (Str × Str)} {key : Str} {n : ℕ}
    (h : values.lookup key = some (strOfNat n)) :
    ArtifactReader.metadataInteger values key = .ok (n : ℤ) := by
  rw [ArtifactReader.metadataInteger, h, Option.getD_some, pythonInt_strOfNat]

/-- The reader parses the metadata that the writer stored, and checks it. -/
theorem metadata_parsed {document : DocumentContent} {reader : ArtifactReader}
    (written : DocumentWritten document reader.database) :
    ArtifactReader.parseMetadata reader.database.metadata = (storedMetadata document).check ∧
      ¬∃ key ∈ ArtifactReader.requiredKeys, reader.database.metadata.lookup key = none := by
  have hlookup (key value : Str) (h : (metadataRows document
      (utf8 document.canonicalText)).lookup key = some value) :
      reader.database.metadata.lookup key = some value := by rw [written.metadata, h]
  have hversion := hlookup (ofString "schema_version") _ rfl
  have hsha := hlookup (ofString "source_sha256") _ rfl
  have hmedia := hlookup (ofString "media_type") _ rfl
  have htitle := hlookup (ofString "title") _ rfl
  have htext := hlookup (ofString "text_bytes") _ rfl
  have hcontainers := hlookup (ofString "container_count") _ rfl
  have houtline := hlookup (ofString "outline_count") _ rfl
  have hpages : reader.database.metadata.lookup (ofString "page_count") =
      if document.mediaType = ofString "application/pdf" then
        some (strOfNat document.containers.length)
      else none := by
    rw [written.metadata, metadataRows, List.lookup_append]
    split_ifs <;> rfl
  have hpageCount : ArtifactReader.metadataPageCount reader.database.metadata
      = .ok (storedMetadata document).pageCount := by
    simp only [ArtifactReader.metadataPageCount, storedMetadata]
    split_ifs with hpdf
    · rw [if_pos hpdf] at hpages
      rw [hpages, metadataInteger_stored hpages]
      rfl
    · rw [if_neg hpdf] at hpages
      rw [hpages]
      rfl
  constructor
  · unfold ArtifactReader.parseMetadata
    rw [metadataInteger_stored hversion, ok_bind, metadataInteger_stored htext, ok_bind,
      metadataInteger_stored hcontainers, ok_bind, metadataInteger_stored houtline, ok_bind,
      hpageCount, ok_bind, hsha, hmedia, htitle]
    rfl
  · simp only [ArtifactReader.requiredKeys, List.mem_cons, List.not_mem_nil, or_false,
      exists_eq_or_imp, exists_eq_left, hversion, hsha, hmedia, htitle, htext, hcontainers,
      houtline, reduceCtorEq, or_self, not_false_eq_true]

/-- The metadata that the writer stored passes every check of the reader. -/
theorem metadata_built {document : DocumentContent} {reader : ArtifactReader}
    (written : DocumentWritten document reader.database)
    (hdigits : document.sourceSha256.all isHexDigit = true) :
    reader.metadata = .ok (storedMetadata document) := by
  obtain ⟨hparse, hcomplete⟩ := metadata_parsed written
  unfold ArtifactReader.metadata
  dsimp only
  rw [raiseIf_of_not _ hcomplete, ok_bind, hparse, storedMetadata_check document hdigits]

/-- Metadata that the reader returns is the metadata that was stored. -/
theorem metadata_returned {document : DocumentContent} {reader : ArtifactReader}
    {metadata : ArtifactMetadata} (written : DocumentWritten document reader.database)
    (h : reader.metadata = .ok metadata) : metadata = storedMetadata document := by
  obtain ⟨hparse, hcomplete⟩ := metadata_parsed written
  unfold ArtifactReader.metadata at h
  dsimp only at h
  rw [raiseIf_of_not _ hcomplete, ok_bind, hparse] at h
  cases hcheck : (storedMetadata document).check with
  | ok checked =>
    rw [hcheck] at h
    obtain rfl := Except.ok.inj h
    exact metadata_checked hcheck
  | error error =>
    rw [hcheck] at h
    dsimp only at h
    split_ifs at h

/-- Every read-only operation of the reader, and of a session with the document
open, returns what it should. -/
structure ReaderTotal (document : DocumentContent) (reader : ArtifactReader) : Prop where
  fullText : ∀ maxBytes, reader.textBytes ≤ maxBytes →
    reader.fullText maxBytes = .ok document.canonicalText
  fullTextIfSmall : ∀ maxBytes, reader.textBytes ≤ maxBytes →
    reader.fullTextIfSmall maxBytes = .ok (some document.canonicalText)
  readContainers : ∀ number count maxBytes, number < document.containers.length → 1 ≤ count →
    count ≤ 20 → 1 ≤ maxBytes → ∃ window, reader.readContainers number count maxBytes = .ok window
  metadata : ∃ metadata, reader.metadata = .ok metadata
  outline : ∀ limit < 2^63, ∃ outline, reader.outline limit = .ok outline
  labeledContainers : ∀ limit < 2^63,
    ∃ references, reader.labeledContainers limit = .ok references
  overview : ∀ {Source SearchHit Rendered : Type}
    (calls : SessionCalls (artifactTypes Source SearchHit Rendered)) session serial
    (request : GetDocumentOverviewRequest),
    session.find request.documentId = some ⟨serial, reader⟩ →
      ∃ response, (DocumentSession.execute (withArtifactReader calls) session
        (.overview request)).2 = .ok response
  read : ∀ {Source SearchHit Rendered : Type}
    (calls : SessionCalls (artifactTypes Source SearchHit Rendered)) session serial
    (request : ReadDocumentRequest),
    session.find request.documentId = some ⟨serial, reader⟩ →
      request.containerNumber < document.containers.length →
      ∃ response, (DocumentSession.execute (withArtifactReader calls) session
        (.read request)).2 = .ok response

section Total

variable {document : DocumentContent} {reader : ArtifactReader}
  (written : DocumentWritten document reader.database)
  (htext : reader.textBytes = (utf8 document.canonicalText).length)

include written

/-- `_text` on an empty document: SQLite returns NULL for the empty BLOB. -/
theorem text_empty (hempty : document.canonicalText = []) :
    reader.text 0 0 = .error (.typeError (ofString "cannot convert 'NoneType' object to bytes")) := by
  have hblob : reader.database.documentText = some [] := by
    rw [written.documentText, hempty, utf8_nil]
  unfold ArtifactReader.text
  rw [raiseIf_of_not _ (by omega), hblob]
  rfl

include htext

/-- The whole text can be read back when it is not empty. -/
theorem fullTextIfSmall_built (hnonempty : document.canonicalText ≠ []) (maxBytes : ℕ)
    (h : reader.textBytes ≤ maxBytes) :
    reader.fullTextIfSmall maxBytes = .ok (some document.canonicalText) := by
  have hdecode : decodeText (utf8 document.canonicalText) = .ok document.canonicalText :=
    (decodeText_eq_ok _ _).mpr ⟨document.canonicalText_encodable written.encodable, rfl⟩
  rw [ArtifactReader.fullTextIfSmall, if_neg (by omega), htext,
    text_built written htext hnonempty 0 _ (Nat.zero_le _) (le_refl _), ok_bind, slice_zero,
    List.take_length, hdecode]
  rfl

theorem fullText_built (hnonempty : document.canonicalText ≠ []) (maxBytes : ℕ)
    (h : reader.textBytes ≤ maxBytes) : reader.fullText maxBytes = .ok document.canonicalText := by
  have hdecode : decodeText (utf8 document.canonicalText) = .ok document.canonicalText :=
    (decodeText_eq_ok _ _).mpr ⟨document.canonicalText_encodable written.encodable, rfl⟩
  rw [ArtifactReader.fullText, raiseIf_of_not _ (by omega), ok_bind, htext,
    text_built written htext hnonempty 0 _ (Nat.zero_le _) (le_refl _), ok_bind, slice_zero,
    List.take_length, hdecode]

theorem readContainers_built (hnonempty : document.canonicalText ≠ []) (number count maxBytes : ℕ)
    (hn : number < document.containers.length) (hmin : 1 ≤ count) (hmax : count ≤ 20) :
    ∃ window, reader.readContainers number count maxBytes = .ok window := by
  rcases Nat.lt_or_ge maxBytes (utf8 document.containers[number].ownText).length with h | h
  · obtain ⟨window, hwindow, -⟩ := readContainers_cut written htext hnonempty number count
      maxBytes hn ⟨hmin, hmax⟩ h
    exact ⟨window, hwindow⟩
  · obtain ⟨window, hwindow, -⟩ := readContainers_whole written htext hnonempty number count
      maxBytes hn ⟨hmin, hmax⟩ h
    exact ⟨window, hwindow⟩

theorem readerTotal_of_nonempty (hnonempty : document.canonicalText ≠ [])
    (hhash : IsSourceHash document.sourceSha256) : ReaderTotal document reader where
  fullText := fullText_built written htext hnonempty
  fullTextIfSmall := fullTextIfSmall_built written htext hnonempty
  readContainers number count maxBytes hn hmin hmax _ :=
    readContainers_built written htext hnonempty number count maxBytes hn hmin hmax
  metadata := ⟨_, metadata_built written hhash.2.1⟩
  outline limit hlimit := ⟨_, outline_built written limit hlimit⟩
  labeledContainers limit hlimit := ⟨_, labeledContainers_built written limit hlimit⟩
  overview calls session serial request hfind := by
    obtain ⟨references, hreferences⟩ : ∃ references,
        reader.labeledContainers 500 = .ok references :=
      ⟨_, labeledContainers_built written 500 (by omega)⟩
    have hcontent : ∃ content, reader.fullTextIfSmall maxInlineContentBytes = .ok content := by
      rcases Nat.lt_or_ge maxInlineContentBytes reader.textBytes with h | h
      · exact ⟨none, by rw [ArtifactReader.fullTextIfSmall, if_pos h]; rfl⟩
      · exact ⟨_, fullTextIfSmall_built written htext hnonempty _ h⟩
    obtain ⟨content, hcontent⟩ := hcontent
    refine ⟨.overview (storedMetadata document) (document.outline.take 500) references
      (reader.firstChunkId.map Int.ofNat) content, ?_⟩
    simp only [DocumentSession.execute, DocumentSession.ask, hfind, DocumentSession.answer,
      withArtifactReader, metadata_built written hhash.2.1, outline_built written 500 (by omega),
      hreferences, hcontent, ok_bind]
    rfl
  read calls session serial request hfind hn := by
    obtain ⟨window, hwindow⟩ := readContainers_built written htext hnonempty
      request.containerNumber request.containerCount defaultWindowBytes hn request.count_range.1
      request.count_range.2
    refine ⟨.read window, ?_⟩
    simp only [DocumentSession.execute, DocumentSession.ask, hfind, DocumentSession.answer,
      withArtifactReader, hwindow]

/-- On an empty document the reader raises TypeError. -/
theorem fullText_empty (hempty : document.canonicalText = []) (maxBytes : ℕ) :
    reader.fullText maxBytes
      = .error (.typeError (ofString "cannot convert 'NoneType' object to bytes")) := by
  have hzero : reader.textBytes = 0 := by rw [htext, hempty, utf8_nil, List.length_nil]
  unfold ArtifactReader.fullText
  rw [raiseIf_of_not _ (by omega), ok_bind, hzero, text_empty written hempty]
  rfl

/-- The overview of an open document without text raises. -/
theorem overview_empty (hempty : document.canonicalText = [])
    (hhash : IsSourceHash document.sourceSha256) {Source SearchHit Rendered : Type}
    (calls : SessionCalls (artifactTypes Source SearchHit Rendered))
    (session : DocumentSession (artifactTypes Source SearchHit Rendered).Reader) (serial : ℕ)
    (request : GetDocumentOverviewRequest)
    (hfind : session.find request.documentId = some ⟨serial, reader⟩) :
    (DocumentSession.execute (withArtifactReader calls) session (.overview request)).2
      = .error (.typeError (ofString "cannot convert 'NoneType' object to bytes")) := by
  have hreferences := labeledContainers_built written 500 (by omega)
  have hzero : reader.textBytes = 0 := by rw [htext, hempty, utf8_nil, List.length_nil]
  have hcontent : reader.fullTextIfSmall maxInlineContentBytes
      = .error (.typeError (ofString "cannot convert 'NoneType' object to bytes")) := by
    rw [ArtifactReader.fullTextIfSmall, hzero, if_neg (by omega), text_empty written hempty]
    rfl
  simp only [DocumentSession.execute, DocumentSession.ask, hfind, DocumentSession.answer,
    withArtifactReader, metadata_built written hhash.2.1, outline_built written 500 (by omega),
    hreferences, hcontent, ok_bind]
  rfl

end Total

/-- The reader of an artifact that the writer made answers every operation
exactly when the document has text to store: at least two containers, or a block
with text. -/
theorem reader_total_iff {writer : ArtifactWriter} {storage : ArtifactStorage}
    {document : DocumentContent} {reader : ArtifactReader} (faithful : storage.Faithful)
    (built : BuiltReader writer storage document reader)
    (hhash : IsSourceHash document.sourceSha256) :
    ReaderTotal document reader ↔ 2 ≤ document.containers.length ∨
      ∃ container ∈ document.containers, ∃ block ∈ container.blocks, block.text ≠ [] := by
  obtain ⟨written, htext⟩ := built.contents faithful
  have hnonempty : document.canonicalText ≠ [] ↔ 2 ≤ document.containers.length ∨
      ∃ container ∈ document.containers, ∃ block ∈ container.blocks, block.text ≠ [] := by
    rw [Ne, document.canonicalText_eq_nil_iff, not_and_or]
    push Not
    rw [Nat.lt_iff_add_one_le]
  rw [← hnonempty]
  constructor
  · intro total hempty
    have hraises := fullText_empty written htext hempty reader.textBytes
    rw [total.fullText _ (le_refl _)] at hraises
    cases hraises
  · intro h
    exact readerTotal_of_nonempty written htext h hhash

theorem reader_total_iff_twoPages :
    ReaderTotal twoPages ⟨twoPagesDatabase, (utf8 twoPages.canonicalText).length⟩ ↔
      2 ≤ twoPages.containers.length ∨
        ∃ container ∈ twoPages.containers, ∃ block ∈ container.blocks, block.text ≠ [] :=
  reader_total_iff (singleStorage_faithful twoPagesDatabase) twoPages_built
    ⟨by decide, by decide, by decide⟩

/-- A scan without text: one blank page. -/
def blankPage : DocumentContent where
  sourceSha256 := List.replicate 64 0x61
  containers := [samplePage 0 []]
  mediaType := ofString "application/pdf"
  title := none
  outline := []
  sha_length := repeatedDigit_length
  sha_hexadecimal := repeatedDigit_hexadecimal
  media_type_required := pdfType_ne_nil
  contiguous := by decide
  outline_references := by decide

def blankPageDatabase : Database :=
  ((ArtifactWriter.default.documentDatabase blankPage 1).bind Except.toOption).elim createSchema
    Prod.fst

/-- The blank page is written and opens, but its text, its only container and
its overview cannot be read. -/
theorem blankPage_unreadable :
    BuiltReader ArtifactWriter.default (singleStorage blankPageDatabase) blankPage
        ⟨blankPageDatabase, 0⟩ ∧
      IsSourceHash blankPage.sourceSha256 ∧
      ¬ReaderTotal blankPage ⟨blankPageDatabase, 0⟩ ∧
      ArtifactReader.fullText ⟨blankPageDatabase, 0⟩ 0
        = .error (.typeError (ofString "cannot convert 'NoneType' object to bytes")) ∧
      ArtifactReader.fullTextIfSmall ⟨blankPageDatabase, 0⟩ maxInlineContentBytes
        = .error (.typeError (ofString "cannot convert 'NoneType' object to bytes")) ∧
      ArtifactReader.readContainers ⟨blankPageDatabase, 0⟩ 0 1 defaultWindowBytes
        = .error (.typeError (ofString "cannot convert 'NoneType' object to bytes")) := by
  have h : ArtifactWriter.default.documentDatabase blankPage 1
      = some (.ok (blankPageDatabase, [])) := by decide +kernel
  have hbuilt := builtReader_single h (by decide +kernel)
  have hraises : ArtifactReader.fullText ⟨blankPageDatabase, 0⟩ 0
      = .error (.typeError (ofString "cannot convert 'NoneType' object to bytes")) := rfl
  refine ⟨hbuilt, ⟨by decide, by decide, by decide⟩, ?_, hraises, rfl, rfl⟩
  intro total
  rw [total.fullText 0 (le_refl 0)] at hraises
  cases hraises

end ConferWorker
