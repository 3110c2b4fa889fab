import ConferWorker.StorableDocuments

/-! Which artifacts open. The writer stores databases of any size; the reader
refuses those of more than `MAX_DATABASE_BYTES`. -/
namespace ConferWorker

open ArtifactWriter

/-- The SQLite file that holds the tables of the document is within the limit of
the reader. -/
def FitsReader (writer : ArtifactWriter) (storage : ArtifactStorage) (document : DocumentContent) :
    Prop :=
  ∀ database file, ArtifactTables writer document database →
    storage.databaseFile database = .ok file → file.length ≤ maxDatabaseBytes

/-- An artifact that the writer returned opens exactly when the database of the
document fits. -/
theorem written_opens_iff_fits {writer : ArtifactWriter} {storage : ArtifactStorage}
    {document : DocumentContent} {fuel : ℕ} {result : BuildResult} (faithful : storage.Faithful)
    (h : writer.write storage document fuel = some (.ok result)) :
    (∃ reader, ArtifactReader.create storage result.artifact = .ok reader) ↔
      FitsReader writer storage document := by
  obtain ⟨database, file, _, tables, hfile, hsize, _, _, hartifact⟩ := write_ok h
  have hcreate := create_written faithful tables.toDocumentWritten hfile hsize
  rw [hartifact, hcreate]
  constructor
  · intro hopens other otherFile otherTables hother
    obtain rfl := tables.unique otherTables
    rw [hfile, Except.ok.injEq] at hother
    subst hother
    by_contra hlarge
    obtain ⟨reader, hreader⟩ := hopens
    rw [if_neg hlarge] at hreader
    cases hreader
  · intro hfits
    rw [if_pos (hfits database file tables hfile)]
    exact ⟨_, rfl⟩

/-- A document whose canonical text alone is larger than the limit is written and
refused. -/
theorem large_text_refused {writer : ArtifactWriter} {storage : ArtifactStorage}
    {document : DocumentContent} {fuel : ℕ} {result : BuildResult} (faithful : storage.Faithful)
    (h : writer.write storage document fuel = some (.ok result))
    (hlarge : maxDatabaseBytes < (utf8 document.canonicalText).length) :
    ArtifactReader.create storage result.artifact
      = .error (.valueError (ofString "artifact database exceeds maximum size")) := by
  obtain ⟨database, file, _, tables, hfile, hsize, _, _, hartifact⟩ := write_ok h
  have hstored := faithful.holdsValues database file hfile
  have htext : (utf8 document.canonicalText).length ≤ database.storedBytes := by
    rw [Database.storedBytes, tables.documentText, Option.getD_some]
    omega
  rw [hartifact, create_written faithful tables.toDocumentWritten hfile hsize, if_neg (by omega)]

/-- The indexed copies of the chunks are no longer than the chunks. -/
theorem chunkTexts_bytes_le (canonical : Bytes) (limit : ℕ) (spans : List (ℕ × ℕ))
    (h : ∀ span ∈ spans, span.2 ≤ span.1+limit) :
    ((chunkTextsFrom canonical 0 spans).map (fun row => (utf8 row.2).length)).sum
      ≤ spans.length*limit := by
  have hlength : ((chunkTextsFrom canonical 0 spans).map
      (fun row => (utf8 row.2).length)).length = spans.length := by simp [chunkTextsFrom]
  rw [← hlength, ← smul_eq_mul]
  apply List.sum_le_card_nsmul
  intro bytes hbytes
  simp only [chunkTextsFrom, List.map_map, List.mem_map, Function.comp_apply] at hbytes
  obtain ⟨⟨span, i⟩, hspan, rfl⟩ := hbytes
  have hlimit := h span (List.fst_mem_of_mem_zipIdx hspan)
  have hslice : (slice canonical span.1 span.2).length ≤ limit := by
    rw [slice_length]
    omega
  dsimp only
  rcases hdecode : decodeUtf8 (slice canonical span.1 span.2) with _ | text
  · simp
  · rw [decodeUtf8_eq_some_iff] at hdecode
    rwa [Option.getD_some, hdecode.2]

/-- A page of `n` letters. -/
def lettersPage (n : ℕ) : DocumentContent where
  sourceSha256 := List.replicate 64 0x61
  containers := [{
    number := 0
    width := 612
    height := 792
    blocks := [⟨List.replicate n 0x61, ⟨0, 0, 612, 792, by decide⟩, .native, 1, confidence_one⟩]
    regions := []
    kind := .page
    label := none
    dimensions := by decide }]
  mediaType := ofString "application/pdf"
  title := none
  outline := []
  sha_length := repeatedDigit_length
  sha_hexadecimal := repeatedDigit_hexadecimal
  media_type_required := pdfType_ne_nil
  contiguous := rfl
  outline_references := fun _ h => by cases h

theorem letters_encodable (n : ℕ) : Encodable (List.replicate n 0x61) := by
  intro c hc
  rw [(List.mem_replicate.mp hc).2]
  rfl

theorem letters_length (n : ℕ) : (utf8 (List.replicate n 0x61)).length = n := by
  induction n with
  | zero => rfl
  | succ n ih =>
    rw [List.replicate_succ, utf8_cons, List.length_append, ih, Nat.add_comm]
    rfl

theorem lettersPage_canonicalText (n : ℕ) :
    (lettersPage n).canonicalText = List.replicate n 0x61 := by
  simp [DocumentContent.canonicalText, lettersPage, DocumentContainer.ownText, appendBlock]

theorem lettersPage_storable (n : ℕ) : Storable (lettersPage n) where
  containers := by
    intro container hcontainer
    obtain rfl := List.mem_singleton.mp hcontainer
    constructor
    · intro block hblock
      obtain rfl := List.mem_singleton.mp hblock
      exact letters_encodable n
    · intro label hlabel
      cases hlabel
    · intro region hregion
      cases hregion
  distinctIds := List.nodup_nil
  outline := fun _ h => by cases h
  sourceSha256 := lowerAscii_encodable (List.replicate 64 0x61) (by decide)
  mediaType := (by decide : Encodable (ofString "application/pdf"))
  title := encodable_nil

/-- 256 MiB of letters and one more. -/
def longPage : DocumentContent := lettersPage (2^28+1)

theorem longPage_storedBytes_lt {database : Database}
    (tables : ArtifactTables ArtifactWriter.default longPage database) :
    database.storedBytes < 2^64 := by
  have htext : longPage.canonicalText = List.replicate (2^28+1) 0x61 :=
    lettersPage_canonicalText _
  obtain ⟨spans, hspans, _, hfts⟩ := tables.chunks
  obtain ⟨hcount, hlimits⟩ := hspans.bounds (by decide)
  have hindexed := chunkTexts_bytes_le (utf8 longPage.canonicalText)
    ArtifactWriter.default.chunkBytes spans hlimits
  rw [htext, letters_length] at hcount
  have hmetadata : ((metadataRows longPage (utf8 (List.replicate (2^28+1) 0x61))).map
      (fun row => (utf8 row.1).length+(utf8 row.2).length)).sum ≤ 300 := by
    rw [metadataRows, letters_length]
    decide +kernel
  have hregions : database.regions = [] := tables.regions
  have houtline : database.outline = [] := tables.outline
  have hcontainers : (database.containers.map (fun row =>
      (utf8 row.kind).length+(utf8 (row.label.getD [])).length)).sum = 4 := by
    rw [tables.containers]
    rfl
  have hblocks : (database.blocks.map (fun row => (utf8 row.source).length)).sum = 6 := by
    rw [tables.blocks]
    rfl
  rw [← hfts] at hindexed
  rw [Database.storedBytes, tables.metadata, tables.documentText, hregions, houtline,
    hcontainers, hblocks, Option.getD_some, htext, letters_length]
  have hchunk : ArtifactWriter.default.chunkBytes = 6000 := rfl
  simp only [List.map_nil, List.sum_nil]
  rw [hchunk] at hindexed
  omega

/-- The writer returns on the long page. -/
theorem longPage_written : ∃ storage fuel result, storage.Faithful ∧
    ArtifactWriter.default.write storage longPage fuel = some (.ok result) := by
  obtain ⟨fuel, database, hdatabase⟩ := documentDatabase_returns
    ArtifactWriter.default (by decide) (lettersPage_storable (2^28+1))
  obtain ⟨_, tables⟩ := documentDatabase_ok hdatabase
  have hfile : (singleStorage database).databaseFile database
      = .ok (List.replicate database.storedBytes 0) := if_pos rfl
  have hsize := longPage_storedBytes_lt tables
  obtain ⟨result, hresult, _⟩ := write_returns hdatabase hfile (by rwa [List.length_replicate])
  exact ⟨singleStorage database, fuel, result, singleStorage_faithful database, hresult⟩

/-- The artifact of the long page is written and does not open. -/
theorem longPage_refused : ∃ storage fuel result, storage.Faithful ∧
    ArtifactWriter.default.write storage longPage fuel = some (.ok result) ∧
    ArtifactReader.create storage result.artifact
      = .error (.valueError (ofString "artifact database exceeds maximum size")) := by
  obtain ⟨storage, fuel, result, faithful, hwrite⟩ := longPage_written
  have hlength : (utf8 longPage.canonicalText).length = 2^28+1 := by
    rw [longPage, lettersPage_canonicalText, letters_length]
  refine ⟨storage, fuel, result, faithful, hwrite, large_text_refused faithful hwrite ?_⟩
  rw [hlength]
  decide

theorem written_opens_iff_fits_longPage : ∃ storage fuel result,
    ArtifactWriter.default.write storage longPage fuel = some (.ok result) ∧
    ((∃ reader, ArtifactReader.create storage result.artifact = .ok reader) ↔
      FitsReader ArtifactWriter.default storage longPage) := by
  obtain ⟨storage, fuel, result, faithful, hwrite⟩ := longPage_written
  exact ⟨storage, fuel, result, hwrite, written_opens_iff_fits faithful hwrite⟩

end ConferWorker
