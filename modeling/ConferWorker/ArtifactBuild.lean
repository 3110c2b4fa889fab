import ConferWorker.ArtifactContents
import ConferWorker.ArtifactReader
import ConferWorker.Chunking

/-! From a document to an open reader: what `ArtifactWriter.write` put into the
database is what `ArtifactReader` reads back, when the size limit admits it. -/
namespace ConferWorker

open ArtifactWriter

/-- What `write` commits for a document. -/
structure DocumentWritten (document : DocumentContent) (database : Database) : Prop where
  encodable : ∀ container ∈ document.containers, ContainerEncodable container
  outlineTitles : ∀ entry ∈ document.outline, Encodable entry.title
  documentText : database.documentText = some (utf8 document.canonicalText)
  containers : database.containers = containerRows document
  outline : database.outline = outlineRows document
  metadata : database.metadata = metadataRows document (utf8 document.canonicalText)
  blocks : database.blocks = blockRows document
  regions : database.regions = regionRows document
  format : database.applicationId = applicationId ∧ database.userVersion = schemaVersion

/-- The tables of a document's artifact: every row is determined by the document. -/
structure ArtifactTables (writer : ArtifactWriter) (document : DocumentContent)
    (database : Database) : Prop extends DocumentWritten document database where
  chunks : ∃ spans, ChunkSpans writer (utf8 document.canonicalText) 0 spans ∧
    database.chunks = chunkRowsFrom (document.containers.zipIdx.map
      (canonicalRange document.containers)) 0 spans ∧
    database.chunkFts = chunkTextsFrom (utf8 document.canonicalText) 0 spans

theorem ArtifactTables.unique {writer : ArtifactWriter} {document : DocumentContent}
    {database database' : Database} (h : ArtifactTables writer document database)
    (h' : ArtifactTables writer document database') : database = database' := by
  obtain ⟨spans, hspans, hchunks, htexts⟩ := h.chunks
  obtain ⟨spans', hspans', hchunks', htexts'⟩ := h'.chunks
  obtain rfl := hspans.unique hspans'
  have hversion := h.format.2.trans h'.format.2.symm
  have hid := h.format.1.trans h'.format.1.symm
  have hmetadata := h.metadata.trans h'.metadata.symm
  have htext := h.documentText.trans h'.documentText.symm
  have hcontainers := h.containers.trans h'.containers.symm
  have hblocks := h.blocks.trans h'.blocks.symm
  have hregions := h.regions.trans h'.regions.symm
  have houtline := h.outline.trans h'.outline.symm
  have hrows := hchunks.trans hchunks'.symm
  have hfts := htexts.trans htexts'.symm
  cases database
  cases database'
  simp only at hversion hid hmetadata htext hcontainers hblocks hregions houtline hrows hfts
  simp only [hversion, hid, hmetadata, htext, hcontainers, hblocks, hregions, houtline, hrows, hfts]

theorem writeMetadata_ok {database database' : Database} {rows : List (Str × Str)}
    (h : writeMetadata database rows = .ok database') :
    database' = { database with metadata := database.metadata++rows } := by
  simp only [writeMetadata, bind_eq_ok, pure_eq_ok] at h
  obtain ⟨values, hvalues, rfl⟩ := h
  rw [mapM_eq_ok_iff _ (fun row => Encodable row.2) id] at hvalues
  · rw [← hvalues.2, List.map_id]
  · intro row _ value
    simp only [bind_eq_ok, sqlText_eq_ok, pure_eq_ok, id]
    constructor
    · rintro ⟨_, ⟨hrow, rfl⟩, rfl⟩
      exact ⟨hrow, rfl⟩
    · rintro ⟨hrow, rfl⟩
      exact ⟨_, ⟨hrow, rfl⟩, rfl⟩

theorem documentDatabase_ok {writer : ArtifactWriter} {document : DocumentContent} {fuel : ℕ}
    {database : Database} {canonical : Bytes}
    (h : writer.documentDatabase document fuel = some (.ok (database, canonical))) :
    canonical = utf8 document.canonicalText ∧ ArtifactTables writer document database := by
  unfold documentDatabase at h
  split at h
  · simp at h
  · rename_i content hcontent
    have written := writeContent_ok hcontent
    simp only [Option.map_eq_some_iff, bind_eq_ok, pure_eq_ok, Prod.mk.injEq] at h
    obtain ⟨chunked, hchunked, withChunks, rfl, final, hmetadata, rfl, rfl⟩ := h
    obtain ⟨spans, hspans, rfl⟩ := writeChunks_ok hchunked
    obtain rfl := writeMetadata_ok hmetadata
    rw [written.canonical, written.ranges] at *
    obtain ⟨hmetadata, _, hchunks, hfts⟩ := written.rest
    refine ⟨rfl, ⟨written.encodable, written.outlineTitles, rfl, written.containers,
      written.outline, ?_, written.blocks, written.regions, written.format⟩, spans, hspans, ?_, ?_⟩
    · simp only [Database.insertChunks, hmetadata, List.nil_append]
    · simp only [Database.insertChunks, hchunks, List.nil_append]
    · simp only [Database.insertChunks, hfts, List.nil_append]

/-- A normal return of `write`: the committed database, its file and the artifact. -/
theorem write_ok {writer : ArtifactWriter} {storage : ArtifactStorage}
    {document : DocumentContent} {fuel : ℕ} {result : BuildResult}
    (h : writer.write storage document fuel = some (.ok result)) :
    ∃ database file, writer.documentDatabase document fuel
        = some (.ok (database, utf8 document.canonicalText)) ∧
      ArtifactTables writer document database ∧ storage.databaseFile database = .ok file ∧
      file.length < 2^64 ∧ result.text = utf8 document.canonicalText ∧
      result.databaseSize = file.length ∧
      result.artifact = magic++toBig 8 file.length++storage.compress file := by
  simp only [write, Option.map_eq_some_iff, bind_eq_ok, pure_eq_ok, packHeader_eq_ok,
    Prod.exists] at h
  obtain ⟨built, hbuilt, database, canonical, rfl, file, hfile, header, ⟨hsize, rfl⟩, rfl⟩ := h
  obtain ⟨rfl, written⟩ := documentDatabase_ok hbuilt
  exact ⟨database, file, hbuilt, written, hfile, hsize, rfl, rfl, rfl⟩

/-- `write` returns when the tables are written and SQLite stores them. -/
theorem write_returns {writer : ArtifactWriter} {storage : ArtifactStorage}
    {document : DocumentContent} {fuel : ℕ} {database : Database} {canonical file : Bytes}
    (h : writer.documentDatabase document fuel = some (.ok (database, canonical)))
    (hfile : storage.databaseFile database = .ok file) (hsize : file.length < 2^64) :
    ∃ result, writer.write storage document fuel = some (.ok result) ∧
      result.artifact = magic++toBig 8 file.length++storage.compress file := by
  have hheader := (packHeader_eq_ok file.length _).mpr ⟨hsize, rfl⟩
  refine ⟨⟨(magic++toBig 8 file.length++storage.compress file).length, canonical,
    magic++toBig 8 file.length++storage.compress file, file.length⟩, ?_, rfl⟩
  rw [write, h, Option.map_some, ok_bind]
  simp only [hfile, hheader, ok_bind]
  rfl

/-- Reading a stream that delivers no more than the declared size copies it whole. -/
theorem copyChunks_delivers (stream : ChunkStream) (expectedSize i : ℕ) (database : Bytes)
    (chunks : List Bytes) (hchunks : ∀ chunk ∈ chunks, chunk ≠ [])
    (hstream : ∀ k, stream (i+k) = .ok (chunks.getD k []))
    (hsize : database.length+chunks.flatten.length ≤ expectedSize)
    (hmax : expectedSize ≤ maxDatabaseBytes) :
    copyChunks stream expectedSize i database = (database++chunks.flatten, .ok ()) := by
  induction chunks generalizing i database with
  | nil =>
    have hfirst := hstream 0
    rw [Nat.add_zero] at hfirst
    rw [copyChunks, hfirst]
    simp
  | cons chunk chunks ih =>
    have hfirst := hstream 0
    rw [Nat.add_zero] at hfirst
    obtain ⟨hchunk, hrest⟩ := List.forall_mem_cons.mp hchunks
    obtain ⟨b, tail, rfl⟩ := List.exists_cons_of_ne_nil hchunk
    simp only [List.flatten_cons, List.length_append, List.getD_cons_zero] at hsize hfirst
    have hlength : (database++b :: tail).length = database.length+(b :: tail).length :=
      List.length_append
    rw [copyChunks, hfirst]
    dsimp only
    rw [if_neg (by omega), ih (i+1) (database++b :: tail) hrest]
    · rw [List.flatten_cons, List.append_assoc]
    · intro k
      have hnext := hstream (k+1)
      rwa [← Nat.add_assoc, Nat.add_right_comm, List.getD_cons_succ] at hnext
    · omega

theorem header_fields (size : ℕ) (body : Bytes) (hsize : size < 2^64) :
    (magic++toBig 8 size++body).take headerSize = magic++toBig 8 size ∧
      (magic++toBig 8 size++body).drop headerSize = body ∧
      fromBig ((magic++toBig 8 size).drop 8) = size ∧ (magic++toBig 8 size).take 8 = magic ∧
      (magic++toBig 8 size).length = headerSize := by
  have hmagic : magic.length = 8 := rfl
  have hlength : (magic++toBig 8 size).length = headerSize := by
    rw [List.length_append, toBig_length]
    rfl
  refine ⟨List.take_left' hlength, List.drop_left' hlength, ?_, List.take_left' hmagic, hlength⟩
  rw [List.drop_left' hmagic]
  exact fromBig_toBig 8 size (by omega)

/-- Unpacking what the writer packed gives the file back when its size is within
the limit, and raises when it is not. -/
theorem unpack_packed {storage : ArtifactStorage} (faithful : storage.Faithful) (file : Bytes)
    (hsize : file.length < 2^64) :
    unpack storage (magic++toBig 8 file.length++storage.compress file) =
      if file.length ≤ maxDatabaseBytes then (file, .ok ())
      else ([], .error (.valueError (ofString "artifact database exceeds maximum size"))) := by
  obtain ⟨htake, hdrop, hexpected, hmagic, hlength⟩ :=
    header_fields file.length (storage.compress file) hsize
  obtain ⟨chunks, hchunks, hstream, hflatten⟩ := faithful.unpacks file
  unfold unpack
  simp only [htake, hdrop, hexpected, hmagic, hlength, ne_eq, not_true_eq_false, if_false]
  split_ifs with h1 h2
  · omega
  · rfl
  · rw [copyChunks_delivers _ _ 0 [] chunks hchunks (by simpa using hstream)
      (by simp [hflatten]) (by omega)]
    simp [hflatten, raiseIf]
  · omega

/-- The reader's constructor on what the writer wrote. -/
theorem create_written {storage : ArtifactStorage} (faithful : storage.Faithful)
    {document : DocumentContent} {database : Database} {file : Bytes}
    (written : DocumentWritten document database)
    (hfile : storage.databaseFile database = .ok file) (hsize : file.length < 2^64) :
    ArtifactReader.create storage (magic++toBig 8 file.length++storage.compress file) =
      if file.length ≤ maxDatabaseBytes then
        .ok ⟨database, (utf8 document.canonicalText).length⟩
      else .error (.valueError (ofString "artifact database exceeds maximum size")) := by
  have hopen : openArtifactDatabase storage file
      = .ok (database, (utf8 document.canonicalText).length) := by
    unfold openArtifactDatabase
    rw [faithful.opens database file hfile]
    simp [raiseIf, written.format.1, written.format.2, written.documentText, schemaVersion,
      minSupportedSchemaVersion, bind, Except.bind]
  unfold ArtifactReader.create
  rw [unpack_packed faithful file hsize]
  split_ifs
  · simp [hopen, bind, Except.bind, pure, Except.pure]
  · rfl

/-- A reader opened on the artifact that the writer built from a document. -/
def BuiltReader (writer : ArtifactWriter) (storage : ArtifactStorage) (document : DocumentContent)
    (reader : ArtifactReader) : Prop :=
  ∃ fuel result, writer.write storage document fuel = some (.ok result) ∧
    ArtifactReader.create storage result.artifact = .ok reader

theorem BuiltReader.tables {writer : ArtifactWriter} {storage : ArtifactStorage}
    {document : DocumentContent} {reader : ArtifactReader} (faithful : storage.Faithful)
    (h : BuiltReader writer storage document reader) :
    ArtifactTables writer document reader.database ∧
      reader.textBytes = (utf8 document.canonicalText).length := by
  obtain ⟨fuel, result, hwrite, hcreate⟩ := h
  obtain ⟨database, file, _, tables, hfile, hsize, _, _, hartifact⟩ := write_ok hwrite
  rw [hartifact, create_written faithful tables.toDocumentWritten hfile hsize] at hcreate
  split_ifs at hcreate
  simp only [Except.ok.injEq] at hcreate
  subst hcreate
  exact ⟨tables, rfl⟩

theorem BuiltReader.contents {writer : ArtifactWriter} {storage : ArtifactStorage}
    {document : DocumentContent} {reader : ArtifactReader} (faithful : storage.Faithful)
    (h : BuiltReader writer storage document reader) :
    DocumentWritten document reader.database ∧
      reader.textBytes = (utf8 document.canonicalText).length :=
  (h.tables faithful).imp_left ArtifactTables.toDocumentWritten

/-- A storage that holds one database, uncompressed. -/
def singleStorage (database : Database) : ArtifactStorage where
  databaseFile other :=
    if other = database then .ok (List.replicate database.storedBytes 0)
    else .error (.osError (ofString "No space left on device"))
  openDatabase _ := .ok database
  compress bytes := bytes
  decompress bytes i := .ok (if i = 0 then bytes else [])

theorem singleStorage_faithful (database : Database) : (singleStorage database).Faithful where
  opens other file h := by
    simp only [singleStorage] at h ⊢
    split_ifs at h with heq
    rw [heq]
  holdsValues other file h := by
    simp only [singleStorage] at h
    split_ifs at h with heq
    simp only [Except.ok.injEq] at h
    rw [← h, heq, List.length_replicate]
  unpacks bytes := by
    rcases eq_or_ne bytes [] with rfl | hne
    · exact ⟨[], by simp, fun i => by simp [singleStorage], rfl⟩
    · refine ⟨[bytes], by simpa using hne, fun i => ?_, by simp⟩
      cases i <;> simp [singleStorage]

/-- The artifact of a small document opens with the database that was committed. -/
theorem builtReader_single {writer : ArtifactWriter} {document : DocumentContent} {fuel : ℕ}
    {database : Database} {canonical : Bytes}
    (h : writer.documentDatabase document fuel = some (.ok (database, canonical)))
    (hsize : database.storedBytes ≤ maxDatabaseBytes) :
    BuiltReader writer (singleStorage database) document
      ⟨database, (utf8 document.canonicalText).length⟩ := by
  obtain ⟨-, tables⟩ := documentDatabase_ok h
  have hfile : (singleStorage database).databaseFile database
      = .ok (List.replicate database.storedBytes 0) := if_pos rfl
  have hlength : (List.replicate database.storedBytes (0 : UInt8)).length
      = database.storedBytes := List.length_replicate
  have hlimit : maxDatabaseBytes < 2^64 := by decide
  obtain ⟨result, hwrite, hartifact⟩ := write_returns h hfile (by omega)
  have hcreate := create_written (singleStorage_faithful database) tables.toDocumentWritten
    hfile (by omega)
  rw [if_pos (by omega)] at hcreate
  exact ⟨fuel, result, hwrite, by rw [hartifact, hcreate]⟩

end ConferWorker
