import ConferWorker.PlainText
import ConferWorker.ReaderTotality
import ConferWorker.ResponseTotality

/-! Texts in the sessions of the worker: what `session_open_text` was given is read back in every
later state, whatever else the session is asked. -/
namespace ConferWorker

open ArtifactWriter DocumentSession

section Texts

variable {SearchHit Rendered : Type}

/-- What the calls that open a text return is what the text extractor, the artifact writer and the
artifact reader return. -/
structure OpensTexts (extractor : TextDocumentExtractor) (writer : ArtifactWriter)
    (storage : ArtifactStorage)
    (calls : SessionCalls (artifactTypes DocumentSource SearchHit Rendered)) : Prop where
  extract : ∀ source filename mediaType document,
    calls.extract source filename mediaType = .ok document →
      ∃ fuel, extractor.extract source filename mediaType fuel = some (.ok document)
  write : ∀ document artifact, calls.write document = .ok artifact →
    ∃ rounds result, writer.write storage document rounds = some (.ok result)
      ∧ result.artifact = artifact
  readerFactory : ∀ artifact, calls.readerFactory artifact = ArtifactReader.create storage artifact

/-- What a session answers about a text: a read returns the longest initial part that fits a window,
and the overview returns the text itself when it is small. -/
structure TextAnswers (SearchHit Rendered : Type) (text id : Str)
    (session : DocumentSession (artifactTypes DocumentSource SearchHit Rendered).Reader) :
    Prop where
  read : ∀ (calls : SessionCalls (artifactTypes DocumentSource SearchHit Rendered))
    (request : ReadDocumentRequest), request.documentId = id → request.containerNumber = 0 →
    ∃ window, (execute (withArtifactReader calls) session (.read request)).2 = .ok (.read window)
      ∧ window.text <+: text ∧ (utf8 window.text).length ≤ defaultWindowBytes
      ∧ ∀ part, part <+: text → (utf8 part).length ≤ defaultWindowBytes → part <+: window.text
  overview : ∀ (calls : SessionCalls (artifactTypes DocumentSource SearchHit Rendered))
    (request : GetDocumentOverviewRequest), request.documentId = id →
    ∃ metadata outline labeledContainers firstChunkId,
      (execute (withArtifactReader calls) session (.overview request)).2
        = .ok (.overview metadata outline labeledContainers firstChunkId
          (if (utf8 text).length ≤ maxInlineContentBytes then some text else none))

/-- What is called to open a text. -/
theorem buildReader_text {T : SessionTypes} {calls : SessionCalls T}
    {request : OpenTextDocumentRequest T} {reader : T.Reader}
    (hbuild : buildReader calls (.openText request) = .ok reader) : ∃ content artifact,
    calls.extract request.source request.filename (ofString "text/plain") = .ok content
      ∧ calls.write content = .ok artifact ∧ calls.readerFactory artifact = .ok reader := by
  have hbuilt := asOperationError_eq_ok.mp hbuild
  simp only [bind_eq_ok] at hbuilt
  obtain ⟨content, hextract, artifact, hwrite, hreader⟩ := hbuilt
  exact ⟨content, artifact, hextract, hwrite, hreader⟩

section Written

variable {document : DocumentContent} {reader : ArtifactReader}
  (written : DocumentWritten document reader.database)
  (htext : reader.textBytes = (utf8 document.canonicalText).length)
  (hnonempty : document.canonicalText ≠ [])
  {session : DocumentSession (artifactTypes DocumentSource SearchHit Rendered).Reader}
  {serial : ℕ} (calls : SessionCalls (artifactTypes DocumentSource SearchHit Rendered))

include written htext hnonempty

theorem execute_read_text (hone : document.containers.length = 1) {request : ReadDocumentRequest}
    (hfind : session.find request.documentId = some ⟨serial, reader⟩)
    (hzero : request.containerNumber = 0) : ∃ window,
    (execute (withArtifactReader calls) session (.read request)).2 = .ok (.read window)
      ∧ window.text <+: document.canonicalText
      ∧ (utf8 window.text).length ≤ defaultWindowBytes
      ∧ ∀ part, part <+: document.canonicalText → (utf8 part).length ≤ defaultWindowBytes →
        part <+: window.text := by
  have hfirst : 0 < document.containers.length := by omega
  have hall := joinedTexts_all document hfirst
  rw [hone] at hall
  have hown : document.containers[0].ownText = document.canonicalText :=
    (joinedTexts_self document 0 hfirst).symm.trans hall
  have hread : ∀ window,
      reader.readContainers 0 request.containerCount defaultWindowBytes = .ok window →
      (execute (withArtifactReader calls) session (.read request)).2 = .ok (.read window) := by
    intro window hwindow
    simp only [execute, ask, hfind, answer, withArtifactReader, hzero, hwindow]
  rcases Nat.lt_or_ge defaultWindowBytes (utf8 document.containers[0].ownText).length
    with hcut | hfits
  · obtain ⟨window, hwindow, hlongest, hlength, -⟩ := readContainers_cut written htext hnonempty
      0 request.containerCount defaultWindowBytes hfirst request.count_range hcut
    rw [hown] at hlongest
    exact ⟨window, hread window hwindow, hlongest.text_initial, hlength, hlongest.text_longest⟩
  · -- there is no second container, so the window is the whole text
    obtain ⟨window, hwindow, hwhole, -⟩ := readContainers_whole written htext hnonempty
      0 request.containerCount defaultWindowBytes hfirst request.count_range hfits
    have hend : window.containerEnd = 0 := by
      have hle := hwhole.end_le
      rw [lastRequested, hone] at hle
      omega
    have hsame : window.text = document.canonicalText := by
      rw [hwhole.text_eq, hend]
      exact hall
    rw [hown] at hfits
    refine ⟨window, hread window hwindow, ?_, ?_, ?_⟩
    · rw [hsame]
    · rw [hsame]
      exact hfits
    · intro part hpart _
      rw [hsame]
      exact hpart

theorem execute_overview_text (hhash : IsSourceHash document.sourceSha256)
    {request : GetDocumentOverviewRequest}
    (hfind : session.find request.documentId = some ⟨serial, reader⟩) :
    ∃ metadata outline labeledContainers firstChunkId,
      (execute (withArtifactReader calls) session (.overview request)).2
        = .ok (.overview metadata outline labeledContainers firstChunkId
          (if (utf8 document.canonicalText).length ≤ maxInlineContentBytes
            then some document.canonicalText else none)) := by
  have hreferences := labeledContainers_built written 500 (by omega)
  have hcontent : reader.fullTextIfSmall maxInlineContentBytes
      = .ok (if (utf8 document.canonicalText).length ≤ maxInlineContentBytes
        then some document.canonicalText else none) := by
    split_ifs with hsmall
    · exact fullTextIfSmall_built written htext hnonempty _ (by omega)
    · rw [ArtifactReader.fullTextIfSmall, if_pos (by omega)]
      rfl
  refine ⟨storedMetadata document, document.outline.take 500,
    ((document.containers.filter (fun container => container.label.isSome)).take 500).map
      containerReferenceOf, reader.firstChunkId.map Int.ofNat, ?_⟩
  simp only [execute, ask, hfind, answer, withArtifactReader, metadata_built written hhash.2.1,
    outline_built written 500 (by omega), hreferences, hcontent, ok_bind]
  rfl

/-- A session whose cell holds the reader of a written text answers about it. -/
theorem textAnswers_built (hone : document.containers.length = 1)
    (hhash : IsSourceHash document.sourceSha256) {id : Str}
    (hcell : session.cell id = some reader) :
    TextAnswers SearchHit Rendered document.canonicalText id session := by
  obtain ⟨serial, hfind⟩ := find_of_cell hcell
  constructor
  · rintro calls request rfl hzero
    exact execute_read_text written htext hnonempty calls hone hfind hzero
  · rintro calls request rfl
    exact execute_overview_text written htext hnonempty calls hhash hfind

end Written

theorem DocumentContent.create_source {sourceSha256 : Str} {containers : List DocumentContainer}
    {mediaType : Str} {title : Option Str} {outline : List OutlineEntry} {content : DocumentContent}
    (h : DocumentContent.create sourceSha256 containers mediaType title outline = .ok content) :
    content.sourceSha256 = sourceSha256 := by
  unfold DocumentContent.create at h
  split_ifs at h
  rw [← Except.ok.inj h]

theorem extract_source {extractor : TextDocumentExtractor} {source : DocumentSource}
    {filename mediaType : Str} {fuel : ℕ} {document : DocumentContent}
    (h : extractor.extract source filename mediaType fuel = some (.ok document)) :
    document.sourceSha256 = source.sha256 := by
  unfold TextDocumentExtractor.extract at h
  cases htext : extractor.sourceText source mediaType with
  | error error =>
    rw [htext] at h
    cases h
  | ok text =>
    rw [htext] at h
    obtain ⟨texts, -, hbuilt⟩ := Option.map_eq_some_iff.mp h
    simp only [TextDocumentExtractor.blockContent, bind_eq_ok] at hbuilt
    obtain ⟨_, _, _, _, _, _, _, _, hcreate⟩ := hbuilt
    exact DocumentContent.create_source hcreate

/-- A text that a session opened is read back from every later state of the session, up to white
space, a byte-order mark and NUL characters, until it is released: whatever the session is asked in
between, about this document or others, and whatever its collaborators do then. -/
theorem text_sessions {extractor : TextDocumentExtractor} (hblock : 1 ≤ extractor.blockCharacters)
    {writer : ArtifactWriter} {storage : ArtifactStorage} (faithful : storage.Faithful)
    {calls : SessionCalls (artifactTypes DocumentSource SearchHit Rendered)}
    (hcalls : OpensTexts extractor writer storage calls)
    (session : DocumentSession (artifactTypes DocumentSource SearchHit Rendered).Reader)
    (request : OpenTextDocumentRequest (artifactTypes DocumentSource SearchHit Rendered)) {s : Str}
    (hs : Encodable s) (hsource : DocumentSource.content request.source = utf8 s)
    (hwords : withoutSpace ((withoutSignature s).filter (· ≠ 0)) ≠ [])
    (hopened : (execute calls session (.openText request)).2 = .ok .empty) :
    ∃ text, withoutSpace text = withoutSpace ((withoutSignature s).filter (· ≠ 0))
      ∧ ∀ events : List (SessionEvent (artifactTypes DocumentSource SearchHit Rendered)),
        (∀ event ∈ events, event.2.ends request.documentId = false) →
        TextAnswers SearchHit Rendered text request.documentId
          (runEvents sessionStep (execute calls session (.openText request)).1 events) := by
  -- the text that was extracted is the one that was written, and its reader is in the cell
  obtain ⟨reader, hbuild, hcell⟩ := opened_cell rfl rfl hopened
  obtain ⟨document, artifact, hextract, hwrite, hreader⟩ := buildReader_text hbuild
  obtain ⟨fuel, hextracted⟩ := hcalls.extract _ _ _ _ hextract
  obtain ⟨rounds, result, hwritten, rfl⟩ := hcalls.write _ _ hwrite
  have hcreate : ArtifactReader.create storage result.artifact = .ok reader :=
    (hcalls.readerFactory _).symm.trans hreader
  have hbuilt : BuiltReader writer storage document reader := ⟨rounds, result, hwritten, hcreate⟩
  obtain ⟨written, htext⟩ := hbuilt.contents faithful
  obtain ⟨hone, hkept⟩ := extract_withoutSpace hblock hs hsource (by decide) hextracted
  have hnonempty : document.canonicalText ≠ [] := by
    intro hempty
    rw [hempty] at hkept
    exact hwords hkept.symm
  have hhash : IsSourceHash document.sourceSha256 := by
    rw [extract_source hextracted]
    exact DocumentSource.source_hash request.source
  exact ⟨document.canonicalText, hkept, fun events hends =>
    textAnswers_built written htext hnonempty hone hhash (run_keeps_cell events hcell hends)⟩

end Texts

/-- The collaborators of a session of artifacts; the loops of the extractor and of the writer have
one round. -/
def oneRoundCalls {H : Type} (storage : ArtifactStorage) :
    SessionCalls (artifactTypes DocumentSource H Unit) where
  readerFactory artifact := ArtifactReader.create storage artifact
  extract source filename mediaType :=
    (TextDocumentExtractor.default.extract source filename mediaType 1).getD
      (.error (.valueError (ofString "blocks")))
  write document := BuildResult.artifact <$>
    (ArtifactWriter.default.write storage document 1).getD
      (.error (.valueError (ofString "chunks")))
  metadata reader := ArtifactReader.metadata reader
  outline reader limit := ArtifactReader.outline reader limit
  labeledContainers reader := ArtifactReader.labeledContainers reader 500
  firstChunkId reader := .ok ((ArtifactReader.firstChunkId reader).map Int.ofNat)
  fullTextIfSmall reader maxBytes := ArtifactReader.fullTextIfSmall reader maxBytes
  search _ _ _ _ := .ok []
  readContainers reader number count :=
    ArtifactReader.readContainers reader number count defaultWindowBytes
  renderFromReader _ _ _ _ := .ok ()

theorem oneRoundCalls_opensTexts {H : Type} (storage : ArtifactStorage) :
    OpensTexts TextDocumentExtractor.default ArtifactWriter.default storage
      (oneRoundCalls (H := H) storage) where
  extract source filename mediaType document h := by
    refine ⟨1, ?_⟩
    change (TextDocumentExtractor.default.extract source filename mediaType 1).getD _ = _ at h
    cases hextract : TextDocumentExtractor.default.extract source filename mediaType 1 with
    | none =>
      rw [hextract] at h
      cases h
    | some outcome =>
      rw [hextract] at h
      exact congrArg some h
  write document artifact h := by
    change BuildResult.artifact <$> (ArtifactWriter.default.write storage document 1).getD _ = _
      at h
    rcases hwrite : ArtifactWriter.default.write storage document 1 with _ | error | result
    · rw [hwrite] at h
      cases h
    · rw [hwrite] at h
      cases h
    · rw [hwrite] at h
      exact ⟨1, result, hwrite, Except.ok.inj h⟩
  readerFactory _ := rfl

/-- The marked source is opened. -/
def markedRequest : OpenTextDocumentRequest (artifactTypes DocumentSource Unit Unit) where
  documentId := ofString "d"
  filename := ofString "a.txt"
  source := markedSource
  document_id_required := by decide
  filename_required := by decide

theorem text_sessions_marked : ∃ storage text, withoutSpace text = ofString "abc"
    ∧ ∀ events : List (SessionEvent (artifactTypes DocumentSource Unit Unit)),
      (∀ event ∈ events, event.2.ends (ofString "d") = false) →
      TextAnswers Unit Unit text (ofString "d") (runEvents sessionStep
        (execute (oneRoundCalls storage) .initial (.openText markedRequest)).1 events) := by
  obtain ⟨document, storage, result, reader, hextract, faithful, hwrite, hcreate⟩ :=
    markedSource_stored
  have hartifact : (oneRoundCalls (H := Unit) storage).write document = .ok result.artifact := by
    change BuildResult.artifact <$> (ArtifactWriter.default.write storage document 1).getD _ = _
    rw [hwrite]
    rfl
  have hdocument : (oneRoundCalls (H := Unit) storage).extract markedSource (ofString "a.txt")
      (ofString "text/plain") = .ok document := by
    change (TextDocumentExtractor.default.extract markedSource _ _ 1).getD _ = _
    rw [hextract]
    rfl
  have hopened : execute (oneRoundCalls storage) .initial (.openText markedRequest)
      = (register .initial (ofString "d") reader, .ok .empty) :=
    execute_openText rfl hdocument hartifact hcreate
  obtain ⟨text, hkept, hanswers⟩ := text_sessions (by decide) faithful
    (oneRoundCalls_opensTexts storage) .initial markedRequest
    (s := 0xFEFF :: ofString " a\n\n b\x00c ") (by decide) rfl (by decide)
    (congrArg Prod.snd hopened)
  exact ⟨storage, text, hkept.trans (by decide), hanswers⟩

end ConferWorker
