import ConferWorker.LabelOverflow

/-! The run that is torn down by a read: a text is opened under a long filename, and
the answer to the first read of it cannot be written. -/
namespace ConferWorker

open ProtocolCodec ProtocolPresenter

def letterPayload : ProtocolPayload :=
  ⟨ofString "text/plain; charset=utf-8", 1, .content [0x61], by decide, rfl⟩

def openLetterMessage (filename : Str) : ProtocolMessage where
  header := [(ofString "version", .int 1),
    (ofString "operation", .str (ofString "session_open_text")),
    (ofString "document_id", .str (ofString "d")), (ofString "filename", .str filename)]
  payloads := [(.text, letterPayload)]
  distinct_roles := by decide
  media_types := by decide

def readLetterMessage : ProtocolMessage where
  header := [(ofString "version", .int 1), (ofString "operation", .str (ofString "session_read")),
    (ofString "document_id", .str (ofString "d")), (ofString "container_number", .int 0)]
  payloads := []
  distinct_roles := ProtocolMessage.no_payloads_roles
  media_types := ProtocolMessage.no_payloads_media_types

theorem openLetterMessage_size (filename : Str) :
    (Json.obj (openLetterMessage filename).sentHeader).size = 156+Json.quotedSize filename := by
  have hkeys : Json.quotedSize (ofString "version") = 9 ∧
      Json.quotedSize (ofString "operation") = 11 ∧
      Json.quotedSize (ofString "session_open_text") = 19 ∧
      Json.quotedSize (ofString "document_id") = 13 ∧ Json.quotedSize (ofString "d") = 3 ∧
      Json.quotedSize (ofString "filename") = 10 ∧ (Json.intText 1).length = 1 := by decide
  have hdescriptors : (Json.arr (descriptors [(.text, letterPayload)])).size = 69 := by
    decide
  rw [sentHeader_size, openLetterMessage, hdescriptors]
  simp only [Json.membersSize, Json.size, hkeys]
  omega

theorem readLetterMessage_size : (Json.obj readLetterMessage.sentHeader).size ≤ 200 := by
  decide

theorem readLetterMessage_sendable : Sendable readLetterMessage ∧ Writable readLetterMessage := by
  have hone : (1 : ℤ).natAbs < Json.intLimit := Json.lt_intLimit (by decide)
  have hzero : (0 : ℤ).natAbs < Json.intLimit := Json.lt_intLimit (by decide)
  have hkeys : Encodable (ofString "version") ∧ Encodable (ofString "operation") ∧
      Encodable (ofString "session_read") ∧ Encodable (ofString "document_id") ∧
      Encodable (ofString "d") ∧ Encodable (ofString "container_number") ∧
      Encodable payloadsKey := by decide
  refine ⟨⟨by decide, List.forall_mem_nil _⟩, ?_, ?_, List.forall_mem_nil _, Nat.zero_le _⟩
  · simp only [ProtocolMessage.sentHeader, readLetterMessage, descriptors, List.map_nil,
      List.cons_append, List.nil_append, Json.Dumpable, Json.MembersDumpable, Json.ItemsDumpable,
      hkeys, hone, hzero, and_self]
  · exact readLetterMessage_size.trans (by decide)

theorem openLetterMessage_sendable {filename : Str} (hencodable : Encodable filename)
    (hsize : 156+Json.quotedSize filename ≤ maxHeaderBytes) :
    Sendable (openLetterMessage filename) ∧ Writable (openLetterMessage filename) := by
  have hone : (1 : ℤ).natAbs < Json.intLimit := Json.lt_intLimit (by decide)
  have hkeys : Encodable (ofString "version") ∧ Encodable (ofString "operation") ∧
      Encodable (ofString "session_open_text") ∧ Encodable (ofString "document_id") ∧
      Encodable (ofString "d") ∧ Encodable (ofString "filename") ∧
      Encodable payloadsKey := by decide
  have hdescriptor : (descriptor .text letterPayload).Dumpable :=
    descriptor_dumpable .text letterPayload (by decide) (by decide)
  refine ⟨⟨?_, ?_⟩, ?_, ?_, ?_, ?_⟩
  · simp only [openLetterMessage, List.forall_mem_cons]
    exact ⟨by decide, by decide, by decide, by decide, List.forall_mem_nil _⟩
  · intro entry hentry
    obtain rfl := List.mem_singleton.mp hentry
    exact .fromBytes [0x61] (ofString "text/plain; charset=utf-8") rfl
  · simp only [ProtocolMessage.sentHeader, openLetterMessage, descriptors, List.map_cons,
      List.map_nil, List.cons_append, List.nil_append, Json.Dumpable, Json.MembersDumpable,
      Json.ItemsDumpable, hkeys, hone, hencodable, hdescriptor, and_self]
  · rw [openLetterMessage_size]
    exact hsize
  · intro entry hentry
    obtain rfl := List.mem_singleton.mp hentry
    decide
  · exact (by decide : declaredBytes [(PayloadRole.text, letterPayload)] ≤ maxTotalPayloadBytes)

/-- `json.loads` on the headers of the two messages. -/
def letterLoads (filename : Str) (bytes : Bytes) : Except JsonFailure Json :=
  if (Json.obj (openLetterMessage filename).sentHeader).encode = .ok bytes then
    .ok (.obj (openLetterMessage filename).sentHeader)
  else if (Json.obj readLetterMessage.sentHeader).encode = .ok bytes then
    .ok (.obj readLetterMessage.sentHeader)
  else .error .notJson

theorem letterLoads_open (filename : Str) :
    LoadsBack (letterLoads filename) (openLetterMessage filename) := by
  intro encoded hencoded
  rw [letterLoads, if_pos hencoded]

theorem letterLoads_read {filename : Str} (hlong : 100 ≤ Json.quotedSize filename) :
    LoadsBack (letterLoads filename) readLetterMessage := by
  intro encoded hencoded
  have hother : ¬(Json.obj (openLetterMessage filename).sentHeader).encode = .ok encoded := by
    intro hsame
    have hopen := (Json.encode_spec _).2 encoded hsame
    have hread := (Json.encode_spec _).2 encoded hencoded
    have hsize := readLetterMessage_size
    rw [openLetterMessage_size] at hopen
    omega
  rw [letterLoads, if_neg hother, if_pos hencoded]

/-- The two messages one after the other. -/
def letterStream (filename : Str) : ByteSource :=
  ⟨(write (openLetterMessage filename)).1++(write readLetterMessage).1, fun _ => 65535⟩

/-- The hash of every file, for a worker that sees one file only. -/
def letterSha256 : Sha256 where
  hexdigest _ := letterHash
  digits _ := by decide

theorem letter_source {message : ProtocolMessage} {filename : Str}
    (hview : message.view = (openLetterMessage filename).view)
    (hfiles : FilesOnly message.payloads) :
    ∃ source, RequestParameters.source letterSha256.hexdigest message .text
      (ofString "text/plain; charset=utf-8") = .ok source := by
  obtain ⟨-, hpayloads⟩ := Prod.mk.inj hview
  obtain ⟨⟨role, payload⟩, hone, hentry⟩ := List.map_eq_singleton_iff.mp hpayloads
  simp only [Prod.mk.injEq] at hentry
  obtain ⟨rfl, hsame, _⟩ := hentry
  have htype : payload.mediaType = ofString "text/plain; charset=utf-8" := hsame
  obtain ⟨bytes, hstore⟩ := hfiles (.text, payload) (by rw [hone]; exact List.mem_singleton_self _)
  have hpayload : RequestParameters.payload message .text = .ok payload := by
    rw [RequestParameters.payload, hone]
    rfl
  have hpath : RequestParameters.path payload = .ok bytes := by
    rw [RequestParameters.path, hstore]
  have hdigest : RequestParameters.sha256 letterSha256.hexdigest payload = .ok letterHash := by
    rw [RequestParameters.sha256, hstore]
    rfl
  obtain ⟨source, hsource⟩ : ∃ source, DocumentSource.create bytes payload.length letterHash
      = .ok source := by
    have hhash : letterHash.length = 64 ∧ letterHash.all isHexDigit = true :=
      letterSha256.digits bytes
    rw [DocumentSource.create, dif_pos hhash]
    exact ⟨_, rfl⟩
  refine ⟨source, ?_⟩
  rw [RequestParameters.source, hpayload, ok_bind, raiseIf_of_not _ (not_not.mpr htype), ok_bind,
    hpath, ok_bind, hdigest, ok_bind, hsource]

theorem decode_openLetter {filename : Str} (hname : filename ≠ []) {message : ProtocolMessage}
    (hview : message.view = (openLetterMessage filename).view)
    (hfiles : FilesOnly message.payloads) :
    ∃ source, RequestDecoder.decode letterSha256.hexdigest message =
      .ok (.session (.openText ⟨ofString "d", filename, source, by decide, hname⟩) :
        WorkerRequest (workerTypes ArtifactReader DocumentContent)) := by
  obtain ⟨source, hsource⟩ := letter_source hview hfiles
  have hheader : message.header = (openLetterMessage filename).header := (Prod.mk.inj hview).1
  have hversion : getItem message.header (ofString "version") = some (.int 1) := by
    rw [hheader]
    rfl
  have hoperation : getItem message.header (ofString "operation")
      = some (.str (ofString "session_open_text")) := by
    rw [hheader]
    rfl
  have hid : RequestParameters.string message documentIdName = .ok (ofString "d") := by
    rw [RequestParameters.string, hheader]
    rfl
  have hfilename : RequestParameters.string message (ofString "filename") = .ok filename := by
    have hitem : getItem message.header (ofString "filename") = some (.str filename) := by
      rw [hheader]
      rfl
    rw [RequestParameters.string, hitem]
    exact if_neg hname
  have hdecoded : RequestDecoder.operation message = .ok .openText := by
    rw [RequestDecoder.operation, hoperation]
    rfl
  have hcreate : OpenTextDocumentRequest.create (ofString "d") filename source
      = (.ok ⟨ofString "d", filename, source, by decide, hname⟩ :
        Except PythonError (OpenTextDocumentRequest (workerTypes ArtifactReader
          DocumentContent))) :=
    dif_pos hname
  refine ⟨source, ?_⟩
  unfold RequestDecoder.decode
  rw [hversion, raiseIf_of_not _ (by decide), ok_bind, hdecoded, ok_bind]
  simp only [hid, hfilename, hsource, ok_bind, hcreate]
  rfl

theorem decode_readLetter {message : ProtocolMessage}
    (hview : message.view = readLetterMessage.view) :
    RequestDecoder.decode letterSha256.hexdigest message =
      .ok (.session (.read ⟨ofString "d", 0, 1, by decide, by decide⟩) :
        WorkerRequest (workerTypes ArtifactReader DocumentContent)) := by
  have hheader : message.header = readLetterMessage.header := (Prod.mk.inj hview).1
  have hversion : getItem message.header (ofString "version") = some (.int 1) := by
    rw [hheader]
    rfl
  have hoperation : RequestDecoder.operation message = .ok .read := by
    rw [RequestDecoder.operation, hheader]
    rfl
  have hid : RequestParameters.string message documentIdName = .ok (ofString "d") := by
    rw [RequestParameters.string, hheader]
    rfl
  have hnumber : RequestParameters.integer message (ofString "container_number") .null
      = .ok 0 := by
    rw [RequestParameters.integer, hheader]
    rfl
  have hcount : RequestParameters.integer message (ofString "container_count") (.int 1)
      = .ok 1 := by
    rw [RequestParameters.integer, hheader]
    rfl
  unfold RequestDecoder.decode
  rw [hversion, raiseIf_of_not _ (by decide), ok_bind, hoperation, ok_bind]
  simp only [hid, hnumber, hcount, ok_bind]
  rfl

/-- The text extractor, among collaborators that the two requests do not call. -/
def letterExtractor : WorkerCalls ArtifactReader DocumentContent :=
  let unused : WorkerCalls ArtifactReader DocumentContent := unusedCalls
  { unused with
    session := { unused.session with
      extract := fun _ filename _ => .ok (letterDocument filename) } }

/-- The collaborators: the artifact classes and the text extractor. -/
def letterCalls (storage : ArtifactStorage) (fuel : ℕ) :
    WorkerCalls ArtifactReader DocumentContent :=
  artifactCalls (fun _ => ofString "1.0") storage fuel letterExtractor

/-- A worker over the artifact classes. -/
def letterProcess (filename : Str) (storage : ArtifactStorage) (fuel : ℕ) :
    WorkerProcess ArtifactReader DocumentContent where
  loads := letterLoads filename
  sha256 := letterSha256
  calls _ := letterCalls storage fuel

section Run

variable {filename : Str} {storage : ArtifactStorage} {fuel : ℕ} {reader : ArtifactReader}
  {result : ArtifactWriter.BuildResult}

/-- An exchange that opens a text registers its reader and is answered. -/
theorem open_exchange (calls : WorkerCalls ArtifactReader DocumentContent)
    (request : OpenTextDocumentRequest (workerTypes ArtifactReader DocumentContent))
    {content : DocumentContent} {artifact : Bytes}
    (hextract : calls.session.extract request.source request.filename (ofString "text/plain")
      = .ok content) (hwrite : calls.session.write content = .ok artifact)
    (hcreate : calls.session.readerFactory artifact = .ok reader) (message : ProtocolMessage) :
    (serve calls .initial message (.session (.openText request))).outcome = .ok () ∧
      (serve calls .initial message (.session (.openText request))).after
        = DocumentSession.initial.register request.documentId reader := by
  have hcapacity : (DocumentSession.initial : DocumentSession ArtifactReader).requireOpenCapacity
      request.documentId = .ok () := rfl
  have hexecute := execute_openText hcapacity hextract hwrite hcreate
  have hhandle : handleRequest calls .initial (.session (.openText request))
      = (DocumentSession.initial.register request.documentId reader, .ok (.session .empty)) := by
    rw [handleRequest, hexecute]
    rfl
  refine ⟨(serve_fits (congrArg Prod.snd hhandle) message).mpr trivial, ?_⟩
  rw [serve_after, hhandle]

/-- An exchange that reads a window is answered exactly when the window fits. -/
theorem read_exchange {calls : WorkerCalls ArtifactReader DocumentContent}
    {session : DocumentSession ArtifactReader} {request : ReadDocumentRequest}
    {openReader : OpenReader ArtifactReader} {window : WindowValue}
    (hfind : session.find request.documentId = some openReader)
    (hread : calls.session.readContainers openReader.reader request.containerNumber
      request.containerCount = .ok window) (hencodable : Encodable window.text)
    (message : ProtocolMessage) :
    (serve calls session message (.session (.read request))).outcome = .ok () ↔ window.Fits := by
  have hexecute : (session.execute calls.session (.read request)).2 = .ok (.read window) :=
    execute_read.mpr ⟨openReader, hfind, _, hread, rfl⟩
  have hhandle : (handleRequest calls session (.session (.read request))).2
      = .ok (.session (.read window)) :=
    (map_eq_ok _ WorkerResponse.session _).mpr ⟨_, hexecute, rfl⟩
  let response : WorkerResponse (workerTypes ArtifactReader DocumentContent) :=
    .session (.read window)
  have hfits : ResponseFits response ↔ window.Fits := ⟨fun h => h hencodable, fun h _ => h⟩
  exact (serve_fits hhandle message).trans hfits

theorem letterCalls_extract (storage : ArtifactStorage) (fuel : ℕ) (source : DocumentSource) :
    (letterCalls storage fuel).session.extract source filename (ofString "text/plain")
      = .ok (letterDocument filename) := rfl

theorem letterCalls_write
    (h : ArtifactWriter.default.write storage (letterDocument filename) fuel = some (.ok result)) :
    (letterCalls storage fuel).session.write (letterDocument filename) = .ok result.artifact := by
  change ArtifactWriter.BuildResult.artifact <$>
    writeArtifact storage fuel (letterDocument filename) = _
  rw [writeArtifact, h]
  rfl

theorem letterCalls_read (storage : ArtifactStorage) (fuel : ℕ)
    (written : DocumentWritten (letterDocument filename) reader.database)
    (htext : reader.textBytes = (utf8 (letterDocument filename).canonicalText).length) :
    (letterCalls storage fuel).session.readContainers reader 0 1
      = .ok ((letterWindow filename).value (fun _ => ofString "1.0")) := by
  change TextWindow.value _ <$> reader.readContainers 0 1 64000 = _
  rw [letter_read written htext]
  rfl

theorem registered_find (id : Str) (reader : ArtifactReader) :
    (DocumentSession.initial.register id reader).find id = some ⟨0, reader⟩ := by
  simp [DocumentSession.initial, DocumentSession.register, DocumentSession.find]

/-- The window on the letter does not fit when the filename is long. -/
theorem letterWindow_unfit (hlong : maxHeaderBytes < 242+Json.quotedSize filename) :
    ¬((letterWindow filename).value (fun _ => ofString "1.0")).Fits := by
  intro hfits
  have hheader := label_le_headerBytes ((letterWindow filename).value (fun _ => ofString "1.0"))
    (List.mem_singleton_self _)
  have hlabel : (ContainerReference.value ⟨0, .text, some filename⟩).label.jsonBytes
      = Json.quotedSize filename := rfl
  have hlimit := hfits.header
  omega

/-- The two exchanges make up the run. -/
theorem letterProcess_unwritten (hname : filename ≠ []) (hencodable : Encodable filename)
    (hlong : maxHeaderBytes < 242+Json.quotedSize filename)
    (hfits : 156+Json.quotedSize filename ≤ maxHeaderBytes)
    (hwrite : ArtifactWriter.default.write storage (letterDocument filename) fuel
      = some (.ok result))
    (hcreate : ArtifactReader.create storage result.artifact = .ok reader)
    (written : DocumentWritten (letterDocument filename) reader.database)
    (htext : reader.textBytes = (utf8 (letterDocument filename).canonicalText).length) :
    ∃ error, ((letterProcess filename storage fuel).run (letterStream filename)).ending
      = .unwritten error := by
  have hlimit : maxHeaderBytes = 65536 := rfl
  obtain ⟨hopenSendable, hopenWritable⟩ := openLetterMessage_sendable hencodable hfits
  obtain ⟨hreadSendable, hreadWritable⟩ := readLetterMessage_sendable
  have hstream : (letterStream filename).data
      = (write (openLetterMessage filename)).1++(write readLetterMessage).1 := rfl
  have hreadLoads : LoadsBack (letterLoads filename) readLetterMessage :=
    letterLoads_read (by omega)
  -- both messages are read back and decoded
  obtain ⟨opened, afterOpen, hopened, hopenedView, hrest⟩ := read_written hopenSendable
    hopenWritable (letterLoads_open filename) hstream
  obtain ⟨asked, afterRead, hasked, haskedView, -⟩ := read_written hreadSendable hreadWritable
    hreadLoads (hrest.trans (List.append_nil _).symm)
  obtain ⟨source, hopenDecode⟩ := decode_openLetter hname hopenedView (read_ok hopened).1
  let opening : OpenTextDocumentRequest (workerTypes ArtifactReader DocumentContent) :=
    ⟨ofString "d", filename, source, by decide, hname⟩
  let reading : ReadDocumentRequest := ⟨ofString "d", 0, 1, by decide, by decide⟩
  have hopenRequest : (letterProcess filename storage fuel).decode opened
      = .ok (.ok (.session (.openText opening))) := by
    have hdecode : RequestDecoder.decode (letterProcess filename storage fuel).sha256.hexdigest
        opened = .ok (.session (.openText opening) :
          WorkerRequest (workerTypes ArtifactReader DocumentContent)) := hopenDecode
    rw [WorkerProcess.decode, hdecode]
  have hreadRequest : (letterProcess filename storage fuel).decode asked
      = .ok (.ok (.session (.read reading))) := by
    have hdecode : RequestDecoder.decode (letterProcess filename storage fuel).sha256.hexdigest
        asked = .ok (.session (.read reading) :
          WorkerRequest (workerTypes ArtifactReader DocumentContent)) :=
      decode_readLetter haskedView
    rw [WorkerProcess.decode, hdecode]
  -- the first is answered, and the answer to the second does not fit
  obtain ⟨hopenOutcome, hopenAfter⟩ := open_exchange (letterCalls storage fuel) opening
    (letterCalls_extract storage fuel source) (letterCalls_write hwrite) hcreate opened
  obtain ⟨error, hreadOutcome⟩ : ∃ error, (serve (letterCalls storage fuel)
      (DocumentSession.initial.register reading.documentId reader) asked
      (.session (.read reading))).outcome = .error error := by
    have hreturns := read_exchange (registered_find reading.documentId reader)
      (letterCalls_read storage fuel written htext)
      (by decide : Encodable [0x61]) asked
    rcases houtcome : (serve (letterCalls storage fuel)
        (DocumentSession.initial.register reading.documentId reader) asked
        (.session (.read reading))).outcome with error | ⟨⟩
    · exact ⟨error, rfl⟩
    · exact absurd (hreturns.mp houtcome) (letterWindow_unfit hlong)
  refine ⟨error, ?_⟩
  have hsession : (letterProcess filename storage fuel).runSession 1
      (DocumentSession.initial.register opening.documentId reader) afterOpen
      = ⟨[serve (letterCalls storage fuel)
          (DocumentSession.initial.register reading.documentId reader) asked
          (.session (.read reading))], .unwritten error, (serve (letterCalls storage fuel)
          (DocumentSession.initial.register reading.documentId reader) asked
          (.session (.read reading))).after⟩ := by
    have hloads : ProtocolCodec.read (letterProcess filename storage fuel).loads afterOpen
        = .ok (asked, afterRead) := hasked
    rw [WorkerProcess.runSession_read hloads, hreadRequest]
    exact andThen_error hreadOutcome
  have hserved : (letterProcess filename storage fuel).serveAll (letterStream filename)
      = (serve (letterCalls storage fuel) .initial opened (.session (.openText opening))).andThen
        ((letterProcess filename storage fuel).runSession 1
          (DocumentSession.initial.register opening.documentId reader) afterOpen) := by
    have hloads : ProtocolCodec.read (letterProcess filename storage fuel).loads
        (letterStream filename) = .ok (opened, afterOpen) := hopened
    rw [WorkerProcess.serveAll, hloads]
    dsimp only
    rw [hopenRequest, ← hopenAfter]
    rfl
  change ((letterProcess filename storage fuel).serveAll (letterStream filename)).ending = _
  rw [hserved, andThen_ok hopenOutcome, hsession]

end Run

theorem letters_quotedSize (n : ℕ) : Json.quotedSize (List.replicate n 0x61) = n+2 := by
  have hone : (utf8 (Json.escapeCharacter 0x61)).length = 1 := by decide
  rw [Json.quotedSize, List.map_replicate, hone, List.sum_replicate, smul_eq_mul]
  omega

/-- The session is torn down by the first read of a text whose filename nearly fills the
header of the request that opened it. -/
theorem letterRun_unwritten (n : ℕ) (hlong : maxHeaderBytes < 244+n)
    (hfits : 158+n ≤ maxHeaderBytes) :
    ∃ storage fuel error, storage.Faithful ∧
      ((letterProcess (List.replicate n 0x61) storage fuel).run
        (letterStream (List.replicate n 0x61))).ending = .unwritten error := by
  have hlimit : maxHeaderBytes = 65536 := rfl
  have hdatabaseLimit : maxDatabaseBytes = 268435456 := by decide
  have hquoted := letters_quotedSize n
  have hencodable := letters_encodable n
  have hname : List.replicate n (0x61 : CodePoint) ≠ [] := by
    rw [Ne, List.replicate_eq_nil_iff]
    omega
  obtain ⟨fuel, database, hdatabase⟩ := documentDatabase_returns ArtifactWriter.default (by decide)
    (letterDocument_storable hencodable)
  obtain ⟨-, tables⟩ := documentDatabase_ok hdatabase
  have hstored := letterDocument_storedBytes tables
  rw [letters_length] at hstored
  have built := builtReader_single hdatabase (by omega)
  have faithful := singleStorage_faithful database
  obtain ⟨written, htext⟩ := built.contents faithful
  obtain ⟨rounds, result, hwrite, hcreate⟩ := built
  obtain ⟨error, hending⟩ := letterProcess_unwritten hname hencodable (by omega) (by omega) hwrite
    hcreate written htext
  exact ⟨_, rounds, error, faithful, hending⟩

/-- A filename of 65330 letters: the request that opens the text has a header of 65488
bytes, the answer to the read would have one of more than 65536. -/
theorem long_filename_unanswered : ∃ storage fuel error, storage.Faithful ∧
    ((letterProcess (List.replicate 65330 0x61) storage fuel).run
      (letterStream (List.replicate 65330 0x61))).ending = .unwritten error ∧
    ¬Answered true ((letterProcess (List.replicate 65330 0x61) storage fuel).run
        (letterStream (List.replicate 65330 0x61))).exchanges
      ((letterProcess (List.replicate 65330 0x61) storage fuel).run
        (letterStream (List.replicate 65330 0x61))).ending := by
  have hlimit : maxHeaderBytes = 65536 := rfl
  obtain ⟨storage, fuel, error, faithful, hending⟩ := letterRun_unwritten 65330 (by omega) (by omega)
  refine ⟨storage, fuel, error, faithful, hending, ?_⟩
  rw [hending]
  exact not_answered_unwritten true _ error

end ConferWorker
