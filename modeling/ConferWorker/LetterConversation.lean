import ConferWorker.ArtifactErrors
import ConferWorker.Conversations
import ConferWorker.UnansweredRead

/-! A conversation with a worker over the artifact classes: a text is opened and read, an
overview fails because the database raises, and the session is closed. -/
namespace ConferWorker

open ProtocolCodec ProtocolPresenter JsonParser

section Windows

variable {runtime : JsonRuntime} {floatText : ℚ → Str}
  (hfloat : ∀ value, StableFloat runtime (floatText value))

include hfloat

/-- Only the confidences of a window are floats. -/
theorem windowValue_stable (window : TextWindow) : (window.value floatText).Stable runtime where
  range := ⟨trivial, trivial⟩
  regions := by
    intro region hregion
    obtain ⟨reference, _, rfl⟩ := List.mem_map.mp hregion
    exact ⟨trivial, trivial, hfloat _⟩
  containers := by
    intro container hcontainer
    obtain ⟨⟨number, kind, label⟩, _, rfl⟩ := List.mem_map.mp hcontainer
    refine ⟨trivial, ?_⟩
    cases label with
    | none => trivial
    | some label => trivial

theorem artifactCalls_stable (storage : ArtifactStorage) (fuel : ℕ)
    (calls : WorkerCalls ArtifactReader DocumentContent) :
    (artifactCalls floatText storage fuel calls).Stable runtime := by
  intro reader number count value hvalue
  obtain ⟨window, -, rfl⟩ := (map_eq_ok _ _ _).mp hvalue
  exact windowValue_stable hfloat window

end Windows

def overviewLetterMessage : ProtocolMessage where
  header := [(ofString "version", .int 1),
    (ofString "operation", .str (ofString "session_overview")),
    (ofString "document_id", .str (ofString "d"))]
  payloads := []
  distinct_roles := ProtocolMessage.no_payloads_roles
  media_types := ProtocolMessage.no_payloads_media_types

/-- What the client asks. -/
def letterRequests (filename : Str) : List ProtocolMessage :=
  [openLetterMessage filename, readLetterMessage, overviewLetterMessage, sampleClose]

theorem overviewLetterMessage_sendable :
    Sendable overviewLetterMessage ∧ Writable overviewLetterMessage := by
  have hone : (1 : ℤ).natAbs < Json.intLimit := Json.lt_intLimit (by decide)
  have hkeys : Encodable (ofString "version") ∧ Encodable (ofString "operation") ∧
      Encodable (ofString "session_overview") ∧ Encodable (ofString "document_id") ∧
      Encodable (ofString "d") ∧ Encodable payloadsKey := by decide
  refine ⟨⟨by decide, List.forall_mem_nil _⟩, ?_, by decide, List.forall_mem_nil _, Nat.zero_le _⟩
  simp only [ProtocolMessage.sentHeader, overviewLetterMessage, descriptors, List.map_nil,
    List.cons_append, List.nil_append, Json.Dumpable, Json.MembersDumpable, Json.ItemsDumpable,
    hkeys, hone, and_self]

/-- A header of strings and integers is read back. -/
theorem plainHeader_readable {runtime : JsonRuntime} (hdepth : 4 ≤ runtime.maxDepth)
    {header : List (Str × Json)} (hplain : header.all (fun member => member.2.isPlain) = true)
    (hnames : (header.map Prod.fst).Nodup) : ReadableHeader runtime header := by
  apply readableHeader_of_shape hdepth
  · intro depth member hmember
    exact plain_shape (List.all_eq_true.mp hplain member hmember) _
  · exact hnames

/-- The client can send its requests. -/
theorem letterRequests_sent {filename : Str} (hencodable : Encodable filename)
    (hfits : 156+Json.quotedSize filename ≤ maxHeaderBytes) :
    ∀ request ∈ letterRequests filename, Sendable request ∧ Writable request
      ∧ ReadableHeader plainRuntime request.header := by
  have hdepth : 4 ≤ plainRuntime.maxDepth := by decide
  have hopen : [ofString "version", ofString "operation", ofString "document_id",
      ofString "filename"].Nodup := by decide
  have hread : [ofString "version", ofString "operation", ofString "document_id",
      ofString "container_number"].Nodup := by decide
  have hoverview : [ofString "version", ofString "operation",
      ofString "document_id"].Nodup := by decide
  obtain ⟨hopenSendable, hopenWritable⟩ := openLetterMessage_sendable hencodable hfits
  obtain ⟨hreadSendable, hreadWritable⟩ := readLetterMessage_sendable
  obtain ⟨hoverviewSendable, hoverviewWritable⟩ := overviewLetterMessage_sendable
  simp only [letterRequests, List.forall_mem_cons]
  exact ⟨⟨hopenSendable, hopenWritable, plainHeader_readable hdepth rfl hopen⟩,
    ⟨hreadSendable, hreadWritable, plainHeader_readable hdepth rfl hread⟩,
    ⟨hoverviewSendable, hoverviewWritable, plainHeader_readable hdepth rfl hoverview⟩,
    sampleClose_sendable, List.forall_mem_nil _⟩

theorem decode_overviewLetter {message : ProtocolMessage}
    (hview : message.view = overviewLetterMessage.view) :
    RequestDecoder.decode letterSha256.hexdigest message =
      .ok (.session (.overview ⟨ofString "d", by decide⟩) :
        WorkerRequest (workerTypes ArtifactReader DocumentContent)) := by
  have hheader : message.header = overviewLetterMessage.header := (Prod.mk.inj hview).1
  have hversion : getItem message.header (ofString "version") = some (.int 1) := by
    rw [hheader]
    rfl
  have hoperation : RequestDecoder.operation message = .ok .overview := by
    rw [RequestDecoder.operation, hheader]
    rfl
  have hid : RequestParameters.string message documentIdName = .ok (ofString "d") := by
    rw [RequestParameters.string, hheader]
    rfl
  unfold RequestDecoder.decode
  rw [hversion, raiseIf_of_not _ (by decide), ok_bind, hoperation, ok_bind]
  simp only [hid, ok_bind]
  rfl

theorem decode_sampleClose {message : ProtocolMessage} (hview : message.view = sampleClose.view) :
    RequestDecoder.decode letterSha256.hexdigest message =
      .ok (.session .close : WorkerRequest (workerTypes ArtifactReader DocumentContent)) := by
  have hheader : message.header = sampleClose.header := (Prod.mk.inj hview).1
  have hversion : getItem message.header (ofString "version") = some (.int 1) := by
    rw [hheader]
    rfl
  have hoperation : RequestDecoder.operation message = .ok .close := by
    rw [RequestDecoder.operation, hheader]
    rfl
  unfold RequestDecoder.decode
  rw [hversion, raiseIf_of_not _ (by decide), ok_bind, hoperation, ok_bind]
  rfl

/-- The collaborators of `letterCalls`, on a database that raises in an overview. -/
def faultyCalls (storage : ArtifactStorage) (fuel : ℕ) (fault : PythonError) :
    WorkerCalls ArtifactReader DocumentContent :=
  let calls := letterCalls storage fuel
  { calls with session := { calls.session with metadata := fun _ => .error fault } }

/-- A worker with these collaborators and the JSON parser of the runtime. -/
def faultyProcess (storage : ArtifactStorage) (fuel : ℕ) (fault : PythonError) :
    WorkerProcess ArtifactReader DocumentContent where
  loads := loads plainRuntime
  sha256 := letterSha256
  calls _ := faultyCalls storage fuel fault

def letterInput (filename : Str) : ByteSource :=
  ⟨(writeAll (letterRequests filename)).1, fun i => i%7⟩

/-- The worker reads the four requests off its input. -/
theorem letterInput_readsBack {filename : Str} (hencodable : Encodable filename)
    (hfits : 156+Json.quotedSize filename ≤ maxHeaderBytes) :
    ReadsBack (loads plainRuntime) [] (letterRequests filename) (letterInput filename) := by
  have hdepth : 3 ≤ plainRuntime.maxDepth := by decide
  have hsent := letterRequests_sent hencodable hfits
  have hwrites : (writeAll (letterRequests filename)).2 = letterRequests filename :=
    writeAll_all fun request hrequest =>
      (write_returns_iff (hsent request hrequest).1).mpr (hsent request hrequest).2.1
  rw [← hwrites]
  refine readsBack_writeAll (fun request hrequest => (hsent request hrequest).1)
    (fun request hrequest => ?_) [] _ (List.append_nil _).symm
  exact loadsBack_readable hdepth (hsent request hrequest).1 (hsent request hrequest).2.2

theorem faultyProcess_decode {storage : ArtifactStorage} {fuel : ℕ} {fault : PythonError}
    {message : ProtocolMessage}
    {request : SessionRequest (workerTypes ArtifactReader DocumentContent)}
    (h : RequestDecoder.decode letterSha256.hexdigest message = .ok (.session request)) :
    (faultyProcess storage fuel fault).decode message = .ok (.ok (.session request)) := by
  have hprocess : RequestDecoder.decode (faultyProcess storage fuel fault).sha256.hexdigest
      message = .ok (.session request) := h
  rw [WorkerProcess.decode, hprocess]

theorem faultyCalls_foreign {storage : ArtifactStorage} (foreign : storage.Foreign) (fuel : ℕ)
    {fault : PythonError} (hfault : IsForeign fault) : (faultyCalls storage fuel fault).Foreign :=
  have hextractor : letterExtractor.Foreign :=
    { unusedCalls_foreign with extractText := fun _ _ _ => raisesOnly_ok _ }
  { artifactCalls_foreign foreign _ fuel hextractor with
    metadata := fun _ => raisesOnly_error hfault }

theorem faultyCalls_stable (storage : ArtifactStorage) (fuel : ℕ) (fault : PythonError) :
    (faultyCalls storage fuel fault).Stable plainRuntime := by
  have hone : StableFloat plainRuntime (ofString "1.0") := Or.inr ⟨rfl, rfl⟩
  exact artifactCalls_stable (fun _ => hone) storage fuel letterExtractor

theorem letterId_ne_nil : ofString "d" ≠ [] := by decide

theorem one_container : 1 ≤ 1 ∧ 1 ≤ 20 := by decide

def letterRead : ReadDocumentRequest := ⟨ofString "d", 0, 1, letterId_ne_nil, one_container⟩

def letterOverview : GetDocumentOverviewRequest := ⟨ofString "d", letterId_ne_nil⟩

/-- The four exchanges. -/
def letterExchanges (calls : WorkerCalls ArtifactReader DocumentContent)
    (opening : OpenTextDocumentRequest (workerTypes ArtifactReader DocumentContent))
    (reader : ArtifactReader) (opened asked failed closed : ProtocolMessage) :
    List (Exchange ArtifactReader DocumentContent) :=
  let session := DocumentSession.initial.register (ofString "d") reader
  [serve calls .initial opened (.session (.openText opening)),
    serve calls session asked (.session (.read letterRead)),
    serve calls (session.use ⟨0, reader⟩) failed (.session (.overview letterOverview)),
    serve calls ((session.use ⟨0, reader⟩).use ⟨0, reader⟩) closed (.session .close)]

section Run

variable {filename : Str} {storage : ArtifactStorage} {fuel : ℕ} {fault : PythonError}
  {reader : ArtifactReader} {result : ArtifactWriter.BuildResult}

/-- The only window of the conversation fits when the filename is short. -/
theorem letterWindow_fits (hencodable : Encodable filename)
    (hshort : Json.quotedSize filename ≤ 1000) :
    ((letterWindow filename).value (fun _ => ofString "1.0")).Fits := by
  have hnumber (n : ℕ) (hn : n ≤ 1) : (n : ℤ).natAbs < Json.intLimit :=
    Json.lt_intLimit (by omega)
  have htextBytes : (utf8 [0x61]).length ≤ maxPayloadBytes := by decide
  refine ⟨⟨hnumber 0 (by decide), hnumber 0 (by decide), hnumber 1 (by decide)⟩,
    List.forall_mem_nil _, List.forall_mem_singleton.mpr ⟨hnumber 0 (by decide), hencodable⟩, ?_,
    htextBytes⟩
  have hlimit : maxHeaderBytes = 65536 := rfl
  have hkind : Json.quotedSize ContainerKind.text.value = 6 := by decide
  have hzero : (Json.intText ((0 : ℕ) : ℤ)).length = 1 := by decide
  have hone : (Json.intText ((1 : ℕ) : ℤ)).length = 1 := by decide
  have htext : (Json.intText ((utf8 [0x61]).length : ℤ)).length = 1 := by decide
  simp only [WindowValue.headerBytes, letterWindow, TextWindow.value, SqlValue.jsonBytes,
    ContainerValue.jsonBytes, ContainerReference.value, List.map_cons, List.map_nil, arrayBytes,
    List.sum_cons, List.sum_nil, hkind, hzero, hone, htext, Bool.false_eq_true, if_false]
  omega

theorem faulty_overview (storage : ArtifactStorage) (fuel : ℕ) (fault : PythonError)
    {session : DocumentSession ArtifactReader}
    (hfind : session.find (ofString "d") = some ⟨0, reader⟩) :
    handleRequest (faultyCalls storage fuel fault) session (.session (.overview letterOverview))
      = (session.use ⟨0, reader⟩, .error fault) := by
  have hask : session.execute (faultyCalls storage fuel fault).session (.overview letterOverview)
      = (session.use ⟨0, reader⟩, DocumentSession.answer
        (faultyCalls storage fuel fault).session reader (.overview letterOverview)) :=
    ask_found hfind _
  rw [handleRequest, hask]
  rfl

/-- The failing overview is answered, and the reader has been used for it. -/
theorem faulty_exchange (fuel : ℕ) (foreign : storage.Foreign) (hfault : IsForeign fault)
    {session : DocumentSession ArtifactReader}
    (hfind : session.find (ofString "d") = some ⟨0, reader⟩) (message : ProtocolMessage) :
    (serve (faultyCalls storage fuel fault) session message
        (.session (.overview letterOverview))).outcome = .ok ()
      ∧ (serve (faultyCalls storage fuel fault) session message
        (.session (.overview letterOverview))).after = session.use ⟨0, reader⟩ := by
  have hfaulty := faulty_overview storage fuel fault hfind
  obtain ⟨hsendable, hwritable⟩ := respond_error
    (faultyCalls_foreign foreign fuel hfault) (congrArg Prod.snd hfaulty)
  exact ⟨(write_returns_iff hsendable).mpr hwritable,
    (serve_after _ _ _).trans (congrArg Prod.fst hfaulty)⟩

theorem read_leaves {calls : WorkerCalls ArtifactReader DocumentContent}
    {session : DocumentSession ArtifactReader}
    (hfind : session.find (ofString "d") = some ⟨0, reader⟩) :
    (handleRequest calls session (.session (.read letterRead))).1 = session.use ⟨0, reader⟩ := by
  have hask : session.execute calls.session (.read letterRead)
      = (session.use ⟨0, reader⟩, DocumentSession.answer calls.session reader
        (.read letterRead)) := ask_found hfind _
  rw [handleRequest, hask]

/-- The conversation runs to its end. -/
theorem letter_conversation (hname : filename ≠ []) (hencodable : Encodable filename)
    (hshort : Json.quotedSize filename ≤ 1000) (foreign : storage.Foreign)
    (hfault : IsForeign fault)
    (hwrite : ArtifactWriter.default.write storage (letterDocument filename) fuel
      = some (.ok result))
    (hcreate : ArtifactReader.create storage result.artifact = .ok reader)
    (written : DocumentWritten (letterDocument filename) reader.database)
    (htext : reader.textBytes = (utf8 (letterDocument filename).canonicalText).length) :
    ∃ opening opened asked failed closed,
      ((faultyProcess storage fuel fault).run (letterInput filename)).exchanges
        = letterExchanges (faultyCalls storage fuel fault) opening reader opened asked failed
          closed
      ∧ ((faultyProcess storage fuel fault).run (letterInput filename)).ending = .returned := by
  have hlimit : maxHeaderBytes = 65536 := rfl
  obtain ⟨opened, afterOpen, hopened, hopenedView, -, asked, afterRead, hasked, haskedView, -,
    failed, afterFail, hfailed, hfailedView, -, closed, afterClose, hclosed, hclosedView, -⟩ :=
      letterInput_readsBack hencodable (by omega)
  -- each is decoded
  obtain ⟨source, hopenDecode⟩ := decode_openLetter hname hopenedView (read_ok hopened).1
  let opening : OpenTextDocumentRequest (workerTypes ArtifactReader DocumentContent) :=
    ⟨ofString "d", filename, source, by decide, hname⟩
  -- and answered
  let session := DocumentSession.initial.register opening.documentId reader
  have hfind : session.find (ofString "d") = some ⟨0, reader⟩ := registered_find _ _
  have hfindUsed : (session.use ⟨0, reader⟩).find (ofString "d") = some ⟨0, reader⟩ := hfind
  obtain ⟨hopenOutcome, hopenAfter⟩ := open_exchange (faultyCalls storage fuel fault)
    opening (letterCalls_extract storage fuel source)
    (letterCalls_write hwrite) hcreate opened
  have hreadOutcome : (serve (faultyCalls storage fuel fault) session asked
      (.session (.read letterRead))).outcome = .ok () :=
    (read_exchange hfind (letterCalls_read storage fuel written htext)
      (by decide : Encodable [0x61]) asked).mpr (letterWindow_fits hencodable hshort)
  have hreadAfter : (serve (faultyCalls storage fuel fault) session asked
      (.session (.read letterRead))).after = session.use ⟨0, reader⟩ :=
    (serve_after _ _ _).trans (read_leaves hfind)
  obtain ⟨hfailOutcome, hfailAfter⟩ := faulty_exchange fuel foreign hfault hfindUsed failed
  have hcloseHandled : (handleRequest (faultyCalls storage fuel fault)
      ((session.use ⟨0, reader⟩).use ⟨0, reader⟩) (.session .close)).2
      = .ok (.session .empty) := rfl
  have hcloseOutcome := (serve_fits hcloseHandled closed).mpr trivial
  -- so the run is the four exchanges, from the last one on
  let process := faultyProcess storage fuel fault
  let closing := serve (faultyCalls storage fuel fault)
    ((session.use ⟨0, reader⟩).use ⟨0, reader⟩) closed (.session .close)
  let failing := serve (faultyCalls storage fuel fault) (session.use ⟨0, reader⟩) failed
    (.session (.overview letterOverview))
  let reading := serve (faultyCalls storage fuel fault) session asked
    (.session (.read letterRead))
  have hclosing : process.runSession 3 ((session.use ⟨0, reader⟩).use ⟨0, reader⟩) afterFail
      = ⟨[closing], .returned, closing.after⟩ :=
    WorkerProcess.runSession_closed hclosed
      (faultyProcess_decode (decode_sampleClose hclosedView)) rfl hcloseOutcome
  have hfailing : process.runSession 2 (session.use ⟨0, reader⟩) afterRead
      = ⟨[failing, closing], .returned, closing.after⟩ :=
    WorkerProcess.runSession_served hfailed
      (faultyProcess_decode (decode_overviewLetter hfailedView)) (fun h => by cases h)
      hfailOutcome hfailAfter hclosing
  have hreading : process.runSession 1 session afterOpen
      = ⟨[reading, failing, closing], .returned, closing.after⟩ :=
    WorkerProcess.runSession_served hasked
      (faultyProcess_decode (decode_readLetter haskedView)) (fun h => by cases h)
      hreadOutcome hreadAfter hfailing
  have hopening : process.serveAll (letterInput filename)
      = ⟨letterExchanges (faultyCalls storage fuel fault) opening reader opened asked failed closed,
        .returned, closing.after⟩ :=
    WorkerProcess.serveAll_served hopened (faultyProcess_decode hopenDecode) (fun h => by cases h)
      hopenOutcome hopenAfter hreading
  refine ⟨opening, opened, asked, failed, closed, ?_, ?_⟩
  · exact congrArg WorkerRun.exchanges hopening
  · exact congrArg WorkerRun.ending hopening

end Run

/-- The conversation over a storage for the letter's artifact, whatever the database raises. -/
theorem letter_runs {filename : Str} (hname : filename ≠ []) (hencodable : Encodable filename)
    (hshort : Json.quotedSize filename ≤ 1000) (hbytes : (utf8 filename).length ≤ 1000) :
    ∃ storage fuel, storage.Faithful ∧ storage.Foreign ∧ ∀ fault, IsForeign fault →
      ∃ opening reader opened asked failed closed,
        reader.readContainers 0 1 64000 = .ok (letterWindow filename) ∧
        ((faultyProcess storage fuel fault).run (letterInput filename)).exchanges
          = letterExchanges (faultyCalls storage fuel fault) opening reader opened asked failed
            closed ∧
        ((faultyProcess storage fuel fault).run (letterInput filename)).ending = .returned := by
  have hdatabaseLimit : maxDatabaseBytes = 268435456 := by decide
  obtain ⟨fuel, database, hdatabase⟩ := documentDatabase_returns ArtifactWriter.default (by decide)
    (letterDocument_storable hencodable)
  obtain ⟨-, tables⟩ := documentDatabase_ok hdatabase
  have hstored := letterDocument_storedBytes tables
  have built := builtReader_single hdatabase (by omega)
  have faithful := singleStorage_faithful database
  obtain ⟨written, htext⟩ := built.contents faithful
  obtain ⟨rounds, result, hwrite, hcreate⟩ := built
  refine ⟨_, rounds, faithful, singleStorage_foreign database, fun fault hfault => ?_⟩
  obtain ⟨opening, opened, asked, failed, closed, hrun⟩ := letter_conversation hname
    hencodable hshort (singleStorage_foreign database) hfault hwrite hcreate written htext
  exact ⟨opening, _, opened, asked, failed, closed, letter_read written htext, hrun⟩

section Exchanges

variable {storage : ArtifactStorage} {fuel : ℕ} {fault : PythonError} {filename : Str}
  {opening : OpenTextDocumentRequest (workerTypes ArtifactReader DocumentContent)}
  {reader : ArtifactReader} {opened asked failed closed : ProtocolMessage}

/-- The answers fit: the window does, and the overview has no answer. -/
theorem letterExchanges_fit (hencodable : Encodable filename)
    (hshort : Json.quotedSize filename ≤ 1000)
    (hread : reader.readContainers 0 1 64000 = .ok (letterWindow filename)) :
    ∀ exchange ∈ letterExchanges (faultyCalls storage fuel fault) opening reader opened asked failed
      closed, exchange.Fits := by
  simp only [letterExchanges, List.forall_mem_cons]
  refine ⟨?_, ?_, ?_, ?_, List.forall_mem_nil _⟩
  · intro request hrequest
    obtain rfl := Except.ok.inj hrequest
    trivial
  · intro request hrequest
    obtain rfl := Except.ok.inj hrequest
    intro openReader window hfind hwindow _
    have hsame : (⟨0, reader⟩ : OpenReader ArtifactReader) = openReader :=
      Option.some.inj ((registered_find (ofString "d") reader).symm.trans hfind)
    subst hsame
    have hvalue : (faultyCalls storage fuel fault).session.readContainers reader 0 1
        = .ok ((letterWindow filename).value (fun _ => ofString "1.0")) :=
      congrArg (TextWindow.value (fun _ => ofString "1.0") <$> ·) hread
    obtain rfl := Except.ok.inj (hvalue.symm.trans hwindow)
    exact letterWindow_fits hencodable hshort
  · intro request hrequest
    obtain rfl := Except.ok.inj hrequest
    intro openReader metadata outline labels firstChunkId content _ hmetadata
    cases hmetadata
  · intro request hrequest
    obtain rfl := Except.ok.inj hrequest
    trivial

/-- The second exchange reads the window on the letter. -/
theorem letterExchanges_read
    (hread : reader.readContainers 0 1 64000 = .ok (letterWindow filename)) :
    ∃ exchange ∈ letterExchanges (faultyCalls storage fuel fault) opening reader opened asked
      failed closed, exchange.request = .ok (.session (.read letterRead)) ∧
      (handleRequest exchange.calls exchange.before (.session (.read letterRead))).2
        = .ok (.session (.read ((letterWindow filename).value (fun _ => ofString "1.0")))) := by
  refine ⟨_, List.mem_cons_of_mem _ List.mem_cons_self, rfl, ?_⟩
  have hvalue : (faultyCalls storage fuel fault).session.readContainers reader 0 1
      = .ok ((letterWindow filename).value (fun _ => ofString "1.0")) :=
    congrArg (TextWindow.value (fun _ => ofString "1.0") <$> ·) hread
  have hexecute : ((DocumentSession.initial.register (ofString "d") reader).execute
      (faultyCalls storage fuel fault).session (.read letterRead)).2
      = .ok (.read ((letterWindow filename).value (fun _ => ofString "1.0"))) :=
    execute_read.mpr ⟨⟨0, reader⟩, registered_find (ofString "d") reader, _, hvalue, rfl⟩
  exact (map_eq_ok _ WorkerResponse.session _).mpr ⟨_, hexecute, rfl⟩

/-- The overview fails in the processing, whatever the database raised. -/
theorem letterExchanges_fail (fault : PythonError) (hfault : IsForeign fault) :
    ∃ exchange ∈ letterExchanges (faultyCalls storage fuel fault) opening reader opened asked failed
      closed, exchange.response.isError ∧ exchange.FailsAt .processing := by
  have hfind : ((DocumentSession.initial.register (ofString "d") reader).use ⟨0, reader⟩).find
      (ofString "d") = some ⟨0, reader⟩ := registered_find (ofString "d") reader
  have hraised : (handleRequest (faultyCalls storage fuel fault)
      ((DocumentSession.initial.register (ofString "d") reader).use ⟨0, reader⟩)
      (.session (.overview letterOverview))).2 >>= present = .error fault := by
    rw [faulty_overview storage fuel fault hfind]
    rfl
  refine ⟨_, List.mem_cons_of_mem _ (List.mem_cons_of_mem _ List.mem_cons_self), ?_, ?_⟩
  · have hresponse := @respond_eq _ _ (faultyCalls storage fuel fault)
      ((DocumentSession.initial.register (ofString "d") reader).use ⟨0, reader⟩)
      (.session (.overview letterOverview))
    rw [hraised] at hresponse
    dsimp only at hresponse
    rw [if_neg (by rw [hfault]; decide)] at hresponse
    have herror : processingFailed.isError := rfl
    rw [← hresponse] at herror
    exact herror
  · exact ⟨_, fault, rfl, hraised, hfault⟩

end Exchanges

/-- What sqlite3 raises on a disk that cannot be read. -/
def diskError : PythonError := ⟨.other (ofString "OperationalError"), ofString "disk I/O error"⟩

/-- What sqlite3 raises on a damaged file, with the path of the file in its message. -/
def damagedError : PythonError :=
  .integrityError (ofString "/tmp/b.sqlite: database disk image is malformed")

theorem letterName_short :
    (ofString "a.txt" ≠ [] ∧ Encodable (ofString "a.txt") ∧
      Json.quotedSize (ofString "a.txt") ≤ 1000 ∧ (utf8 (ofString "a.txt")).length ≤ 1000) ∧
    ofString "b.txt" ≠ [] ∧ Encodable (ofString "b.txt") ∧
      Json.quotedSize (ofString "b.txt") ≤ 1000 ∧ (utf8 (ofString "b.txt")).length ≤ 1000 := by
  decide

/-- A text is opened, the read of it and the overview are answered, and the session closes. -/
theorem worker_answers_iff_letter : ∃ storage fuel, storage.Faithful ∧
    let run := (faultyProcess storage fuel diskError).run (letterInput (ofString "a.txt"))
    run.exchanges.length = 4 ∧ run.ending = .returned ∧
      (∃ exchange ∈ run.exchanges, exchange.request = .ok (.session (.read letterRead)) ∧
        (handleRequest exchange.calls exchange.before (.session (.read letterRead))).2
          = .ok (.session (.read ((letterWindow (ofString "a.txt")).value
            (fun _ => ofString "1.0"))))) ∧
      (∀ exchange ∈ run.exchanges, exchange.Fits) ∧ Answered true run.exchanges run.ending := by
  obtain ⟨⟨hname, hencodable, hquoted, hbytes⟩, -⟩ := letterName_short
  obtain ⟨storage, fuel, faithful, foreign, hruns⟩ := letter_runs hname hencodable hquoted hbytes
  obtain ⟨opening, reader, opened, asked, failed, closed, hread, hexchanges, hending⟩ :=
    hruns diskError rfl
  have hfits : ∀ exchange ∈ ((faultyProcess storage fuel diskError).run
      (letterInput (ofString "a.txt"))).exchanges, exchange.Fits := by
    rw [hexchanges]
    exact letterExchanges_fit hencodable hquoted hread
  refine ⟨storage, fuel, faithful, ?_, hending, ?_, hfits, ?_⟩
  · rw [hexchanges]
    rfl
  · rw [hexchanges]
    exact letterExchanges_read hread
  · exact (worker_answers_iff (faultyProcess storage fuel diskError)
      (fun _ => faultyCalls_foreign foreign fuel rfl) (letterInput (ofString "a.txt"))).mpr hfits

/-- Two workers, over the artifacts of two texts, whose databases raise different errors. -/
theorem error_responses_fixed_letter : ∃ storage fuel storage' fuel',
    let run := (faultyProcess storage fuel diskError).run (letterInput (ofString "a.txt"))
    let run' := (faultyProcess storage' fuel' damagedError).run (letterInput (ofString "b.txt"))
    ∃ exchange ∈ run.exchanges, ∃ exchange' ∈ run'.exchanges,
      (exchange.response.isError ∧ ∃ check ∈ FailedCheck.all, exchange.FailsAt check ∧
        exchange.response = check.response) ∧
      exchange.FailsAt .processing ∧ exchange'.FailsAt .processing ∧
      exchange.written = exchange'.written := by
  obtain ⟨⟨hname, hencodable, hquoted, hbytes⟩, hname', hencodable', hquoted', hbytes'⟩ :=
    letterName_short
  obtain ⟨storage, fuel, -, foreign, hruns⟩ := letter_runs hname hencodable hquoted hbytes
  obtain ⟨storage', fuel', -, foreign', hruns'⟩ := letter_runs hname' hencodable' hquoted' hbytes'
  obtain ⟨_, _, _, _, _, _, -, hexchanges, -⟩ := hruns diskError rfl
  obtain ⟨_, _, _, _, _, _, -, hexchanges', -⟩ := hruns' damagedError rfl
  obtain ⟨exchange, hexchange, herror, hfails⟩ := letterExchanges_fail diskError rfl
  obtain ⟨exchange', hexchange', -, hfails'⟩ := letterExchanges_fail damagedError rfl
  rw [← hexchanges] at hexchange
  rw [← hexchanges'] at hexchange'
  obtain ⟨hresponses, hsame⟩ := error_responses_fixed (faultyProcess storage fuel diskError)
    (fun _ => faultyCalls_foreign foreign fuel rfl) (letterInput (ofString "a.txt"))
  exact ⟨storage, fuel, storage', fuel', exchange, hexchange, exchange', hexchange',
    ⟨herror, (hresponses exchange hexchange).2 herror⟩, hfails, hfails',
    hsame _ _ exchange hexchange exchange' hexchange' .processing hfails hfails'⟩

/-- Client and worker agree on the four requests, one of which fails. -/
theorem conversation_agrees_letter : ∃ storage fuel, storage.Faithful ∧
    let run := (faultyProcess storage fuel diskError).run (letterInput (ofString "a.txt"))
    run.exchanges.length = 4 ∧ (∃ exchange ∈ run.exchanges, exchange.response.isError) ∧
      Conversation plainRuntime (writeAll (letterRequests (ofString "a.txt"))).2 run := by
  obtain ⟨⟨hname, hencodable, hquoted, hbytes⟩, -⟩ := letterName_short
  obtain ⟨storage, fuel, faithful, foreign, hruns⟩ := letter_runs hname hencodable hquoted hbytes
  obtain ⟨_, _, _, _, _, _, -, hexchanges, -⟩ := hruns diskError rfl
  have hlimit : maxHeaderBytes = 65536 := rfl
  have hsent := letterRequests_sent hencodable (by omega)
  refine ⟨storage, fuel, faithful, ?_, ?_, ?_⟩
  · rw [hexchanges]
    rfl
  · rw [hexchanges]
    obtain ⟨exchange, hexchange, herror, -⟩ := letterExchanges_fail diskError rfl
    exact ⟨exchange, hexchange, herror⟩
  · exact conversation_agrees plainRuntime (by decide) (faultyProcess storage fuel diskError) rfl
      (fun _ => faultyCalls_foreign foreign fuel rfl) (fun _ => faultyCalls_stable storage fuel _)
      (letterRequests (ofString "a.txt"))
      (fun request hrequest => ⟨(hsent request hrequest).1, (hsent request hrequest).2.2⟩)
      (letterInput (ofString "a.txt")) rfl

/-- Three received messages are forwarded: two texts, the header of the first in ASCII although
its filename is not, and a read. -/
theorem received_frames_round_trip_letter : ∃ text opened other asked,
    (∀ c ∈ text, c.val < 0x80) ∧
    (∃ stream next : ByteSource, stream.data = frameBytes (openLetterMessage [0xE9]) (utf8 text) ∧
      ProtocolCodec.read (loads plainRuntime) stream = .ok (opened, next)) ∧
    opened.view = (openLetterMessage [0xE9]).view ∧
    other.view = (openLetterMessage (ofString "a.txt")).view ∧
    asked.view = readLetterMessage.view ∧
    (writeAll [opened, other, asked]).2 = [opened, other, asked] ∧
    Forwarded (loads plainRuntime) [opened, other, asked] := by
  have hlimit : maxHeaderBytes = 65536 := rfl
  have hdepth : 3 ≤ plainRuntime.maxDepth := by decide
  have haccent : Encodable [0xE9] ∧ Json.quotedSize [0xE9] = 4 := by decide
  obtain ⟨⟨hname, hencodable, hquoted, -⟩, -⟩ := letterName_short
  obtain ⟨hopen, -⟩ := List.forall_mem_cons.mp (letterRequests_sent haccent.1 (by omega))
  obtain ⟨hother, hrest⟩ := List.forall_mem_cons.mp (letterRequests_sent hencodable (by omega))
  obtain ⟨hasked, -⟩ := List.forall_mem_cons.mp hrest
  -- the first is read in ASCII, the others as the worker's own codec writes them
  obtain ⟨text, hascii, hreads⟩ := read_ascii hdepth hopen.1 hopen.2.1 hopen.2.2
    (by rw [openLetterMessage_size]; omega)
  obtain ⟨opened, afterOpened, hopenedRead, hopenedView, -⟩ := hreads [] ⟨_, fun _ => 1⟩
    (List.append_nil _).symm
  have hwritten {message : ProtocolMessage} (hmessage : Sendable message ∧ Writable message ∧
      ReadableHeader plainRuntime message.header) : ∃ received next,
      ProtocolCodec.read (loads plainRuntime) ⟨(write message).1, fun _ => 7⟩
        = .ok (received, next) ∧ received.view = message.view ∧ next.data = [] :=
    read_written hmessage.1 hmessage.2.1 (loadsBack_readable hdepth hmessage.1 hmessage.2.2)
      (List.append_nil _).symm
  obtain ⟨other, afterOther, hotherRead, hotherView, -⟩ := hwritten hother
  obtain ⟨asked, afterAsked, haskedRead, haskedView, -⟩ := hwritten hasked
  have hforwarded : Forwarded (loads plainRuntime) [opened, other, asked] :=
    received_frames_round_trip plainRuntime hdepth _ (by
      simp only [List.forall_mem_cons]
      exact ⟨⟨_, _, hopenedRead⟩, ⟨_, _, hotherRead⟩, ⟨_, _, haskedRead⟩, List.forall_mem_nil _⟩)
  -- they can be written since the messages that they were received for can
  have hrewritable {received message : ProtocolMessage} {stream next : ByteSource}
      (hread : ProtocolCodec.read (loads plainRuntime) stream = .ok (received, next))
      (hview : received.view = message.view) (hsendable : Sendable message)
      (hwritable : Writable message) : Rewritable received :=
    (read_writable_iff hread).mp
      (writable_of_view hview (read_sendable hread).1 hsendable hwritable)
  refine ⟨text, opened, other, asked, hascii, ⟨_, _, rfl, hopenedRead⟩, hopenedView, hotherView,
    haskedView, hforwarded.all_written ?_, hforwarded⟩
  simp only [List.forall_mem_cons]
  exact ⟨hrewritable hopenedRead hopenedView hopen.1 hopen.2.1,
    hrewritable hotherRead hotherView hother.1 hother.2.1,
    hrewritable haskedRead haskedView hasked.1 hasked.2.1, List.forall_mem_nil _⟩

end ConferWorker
