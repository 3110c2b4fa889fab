import ConferWorker.ApplicationErrors

/-! Every message is answered, unless an answer does not fit into a frame: `_write`
stands outside the try block of `_handle`, and what it raises leaves the run. -/
namespace ConferWorker

open ProtocolCodec ProtocolPresenter

variable {Reader Content : Type}

/-- The answer to the request fits into a frame, in terms of what the collaborators return.
For a read this bounds the header, which holds the ids of the regions and the labels of the
containers in the window; for the other requests it bounds the payloads. -/
def AnswerFits (calls : WorkerCalls Reader Content) (session : DocumentSession Reader) :
    WorkerRequest (workerTypes Reader Content) → Prop
  | .session (.read request) => ∀ reader window, session.find request.documentId = some reader →
    calls.session.readContainers reader.reader request.containerNumber request.containerCount
      = .ok window → Encodable (WindowValue.text window) → WindowValue.Fits window
  | .session (.overview request) => ∀ reader metadata outline labels firstChunkId content,
    session.find request.documentId = some reader →
    calls.session.metadata reader.reader = .ok metadata →
    calls.session.outline reader.reader 500 = .ok outline →
    calls.session.labeledContainers reader.reader = .ok labels →
    calls.session.firstChunkId reader.reader = .ok firstChunkId →
    calls.session.fullTextIfSmall reader.reader maxInlineContentBytes = .ok content →
      OverviewFits metadata outline labels firstChunkId content
  | .session (.search request) => ∀ reader hits, session.find request.documentId = some reader →
    calls.session.search reader.reader request.queries (request.limit+1)
      request.snippetCharacters = .ok hits →
      SearchFits (hits.take request.limit) (request.limit < hits.length)
  | .session (.render request) => ∀ reader page, session.find request.documentId = some reader →
    calls.session.renderFromReader request.source reader.reader request.containerNumber
      request.dpi = .ok page → RenderedPage.Fits page
  | .extract request => ∀ content built,
    calls.extract request.source request.filename request.mediaType = .ok content →
    calls.write content = .ok built → (decodeUtf8 built.text).isSome = true →
    built.artifact.length = built.length →
      (ExtractDocumentResult.mk built.text built.artifact built.length).Fits
  | .session _ => True

section Executed

variable {T : SessionTypes} {calls : SessionCalls T} {session : DocumentSession T.Reader}
  {response : SessionResponse T}

theorem ask_eq_ok {id : Str} {request : SessionRequest T} :
    (DocumentSession.ask calls session id request).2 = .ok response ↔
      ∃ reader, session.find id = some reader ∧
        DocumentSession.answer calls reader.reader request = .ok response := by
  rw [DocumentSession.ask]
  rcases session.find id with _ | reader <;> simp

/-- A request to an open document leaves a fresh use of its reader. -/
theorem ask_found {id : Str} {openReader : OpenReader T.Reader}
    (hfind : session.find id = some openReader) (request : SessionRequest T) :
    DocumentSession.ask calls session id request
      = (session.use openReader, DocumentSession.answer calls openReader.reader request) := by
  unfold DocumentSession.ask
  rw [hfind]

theorem asOperationError_eq_ok {α : Type} {message : Str} {result : Except PythonError α}
    {a : α} : DocumentSession.asOperationError message result = .ok a ↔ result = .ok a := by
  unfold DocumentSession.asOperationError
  split
  · exact Iff.rfl
  · split_ifs <;> simp

theorem execute_overview {request : GetDocumentOverviewRequest} :
    (session.execute calls (.overview request)).2 = .ok response ↔
      ∃ reader, session.find request.documentId = some reader ∧
        ∃ metadata, calls.metadata reader.reader = .ok metadata ∧
        ∃ outline, calls.outline reader.reader 500 = .ok outline ∧
        ∃ labels, calls.labeledContainers reader.reader = .ok labels ∧
        ∃ firstChunkId, calls.firstChunkId reader.reader = .ok firstChunkId ∧
        ∃ content, calls.fullTextIfSmall reader.reader maxInlineContentBytes = .ok content ∧
          .overview metadata outline labels firstChunkId content = response := by
  rw [DocumentSession.execute, ask_eq_ok]
  simp only [DocumentSession.answer, bind_eq_ok, pure_eq_ok]

theorem execute_search {request : SearchDocumentRequest} :
    (session.execute calls (.search request)).2 = .ok response ↔
      ∃ reader, session.find request.documentId = some reader ∧
        ∃ hits, calls.search reader.reader request.queries (request.limit+1)
          request.snippetCharacters = .ok hits ∧
          .search (hits.take request.limit) (request.limit < hits.length) = response := by
  rw [DocumentSession.execute, ask_eq_ok]
  apply exists_congr
  intro reader
  apply and_congr_right
  intro _
  rw [DocumentSession.answer]
  rcases calls.search reader.reader request.queries (request.limit+1) request.snippetCharacters
    with error | hits
  · dsimp only
    split_ifs <;> simp
  · simp

theorem execute_read {request : ReadDocumentRequest} :
    (session.execute calls (.read request)).2 = .ok response ↔
      ∃ reader, session.find request.documentId = some reader ∧
        ∃ window, calls.readContainers reader.reader request.containerNumber
          request.containerCount = .ok window ∧ .read window = response := by
  rw [DocumentSession.execute, ask_eq_ok]
  apply exists_congr
  intro reader
  apply and_congr_right
  intro _
  rw [DocumentSession.answer]
  rcases calls.readContainers reader.reader request.containerNumber request.containerCount
    with error | window
  · dsimp only
    split_ifs <;> simp
  · simp

theorem execute_render {request : RenderDocumentPageRequest T} :
    (session.execute calls (.render request)).2 = .ok response ↔
      ∃ reader, session.find request.documentId = some reader ∧
        ∃ page, calls.renderFromReader request.source reader.reader request.containerNumber
          request.dpi = .ok page ∧ .render page = response := by
  rw [DocumentSession.execute, ask_eq_ok]
  simp only [DocumentSession.answer, bind_eq_ok, asOperationError_eq_ok, pure_eq_ok]

theorem execute_openText {request : OpenTextDocumentRequest T} {content : T.Content}
    {artifact : T.Artifact} {reader : T.Reader}
    (hcapacity : session.requireOpenCapacity request.documentId = .ok ())
    (hextract : calls.extract request.source request.filename (ofString "text/plain")
      = .ok content)
    (hwrite : calls.write content = .ok artifact) (hreader : calls.readerFactory artifact
      = .ok reader) :
    session.execute calls (.openText request)
      = (session.register request.documentId reader, .ok .empty) := by
  have hbuild : DocumentSession.buildReader calls (.openText request) = .ok reader := by
    rw [DocumentSession.buildReader, asOperationError_eq_ok, hextract, ok_bind, hwrite, ok_bind,
      hreader]
  rw [DocumentSession.execute, DocumentSession.openReader, hcapacity, hbuild]

/-- A request that does not ask a reader is answered with an empty response. -/
theorem execute_empty {request : SessionRequest T} (h : request.queries = false)
    (hresponse : (session.execute calls request).2 = .ok response) : response = .empty := by
  have hopen (id : Str) (request : SessionRequest T)
      (h : (DocumentSession.openReader calls session id request).2 = .ok response) :
      response = .empty := by
    unfold DocumentSession.openReader at h
    split at h
    · cases h
    · split at h
      · cases h
      · exact (Except.ok.inj h).symm
  cases request with
  | openDocument request => exact hopen _ _ hresponse
  | openText request => exact hopen _ _ hresponse
  | release request => exact (Except.ok.inj hresponse).symm
  | close => exact (Except.ok.inj hresponse).symm
  | _ => cases h

end Executed

/-- The condition is about the response of the application, if there is one. -/
theorem answerFits_iff (calls : WorkerCalls Reader Content) (session : DocumentSession Reader)
    (request : WorkerRequest (workerTypes Reader Content)) :
    AnswerFits calls session request ↔ ∀ response,
      (handleRequest calls session request).2 = .ok response → ResponseFits response := by
  rcases request with request | request
  · have hhandle : (handleRequest calls session (.extract request)).2
        = WorkerResponse.extracted <$> executeExtract calls request := rfl
    rw [hhandle, AnswerFits]
    simp only [map_eq_ok, executeExtract, bind_eq_ok, pure_eq_ok]
    constructor
    · rintro h _ ⟨_, ⟨content, hcontent, built, hbuilt, rfl⟩, rfl⟩
      exact h content built hcontent hbuilt
    · intro h content built hcontent hbuilt
      exact h _ ⟨_, ⟨content, hcontent, built, hbuilt, rfl⟩, rfl⟩
  · have hhandle : (handleRequest calls session (.session request)).2
        = WorkerResponse.session <$> (session.execute calls.session request).2 := rfl
    rw [hhandle]
    simp only [map_eq_ok]
    -- each operation answers exactly when its reader is open and all its calls return
    cases request with
    | overview request =>
      constructor
      · rintro h _ ⟨response, hresponse, rfl⟩
        obtain ⟨reader, hfind, metadata, hmetadata, outline, houtline, labels, hlabels,
          firstChunkId, hfirst, content, hcontent, rfl⟩ := execute_overview.mp hresponse
        exact h reader metadata outline labels firstChunkId content hfind hmetadata houtline
          hlabels hfirst hcontent
      · intro h reader metadata outline labels firstChunkId content hfind hmetadata houtline hlabels
          hfirst hcontent
        exact h _ ⟨_, execute_overview.mpr ⟨reader, hfind, metadata, hmetadata, outline, houtline,
          labels, hlabels, firstChunkId, hfirst, content, hcontent, rfl⟩, rfl⟩
    | search request =>
      constructor
      · rintro h _ ⟨response, hresponse, rfl⟩
        obtain ⟨reader, hfind, hits, hhits, rfl⟩ := execute_search.mp hresponse
        exact h reader hits hfind hhits
      · intro h reader hits hfind hhits
        exact h _ ⟨_, execute_search.mpr ⟨reader, hfind, hits, hhits, rfl⟩, rfl⟩
    | read request =>
      constructor
      · rintro h _ ⟨response, hresponse, rfl⟩
        obtain ⟨reader, hfind, window, hwindow, rfl⟩ := execute_read.mp hresponse
        exact h reader window hfind hwindow
      · intro h reader window hfind hwindow
        exact h _ ⟨_, execute_read.mpr ⟨reader, hfind, window, hwindow, rfl⟩, rfl⟩
    | render request =>
      constructor
      · rintro h _ ⟨response, hresponse, rfl⟩
        obtain ⟨reader, hfind, page, hpage, rfl⟩ := execute_render.mp hresponse
        exact h reader page hfind hpage
      · intro h reader page hfind hpage
        exact h _ ⟨_, execute_render.mpr ⟨reader, hfind, page, hpage, rfl⟩, rfl⟩
    | _ =>
      refine ⟨?_, fun _ => trivial⟩
      rintro _ _ ⟨response, hresponse, rfl⟩
      rw [execute_empty rfl hresponse]
      trivial

/-- A response that carries short texts only is sent. -/
theorem errorHeader_writable {response : ProtocolMessage} {code message : Str}
    (hheader : response.header = errorHeader code message) (hpayloads : response.payloads = [])
    (hcode : ShortText code) (hmessage : ShortText message) :
    Sendable response ∧ Writable response := by
  have hkeys : Encodable (ofString "version") ∧ Encodable (ofString "status") ∧
      Encodable (ofString "error") ∧ Encodable (ofString "code") ∧
      Encodable (ofString "message") ∧ Encodable payloadsKey := by decide
  have hsizes : Json.quotedSize (ofString "version") = 9 ∧
      Json.quotedSize (ofString "status") = 8 ∧ Json.quotedSize (ofString "error") = 7 ∧
      Json.quotedSize (ofString "code") = 6 ∧ Json.quotedSize (ofString "message") = 9 ∧
      (Json.intText 1).length = 1 := by decide
  have hone : (1 : ℤ).natAbs < Json.intLimit := Json.lt_intLimit (by decide)
  have hlimit : maxHeaderBytes = 65536 := rfl
  obtain ⟨hcodeText, hcodeSize⟩ := hcode
  obtain ⟨hmessageText, hmessageSize⟩ := hmessage
  refine ⟨⟨?_, ?_⟩, ⟨?_, ?_, ?_, ?_⟩⟩
  · rw [hheader]
    intro member hmember
    simp only [errorHeader, List.mem_cons, List.not_mem_nil, or_false] at hmember
    rcases hmember with rfl | rfl | rfl
    · decide
    · decide
    · exact (by decide : ofString "error" ≠ payloadsKey)
  · rw [hpayloads]
    exact List.forall_mem_nil _
  · simp only [ProtocolMessage.sentHeader, hheader, hpayloads, errorHeader, descriptors,
      List.cons_append, List.nil_append, List.map_nil, Json.Dumpable, Json.MembersDumpable,
      Json.ItemsDumpable, hkeys, hone, hcodeText, hmessageText, and_self]
  · rw [sentHeader_size, hheader, hpayloads]
    simp only [errorHeader, descriptors, List.map_nil, Json.size, Json.membersSize, Json.itemsSize,
      hsizes]
    omega
  · rw [hpayloads]
    exact List.forall_mem_nil _
  · rw [hpayloads]
    exact Nat.zero_le _

theorem invalidRequest_writable {message : Str} (h : ShortText message) :
    Sendable (invalidRequest message) ∧ Writable (invalidRequest message) :=
  errorHeader_writable rfl rfl (by decide) h

theorem processingFailed_writable : Sendable processingFailed ∧ Writable processingFailed :=
  errorHeader_writable rfl rfl (by decide) (by decide)

section Exchanges

variable {calls : WorkerCalls Reader Content}

theorem respond_eq (session : DocumentSession Reader)
    (request : WorkerRequest (workerTypes Reader Content)) :
    (respond calls session request).2 =
      match (handleRequest calls session request).2 >>= present with
      | .ok response => response
      | .error error =>
        if error.isApplicationError then invalidRequest error.message else processingFailed := by
  unfold respond
  cases h : (handleRequest calls session request).2 >>= present with
  | error error => simp only [h]
  | ok response => simp only [h]

theorem respond_session (session : DocumentSession Reader)
    (request : WorkerRequest (workerTypes Reader Content)) :
    (respond calls session request).1 = (handleRequest calls session request).1 := by
  unfold respond
  dsimp only
  split <;> rfl

/-- The message for a response of the application. -/
theorem respond_response {session : DocumentSession Reader}
    {request : WorkerRequest (workerTypes Reader Content)}
    {response : WorkerResponse (workerTypes Reader Content)}
    (h : (handleRequest calls session request).2 = .ok response) :
    Sendable (respond calls session request).2 ∧
      (Writable (respond calls session request).2 ↔ ResponseFits response) := by
  rw [respond_eq, h, ok_bind]
  rcases present_answers response with ⟨message, hmessage, hsendable, hwritable⟩ |
      ⟨error, herror, hforeign, hfits⟩
  · rw [hmessage]
    exact ⟨hsendable, hwritable⟩
  · rw [herror]
    dsimp only
    rw [if_neg (by rw [hforeign]; decide)]
    obtain ⟨hsendable, hwritable⟩ := processingFailed_writable
    exact ⟨hsendable, iff_of_true hwritable hfits⟩

/-- An exchange whose response fits is answered. -/
theorem serve_fits {session : DocumentSession Reader}
    {request : WorkerRequest (workerTypes Reader Content)}
    {response : WorkerResponse (workerTypes Reader Content)}
    (h : (handleRequest calls session request).2 = .ok response) (message : ProtocolMessage) :
    (serve calls session message request).outcome = .ok () ↔ ResponseFits response := by
  obtain ⟨hsendable, hwritable⟩ := respond_response h
  exact (write_returns_iff hsendable).trans hwritable

/-- The session after an exchange is the one that the application leaves. -/
theorem serve_after (session : DocumentSession Reader) (message : ProtocolMessage)
    (request : WorkerRequest (workerTypes Reader Content)) :
    (serve calls session message request).after = (handleRequest calls session request).1 :=
  respond_session session request

/-- The message for an error of the application. -/
theorem respond_error (foreign : calls.Foreign) {session : DocumentSession Reader}
    {request : WorkerRequest (workerTypes Reader Content)} {error : PythonError}
    (h : (handleRequest calls session request).2 = .error error) :
    Sendable (respond calls session request).2 ∧ Writable (respond calls session request).2 := by
  rw [respond_eq, h]
  change Sendable (if error.isApplicationError = true then _ else _) ∧
    Writable (if error.isApplicationError = true then _ else _)
  split_ifs with happlication
  · exact invalidRequest_writable
      ((handleRequest_raises foreign session request error h).answerable happlication)
  · exact processingFailed_writable

/-- The response of `_handle` is sent exactly when the answer fits. -/
theorem respond_writable_iff (foreign : calls.Foreign) (session : DocumentSession Reader)
    (request : WorkerRequest (workerTypes Reader Content)) :
    Sendable (respond calls session request).2 ∧
      (Writable (respond calls session request).2 ↔ AnswerFits calls session request) := by
  rw [answerFits_iff]
  rcases hhandle : (handleRequest calls session request).2 with error | response
  · obtain ⟨hsendable, hwritable⟩ := respond_error foreign hhandle
    exact ⟨hsendable, iff_of_true hwritable (fun response h => by cases h)⟩
  · simp only [Except.ok.injEq, forall_eq']
    exact respond_response hhandle

end Exchanges

namespace Exchange

/-- One whole frame was written for the message. -/
def Answered (exchange : Exchange Reader Content) : Prop :=
  exchange.outcome = .ok () ∧ IsFrame exchange.written

/-- If the message is handled, the answer fits. -/
def Fits (exchange : Exchange Reader Content) : Prop :=
  ∀ request, exchange.request = .ok request →
    AnswerFits exchange.calls exchange.before request

/-- The message ends the run: an extraction, `session_close`, or a refused first message. -/
def endsRun (exchange : Exchange Reader Content) (first : Bool) : Bool :=
  match exchange.request with
  | .error _ => first
  | .ok (.extract _) => true
  | .ok (.session .close) => true
  | .ok (.session _) => false

end Exchange

theorem serve_answered_iff {calls : WorkerCalls Reader Content} (foreign : calls.Foreign)
    (session : DocumentSession Reader) (message : ProtocolMessage)
    (request : WorkerRequest (workerTypes Reader Content)) :
    (serve calls session message request).Answered ↔
      (serve calls session message request).Fits := by
  obtain ⟨hsendable, hwritable⟩ := respond_writable_iff foreign session request
  have hfits : (serve calls session message request).Fits ↔ AnswerFits calls session request := by
    constructor
    · exact fun h => h request rfl
    · intro h other hother
      obtain rfl : request = other := Except.ok.inj hother
      exact h
  rw [hfits, ← hwritable, ← write_returns_iff hsendable]
  exact ⟨And.left, fun h => ⟨h, write_frame hsendable h⟩⟩

theorem refuse_answered {calls : WorkerCalls Reader Content} {session : DocumentSession Reader}
    {message : ProtocolMessage} {text : Str} (h : ShortText text) :
    (refuse calls session message text).Answered ∧ (refuse calls session message text).Fits := by
  obtain ⟨hsendable, hwritable⟩ := invalidRequest_writable h
  have hreturns := (write_returns_iff hsendable).mpr hwritable
  exact ⟨⟨hreturns, write_frame hsendable hreturns⟩, fun request hrequest => by cases hrequest⟩

/-- Every message that was read got one frame, in order, up to the end of the input or to a
message that ends the run. -/
inductive Answered : Bool → List (Exchange Reader Content) → WorkerEnding → Prop
  | unread (first : Bool) (error : PythonError) : Answered first [] (.unread error)
  | last (first : Bool) (exchange : Exchange Reader Content) (answered : exchange.Answered)
      (ends : exchange.endsRun first = true) : Answered first [exchange] .returned
  | more (first : Bool) (exchange : Exchange Reader Content)
      (rest : List (Exchange Reader Content)) (ending : WorkerEnding)
      (answered : exchange.Answered) (continues : exchange.endsRun first = false)
      (others : Answered false rest ending) : Answered first (exchange :: rest) ending

/-- A run is answered exactly when every answer in it fits. -/
def WorkerRun.AnsweredIff (first : Bool) (run : WorkerRun Reader Content) : Prop :=
  Answered first run.exchanges run.ending ↔ ∀ exchange ∈ run.exchanges, exchange.Fits

end ConferWorker
