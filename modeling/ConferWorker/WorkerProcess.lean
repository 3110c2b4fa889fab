import ConferWorker.ArtifactWriter
import ConferWorker.DocumentSession
import ConferWorker.ProtocolPresenter
import ConferWorker.ReceivedMessages

/-! `WorkerApplication` and `WorkerProcess`: messages are read one after the other,
each is answered, and the session is closed at the end. -/
namespace ConferWorker

/-- The collaborators of the worker during one request: those of the session, the
extractor and the artifact writer. -/
structure WorkerCalls (Reader Content : Type) where
  session : SessionCalls (workerTypes Reader Content)
  extract : DocumentSource → Str → Str → Except PythonError Content
  write : Content → Except PythonError ArtifactWriter.BuildResult

variable {Reader Content : Type}

/-- `ExtractDocument.execute`. -/
def executeExtract (calls : WorkerCalls Reader Content) (request : ExtractDocumentRequest) :
    Except PythonError ExtractDocumentResult := do
  let content ← calls.extract request.source request.filename request.mediaType
  let artifact ← calls.write content
  pure ⟨artifact.text, artifact.artifact, artifact.length⟩

/-- `WorkerApplication.handle`. -/
def handleRequest (calls : WorkerCalls Reader Content) (session : DocumentSession Reader) :
    WorkerRequest (workerTypes Reader Content) →
      DocumentSession Reader × Except PythonError (WorkerResponse (workerTypes Reader Content))
  | .session request =>
    let (session, response) := session.execute calls.session request
    (session, WorkerResponse.session <$> response)
  | .extract request => (session, WorkerResponse.extracted <$> executeExtract calls request)

/-- The header of a response that says what went wrong. -/
def errorHeader (code message : Str) : List (Str × Json) :=
  [(ofString "version", .int 1), (ofString "status", .str (ofString "error")),
    (ofString "error", .obj [(ofString "code", .str code), (ofString "message", .str message)])]

/-- `_invalid_request`. -/
def invalidRequest (message : Str) : ProtocolMessage :=
  ⟨errorHeader (ofString "invalid_request") message, [], List.nodup_nil,
    ProtocolMessage.no_payloads_media_types⟩

/-- `_processing_failed`. -/
def processingFailed : ProtocolMessage :=
  ⟨errorHeader (ofString "processing_failed") (ofString "Document processing failed"), [],
    List.nodup_nil, ProtocolMessage.no_payloads_media_types⟩

/-- `DocumentOperationError` and `InvalidWorkerRequestError`. -/
def PythonError.isApplicationError (error : PythonError) : Bool :=
  error.errorClass == .invalidWorkerRequest || error.errorClass == .documentOperation

/-- The response of `_handle` and the session after it. -/
def respond (calls : WorkerCalls Reader Content) (session : DocumentSession Reader)
    (request : WorkerRequest (workerTypes Reader Content)) :
    DocumentSession Reader × ProtocolMessage :=
  let (session, answer) := handleRequest calls session request
  match answer >>= ProtocolPresenter.present with
  | .ok response => (session, response)
  | .error error =>
    (session, if error.isApplicationError then invalidRequest error.message else processingFailed)

/-- A message that was read, what it asks for or why it is refused, and what was
written for it. -/
structure Exchange (Reader Content : Type) where
  message : ProtocolMessage
  calls : WorkerCalls Reader Content
  before : DocumentSession Reader
  request : Except Str (WorkerRequest (workerTypes Reader Content))
  after : DocumentSession Reader
  written : Bytes
  outcome : Except PythonError Unit

/-- `self._write(self._invalid_request(text))`. -/
def refuse (calls : WorkerCalls Reader Content) (session : DocumentSession Reader)
    (message : ProtocolMessage) (text : Str) : Exchange Reader Content :=
  let (written, outcome) := ProtocolCodec.write (invalidRequest text)
  ⟨message, calls, session, .error text, session, written, outcome⟩

/-- `_handle`. -/
def serve (calls : WorkerCalls Reader Content) (session : DocumentSession Reader)
    (message : ProtocolMessage) (request : WorkerRequest (workerTypes Reader Content)) :
    Exchange Reader Content :=
  let (after, response) := respond calls session request
  let (written, outcome) := ProtocolCodec.write response
  ⟨message, calls, session, .ok request, after, written, outcome⟩

/-- How a run ends: it returns, or an exception leaves it. -/
inductive WorkerEnding
  | returned
  | unread (error : PythonError)
  | undecoded (message : ProtocolMessage) (error : PythonError)
  | unwritten (error : PythonError)

structure WorkerRun (Reader Content : Type) where
  exchanges : List (Exchange Reader Content)
  ending : WorkerEnding
  session : DocumentSession Reader

/-- What is on the output stream after a run. -/
def WorkerRun.output (run : WorkerRun Reader Content) : Bytes :=
  run.exchanges.flatMap Exchange.written

/-- The rest of a run follows an exchange whose `_write` returned. -/
def Exchange.andThen (exchange : Exchange Reader Content) (rest : WorkerRun Reader Content) :
    WorkerRun Reader Content :=
  match exchange.outcome with
  | .error error => ⟨[exchange], .unwritten error, exchange.after⟩
  | .ok () => { rest with exchanges := exchange :: rest.exchanges }

/-- What a worker runs with: `calls i` are the collaborators during its `i`-th exchange. -/
structure WorkerProcess (Reader Content : Type) where
  loads : JsonLoads
  sha256 : Sha256
  calls : ℕ → WorkerCalls Reader Content

namespace WorkerProcess

/-- `_decode`: a request, or the text with which the message is refused. -/
def decode (process : WorkerProcess Reader Content) (message : ProtocolMessage) :
    Except PythonError (Except Str (WorkerRequest (workerTypes Reader Content))) :=
  match RequestDecoder.decode process.sha256.hexdigest message with
  | .ok request => .ok (.ok request)
  | .error error =>
    if error.errorClass = .invalidWorkerRequest then .ok (.error error.message) else .error error

def sessionOnlyMessage : Str := ofString "Only document session operations are allowed"

/-- `_run_session` from the `n`-th exchange on. -/
def runSession (process : WorkerProcess Reader Content) (n : ℕ)
    (session : DocumentSession Reader) (stream : ByteSource) : WorkerRun Reader Content :=
  match _h : ProtocolCodec.read process.loads stream with
  | .error error => ⟨[], .unread error, session⟩
  | .ok (message, next) =>
    match process.decode message with
    | .error error => ⟨[], .undecoded message error, session⟩
    | .ok (.error text) =>
      (refuse (process.calls n) session message text).andThen
        (runSession process (n+1) session next)
    | .ok (.ok (.extract _)) =>
      (refuse (process.calls n) session message sessionOnlyMessage).andThen
        (runSession process (n+1) session next)
    | .ok (.ok (.session .close)) =>
      let exchange := serve (process.calls n) session message (.session .close)
      exchange.andThen ⟨[], .returned, exchange.after⟩
    | .ok (.ok request) =>
      let exchange := serve (process.calls n) session message request
      exchange.andThen (runSession process (n+1) exchange.after next)
termination_by stream.data.length
decreasing_by all_goals exact (read_ok _h).2

/-- The part of `run` inside its try block. -/
def serveAll (process : WorkerProcess Reader Content) (stream : ByteSource) :
    WorkerRun Reader Content :=
  match ProtocolCodec.read process.loads stream with
  | .error error => ⟨[], .unread error, .initial⟩
  | .ok (message, next) =>
    match process.decode message with
    | .error error => ⟨[], .undecoded message error, .initial⟩
    | .ok (.error text) =>
      (refuse (process.calls 0) .initial message text).andThen ⟨[], .returned, .initial⟩
    | .ok (.ok (.extract request)) =>
      let exchange := serve (process.calls 0) .initial message (.extract request)
      exchange.andThen ⟨[], .returned, exchange.after⟩
    | .ok (.ok (.session .close)) =>
      let exchange := serve (process.calls 0) .initial message (.session .close)
      exchange.andThen ⟨[], .returned, exchange.after⟩
    | .ok (.ok request) =>
      let exchange := serve (process.calls 0) .initial message request
      exchange.andThen (process.runSession 1 exchange.after next)

/-- `run`: `application.close()` comes last, however the rest ended. -/
def run (process : WorkerProcess Reader Content) (stream : ByteSource) :
    WorkerRun Reader Content :=
  let served := process.serveAll stream
  { served with session := served.session.close }

end WorkerProcess

end ConferWorker
