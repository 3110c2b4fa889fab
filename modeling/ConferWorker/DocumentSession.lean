import ConferWorker.SessionRequests

/-! `DocumentSession`: the open readers by document id, and a ghost history of
what happened to each reader that was ever built. -/
namespace ConferWorker

/-- A reader and the number of readers built before it. -/
structure OpenReader (Reader : Type) where
  serial : ℕ
  reader : Reader

/-- What can happen to a reader. -/
inductive ReaderEvent
  | built | used | closed
  deriving DecidableEq, Repr

/-- `readers` is the state of the source; `built` and `history` are ghosts. -/
structure DocumentSession (Reader : Type) where
  readers : List (Str × OpenReader Reader)
  built : ℕ
  history : List (ℕ × ReaderEvent)

def maxDocuments : ℕ := 1000

def maxInlineContentBytes : ℕ := 24000

namespace DocumentSession

variable {Reader : Type}

/-- `DocumentSession(...)`. -/
def initial : DocumentSession Reader := ⟨[], 0, []⟩

/-- `self.readers.get(document_id)`. -/
def find (session : DocumentSession Reader) (id : Str) : Option (OpenReader Reader) :=
  session.readers.lookup id

/-- `self.readers[document_id] = reader` for a reader just built. -/
def register (session : DocumentSession Reader) (id : Str) (reader : Reader) :
    DocumentSession Reader where
  readers := session.readers++[(id, ⟨session.built, reader⟩)]
  built := session.built+1
  history := session.history++[(session.built, .built)]

/-- Methods of an open reader are called. -/
def use (session : DocumentSession Reader) (openReader : OpenReader Reader) :
    DocumentSession Reader :=
  { session with history := session.history++[(openReader.serial, .used)] }

/-- `self.readers.pop(document_id)` and `reader.close()`. -/
def remove (session : DocumentSession Reader) (id : Str) (openReader : OpenReader Reader) :
    DocumentSession Reader :=
  { session with
    readers := session.readers.filter (fun entry => entry.1 ≠ id)
    history := session.history++[(openReader.serial, .closed)] }

/-- `close`. -/
def close (session : DocumentSession Reader) : DocumentSession Reader :=
  { session with
    readers := []
    history := session.history
      ++session.readers.map (fun entry => (entry.2.serial, ReaderEvent.closed)) }

/-- `_require_open_capacity`. -/
def requireOpenCapacity (session : DocumentSession Reader) (id : Str) : Except PythonError Unit := do
  raiseIf (session.find id).isSome
    (.documentOperation (ofString "Document is already open"))
  raiseIf (maxDocuments ≤ session.readers.length)
    (.documentOperation (ofString "Document session capacity exceeded"))

variable {T : SessionTypes}

/-- `except (OSError, ValueError) as error: raise DocumentOperationError(message)`. -/
def asOperationError {α : Type} (message : Str) (result : Except PythonError α) :
    Except PythonError α :=
  match result with
  | .ok a => .ok a
  | .error error =>
    if error.isOsError || error.isValueError then .error (.documentOperation message)
    else .error error

/-- The reader that `_open` or `_open_text` builds. -/
def buildReader (calls : SessionCalls T) : SessionRequest T → Except PythonError T.Reader
  | .openDocument request =>
    asOperationError (ofString "Document artifact is invalid")
      (calls.readerFactory request.artifact)
  | .openText request =>
    asOperationError (ofString "Legacy document text is invalid") do
      let content ← calls.extract request.source request.filename (ofString "text/plain")
      let artifact ← calls.write content
      calls.readerFactory artifact
  | _ => .error (.typeError (ofString "unknown document session request type"))

/-- `_open` and `_open_text`. -/
def openReader (calls : SessionCalls T) (session : DocumentSession T.Reader) (id : Str)
    (request : SessionRequest T) :
    DocumentSession T.Reader × Except PythonError (SessionResponse T) :=
  match session.requireOpenCapacity id with
  | .error error => (session, .error error)
  | .ok () =>
    match buildReader calls request with
    | .error error => (session, .error error)
    | .ok reader => (session.register id reader, .ok .empty)

/-- What `_overview`, `_search`, `_read` and `_render` ask an open reader. -/
def answer (calls : SessionCalls T) (reader : T.Reader) :
    SessionRequest T → Except PythonError (SessionResponse T)
  | .overview _ => do
    let metadata ← calls.metadata reader
    let outline ← calls.outline reader 500
    let labeledContainers ← calls.labeledContainers reader
    let firstChunkId ← calls.firstChunkId reader
    let content ← calls.fullTextIfSmall reader maxInlineContentBytes
    pure (.overview metadata outline labeledContainers firstChunkId content)
  | .search request =>
    match calls.search reader request.queries (request.limit+1) request.snippetCharacters with
    | .ok fetched => .ok (.search (fetched.take request.limit) (request.limit < fetched.length))
    | .error error =>
      if error.isValueError then
        .error (.documentOperation (ofString "Search query has no searchable terms"))
      else .error error
  | .read request =>
    match calls.readContainers reader request.containerNumber request.containerCount with
    | .ok window => .ok (.read window)
    | .error error =>
      if error.errorClass = .keyError then
        .error (.documentOperation (ofString "Document read target was not found"))
      else if error.isValueError then
        .error (.documentOperation (ofString "Document read is invalid"))
      else .error error
  | .render request => do
    let rendered ← asOperationError (ofString "Document page could not be rendered")
      (calls.renderFromReader request.source reader request.containerNumber request.dpi)
    pure (.render rendered)
  | _ => .error (.typeError (ofString "unknown document session request type"))

/-- `_reader` and the calls that follow it. -/
def ask (calls : SessionCalls T) (session : DocumentSession T.Reader) (id : Str)
    (request : SessionRequest T) :
    DocumentSession T.Reader × Except PythonError (SessionResponse T) :=
  match session.find id with
  | none => (session, .error (.documentOperation (ofString "Document is not open")))
  | some openReader => (session.use openReader, answer calls openReader.reader request)

/-- `_release`. -/
def release (session : DocumentSession T.Reader) (id : Str) : DocumentSession T.Reader :=
  match session.find id with
  | none => session
  | some openReader => session.remove id openReader

/-- `execute`. -/
def execute (calls : SessionCalls T) (session : DocumentSession T.Reader)
    (request : SessionRequest T) :
    DocumentSession T.Reader × Except PythonError (SessionResponse T) :=
  match request with
  | .openDocument open' => openReader calls session open'.documentId request
  | .openText open' => openReader calls session open'.documentId request
  | .overview overview => ask calls session overview.documentId request
  | .search search => ask calls session search.documentId request
  | .read read => ask calls session read.documentId request
  | .render render => ask calls session render.documentId request
  | .release release' => (session.release release'.documentId, .ok .empty)
  | .close => (session.close, .ok .empty)

end DocumentSession

end ConferWorker
