import ConferWorker.DescriptorLimits
import ConferWorker.SessionLifecycle

/-! How many documents a session can hold: every open reader keeps two descriptors of a process
whose service unit allows 512. -/
namespace ConferWorker

open Descriptors

/-- `LimitNOFILE`. -/
def limitNoFile : ℕ := 512

def standardStreams : ℕ := 3

/-- The collaborators of a session, with the two steps of the constructor of a reader in place of
the factory: what is unpacked into the temporary file, and the reader on the connected database. -/
structure ReaderCalls (T : SessionTypes) (Database : Type) where
  session : SessionCalls T
  unpack : T.Artifact → Except PythonError Database
  connect : Database → Except PythonError T.Reader

variable {T : SessionTypes} {Database : Type}

namespace ReaderCalls

variable (calls : ReaderCalls T Database)

/-- What the factory returns if there are descriptors. -/
def outcome (artifact : T.Artifact) : Except PythonError T.Reader :=
  calls.unpack artifact >>= calls.connect

/-- `ArtifactReader.__init__`: the temporary file, the artifact while it is unpacked, and the
connection. -/
def readerInit (artifact : T.Artifact) : Counted T.Reader := do
  take limitNoFile
  dropOnError do
    let database ← during limitNoFile (Script.lift (calls.unpack artifact))
    take limitNoFile
    dropOnError (Script.lift (calls.connect database))

/-- `ArtifactReader.close`. -/
def readerClose : Counted Unit := do
  drop
  drop

/-- `ArtifactWriter.write`: the database file and the connection to it. -/
def writeArtifact (content : T.Content) : Counted T.Artifact :=
  during limitNoFile (duringConnection limitNoFile (Script.lift (calls.session.write content)))

/-- The body of the `try` block of `_open` or `_open_text`. -/
def build : SessionRequest T → Counted T.Reader
  | .openDocument request => calls.readerInit request.artifact
  | .openText request => do
    let content ← Script.lift
      (calls.session.extract request.source request.filename (ofString "text/plain"))
    during limitNoFile do
      let artifact ← calls.writeArtifact content
      calls.readerInit artifact
  | _ => Script.raise (.typeError (ofString "unknown document session request type"))

end ReaderCalls

/-- The message of the `except` clause of `_open` or `_open_text`. -/
def openMessage : SessionRequest T → Str
  | .openText _ => ofString "Legacy document text is invalid"
  | _ => ofString "Document artifact is invalid"

/-- A running session and the open descriptors of its process. -/
structure CountedSession (Reader : Type) where
  session : DocumentSession Reader
  descriptors : ℕ

namespace CountedSession

variable {Reader : Type}

def initial : CountedSession Reader := ⟨.initial, standardStreams⟩

/-- `_open` and `_open_text`. -/
def openReader (calls : ReaderCalls T Database) (state : CountedSession T.Reader) (id : Str)
    (request : SessionRequest T) :
    CountedSession T.Reader × Except PythonError (SessionResponse T) :=
  match state.session.requireOpenCapacity id with
  | .error error => (state, .error error)
  | .ok () =>
    match calls.build request state.descriptors with
    | (.error error, n) => ({ state with descriptors := n },
        DocumentSession.asOperationError (openMessage request) (.error error))
    | (.ok reader, n) => (⟨state.session.register id reader, n⟩, .ok .empty)

/-- `reader.close()` for some readers. -/
def closeReaders (count n : ℕ) : ℕ := (fun n => (ReaderCalls.readerClose n).2)^[count] n

/-- `execute`. -/
def execute (calls : ReaderCalls T Database) (state : CountedSession T.Reader) (request : SessionRequest T) :
    CountedSession T.Reader × Except PythonError (SessionResponse T) :=
  match request with
  | .openDocument open' => openReader calls state open'.documentId request
  | .openText open' => openReader calls state open'.documentId request
  | .release release' =>
    match state.session.find release'.documentId with
    | none => (state, .ok .empty)
    | some openReader =>
      (⟨state.session.remove release'.documentId openReader, closeReaders 1 state.descriptors⟩,
        .ok .empty)
  | .close =>
    (⟨state.session.close, closeReaders state.session.readers.length state.descriptors⟩, .ok .empty)
  | _ =>
    let (session, response) := state.session.execute calls.session request
    ({ state with session := session }, response)

/-- `ProtocolPayload.receive` for each payload of a message; what was received is closed if it
raises. -/
def receive : (payloads : ℕ) → Counted Unit
  | 0 => pure ()
  | payloads+1 => do
    take limitNoFile
    dropOnError (receive payloads)

/-- A message: its payloads, what it asks for or why it is refused, and what the collaborators do
meanwhile. -/
structure Message (T : SessionTypes) (Database : Type) where
  payloads : ℕ
  request : Except Str (SessionRequest T)
  calls : ReaderCalls T Database

/-- An exchange: the payloads are open until the message was answered. `none` is left if a payload
could not be received, for then the run ends. -/
def exchange (state : CountedSession T.Reader) (message : Message T Database) :
    Option (CountedSession T.Reader) × Except PythonError (SessionResponse T) :=
  match receive message.payloads state.descriptors with
  | (.error error, _) => (none, .error error)
  | (.ok (), n) =>
    let (after, response) := match message.request with
      | .ok request => execute message.calls { state with descriptors := n } request
      | .error text => ({ state with descriptors := n }, .error (.invalidWorkerRequest text))
    (some { after with descriptors := after.descriptors-message.payloads }, response)

/-- `isinstance(request, CloseDocumentSessionRequest)`. -/
def Message.closes (message : Message T Database) : Bool :=
  match message.request with
  | .ok .close => true
  | _ => false

/-- The state after a message, while the session runs. -/
def step (state : Option (CountedSession T.Reader)) (message : Message T Database) :
    Option (CountedSession T.Reader) :=
  state.bind (fun state => if message.closes then none else (state.exchange message).1)

end CountedSession

end ConferWorker
