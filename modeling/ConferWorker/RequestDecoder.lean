import ConferWorker.JsonSize
import ConferWorker.ProtocolCodec
import ConferWorker.SessionValues

/-! `DocumentWorkerRequestDecoder`: a message becomes a request, or an
`InvalidWorkerRequestError` that says what is wrong with it. -/
namespace ConferWorker

variable {T : SessionTypes}

structure ExtractDocumentRequest where
  source : DocumentSource
  filename : Str
  mediaType : Str
  filename_required : filename ≠ []
  media_type_required : mediaType ≠ []

/-- The requests of the worker. -/
inductive WorkerRequest (T : SessionTypes)
  | extract (request : ExtractDocumentRequest)
  | session (request : SessionRequest T)

/-- `InvalidWorkerRequestError(f"{name} must be a non-empty string")`. -/
def requiredMessage (name : Str) : PythonError :=
  .invalidWorkerRequest (name++ofString " must be a non-empty string")

/-- A name with the check that it is not empty. -/
def requireName {α : Type} (name value : Str) (build : value ≠ [] → Except PythonError α) :
    Except PythonError α :=
  if h : value ≠ [] then build h else .error (requiredMessage name)

/-- `value` if the condition holds. -/
def requireThat {α : Type} (condition : Prop) [Decidable condition] (message : Str)
    (build : condition → Except PythonError α) : Except PythonError α :=
  if h : condition then build h else .error (.invalidWorkerRequest message)

def documentIdName : Str := ofString "document_id"

def ExtractDocumentRequest.create (source : DocumentSource) (filename mediaType : Str) :
    Except PythonError ExtractDocumentRequest :=
  requireName (ofString "filename") filename fun hname =>
    requireName (ofString "content_type") mediaType fun htype =>
      .ok ⟨source, filename, mediaType, hname, htype⟩

def OpenDocumentRequest.create (documentId : Str) (artifact : T.Artifact) :
    Except PythonError (OpenDocumentRequest T) :=
  requireName documentIdName documentId fun h => .ok ⟨documentId, artifact, h⟩

def OpenTextDocumentRequest.create (documentId filename : Str) (source : T.Source) :
    Except PythonError (OpenTextDocumentRequest T) :=
  requireName documentIdName documentId fun h =>
    requireName (ofString "filename") filename fun hname =>
      .ok ⟨documentId, filename, source, h, hname⟩

def GetDocumentOverviewRequest.create (documentId : Str) :
    Except PythonError GetDocumentOverviewRequest :=
  requireName documentIdName documentId fun h => .ok ⟨documentId, h⟩

/-- `SearchQuery(terms)`. -/
def SearchQuery.create (all : List Str) : Except PythonError SearchQuery :=
  if hrange : 1 ≤ all.length ∧ all.length ≤ 8 then
    if hterms : ∀ term ∈ all, isBlank term = false ∧ term.length ≤ 256 then
      .ok ⟨all, hrange, hterms⟩
    else
      .error (.valueError (ofString "search terms must contain between 1 and 256 characters"))
  else .error (.valueError (ofString "all must contain between 1 and 8 terms"))

/-- `low <= value <= high`. -/
def InRange (value : ℤ) (low high : ℕ) : Prop := (low : ℤ) ≤ value ∧ value ≤ (high : ℤ)

instance (value : ℤ) (low high : ℕ) : Decidable (InRange value low high) :=
  inferInstanceAs (Decidable (_ ∧ _))

theorem InRange.toNat {value : ℤ} {low high : ℕ} (h : InRange value low high) :
    low ≤ value.toNat ∧ value.toNat ≤ high := by
  unfold InRange at h
  omega

def SearchDocumentRequest.create (documentId : Str) (queries : List SearchQuery)
    (limit snippetCharacters : ℤ) : Except PythonError SearchDocumentRequest :=
  requireName documentIdName documentId fun h =>
    requireThat (1 ≤ queries.length ∧ queries.length ≤ 8)
        (ofString "queries must contain between 1 and 8 searches") fun hqueries =>
      requireThat (InRange limit 1 50) (ofString "search limit must be between 1 and 50")
          fun hlimit =>
        requireThat (InRange snippetCharacters 64 4000)
            (ofString "snippet_characters must be between 64 and 4000") fun hsnippet =>
          .ok ⟨documentId, queries, limit.toNat, snippetCharacters.toNat, h, hqueries,
            hlimit.toNat, hsnippet.toNat⟩

def ReadDocumentRequest.create (documentId : Str) (containerNumber containerCount : ℤ) :
    Except PythonError ReadDocumentRequest :=
  requireName documentIdName documentId fun h =>
    requireThat (0 ≤ containerNumber) (ofString "container_number cannot be negative") fun _ =>
      requireThat (InRange containerCount 1 20)
          (ofString "container_count must be between 1 and 20") fun hcount =>
        .ok ⟨documentId, containerNumber.toNat, containerCount.toNat, h, hcount.toNat⟩

def RenderDocumentPageRequest.create (documentId : Str) (source : T.Source)
    (containerNumber dpi : ℤ) : Except PythonError (RenderDocumentPageRequest T) :=
  requireName documentIdName documentId fun h =>
    requireThat (0 ≤ containerNumber) (ofString "container_number cannot be negative") fun _ =>
      requireThat (InRange dpi 72 300) (ofString "render DPI is outside the allowed range")
          fun hdpi =>
        .ok ⟨documentId, source, containerNumber.toNat, dpi.toNat, h, hdpi.toNat⟩

def ReleaseDocumentRequest.create (documentId : Str) :
    Except PythonError ReleaseDocumentRequest :=
  requireName documentIdName documentId fun h => .ok ⟨documentId, h⟩

inductive DocumentWorkerOperation
  | extract | openArtifact | openText | overview | search | read | render | release | close
  deriving DecidableEq, Repr

namespace DocumentWorkerOperation

/-- The value of the `Enum` member. -/
def value : DocumentWorkerOperation → Str
  | extract => ofString "extract"
  | openArtifact => ofString "session_open"
  | openText => ofString "session_open_text"
  | overview => ofString "session_overview"
  | search => ofString "session_search"
  | read => ofString "session_read"
  | render => ofString "session_render"
  | release => ofString "session_release"
  | close => ofString "session_close"

/-- `DocumentWorkerOperation(value)`: `none` where Python raises ValueError. -/
def ofValue (name : Str) : Option DocumentWorkerOperation :=
  [extract, openArtifact, openText, overview, search, read, render, release, close].find?
    (fun operation => operation.value == name)

end DocumentWorkerOperation

/-! `RequestParameters`. -/
namespace RequestParameters

/-- `self.request.payloads.get(role)`. -/
def payload (message : ProtocolMessage) (role : PayloadRole) :
    Except PythonError ProtocolPayload :=
  match message.payloads.find? (fun entry => entry.1 == role) with
  | some entry => .ok entry.2
  | none => .error (.invalidWorkerRequest (role.value++ofString " payload is required"))

/-- The file at `payload.path`. -/
def path (payload : ProtocolPayload) : Except PythonError Bytes :=
  match payload.store with
  | .file bytes => .ok bytes
  | _ => .error (.valueError (ofString "protocol payload is not file-backed"))

/-- `payload.sha256`, with `hexdigest` for hashlib. -/
def sha256 (hexdigest : Bytes → Str) (payload : ProtocolPayload) : Except PythonError Str :=
  match payload.store with
  | .content bytes | .file bytes => .ok (hexdigest bytes)
  | .closed => .error ⟨.other (ofString "RuntimeError"),
      ofString "protocol payload backing file is closed"⟩

def source (hexdigest : Bytes → Str) (message : ProtocolMessage) (role : PayloadRole)
    (mediaType : Str) : Except PythonError DocumentSource := do
  let payload ← payload message role
  raiseIf (payload.mediaType ≠ mediaType)
    (.invalidWorkerRequest (role.value++ofString " payload has the wrong media type"))
  let content ← path payload
  let digest ← sha256 hexdigest payload
  DocumentSource.create content payload.length digest

def string (message : ProtocolMessage) (name : Str) : Except PythonError Str :=
  match getItem message.header name with
  | some (.str value) => if value = [] then .error (requiredMessage name) else .ok value
  | _ => .error (requiredMessage name)

/-- A `bool` is no integer. -/
def integer (message : ProtocolMessage) (name : Str) (default : Json) : Except PythonError ℤ :=
  match (getItem message.header name).getD default with
  | .int value => .ok value
  | _ => .error (.invalidWorkerRequest (name++ofString " must be an integer"))

/-- The members of an object. -/
def members : Json → Option (List (Str × Json))
  | .obj members => some members
  | _ => none

def objectArray (message : ProtocolMessage) (name : Str) :
    Except PythonError (List (List (Str × Json))) :=
  match getItem message.header name with
  | some (.arr items) =>
    if ∀ item ∈ items, (members item).isSome = true then .ok (items.filterMap members)
    else .error (.invalidWorkerRequest (name++ofString " must be an array of objects"))
  | _ => .error (.invalidWorkerRequest (name++ofString " must be an array of objects"))

end RequestParameters

namespace RequestDecoder

open RequestParameters

/-- `value == 1`: also of `true` and of the float `1.0`. -/
def equalsOne : Option Json → Bool
  | some (.int value) => value == 1
  | some (.bool value) => value
  | some (.float text) => text == ofString "1.0"
  | _ => false

/-- `_operation`. -/
def operation (message : ProtocolMessage) : Except PythonError DocumentWorkerOperation :=
  match getItem message.header (ofString "operation") with
  | some (.str name) =>
    match DocumentWorkerOperation.ofValue name with
    | some operation => .ok operation
    | none => .error (.invalidWorkerRequest (ofString "Unknown worker operation"))
  | _ => .error (.invalidWorkerRequest (ofString "Worker operation is required"))

def text : Json → Option Str
  | .str value => some value
  | _ => none

/-- One round of the loop of `_search_queries`. -/
def searchQuery (value : List (Str × Json)) : Except PythonError SearchQuery := do
  raiseIf (value = [] ∨ ∃ member ∈ value, member.1 ≠ ofString "all")
    (.invalidWorkerRequest (ofString "search queries may contain only all"))
  match getItem value (ofString "all") with
  | some (.arr terms) =>
    raiseIf (∃ term ∈ terms, (text term).isNone = true)
      (.invalidWorkerRequest (ofString "all must be an array of strings"))
    match SearchQuery.create (terms.filterMap text) with
    | .ok query => pure query
    | .error error =>
      if error.isValueError then .error (.invalidWorkerRequest error.message) else .error error
  | _ => .error (.invalidWorkerRequest (ofString "all must be an array of strings"))

/-- `_search_queries`. -/
def searchQueries (message : ProtocolMessage) : Except PythonError (List SearchQuery) := do
  let values ← objectArray message (ofString "queries")
  values.mapM searchQuery

variable {Reader Content : Type}

/-- `decode`. -/
def decode (hexdigest : Bytes → Str) (message : ProtocolMessage) :
    Except PythonError (WorkerRequest (workerTypes Reader Content)) := do
  raiseIf (equalsOne (getItem message.header (ofString "version")) = false)
    (.invalidWorkerRequest (ofString "Unsupported worker protocol version"))
  match ← operation message with
  | .extract => do
    let contentType ← string message (ofString "content_type")
    let source ← source hexdigest message .source contentType
    let filename ← string message (ofString "filename")
    let request ← ExtractDocumentRequest.create source filename contentType
    pure (.extract request)
  | .openArtifact => do
    let documentId ← string message documentIdName
    let payload ← payload message .artifact
    let artifact ← path payload
    let request ← OpenDocumentRequest.create documentId artifact
    pure (.session (.openDocument request))
  | .openText => do
    let documentId ← string message documentIdName
    let filename ← string message (ofString "filename")
    let source ← source hexdigest message .text (ofString "text/plain; charset=utf-8")
    let request ← OpenTextDocumentRequest.create documentId filename source
    pure (.session (.openText request))
  | .overview => do
    let documentId ← string message documentIdName
    let request ← GetDocumentOverviewRequest.create documentId
    pure (.session (.overview request))
  | .search => do
    let documentId ← string message documentIdName
    let queries ← searchQueries message
    let limit ← integer message (ofString "limit") (.int 8)
    let snippetCharacters ← integer message (ofString "snippet_characters") (.int 1200)
    let request ← SearchDocumentRequest.create documentId queries limit snippetCharacters
    pure (.session (.search request))
  | .read => do
    let documentId ← string message documentIdName
    let containerNumber ← integer message (ofString "container_number") .null
    let containerCount ← integer message (ofString "container_count") (.int 1)
    let request ← ReadDocumentRequest.create documentId containerNumber containerCount
    pure (.session (.read request))
  | .render => do
    let documentId ← string message documentIdName
    let source ← source hexdigest message .source (ofString "application/pdf")
    let containerNumber ← integer message (ofString "container_number") .null
    let dpi ← integer message (ofString "dpi") (.int 160)
    let request ← RenderDocumentPageRequest.create documentId source containerNumber dpi
    pure (.session (.render request))
  | .release => do
    let documentId ← string message documentIdName
    let request ← ReleaseDocumentRequest.create documentId
    pure (.session (.release request))
  | .close => pure (.session .close)

end RequestDecoder

end ConferWorker
