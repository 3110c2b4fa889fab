import ConferWorker.PythonErrors

/-! The requests and responses of a document session. What `__post_init__`
checks is a field of the structure. -/
namespace ConferWorker

/-- What a session passes on without looking into it. -/
structure SessionTypes where
  Source : Type
  Artifact : Type
  Content : Type
  Reader : Type
  Metadata : Type
  Outline : Type
  Labels : Type
  SearchHit : Type
  Window : Type
  Rendered : Type

structure SearchQuery where
  all : List Str
  all_range : 1 ≤ all.length ∧ all.length ≤ 8
  terms : ∀ term ∈ all, isBlank term = false ∧ term.length ≤ 256

variable (T : SessionTypes)

structure OpenDocumentRequest where
  documentId : Str
  artifact : T.Artifact
  document_id_required : documentId ≠ []

structure OpenTextDocumentRequest where
  documentId : Str
  filename : Str
  source : T.Source
  document_id_required : documentId ≠ []
  filename_required : filename ≠ []

structure GetDocumentOverviewRequest where
  documentId : Str
  document_id_required : documentId ≠ []

structure SearchDocumentRequest where
  documentId : Str
  queries : List SearchQuery
  limit : ℕ
  snippetCharacters : ℕ
  document_id_required : documentId ≠ []
  queries_range : 1 ≤ queries.length ∧ queries.length ≤ 8
  limit_range : 1 ≤ limit ∧ limit ≤ 50
  snippet_range : 64 ≤ snippetCharacters ∧ snippetCharacters ≤ 4000

structure ReadDocumentRequest where
  documentId : Str
  containerNumber : ℕ
  containerCount : ℕ
  document_id_required : documentId ≠ []
  count_range : 1 ≤ containerCount ∧ containerCount ≤ 20

structure RenderDocumentPageRequest where
  documentId : Str
  source : T.Source
  containerNumber : ℕ
  dpi : ℕ
  document_id_required : documentId ≠ []
  dpi_range : 72 ≤ dpi ∧ dpi ≤ 300

structure ReleaseDocumentRequest where
  documentId : Str
  document_id_required : documentId ≠ []

/-- The subclasses of `DocumentSessionRequest`. -/
inductive SessionRequest
  | openDocument (request : OpenDocumentRequest T)
  | openText (request : OpenTextDocumentRequest T)
  | overview (request : GetDocumentOverviewRequest)
  | search (request : SearchDocumentRequest)
  | read (request : ReadDocumentRequest)
  | render (request : RenderDocumentPageRequest T)
  | release (request : ReleaseDocumentRequest)
  | close

/-- The responses of a session. -/
inductive SessionResponse
  | empty
  | overview (metadata : T.Metadata) (outline : T.Outline) (labeledContainers : T.Labels)
      (firstChunkId : Option ℤ) (content : Option Str)
  | search (hits : List T.SearchHit) (hasMore : Bool)
  | read (window : T.Window)
  | render (rendered : T.Rendered)

/-- The collaborators of a session during one request: what each call returns or raises. -/
structure SessionCalls where
  readerFactory : T.Artifact → Except PythonError T.Reader
  extract : T.Source → Str → Str → Except PythonError T.Content
  write : T.Content → Except PythonError T.Artifact
  metadata : T.Reader → Except PythonError T.Metadata
  outline : T.Reader → ℕ → Except PythonError T.Outline
  labeledContainers : T.Reader → Except PythonError T.Labels
  firstChunkId : T.Reader → Except PythonError (Option ℤ)
  fullTextIfSmall : T.Reader → ℕ → Except PythonError (Option Str)
  search : T.Reader → List SearchQuery → ℕ → ℕ → Except PythonError (List T.SearchHit)
  readContainers : T.Reader → ℕ → ℕ → Except PythonError T.Window
  renderFromReader : T.Source → T.Reader → ℕ → ℕ → Except PythonError T.Rendered

variable {T}

/-- The document a request is about; `close` is about all of them. -/
def SessionRequest.documentId : SessionRequest T → Option Str
  | openDocument request => some request.documentId
  | openText request => some request.documentId
  | overview request => some request.documentId
  | search request => some request.documentId
  | read request => some request.documentId
  | render request => some request.documentId
  | release request => some request.documentId
  | close => none

/-- A request that concerns a document: one that names it, or `close`. -/
def SessionRequest.concerns (id : Str) (request : SessionRequest T) : Bool :=
  match request.documentId with
  | some documentId => documentId == id
  | none => true

theorem SessionRequest.concerns_iff {request : SessionRequest T} {documentId : Str}
    (h : request.documentId = some documentId) (id : Str) :
    request.concerns id = true ↔ documentId = id := by
  rw [concerns, h]
  exact beq_iff_eq

/-- A request that registers a reader. -/
def SessionRequest.opens : SessionRequest T → Bool
  | openDocument _ | openText _ => true
  | _ => false

/-- A request that only asks an open reader. -/
def SessionRequest.queries : SessionRequest T → Bool
  | overview _ | search _ | read _ | render _ => true
  | _ => false

end ConferWorker
