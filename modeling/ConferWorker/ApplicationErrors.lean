import ConferWorker.PresentedAnswers

/-! The errors that reach `_handle`: those of the application have the text of the check
that failed, and those of its collaborators are answered with `processing_failed`. -/
namespace ConferWorker

open ProtocolCodec ProtocolPresenter

variable {Reader Content : Type}

/-- No collaborator raises the errors of the application. -/
structure WorkerCalls.Foreign (calls : WorkerCalls Reader Content) : Prop where
  readerFactory : ∀ artifact, RaisesOnly IsForeign (calls.session.readerFactory artifact)
  extractText : ∀ source filename mediaType,
    RaisesOnly IsForeign (calls.session.extract source filename mediaType)
  writeText : ∀ content, RaisesOnly IsForeign (calls.session.write content)
  metadata : ∀ reader, RaisesOnly IsForeign (calls.session.metadata reader)
  outline : ∀ reader limit, RaisesOnly IsForeign (calls.session.outline reader limit)
  labeledContainers : ∀ reader, RaisesOnly IsForeign (calls.session.labeledContainers reader)
  firstChunkId : ∀ reader, RaisesOnly IsForeign (calls.session.firstChunkId reader)
  fullTextIfSmall : ∀ reader maxBytes,
    RaisesOnly IsForeign (calls.session.fullTextIfSmall reader maxBytes)
  search : ∀ reader queries limit snippetCharacters,
    RaisesOnly IsForeign (calls.session.search reader queries limit snippetCharacters)
  readContainers : ∀ reader number count,
    RaisesOnly IsForeign (calls.session.readContainers reader number count)
  renderFromReader : ∀ source reader number dpi,
    RaisesOnly IsForeign (calls.session.renderFromReader source reader number dpi)
  extract : ∀ source filename mediaType,
    RaisesOnly IsForeign (calls.extract source filename mediaType)
  write : ∀ content, RaisesOnly IsForeign (calls.write content)

/-- An error whose text, if it is sent at all, is short. -/
def Answerable (error : PythonError) : Prop :=
  error.isApplicationError = true → ShortText error.message

theorem IsForeign.answerable {error : PythonError} (h : IsForeign error) : Answerable error := by
  intro happlication
  rw [IsForeign, happlication] at h
  cases h

/-- An error of a collaborator, or of a check of the session. -/
def Operational (error : PythonError) : Prop :=
  IsForeign error ∨ ∃ check : OperationCheck, error = .documentOperation check.message

theorem IsForeign.operational {error : PythonError} (h : IsForeign error) : Operational error :=
  Or.inl h

theorem operational_intro (check : OperationCheck) :
    Operational (.documentOperation check.message) := Or.inr ⟨check, rfl⟩

theorem Operational.answerable {error : PythonError} (h : Operational error) :
    Answerable error := by
  rcases h with h | ⟨check, rfl⟩
  · exact h.answerable
  · exact fun _ => check.message_short

section Execute

variable {α : Type}

theorem asOperationError_raises (check : OperationCheck) {result : Except PythonError α}
    (hresult : RaisesOnly IsForeign result) :
    RaisesOnly Operational (DocumentSession.asOperationError check.message result) := by
  unfold DocumentSession.asOperationError
  split
  · exact raisesOnly_ok _
  · rename_i error
    split_ifs
    · exact raisesOnly_error (operational_intro check)
    · exact raisesOnly_error (hresult error rfl).operational

theorem answer_search_raises {T : SessionTypes} {calls : SessionCalls T} {reader : T.Reader}
    {request : SearchDocumentRequest} (h : RaisesOnly IsForeign
      (calls.search reader request.queries (request.limit+1) request.snippetCharacters)) :
    RaisesOnly Operational (DocumentSession.answer calls reader (.search request)) := by
  rw [DocumentSession.answer]
  split
  · exact raisesOnly_ok _
  · rename_i error herror
    split_ifs
    · exact raisesOnly_error (operational_intro .searchTerms)
    · exact raisesOnly_error (h error herror).operational

theorem answer_read_raises {T : SessionTypes} {calls : SessionCalls T} {reader : T.Reader}
    {request : ReadDocumentRequest} (h : RaisesOnly IsForeign
      (calls.readContainers reader request.containerNumber request.containerCount)) :
    RaisesOnly Operational (DocumentSession.answer calls reader (.read request)) := by
  rw [DocumentSession.answer]
  split
  · exact raisesOnly_ok _
  · rename_i error herror
    split_ifs
    · exact raisesOnly_error (operational_intro .readTarget)
    · exact raisesOnly_error (operational_intro .read)
    · exact raisesOnly_error (h error herror).operational

variable {calls : WorkerCalls Reader Content} (foreign : calls.Foreign)

include foreign

theorem buildReader_raises (request : SessionRequest (workerTypes Reader Content)) :
    RaisesOnly Operational (DocumentSession.buildReader calls.session request) := by
  have hunknown : RaisesOnly Operational (.error (.typeError
      (ofString "unknown document session request type")) : Except PythonError Reader) :=
    raisesOnly_error (IsForeign.operational rfl)
  cases request with
  | openDocument request =>
    exact asOperationError_raises .artifact (foreign.readerFactory _)
  | openText request =>
    apply asOperationError_raises .text
    apply raisesOnly_bind (foreign.extractText _ _ _)
    intro content _
    exact raisesOnly_bind (foreign.writeText _) (fun artifact _ => foreign.readerFactory _)
  | _ => exact hunknown

theorem openReader_raises (session : DocumentSession Reader) (id : Str)
    (request : SessionRequest (workerTypes Reader Content)) :
    RaisesOnly Operational (DocumentSession.openReader calls.session session id request).2 := by
  have hcapacity : RaisesOnly Operational (session.requireOpenCapacity id) := by
    unfold DocumentSession.requireOpenCapacity
    apply raisesOnly_bind
    · exact raisesOnly_raiseIf _ (operational_intro .alreadyOpen)
    · exact fun _ _ => raisesOnly_raiseIf _ (operational_intro .capacity)
  unfold DocumentSession.openReader
  split
  · rename_i error herror
    exact raisesOnly_error (hcapacity error herror)
  · split
    · rename_i error herror
      exact raisesOnly_error (buildReader_raises foreign request error herror)
    · exact raisesOnly_ok _

theorem answer_raises (reader : Reader) (request : SessionRequest (workerTypes Reader Content)) :
    RaisesOnly Operational (DocumentSession.answer calls.session reader request) := by
  have hunknown : RaisesOnly Operational (.error (.typeError
      (ofString "unknown document session request type")) :
      Except PythonError (SessionResponse (workerTypes Reader Content))) :=
    raisesOnly_error (IsForeign.operational rfl)
  cases request with
  | overview request =>
    have hforeign : RaisesOnly IsForeign
        (DocumentSession.answer calls.session reader (.overview request)) := by
      apply raisesOnly_bind (foreign.metadata _)
      intro metadata _
      apply raisesOnly_bind (foreign.outline _ _)
      intro outline _
      apply raisesOnly_bind (foreign.labeledContainers _)
      intro labeledContainers _
      apply raisesOnly_bind (foreign.firstChunkId _)
      intro firstChunkId _
      exact raisesOnly_bind (foreign.fullTextIfSmall _ _) (fun _ _ => raisesOnly_ok _)
    exact hforeign.mono (fun _ => IsForeign.operational)
  | search request => exact answer_search_raises (foreign.search _ _ _ _)
  | read request => exact answer_read_raises (foreign.readContainers _ _ _)
  | render request =>
    apply raisesOnly_bind
    · exact asOperationError_raises .render (foreign.renderFromReader _ _ _ _)
    · exact fun _ _ => raisesOnly_ok _
  | _ => exact hunknown

theorem ask_raises (session : DocumentSession Reader) (id : Str)
    (request : SessionRequest (workerTypes Reader Content)) :
    RaisesOnly Operational (DocumentSession.ask calls.session session id request).2 := by
  unfold DocumentSession.ask
  split
  · exact raisesOnly_error (operational_intro .notOpen)
  · exact answer_raises foreign _ request

/-- What leaves the application is foreign, or comes from a check of the session. -/
theorem handleRequest_raises (session : DocumentSession Reader)
    (request : WorkerRequest (workerTypes Reader Content)) :
    RaisesOnly Operational (handleRequest calls session request).2 := by
  rcases request with request | request
  · have hexecute : RaisesOnly IsForeign (executeExtract calls request) := by
      apply raisesOnly_bind (foreign.extract _ _ _)
      intro content _
      exact raisesOnly_bind (foreign.write _) (fun _ _ => raisesOnly_ok _)
    exact raisesOnly_map _ (hexecute.mono (fun _ => IsForeign.operational))
  · apply raisesOnly_map
    cases request with
    | openDocument request => exact openReader_raises foreign session _ _
    | openText request => exact openReader_raises foreign session _ _
    | overview request => exact ask_raises foreign session _ _
    | search request => exact ask_raises foreign session _ _
    | read request => exact ask_raises foreign session _ _
    | render request => exact ask_raises foreign session _ _
    | release request => exact raisesOnly_ok _
    | close => exact raisesOnly_ok _

end Execute

end ConferWorker
