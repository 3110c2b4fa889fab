import ConferWorker.AnsweredRuns

/-! The error responses of a run. Each is the response of one of finitely many checks, so
nothing of the input, the documents or a foreign exception is in it. -/
namespace ConferWorker

open ProtocolPresenter

variable {Reader Content : Type}

/-- What an error response says: a check of the decoder or of the session failed, or the
processing did. -/
inductive FailedCheck
  | refusal (check : RefusalCheck)
  | operation (check : OperationCheck)
  | processing
  deriving DecidableEq, Repr

namespace FailedCheck

def all : List FailedCheck :=
  processing :: RefusalCheck.all.map refusal++OperationCheck.all.map operation

theorem mem_all (check : FailedCheck) : check ∈ all := by
  cases check with
  | refusal check =>
    exact List.mem_cons_of_mem _ (List.mem_append_left _ (List.mem_map_of_mem check.mem_all))
  | operation check =>
    exact List.mem_cons_of_mem _ (List.mem_append_right _ (List.mem_map_of_mem check.mem_all))
  | processing => exact List.mem_cons_self

def code : FailedCheck → Str
  | processing => ofString "processing_failed"
  | _ => ofString "invalid_request"

def message : FailedCheck → Str
  | refusal check => check.message
  | operation check => check.message
  | processing => ofString "Document processing failed"

def response (check : FailedCheck) : ProtocolMessage :=
  ⟨errorHeader check.code check.message, [], List.nodup_nil,
    ProtocolMessage.no_payloads_media_types⟩

end FailedCheck

/-- `status` is `"error"`. -/
def ProtocolMessage.isError (message : ProtocolMessage) : Prop :=
  getItem message.header (ofString "status") = some (.str (ofString "error"))

namespace Exchange

/-- The message that is written. -/
def response (exchange : Exchange Reader Content) : ProtocolMessage :=
  match exchange.request with
  | .error text => invalidRequest text
  | .ok request => (respond exchange.calls exchange.before request).2

/-- The check at which the exchange fails: the one that refused the message, the one whose
error left the application, or none of these and the processing failed. -/
def FailsAt (exchange : Exchange Reader Content) : FailedCheck → Prop
  | .refusal check => exchange.request = .error check.message
  | .operation check => ∃ request, exchange.request = .ok request ∧
      (handleRequest exchange.calls exchange.before request).2
        = .error (.documentOperation check.message)
  | .processing => ∃ request error, exchange.request = .ok request ∧
      ((handleRequest exchange.calls exchange.before request).2 >>= present) = .error error ∧
        IsForeign error

/-- How an exchange of a run came about. -/
inductive Made (process : WorkerProcess Reader Content) : Exchange Reader Content → Prop
  | refused (n : ℕ) (session : DocumentSession Reader) (message : ProtocolMessage)
      (check : RefusalCheck) :
      Made process (refuse (process.calls n) session message check.message)
  | served (n : ℕ) (session : DocumentSession Reader) (message : ProtocolMessage)
      (request : WorkerRequest (workerTypes Reader Content)) :
      Made process (serve (process.calls n) session message request)

end Exchange

section Runs

variable {process : WorkerProcess Reader Content}

theorem andThen_made {exchange : Exchange Reader Content} {rest : WorkerRun Reader Content}
    (hexchange : exchange.Made process) (hrest : ∀ other ∈ rest.exchanges, other.Made process) :
    ∀ other ∈ (exchange.andThen rest).exchanges, other.Made process := by
  unfold Exchange.andThen
  split
  · exact List.forall_mem_singleton.mpr hexchange
  · exact List.forall_mem_cons.mpr ⟨hexchange, hrest⟩

/-- A message that was read is decoded, or a check of the decoder refuses it. -/
theorem decode_checks (process : WorkerProcess Reader Content) {message : ProtocolMessage}
    (hfiles : FilesOnly message.payloads) :
    (∃ request, process.decode message = .ok (.ok request)) ∨
      ∃ check : RefusalCheck, process.decode message = .ok (.error check.message) := by
  have hraises : RaisesOnly Refused (RequestDecoder.decode process.sha256.hexdigest message :
      Except PythonError (WorkerRequest (workerTypes Reader Content))) :=
    RequestDecoder.decode_refused process.sha256 hfiles
  unfold WorkerProcess.decode
  rcases hdecode : RequestDecoder.decode process.sha256.hexdigest message with error | request
  · obtain ⟨check, rfl⟩ := hraises error hdecode
    exact Or.inr ⟨check, rfl⟩
  · exact Or.inl ⟨request, rfl⟩

/-- `_run_session`, by induction on the bytes that are left. -/
theorem runSession_made (process : WorkerProcess Reader Content) (n : ℕ)
    (session : DocumentSession Reader) (stream : ByteSource) :
    ∀ exchange ∈ (process.runSession n session stream).exchanges, exchange.Made process := by
  induction hlength : stream.data.length using Nat.strong_induction_on
    generalizing n session stream with
  | _ length ih =>
    rcases hread : ProtocolCodec.read process.loads stream with error | ⟨message, next⟩
    · rw [WorkerProcess.runSession_unread hread]
      exact List.forall_mem_nil _
    obtain ⟨hfiles, hshorter⟩ := read_ok hread
    have hrest (session : DocumentSession Reader) := ih next.data.length (by omega) (n+1) session
      next rfl
    rw [WorkerProcess.runSession_read hread]
    rcases decode_checks process hfiles with ⟨request, hdecode⟩ | ⟨check, hdecode⟩
    · rw [hdecode]
      rcases request with request | request
      · exact andThen_made (.refused n session message .sessionOnly) (hrest session)
      · cases request with
        | close => exact andThen_made (.served n session message _) (List.forall_mem_nil _)
        | _ => exact andThen_made (.served n session message _) (hrest _)
    · rw [hdecode]
      exact andThen_made (.refused n session message check) (hrest session)

theorem run_made (process : WorkerProcess Reader Content) (stream : ByteSource) :
    ∀ exchange ∈ (process.run stream).exchanges, exchange.Made process := by
  change ∀ exchange ∈ (process.serveAll stream).exchanges, exchange.Made process
  unfold WorkerProcess.serveAll
  rcases hread : ProtocolCodec.read process.loads stream with error | ⟨message, next⟩
  · exact List.forall_mem_nil _
  obtain ⟨hfiles, -⟩ := read_ok hread
  dsimp only
  rcases decode_checks process hfiles with ⟨request, hdecode⟩ | ⟨check, hdecode⟩
  · rw [hdecode]
    rcases request with request | request
    · exact andThen_made (.served 0 .initial message _) (List.forall_mem_nil _)
    · cases request with
      | close => exact andThen_made (.served 0 .initial message _) (List.forall_mem_nil _)
      | _ => exact andThen_made (.served 0 .initial message _) (runSession_made process 1 _ next)
  · rw [hdecode]
    exact andThen_made (.refused 0 .initial message check) (List.forall_mem_nil _)

end Runs

section Responses

theorem create_header {header : List (Str × Json)} {entries : List (PayloadRole × PayloadValue)}
    (distinct : (entries.map Prod.fst).Nodup) {response : ProtocolMessage}
    (h : ProtocolMessage.create header entries distinct = .ok response) :
    response.header = header := by
  unfold ProtocolMessage.create at h
  obtain ⟨⟨payloads, hroles, hmedia⟩, _, hresponse⟩ := (bind_eq_ok _ _ _).mp h
  cases hresponse
  rfl

/-- The presenter's messages have the status `"ok"`. -/
theorem message_ok {result : Option Json} {payloads : List (PayloadRole × PayloadValue)}
    (distinct : (payloads.map Prod.fst).Nodup) {response : ProtocolMessage}
    (h : message result payloads distinct = .ok response) : ¬response.isError := by
  have hheader : response.header = okHeader result := create_header distinct h
  rw [ProtocolMessage.isError, hheader]
  intro hstatus
  have hok : getItem (okHeader result) (ofString "status") = some (.str (ofString "ok")) := rfl
  rw [hok, Option.some.injEq, Json.str.injEq] at hstatus
  exact absurd hstatus (by decide)

theorem jsonMessage_ok {value : Json} {response : ProtocolMessage}
    (h : jsonMessage value = .ok response) : ¬response.isError := by
  obtain ⟨encoded, -, hresponse⟩ := (bind_eq_ok _ _ _).mp h
  exact message_ok _ hresponse

theorem present_ok {answer : WorkerResponse (workerTypes Reader Content)}
    {response : ProtocolMessage} (h : present answer = .ok response) : ¬response.isError := by
  rcases answer with result | answer
  · simp only [present, extraction, bind_eq_ok] at h
    obtain ⟨_, _, _, _, _, _, hresponse⟩ := h
    exact message_ok _ hresponse
  cases answer with
  | empty =>
    have hmessage : message none [] List.nodup_nil = .ok response := h
    exact message_ok _ hmessage
  | overview documentMetadata outline labeledContainers firstChunkId content =>
    obtain ⟨selected, -, hresponse⟩ := (bind_eq_ok _ _ _).mp h
    exact jsonMessage_ok hresponse
  | search hits hasMore => exact jsonMessage_ok h
  | read textWindow =>
    obtain ⟨text, -, hresponse⟩ := (bind_eq_ok _ _ _).mp h
    exact message_ok _ hresponse
  | render page =>
    have hmessage : message (some (renderResult page)) [(.image, .content page.png)]
        (List.nodup_singleton _) = .ok response := h
    exact message_ok _ hmessage

theorem present_raises (answer : WorkerResponse (workerTypes Reader Content)) :
    RaisesOnly IsForeign (present answer) := by
  intro error herror
  rcases present_answers answer with ⟨response, hresponse, -⟩ | ⟨other, hother, hforeign, -⟩
  · rw [herror] at hresponse
    cases hresponse
  · rw [herror, Except.error.injEq] at hother
    rwa [hother]

/-- An error response of `_handle` comes from a check of the session, or the processing
failed. -/
theorem serve_failsAt {calls : WorkerCalls Reader Content} (foreign : calls.Foreign)
    (session : DocumentSession Reader) (message : ProtocolMessage)
    (request : WorkerRequest (workerTypes Reader Content))
    (h : (serve calls session message request).response.isError) :
    ∃ check : FailedCheck, (serve calls session message request).FailsAt check := by
  have hresponse : (serve calls session message request).response
      = (respond calls session request).2 := rfl
  rw [hresponse, respond_eq] at h
  rcases hhandle : (handleRequest calls session request).2 with error | answer
  · rcases handleRequest_raises foreign session request error hhandle with hforeign | ⟨check, rfl⟩
    · refine ⟨.processing, request, error, rfl, ?_, hforeign⟩
      change (handleRequest calls session request).2 >>= present = _
      rw [hhandle]
      rfl
    · exact ⟨.operation check, request, rfl, hhandle⟩
  · rcases hpresent : present answer with error | response
    · refine ⟨.processing, request, error, rfl, ?_, present_raises answer error hpresent⟩
      change (handleRequest calls session request).2 >>= present = _
      rw [hhandle, ok_bind]
      exact hpresent
    · rw [hhandle, ok_bind, hpresent] at h
      exact absurd h (present_ok hpresent)

/-- A failed exchange answers with the response of its check. -/
theorem Exchange.FailsAt.response_eq {exchange : Exchange Reader Content} {check : FailedCheck}
    (h : exchange.FailsAt check) : exchange.response = check.response := by
  cases check with
  | refusal check =>
    have hrequest : exchange.request = .error check.message := h
    rw [Exchange.response, hrequest]
    rfl
  | operation check =>
    obtain ⟨request, hrequest, hhandle⟩ := h
    rw [Exchange.response, hrequest]
    dsimp only
    rw [respond_eq, hhandle]
    rfl
  | processing =>
    obtain ⟨request, error, hrequest, hhandle, hforeign⟩ := h
    rw [Exchange.response, hrequest]
    dsimp only
    rw [respond_eq, hhandle]
    dsimp only
    rw [if_neg (by rw [hforeign]; decide)]
    rfl

end Responses

/-- What an exchange writes is its response. -/
theorem Exchange.Made.written_eq {process : WorkerProcess Reader Content}
    {exchange : Exchange Reader Content} (h : exchange.Made process) :
    (exchange.written, exchange.outcome) = ProtocolCodec.write exchange.response := by
  cases h with
  | refused n session message check => rfl
  | served n session message request => rfl

/-- Whatever the collaborators raise, every error response of a run is the response of one
of the checks, a fixed finite list; and two exchanges, of one run or of two different
workers on different inputs, that fail at the same check write the same bytes. -/
theorem error_responses_fixed (process : WorkerProcess Reader Content)
    (foreign : ∀ i, (process.calls i).Foreign) (stream : ByteSource) :
    (∀ exchange ∈ (process.run stream).exchanges,
      (exchange.written, exchange.outcome) = ProtocolCodec.write exchange.response ∧
      (exchange.response.isError → ∃ check ∈ FailedCheck.all, exchange.FailsAt check ∧
        exchange.response = check.response)) ∧
    ∀ (process' : WorkerProcess Reader Content) (stream' : ByteSource),
      ∀ exchange ∈ (process.run stream).exchanges, ∀ exchange' ∈ (process'.run stream').exchanges,
        ∀ check, exchange.FailsAt check → exchange'.FailsAt check →
          exchange.written = exchange'.written := by
  refine ⟨fun exchange hexchange => ⟨(run_made process stream exchange hexchange).written_eq,
    fun herror => ?_⟩, ?_⟩
  · have hfails : ∃ check : FailedCheck, exchange.FailsAt check := by
      cases run_made process stream exchange hexchange with
      | refused n session message check => exact ⟨.refusal check, rfl⟩
      | served n session message request =>
        exact serve_failsAt (foreign n) session message request herror
    obtain ⟨check, hcheck⟩ := hfails
    exact ⟨check, check.mem_all, hcheck, hcheck.response_eq⟩
  · intro process' stream' exchange hexchange exchange' hexchange' check hfails hfails'
    have hwritten := (run_made process stream exchange hexchange).written_eq
    have hwritten' := (run_made process' stream' exchange' hexchange').written_eq
    rw [hfails.response_eq] at hwritten
    rw [hfails'.response_eq, ← hwritten] at hwritten'
    exact (Prod.mk.inj hwritten').1.symm

end ConferWorker
