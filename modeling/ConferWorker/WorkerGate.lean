import ConferWorker.Scripts
import ConferWorker.WorkerProcess

/-! The calls that `WorkerProcess` makes, over any application and any output stream:
which requests reach the application, when the input is read, and when the application
is closed. -/
namespace ConferWorker

variable {Reader Content : Type}

/-- What `WorkerProcess` does to the objects around it. -/
inductive WorkerEvent (Reader Content : Type)
  | reading (stream : ByteSource)
  | received (message : ProtocolMessage)
  | handled (request : WorkerRequest (workerTypes Reader Content))
  | wrote (response : ProtocolMessage)
  | closed

/-- How `application.handle` and the presenter end. An exception that is no `Exception`
escapes `_handle`. -/
inductive HandleOutcome
  | presented (response : ProtocolMessage)
  | raised (error : PythonError)
  | escaped (error : PythonError)

/-- The objects around a `WorkerProcess`. What the application, the streams and the
temporary files do may depend on everything that happened before. -/
structure GatedWorker (Reader Content : Type) where
  loads : JsonLoads
  sha256 : Sha256
  handle : List (WorkerEvent Reader Content) → WorkerRequest (workerTypes Reader Content) →
    HandleOutcome
  write : List (WorkerEvent Reader Content) → ProtocolMessage → Except PythonError Unit
  leaveResponse : List (WorkerEvent Reader Content) → Except PythonError Unit →
    Except PythonError Unit
  closeMessage : List (WorkerEvent Reader Content) → Except PythonError Unit
  close : List (WorkerEvent Reader Content) → Except PythonError Unit

/-- A script over the calls made so far. -/
abbrev WorkerScript (Reader Content α : Type) :=
  Script PythonError (List (WorkerEvent Reader Content)) α

/-- The request is a `DocumentSessionRequest`. -/
def WorkerRequest.isSession : WorkerRequest (workerTypes Reader Content) → Bool
  | .session _ => true
  | .extract _ => false

/-- The request is a `CloseDocumentSessionRequest`. -/
def WorkerRequest.isClose : WorkerRequest (workerTypes Reader Content) → Bool
  | .session .close => true
  | _ => false

namespace GatedWorker

variable (worker : GatedWorker Reader Content)

def emit (event : WorkerEvent Reader Content) : WorkerScript Reader Content Unit :=
  Script.modify (fun past => past++[event])

/-- `_write`. -/
def send (response : ProtocolMessage) : WorkerScript Reader Content Unit := do
  emit (.wrote response)
  Script.ask (fun past => worker.write past response)

/-- `self.request_decoder.decode`: a request, or the text of an
`InvalidWorkerRequestError`. -/
def parse (message : ProtocolMessage) :
    Except PythonError (Except Str (WorkerRequest (workerTypes Reader Content))) :=
  match RequestDecoder.decode worker.sha256.hexdigest message with
  | .ok request => .ok (.ok request)
  | .error error =>
    if error.errorClass = .invalidWorkerRequest then .ok (.error error.message) else .error error

/-- `_decode`. -/
def decode (message : ProtocolMessage) :
    WorkerScript Reader Content (Option (WorkerRequest (workerTypes Reader Content))) :=
  match worker.parse message with
  | .ok (.ok request) => pure (some request)
  | .ok (.error text) => do
    worker.send (invalidRequest text)
    pure none
  | .error error => Script.raise error

/-- `_handle`. -/
def serve (request : WorkerRequest (workerTypes Reader Content)) :
    WorkerScript Reader Content Unit := do
  emit (.handled request)
  let outcome ← Script.ask (fun past => .ok (worker.handle past request))
  match outcome with
  | .presented response => leave (worker.send response)
  | .raised error =>
    leave (worker.send (if error.isApplicationError then invalidRequest error.message
      else processingFailed))
  | .escaped error => leave (Script.raise error)
where
  /-- The end of the `with ExitStack()` block. -/
  leave (body : WorkerScript Reader Content Unit) : WorkerScript Reader Content Unit := fun past =>
    match body past with
    | (result, past) => (worker.leaveResponse past result, past)

/-- `with message: body`. -/
def withMessage {α : Type} (body : WorkerScript Reader Content α) :
    WorkerScript Reader Content α :=
  body.andFinally (Script.ask worker.closeMessage)

/-- The body of the loop of `_run_session`: whether the loop goes on. -/
def sessionRound (message : ProtocolMessage) : WorkerScript Reader Content Bool := do
  match ← worker.decode message with
  | none => pure true
  | some request =>
    if request.isSession = false then do
      worker.send (invalidRequest (ofString "Only document session operations are allowed"))
      pure true
    else do
      worker.serve request
      pure (!request.isClose)

/-- `_run_session`. -/
def runSession (stream : ByteSource) : WorkerScript Reader Content Unit := do
  emit (.reading stream)
  match _h : ProtocolCodec.read worker.loads stream with
  | .error error => Script.raise error
  | .ok (message, next) => do
    emit (.received message)
    let more ← worker.withMessage (worker.sessionRound message)
    if more then runSession next else pure ()
termination_by stream.data.length
decreasing_by exact (read_ok _h).2

/-- The body of the `with` statement of `run`: whether a session follows. -/
def firstRound (message : ProtocolMessage) : WorkerScript Reader Content Bool := do
  match ← worker.decode message with
  | none => pure false
  | some request => do
    worker.serve request
    pure (request.isSession && !request.isClose)

/-- The `try` block of `run`. -/
def serveAll (stream : ByteSource) : WorkerScript Reader Content Unit := do
  emit (.reading stream)
  match ProtocolCodec.read worker.loads stream with
  | .error error => Script.raise error
  | .ok (message, next) => do
    emit (.received message)
    let more ← worker.withMessage (worker.firstRound message)
    if more then worker.runSession next else pure ()

/-- `run`. -/
def run (stream : ByteSource) : WorkerScript Reader Content Unit :=
  (worker.serveAll stream).andFinally do
    emit .closed
    Script.ask worker.close

end GatedWorker

namespace WorkerEvent

/-- The request that the event passes to the application. -/
def request? : WorkerEvent Reader Content → Option (WorkerRequest (workerTypes Reader Content))
  | handled request => some request
  | _ => none

def isReading : WorkerEvent Reader Content → Bool
  | reading _ => true
  | _ => false

def isWrote : WorkerEvent Reader Content → Bool
  | wrote _ => true
  | _ => false

def isClosed : WorkerEvent Reader Content → Bool
  | closed => true
  | _ => false

/-- A request was handled that ends the run: a close, or an extract. -/
def endsInput : WorkerEvent Reader Content → Bool
  | handled request => request.isClose || !request.isSession
  | _ => false

theorem isWrote_quiet {event : WorkerEvent Reader Content} (h : event.isWrote = true) :
    event.isReading = false ∧ event.request? = none ∧ event.isClosed = false
      ∧ event.endsInput = false := by
  cases event with
  | wrote response => exact ⟨rfl, rfl, rfl, rfl⟩
  | _ => cases h

end WorkerEvent

/-- The requests that are passed to `application.handle`, in order. -/
def handledRequests (events : List (WorkerEvent Reader Content)) :
    List (WorkerRequest (workerTypes Reader Content)) :=
  events.filterMap WorkerEvent.request?

/-- What one round adds: a request may be handled first, and everything else is written. -/
inductive RoundEvents : List (WorkerEvent Reader Content) → Prop
  | written (added : List (WorkerEvent Reader Content)) (h : ∀ event ∈ added, event.isWrote = true) :
      RoundEvents added
  | served (request : WorkerRequest (workerTypes Reader Content))
      (added : List (WorkerEvent Reader Content)) (h : ∀ event ∈ added, event.isWrote = true) :
      RoundEvents (.handled request :: added)

theorem handledRequests_append (events later : List (WorkerEvent Reader Content)) :
    handledRequests (events++later) = handledRequests events++handledRequests later :=
  List.filterMap_append

theorem handledRequests_written {events : List (WorkerEvent Reader Content)}
    (h : ∀ event ∈ events, event.isWrote = true) : handledRequests events = [] := by
  rw [handledRequests, List.filterMap_eq_nil_iff]
  exact fun event hevent => (WorkerEvent.isWrote_quiet (h event hevent)).2.1

namespace RoundEvents

variable {added : List (WorkerEvent Reader Content)}

/-- What follows in a round is written. -/
theorem pairwise (h : RoundEvents added) :
    added.Pairwise (fun _ later => later.isWrote = true) := by
  have hwritten {events : List (WorkerEvent Reader Content)}
      (hevents : ∀ event ∈ events, event.isWrote = true) :
      events.Pairwise (fun _ later => later.isWrote = true) :=
    List.pairwise_of_forall_mem_list (fun _ _ later hlater => hevents later hlater)
  cases h with
  | written _ h => exact hwritten h
  | served _ _ h => exact List.pairwise_cons.mpr ⟨h, hwritten h⟩

theorem quiet (h : RoundEvents added) :
    ∀ event ∈ added, event.isReading = false ∧ event.isClosed = false := by
  have hwritten {events : List (WorkerEvent Reader Content)}
      (hevents : ∀ event ∈ events, event.isWrote = true) :
      ∀ event ∈ events, event.isReading = false ∧ event.isClosed = false := by
    intro event hevent
    have hquiet := WorkerEvent.isWrote_quiet (hevents event hevent)
    exact ⟨hquiet.1, hquiet.2.2.1⟩
  cases h with
  | written _ h => exact hwritten h
  | served _ _ h => exact List.forall_mem_cons.mpr ⟨⟨rfl, rfl⟩, hwritten h⟩

end RoundEvents

namespace GatedWorker

open Script

variable (worker : GatedWorker Reader Content)

theorem send_logs (response : ProtocolMessage) :
    Logs (worker.send response) (fun added _ => added = [.wrote response]) := by
  apply logs_entry (logs_silent (P := fun added _ => added = []) _ (fun _ => rfl))
  intro more result hmore
  rw [hmore]

theorem leave_logs {body : WorkerScript Reader Content Unit}
    {P : List (WorkerEvent Reader Content) → Prop} (h : Logs body (fun added _ => P added)) :
    Logs (serve.leave worker body) (fun added _ => P added) := by
  intro past
  obtain ⟨added, hadded, hP⟩ := h past
  exact ⟨added, hadded, hP⟩

theorem serve_logs (request : WorkerRequest (workerTypes Reader Content)) :
    Logs (worker.serve request) (fun added _ => ∃ written, added = .handled request :: written ∧
      ∀ event ∈ written, event.isWrote = true) := by
  have hsend (response : ProtocolMessage) : Logs (serve.leave worker (worker.send response))
      (fun added _ => ∀ event ∈ added, event.isWrote = true) := by
    apply leave_logs
    apply (worker.send_logs response).mono
    intro added _ hadded
    rw [hadded]
    exact List.forall_mem_singleton.mpr rfl
  have hanswer (outcome : HandleOutcome) : Logs (match outcome with
      | .presented response => serve.leave worker (worker.send response)
      | .raised error => serve.leave worker (worker.send (if error.isApplicationError then
          invalidRequest error.message else processingFailed))
      | .escaped error => serve.leave worker (Script.raise error))
      (fun added _ => ∀ event ∈ added, event.isWrote = true) := by
    cases outcome with
    | presented response => exact hsend response
    | raised error => exact hsend _
    | escaped error => exact leave_logs worker (logs_raise (List.forall_mem_nil _))
  have hrest : Logs (Script.ask (fun past => Except.ok (worker.handle past request)) >>= _)
      (fun added _ => ∀ event ∈ added, event.isWrote = true) :=
    logs_bind (logs_silent (P := fun added _ => added = []) _ (fun _ => rfl)) hanswer
      (fun added error hadded => by rw [hadded]; exact List.forall_mem_nil _)
      (fun added more outcome result hadded hmore => by rw [hadded]; exact hmore)
  exact logs_entry hrest (fun more result hmore => ⟨more, rfl, hmore⟩)

/-- A request, or a refusal that was written. -/
theorem decode_logs (message : ProtocolMessage) : Logs (worker.decode message)
    (fun added result => (∀ event ∈ added, event.isWrote = true) ∧
      ∀ request, result = .ok (some request) →
        added = [] ∧ worker.parse message = .ok (.ok request)) := by
  unfold decode
  rcases hparse : worker.parse message with error | text | request
  · exact logs_raise ⟨List.forall_mem_nil _, fun _ h => by cases h⟩
  · apply logs_bind (worker.send_logs _)
      (fun _ => logs_pure (P := fun added result => added = [] ∧ result = .ok none) ⟨rfl, rfl⟩)
    · intro added error hadded
      rw [hadded]
      exact ⟨List.forall_mem_singleton.mpr rfl, fun _ h => by cases h⟩
    · rintro added more _ result hadded ⟨hmore, hresult⟩
      rw [hadded, hmore, hresult]
      exact ⟨List.forall_mem_singleton.mpr rfl, fun _ h => by cases h⟩
  · exact logs_pure ⟨List.forall_mem_nil _, fun _ h => by cases h; exact ⟨rfl, rfl⟩⟩

/-- Closing the message adds nothing, and the result is that of the body if it returns. -/
theorem withMessage_logs {α : Type} {body : WorkerScript Reader Content α}
    {P : List (WorkerEvent Reader Content) → Except PythonError α → Prop} (h : Logs body P)
    (hraised : ∀ added result error, P added result → P added (.error error)) :
    Logs (worker.withMessage body) P := by
  apply logs_finally h (logs_silent (P := fun added _ => added = []) _ (fun _ => rfl))
  intro added more result outcome hadded hmore
  rw [hmore, List.append_nil]
  cases outcome with
  | error error => exact hraised added result error hadded
  | ok _ => exact hadded

/-- One round of `_run_session`. -/
structure SessionRound (added : List (WorkerEvent Reader Content))
    (result : Except PythonError Bool) : Prop where
  events : RoundEvents added
  session : ∀ request ∈ handledRequests added, request.isSession = true
  more : result = .ok true → ∀ request ∈ handledRequests added, request.isClose = false

theorem sessionRound_written {added : List (WorkerEvent Reader Content)}
    (h : ∀ event ∈ added, event.isWrote = true) (result : Except PythonError Bool) :
    SessionRound added result := by
  have hnone := handledRequests_written h
  refine ⟨.written added h, ?_, ?_⟩
  · rw [hnone]
    exact List.forall_mem_nil _
  · rw [hnone]
    exact fun _ => List.forall_mem_nil _

theorem sessionRound_logs (message : ProtocolMessage) :
    Logs (worker.sessionRound message) SessionRound := by
  apply logs_bind (worker.decode_logs message) (Q := fun decoded added result =>
    (∀ event ∈ added, event.isWrote = true) ∨ ∃ request written,
      decoded = some request ∧ added = .handled request :: written ∧
        (∀ event ∈ written, event.isWrote = true) ∧ request.isSession = true ∧
          (result = .ok true → request.isClose = false))
  · intro decoded
    cases decoded with
    | none => exact logs_pure (Or.inl (List.forall_mem_nil _))
    | some request =>
      dsimp only
      -- what does not belong in a session is answered and never handled
      by_cases hsession : request.isSession = false
      · rw [if_pos hsession]
        apply logs_bind (worker.send_logs _)
          (fun _ => logs_pure (P := fun added _ => added = []) rfl)
        · intro added error hadded
          rw [hadded]
          exact Or.inl (List.forall_mem_singleton.mpr rfl)
        · intro added more _ result hadded hmore
          rw [hadded, hmore]
          exact Or.inl (List.forall_mem_singleton.mpr rfl)
      · rw [if_neg hsession]
        have hrequest : request.isSession = true := by simpa using hsession
        apply logs_bind (worker.serve_logs request) (fun _ => logs_pure
          (P := fun added result => added = [] ∧ result = .ok (!request.isClose)) ⟨rfl, rfl⟩)
        · rintro added error ⟨written, hadded, hwritten⟩
          exact Or.inr ⟨request, written, rfl, hadded, hwritten, hrequest, fun h => by cases h⟩
        · rintro added more _ result ⟨written, hadded, hwritten⟩ ⟨hmore, hresult⟩
          rw [hmore, List.append_nil]
          refine Or.inr ⟨request, written, rfl, hadded, hwritten, hrequest, fun h => ?_⟩
          rw [hresult, Except.ok.injEq] at h
          simpa using h
  · exact fun added error hdecoded => sessionRound_written hdecoded.1 _
  · rintro added more decoded result ⟨hadded, hdecoded⟩
      (hmore | ⟨request, written, rfl, hmore, hwritten, hsession, hclose⟩)
    · exact sessionRound_written (List.forall_mem_append.mpr ⟨hadded, hmore⟩) _
    · obtain ⟨rfl, -⟩ := hdecoded request rfl
      have hhandled : handledRequests ([]++more) = [request] := by
        rw [List.nil_append, hmore]
        exact congrArg (request :: ·) (handledRequests_written hwritten)
      refine ⟨?_, ?_, fun h => ?_⟩
      · rw [List.nil_append, hmore]
        exact .served request written hwritten
      · rw [hhandled]
        exact List.forall_mem_singleton.mpr hsession
      · rw [hhandled]
        exact List.forall_mem_singleton.mpr (hclose h)

/-- The round of the first message. -/
structure FirstRound (message : ProtocolMessage) (added : List (WorkerEvent Reader Content))
    (result : Except PythonError Bool) : Prop where
  events : RoundEvents added
  parsed : ∀ request ∈ handledRequests added, worker.parse message = .ok (.ok request) ∧
    ∃ written, added = .handled request :: written
  more : result = .ok true → ∃ request, handledRequests added = [request] ∧
    request.isSession = true ∧ request.isClose = false

theorem firstRound_written {message : ProtocolMessage} {added : List (WorkerEvent Reader Content)}
    (h : ∀ event ∈ added, event.isWrote = true) {result : Except PythonError Bool}
    (hresult : result ≠ .ok true) : worker.FirstRound message added result := by
  refine ⟨.written added h, ?_, fun hmore => absurd hmore hresult⟩
  rw [handledRequests_written h]
  exact List.forall_mem_nil _

theorem firstRound_logs (message : ProtocolMessage) :
    Logs (worker.firstRound message) (worker.FirstRound message) := by
  apply logs_bind (worker.decode_logs message) (Q := fun decoded added result =>
    (decoded = none ∧ added = [] ∧ result = .ok false) ∨ ∃ request written,
      decoded = some request ∧ added = .handled request :: written ∧
        (∀ event ∈ written, event.isWrote = true) ∧
          (result = .ok true → request.isSession = true ∧ request.isClose = false))
  · intro decoded
    cases decoded with
    | none => exact logs_pure (Or.inl ⟨rfl, rfl, rfl⟩)
    | some request =>
      apply logs_bind (worker.serve_logs request) (fun _ => logs_pure
        (P := fun added result => added = [] ∧ result = .ok (request.isSession && !request.isClose))
        ⟨rfl, rfl⟩)
      · rintro added error ⟨written, hadded, hwritten⟩
        exact Or.inr ⟨request, written, rfl, hadded, hwritten, fun h => by cases h⟩
      · rintro added more _ result ⟨written, hadded, hwritten⟩ ⟨hmore, hresult⟩
        rw [hmore, List.append_nil]
        refine Or.inr ⟨request, written, rfl, hadded, hwritten, fun h => ?_⟩
        rw [hresult, Except.ok.injEq] at h
        simpa using h
  · exact fun added error hdecoded => worker.firstRound_written hdecoded.1 (fun h => by cases h)
  · rintro added more decoded result ⟨hadded, hdecoded⟩
      (⟨-, hmore, hresult⟩ | ⟨request, written, rfl, hmore, hwritten, hgoes⟩)
    · rw [hmore, List.append_nil]
      exact worker.firstRound_written hadded (fun h => by rw [h] at hresult; cases hresult)
    · obtain ⟨rfl, hparse⟩ := hdecoded request rfl
      have hhandled : handledRequests more = [request] := by
        rw [hmore]
        exact congrArg (request :: ·) (handledRequests_written hwritten)
      rw [List.nil_append]
      refine ⟨?_, ?_, fun h => ⟨request, hhandled, hgoes h⟩⟩
      · rw [hmore]
        exact .served request written hwritten
      · rw [hhandled]
        exact List.forall_mem_singleton.mpr ⟨hparse, written, hmore⟩

/-- What `_run_session` adds: session requests only, nothing but the answer after a close,
and never the close of the application. -/
structure SessionTrace (added : List (WorkerEvent Reader Content)) : Prop where
  session : ∀ request ∈ handledRequests added, request.isSession = true
  close_last : added.Pairwise (fun event later => event.endsInput = true → later.isWrote = true)
  open_yet : ∀ event ∈ added, event.isClosed = false

/-- The calls around a message end nothing. -/
theorem sessionTrace_cons {event : WorkerEvent Reader Content}
    {added : List (WorkerEvent Reader Content)} (hends : event.endsInput = false)
    (hrequest : event.request? = none) (hopen : event.isClosed = false)
    (h : SessionTrace added) : SessionTrace (event :: added) := by
  refine ⟨?_, List.pairwise_cons.mpr ⟨fun _ _ hevent => ?_, h.close_last⟩,
    List.forall_mem_cons.mpr ⟨hopen, h.open_yet⟩⟩
  · rw [handledRequests, List.filterMap_cons_none hrequest]
    exact h.session
  · rw [hends] at hevent
    cases hevent

theorem sessionTrace_round {added : List (WorkerEvent Reader Content)}
    {result : Except PythonError Bool} (h : SessionRound added result) : SessionTrace added := by
  refine ⟨h.session, ?_, fun event hevent => (h.events.quiet event hevent).2⟩
  apply h.events.pairwise.imp
  intro _ _ hlater _
  exact hlater

/-- As long as no close was handled, nothing ends the input. -/
theorem endsInput_eq_false {events : List (WorkerEvent Reader Content)}
    (h : ∀ request ∈ handledRequests events, request.isSession = true ∧ request.isClose = false) :
    ∀ event ∈ events, event.endsInput = false := by
  intro event hevent
  cases event with
  | handled request =>
    obtain ⟨hsession, hclose⟩ := h request (List.mem_filterMap.mpr ⟨_, hevent, rfl⟩)
    rw [WorkerEvent.endsInput, hsession, hclose]
    rfl
  | _ => rfl

theorem sessionTrace_append {events later : List (WorkerEvent Reader Content)}
    (hevents : SessionTrace events) (hends : ∀ event ∈ events, event.endsInput = false)
    (hlater : SessionTrace later) : SessionTrace (events++later) := by
  refine ⟨?_, ?_, List.forall_mem_append.mpr ⟨hevents.open_yet, hlater.open_yet⟩⟩
  · rw [handledRequests_append]
    exact List.forall_mem_append.mpr ⟨hevents.session, hlater.session⟩
  · apply List.pairwise_append.mpr
    refine ⟨hevents.close_last, hlater.close_last, fun event hevent _ _ hclose => ?_⟩
    rw [hends event hevent] at hclose
    cases hclose

theorem sessionTrace_nil : SessionTrace ([] : List (WorkerEvent Reader Content)) :=
  ⟨List.forall_mem_nil _, List.Pairwise.nil, List.forall_mem_nil _⟩

/-- `_run_session`, by induction on the bytes that are left. -/
theorem runSession_logs (stream : ByteSource) :
    Logs (worker.runSession stream) (fun added _ => SessionTrace added) := by
  induction hlength : stream.data.length using Nat.strong_induction_on generalizing stream with
  | _ length ih =>
    rw [runSession]
    refine logs_entry (Q := fun added _ => SessionTrace added) ?_
      (fun more _ hmore => sessionTrace_cons rfl rfl rfl hmore)
    split
    · exact logs_raise sessionTrace_nil
    · rename_i message next hread
      have hrest := ih next.data.length (by have := (read_ok hread).2; omega) next rfl
      refine logs_entry (Q := fun added _ => SessionTrace added) ?_
        (fun more _ hmore => sessionTrace_cons rfl rfl rfl hmore)
      have hround : Logs (worker.withMessage (worker.sessionRound message)) SessionRound :=
        worker.withMessage_logs (worker.sessionRound_logs message)
          (fun added result error h => ⟨h.events, h.session, fun herror => by cases herror⟩)
      apply logs_bind hround (Q := fun more added _ => SessionTrace added ∧ (more = false → added = []))
      · intro more
        cases more with
        | true =>
          rw [if_pos rfl]
          exact hrest.mono (fun added _ h => ⟨h, fun hmore => by cases hmore⟩)
        | false =>
          rw [if_neg (by decide)]
          exact logs_pure ⟨sessionTrace_nil, fun _ => rfl⟩
      · exact fun added error h => sessionTrace_round h
      · rintro added more goesOn result h ⟨hmore, hstop⟩
        cases goesOn with
        | true =>
          have hends := endsInput_eq_false (fun request hrequest =>
            ⟨h.session request hrequest, h.more rfl request hrequest⟩)
          exact sessionTrace_append (sessionTrace_round h) hends hmore
        | false =>
          rw [hstop rfl, List.append_nil]
          exact sessionTrace_round h

/-- The calls of the `try` block of `run`. -/
inductive ServedEvents (stream : ByteSource) : List (WorkerEvent Reader Content) → Prop
  | unread : ServedEvents stream [.reading stream]
  | first (message : ProtocolMessage) (round rest : List (WorkerEvent Reader Content))
      (result : Except PythonError Bool) (hround : worker.FirstRound message round result)
      (hrest : rest ≠ [] → result = .ok true) (htrace : SessionTrace rest) :
      ServedEvents stream (.reading stream :: .received message :: (round++rest))

theorem serveAll_logs (stream : ByteSource) :
    Logs (worker.serveAll stream) (fun added _ => worker.ServedEvents stream added) := by
  unfold serveAll
  rcases hread : ProtocolCodec.read worker.loads stream with error | ⟨message, next⟩
  · refine logs_entry (Q := fun added _ => added = []) (logs_raise rfl) ?_
    intro more _ hmore
    rw [hmore]
    exact .unread
  · refine logs_entry (Q := fun added _ => ∃ round rest result,
        added = .received message :: (round++rest) ∧ worker.FirstRound message round result ∧
          (rest ≠ [] → result = .ok true) ∧ SessionTrace rest) ?_ ?_
    -- closing the message may fail behind the round; the run goes on after a clean one only
    · have hround : Logs (worker.withMessage (worker.firstRound message))
          (fun added result => ∃ before, worker.FirstRound message added before ∧
            (result = .ok true → before = .ok true)) := by
        apply worker.withMessage_logs
        · exact (worker.firstRound_logs message).mono
            (fun added result h => ⟨result, h, fun hresult => hresult⟩)
        · rintro added result error ⟨before, h, -⟩
          exact ⟨before, h, fun herror => by cases herror⟩
      refine logs_entry (Q := fun added _ => ∃ round rest result,
        added = round++rest ∧ worker.FirstRound message round result ∧
          (rest ≠ [] → result = .ok true) ∧ SessionTrace rest) ?_ ?_
      · apply logs_bind hround
          (Q := fun more added _ => SessionTrace added ∧ (more = false → added = []))
        · intro more
          cases more with
          | true =>
            rw [if_pos rfl]
            exact (worker.runSession_logs next).mono
              (fun added _ h => ⟨h, fun hmore => by cases hmore⟩)
          | false =>
            rw [if_neg (by decide)]
            exact logs_pure ⟨sessionTrace_nil, fun _ => rfl⟩
        · rintro added error ⟨before, h, -⟩
          exact ⟨added, [], before, (List.append_nil _).symm, h, fun hnil => absurd rfl hnil,
            sessionTrace_nil⟩
        · rintro added more goesOn result ⟨before, h, hbefore⟩ ⟨htrace, hstop⟩
          refine ⟨added, more, before, rfl, h, fun hmore => ?_, htrace⟩
          cases goesOn with
          | true => exact hbefore rfl
          | false => exact absurd (hstop rfl) hmore
      · rintro more _ ⟨round, rest, result, rfl, h⟩
        exact ⟨round, rest, result, rfl, h⟩
    · rintro more _ ⟨round, rest, result, rfl, hround, hrest, htrace⟩
      exact .first message round rest result hround hrest htrace

/-- How requests, reads and the final close are ordered in the calls of a worker. -/
structure Gating (stream : ByteSource) (events : List (WorkerEvent Reader Content)) : Prop where
  reads_first : events.head? = some (.reading stream)
  kinds : handledRequests events = [] ∨
    (∃ request, handledRequests events = [.extract request]) ∨
    ∀ request ∈ handledRequests events, request.isSession = true
  close_last : (handledRequests events).Pairwise (fun earlier _ => earlier.isClose = false)
  extract_first : ∀ request, .extract request ∈ handledRequests events → ∃ message later,
    events = .reading stream :: .received message :: .handled (.extract request) :: later ∧
      worker.parse message = .ok (.ok (.extract request))
  undecodable_first : ∀ message later, events = .reading stream :: .received message :: later →
    (∀ request, worker.parse message ≠ .ok (.ok request)) → handledRequests events = [] ∧
      ∀ event ∈ later, event.isReading = false
  input_ends : events.Pairwise (fun event later =>
    event.endsInput = true → later.isReading = false)
  closed_once : ∃ before, events = before++[.closed] ∧ ∀ event ∈ before, event.isClosed = false

/-- After an event that ends the input only responses are written. -/
theorem ServedEvents.close_last {stream : ByteSource} {events : List (WorkerEvent Reader Content)}
    (h : worker.ServedEvents stream events) :
    events.Pairwise (fun event later => event.endsInput = true → later.isWrote = true) := by
  cases h with
  | unread => exact List.pairwise_singleton _ _
  | first message round rest result hround hrest htrace =>
    have hcall {event : WorkerEvent Reader Content} (hends : event.endsInput = false)
        (later : WorkerEvent Reader Content) (hevent : event.endsInput = true) :
        later.isWrote = true := by
      rw [hends] at hevent
      cases hevent
    refine List.pairwise_cons.mpr ⟨fun later _ => hcall rfl later,
      List.pairwise_cons.mpr ⟨fun later _ => hcall rfl later, ?_⟩⟩
    refine List.pairwise_append.mpr ⟨?_, htrace.close_last, fun event hevent later hlater => ?_⟩
    · apply hround.events.pairwise.imp
      intro _ _ hlater _
      exact hlater
    · -- the session only follows a request that does not end the input
      obtain ⟨request, hhandled, hsession, hclose⟩ :=
        hround.more (hrest (List.ne_nil_of_mem hlater))
      have hround : ∀ request ∈ handledRequests round,
          request.isSession = true ∧ request.isClose = false := by
        rw [hhandled]
        exact List.forall_mem_singleton.mpr ⟨hsession, hclose⟩
      exact hcall (endsInput_eq_false hround event hevent) later

namespace ServedEvents

variable {worker} {stream : ByteSource} {events : List (WorkerEvent Reader Content)}

theorem open_yet (h : worker.ServedEvents stream events) :
    ∀ event ∈ events, event.isClosed = false := by
  cases h with
  | unread => exact List.forall_mem_singleton.mpr rfl
  | first message round rest result hround hrest htrace =>
    refine List.forall_mem_cons.mpr ⟨rfl, List.forall_mem_cons.mpr ⟨rfl, ?_⟩⟩
    exact List.forall_mem_append.mpr
      ⟨fun event hevent => (hround.events.quiet event hevent).2, htrace.open_yet⟩

theorem kinds (h : worker.ServedEvents stream events) : handledRequests events = [] ∨
    (∃ request, handledRequests events = [.extract request]) ∨
    ∀ request ∈ handledRequests events, request.isSession = true := by
  cases h with
  | unread => exact Or.inl rfl
  | first message round rest result hround hrest htrace =>
    change handledRequests (round++rest) = []
      ∨ (∃ request, handledRequests (round++rest) = [.extract request])
      ∨ ∀ request ∈ handledRequests (round++rest), request.isSession = true
    rw [handledRequests_append]
    by_cases hnil : rest = []
    · have hnone : handledRequests rest = [] := by rw [hnil]; rfl
      rw [hnone, List.append_nil]
      cases hround.events with
      | written _ hwritten => exact Or.inl (handledRequests_written hwritten)
      | served request written hwritten =>
        have hhandled : handledRequests (.handled request :: written) = [request] :=
          congrArg (request :: ·) (handledRequests_written hwritten)
        rw [hhandled]
        cases request with
        | extract request => exact Or.inr (Or.inl ⟨request, rfl⟩)
        | session request => exact Or.inr (Or.inr (List.forall_mem_singleton.mpr rfl))
    · obtain ⟨request, hhandled, hsession, -⟩ := hround.more (hrest hnil)
      rw [hhandled]
      exact Or.inr (Or.inr (List.forall_mem_cons.mpr ⟨hsession, htrace.session⟩))

/-- An extract is handled for the first message only. -/
theorem extract_first (h : worker.ServedEvents stream events) {request : ExtractDocumentRequest}
    (hrequest : .extract request ∈ handledRequests events) : ∃ message later,
    events = .reading stream :: .received message :: .handled (.extract request) :: later ∧
      worker.parse message = .ok (.ok (.extract request)) := by
  cases h with
  | unread => cases hrequest
  | first message round rest result hround hrest htrace =>
    have hmember : .extract request ∈ handledRequests round++handledRequests rest := by
      rw [← handledRequests_append]
      exact hrequest
    rcases List.mem_append.mp hmember with hmember | hmember
    · obtain ⟨hparse, written, hwritten⟩ := hround.parsed _ hmember
      exact ⟨message, written++rest, by rw [hwritten]; rfl, hparse⟩
    · have hsession := htrace.session _ hmember
      cases hsession

/-- After a first message that is no request, nothing is handled or read. -/
theorem undecodable_first (h : worker.ServedEvents stream events) {message : ProtocolMessage}
    {later : List (WorkerEvent Reader Content)}
    (hevents : events = .reading stream :: .received message :: later)
    (hparse : ∀ request, worker.parse message ≠ .ok (.ok request)) :
    handledRequests later = [] ∧ ∀ event ∈ later, event.isReading = false := by
  cases h with
  | unread => cases hevents
  | first message' round rest result hround hrest htrace =>
    simp only [List.cons.injEq, WorkerEvent.received.injEq, true_and] at hevents
    obtain ⟨rfl, rfl⟩ := hevents
    have hnone : handledRequests round = [] := by
      rw [List.eq_nil_iff_forall_not_mem]
      exact fun request hrequest => hparse request (hround.parsed request hrequest).1
    have hnil : rest = [] := by
      by_contra hrest'
      obtain ⟨request, hhandled, -⟩ := hround.more (hrest hrest')
      rw [hnone] at hhandled
      cases hhandled
    rw [hnil, List.append_nil]
    exact ⟨hnone, fun event hevent => (hround.events.quiet event hevent).1⟩

theorem gating (h : worker.ServedEvents stream events) :
    worker.Gating stream (events++[.closed]) := by
  have hlast := h.close_last
  have hhandled : handledRequests (events++[.closed]) = handledRequests events := by
    rw [handledRequests_append]
    exact List.append_nil _
  refine ⟨?_, ?_, ?_, ?_, ?_, ?_, events, rfl, h.open_yet⟩
  · cases h <;> rfl
  · rw [hhandled]
    exact h.kinds
  · rw [hhandled, handledRequests, List.pairwise_filterMap]
    refine hlast.imp ?_
    intro event later hwrote request hrequest request' hrequest'
    cases event with
    | handled asked =>
      obtain rfl : asked = request := Option.some.inj hrequest
      -- behind a close that was handled there are only writes
      by_contra hclose
      have hclose : asked.isClose = true := by simpa using hclose
      have hquiet := WorkerEvent.isWrote_quiet (hwrote (by rw [WorkerEvent.endsInput, hclose]; rfl))
      rw [hquiet.2.1] at hrequest'
      cases hrequest'
    | _ => cases hrequest
  · intro request hrequest
    rw [hhandled] at hrequest
    obtain ⟨message, later, hevents, hparse⟩ := h.extract_first hrequest
    exact ⟨message, later++[.closed], by rw [hevents]; rfl, hparse⟩
  · intro message later hevents hparse
    rw [hhandled]
    cases h with
    | unread => cases hevents
    | first message' round rest result hround hrest htrace =>
      simp only [List.cons_append, List.cons.injEq, WorkerEvent.received.injEq, true_and] at hevents
      obtain ⟨rfl, rfl⟩ := hevents
      have hserved : worker.ServedEvents stream
          (.reading stream :: .received message' :: (round++rest)) :=
        .first message' round rest result hround hrest htrace
      obtain ⟨hnone, hreading⟩ := hserved.undecodable_first rfl hparse
      exact ⟨hnone, List.forall_mem_append.mpr ⟨hreading, List.forall_mem_singleton.mpr rfl⟩⟩
  · apply List.pairwise_append.mpr
    refine ⟨?_, List.pairwise_singleton _ _, fun event _ later hlater _ => ?_⟩
    · apply hlast.imp
      intro event later hwrote hends
      exact (WorkerEvent.isWrote_quiet (hwrote hends)).1
    · rw [List.mem_singleton.mp hlater]
      rfl

end ServedEvents

/-- Over every input, and whatever the application and the streams do: a run handles
nothing, or the extract that its first message asks for, or session requests of which only
the last can be a close; after a close, an extract or an undecodable first message nothing
more is read; and the application is closed once, at the end. -/
theorem run_gating (stream : ByteSource) : worker.Gating stream (worker.run stream []).2 := by
  have hclose : Logs (do emit .closed; Script.ask worker.close)
      (fun (added : List (WorkerEvent Reader Content)) _ => added = [.closed]) := by
    refine logs_entry (Q := fun added _ => added = []) (logs_silent _ (fun _ => rfl)) ?_
    intro more _ hmore
    rw [hmore]
  have hrun : Logs (worker.run stream) (fun added _ => worker.Gating stream added) := by
    apply logs_finally (worker.serveAll_logs stream) hclose
    intro added more result outcome hadded hmore
    rw [hmore]
    exact hadded.gating
  obtain ⟨added, hadded, hgating⟩ := hrun []
  rw [hadded, List.nil_append]
  exact hgating

end GatedWorker

end ConferWorker
