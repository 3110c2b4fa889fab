import ConferWorker.ResponseTotality

/-! Runs of the worker: what one exchange owes, and what a whole run owes. -/
namespace ConferWorker

variable {Reader Content : Type}

section AndThen

variable {first : Bool} {exchange : Exchange Reader Content} {rest : WorkerRun Reader Content}
  (hexchange : exchange.Answered ↔ exchange.Fits)

theorem andThen_ok (h : exchange.outcome = .ok ()) :
    exchange.andThen rest = { rest with exchanges := exchange :: rest.exchanges } := by
  rw [Exchange.andThen, h]

theorem andThen_error {error : PythonError} (h : exchange.outcome = .error error) :
    exchange.andThen rest = ⟨[exchange], .unwritten error, exchange.after⟩ := by
  rw [Exchange.andThen, h]

/-- A run never counts as answered when a `_write` raised. -/
theorem not_answered_unwritten (first : Bool) (exchanges : List (Exchange Reader Content))
    (error : PythonError) : ¬Answered first exchanges (.unwritten error) := by
  intro h
  generalize hending : WorkerEnding.unwritten error = ending at h
  induction h with
  | unread => cases hending
  | last => cases hending
  | more _ _ _ _ _ _ _ ih => exact ih hending

include hexchange

/-- An exchange that lets the run go on. -/
theorem andThen_iff (hcontinues : exchange.endsRun first = false) (hrest : rest.AnsweredIff false) :
    (exchange.andThen rest).AnsweredIff first := by
  unfold WorkerRun.AnsweredIff at hrest ⊢
  rcases houtcome : exchange.outcome with error | ⟨⟩
  · -- the exception leaves the run, and the answer did not fit
    rw [andThen_error houtcome]
    refine iff_of_false (not_answered_unwritten first _ error) ?_
    intro hfits
    have hanswered := hexchange.mpr (hfits exchange (List.mem_singleton_self _))
    rw [Exchange.Answered, houtcome] at hanswered
    cases hanswered.1
  · rw [andThen_ok houtcome, List.forall_mem_cons, ← hexchange, ← hrest]
    obtain ⟨exchanges, ending, session⟩ := rest
    constructor
    · intro h
      cases h with
      | last _ _ _ hends =>
        rw [hcontinues] at hends
        cases hends
      | more _ _ _ _ hanswered _ hothers => exact ⟨hanswered, hothers⟩
    · intro h
      exact .more _ _ _ _ h.1 hcontinues h.2

/-- An exchange after which the run returns. -/
theorem andThen_returned_iff (hends : exchange.endsRun first = true)
    (session : DocumentSession Reader) :
    (exchange.andThen ⟨[], .returned, session⟩).AnsweredIff first := by
  unfold WorkerRun.AnsweredIff
  rcases houtcome : exchange.outcome with error | ⟨⟩
  · rw [andThen_error houtcome]
    refine iff_of_false (not_answered_unwritten first _ error) ?_
    intro hfits
    have hanswered := hexchange.mpr (hfits exchange (List.mem_singleton_self _))
    rw [Exchange.Answered, houtcome] at hanswered
    cases hanswered.1
  · rw [andThen_ok houtcome, List.forall_mem_cons, ← hexchange]
    constructor
    · intro h
      cases h with
      | last _ _ hanswered _ => exact ⟨hanswered, List.forall_mem_nil _⟩
      | more _ _ _ _ _ hcontinues _ =>
        rw [hends] at hcontinues
        cases hcontinues
    · intro h
      exact .last _ _ h.1 hends

end AndThen

namespace WorkerProcess

variable {process : WorkerProcess Reader Content} {n : ℕ} {session : DocumentSession Reader}
  {stream next : ByteSource} {message : ProtocolMessage}

/-- A message that was read is decoded or refused with a short text. -/
theorem decode_cases (process : WorkerProcess Reader Content)
    (hfiles : FilesOnly message.payloads) :
    (∃ request, process.decode message = .ok (.ok request)) ∨
      ∃ text, ShortText text ∧ process.decode message = .ok (.error text) := by
  have hraises : RaisesOnly Refusal (RequestDecoder.decode process.sha256.hexdigest message :
      Except PythonError (WorkerRequest (workerTypes Reader Content))) :=
    RequestDecoder.decode_refuses process.sha256 hfiles
  unfold decode
  rcases hdecode : RequestDecoder.decode process.sha256.hexdigest message with error | request
  · obtain ⟨hclass, hshort⟩ := hraises error hdecode
    exact Or.inr ⟨error.message, hshort, if_pos hclass⟩
  · exact Or.inl ⟨request, rfl⟩

theorem runSession_unread {error : PythonError}
    (h : ProtocolCodec.read process.loads stream = .error error) :
    process.runSession n session stream = ⟨[], .unread error, session⟩ := by
  rw [runSession]
  split
  · simp_all
  · simp_all

theorem runSession_read (h : ProtocolCodec.read process.loads stream = .ok (message, next)) :
    process.runSession n session stream =
      match process.decode message with
      | .error error => ⟨[], .undecoded message error, session⟩
      | .ok (.error text) =>
        (refuse (process.calls n) session message text).andThen
          (runSession process (n+1) session next)
      | .ok (.ok (.extract _)) =>
        (refuse (process.calls n) session message sessionOnlyMessage).andThen
          (runSession process (n+1) session next)
      | .ok (.ok (.session .close)) =>
        (serve (process.calls n) session message (.session .close)).andThen
          ⟨[], .returned, (serve (process.calls n) session message (.session .close)).after⟩
      | .ok (.ok request) =>
        (serve (process.calls n) session message request).andThen
          (runSession process (n+1) (serve (process.calls n) session message request).after
            next) := by
  rw [runSession]
  split
  · simp_all
  · rename_i message' next' h'
    rw [h, Except.ok.injEq, Prod.mk.injEq] at h'
    obtain ⟨rfl, rfl⟩ := h'
    rfl

section Served

variable {request : SessionRequest (workerTypes Reader Content)}
  (hread : ProtocolCodec.read process.loads stream = .ok (message, next))
  (hdecode : process.decode message = .ok (.ok (.session request)))

include hread hdecode

/-- A session request that is answered lets the session go on. -/
theorem runSession_served {after : DocumentSession Reader} {rest : WorkerRun Reader Content}
    (hopen : request ≠ .close)
    (houtcome : (serve (process.calls n) session message (.session request)).outcome = .ok ())
    (hafter : (serve (process.calls n) session message (.session request)).after = after)
    (hrest : process.runSession (n+1) after next = rest) :
    process.runSession n session stream =
      { rest with
        exchanges := serve (process.calls n) session message (.session request)
          :: rest.exchanges } := by
  subst hafter hrest
  rw [runSession_read hread, hdecode]
  cases request with
  | close => exact absurd rfl hopen
  | _ => exact andThen_ok houtcome

theorem serveAll_served {after : DocumentSession Reader} {rest : WorkerRun Reader Content}
    (hopen : request ≠ .close)
    (houtcome : (serve (process.calls 0) .initial message (.session request)).outcome = .ok ())
    (hafter : (serve (process.calls 0) .initial message (.session request)).after = after)
    (hrest : process.runSession 1 after next = rest) :
    process.serveAll stream =
      { rest with
        exchanges := serve (process.calls 0) .initial message (.session request)
          :: rest.exchanges } := by
  subst hafter hrest
  rw [serveAll, hread]
  dsimp only
  rw [hdecode]
  cases request with
  | close => exact absurd rfl hopen
  | _ => exact andThen_ok houtcome

/-- `session_close` ends the session. -/
theorem runSession_closed (hclose : request = .close)
    (houtcome : (serve (process.calls n) session message (.session .close)).outcome = .ok ()) :
    process.runSession n session stream =
      let exchange := serve (process.calls n) session message (.session .close)
      ⟨[exchange], .returned, exchange.after⟩ := by
  subst hclose
  rw [runSession_read hread, hdecode]
  exact andThen_ok houtcome

end Served

/-- A run without an exchange that ends with the input. -/
theorem unread_iff (first : Bool) (error : PythonError) (session : DocumentSession Reader) :
    (⟨[], .unread error, session⟩ : WorkerRun Reader Content).AnsweredIff first :=
  iff_of_true (.unread first error) (List.forall_mem_nil _)

theorem refuse_answered_iff {calls : WorkerCalls Reader Content} {text : Str}
    (h : ShortText text) : (refuse calls session message text).Answered ↔
      (refuse calls session message text).Fits := by
  obtain ⟨hanswered, hfits⟩ := refuse_answered h
  exact iff_of_true hanswered hfits

/-- `_run_session` from any state on, by induction on the bytes that are left. -/
theorem runSession_iff (process : WorkerProcess Reader Content)
    (foreign : ∀ i, (process.calls i).Foreign) (n : ℕ) (session : DocumentSession Reader)
    (stream : ByteSource) : (process.runSession n session stream).AnsweredIff false := by
  induction hlength : stream.data.length using Nat.strong_induction_on
    generalizing n session stream with
  | _ length ih =>
    rcases hread : ProtocolCodec.read process.loads stream with error | ⟨message, next⟩
    · rw [runSession_unread hread]
      exact unread_iff false error session
    obtain ⟨hfiles, hshorter⟩ := read_ok hread
    have hrest (session : DocumentSession Reader) :
        (process.runSession (n+1) session next).AnsweredIff false :=
      ih next.data.length (by omega) (n+1) session next rfl
    rw [runSession_read hread]
    rcases process.decode_cases hfiles with ⟨request, hdecode⟩ | ⟨text, hshort, hdecode⟩
    · rw [hdecode]
      have hserve := serve_answered_iff (foreign n) session message request
      rcases request with request | request
      · exact andThen_iff (refuse_answered_iff (by decide)) rfl (hrest session)
      · cases request with
        | close => exact andThen_returned_iff hserve rfl _
        | _ => exact andThen_iff hserve rfl (hrest _)
    · rw [hdecode]
      exact andThen_iff (refuse_answered_iff hshort) rfl (hrest session)

end WorkerProcess

/-- On every input stream the worker answers every message that it read with one frame, in
order, up to the message that ends the run, exactly when every answer in the run fits. -/
theorem worker_answers_iff (process : WorkerProcess Reader Content)
    (foreign : ∀ i, (process.calls i).Foreign) (stream : ByteSource) :
    Answered true (process.run stream).exchanges (process.run stream).ending ↔
      ∀ exchange ∈ (process.run stream).exchanges, exchange.Fits := by
  have hserved : (process.serveAll stream).AnsweredIff true := by
    unfold WorkerProcess.serveAll
    rcases hread : ProtocolCodec.read process.loads stream with error | ⟨message, next⟩
    · exact WorkerProcess.unread_iff true error .initial
    obtain ⟨hfiles, -⟩ := read_ok hread
    dsimp only
    rcases process.decode_cases hfiles with ⟨request, hdecode⟩ | ⟨text, hshort, hdecode⟩
    · rw [hdecode]
      have hserve := serve_answered_iff (foreign 0) .initial message request
      rcases request with request | request
      · exact andThen_returned_iff hserve rfl _
      · cases request with
        | close => exact andThen_returned_iff hserve rfl _
        | _ => exact andThen_iff hserve rfl (process.runSession_iff foreign 1 _ next)
    · rw [hdecode]
      exact andThen_returned_iff (WorkerProcess.refuse_answered_iff hshort) rfl _
  exact hserved

/-- Collaborators that are not called. -/
def unusedCalls : WorkerCalls Reader Content :=
  let unused : PythonError := .typeError (ofString "not called")
  { session := {
      readerFactory := fun _ => .error unused
      extract := fun _ _ _ => .error unused
      write := fun _ => .error unused
      metadata := fun _ => .error unused
      outline := fun _ _ => .error unused
      labeledContainers := fun _ => .error unused
      firstChunkId := fun _ => .error unused
      fullTextIfSmall := fun _ _ => .error unused
      search := fun _ _ _ _ => .error unused
      readContainers := fun _ _ _ => .error unused
      renderFromReader := fun _ _ _ _ => .error unused }
    extract := fun _ _ _ => .error unused
    write := fun _ => .error unused }

theorem unusedCalls_foreign : (unusedCalls : WorkerCalls Reader Content).Foreign where
  readerFactory _ := raisesOnly_error rfl
  extractText _ _ _ := raisesOnly_error rfl
  writeText _ := raisesOnly_error rfl
  metadata _ := raisesOnly_error rfl
  outline _ _ := raisesOnly_error rfl
  labeledContainers _ := raisesOnly_error rfl
  firstChunkId _ := raisesOnly_error rfl
  fullTextIfSmall _ _ := raisesOnly_error rfl
  search _ _ _ _ := raisesOnly_error rfl
  readContainers _ _ _ := raisesOnly_error rfl
  renderFromReader _ _ _ _ := raisesOnly_error rfl
  extract _ _ _ := raisesOnly_error rfl
  write _ := raisesOnly_error rfl

end ConferWorker
