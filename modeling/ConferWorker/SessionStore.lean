import ConferWorker.SessionLifecycle

/-! A document session as an atomic keyed store: every document id is a cell of
its own, and a closed session is as good as a fresh one. -/
namespace ConferWorker

open DocumentSession

variable {T : SessionTypes}

/-- The open documents and their readers, without the ghosts. -/
def DocumentSession.contents {Reader : Type} (session : DocumentSession Reader) :
    List (Str × Reader) :=
  session.readers.map (fun entry => (entry.1, entry.2.reader))

/-- The reader of one document. -/
def DocumentSession.cell {Reader : Type} (session : DocumentSession Reader) (id : Str) :
    Option Reader :=
  (session.find id).map OpenReader.reader

/-- One document on its own: what a request does to its cell, and the response. -/
def cellStep (calls : SessionCalls T) (cell : Option T.Reader) (request : SessionRequest T) :
    Option T.Reader × Except PythonError (SessionResponse T) :=
  match request with
  | .openDocument _ | .openText _ =>
    match cell with
    | some reader =>
      (some reader, .error (.documentOperation (ofString "Document is already open")))
    | none =>
      match buildReader calls request with
      | .error error => (none, .error error)
      | .ok reader => (some reader, .ok .empty)
  | .overview _ | .search _ | .read _ | .render _ =>
    match cell with
    | none => (none, .error (.documentOperation (ofString "Document is not open")))
    | some reader => (some reader, answer calls reader request)
  | .release _ | .close => (none, .ok .empty)

theorem lookup_cons_ne {β : Type} (entries : List (Str × β)) {key other : Str} (value : β)
    (h : other ≠ key) : ((key, value) :: entries).lookup other = entries.lookup other := by
  have hbeq : (other == key) = false := beq_false_of_ne h
  rw [List.lookup_cons, hbeq]

theorem lookup_filter_self {β : Type} (entries : List (Str × β)) (key other : Str) :
    (entries.filter (fun entry => entry.1 ≠ key)).lookup other
      = if other = key then none else entries.lookup other := by
  induction entries with
  | nil => simp
  | cons entry entries ih =>
    obtain ⟨id, value⟩ := entry
    by_cases hkey : id = key
    · subst hkey
      rw [List.filter_cons_of_neg (by simp), ih]
      split_ifs with hother
      · rfl
      · rw [lookup_cons_ne entries value hother]
    · rw [List.filter_cons_of_pos (by simpa using hkey)]
      rcases eq_or_ne other id with rfl | hother
      · rw [if_neg hkey, List.lookup_cons_self, List.lookup_cons_self]
      · rw [lookup_cons_ne _ value hother, lookup_cons_ne _ value hother, ih]

theorem cell_register {Reader : Type} (session : DocumentSession Reader) (id other : Str)
    (reader : Reader) (h : session.find id = none) :
    (session.register id reader).cell other
      = if other = id then some reader else session.cell other := by
  rw [find] at h
  rw [cell, find, register, List.lookup_append]
  split_ifs with hother
  · rw [hother, h, List.lookup_cons_self]
    rfl
  · rw [lookup_cons_ne [] _ hother, List.lookup_nil, Option.or_none]
    rfl

theorem cell_remove {Reader : Type} (session : DocumentSession Reader) (id other : Str)
    (openReader : OpenReader Reader) :
    (session.remove id openReader).cell other
      = if other = id then none else session.cell other := by
  unfold cell find remove
  rw [lookup_filter_self]
  split_ifs <;> rfl

/-- A request opens a document, asks an open one, releases one or closes the session. -/
theorem SessionRequest.kinds (request : SessionRequest T) :
    (∃ id, request.documentId = some id ∧ request.opens = true)
    ∨ (∃ id, request.documentId = some id ∧ request.opens = false ∧ request.queries = true)
    ∨ (∃ release', request = .release release') ∨ request = .close := by
  cases request with
  | openDocument request => exact .inl ⟨_, rfl, rfl⟩
  | openText request => exact .inl ⟨_, rfl, rfl⟩
  | release request => exact .inr (.inr (.inl ⟨_, rfl⟩))
  | close => exact .inr (.inr (.inr rfl))
  | _ => exact .inr (.inl ⟨_, rfl, rfl, rfl⟩)

section Kinds

variable (calls : SessionCalls T) (session : DocumentSession T.Reader) {request : SessionRequest T}
  {id : Str} (hid : request.documentId = some id)
include hid

theorem execute_opens (hopens : request.opens = true) :
    execute calls session request = openReader calls session id request := by
  cases request with
  | openDocument request =>
    cases hid
    rfl
  | openText request =>
    cases hid
    rfl
  | _ => cases hopens

theorem execute_queries (hqueries : request.queries = true) :
    execute calls session request = ask calls session id request := by
  cases request with
  | overview request =>
    cases hid
    rfl
  | search request =>
    cases hid
    rfl
  | read request =>
    cases hid
    rfl
  | render request =>
    cases hid
    rfl
  | _ => cases hqueries

end Kinds

/-- What opening does, by the cell of the document and the room in the session. -/
theorem openReader_eq (calls : SessionCalls T) (session : DocumentSession T.Reader) (id : Str)
    (request : SessionRequest T) :
    openReader calls session id request = match session.find id with
      | some _ =>
        (session, .error (.documentOperation (ofString "Document is already open")))
      | none =>
        if maxDocuments ≤ session.readers.length then
          (session, .error (.documentOperation (ofString "Document session capacity exceeded")))
        else match buildReader calls request with
          | .error error => (session, .error error)
          | .ok reader => (session.register id reader, .ok .empty) := by
  unfold openReader requireOpenCapacity
  cases hfind : session.find id with
  | some openReader => rfl
  | none =>
    rw [raiseIf_of_not _ (by simp), ok_bind, raiseIf]
    by_cases hfull : maxDocuments ≤ session.readers.length
    · rw [if_pos hfull, if_pos hfull]
    · rw [if_neg hfull]
      exact (if_neg hfull).symm

theorem openReader_cell (calls : SessionCalls T) (session : DocumentSession T.Reader) (id : Str)
    (request : SessionRequest T) (hroom : session.readers.length < maxDocuments)
    (hrequest : request.opens = true) :
    ((openReader calls session id request).1.cell id, (openReader calls session id request).2)
      = cellStep calls (session.cell id) request := by
  have hcell : cellStep calls (session.cell id) request = match session.find id with
      | some openReader => (some openReader.reader,
          .error (.documentOperation (ofString "Document is already open")))
      | none => match buildReader calls request with
        | .error error => (none, .error error)
        | .ok reader => (some reader, .ok .empty) := by
    unfold cell
    cases request with
    | openDocument request => cases session.find id <;> rfl
    | openText request => cases session.find id <;> rfl
    | _ => cases hrequest
  rw [hcell, openReader_eq calls session id request, if_neg (not_le.mpr hroom)]
  cases hfind : session.find id with
  | some openReader => simp [cell, hfind]
  | none =>
    cases hbuild : buildReader calls request with
    | error error => simp [cell, hfind]
    | ok reader => simp [cell_register session id id reader hfind]

/-- What a query does to a cell. -/
theorem cellStep_query (calls : SessionCalls T) (session : DocumentSession T.Reader) (id : Str)
    (request : SessionRequest T) (hrequest : request.queries = true) :
    cellStep calls (session.cell id) request = match session.find id with
      | none => (none, .error (.documentOperation (ofString "Document is not open")))
      | some openReader => (some openReader.reader, answer calls openReader.reader request) := by
  unfold cell
  cases request with
  | overview request => cases session.find id <;> rfl
  | search request => cases session.find id <;> rfl
  | read request => cases session.find id <;> rfl
  | render request => cases session.find id <;> rfl
  | _ => cases hrequest

theorem ask_cell (calls : SessionCalls T) (session : DocumentSession T.Reader) (id : Str)
    (request : SessionRequest T) (hrequest : request.queries = true) :
    ((ask calls session id request).1.cell id, (ask calls session id request).2)
      = cellStep calls (session.cell id) request := by
  rw [cellStep_query calls session id request hrequest, ask]
  cases hfind : session.find id with
  | none => simp [cell, hfind]
  | some openReader =>
    have huse : (session.use openReader).find id = session.find id := rfl
    simp [cell, huse, hfind]

/-- A request on a document does to its cell what it would do alone. -/
theorem execute_own (calls : SessionCalls T) (session : DocumentSession T.Reader) (id : Str)
    (request : SessionRequest T) (hconcerns : request.concerns id = true)
    (hroom : request.opens = true → session.readers.length < maxDocuments) :
    ((execute calls session request).1.cell id, (execute calls session request).2)
      = cellStep calls (session.cell id) request := by
  rcases request.kinds with ⟨other, hid, hopens⟩ | ⟨other, hid, -, hqueries⟩ | ⟨request, rfl⟩ | rfl
  · obtain rfl := (SessionRequest.concerns_iff hid id).mp hconcerns
    rw [execute_opens calls session hid hopens]
    exact openReader_cell calls session _ _ (hroom hopens) hopens
  · obtain rfl := (SessionRequest.concerns_iff hid id).mp hconcerns
    rw [execute_queries calls session hid hqueries]
    exact ask_cell calls session _ _ hqueries
  · obtain rfl := (SessionRequest.concerns_iff rfl id).mp hconcerns
    change ((session.release request.documentId).cell request.documentId, _) = (none, _)
    congr 1
    unfold release
    cases hfind : session.find request.documentId with
    | none => simp [cell, hfind]
    | some openReader => simp [cell_remove]
  · rfl

/-- A request on another document leaves a cell as it is. -/
theorem execute_other (calls : SessionCalls T) (session : DocumentSession T.Reader) (id : Str)
    (request : SessionRequest T) (hconcerns : request.concerns id = false) :
    (execute calls session request).1.cell id = session.cell id := by
  have hne {other : Str} (hother : request.documentId = some other) : id ≠ other := by
    rintro rfl
    rw [(SessionRequest.concerns_iff hother id).mpr rfl] at hconcerns
    cases hconcerns
  rcases request.kinds with ⟨other, hid, hopens⟩ | ⟨other, hid, -, hqueries⟩ | ⟨request, rfl⟩ | rfl
  · have hdifferent := hne hid
    rw [execute_opens calls session hid hopens]
    unfold openReader
    cases hcapacity : session.requireOpenCapacity other with
    | error error => rfl
    | ok u =>
      obtain ⟨hfree, -⟩ := (requireOpenCapacity_eq_ok session other).mp hcapacity
      cases buildReader calls request with
      | error error => rfl
      | ok reader => simp [cell_register session other id reader hfree, hdifferent]
  · rw [execute_queries calls session hid hqueries]
    unfold ask
    cases session.find other <;> rfl
  · have hdifferent : id ≠ request.documentId := hne rfl
    change (session.release request.documentId).cell id = session.cell id
    unfold release
    cases session.find request.documentId with
    | none => rfl
    | some openReader => simp [cell_remove, hdifferent]
  · cases hconcerns

/-- The responses to the requests that concern a document. -/
def ownResults (id : Str) : DocumentSession T.Reader → List (SessionEvent T) →
    List (Except PythonError (SessionResponse T))
  | _, [] => []
  | session, event :: events =>
    if event.2.concerns id then
      (execute event.1 session event.2).2 :: ownResults id (sessionStep session event) events
    else ownResults id (sessionStep session event) events

/-- The responses of one document on its own. -/
def cellResults : Option T.Reader → List (SessionEvent T) →
    List (Except PythonError (SessionResponse T))
  | _, [] => []
  | cell, event :: events =>
    (cellStep event.1 cell event.2).2 :: cellResults (cellStep event.1 cell event.2).1 events

/-- No open meets a full session. -/
def BelowCapacity : DocumentSession T.Reader → List (SessionEvent T) → Prop
  | _, [] => True
  | session, event :: events =>
    (event.2.opens = true → session.readers.length < maxDocuments) ∧
      BelowCapacity (sessionStep session event) events

/-- The session refines a family of independent cells, one for each document. -/
theorem ownResults_eq (id : Str) (session : DocumentSession T.Reader)
    (events : List (SessionEvent T)) (h : BelowCapacity session events) :
    ownResults id session events
      = cellResults (session.cell id) (events.filter (fun event => event.2.concerns id)) := by
  induction events generalizing session with
  | nil => rfl
  | cons event events ih =>
    obtain ⟨hroom, hrest⟩ := h
    by_cases hconcerns : event.2.concerns id = true
    · have hown := execute_own event.1 session id event.2 hconcerns hroom
      have hfilter : (event :: events).filter (fun event => event.2.concerns id)
          = event :: events.filter (fun event => event.2.concerns id) :=
        List.filter_cons_of_pos hconcerns
      rw [ownResults, if_pos hconcerns, hfilter, cellResults, ih _ hrest, ← hown]
      rfl
    · have hother := execute_other event.1 session id event.2 (by simpa using hconcerns)
      have hfilter : (event :: events).filter (fun event => event.2.concerns id)
          = events.filter (fun event => event.2.concerns id) :=
        List.filter_cons_of_neg hconcerns
      rw [ownResults, if_neg hconcerns, hfilter, ih _ hrest]
      exact congrArg (fun cell => cellResults cell _) hother

/-- The abstract keyed store: readers by document id, nothing else. -/
def storeStep (calls : SessionCalls T) (store : List (Str × T.Reader)) (request : SessionRequest T) :
    List (Str × T.Reader) × Except PythonError (SessionResponse T) :=
  match request.documentId with
  | none => ([], .ok .empty)
  | some id =>
    if request.opens then
      if (store.lookup id).isSome then
        (store, .error (.documentOperation (ofString "Document is already open")))
      else if maxDocuments ≤ store.length then
        (store, .error (.documentOperation (ofString "Document session capacity exceeded")))
      else match buildReader calls request with
        | .error error => (store, .error error)
        | .ok reader => (store++[(id, reader)], .ok .empty)
    else if request.queries then
      match store.lookup id with
      | none => (store, .error (.documentOperation (ofString "Document is not open")))
      | some reader => (store, answer calls reader request)
    else (store.filter (fun entry => entry.1 ≠ id), .ok .empty)

theorem contents_lookup {Reader : Type} (session : DocumentSession Reader) (id : Str) :
    session.contents.lookup id = (session.find id).map OpenReader.reader := by
  unfold contents find
  induction session.readers with
  | nil => rfl
  | cons entry entries ih =>
    obtain ⟨key, openReader⟩ := entry
    rw [List.map_cons]
    rcases eq_or_ne id key with rfl | hne
    · rw [List.lookup_cons_self, List.lookup_cons_self]
      rfl
    · rw [lookup_cons_ne _ _ hne, lookup_cons_ne _ _ hne, ih]

theorem contents_length {Reader : Type} (session : DocumentSession Reader) :
    session.contents.length = session.readers.length :=
  List.length_map _

theorem contents_filter {Reader : Type} (session : DocumentSession Reader) (id : Str) :
    session.contents.filter (fun entry => entry.1 ≠ id)
      = (session.readers.filter (fun entry => entry.1 ≠ id)).map
          (fun entry => (entry.1, entry.2.reader)) := by
  rw [contents, List.filter_map]
  rfl

/-- Releasing a document removes its entry, if there is one. -/
theorem release_readers (session : DocumentSession T.Reader) (id : Str) :
    (session.release id).readers = session.readers.filter (fun entry => entry.1 ≠ id) := by
  unfold release
  cases hfind : session.find id with
  | some openReader => rfl
  | none =>
    rw [eq_comm, List.filter_eq_self]
    intro entry hentry
    simp only [ne_eq, decide_eq_true_eq]
    exact fun heq => find_none hfind (List.mem_map.mpr ⟨entry, hentry, heq⟩)

/-- The session refines the keyed store. -/
theorem execute_store (calls : SessionCalls T) (session : DocumentSession T.Reader)
    (request : SessionRequest T) :
    ((execute calls session request).1.contents, (execute calls session request).2)
      = storeStep calls session.contents request := by
  rcases request.kinds with ⟨id, hid, hopens⟩ | ⟨id, hid, hopens, hqueries⟩ | ⟨request, rfl⟩ | rfl
  · rw [execute_opens calls session hid hopens, openReader_eq, storeStep, hid]
    dsimp only
    rw [if_pos hopens, contents_lookup, contents_length, Option.isSome_map]
    cases hfind : session.find id with
    | some openReader => rfl
    | none =>
      by_cases hfull : maxDocuments ≤ session.readers.length
      · simp [hfull]
      · cases buildReader calls request with
        | error error => simp [hfull]
        | ok reader => simp [hfull, contents, register]
  · rw [execute_queries calls session hid hqueries, storeStep, ask, hid]
    dsimp only
    rw [if_neg (by simp [hopens]), if_pos hqueries, contents_lookup]
    cases session.find id <;> rfl
  · change ((session.release request.documentId).contents, _)
      = (session.contents.filter (fun entry => entry.1 ≠ request.documentId), _)
    rw [contents_filter, ← release_readers]
    rfl
  · rfl

/-- The responses of a session. -/
def sessionResults : DocumentSession T.Reader → List (SessionEvent T) →
    List (Except PythonError (SessionResponse T))
  | _, [] => []
  | session, event :: events =>
    (execute event.1 session event.2).2 :: sessionResults (sessionStep session event) events

/-- Sessions with the same contents answer alike and stay alike. -/
theorem sessionResults_congr (session other : DocumentSession T.Reader)
    (events : List (SessionEvent T)) (h : session.contents = other.contents) :
    sessionResults session events = sessionResults other events ∧
      (runEvents sessionStep session events).contents
        = (runEvents sessionStep other events).contents := by
  induction events generalizing session other with
  | nil => exact ⟨rfl, h⟩
  | cons event events ih =>
    have hsession := execute_store event.1 session event.2
    have hother := execute_store event.1 other event.2
    rw [h, ← hother, Prod.mk.injEq] at hsession
    obtain ⟨hresults, hcontents⟩ := ih (sessionStep session event) (sessionStep other event)
      hsession.1
    refine ⟨?_, hcontents⟩
    rw [sessionResults, sessionResults, hsession.2, hresults]

/-- A request that must not change anything does not. -/
theorem execute_refused (calls : SessionCalls T) (session : DocumentSession T.Reader)
    (request : SessionRequest T) (id : Str) (hid : request.documentId = some id)
    (hopens : request.opens = true)
    (h : (session.find id).isSome = true ∨ maxDocuments ≤ session.readers.length ∨
      ∃ error, buildReader calls request = .error error) :
    (execute calls session request).1 = session ∧
      ∃ error, (execute calls session request).2 = .error error := by
  rw [execute_opens calls session hid hopens, openReader_eq]
  cases hfind : session.find id with
  | some openReader => exact ⟨rfl, _, rfl⟩
  | none =>
    by_cases hfull : maxDocuments ≤ session.readers.length
    · simp only [if_pos hfull]
      exact ⟨trivial, _, rfl⟩
    · rw [hfind] at h
      obtain ⟨error, hbuild⟩ : ∃ error, buildReader calls request = .error error := by
        simpa [hfull] using h
      simp only [if_neg hfull, hbuild]
      exact ⟨trivial, _, rfl⟩

/-- Overview, search, read and render leave the open documents as they are, and
are refused for a document that is not open. -/
theorem execute_query (calls : SessionCalls T) (session : DocumentSession T.Reader)
    (request : SessionRequest T) (id : Str) (hid : request.documentId = some id)
    (hqueries : request.queries = true) :
    (execute calls session request).1.readers = session.readers ∧
      (session.find id = none → execute calls session request
        = (session, .error (.documentOperation (ofString "Document is not open")))) := by
  rw [execute_queries calls session hid hqueries]
  unfold ask
  cases session.find id with
  | none => exact ⟨rfl, fun _ => rfl⟩
  | some openReader => exact ⟨rfl, fun h => by cases h⟩

/-- The requests that end a document: its release, and `close`. -/
def SessionRequest.ends {T : SessionTypes} (id : Str) : SessionRequest T → Bool
  | .release request => request.documentId = id
  | .close => true
  | _ => false

section Cells

theorem find_of_cell {Reader : Type} {session : DocumentSession Reader} {id : Str} {reader : Reader}
    (hcell : session.cell id = some reader) :
    ∃ serial, session.find id = some ⟨serial, reader⟩ := by
  obtain ⟨⟨serial, other⟩, hfind, rfl⟩ := Option.map_eq_some_iff.mp hcell
  exact ⟨serial, hfind⟩

variable {T : SessionTypes} {session : DocumentSession T.Reader} {id : Str} {reader : T.Reader}

theorem execute_keeps_cell (calls : SessionCalls T) {request : SessionRequest T}
    (hcell : session.cell id = some reader) (hends : request.ends id = false) :
    (execute calls session request).1.cell id = some reader := by
  rcases Bool.eq_false_or_eq_true (request.concerns id) with hconcerns | hconcerns
  · obtain ⟨serial, hfind⟩ := find_of_cell hcell
    rcases request.kinds with ⟨other, hid, hopens⟩ | ⟨other, hid, -, hqueries⟩ | ⟨request, rfl⟩ | rfl
    · -- a second open of the document is refused, before anything is called
      obtain rfl := (SessionRequest.concerns_iff hid id).mp hconcerns
      rw [execute_opens calls session hid hopens, openReader_eq, hfind]
      exact hcell
    · obtain rfl := (SessionRequest.concerns_iff hid id).mp hconcerns
      rw [execute_queries calls session hid hqueries, ask, hfind]
      exact hcell
    · obtain rfl := (SessionRequest.concerns_iff rfl id).mp hconcerns
      exact absurd hends (by simp [SessionRequest.ends])
    · cases hends
  · exact (execute_other calls session id request hconcerns).trans hcell

/-- The run lemma of `execute_keeps_cell`. -/
theorem run_keeps_cell (events : List (SessionEvent T)) (hcell : session.cell id = some reader)
    (hends : ∀ event ∈ events, event.2.ends id = false) :
    (runEvents sessionStep session events).cell id = some reader := by
  induction events generalizing session with
  | nil => exact hcell
  | cons event events ih =>
    obtain ⟨hfirst, hrest⟩ := List.forall_mem_cons.mp hends
    exact ih (execute_keeps_cell event.1 hcell hfirst) hrest

end Cells

/-- An open that was answered left the reader that it built in the cell of its document. -/
theorem opened_cell {calls : SessionCalls T} {session : DocumentSession T.Reader}
    {request : SessionRequest T} {id : Str} (hid : request.documentId = some id)
    (hopens : request.opens = true) (hopened : (execute calls session request).2 = .ok .empty) :
    ∃ reader, buildReader calls request = .ok reader
      ∧ (execute calls session request).1.cell id = some reader := by
  rw [execute_opens calls session hid hopens, openReader_eq] at hopened ⊢
  cases hfind : session.find id with
  | some openReader =>
    rw [hfind] at hopened
    cases hopened
  | none =>
    rw [hfind] at hopened
    by_cases hfull : maxDocuments ≤ session.readers.length
    · rw [if_pos hfull] at hopened
      cases hopened
    · rw [if_neg hfull] at hopened
      cases hbuild : buildReader calls request with
      | error error =>
        rw [hbuild] at hopened
        cases hopened
      | ok reader =>
        refine ⟨reader, rfl, ?_⟩
        rw [if_neg hfull]
        exact (cell_register session id id reader hfind).trans (if_pos rfl)

/-- An open that nothing refuses stores the reader that it built. -/
theorem execute_opened (calls : SessionCalls T) {session : DocumentSession T.Reader}
    {request : SessionRequest T} {id : Str} {reader : T.Reader}
    (hid : request.documentId = some id) (hopens : request.opens = true)
    (hfree : session.find id = none) (hroom : session.readers.length < maxDocuments)
    (hbuild : buildReader calls request = .ok reader) :
    (execute calls session request).1.contents = session.contents++[(id, reader)]
      ∧ (execute calls session request).2 = .ok .empty := by
  have hstore := execute_store calls session request
  have hstep : storeStep calls session.contents request
      = (session.contents++[(id, reader)], .ok .empty) := by
    unfold storeStep
    rw [hid]
    dsimp only
    rw [if_pos hopens, contents_lookup, contents_length, hfree, hbuild,
      if_neg (not_le.mpr hroom)]
    rfl
  rw [hstep, Prod.mk.injEq] at hstore
  exact hstore

/-- A query of an open document is answered by its reader. -/
theorem execute_answered (calls : SessionCalls T) {session : DocumentSession T.Reader}
    {request : SessionRequest T} {id : Str} {reader : T.Reader}
    (hid : request.documentId = some id) (hqueries : request.queries = true)
    (hcell : session.cell id = some reader) :
    (execute calls session request).2 = answer calls reader request := by
  obtain ⟨serial, hfind⟩ := find_of_cell hcell
  rw [execute_queries calls session hid hqueries, ask, hfind]

/-- The document session as an atomic keyed store, for every sequence of
requests and every behaviour of the collaborators. -/
theorem document_session_keyed_store (T : SessionTypes) (events : List (SessionEvent T)) :
    let session := runEvents sessionStep (initial : DocumentSession T.Reader) events
    -- at most 1000 documents are open, under distinct ids
    (session.readers.length ≤ 1000 ∧ (session.readers.map Prod.fst).Nodup) ∧
    -- a refused or failing open changes nothing
    (∀ calls request id, request.documentId = some id → request.opens = true →
      ((session.find id).isSome = true ∨ maxDocuments ≤ session.readers.length ∨
        ∃ error, buildReader calls request = .error error) →
      (execute calls session request).1 = session ∧
        ∃ error, (execute calls session request).2 = .error error) ∧
    -- any other open stores its reader, which answers the requests about the document until it
    -- is released or the session closed
    (∀ calls request id reader, request.documentId = some id → request.opens = true →
      session.find id = none → session.readers.length < maxDocuments →
      buildReader calls request = .ok reader →
      ((execute calls session request).1.contents = session.contents++[(id, reader)] ∧
        (execute calls session request).2 = .ok .empty) ∧
      ∀ later : List (SessionEvent T), (∀ event ∈ later, event.2.ends id = false) →
        ∀ calls' query, query.documentId = some id → query.queries = true →
          (execute calls' (runEvents sessionStep (execute calls session request).1 later) query).2
            = answer calls' reader query) ∧
    -- overview, search, read and render do not change the open documents
    (∀ calls request id, request.documentId = some id → request.queries = true →
      (execute calls session request).1.readers = session.readers ∧
      (session.find id = none → execute calls session request
        = (session, .error (.documentOperation (ofString "Document is not open"))))) ∧
    -- release removes its own id only and succeeds without one
    (∀ calls (request : ReleaseDocumentRequest),
      (execute calls session (.release request)).1.readers
          = session.readers.filter (fun entry => entry.1 ≠ request.documentId) ∧
      (execute calls session (.release request)).2 = .ok .empty ∧
      (session.find request.documentId = none →
        (execute calls session (.release request)).1 = session)) ∧
    -- a closed session is empty and then behaves like a fresh one
    (session.close.readers = [] ∧ ∀ later : List (SessionEvent T),
      sessionResults session.close later = sessionResults initial later ∧
      (runEvents sessionStep session.close later).contents
        = (runEvents sessionStep initial later).contents) ∧
    -- the responses about a document depend on the requests about it only
    (∀ id (others : List (SessionEvent T)), BelowCapacity initial events →
      BelowCapacity initial others →
      events.filter (fun event => event.2.concerns id)
        = others.filter (fun event => event.2.concerns id) →
      ownResults id initial events = ownResults id initial others) ∧
    -- every reader built is closed exactly once by the time of the final close,
    -- and not used afterwards
    (∀ serial < session.built,
      IsClosedHistory (readerHistory serial session.close.history)) := by
  intro session
  have inv : SessionInv session := session_inv events
  refine ⟨⟨inv.capacity, inv.ids⟩, ?_, ?_, ?_, ?_, ⟨rfl, ?_⟩, ?_, ?_⟩
  · intro calls request id hid hopens h
    exact execute_refused calls session request id hid hopens h
  · intro calls request id reader hid hopens hfree hroom hbuild
    have hopened := execute_opened calls hid hopens hfree hroom hbuild
    refine ⟨hopened, fun later hends calls' query hquery hqueries => ?_⟩
    obtain ⟨stored, hstored, hcell⟩ := opened_cell hid hopens hopened.2
    obtain rfl := Except.ok.inj (hbuild.symm.trans hstored)
    exact execute_answered calls' hquery hqueries (run_keeps_cell later hcell hends)
  · intro calls request id hid hqueries
    exact execute_query calls session request id hid hqueries
  · intro calls request
    refine ⟨release_readers session request.documentId, rfl, fun hfind => ?_⟩
    change session.release request.documentId = session
    rw [release, hfind]
  · intro later
    exact sessionResults_congr session.close initial later rfl
  · intro id others hevents hothers hfilter
    rw [ownResults_eq id initial events hevents, ownResults_eq id initial others hothers, hfilter]
  · intro serial hserial
    exact closed_once inv serial hserial

end ConferWorker
