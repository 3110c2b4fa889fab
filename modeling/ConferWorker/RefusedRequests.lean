import ConferWorker.FailedChecks

/-! What the decoder refuses. On a message that `read` returned it raises only
`InvalidWorkerRequestError`, with the text of the check that failed. -/
namespace ConferWorker

/-- The error with which a request is refused. -/
def Refusal (error : PythonError) : Prop :=
  error.errorClass = .invalidWorkerRequest ∧ ShortText error.message

/-- The error of a check of the decoder. -/
def Refused (error : PythonError) : Prop :=
  ∃ check : RefusalCheck, error = .invalidWorkerRequest check.message

theorem refused_intro (check : RefusalCheck) : Refused (.invalidWorkerRequest check.message) :=
  ⟨check, rfl⟩

theorem Refused.refusal {error : PythonError} (h : Refused error) : Refusal error := by
  obtain ⟨check, rfl⟩ := h
  exact ⟨rfl, check.message_short⟩

section Requests

variable {α : Type}

theorem requireName_refuses (name : StringName) {value : Str}
    {build : value ≠ [] → Except PythonError α} (hbuild : ∀ h, RaisesOnly Refused (build h)) :
    RaisesOnly Refused (requireName name.value value build) := by
  unfold requireName
  split_ifs with h
  · exact hbuild h
  · exact raisesOnly_error (refused_intro (.string name))

theorem requireThat_refuses (check : RefusalCheck) {condition : Prop} [Decidable condition]
    {build : condition → Except PythonError α} (hbuild : ∀ h, RaisesOnly Refused (build h)) :
    RaisesOnly Refused (requireThat condition check.message build) := by
  unfold requireThat
  split_ifs with h
  · exact hbuild h
  · exact raisesOnly_error (refused_intro check)

end Requests

namespace RequestParameters

variable {message : ProtocolMessage}

theorem payload_refuses (role : RequestRole) :
    RaisesOnly Refused (payload message role.role) := by
  unfold payload
  split
  · exact raisesOnly_ok _
  · exact raisesOnly_error (refused_intro (.payload role))

theorem payload_mem {role : PayloadRole} {found : ProtocolPayload}
    (h : payload message role = .ok found) : (role, found) ∈ message.payloads := by
  unfold payload at h
  split at h
  · rename_i entry hentry
    rw [Except.ok.injEq] at h
    have hrole := List.find?_some hentry
    rw [beq_iff_eq] at hrole
    rw [← h, ← hrole]
    exact List.mem_of_find?_eq_some hentry
  · cases h

theorem string_refuses (name : StringName) :
    RaisesOnly Refused (string message name.value) := by
  have hname : Refused (requiredMessage name.value) := refused_intro (.string name)
  unfold string
  split
  · split_ifs
    · exact raisesOnly_error hname
    · exact raisesOnly_ok _
  · exact raisesOnly_error hname

theorem integer_refuses (name : IntegerName) {default : Json} :
    RaisesOnly Refused (integer message name.value default) := by
  unfold integer
  split
  · exact raisesOnly_ok _
  · exact raisesOnly_error (refused_intro (.integer name))

theorem queries_refuses :
    RaisesOnly Refused (objectArray message (ofString "queries")) := by
  have hqueries : Refused (.invalidWorkerRequest
      (ofString "queries"++ofString " must be an array of objects")) := refused_intro .queries
  unfold objectArray
  split
  · split_ifs
    · exact raisesOnly_ok _
    · exact raisesOnly_error hqueries
  · exact raisesOnly_error hqueries

end RequestParameters

/-- The payloads are open files, as `receive` leaves them. -/
def FilesOnly (payloads : List (PayloadRole × ProtocolPayload)) : Prop :=
  ∀ entry ∈ payloads, ∃ bytes, entry.2.store = .file bytes

/-- `hashlib.sha256(...).hexdigest()`. -/
structure Sha256 where
  hexdigest : Bytes → Str
  digits : ∀ bytes, (hexdigest bytes).length = 64 ∧ (hexdigest bytes).all isHexDigit = true

theorem source_refuses (sha256 : Sha256) {message : ProtocolMessage}
    (hfile : FilesOnly message.payloads) (role : RequestRole) (mediaType : Str) :
    RaisesOnly Refused (RequestParameters.source sha256.hexdigest message role.role mediaType) := by
  unfold RequestParameters.source
  apply raisesOnly_bind (RequestParameters.payload_refuses role)
  intro payload hpayload
  obtain ⟨bytes, hstore⟩ := hfile _ (RequestParameters.payload_mem hpayload)
  apply raisesOnly_bind
  · exact raisesOnly_raiseIf _ (refused_intro (.mediaType role))
  intro _ _
  have hpath : RequestParameters.path payload = .ok bytes := by
    rw [RequestParameters.path, hstore]
  have hdigest : RequestParameters.sha256 sha256.hexdigest payload
      = .ok (sha256.hexdigest bytes) := by
    rw [RequestParameters.sha256, hstore]
  rw [hpath, ok_bind, hdigest, ok_bind, DocumentSource.create, dif_pos (sha256.digits bytes)]
  exact raisesOnly_ok _

namespace RequestDecoder

theorem operation_refuses (message : ProtocolMessage) :
    RaisesOnly Refused (operation message) := by
  unfold operation
  split
  · split
    · exact raisesOnly_ok _
    · exact raisesOnly_error (refused_intro .operationUnknown)
  · exact raisesOnly_error (refused_intro .operationRequired)

/-- Both texts of the ValueErrors of `SearchQuery` are checks of the decoder. -/
theorem searchQuery_create_raises (all : List Str) :
    RaisesOnly (fun error => error.isValueError = true ∧
      Refused (.invalidWorkerRequest error.message)) (SearchQuery.create all) := by
  unfold SearchQuery.create
  split_ifs
  · exact raisesOnly_ok _
  · exact raisesOnly_error ⟨rfl, refused_intro .termLength⟩
  · exact raisesOnly_error ⟨rfl, refused_intro .termCount⟩

theorem searchQuery_refuses (value : List (Str × Json)) :
    RaisesOnly Refused (searchQuery value) := by
  unfold searchQuery
  apply raisesOnly_bind (raisesOnly_raiseIf _ (refused_intro .queryKeys))
  intro _ _
  split
  · apply raisesOnly_bind (raisesOnly_raiseIf _ (refused_intro .terms))
    intro _ _
    split
    · exact raisesOnly_ok _
    · rename_i error herror
      obtain ⟨hclass, hrefused⟩ := searchQuery_create_raises _ error herror
      rw [if_pos hclass]
      exact raisesOnly_error hrefused
  · exact raisesOnly_error (refused_intro .terms)

theorem searchQueries_refuses (message : ProtocolMessage) :
    RaisesOnly Refused (searchQueries message) := by
  unfold searchQueries
  apply raisesOnly_bind RequestParameters.queries_refuses
  intro values _
  exact raisesOnly_mapM _ _ searchQuery_refuses

variable {Reader Content : Type}

open RequestParameters

/-- A message that was read is decoded or refused. -/
theorem decode_refused (sha256 : Sha256) {message : ProtocolMessage}
    (hfile : FilesOnly message.payloads) :
    RaisesOnly Refused (decode sha256.hexdigest message :
      Except PythonError (WorkerRequest (workerTypes Reader Content))) := by
  have hid : RaisesOnly Refused (string message documentIdName) := string_refuses .documentId
  have hnumber : RaisesOnly Refused (integer message (ofString "container_number") .null) :=
    integer_refuses .containerNumber
  unfold decode
  apply raisesOnly_bind (raisesOnly_raiseIf _ (refused_intro .version))
  intro _ _
  apply raisesOnly_bind (operation_refuses message)
  intro operation _
  -- the parameters of each operation, in the order in which they are read
  cases operation with
  | extract =>
    apply raisesOnly_bind (string_refuses .contentType)
    intro contentType _
    apply raisesOnly_bind (source_refuses sha256 hfile .source _)
    intro source _
    apply raisesOnly_bind (string_refuses .filename)
    intro filename _
    apply raisesOnly_bind
    · exact requireName_refuses .filename fun _ =>
        requireName_refuses .contentType fun _ => raisesOnly_ok _
    · exact fun request _ => raisesOnly_ok _
  | openArtifact =>
    apply raisesOnly_bind hid
    intro documentId _
    apply raisesOnly_bind (payload_refuses .artifact)
    intro payload hpayload
    obtain ⟨bytes, hstore⟩ := hfile _ (payload_mem hpayload)
    have hpath : path payload = .ok bytes := by rw [path, hstore]
    rw [hpath, ok_bind]
    apply raisesOnly_bind
    · exact requireName_refuses .documentId fun _ => raisesOnly_ok _
    · exact fun request _ => raisesOnly_ok _
  | openText =>
    apply raisesOnly_bind hid
    intro documentId _
    apply raisesOnly_bind (string_refuses .filename)
    intro filename _
    apply raisesOnly_bind (source_refuses sha256 hfile .text _)
    intro source _
    apply raisesOnly_bind
    · exact requireName_refuses .documentId fun _ =>
        requireName_refuses .filename fun _ => raisesOnly_ok _
    · exact fun request _ => raisesOnly_ok _
  | overview =>
    apply raisesOnly_bind hid
    intro documentId _
    apply raisesOnly_bind
    · exact requireName_refuses .documentId fun _ => raisesOnly_ok _
    · exact fun request _ => raisesOnly_ok _
  | search =>
    apply raisesOnly_bind hid
    intro documentId _
    apply raisesOnly_bind (searchQueries_refuses message)
    intro queries _
    apply raisesOnly_bind (integer_refuses .limit)
    intro limit _
    apply raisesOnly_bind (integer_refuses .snippetCharacters)
    intro snippetCharacters _
    apply raisesOnly_bind
    · exact requireName_refuses .documentId fun _ =>
        requireThat_refuses .queryCount fun _ => requireThat_refuses .searchLimit fun _ =>
          requireThat_refuses .snippetCharacters fun _ => raisesOnly_ok _
    · exact fun request _ => raisesOnly_ok _
  | read =>
    apply raisesOnly_bind hid
    intro documentId _
    apply raisesOnly_bind hnumber
    intro containerNumber _
    apply raisesOnly_bind (integer_refuses .containerCount)
    intro containerCount _
    apply raisesOnly_bind
    · exact requireName_refuses .documentId fun _ =>
        requireThat_refuses .containerNumber fun _ =>
          requireThat_refuses .containerCount fun _ => raisesOnly_ok _
    · exact fun request _ => raisesOnly_ok _
  | render =>
    apply raisesOnly_bind hid
    intro documentId _
    apply raisesOnly_bind (source_refuses sha256 hfile .source _)
    intro source _
    apply raisesOnly_bind hnumber
    intro containerNumber _
    apply raisesOnly_bind (integer_refuses .dpi)
    intro dpi _
    apply raisesOnly_bind
    · exact requireName_refuses .documentId fun _ =>
        requireThat_refuses .containerNumber fun _ =>
          requireThat_refuses .renderDpi fun _ => raisesOnly_ok _
    · exact fun request _ => raisesOnly_ok _
  | release =>
    apply raisesOnly_bind hid
    intro documentId _
    apply raisesOnly_bind
    · exact requireName_refuses .documentId fun _ => raisesOnly_ok _
    · exact fun request _ => raisesOnly_ok _
  | close => exact raisesOnly_ok _

theorem decode_refuses (sha256 : Sha256) {message : ProtocolMessage}
    (hfile : FilesOnly message.payloads) : RaisesOnly Refusal (decode sha256.hexdigest message :
      Except PythonError (WorkerRequest (workerTypes Reader Content))) :=
  (decode_refused sha256 hfile).mono (fun _ => Refused.refusal)

end RequestDecoder

end ConferWorker
