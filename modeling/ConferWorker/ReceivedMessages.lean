import ConferWorker.ProtocolFraming
import ConferWorker.RefusedRequests

/-! The messages that `read` returns: their payloads are files, and each took
bytes from the stream. -/
namespace ConferWorker

open ProtocolCodec

theorem readExact_ok {stream next : ByteSource} {length : ℕ} {bytes : Bytes}
    (h : readExact stream length = .ok (bytes, next)) :
    next.data.length+length = stream.data.length := by
  obtain ⟨hlength, hdata⟩ := readLoop_ok _ (fun _ h => ⟨h, le_refl _⟩) h
  rw [hdata, List.length_append, hlength, Nat.add_comm]

theorem receive_file {stream next : ByteSource} {length : ℕ} {mediaType : Str}
    {payload : ProtocolPayload}
    (h : ProtocolPayload.receive stream length mediaType = .ok (payload, next)) :
    next.data.length ≤ stream.data.length ∧ ∃ bytes, payload.store = .file bytes := by
  simp only [ProtocolPayload.receive, bind_eq_ok, Prod.exists, pure_eq_ok, Prod.mk.injEq] at h
  obtain ⟨bytes, last, hloop, created, hcreate, rfl, rfl⟩ := h
  obtain ⟨_, hdata⟩ := readLoop_ok _ ProtocolPayload.receiveSize_range hloop
  obtain ⟨_, _, hstore⟩ := ProtocolPayload.create_eq_ok hcreate
  refine ⟨?_, bytes, hstore⟩
  rw [hdata, List.length_append]
  omega

/-- One round of the loop of `read` adds a file. -/
theorem readPayload_file {state next : ReadState} {value : Json} (hfiles : FilesOnly state.payloads)
    (h : readPayload state value = .ok next) :
    FilesOnly next.payloads ∧ next.stream.data.length ≤ state.stream.data.length := by
  cases value with
  | obj members =>
    simp only [readPayload, bind_eq_ok] at h
    obtain ⟨role, _, h⟩ := h
    split_ifs at h
    simp only [readNewPayload, bind_eq_ok, raiseIf_eq_ok, Prod.exists, pure_eq_ok] at h
    obtain ⟨_, _, length, _, _, _, payload, stream, hreceive, rfl⟩ := h
    obtain ⟨hle, hstore⟩ := receive_file hreceive
    refine ⟨?_, hle⟩
    intro entry hentry
    rcases List.mem_append.mp hentry with hold | hnew
    · exact hfiles entry hold
    · obtain rfl := List.mem_singleton.mp hnew
      exact hstore
  | _ => cases h

theorem readPayloads_file {values : List Json} {state last : ReadState}
    (hfiles : FilesOnly state.payloads) (h : values.foldlM readPayload state = .ok last) :
    FilesOnly last.payloads ∧ last.stream.data.length ≤ state.stream.data.length := by
  induction values generalizing state with
  | nil =>
    simp only [List.foldlM_nil, pure_eq_ok] at h
    subst h
    exact ⟨hfiles, le_refl _⟩
  | cons value values ih =>
    simp only [List.foldlM_cons, bind_eq_ok] at h
    obtain ⟨next, hnext, hrest⟩ := h
    obtain ⟨hnextFiles, hnextLe⟩ := readPayload_file hfiles hnext
    obtain ⟨hlastFiles, hlastLe⟩ := ih hnextFiles hrest
    exact ⟨hlastFiles, hlastLe.trans hnextLe⟩

/-- `ProtocolMessage` keeps the files that it is given. -/
theorem acceptPayloads_file (entries : List (PayloadRole × PayloadValue))
    (hfiles : ∀ entry ∈ entries, ∃ payload bytes, entry.2 = .payload payload ∧
      payload.store = .file bytes) :
    ∀ accepted, ProtocolMessage.acceptPayloads entries = .ok accepted → FilesOnly accepted.val := by
  induction entries with
  | nil =>
    intro accepted h
    rw [ProtocolMessage.acceptPayloads, pure_eq_ok] at h
    rw [← h]
    exact List.forall_mem_nil _
  | cons entry entries ih =>
    intro accepted h
    obtain ⟨role, value⟩ := entry
    obtain ⟨⟨payload, bytes, rfl, hstore⟩, hrest⟩ := List.forall_mem_cons.mp hfiles
    unfold ProtocolMessage.acceptPayloads at h
    simp only [ProtocolMessage.payloadOf, bind_eq_ok, pure_eq_ok] at h
    obtain ⟨_, rfl, h⟩ := h
    split_ifs at h
    simp only [bind_eq_ok] at h
    obtain ⟨⟨payloads, hroles, hmedia⟩, haccepted, h⟩ := h
    rw [pure_eq_ok] at h
    rw [← h]
    exact List.forall_mem_cons.mpr ⟨⟨bytes, hstore⟩, ih hrest _ haccepted⟩

/-- A message that `read` returns took bytes from the stream, and its payloads are files. -/
theorem read_ok {loads : JsonLoads} {stream next : ByteSource} {message : ProtocolMessage}
    (h : ProtocolCodec.read loads stream = .ok (message, next)) :
    FilesOnly message.payloads ∧ next.data.length < stream.data.length := by
  simp only [ProtocolCodec.read, bind_eq_ok, raiseIf_eq_ok, Prod.exists, pure_eq_ok,
    Prod.mk.injEq] at h
  obtain ⟨encodedLength, afterLength, hlength, _, _, encoded, afterHeader, hheader, header, _,
    values, _, state, hloop, received, hcreate, rfl, rfl⟩ := h
  have hfirst := readExact_ok hlength
  have hsecond := readExact_ok hheader
  have hnone : FilesOnly [] := List.forall_mem_nil _
  obtain ⟨hfiles, hle⟩ := readPayloads_file hnone hloop
  have hsize : headerLengthSize = 4 := rfl
  dsimp only at hle
  refine ⟨?_, by omega⟩
  simp only [ProtocolMessage.create, bind_eq_ok] at hcreate
  obtain ⟨⟨payloads, hroles, hmedia⟩, haccepted, hreceived⟩ := hcreate
  rw [pure_eq_ok] at hreceived
  rw [← hreceived]
  refine acceptPayloads_file _ ?_ _ haccepted
  intro entry hentry
  obtain ⟨received, hreceived, rfl⟩ := List.mem_map.mp hentry
  obtain ⟨bytes, hstore⟩ := hfiles received hreceived
  exact ⟨received.2, bytes, rfl, hstore⟩

end ConferWorker
