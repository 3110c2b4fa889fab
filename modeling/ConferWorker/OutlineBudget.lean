import ConferWorker.PresentedAnswers

/-! `bounded_outline` for any `max_outline_bytes`: the entries that a presenter selects and the
message that carries them. -/
namespace ConferWorker

namespace ProtocolPresenter

section Present

variable {Reader Content : Type}

/-- `present` of a presenter with such a limit. -/
def presentWithin (maxOutlineBytes : ℕ) :
    WorkerResponse (workerTypes Reader Content) → Except PythonError ProtocolMessage
  | .session (.overview documentMetadata outline labeledContainers firstChunkId content) => do
    let selected ← boundedOutlineWithin maxOutlineBytes outline 0
    jsonMessage (overviewResult documentMetadata selected labeledContainers firstChunkId content)
  | response => present response

/-- The presenter of the worker is one of them. -/
theorem presentWithin_default (response : WorkerResponse (workerTypes Reader Content)) :
    presentWithin maxOutlineBytes response = present response := by
  cases response with
  | extracted result => rfl
  | session response =>
    cases response with
    | overview documentMetadata outline labeledContainers firstChunkId content =>
      exact congrArg (fun selected => selected >>= fun selected => jsonMessage
        (overviewResult documentMetadata selected labeledContainers firstChunkId content))
        (boundedOutlineWithin_default outline 0)
    | _ => rfl

end Present

/-- What is selected are the entries that fit. -/
theorem boundedOutlineWithin_selects {maxOutlineBytes spent : ℕ}
    {entries selected : List OutlineValue}
    (h : boundedOutlineWithin maxOutlineBytes entries spent = .ok selected) :
    selected = takeWithin entryCost maxOutlineBytes spent entries :=
  (boundedOutlineWithin_eq_ok.mp h).2.symm

/-- Entries that can be sent are selected without an error. -/
theorem boundedOutlineWithin_returns (maxOutlineBytes spent : ℕ) {entries : List OutlineValue}
    (h : ∀ entry ∈ entries, (outlineEntry entry).Dumpable) :
    boundedOutlineWithin maxOutlineBytes entries spent
      = .ok (takeWithin entryCost maxOutlineBytes spent entries) := by
  refine boundedOutlineWithin_eq_ok.mpr ⟨fun entry hentry => ?_, rfl⟩
  exact (outlineEntry_dumpable entry).mp (h entry (List.mem_of_mem_take hentry))

/-- A JSON message has the text of its value as its only payload. -/
theorem jsonMessage_payload {value : Json} {message : ProtocolMessage}
    (h : jsonMessage value = .ok message) :
    ∃ bytes payload, value.encode = .ok bytes ∧ message.payloads = [(.result, payload)] ∧
      payload.store = .content bytes := by
  obtain ⟨bytes, hbytes, hmessage⟩ := (bind_eq_ok _ _ _).mp h
  obtain ⟨mediaType, hmedia, hblank, -, haccepts, -⟩ := responseRole_media .result (by decide)
  have hfits : BackingStore.contentFits bytes.length (.content bytes) := rfl
  have hvalue : ProtocolMessage.payloadOf .result (.content bytes)
      = .ok ⟨mediaType, bytes.length, .content bytes, hblank, hfits⟩ := by
    rw [ProtocolMessage.payloadOf, hmedia]
    show ProtocolPayload.create mediaType bytes.length (.content bytes) = _
    rw [ProtocolPayload.create, dif_pos hblank, dif_pos hfits]
  have hdistinct : ([(PayloadRole.result, PayloadValue.content bytes)].map Prod.fst).Nodup :=
    List.nodup_singleton _
  obtain ⟨response, hresponse, -, hpayloads⟩ := create_accepted (okHeader none) hdistinct
    (acceptPayloads_cons hvalue haccepts acceptPayloads_nil)
  obtain rfl := Except.ok.inj (hresponse.symm.trans hmessage)
  exact ⟨bytes, _, hbytes, hpayloads, rfl⟩

end ProtocolPresenter

end ConferWorker
