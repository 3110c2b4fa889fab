import ConferWorker.SessionDescriptors

/-! When a session opens a document that is valid: as long as there are descriptors for it, which
is less often than `maxDocuments` says. -/
namespace ConferWorker

open Descriptors

variable {T : SessionTypes} {Database : Type}

namespace CountedSession

/-- What a session answers that is asked to open a valid artifact under a fresh id. -/
theorem exchange_open {state : CountedSession T.Reader} (inv : CountInv 0 state)
    (calls : ReaderCalls T Database) (payloads : ℕ) (request : OpenDocumentRequest T)
    {reader : T.Reader} (hfresh : state.session.find request.documentId = none)
    (hcapacity : state.session.readers.length < maxDocuments)
    (hvalid : calls.outcome request.artifact = .ok reader) :
    state.exchange ⟨payloads, .ok (.openDocument request), calls⟩
      = if state.descriptors+payloads+2 ≤ limitNoFile then
          (some ⟨state.session.register request.documentId reader, state.descriptors+2⟩,
            .ok .empty)
        else if state.descriptors+payloads ≤ limitNoFile then
          (some state, .error (.documentOperation (ofString "Document artifact is invalid")))
        else (none, .error tooManyFiles) := by
  have hallowed : state.session.requireOpenCapacity request.documentId = .ok () :=
    (requireOpenCapacity_eq_ok state.session request.documentId).mpr ⟨hfresh, hcapacity⟩
  rw [exchange, receive_eq payloads inv.within]
  by_cases hreceived : state.descriptors+payloads ≤ limitNoFile
  · rw [if_pos hreceived, if_pos hreceived]
    dsimp only [CountedSession.execute, CountedSession.openReader, ReaderCalls.build]
    rw [hallowed]
    dsimp only
    by_cases hroom : state.descriptors+payloads+2 ≤ limitNoFile
    · rw [if_pos hroom, calls.readerInit_room hroom, hvalid]
      dsimp only
      have hleft : state.descriptors+payloads+2-payloads = state.descriptors+2 := by omega
      rw [hleft]
    · rw [if_neg hroom, calls.readerInit_full (not_le.mp hroom)]
      dsimp only
      rw [Nat.add_sub_cancel]
      rfl
  · have hroom : ¬ state.descriptors+payloads+2 ≤ limitNoFile := by omega
    rw [if_neg hreceived, if_neg hroom, if_neg hreceived]

/-- In every state of a session with fewer than `maxDocuments` documents, a valid artifact is opened
under a fresh id if and only if there are descriptors for the payloads and a reader. -/
theorem open_succeeds_iff (messages : List (Message T Database)) (state : CountedSession T.Reader)
    (hrun : runEvents step (some initial) messages = some state)
    (calls : ReaderCalls T Database) (payloads : ℕ) (request : OpenDocumentRequest T)
    (reader : T.Reader) (hfresh : state.session.find request.documentId = none)
    (hcapacity : state.session.readers.length < maxDocuments)
    (hvalid : calls.outcome request.artifact = .ok reader) :
    state.exchange ⟨payloads, .ok (.openDocument request), calls⟩
        = (some ⟨state.session.register request.documentId reader, state.descriptors+2⟩,
            .ok .empty)
      ↔ standardStreams+2*state.session.readers.length+payloads+2 ≤ limitNoFile := by
  have inv := run_counts hrun
  have hcount : state.descriptors = standardStreams+2*state.session.readers.length := inv.count
  rw [exchange_open inv calls payloads request hfresh hcapacity hvalid, ← hcount]
  constructor
  · intro heq
    by_contra hfull
    rw [if_neg hfull] at heq
    split_ifs at heq with hreceived
    · cases congrArg Prod.snd heq
    · cases congrArg Prod.snd heq
  · intro hroom
    exact if_pos hroom

/-- Collaborators that know one artifact, which is valid. -/
def oneArtifact : SessionTypes := ⟨Unit, Unit, Unit, Unit, Unit, Unit, Unit, Unit, Unit, Unit⟩

def oneArtifactCalls : ReaderCalls oneArtifact Unit where
  session :=
    { readerFactory := fun _ => .ok ()
      extract := fun _ _ _ => .ok ()
      write := fun _ => .ok ()
      metadata := fun _ => .ok ()
      outline := fun _ _ => .ok ()
      labeledContainers := fun _ => .ok ()
      firstChunkId := fun _ => .ok none
      fullTextIfSmall := fun _ _ => .ok none
      search := fun _ _ _ _ => .ok []
      readContainers := fun _ _ _ => .ok ()
      renderFromReader := fun _ _ _ _ => .ok () }
  unpack := fun _ => .ok ()
  connect := fun _ => .ok ()

/-- The id of the `k`-th document, `a` repeated. -/
def nthId (k : ℕ) : Str := List.replicate (k+1) 0x61

def openNthRequest (k : ℕ) : OpenDocumentRequest oneArtifact :=
  ⟨nthId k, (), List.cons_ne_nil _ _⟩

def openNth (k : ℕ) : Message oneArtifact Unit :=
  ⟨1, .ok (.openDocument (openNthRequest k)), oneArtifactCalls⟩

theorem open_succeeds_second :
    runEvents step (some initial) [openNth 0]
        = some ⟨⟨[(nthId 0, ⟨0, ()⟩)], 1, [(0, .built)]⟩, 5⟩ ∧
      (exchange ⟨⟨[(nthId 0, ⟨0, ()⟩)], 1, [(0, .built)]⟩, 5⟩ (openNth 1)).2 = .ok .empty := by
  refine ⟨rfl, ?_⟩
  have h := (open_succeeds_iff [openNth 0] ⟨⟨[(nthId 0, ⟨0, ()⟩)], 1, [(0, .built)]⟩, 5⟩ rfl
    oneArtifactCalls 1 (openNthRequest 1) () rfl (by decide) rfl).mpr (by decide)
  exact congrArg Prod.snd h

theorem nthId_injective : Function.Injective nthId := by
  intro j k h
  have hlength := congrArg List.length h
  rw [nthId, nthId, List.length_replicate, List.length_replicate] at hlength
  omega

theorem nthId_fresh {session : DocumentSession Unit} {k : ℕ}
    (hids : session.readers.map Prod.fst = (List.range k).map nthId) :
    session.find (nthId k) = none := by
  rw [DocumentSession.find, List.lookup_eq_none_iff]
  intro entry hentry
  have hmember : entry.1 ∈ (List.range k).map nthId := by
    rw [← hids]
    exact List.mem_map_of_mem hentry
  obtain ⟨j, hj, heq⟩ := List.mem_map.mp hmember
  have hne : k ≠ j := (List.mem_range.mp hj).ne'
  rw [← heq, bne_iff_ne]
  exact nthId_injective.ne hne

/-- One document after the other is opened while there are descriptors. -/
theorem openNth_run {k : ℕ} (hk : k ≤ 254) :
    ∃ state, runEvents step (some initial) ((List.range k).map openNth) = some state ∧
      state.session.readers.map Prod.fst = (List.range k).map nthId := by
  induction k with
  | zero => exact ⟨initial, rfl, rfl⟩
  | succ k ih =>
    obtain ⟨state, hrun, hids⟩ := ih (by omega)
    have inv := run_counts hrun
    have hlength : state.session.readers.length = k := by
      simpa using congrArg List.length hids
    have hcapacity : state.session.readers.length < maxDocuments := by
      rw [hlength, maxDocuments]
      omega
    have hroom : state.descriptors+1+2 ≤ limitNoFile := by
      rw [inv.count, hlength, standardStreams, limitNoFile]
      omega
    have hopened := exchange_open inv oneArtifactCalls 1 (openNthRequest k)
      (nthId_fresh hids) hcapacity rfl
    rw [if_pos hroom] at hopened
    refine ⟨⟨state.session.register (nthId k) (), state.descriptors+2⟩, ?_, ?_⟩
    · rw [List.range_succ, List.map_append, runEvents_append, hrun]
      exact congrArg Prod.fst hopened
    · show (state.session.readers++[(nthId k, _)]).map Prod.fst = _
      rw [List.range_succ, List.map_append, List.map_append, hids]
      rfl

/-- With 254 documents open, far fewer than `maxDocuments`, the next valid artifact is called
invalid. -/
theorem sessionCapacity_not_reached :
    ∃ state, runEvents step (some initial) ((List.range 254).map openNth) = some state ∧
      state.session.readers.length = 254 ∧ 254 < maxDocuments ∧
      state.session.find (nthId 254) = none ∧
      oneArtifactCalls.outcome (openNthRequest 254).artifact = .ok () ∧
      (state.exchange (openNth 254)).2
        = .error (.documentOperation (ofString "Document artifact is invalid")) := by
  obtain ⟨state, hrun, hids⟩ := openNth_run (k := 254) le_rfl
  have inv := run_counts hrun
  have hlength : state.session.readers.length = 254 := by
    simpa using congrArg List.length hids
  have hcapacity : state.session.readers.length < maxDocuments := by
    rw [hlength]
    decide
  have hdescriptors : state.descriptors = 511 := by
    rw [inv.count, hlength, standardStreams]
  have hfull : ¬ state.descriptors+1+2 ≤ limitNoFile := by
    rw [hdescriptors]
    decide
  have hreceived : state.descriptors+1 ≤ limitNoFile := by
    rw [hdescriptors]
    decide
  have hanswer := exchange_open inv oneArtifactCalls 1 (openNthRequest 254)
    (nthId_fresh hids) hcapacity rfl
  rw [if_neg hfull, if_pos hreceived] at hanswer
  exact ⟨state, hrun, hlength, by decide, nthId_fresh hids, rfl, congrArg Prod.snd hanswer⟩

end CountedSession

end ConferWorker
