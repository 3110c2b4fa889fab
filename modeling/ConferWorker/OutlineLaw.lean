import ConferWorker.ArtifactRoundTrip
import ConferWorker.LabelOverflow
import ConferWorker.OutlineBudget

/-! The outline of a `session_overview` response: a prefix of the document's outline, and when its
JSON array is within `max_outline_bytes`. -/
namespace ConferWorker

open ProtocolPresenter

/-- The entries that the session fetches. -/
def fetchedOutline (document : DocumentContent) : List OutlineEntry := document.outline.take 500

/-- The lengths of some entries with one separator each. -/
def outlineCost (entries : List OutlineEntry) : ℕ :=
  totalCost (fun entry => entryCost entry.value) entries

/-- The JSON array of some entries. -/
def outlineArray (entries : List OutlineEntry) : Json :=
  .arr (entries.map (fun entry => outlineEntry entry.value))

/-- The payload of a response is a JSON object with this outline and this flag. -/
def OverviewCarries (message : ProtocolMessage) (outline : List OutlineEntry) (truncated : Bool) :
    Prop :=
  ∃ members bytes payload, message.payloads = [(.result, payload)] ∧
    payload.store = .content bytes ∧ (Json.obj members).encode = .ok bytes ∧
    getItem members (ofString "outline") = some (outlineArray outline) ∧
    getItem members (ofString "outline_truncated") = some (.bool truncated)

/-- What an outline in a response should be. -/
structure OutlineLaw (document : DocumentContent) (maxOutlineBytes : ℕ)
    (carried : List OutlineEntry) (truncated : Bool) : Prop where
  isPrefix : carried <+: document.outline
  fits : ∃ text, (outlineArray carried).encode = .ok text ∧ text.length ≤ maxOutlineBytes
  fetched : carried <+: fetchedOutline document
  within : outlineCost carried ≤ maxOutlineBytes
  longest : ∀ front, front <+: fetchedOutline document → outlineCost front ≤ maxOutlineBytes →
    front.length ≤ carried.length
  flagged : truncated = true ↔ carried ≠ document.outline

/-- The entries that a presenter selects. -/
def selectedOutline (document : DocumentContent) (maxOutlineBytes : ℕ) : List OutlineEntry :=
  takeWithin (fun entry => entryCost entry.value) maxOutlineBytes 0 (fetchedOutline document)

section Selected

variable (document : DocumentContent) (maxOutlineBytes : ℕ)

theorem selectedOutline_fetched :
    selectedOutline document maxOutlineBytes <+: fetchedOutline document :=
  takeWithin_initial 0 _

theorem selectedOutline_initial : selectedOutline document maxOutlineBytes <+: document.outline :=
  (selectedOutline_fetched document maxOutlineBytes).trans (List.take_prefix 500 _)

theorem selectedOutline_within :
    outlineCost (selectedOutline document maxOutlineBytes) ≤ maxOutlineBytes := by
  have hfits : 0+outlineCost (selectedOutline document maxOutlineBytes) ≤ maxOutlineBytes :=
    takeWithin_fits (Nat.zero_le maxOutlineBytes) (fetchedOutline document)
  omega

theorem outlineArray_size (entries : List OutlineEntry) :
    (outlineArray entries).size = max 2 (1+outlineCost entries) := by
  have hitems : Json.itemsSize (entries.map (fun entry => outlineEntry entry.value))
      = outlineCost entries := by
    induction entries with
    | nil => rfl
    | cons entry entries ih =>
      rw [List.map_cons, Json.itemsSize, ih]
      rfl
  rw [outlineArray, Json.size, hitems]

/-- Everything but the length of the array holds for every limit, and the length is too large by one
if and only if the limit is met exactly. -/
theorem selectedOutline_law (hbudget : 2 ≤ maxOutlineBytes)
    (hdumpable : (outlineArray (selectedOutline document maxOutlineBytes)).Dumpable) :
    OutlineLaw document maxOutlineBytes (selectedOutline document maxOutlineBytes)
        (decide ((selectedOutline document maxOutlineBytes).length < document.outline.length)) ↔
      ∀ front, front <+: fetchedOutline document → outlineCost front ≠ maxOutlineBytes := by
  obtain ⟨hencodes, hsize⟩ := Json.encode_spec (outlineArray
    (selectedOutline document maxOutlineBytes))
  obtain ⟨text, htext⟩ := hencodes.mpr hdumpable
  have hlength : text.length = max 2 (1+outlineCost (selectedOutline document maxOutlineBytes)) :=
    (hsize text htext).trans (outlineArray_size _)
  have hwithin := selectedOutline_within document maxOutlineBytes
  have hexhausts : outlineCost (selectedOutline document maxOutlineBytes) = maxOutlineBytes ↔
      ∃ front, front <+: fetchedOutline document ∧ outlineCost front = maxOutlineBytes :=
    takeWithin_exhausts (fetchedOutline document)
  constructor
  · intro law front hfront hexact
    have hfull : outlineCost (selectedOutline document maxOutlineBytes) = maxOutlineBytes :=
      hexhausts.mpr ⟨front, hfront, hexact⟩
    obtain ⟨other, hother, hfits⟩ := law.fits
    obtain rfl := Except.ok.inj (htext.symm.trans hother)
    omega
  · intro hinexact
    have hnot : outlineCost (selectedOutline document maxOutlineBytes) ≠ maxOutlineBytes :=
      hinexact _ (selectedOutline_fetched document maxOutlineBytes)
    refine ⟨selectedOutline_initial document maxOutlineBytes, ⟨text, htext, by omega⟩,
      selectedOutline_fetched document maxOutlineBytes, hwithin, ?_, ?_⟩
    · intro front hfront hfits
      exact takeWithin_longest hfront (by rw [Nat.zero_add]; exact hfits)
    · have hinitial := selectedOutline_initial document maxOutlineBytes
      rw [decide_eq_true_iff]
      constructor
      · intro hlt heq
        rw [heq] at hlt
        exact lt_irrefl _ hlt
      · intro hne
        by_contra hge
        exact hne (hinitial.eq_of_length_le (not_lt.mp hge))

end Selected

section Overview

variable {writer : ArtifactWriter} {storage : ArtifactStorage} {document : DocumentContent}
  {reader : ArtifactReader} {floatText : ℚ → Str} {fuel : ℕ}
  {calls : WorkerCalls ArtifactReader DocumentContent} {session : DocumentSession ArtifactReader}
  {serial : ℕ} {request : GetDocumentOverviewRequest}

/-- What the application answers to an overview of a document that the writer wrote. -/
theorem overview_answered (written : DocumentWritten document reader.database)
    (hfind : session.find request.documentId = some ⟨serial, reader⟩)
    {response : SessionResponse (workerTypes ArtifactReader DocumentContent)}
    (hanswer : (session.execute (artifactCalls floatText storage fuel calls).session
      (.overview request)).2 = .ok response) :
    ∃ labels firstChunkId content, response = .overview (storedMetadata document).value
      ((fetchedOutline document).map OutlineEntry.value) labels firstChunkId content := by
  obtain ⟨found, hfound, metadata, hmetadata, outline, houtline, labels, -, firstChunkId, -,
    content, -, rfl⟩ := execute_overview.mp hanswer
  obtain rfl := Option.some.inj (hfind.symm.trans hfound)
  obtain ⟨stored, hstored, rfl⟩ := (map_eq_ok _ _ _).mp hmetadata
  obtain rfl := metadata_returned written hstored
  have hfetched : (artifactCalls floatText storage fuel calls).session.outline reader 500
      = .ok ((fetchedOutline document).map OutlineEntry.value) := by
    show List.map OutlineEntry.value <$> reader.outline 500 = _
    rw [outline_built written 500 (by decide)]
    rfl
  obtain rfl := Except.ok.inj (hfetched.symm.trans houtline)
  exact ⟨labels, firstChunkId, content, rfl⟩

/-- What a presenter makes of it. -/
theorem overview_presented {maxOutlineBytes : ℕ} {labels : List ContainerValue}
    {firstChunkId : Option ℤ} {content : Option Str} {message : ProtocolMessage}
    {response : SessionResponse (workerTypes ArtifactReader DocumentContent)}
    (hresponse : response = .overview (storedMetadata document).value
      ((fetchedOutline document).map OutlineEntry.value) labels firstChunkId content)
    (hpresented : presentWithin maxOutlineBytes (.session response) = .ok message) :
    OverviewCarries message (selectedOutline document maxOutlineBytes)
        (decide ((selectedOutline document maxOutlineBytes).length < document.outline.length)) ∧
      (outlineArray (selectedOutline document maxOutlineBytes)).Dumpable := by
  rw [hresponse] at hpresented
  obtain ⟨selected, hselected, hmessage⟩ := (bind_eq_ok _ _ _).mp hpresented
  have hvalues : selected
      = (selectedOutline document maxOutlineBytes).map OutlineEntry.value :=
    (boundedOutlineWithin_selects hselected).trans (takeWithin_map OutlineEntry.value 0 _)
  obtain ⟨bytes, payload, hbytes, hpayloads, hstore⟩ := jsonMessage_payload hmessage
  have hdumpable := (Json.encode_spec _).1.mp ⟨bytes, hbytes⟩
  have harray : Json.arr (selected.map outlineEntry)
      = outlineArray (selectedOutline document maxOutlineBytes) := by
    rw [hvalues, List.map_map]
    rfl
  have hflag : decide ((selected.length : ℤ) < (storedMetadata document).value.outlineCount)
      = decide ((selectedOutline document maxOutlineBytes).length < document.outline.length) := by
    rw [hvalues, List.length_map]
    exact decide_eq_decide.mpr Int.ofNat_lt
  constructor
  · refine ⟨_, bytes, payload, hpayloads, hstore, hbytes, ?_, ?_⟩
    · rw [← harray]
      rfl
    · rw [← hflag]
      rfl
  · rw [← harray]
    exact hdumpable.2.2.2.1

/-- For every document, outline and limit, the outline of a `session_overview` response obeys the
law if and only if no prefix of the fetched entries meets the limit exactly. -/
theorem overview_outline_law_iff (faithful : storage.Faithful)
    (built : BuiltReader writer storage document reader)
    (hfind : session.find request.documentId = some ⟨serial, reader⟩) (maxOutlineBytes : ℕ)
    (hbudget : 2 ≤ maxOutlineBytes)
    (response : SessionResponse (workerTypes ArtifactReader DocumentContent))
    (hanswer : (session.execute (artifactCalls floatText storage fuel calls).session
      (.overview request)).2 = .ok response) (message : ProtocolMessage)
    (hpresented : presentWithin maxOutlineBytes (.session response) = .ok message) :
    ∃ carried truncated, OverviewCarries message carried truncated ∧
      (OutlineLaw document maxOutlineBytes carried truncated ↔
        ∀ front, front <+: document.outline.take 500 → outlineCost front ≠ maxOutlineBytes) := by
  obtain ⟨written, -⟩ := built.contents faithful
  obtain ⟨labels, firstChunkId, content, hresponse⟩ := overview_answered written hfind hanswer
  obtain ⟨hcarries, hdumpable⟩ := overview_presented hresponse hpresented
  exact ⟨_, _, hcarries, selectedOutline_law document maxOutlineBytes hbudget hdumpable⟩

end Overview

/-- A session with the reader of the two pages. -/
def figurePagesSession : DocumentSession ArtifactReader :=
  DocumentSession.initial.register (ofString "pages") figurePagesReader

/-- The collaborators of a worker that only reads it. -/
def figurePagesCalls : WorkerCalls ArtifactReader DocumentContent :=
  artifactCalls (fun _ => []) (singleStorage figurePagesDatabase) 1 unusedCalls

/-- Its answer to an overview. -/
def figurePagesOverview : SessionResponse (workerTypes ArtifactReader DocumentContent) :=
  .overview (storedMetadata figurePages).value ((fetchedOutline figurePages).map OutlineEntry.value)
    [ContainerReference.value ⟨0, .page, some (ofString "Cover")⟩] (some 1)
    (some figurePages.canonicalText)

theorem figurePages_answered :
    (figurePagesSession.execute figurePagesCalls.session
      (.overview ⟨ofString "pages", by decide⟩)).2 = .ok figurePagesOverview := by
  obtain ⟨written, htext⟩ := figurePages_built.contents (singleStorage_faithful figurePagesDatabase)
  refine execute_overview.mpr ⟨_, rfl, _, ?_, _, ?_, _, ?_, _, ?_, _, ?_, rfl⟩
  · show ArtifactMetadata.value <$> figurePagesReader.metadata = _
    rw [metadata_built written (by decide)]
    rfl
  · show List.map OutlineEntry.value <$> figurePagesReader.outline 500 = _
    rw [outline_built written 500 (by decide)]
    rfl
  · show List.map ContainerReference.value <$> figurePagesReader.labeledContainers 500 = _
    rw [labeledContainers_built written 500 (by decide)]
    rfl
  · show Except.ok (figurePagesReader.firstChunkId.map Int.ofNat) = _
    have hfirst : figurePagesReader.firstChunkId = some 1 := by decide +kernel
    rw [hfirst]
    rfl
  · show figurePagesReader.fullTextIfSmall maxInlineContentBytes = _
    exact fullTextIfSmall_built written htext (by decide) _ (by decide)

/-- The JSON of the only entry. -/
theorem startEntry_dumpable :
    (outlineEntry
      (OutlineEntry.value ⟨1, ofString "Start", 0, by decide, by decide⟩)).Dumpable := by
  have htitle : Encodable (ofString "Start") := by decide
  exact ⟨by decide, Json.lt_intLimit (by decide), by decide, htitle, by decide,
    Json.lt_intLimit (by decide), trivial⟩

theorem figurePagesOverview_dumpable {outline : List OutlineValue}
    (h : Json.ItemsDumpable (outline.map outlineEntry)) :
    (overviewResult (storedMetadata figurePages).value outline
      [ContainerReference.value ⟨0, .page, some (ofString "Cover")⟩] (some 1)
      (some figurePages.canonicalText)).Dumpable := by
  have hsmall {n : ℕ} (hn : n ≤ 100) : (n : ℤ).natAbs < Json.intLimit := Json.lt_intLimit (by omega)
  have hsha : Encodable (storedMetadata figurePages).value.sourceSha256 := by decide
  have hmedia : Encodable (ofString "application/pdf") := by decide
  have htitle : Encodable [] := by decide
  have hkind : Encodable ContainerKind.page.value := by decide
  have hlabel : Encodable (ofString "Cover") := by decide
  have htext : Encodable figurePages.canonicalText := by decide
  have hmetadata : (ProtocolPresenter.metadata (storedMetadata figurePages).value).Dumpable :=
    ⟨by decide, hsmall (by decide), by decide, hsha, by decide, hmedia, by decide, htitle,
      by decide, hsmall (by decide), by decide, hsmall (by decide), by decide,
      hsmall (by decide), by decide, hsmall (by decide), trivial⟩
  have hcontainer : (container (ContainerReference.value
      ⟨0, .page, some (ofString "Cover")⟩)).Dumpable :=
    ⟨by decide, hsmall (by decide), by decide, hkind, by decide, hlabel, trivial⟩
  exact ⟨by decide, hmetadata, by decide, h, by decide, trivial, by decide, ⟨hcontainer, trivial⟩,
    by decide, hsmall (by decide), by decide, htext, trivial⟩

/-- Every limit gives a message. -/
theorem figurePages_presented (maxOutlineBytes : ℕ) :
    ∃ message, presentWithin maxOutlineBytes (.session figurePagesOverview) = .ok message := by
  have hentries : ∀ entry ∈ (fetchedOutline figurePages).map OutlineEntry.value,
      (outlineEntry entry).Dumpable := by
    intro entry hentry
    obtain rfl := List.mem_singleton.mp hentry
    exact startEntry_dumpable
  have hselected := boundedOutlineWithin_returns maxOutlineBytes 0 hentries
  have hitems : Json.ItemsDumpable ((takeWithin entryCost maxOutlineBytes 0
      ((fetchedOutline figurePages).map OutlineEntry.value)).map outlineEntry) := by
    show Json.ItemsDumpable ((if maxOutlineBytes < 0+49 then [] else [_]).map outlineEntry)
    split_ifs with hexceeds
    · trivial
    · exact ⟨startEntry_dumpable, trivial⟩
  obtain ⟨encoded, hencoded⟩ := (Json.encode_spec _).1.mpr (figurePagesOverview_dumpable hitems)
  obtain ⟨message, hmessage, -⟩ := message_single none .result (by decide) encoded
  refine ⟨message, ?_⟩
  show (do
    let selected ← boundedOutlineWithin maxOutlineBytes
      ((fetchedOutline figurePages).map OutlineEntry.value) 0
    jsonMessage (overviewResult _ selected _ _ _)) = _
  rw [hselected, ok_bind, jsonMessage, hencoded, ok_bind]
  exact hmessage

/-- A limit that the only entry does not meet exactly. -/
theorem overview_outline_law_figurePages :
    ∃ message, presentWithin 100 (.session figurePagesOverview) = .ok message ∧
      ∃ carried truncated, OverviewCarries message carried truncated ∧
        (OutlineLaw figurePages 100 carried truncated ↔
          ∀ front, front <+: figurePages.outline.take 500 → outlineCost front ≠ 100) := by
  obtain ⟨message, hmessage⟩ := figurePages_presented 100
  exact ⟨message, hmessage, overview_outline_law_iff (singleStorage_faithful figurePagesDatabase)
    figurePages_built rfl 100 (by decide) figurePagesOverview figurePages_answered message hmessage⟩

/-- The JSON of the only entry has 48 bytes, and its array has 50. -/
theorem outline_exceeds_limit :
    BuiltReader ArtifactWriter.default (singleStorage figurePagesDatabase) figurePages
        figurePagesReader ∧
      (figurePagesSession.execute figurePagesCalls.session
        (.overview ⟨ofString "pages", by decide⟩)).2 = .ok figurePagesOverview ∧
      ∃ message, presentWithin 49 (.session figurePagesOverview) = .ok message ∧
        ∃ carried truncated text, OverviewCarries message carried truncated ∧
          (outlineArray carried).encode = .ok text ∧ text.length = 50 ∧
          ¬OutlineLaw figurePages 49 carried truncated := by
  obtain ⟨message, hmessage⟩ := figurePages_presented 49
  obtain ⟨hcarries, hdumpable⟩ := overview_presented rfl hmessage
  obtain ⟨hencodes, hsize⟩ := Json.encode_spec (outlineArray (selectedOutline figurePages 49))
  obtain ⟨text, htext⟩ := hencodes.mpr hdumpable
  have hlength : text.length = 50 := by
    rw [hsize text htext, outlineArray_size]
    decide
  refine ⟨figurePages_built, figurePages_answered, message, hmessage, _, _, text, hcarries, htext,
    hlength, ?_⟩
  intro law
  obtain ⟨other, hother, hfits⟩ := law.fits
  obtain rfl := Except.ok.inj (htext.symm.trans hother)
  omega

end ConferWorker
