import ConferWorker.AnswerLimits

/-! What `present` returns for each response, and when `write` sends it. -/
namespace ConferWorker

open ProtocolCodec ProtocolPresenter

/-- An error that `_handle` answers with `processing_failed`. -/
def IsForeign (error : PythonError) : Prop := error.isApplicationError = false

theorem encodeText_raises (s : Str) : RaisesOnly IsForeign (encodeText s) := by
  unfold encodeText
  split
  · exact raisesOnly_ok _
  · exact raisesOnly_error rfl

theorem decodeText_raises (bytes : Bytes) : RaisesOnly IsForeign (decodeText bytes) := by
  unfold decodeText
  split
  · exact raisesOnly_ok _
  · exact raisesOnly_error rfl

namespace Json

mutual

theorem dumps_raises : (value : Json) → RaisesOnly IsForeign (dumps value)
  | .null => raisesOnly_ok _
  | .bool _ => raisesOnly_ok _
  | .int value => by
    rw [dumps, dumpsInt]
    exact raisesOnly_bind (raisesOnly_raiseIf _ rfl) (fun _ _ => raisesOnly_ok _)
  | .float _ => raisesOnly_ok _
  | .str _ => raisesOnly_ok _
  | .bytes _ => raisesOnly_error rfl
  | .arr items => by
    rw [dumps]
    exact raisesOnly_bind (dumpsItems_raises items) (fun _ _ => raisesOnly_ok _)
  | .obj members => by
    rw [dumps]
    exact raisesOnly_bind (dumpsMembers_raises members) (fun _ _ => raisesOnly_ok _)

theorem dumpsItems_raises : (items : List Json) → RaisesOnly IsForeign (dumpsItems items)
  | [] => raisesOnly_ok _
  | item :: items => by
    rw [dumpsItems]
    apply raisesOnly_bind (dumps_raises item)
    intro _ _
    exact raisesOnly_bind (dumpsItems_raises items) (fun _ _ => raisesOnly_ok _)

theorem dumpsMembers_raises : (members : List (Str × Json)) →
    RaisesOnly IsForeign (dumpsMembers members)
  | [] => raisesOnly_ok _
  | (name, value) :: members => by
    rw [dumpsMembers]
    apply raisesOnly_bind (dumps_raises value)
    intro _ _
    exact raisesOnly_bind (dumpsMembers_raises members) (fun _ _ => raisesOnly_ok _)

end

theorem encode_raises (value : Json) : RaisesOnly IsForeign value.encode :=
  raisesOnly_bind (dumps_raises value) (fun text _ => encodeText_raises text)

end Json

/-- `present` returned a message that `write` sends exactly when the answer fits, or it
raised an error that is answered with `processing_failed`. -/
def Answers (result : Except PythonError ProtocolMessage) (fits : Prop) : Prop :=
  (∃ response, result = .ok response ∧ Sendable response ∧ (Writable response ↔ fits)) ∨
    ∃ error, result = .error error ∧ IsForeign error ∧ fits

/-- The length of the header of a response with one payload. -/
def singleHeaderBytes (result : Option Json) (role : PayloadRole) (length : ℕ) : ℕ :=
  74+resultBytes result+Json.quotedSize role.value+Json.quotedSize (role.mediaType.getD [])
    +(Json.intText length).length

theorem message_single (result : Option Json) (role : PayloadRole) (hrole : role ≠ .source)
    (bytes : Bytes) :
    ∃ response, message result [(role, .content bytes)] (List.nodup_singleton _) = .ok response ∧
      Sendable response ∧ (Writable response ↔ (∀ value ∈ result, value.Dumpable) ∧
        singleHeaderBytes result role bytes.length ≤ maxHeaderBytes ∧
        bytes.length ≤ maxPayloadBytes) := by
  obtain ⟨mediaType, hmedia, hblank, hencodable, haccepts, -⟩ := responseRole_media role hrole
  obtain ⟨payload, hpayload, htype, hlength⟩ := fromBytes_returns bytes hblank
  have hvalue : ProtocolMessage.payloadOf role (.content bytes) = .ok payload := by
    rw [ProtocolMessage.payloadOf, hmedia]
    exact hpayload
  have haccepted : role.acceptsMediaType payload.mediaType = true := by rwa [htype]
  have hentries := acceptPayloads_cons hvalue haccepted acceptPayloads_nil
  have hdistinct : ([(role, PayloadValue.content bytes)].map Prod.fst).Nodup :=
    List.nodup_singleton _
  obtain ⟨response, hresponse, hheader, hpayloads⟩ := create_accepted (okHeader result)
    hdistinct hentries
  refine ⟨response, hresponse, ⟨?_, ?_⟩, ?_⟩
  · rw [hheader]
    exact okHeader_no_payloads result
  · rw [hpayloads]
    intro entry hentry
    obtain rfl := List.mem_singleton.mp hentry
    exact .fromBytes bytes mediaType hpayload
  -- the two conditions on the header: its length, and a JSON form for each of its values
  have hsize : (Json.obj response.sentHeader).size
      = singleHeaderBytes result role bytes.length := by
    rw [sentHeader_size, hheader, okHeader_size, hpayloads, descriptors, List.map_singleton,
      Json.size, Json.itemsSize, Json.itemsSize, descriptor_size, htype, hlength,
      singleHeaderBytes, hmedia, Option.getD_some]
    dsimp only
    omega
  have hdumpable : (Json.obj response.sentHeader).Dumpable ↔
      Json.MembersDumpable (okHeader result) ∧ (descriptor role payload).Dumpable := by
    have hkey : Encodable payloadsKey := by decide
    rw [Json.Dumpable, ProtocolMessage.sentHeader, hheader, hpayloads,
      Json.membersDumpable_append]
    simp only [descriptors, List.map_singleton, Json.MembersDumpable, Json.Dumpable,
      Json.ItemsDumpable, hkey, true_and, and_true]
  constructor
  · intro writable
    have hresult := hdumpable.mp writable.dumpable
    have hpayloadLength := writable.lengths (role, payload)
      (by rw [hpayloads]; exact List.mem_singleton_self _)
    refine ⟨(okHeader_dumpable result).mp hresult.1, ?_, by rwa [hlength] at hpayloadLength⟩
    rw [← hsize]
    exact writable.size
  · rintro ⟨hresult, hheaderBytes, hbytes⟩
    refine ⟨hdumpable.mpr ⟨(okHeader_dumpable result).mpr hresult, ?_⟩, ?_, ?_, ?_⟩
    · exact descriptor_dumpable role payload (by rwa [htype]) (by rwa [hlength])
    · rwa [hsize]
    · rw [hpayloads]
      intro entry hentry
      obtain rfl := List.mem_singleton.mp hentry
      rwa [hlength]
    · have htotal : maxPayloadBytes ≤ maxTotalPayloadBytes := by decide
      have hdeclared : declaredBytes response.payloads = bytes.length := by
        rw [hpayloads, declaredBytes_cons, hlength]
        rfl
      omega

theorem none_dumpable : ∀ value ∈ (none : Option Json), value.Dumpable := by
  intro value hvalue
  cases hvalue

theorem empty_answers : Answers (message none [] List.nodup_nil) True := by
  have hdistinct : (([] : List (PayloadRole × PayloadValue)).map Prod.fst).Nodup := List.nodup_nil
  obtain ⟨response, hresponse, hheader, hpayloads⟩ := create_accepted (okHeader none)
    hdistinct acceptPayloads_nil
  refine Or.inl ⟨response, hresponse, ⟨?_, ?_⟩, ?_⟩
  · rw [hheader]
    exact okHeader_no_payloads none
  · rw [hpayloads]
    exact List.forall_mem_nil _
  have hkey : Encodable payloadsKey := by decide
  refine ⟨fun _ => trivial, fun _ => ⟨?_, ?_, ?_, ?_⟩⟩
  · rw [Json.Dumpable, ProtocolMessage.sentHeader, hheader, hpayloads,
      Json.membersDumpable_append, okHeader_dumpable]
    exact ⟨none_dumpable, hkey, trivial, trivial⟩
  · rw [sentHeader_size, hheader, okHeader_size, hpayloads]
    decide
  · rw [hpayloads]
    exact List.forall_mem_nil _
  · rw [hpayloads]
    exact Nat.zero_le _

/-- A length within the payload limit has at most nine digits. -/
theorem payloadLength_digits {length : ℕ} (h : length ≤ maxPayloadBytes) :
    (Json.intText length).length ≤ 9 := by
  have hlimit : maxPayloadBytes < 10^9 := by decide
  exact Json.intText_length_le (by omega) (by omega)

theorem jsonMessage_answers (value : Json) : Answers (jsonMessage value) (JsonFits value) := by
  obtain ⟨hdumpable, hsize⟩ := Json.encode_spec value
  rcases hencode : value.encode with error | encoded
  · refine Or.inr ⟨error, ?_, Json.encode_raises value error hencode, ?_⟩
    · rw [jsonMessage, hencode]
      rfl
    · intro h
      obtain ⟨bytes, hbytes⟩ := hdumpable.mpr h
      rw [hencode] at hbytes
      cases hbytes
  · obtain ⟨response, hresponse, hsendable, hwritable⟩ := message_single none .result
      (by decide) encoded
    have hlength := hsize encoded hencode
    refine Or.inl ⟨response, ?_, hsendable, ?_⟩
    · rw [jsonMessage, hencode, ok_bind]
      exact hresponse
    rw [hwritable, hlength]
    constructor
    · rintro ⟨_, _, hbytes⟩ _
      exact hbytes
    · intro hfits
      have hbytes := hfits (hdumpable.mp ⟨encoded, hencode⟩)
      have hdigits := payloadLength_digits hbytes
      have hconstant : Json.quotedSize PayloadRole.result.value
          +Json.quotedSize (PayloadRole.result.mediaType.getD []) ≤ 40 := by decide
      have hlimit : maxHeaderBytes = 65536 := rfl
      refine ⟨none_dumpable, ?_, hbytes⟩
      rw [singleHeaderBytes, resultBytes]
      omega

theorem read_answers (value : WindowValue) :
    Answers (do
      let text ← encodeText value.text
      message (some (window value)) [(.text, .content text)] (List.nodup_singleton _))
      (Encodable value.text → value.Fits) := by
  rcases hencode : encodeText value.text with error | bytes
  · refine Or.inr ⟨error, rfl, encodeText_raises _ error hencode, ?_⟩
    intro hencodable
    rw [(encodeText_eq_ok _ _).mpr ⟨hencodable, rfl⟩] at hencode
    cases hencode
  · obtain ⟨hencodable, rfl⟩ := (encodeText_eq_ok _ _).mp hencode
    obtain ⟨response, hresponse, hsendable, hwritable⟩ := message_single (some (window value))
      .text (by decide) (utf8 value.text)
    refine Or.inl ⟨response, hresponse, hsendable, ?_⟩
    have hrole : Json.quotedSize PayloadRole.text.value = 6 := by decide
    have hmedia : Json.quotedSize (PayloadRole.text.mediaType.getD []) = 27 := by decide
    have hheader : singleHeaderBytes (some (window value)) .text (utf8 value.text).length
        = value.headerBytes := by
      rw [singleHeaderBytes, resultBytes, hrole, hmedia, ← window_size]
      omega
    rw [hwritable, hheader]
    constructor
    · rintro ⟨hresult, hbytes, htext⟩ _
      obtain ⟨hnumbers, hregions, hcontainers⟩ :=
        (window_dumpable value).mp (hresult _ rfl)
      exact ⟨hnumbers, hregions, hcontainers, hbytes, htext⟩
    · intro h
      obtain ⟨hnumbers, hregions, hcontainers, hbytes, htext⟩ := h hencodable
      refine ⟨?_, hbytes, htext⟩
      intro result hresult
      rw [← Option.mem_some_iff.mp hresult]
      exact (window_dumpable value).mpr ⟨hnumbers, hregions, hcontainers⟩

theorem render_answers (page : RenderedPage) :
    Answers (message (some (renderResult page)) [(.image, .content page.png)]
      (List.nodup_singleton _)) page.Fits := by
  obtain ⟨response, hresponse, hsendable, hwritable⟩ := message_single
    (some (renderResult page)) .image (by decide) page.png
  refine Or.inl ⟨response, hresponse, hsendable, ?_⟩
  have hrole : Json.quotedSize PayloadRole.image.value
      +Json.quotedSize (PayloadRole.image.mediaType.getD []) = 18 := by decide
  have hkeys : Json.quotedSize (ofString "media_type") = 12 ∧
      Json.quotedSize (ofString "image/png") = 11 ∧ Json.quotedSize (ofString "width") = 7 ∧
      Json.quotedSize (ofString "height") = 8 ∧
      Json.quotedSize (ofString "container_number") = 18 := by decide
  have hencodable : Encodable (ofString "media_type") ∧ Encodable (ofString "image/png") ∧
      Encodable (ofString "width") ∧ Encodable (ofString "height") ∧
      Encodable (ofString "container_number") := by decide
  have hheader : singleHeaderBytes (some (renderResult page)) .image page.png.length
      = page.headerBytes := by
    simp only [singleHeaderBytes, resultBytes, renderResult, Json.size, Json.membersSize, hkeys,
      RenderedPage.headerBytes]
    omega
  have hdumpable : (renderResult page).Dumpable ↔ page.width < Json.intLimit ∧
      page.height < Json.intLimit ∧ page.containerNumber < Json.intLimit := by
    simp only [renderResult, Json.Dumpable, Json.MembersDumpable, hencodable, Int.natAbs_natCast,
      true_and, and_true]
  rw [hwritable, hheader]
  constructor
  · rintro ⟨hresult, hbytes, hpng⟩
    exact ⟨hdumpable.mp (hresult _ rfl), hbytes, hpng⟩
  · rintro ⟨hnumbers, hbytes, hpng⟩
    refine ⟨?_, hbytes, hpng⟩
    intro result hresult
    rw [← Option.mem_some_iff.mp hresult]
    exact hdumpable.mpr hnumbers

theorem utf16Units_le (text : Str) : utf16Units text ≤ (utf8 text).length := by
  unfold utf16Units
  induction text with
  | nil => exact le_refl _
  | cons c text ih =>
    have hbytes : (if c.val < 0x10000 then 1 else 2) ≤ (utf8Bytes c).length := by
      rcases Nat.lt_or_ge c.val 0x10000 with h | h
      · rw [if_pos h]
        exact utf8Bytes_length_pos c
      · rw [if_neg (by omega), utf8Bytes, if_neg (by omega), if_neg (by omega), if_neg (by omega)]
        simp only [List.length_cons, List.length_nil]
        omega
    rw [List.map_cons, List.sum_cons, utf8_cons, List.length_append]
    omega

/-- The counts of an extraction are short numbers when its text fits. -/
theorem extractionResult_short {text : Bytes} {units escaped : ℕ}
    (htext : text.length ≤ maxPayloadBytes) (hunits : units ≤ text.length)
    (hescaped : escaped ≤ 2+6*text.length) :
    (extractionResult text units escaped).Dumpable ∧
      (extractionResult text units escaped).size ≤ 100 := by
  have hlimit : maxPayloadBytes = 268435456 := by decide
  have hkeys : Json.quotedSize (ofString "text_bytes") = 12 ∧
      Json.quotedSize (ofString "text_characters") = 17 ∧
      Json.quotedSize (ofString "json_escaped_text_bytes") = 25 := by decide
  have hencodable : Encodable (ofString "text_bytes") ∧ Encodable (ofString "text_characters") ∧
      Encodable (ofString "json_escaped_text_bytes") := by decide
  have hbytes : (Json.intText text.length).length ≤ 10 :=
    Json.intText_length_le (by omega) (by omega)
  have hcharacters : (Json.intText units).length ≤ 10 :=
    Json.intText_length_le (by omega) (by omega)
  have hjson : (Json.intText (escaped-2 : ℕ)).length ≤ 10 :=
    Json.intText_length_le (by omega) (by omega)
  constructor
  · simp only [extractionResult, Json.Dumpable, Json.MembersDumpable, hencodable,
      Int.natAbs_natCast, true_and, and_true]
    exact ⟨Json.lt_intLimit (by omega), Json.lt_intLimit (by omega), Json.lt_intLimit (by omega)⟩
  · simp only [extractionResult, Json.size, Json.membersSize, hkeys]
    omega

/-- The message with the artifact and the text of an extraction. -/
theorem message_extraction (result : Json) (artifact : ProtocolPayload) (text : Bytes)
    (hartifact : artifact.Built) (htype : PayloadRole.artifact.mediaType = some artifact.mediaType)
    (hresult : text.length ≤ maxPayloadBytes → result.Dumpable ∧ result.size ≤ 100) :
    ∃ response, message (some result) [(.artifact, .payload artifact), (.text, .content text)]
        (by simp) = .ok response ∧ Sendable response ∧
      (Writable response ↔ text.length ≤ maxPayloadBytes ∧ artifact.length ≤ maxPayloadBytes ∧
        artifact.length+text.length ≤ maxTotalPayloadBytes) := by
  obtain ⟨mediaType, hmedia, hblank, hencodable, haccepts, hquoted⟩ :=
    responseRole_media .text (by decide)
  obtain ⟨artifactType, hartifactMedia, -, hartifactEncodable, hartifactAccepts,
    hartifactQuoted⟩ := responseRole_media .artifact (by decide)
  obtain rfl : artifactType = artifact.mediaType :=
    Option.some.inj (hartifactMedia.symm.trans htype)
  obtain ⟨payload, hpayload, hpayloadType, hlength⟩ := fromBytes_returns text hblank
  have hvalue : ProtocolMessage.payloadOf .text (.content text) = .ok payload := by
    rw [ProtocolMessage.payloadOf, hmedia]
    exact hpayload
  have hfirst : ProtocolMessage.payloadOf .artifact (.payload artifact) = .ok artifact := rfl
  have hentries := acceptPayloads_cons hfirst hartifactAccepts
    (acceptPayloads_cons hvalue (by rwa [hpayloadType]) acceptPayloads_nil)
  have hdistinct : ([(PayloadRole.artifact, PayloadValue.payload artifact),
      (.text, .content text)].map Prod.fst).Nodup := by simp
  obtain ⟨response, hresponse, hheader, hpayloads⟩ := create_accepted (okHeader (some result))
    hdistinct hentries
  have hdeclared : declaredBytes response.payloads = artifact.length+text.length := by
    rw [hpayloads, declaredBytes_cons, declaredBytes_cons, hlength]
    rfl
  refine ⟨response, hresponse, ⟨?_, ?_⟩, ?_⟩
  · rw [hheader]
    exact okHeader_no_payloads _
  · rw [hpayloads]
    refine List.forall_mem_cons.mpr ⟨hartifact, ?_⟩
    intro entry hentry
    obtain rfl := List.mem_singleton.mp hentry
    exact .fromBytes text mediaType hpayload
  constructor
  · intro writable
    have hlengths := writable.lengths
    rw [hpayloads, List.forall_mem_cons, List.forall_mem_cons, hlength] at hlengths
    refine ⟨hlengths.2.1, hlengths.1, ?_⟩
    rw [← hdeclared]
    exact writable.total
  · rintro ⟨htext, hartifactLength, htotal⟩
    obtain ⟨hdumpable, hsize⟩ := hresult htext
    -- the header is JSON, it is short, and both payloads are within the limits
    refine ⟨?_, ?_, ?_, by rwa [hdeclared]⟩
    · have hkey : Encodable payloadsKey := by decide
      have hvalue : ∀ value ∈ some result, value.Dumpable := by
        intro value hvalue
        rwa [← Option.mem_some_iff.mp hvalue]
      rw [Json.Dumpable, ProtocolMessage.sentHeader, hheader, hpayloads,
        Json.membersDumpable_append, okHeader_dumpable]
      refine ⟨hvalue, hkey, ⟨?_, ?_, trivial⟩, trivial⟩
      · exact descriptor_dumpable _ _ hartifactEncodable hartifactLength
      · exact descriptor_dumpable _ _ (by rwa [hpayloadType]) (by rwa [hlength])
    · have hroles : Json.quotedSize PayloadRole.artifact.value = 10 ∧
          Json.quotedSize PayloadRole.text.value = 6 := by decide
      have hartifactDigits := payloadLength_digits hartifactLength
      have htextDigits := payloadLength_digits htext
      have hlimit : maxHeaderBytes = 65536 := rfl
      rw [sentHeader_size, hheader, okHeader_size, hpayloads, descriptors, List.map_cons,
        List.map_singleton, Json.size, Json.itemsSize, Json.itemsSize, Json.itemsSize,
        descriptor_size, descriptor_size, hpayloadType, hlength, resultBytes]
      simp only [hroles]
      omega
    · rw [hpayloads, List.forall_mem_cons, List.forall_mem_cons, hlength]
      exact ⟨hartifactLength, htext, List.forall_mem_nil _⟩

/-- `from_file` accepts a file of the length it is given. -/
theorem fromFile_eq (file : Bytes) (length : ℕ) {mediaType : Str}
    (hblank : isBlank mediaType = false) :
    ProtocolPayload.fromFile file length mediaType =
      if file.length = length then .ok ⟨mediaType, length, .file file, hblank, trivial⟩
      else .error (.valueError
        (ofString "protocol payload backing file has an invalid length")) := by
  have hfits : BackingStore.contentFits length (.file file) := trivial
  unfold ProtocolPayload.fromFile
  split_ifs with h
  · rw [raiseIf_of_not _ (by simpa using h), ok_bind, ProtocolPayload.create, dif_pos hblank,
      dif_pos hfits]
  · rw [raiseIf, if_pos h]
    rfl

theorem extraction_answers (result : ExtractDocumentResult) :
    Answers (extraction result) ((decodeUtf8 result.text).isSome = true →
      result.artifact.length = result.artifactLength → result.Fits) := by
  unfold extraction
  rcases hdecode : decodeText result.text with error | text
  · refine Or.inr ⟨error, rfl, decodeText_raises _ error hdecode, ?_⟩
    intro hsome
    obtain ⟨text, htext⟩ := Option.isSome_iff_exists.mp hsome
    rw [decodeText, htext] at hdecode
    cases hdecode
  obtain ⟨hencodable, htext⟩ := (decodeText_eq_ok _ _).mp hdecode
  have hsome : (decodeUtf8 result.text).isSome = true := by
    rw [← htext, decodeUtf8_utf8 text hencodable]
    rfl
  obtain ⟨hdumpable, hsize⟩ := Json.encode_spec (.str text)
  obtain ⟨encoded, hencoded⟩ := hdumpable.mpr hencodable
  have hescaped : encoded.length ≤ 2+6*result.text.length := by
    rw [hsize encoded hencoded, Json.size, ← htext]
    exact Json.quotedSize_le text
  have hunits : utf16Units text ≤ result.text.length := by
    rw [← htext]
    exact utf16Units_le text
  simp only [ok_bind, hencoded]
  have hblank : isBlank (ofString "application/vnd.confer.document-artifact") = false := by decide
  have hfile := fromFile_eq result.artifact result.artifactLength hblank
  by_cases hlength : result.artifact.length = result.artifactLength
  · rw [if_pos hlength] at hfile
    obtain ⟨response, hresponse, hsendable, hwritable⟩ := message_extraction
      (extractionResult result.text (utf16Units text) encoded.length) _ result.text
      (.fromFile _ _ _ hfile) rfl (fun h => extractionResult_short h hunits hescaped)
    rw [hfile, ok_bind]
    refine Or.inl ⟨response, hresponse, hsendable, hwritable.trans ?_⟩
    exact ⟨fun h _ _ => h, fun h => h hsome hlength⟩
  · rw [if_neg hlength] at hfile
    rw [hfile]
    exact Or.inr ⟨_, rfl, rfl, fun _ h => absurd h hlength⟩

/-- What a response must satisfy to be sent. A response that cannot be presented is
answered with `processing_failed`. -/
def ResponseFits {Reader Content : Type} : WorkerResponse (workerTypes Reader Content) → Prop
  | .session .empty => True
  | .session (.overview documentMetadata outline labeledContainers firstChunkId content) =>
    OverviewFits documentMetadata outline labeledContainers firstChunkId content
  | .session (.search hits hasMore) => SearchFits hits hasMore
  | .session (.read textWindow) => Encodable (WindowValue.text textWindow) →
      WindowValue.Fits textWindow
  | .session (.render page) => RenderedPage.Fits page
  | .extracted result => (decodeUtf8 result.text).isSome = true →
      result.artifact.length = result.artifactLength → result.Fits

theorem boundedOutline_raises (entries : List OutlineValue) (encodedBytes : ℕ) :
    RaisesOnly IsForeign (boundedOutline entries encodedBytes) := by
  induction entries generalizing encodedBytes with
  | nil => exact raisesOnly_ok _
  | cons entry entries ih =>
    unfold boundedOutline
    apply raisesOnly_bind (Json.encode_raises _)
    intro encoded _
    dsimp only
    split_ifs
    · exact raisesOnly_ok _
    · exact raisesOnly_bind (ih _) (fun _ _ => raisesOnly_ok _)

theorem overview_answers (documentMetadata : MetadataValue) (outline : List OutlineValue)
    (labeledContainers : List ContainerValue) (firstChunkId : Option ℤ) (content : Option Str) :
    Answers (do
      let selected ← boundedOutline outline 0
      jsonMessage
        (overviewResult documentMetadata selected labeledContainers firstChunkId content))
      (OverviewFits documentMetadata outline labeledContainers firstChunkId content) := by
  rw [← overviewResult_fits_iff]
  rcases hselected : boundedOutline outline 0 with error | selected
  · refine Or.inr ⟨error, rfl, boundedOutline_raises _ _ error hselected, ?_⟩
    intro selected h
    cases h
  · simpa only [ok_bind, Except.ok.injEq, forall_eq'] using jsonMessage_answers
      (overviewResult documentMetadata selected labeledContainers firstChunkId content)

theorem search_answers (hits : List HitValue) (hasMore : Bool) :
    Answers (jsonMessage (searchResult hits hasMore)) (SearchFits hits hasMore) := by
  rw [← searchResult_fits_iff]
  exact jsonMessage_answers _

theorem present_answers {Reader Content : Type}
    (response : WorkerResponse (workerTypes Reader Content)) :
    Answers (present response) (ResponseFits response) := by
  rcases response with result | response
  · exact extraction_answers result
  cases response with
  | empty => exact empty_answers
  | overview documentMetadata outline labeledContainers firstChunkId content =>
    exact overview_answers _ _ _ _ _
  | search hits hasMore => exact search_answers _ _
  | read textWindow => exact read_answers _
  | render page => exact render_answers _

end ConferWorker
