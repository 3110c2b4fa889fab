import ConferWorker.ProtocolCodec

/-! Frames go over a stream and come back: what `write` sends, `read` returns,
and it reads no byte of the next frame. -/
namespace ConferWorker

open ProtocolCodec

/-- The bytes of an open payload, as `read_bytes` returns them. -/
def ProtocolPayload.contents (payload : ProtocolPayload) : Bytes :=
  match payload.store with
  | .content bytes => bytes
  | .file bytes => bytes.take payload.length
  | .closed => []

/-- A payload as one of the three constructors returned it: not yet closed. -/
inductive ProtocolPayload.Built (payload : ProtocolPayload) : Prop
  | fromBytes (content : Bytes) (mediaType : Str)
      (h : ProtocolPayload.fromBytes content mediaType = .ok payload)
  | fromFile (file : Bytes) (length : ℕ) (mediaType : Str)
      (h : ProtocolPayload.fromFile file length mediaType = .ok payload)
  | receive (stream next : ByteSource) (length : ℕ) (mediaType : Str)
      (h : ProtocolPayload.receive stream length mediaType = .ok (payload, next))

theorem ProtocolPayload.Holds.contents {payload : ProtocolPayload} {bytes : Bytes}
    (h : payload.Holds bytes) : payload.contents = bytes := by
  obtain ⟨hlength, hstore⟩ := h
  unfold ProtocolPayload.contents
  rcases hstore with hstore | hstore
  · rw [hstore]
  · rw [hstore]
    exact List.take_of_length_le hlength.le

theorem ProtocolPayload.Built.holds {payload : ProtocolPayload} (h : payload.Built) :
    payload.Holds payload.contents := by
  have hholds : ∃ bytes, payload.Holds bytes := by
    cases h with
    | fromBytes content mediaType h => exact ⟨content, fromBytes_holds h⟩
    | fromFile file length mediaType h => exact ⟨file, fromFile_holds h⟩
    | receive stream next length mediaType h => exact receive_holds h
  obtain ⟨bytes, hbytes⟩ := hholds
  rwa [hbytes.contents]

/-- What a message says: its header and, for each role, the media type and the bytes. -/
def ProtocolMessage.view (message : ProtocolMessage) :
    List (Str × Json) × List (PayloadRole × Str × Bytes) :=
  (message.header, message.payloads.map (fun entry =>
    (entry.1, entry.2.mediaType, entry.2.contents)))

/-- A message that a caller may write. -/
structure Sendable (message : ProtocolMessage) : Prop where
  no_payloads_key : ∀ member ∈ message.header, member.1 ≠ payloadsKey
  built : ∀ entry ∈ message.payloads, entry.2.Built

/-- The descriptors of the payloads. -/
def descriptors (payloads : List (PayloadRole × ProtocolPayload)) : List Json :=
  payloads.map (fun entry => descriptor entry.1 entry.2)

/-- The object that stands in the frame. -/
def ProtocolMessage.sentHeader (message : ProtocolMessage) : List (Str × Json) :=
  message.header++[(payloadsKey, .arr (descriptors message.payloads))]

/-- `json.loads` undoes `json.dumps` on the header of the message. -/
def LoadsBack (loads : JsonLoads) (message : ProtocolMessage) : Prop :=
  ∀ encoded, (Json.obj message.sentHeader).encode = .ok encoded →
    loads encoded = .ok (.obj message.sentHeader)

/-- The bytes of the payloads, one after the other. -/
def payloadBytes (payloads : List (PayloadRole × ProtocolPayload)) : Bytes :=
  (payloads.map (fun entry => entry.2.contents)).flatten

/-- How many bytes the payloads declare. -/
def declaredBytes (payloads : List (PayloadRole × ProtocolPayload)) : ℕ :=
  (payloads.map (fun entry => entry.2.length)).sum

@[simp] theorem payloadBytes_cons (entry : PayloadRole × ProtocolPayload)
    (payloads : List (PayloadRole × ProtocolPayload)) :
    payloadBytes (entry :: payloads) = entry.2.contents++payloadBytes payloads := rfl

@[simp] theorem declaredBytes_cons (entry : PayloadRole × ProtocolPayload)
    (payloads : List (PayloadRole × ProtocolPayload)) :
    declaredBytes (entry :: payloads) = entry.2.length+declaredBytes payloads :=
  List.sum_cons

theorem payloadBytes_length (payloads : List (PayloadRole × ProtocolPayload))
    (h : ∀ entry ∈ payloads, entry.2.Built) :
    (payloadBytes payloads).length = declaredBytes payloads := by
  induction payloads with
  | nil => rfl
  | cons entry payloads ih =>
    obtain ⟨hentry, hpayloads⟩ := List.forall_mem_cons.mp h
    rw [payloadBytes_cons, declaredBytes_cons, List.length_append, ih hpayloads, hentry.holds.1]

/-- A header that passed the checks of `write`. -/
structure Framed (message : ProtocolMessage) (encoded : Bytes) : Prop where
  header : (Json.obj message.sentHeader).encode = .ok encoded
  range : 2 ≤ encoded.length ∧ encoded.length ≤ maxHeaderBytes
  lengths : ∀ entry ∈ message.payloads, entry.2.length ≤ maxPayloadBytes
  total : declaredBytes message.payloads ≤ maxTotalPayloadBytes

/-- The frame of a message whose header is encoded so. -/
def frameBytes (message : ProtocolMessage) (encoded : Bytes) : Bytes :=
  toBig headerLengthSize encoded.length++encoded++payloadBytes message.payloads

theorem describePayloads_ok {payloads : List (PayloadRole × ProtocolPayload)}
    {found found' : List Json} {total total' : ℕ} (htotal : total ≤ maxTotalPayloadBytes)
    (h : payloads.foldlM describePayload (found, total) = .ok (found', total')) :
    found' = found++descriptors payloads ∧
      (∀ entry ∈ payloads, entry.2.length ≤ maxPayloadBytes) ∧
      total+declaredBytes payloads ≤ maxTotalPayloadBytes := by
  induction payloads generalizing found total with
  | nil =>
    simp only [List.foldlM_nil, pure_eq_ok, Prod.mk.injEq] at h
    obtain ⟨rfl, rfl⟩ := h
    exact ⟨(List.append_nil _).symm, List.forall_mem_nil _, htotal⟩
  | cons entry payloads ih =>
    simp only [List.foldlM_cons, describePayload, bind_eq_ok, raiseIf_eq_ok, pure_eq_ok,
      not_lt] at h
    obtain ⟨_, ⟨_, _, _, hlength, _, hsum, rfl⟩, hrest⟩ := h
    obtain ⟨rfl, hlengths, hall⟩ := ih hsum hrest
    refine ⟨?_, List.forall_mem_cons.mpr ⟨hlength, hlengths⟩, ?_⟩
    · rw [List.append_assoc]
      rfl
    · rw [declaredBytes_cons]
      omega

theorem encodeHeader_ok {message : ProtocolMessage} {encoded : Bytes}
    (hkey : ∀ member ∈ message.header, member.1 ≠ payloadsKey)
    (h : encodeHeader message = .ok encoded) : Framed message encoded := by
  simp only [encodeHeader, bind_eq_ok, Prod.exists, raiseIf_eq_ok, pure_eq_ok, not_lt] at h
  obtain ⟨found, total, hfold, bytes, hencode, _, hmax, rfl⟩ := h
  obtain ⟨rfl, hlengths, htotal⟩ := describePayloads_ok (Nat.zero_le _) hfold
  rw [setItem_new _ _ _ hkey, List.nil_append] at hencode
  refine ⟨hencode, ⟨Json.encode_obj_length hencode, hmax⟩, hlengths, ?_⟩
  rwa [Nat.zero_add] at htotal

theorem writePayloads_eq (payloads : List (PayloadRole × ProtocolPayload))
    (h : ∀ entry ∈ payloads, entry.2.Built) :
    writePayloads payloads = (payloadBytes payloads, .ok ()) := by
  induction payloads with
  | nil => rfl
  | cons entry payloads ih =>
    obtain ⟨hentry, hpayloads⟩ := List.forall_mem_cons.mp h
    rw [writePayloads, hentry.holds.writeTo]
    simp only [ih hpayloads, payloadBytes_cons]

/-- `write` raises before it writes a byte, or it writes a whole frame. -/
theorem write_cases {message : ProtocolMessage} (sendable : Sendable message) :
    (∃ error, write message = ([], .error error)) ∨
      ∃ encoded, Framed message encoded ∧ write message = (frameBytes message encoded, .ok ()) := by
  unfold write
  rcases hheader : encodeHeader message with error | encoded
  · exact Or.inl ⟨error, rfl⟩
  · refine Or.inr ⟨encoded, encodeHeader_ok sendable.no_payloads_key hheader, ?_⟩
    simp only [writePayloads_eq _ sendable.built]
    rfl

/-! Reading. -/

theorem readExact_append (stream : ByteSource) (bytes rest : Bytes)
    (hdata : stream.data = bytes++rest) :
    ∃ next, readExact stream bytes.length = .ok (bytes, next) ∧ next.data = rest :=
  readLoop_append _ (fun _ h => ⟨h, le_refl _⟩) stream bytes rest hdata

theorem readExact_short (stream : ByteSource) (length : ℕ) (h : stream.data.length < length) :
    readExact stream length = .error ProtocolPayload.truncatedMessage :=
  readLoop_short _ (fun _ h => ⟨h, le_refl _⟩) stream length h

theorem descriptor_fields (entry : PayloadRole × ProtocolPayload)
    (hmedia : entry.1.acceptsMediaType entry.2.mediaType = true)
    (hlength : entry.2.length ≤ maxPayloadBytes) :
    ∃ members, descriptor entry.1 entry.2 = .obj members ∧
      descriptorRole (getItem members (ofString "role")) = some entry.1 ∧
      descriptorMediaType entry.1 (getItem members (ofString "media_type"))
        = some entry.2.mediaType ∧
      descriptorLength (getItem members (ofString "length")) = some entry.2.length := by
  have hrole : ofString "role" ≠ ofString "media_type" := by decide
  have hrole' : ofString "role" ≠ ofString "length" := by decide
  have hmedia' : ofString "media_type" ≠ ofString "length" := by decide
  refine ⟨_, rfl, ?_, ?_, ?_⟩
  · simp [getItem, descriptorRole]
  · simp [getItem, List.find?_cons_of_neg, hrole, descriptorMediaType, hmedia]
  · have hle : (entry.2.length : ℤ) ≤ maxPayloadBytes := by exact_mod_cast hlength
    simp [getItem, List.find?_cons_of_neg, hrole', hmedia', descriptorLength, hle]

/-- One round of the loop of `read` on a stream that holds the payload. -/
theorem readPayload_append (state : ReadState) (entry : PayloadRole × ProtocolPayload)
    (rest : Bytes) (hmedia : entry.1.acceptsMediaType entry.2.mediaType = true)
    (hbuilt : entry.2.Built) (hlength : entry.2.length ≤ maxPayloadBytes)
    (htotal : state.total+entry.2.length ≤ maxTotalPayloadBytes)
    (hrole : entry.1 ∉ state.payloads.map Prod.fst)
    (hdata : state.stream.data = entry.2.contents++rest) :
    ∃ payload next, readPayload state (descriptor entry.1 entry.2) = .ok next ∧
      next.payloads = state.payloads++[(entry.1, payload)] ∧
      payload.mediaType = entry.2.mediaType ∧ payload.contents = entry.2.contents ∧
      next.total = state.total+entry.2.length ∧ next.stream.data = rest := by
  obtain ⟨members, hmembers, hr, hm, hl⟩ := descriptor_fields entry hmedia hlength
  obtain ⟨payload, stream, hreceive, htype, hholds, hrest⟩ := ProtocolPayload.receive_append
    state.stream entry.2.contents rest entry.2.mediaType entry.2.media_type_required hdata
  rw [hbuilt.holds.1] at hreceive
  refine ⟨payload, ⟨stream, state.payloads++[(entry.1, payload)],
    state.total+entry.2.length, ?_⟩, ?_, rfl, htype, hholds.contents, rfl, hrest⟩
  · rw [List.map_append, List.map_singleton, ← List.concat_eq_append, List.nodup_concat]
    exact ⟨hrole, state.distinct_roles⟩
  · rw [hmembers, readPayload, hr]
    simp only [orRaise, ok_bind]
    rw [dif_pos hrole, readNewPayload, hm, hl]
    simp only [orRaise, ok_bind, raiseIf_of_not _ (not_lt.mpr htotal), hreceive]
    rfl

/-- A round of the loop of `read` takes the declared bytes from the stream. -/
theorem readPayload_takes {state next : ReadState} {entry : PayloadRole × ProtocolPayload}
    (hmedia : entry.1.acceptsMediaType entry.2.mediaType = true)
    (hlength : entry.2.length ≤ maxPayloadBytes)
    (h : readPayload state (descriptor entry.1 entry.2) = .ok next) :
    next.stream.data.length+entry.2.length = state.stream.data.length := by
  obtain ⟨members, hmembers, hr, hm, hl⟩ := descriptor_fields entry hmedia hlength
  rw [hmembers, readPayload, hr] at h
  simp only [orRaise, ok_bind] at h
  split_ifs at h with hrole
  rw [readNewPayload, hm, hl] at h
  simp only [orRaise, ok_bind, bind_eq_ok, raiseIf_eq_ok, Prod.exists, pure_eq_ok] at h
  obtain ⟨_, _, payload, stream, hreceive, rfl⟩ := h
  rcases Nat.lt_or_ge state.stream.data.length entry.2.length with hshort | hlong
  · rw [ProtocolPayload.receive_short _ _ _ hshort] at hreceive
    cases hreceive
  · have htake : (state.stream.data.take entry.2.length).length = entry.2.length := by
      rw [List.length_take]
      omega
    obtain ⟨payload', stream', hreceive', _, _, hrest⟩ := ProtocolPayload.receive_append
      state.stream (state.stream.data.take entry.2.length)
      (state.stream.data.drop entry.2.length) entry.2.mediaType entry.2.media_type_required
      (List.take_append_drop _ _).symm
    rw [htake, hreceive, Except.ok.injEq, Prod.mk.injEq] at hreceive'
    obtain ⟨rfl, rfl⟩ := hreceive'
    rw [hrest, List.length_drop]
    omega

/-- What a payload entry of a message says. -/
def entryView (entry : PayloadRole × ProtocolPayload) : PayloadRole × Str × Bytes :=
  (entry.1, entry.2.mediaType, entry.2.contents)

/-- The loop of `read` on a stream that holds all payloads. -/
theorem readPayloads_append (payloads : List (PayloadRole × ProtocolPayload)) (state : ReadState)
    (rest : Bytes) (hmedia : ∀ entry ∈ payloads, entry.1.acceptsMediaType entry.2.mediaType = true)
    (hbuilt : ∀ entry ∈ payloads, entry.2.Built)
    (hlengths : ∀ entry ∈ payloads, entry.2.length ≤ maxPayloadBytes)
    (htotal : state.total+declaredBytes payloads ≤ maxTotalPayloadBytes)
    (hroles : (state.payloads.map Prod.fst++payloads.map Prod.fst).Nodup)
    (hdata : state.stream.data = payloadBytes payloads++rest) :
    ∃ last, (descriptors payloads).foldlM readPayload state = .ok last ∧
      last.payloads.map entryView = state.payloads.map entryView++payloads.map entryView ∧
      last.stream.data = rest := by
  induction payloads generalizing state with
  | nil => exact ⟨state, rfl, (List.append_nil _).symm, hdata⟩
  | cons entry payloads ih =>
    obtain ⟨hmedia', hmediaRest⟩ := List.forall_mem_cons.mp hmedia
    obtain ⟨hbuilt', hbuiltRest⟩ := List.forall_mem_cons.mp hbuilt
    obtain ⟨hlength, hlengthRest⟩ := List.forall_mem_cons.mp hlengths
    rw [declaredBytes_cons] at htotal
    rw [payloadBytes_cons, List.append_assoc] at hdata
    have hrole : entry.1 ∉ state.payloads.map Prod.fst := by
      intro hused
      exact List.disjoint_of_nodup_append hroles hused List.mem_cons_self
    obtain ⟨payload, next, hstep, hpayloads, htype, hcontents, hsum, hrest⟩ :=
      readPayload_append state entry _ hmedia' hbuilt' hlength (by omega) hrole hdata
    obtain ⟨last, hlast, hviews, hlastRest⟩ := ih next hmediaRest hbuiltRest hlengthRest
      (by omega) (by rw [hpayloads]; simpa using hroles) hrest
    refine ⟨last, ?_, ?_, hlastRest⟩
    · rw [descriptors, List.map_cons, List.foldlM_cons, hstep, ok_bind]
      exact hlast
    · rw [hviews, hpayloads]
      simp [entryView, htype, hcontents]

/-- The loop of `read` raises when the stream holds fewer bytes than declared. -/
theorem readPayloads_short (payloads : List (PayloadRole × ProtocolPayload)) (state : ReadState)
    (hmedia : ∀ entry ∈ payloads, entry.1.acceptsMediaType entry.2.mediaType = true)
    (hlengths : ∀ entry ∈ payloads, entry.2.length ≤ maxPayloadBytes)
    (hshort : state.stream.data.length < declaredBytes payloads) :
    ∃ error, (descriptors payloads).foldlM readPayload state = .error error := by
  induction payloads generalizing state with
  | nil => exact absurd hshort (Nat.not_lt_zero _)
  | cons entry payloads ih =>
    obtain ⟨hmedia', hmediaRest⟩ := List.forall_mem_cons.mp hmedia
    obtain ⟨hlength, hlengthRest⟩ := List.forall_mem_cons.mp hlengths
    rw [declaredBytes_cons] at hshort
    rw [descriptors, List.map_cons, List.foldlM_cons]
    rcases hstep : readPayload state (descriptor entry.1 entry.2) with error | next
    · exact ⟨error, rfl⟩
    · have htakes := readPayload_takes hmedia' hlength hstep
      exact ih next hmediaRest hlengthRest (by omega)

/-- The payloads that the loop collected make up a message. -/
theorem create_received (header : List (Str × Json))
    (payloads : List (PayloadRole × ProtocolPayload))
    (hmedia : ∀ entry ∈ payloads, entry.1.acceptsMediaType entry.2.mediaType = true)
    (hroles : ((payloads.map (fun entry => (entry.1, PayloadValue.payload entry.2))).map
      Prod.fst).Nodup) :
    ∃ message, ProtocolMessage.create header
        (payloads.map (fun entry => (entry.1, PayloadValue.payload entry.2))) hroles = .ok message ∧
      message.header = header ∧ message.payloads = payloads := by
  have haccept : ∃ accepted, ProtocolMessage.acceptPayloads
      (payloads.map (fun entry => (entry.1, PayloadValue.payload entry.2))) = .ok accepted ∧
      accepted.val = payloads := by
    clear hroles
    induction payloads with
    | nil => exact ⟨_, rfl, rfl⟩
    | cons entry payloads ih =>
      obtain ⟨hentry, hrest⟩ := List.forall_mem_cons.mp hmedia
      obtain ⟨⟨accepted, _, _⟩, haccepted, hval⟩ := ih hrest
      rw [List.map_cons, ProtocolMessage.acceptPayloads]
      simp only [ProtocolMessage.payloadOf, pure, Except.pure, bind, Except.bind, dif_pos hentry]
      rw [haccepted]
      exact ⟨_, rfl, congrArg (List.cons entry) hval⟩
  obtain ⟨⟨accepted, _, _⟩, haccepted, hval⟩ := haccept
  unfold ProtocolMessage.create
  simp only [haccepted, ok_bind]
  exact ⟨_, rfl, rfl, hval⟩

section Frames

variable {loads : JsonLoads} {message : ProtocolMessage} {encoded : Bytes}
  (sendable : Sendable message)

include sendable

section Spelled

variable (hloads : loads encoded = .ok (.obj message.sentHeader))
  (range : 2 ≤ encoded.length ∧ encoded.length ≤ maxHeaderBytes)

include hloads range

/-- `read` up to its loop, on a stream that holds the header of a frame in any spelling. -/
theorem read_header (stream : ByteSource) (body : Bytes)
    (hdata : stream.data = toBig headerLengthSize encoded.length++encoded++body) :
    ∃ rest : ByteSource, rest.data = body ∧ read loads stream = (do
      let state ← (descriptors message.payloads).foldlM readPayload ⟨rest, [], 0, List.nodup_nil⟩
      let received ← ProtocolMessage.create message.header
        (state.payloads.map (fun entry => (entry.1, PayloadValue.payload entry.2)))
        (by rw [List.map_map]; exact state.distinct_roles)
      pure (received, state.stream)) := by
  obtain ⟨hmin, hmax⟩ := range
  have hsize : (toBig headerLengthSize encoded.length).length = headerLengthSize :=
    toBig_length _ _
  have hvalue : fromBig (toBig headerLengthSize encoded.length) = encoded.length := by
    apply fromBig_toBig
    have hlimit : maxHeaderBytes < 256^headerLengthSize := by decide
    omega
  rw [List.append_assoc] at hdata
  obtain ⟨afterLength, hlength, hrest⟩ := readExact_append stream _ _ hdata
  obtain ⟨rest, hheader, hbody⟩ := readExact_append afterLength _ _ hrest
  have hparse : parseHeader loads encoded = .ok message.sentHeader := by
    rw [parseHeader, hloads]
  have hdescriptors : payloadDescriptors message.sentHeader
      = .ok (descriptors message.payloads) := by
    rw [payloadDescriptors, ProtocolMessage.sentHeader,
      getItem_append_new _ _ _ sendable.no_payloads_key]
    rfl
  have hdrop : dropItem message.sentHeader payloadsKey = message.header :=
    dropItem_append_new _ _ _ sendable.no_payloads_key
  rw [hsize] at hlength
  refine ⟨rest, hbody, ?_⟩
  unfold ProtocolCodec.read
  simp only [hlength, ok_bind, hvalue]
  rw [raiseIf_of_not _ (by omega), ok_bind, hheader]
  simp only [ok_bind, hparse, hdescriptors, hdrop]

/-- A frame is read, however its header is spelled, and nothing after it. -/
theorem read_spelled (lengths : ∀ entry ∈ message.payloads, entry.2.length ≤ maxPayloadBytes)
    (total : declaredBytes message.payloads ≤ maxTotalPayloadBytes) (stream : ByteSource)
    (rest : Bytes)
    (hdata : stream.data = frameBytes message encoded++rest) :
    ∃ received next, read loads stream = .ok (received, next) ∧ received.view = message.view ∧
      next.data = rest := by
  rw [frameBytes, List.append_assoc] at hdata
  obtain ⟨body, hbody, hread⟩ := read_header sendable hloads range stream _ hdata
  obtain ⟨last, hlast, hviews, hrest⟩ := readPayloads_append message.payloads
    ⟨body, [], 0, List.nodup_nil⟩ rest message.media_types sendable.built lengths
    (by rw [Nat.zero_add]; exact total) message.distinct_roles hbody
  rw [List.map_nil, List.nil_append] at hviews
  have hmedia : ∀ entry ∈ last.payloads,
      entry.1.acceptsMediaType entry.2.mediaType = true := by
    intro entry hentry
    have hview : entryView entry ∈ last.payloads.map entryView := List.mem_map_of_mem hentry
    rw [hviews, List.mem_map] at hview
    obtain ⟨sent, hsent, heq⟩ := hview
    simp only [entryView, Prod.mk.injEq] at heq
    rw [← heq.1, ← heq.2.1]
    exact message.media_types sent hsent
  obtain ⟨received, hcreate, hheader, hpayloads⟩ := create_received message.header last.payloads
    hmedia (by rw [List.map_map]; exact last.distinct_roles)
  refine ⟨received, last.stream, ?_, ?_, hrest⟩
  · rw [hread, hlast, ok_bind, hcreate]
    rfl
  · unfold ProtocolMessage.view
    rw [hheader, hpayloads]
    exact congrArg (Prod.mk message.header) hviews

end Spelled

variable (loadsBack : LoadsBack loads message) (framed : Framed message encoded)

include loadsBack framed

/-- A frame is read back, and nothing after it. -/
theorem read_frame (stream : ByteSource) (rest : Bytes)
    (hdata : stream.data = frameBytes message encoded++rest) :
    ∃ received next, read loads stream = .ok (received, next) ∧ received.view = message.view ∧
      next.data = rest :=
  read_spelled sendable (loadsBack encoded framed.header) framed.range framed.lengths framed.total
    stream rest hdata

/-- A frame that ends early is not read. -/
theorem read_truncated (stream : ByteSource) (rest : Bytes) (hrest : rest ≠ [])
    (hdata : stream.data++rest = frameBytes message encoded) :
    ∃ error, read loads stream = .error error := by
  have hsize : (toBig headerLengthSize encoded.length).length = headerLengthSize :=
    toBig_length _ _
  have hvalue : fromBig (toBig headerLengthSize encoded.length) = encoded.length := by
    apply fromBig_toBig
    have hlimit : maxHeaderBytes < 256^headerLengthSize := by decide
    have hmax := framed.range.2
    omega
  have hpos := List.length_pos_of_ne_nil hrest
  -- the stream ends in the length, in the header or in the payloads
  rcases Nat.lt_or_ge stream.data.length headerLengthSize with hlength | hlength
  · refine ⟨ProtocolPayload.truncatedMessage, ?_⟩
    unfold ProtocolCodec.read
    rw [readExact_short stream _ hlength]
    rfl
  obtain ⟨afterLength, hstream⟩ : ∃ afterLength,
      stream.data = toBig headerLengthSize encoded.length++afterLength := by
    have hfront := List.prefix_of_prefix_length_le
      ⟨encoded++payloadBytes message.payloads, (List.append_assoc _ _ _).symm⟩
      ⟨rest, hdata⟩ (by rwa [hsize])
    obtain ⟨afterLength, h⟩ := hfront
    exact ⟨afterLength, h.symm⟩
  have hbody : afterLength++rest = encoded++payloadBytes message.payloads := by
    rw [hstream, frameBytes, List.append_assoc, List.append_assoc,
      List.append_cancel_left_eq] at hdata
    exact hdata
  rcases Nat.lt_or_ge afterLength.length encoded.length with hheader | hheader
  · refine ⟨ProtocolPayload.truncatedMessage, ?_⟩
    obtain ⟨next, hread, hnext⟩ := readExact_append stream _ _ hstream
    obtain ⟨hmin, hmax⟩ := framed.range
    rw [hsize] at hread
    unfold ProtocolCodec.read
    simp only [hread, ok_bind, hvalue]
    rw [raiseIf_of_not _ (by omega), ok_bind, readExact_short next _ (by rwa [hnext])]
    rfl
  obtain ⟨body, hfront⟩ : ∃ body, afterLength = encoded++body := by
    obtain ⟨body, h⟩ := List.prefix_of_prefix_length_le ⟨payloadBytes message.payloads, rfl⟩
      ⟨rest, hbody⟩ hheader
    exact ⟨body, h.symm⟩
  rw [hfront, List.append_assoc, List.append_cancel_left_eq] at hbody
  rw [hfront, ← List.append_assoc] at hstream
  obtain ⟨next, hnext, hread⟩ := read_header sendable
    (loadsBack encoded framed.header) framed.range stream body hstream
  have hdeclared : (payloadBytes message.payloads).length = declaredBytes message.payloads :=
    payloadBytes_length message.payloads sendable.built
  have hshort : next.data.length < declaredBytes message.payloads := by
    have htotal := congrArg List.length hbody
    rw [List.length_append] at htotal
    rw [hnext]
    omega
  obtain ⟨error, hloop⟩ := readPayloads_short message.payloads ⟨next, [], 0, List.nodup_nil⟩
    message.media_types framed.lengths hshort
  refine ⟨error, ?_⟩
  rw [hread, hloop]
  rfl

end Frames

/-- The messages written one after the other: the bytes on the stream, and the
messages whose `write` returned. -/
def writeAll : List ProtocolMessage → Bytes × List ProtocolMessage
  | [] => ([], [])
  | message :: messages =>
    let (more, written) := writeAll messages
    match write message with
    | (bytes, .ok ()) => (bytes++more, message :: written)
    | (bytes, .error _) => (bytes++more, written)

/-- The reads return these messages, each from its own frame, and leave `rest`. -/
def ReadsBack (loads : JsonLoads) (rest : Bytes) : List ProtocolMessage → ByteSource → Prop
  | [], stream => stream.data = rest
  | message :: messages, stream => ∃ received next, read loads stream = .ok (received, next) ∧
      received.view = message.view ∧ stream.data = (write message).1++next.data ∧
      ReadsBack loads rest messages next

theorem writeAll_framed {messages : List ProtocolMessage}
    (sendable : ∀ message ∈ messages, Sendable message) :
    ∀ message ∈ (writeAll messages).2, message ∈ messages ∧
      ∃ encoded, Framed message encoded ∧ write message = (frameBytes message encoded, .ok ()) := by
  induction messages with
  | nil => exact List.forall_mem_nil _
  | cons message messages ih =>
    obtain ⟨hmessage, hmessages⟩ := List.forall_mem_cons.mp sendable
    have hrest : ∀ other ∈ (writeAll messages).2, other ∈ message :: messages ∧
        ∃ encoded, Framed other encoded ∧ write other = (frameBytes other encoded, .ok ()) := by
      intro other hother
      obtain ⟨hmem, hframed⟩ := ih hmessages other hother
      exact ⟨List.mem_cons_of_mem message hmem, hframed⟩
    rw [writeAll]
    rcases write_cases hmessage with ⟨error, hwrite⟩ | ⟨encoded, framed, hwrite⟩
    · rw [hwrite]
      exact hrest
    · rw [hwrite]
      exact List.forall_mem_cons.mpr ⟨⟨List.mem_cons_self, encoded, framed, hwrite⟩, hrest⟩

theorem readsBack_writeAll {loads : JsonLoads} {messages : List ProtocolMessage}
    (sendable : ∀ message ∈ messages, Sendable message)
    (loadsBack : ∀ message ∈ messages, LoadsBack loads message) (rest : Bytes)
    (stream : ByteSource) (hdata : stream.data = (writeAll messages).1++rest) :
    ReadsBack loads rest (writeAll messages).2 stream := by
  induction messages generalizing stream with
  | nil => exact hdata
  | cons message messages ih =>
    obtain ⟨hmessage, hmessages⟩ := List.forall_mem_cons.mp sendable
    obtain ⟨hloads, hloadsRest⟩ := List.forall_mem_cons.mp loadsBack
    rw [writeAll] at hdata ⊢
    rcases write_cases hmessage with ⟨error, hwrite⟩ | ⟨encoded, framed, hwrite⟩
    · rw [hwrite] at hdata ⊢
      exact ih hmessages hloadsRest stream hdata
    · rw [hwrite] at hdata ⊢
      rw [List.append_assoc] at hdata
      obtain ⟨received, next, hread, hview, hnext⟩ :=
        read_frame hmessage hloads framed stream _ hdata
      refine ⟨received, next, hread, hview, ?_, ih hmessages hloadsRest next hnext⟩
      rw [hwrite, hnext]
      exact hdata

/-- What the two ends of the protocol owe each other about these messages. -/
structure FramesRoundTrip (loads : JsonLoads) (messages : List ProtocolMessage) : Prop where
  whole_or_nothing : ∀ message ∈ messages, (∃ error, write message = ([], .error error)) ∨
    ∃ encoded, (Json.obj message.sentHeader).encode = .ok encoded ∧
      write message = (frameBytes message encoded, .ok ())
  reads_back : ∀ (rest : Bytes) (stream : ByteSource),
    stream.data = (writeAll messages).1++rest → ReadsBack loads rest (writeAll messages).2 stream
  truncated : ∀ message ∈ (writeAll messages).2, ∀ (stream : ByteSource) (missing : Bytes),
    missing ≠ [] → stream.data++missing = (write message).1 →
      ∃ error, read loads stream = .error error

/-- Every `write` is all or nothing; however the transport cuts the stream, the
frames are read back one by one; a frame that ends early is never read. -/
theorem protocol_frames_round_trip (loads : JsonLoads) (messages : List ProtocolMessage)
    (sendable : ∀ message ∈ messages, Sendable message)
    (loadsBack : ∀ message ∈ messages, LoadsBack loads message) :
    FramesRoundTrip loads messages where
  whole_or_nothing := by
    intro message hmessage
    rcases write_cases (sendable message hmessage) with herror | ⟨encoded, framed, hwrite⟩
    · exact Or.inl herror
    · exact Or.inr ⟨encoded, framed.header, hwrite⟩
  reads_back := readsBack_writeAll sendable loadsBack
  truncated := by
    intro message hwritten stream missing hmissing hdata
    obtain ⟨hmessage, encoded, framed, hwrite⟩ := writeAll_framed sendable message hwritten
    rw [hwrite] at hdata
    exact read_truncated (sendable message hmessage) (loadsBack message hmessage) framed stream
      missing hmissing hdata

/-- The source of an extraction request. -/
def sampleSource : ProtocolPayload :=
  ⟨ofString "application/pdf", 5, .content [0x25, 0x50, 0x44, 0x46, 0x00], rfl, rfl⟩

def sampleExtract : ProtocolMessage where
  header := [(ofString "version", .int 1), (ofString "operation", .str (ofString "extract"))]
  payloads := [(.source, sampleSource)]
  distinct_roles := by decide
  media_types := by decide

def sampleClose : ProtocolMessage where
  header := [(ofString "version", .int 1), (ofString "operation", .str (ofString "session_close"))]
  payloads := []
  distinct_roles := ProtocolMessage.no_payloads_roles
  media_types := ProtocolMessage.no_payloads_media_types

/-- `json.loads` on the headers of the two messages. -/
def sampleLoads (bytes : Bytes) : Except JsonFailure Json :=
  if (Json.obj sampleExtract.sentHeader).encode = .ok bytes then
    .ok (.obj sampleExtract.sentHeader)
  else if (Json.obj sampleClose.sentHeader).encode = .ok bytes then
    .ok (.obj sampleClose.sentHeader)
  else .error .notJson

theorem protocol_frames_round_trip_sample :
    FramesRoundTrip sampleLoads [sampleExtract, sampleClose] := by
  apply protocol_frames_round_trip
  · intro message hmessage
    simp only [List.mem_cons, List.not_mem_nil, or_false] at hmessage
    rcases hmessage with rfl | rfl
    · refine ⟨by decide, fun entry hentry => ?_⟩
      obtain rfl := List.mem_singleton.mp hentry
      exact .fromBytes [0x25, 0x50, 0x44, 0x46, 0x00] (ofString "application/pdf") rfl
    · exact ⟨by decide, List.forall_mem_nil _⟩
  · intro message hmessage encoded hencoded
    have hdistinct : (Json.obj sampleExtract.sentHeader).encode
        ≠ (Json.obj sampleClose.sentHeader).encode := by decide +kernel
    simp only [List.mem_cons, List.not_mem_nil, or_false] at hmessage
    unfold sampleLoads
    rcases hmessage with rfl | rfl
    · rw [if_pos hencoded]
    · rw [if_neg (by rw [← hencoded]; exact hdistinct), if_pos hencoded]

end ConferWorker
