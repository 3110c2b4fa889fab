import ConferWorker.AnsweredRuns
import ConferWorker.ReadableHeaders

/-! A message that was read can be written again, and what is written is read as the same
message, with the JSON parser of the runtime and without a condition on the header. -/
namespace ConferWorker

open ProtocolCodec JsonParser

variable {runtime : JsonRuntime}

theorem orRaise_eq_ok {α : Type} {value : Option α} {message : Str} {a : α} :
    orRaise value message = .ok a ↔ value = some a := by
  cases value with
  | none => simp [orRaise]
  | some b => simp [orRaise]

theorem descriptorLength_le {value : Option Json} {length : ℕ}
    (h : descriptorLength value = some length) : length ≤ maxPayloadBytes := by
  rcases value with _ | value
  · cases h
  cases value with
  | int n =>
    rw [descriptorLength] at h
    split_ifs at h with hrange
    obtain rfl := Option.some.inj h
    omega
  | _ => cases h

theorem receive_length {stream next : ByteSource} {length : ℕ} {mediaType : Str}
    {payload : ProtocolPayload}
    (h : ProtocolPayload.receive stream length mediaType = .ok (payload, next)) :
    payload.length = length := by
  simp only [ProtocolPayload.receive, bind_eq_ok, Prod.exists, pure_eq_ok, Prod.mk.injEq] at h
  obtain ⟨bytes, last, _, created, hcreate, rfl, rfl⟩ := h
  exact (ProtocolPayload.create_eq_ok hcreate).2.1

theorem declaredBytes_append (payloads more : List (PayloadRole × ProtocolPayload)) :
    declaredBytes (payloads++more) = declaredBytes payloads+declaredBytes more := by
  rw [declaredBytes, List.map_append, List.sum_append]
  rfl

/-- The payloads that the loop of `read` has received so far. -/
structure ProtocolCodec.ReadState.Received (state : ReadState) : Prop where
  built : ∀ entry ∈ state.payloads, entry.2.Built
  lengths : ∀ entry ∈ state.payloads, entry.2.length ≤ maxPayloadBytes
  declared : declaredBytes state.payloads = state.total
  within : state.total ≤ maxTotalPayloadBytes

theorem readPayload_received {state next : ReadState} {value : Json} (received : state.Received)
    (h : readPayload state value = .ok next) : next.Received := by
  cases value with
  | obj members =>
    simp only [readPayload, bind_eq_ok] at h
    obtain ⟨role, _, h⟩ := h
    split_ifs at h
    simp only [readNewPayload, bind_eq_ok, raiseIf_eq_ok, Prod.exists, pure_eq_ok] at h
    obtain ⟨mediaType, _, length, hlength, _, htotal, payload, stream, hreceive, rfl⟩ := h
    have hpayload : payload.length = length := receive_length hreceive
    have hlimit : length ≤ maxPayloadBytes := descriptorLength_le (orRaise_eq_ok.mp hlength)
    refine ⟨?_, ?_, ?_, not_lt.mp htotal⟩
    · rw [List.forall_mem_append]
      exact ⟨received.built, List.forall_mem_singleton.mpr (.receive _ _ _ _ hreceive)⟩
    · rw [List.forall_mem_append]
      exact ⟨received.lengths, List.forall_mem_singleton.mpr (by rw [hpayload]; exact hlimit)⟩
    · rw [declaredBytes_append, received.declared, declaredBytes_cons, hpayload]
      rfl
  | _ => cases h

theorem readPayloads_received {values : List Json} {state last : ReadState}
    (received : state.Received) (h : values.foldlM readPayload state = .ok last) :
    last.Received := by
  induction values generalizing state with
  | nil =>
    simp only [List.foldlM_nil, pure_eq_ok] at h
    subst h
    exact received
  | cons value values ih =>
    simp only [List.foldlM_cons, bind_eq_ok] at h
    obtain ⟨next, hnext, hrest⟩ := h
    exact ih (readPayload_received received hnext) hrest

/-- `ProtocolMessage` keeps the payloads that it is given. -/
theorem acceptPayloads_kept (entries : List (PayloadRole × PayloadValue))
    (h : ∀ entry ∈ entries, ∃ payload, entry.2 = .payload payload) :
    ∀ accepted, ProtocolMessage.acceptPayloads entries = .ok accepted →
      accepted.val.map (fun entry => (entry.1, PayloadValue.payload entry.2)) = entries := by
  induction entries with
  | nil =>
    intro accepted haccepted
    rw [ProtocolMessage.acceptPayloads, pure_eq_ok] at haccepted
    rw [← haccepted]
    rfl
  | cons entry entries ih =>
    intro accepted haccepted
    obtain ⟨role, value⟩ := entry
    obtain ⟨⟨payload, rfl⟩, hrest⟩ := List.forall_mem_cons.mp h
    unfold ProtocolMessage.acceptPayloads at haccepted
    simp only [ProtocolMessage.payloadOf, bind_eq_ok, pure_eq_ok] at haccepted
    obtain ⟨_, rfl, haccepted⟩ := haccepted
    split_ifs at haccepted
    simp only [bind_eq_ok] at haccepted
    obtain ⟨⟨kept, hroles, hmedia⟩, hkept, haccepted⟩ := haccepted
    rw [pure_eq_ok] at haccepted
    rw [← haccepted]
    exact congrArg (List.cons _) (ih hrest _ hkept)

theorem received_injective : Function.Injective
    (fun entry : PayloadRole × ProtocolPayload => (entry.1, PayloadValue.payload entry.2)) := by
  rintro ⟨role, payload⟩ ⟨role', payload'⟩ h
  rw [Prod.mk.injEq, PayloadValue.payload.injEq] at h
  exact Prod.ext h.1 h.2

/-- What a message that was read is made of: the object in its frame without the descriptors,
and the payloads that were received. -/
theorem read_message {stream next : ByteSource} {message : ProtocolMessage}
    (h : ProtocolCodec.read (loads runtime) stream = .ok (message, next)) :
    (∃ encoded header, loads runtime encoded = .ok (.obj header)
      ∧ message.header = dropItem header payloadsKey)
      ∧ ∃ state : ReadState, state.Received ∧ message.payloads = state.payloads := by
  simp only [ProtocolCodec.read, bind_eq_ok, raiseIf_eq_ok, Prod.exists, pure_eq_ok,
    Prod.mk.injEq] at h
  obtain ⟨encodedLength, afterLength, _, _, _, encoded, afterHeader, _, header, hparse,
    values, _, state, hloop, received, hcreate, rfl, rfl⟩ := h
  have hreceived : state.Received := readPayloads_received
    ⟨List.forall_mem_nil _, List.forall_mem_nil _, rfl, Nat.zero_le _⟩ hloop
  simp only [ProtocolMessage.create, bind_eq_ok] at hcreate
  obtain ⟨⟨payloads, hroles, hmedia⟩, haccepted, hmessage⟩ := hcreate
  have hkept : payloads = state.payloads := by
    refine List.map_injective_iff.mpr received_injective (acceptPayloads_kept _ ?_ _ haccepted)
    intro entry hentry
    obtain ⟨found, _, rfl⟩ := List.mem_map.mp hentry
    exact ⟨found.2, rfl⟩
  rw [pure_eq_ok] at hmessage
  rw [← hmessage]
  refine ⟨⟨encoded, header, ?_, rfl⟩, state, hreceived, hkept⟩
  rw [parseHeader] at hparse
  split at hparse
  · cases hparse
  · cases hparse
  · rename_i found hloads
    obtain rfl := Except.ok.inj hparse
    exact hloads
  · cases hparse

/-- The header of a message that was read. -/
theorem read_header_canonical {stream next : ByteSource} {message : ProtocolMessage}
    (h : ProtocolCodec.read (loads runtime) stream = .ok (message, next)) :
    ∃ header depth, depth+1 = runtime.maxDepth
      ∧ MembersReadAt runtime JsonSpelling.raw.Keeps depth header
      ∧ (Json.obj header).NoRepeats ∧ message.header = dropItem header payloadsKey := by
  obtain ⟨⟨encoded, header, hloads, hheader⟩, -⟩ := read_message h
  have hcanonical := loads_canonical hloads
  have hreads := hcanonical.reads
  cases hdepth : runtime.maxDepth with
  | zero =>
    rw [hdepth] at hreads
    exact absurd hreads (by simp only [ReadsAt, not_false_iff])
  | succ depth =>
    rw [hdepth, ReadsAt] at hreads
    exact ⟨header, depth, rfl, hreads, hcanonical.distinct, hheader⟩

theorem read_sendable {stream next : ByteSource} {message : ProtocolMessage}
    (h : ProtocolCodec.read (loads runtime) stream = .ok (message, next)) :
    Sendable message ∧ ReadableHeader runtime message.header := by
  obtain ⟨header, depth, hdepth, hreads, hdistinct, hheader⟩ := read_header_canonical h
  obtain ⟨-, state, received, hpayloads⟩ := read_message h
  have hkept : message.header.Sublist header := by
    rw [hheader]
    exact List.filter_sublist
  rw [Json.NoRepeats, noRepeatsMembers_iff] at hdistinct
  refine ⟨⟨?_, ?_⟩, ⟨depth, hdepth, ?_⟩, ?_, ?_⟩
  · intro member hmember
    rw [hheader] at hmember
    simpa using (List.mem_filter.mp hmember).2
  · rw [hpayloads]
    exact received.built
  · have hshape := membersShape_of_readAt header depth hreads
    rw [membersHaveShape_iff] at hshape
    exact fun member hmember => hshape member (hkept.subset hmember)
  · rw [noRepeatsMembers_iff]
    exact fun member hmember => hdistinct.1 member (hkept.subset hmember)
  · exact (hkept.map Prod.fst).nodup hdistinct.2

/-- A message that was read can be written: no lone surrogate is in its header or its media
types, and the compact text of its header is within 64 KiB. -/
structure Rewritable (message : ProtocolMessage) : Prop where
  header : Json.MembersHaveUtf8 message.header
  mediaTypes : ∀ entry ∈ message.payloads, Encodable entry.2.mediaType
  size : (Json.obj message.sentHeader).size ≤ maxHeaderBytes

theorem read_writable_iff {stream next : ByteSource} {message : ProtocolMessage}
    (h : ProtocolCodec.read (loads runtime) stream = .ok (message, next)) :
    Writable message ↔ Rewritable message := by
  obtain ⟨header, depth, -, hreads, -, hheader⟩ := read_header_canonical h
  obtain ⟨-, state, received, hpayloads⟩ := read_message h
  have hdumpable : Json.MembersDumpable message.header ↔ Json.MembersHaveUtf8 message.header := by
    rw [hheader]
    apply membersDumpable_iff_utf8 _ depth
    rw [membersReadAt_iff] at hreads ⊢
    exact fun member hmember => hreads member (List.mem_of_mem_filter hmember)
  have hlengths : ∀ entry ∈ message.payloads, entry.2.length ≤ maxPayloadBytes := by
    rw [hpayloads]
    exact received.lengths
  have hdescriptors : Json.ItemsDumpable (descriptors message.payloads) ↔
      ∀ entry ∈ message.payloads, Encodable entry.2.mediaType := by
    rw [descriptors, Json.itemsDumpable_map]
    refine forall₂_congr (fun entry hentry => ⟨fun hentry => ?_, fun hmedia =>
      descriptor_dumpable entry.1 entry.2 hmedia (hlengths entry hentry)⟩)
    simp only [descriptor, Json.Dumpable, Json.MembersDumpable] at hentry
    exact hentry.2.2.2.1
  have hsent : (Json.obj message.sentHeader).Dumpable ↔ Json.MembersHaveUtf8 message.header ∧
      ∀ entry ∈ message.payloads, Encodable entry.2.mediaType := by
    have hkey : Encodable payloadsKey := by decide
    rw [Json.Dumpable, ProtocolMessage.sentHeader, Json.membersDumpable_append, hdumpable]
    simp only [Json.MembersDumpable, Json.Dumpable, hdescriptors, hkey, true_and, and_true]
  constructor
  · intro writable
    obtain ⟨htexts, hmedia⟩ := hsent.mp writable.dumpable
    exact ⟨htexts, hmedia, writable.size⟩
  · intro rewritable
    refine ⟨hsent.mpr ⟨rewritable.header, rewritable.mediaTypes⟩, rewritable.size, hlengths, ?_⟩
    rw [hpayloads, received.declared]
    exact received.within

/-- What is owed to messages that were read: each is written whole if it can be and not at all
otherwise, and what is written is read as the same messages. -/
structure Forwarded (loads : JsonLoads) (messages : List ProtocolMessage) : Prop
    extends FramesRoundTrip loads messages where
  written_iff : ∀ message ∈ messages, (write message).2 = .ok () ↔ Rewritable message
  all_written : (∀ message ∈ messages, Rewritable message) → (writeAll messages).2 = messages

/-- When every `write` returned, the stream holds all the messages. -/
theorem writeAll_all {messages : List ProtocolMessage}
    (h : ∀ message ∈ messages, (write message).2 = .ok ()) : (writeAll messages).2 = messages := by
  induction messages with
  | nil => rfl
  | cons message messages ih =>
    obtain ⟨hreturns, hrest⟩ := List.forall_mem_cons.mp h
    rcases hwrite : write message with ⟨bytes, outcome⟩
    rw [hwrite] at hreturns
    obtain rfl : outcome = .ok () := hreturns
    rw [writeAll, hwrite]
    exact congrArg (List.cons message) (ih hrest)

/-- Messages that were read, from any streams and in any spelling of their headers, can be
written one after the other and are read back as the same messages. -/
theorem received_frames_round_trip (runtime : JsonRuntime) (hdepth : 3 ≤ runtime.maxDepth)
    (messages : List ProtocolMessage) (received : ∀ message ∈ messages, ∃ stream next,
      ProtocolCodec.read (loads runtime) stream = .ok (message, next)) :
    Forwarded (loads runtime) messages := by
  have hsent : ∀ message ∈ messages, Sendable message ∧ LoadsBack (loads runtime) message := by
    intro message hmessage
    obtain ⟨stream, next, hread⟩ := received message hmessage
    obtain ⟨hsendable, hreadable⟩ := read_sendable hread
    exact ⟨hsendable, loadsBack_readable hdepth hsendable hreadable⟩
  have hsendable : ∀ message ∈ messages, Sendable message :=
    fun message hmessage => (hsent message hmessage).1
  have hloads : ∀ message ∈ messages, LoadsBack (loads runtime) message :=
    fun message hmessage => (hsent message hmessage).2
  have hwritten : ∀ message ∈ messages,
      ((write message).2 = .ok () ↔ Rewritable message) := by
    intro message hmessage
    obtain ⟨stream, next, hread⟩ := received message hmessage
    exact (write_returns_iff (hsendable message hmessage)).trans (read_writable_iff hread)
  refine ⟨⟨?_, readsBack_writeAll hsendable hloads, ?_⟩, hwritten, ?_⟩
  · intro message hmessage
    rcases write_cases (hsendable message hmessage) with herror | ⟨encoded, framed, hwrite⟩
    · exact Or.inl herror
    · exact Or.inr ⟨encoded, framed.header, hwrite⟩
  · intro message hmember stream missing hmissing hdata
    obtain ⟨hmessage, encoded, framed, hwrite⟩ := writeAll_framed hsendable message hmember
    rw [hwrite] at hdata
    exact read_truncated (hsendable message hmessage) (hloads message hmessage) framed stream
      missing hmissing hdata
  · intro hall
    apply writeAll_all
    exact fun message hmessage => (hwritten message hmessage).mpr (hall message hmessage)

section Views

variable {received message : ProtocolMessage} (hview : received.view = message.view)
  (hreceived : Sendable received) (sendable : Sendable message)

include hview hreceived sendable

theorem payloads_of_view : received.payloads.map (fun entry =>
    (entry.1, entry.2.mediaType, entry.2.length)) = message.payloads.map (fun entry =>
      (entry.1, entry.2.mediaType, entry.2.length)) := by
  have hlengths (sent : ProtocolMessage) (h : Sendable sent) :
      sent.payloads.map (fun entry => (entry.1, entry.2.mediaType, entry.2.length))
        = sent.view.2.map (fun entry => (entry.1, entry.2.1, entry.2.2.length)) := by
    rw [ProtocolMessage.view, List.map_map]
    refine List.map_congr_left fun entry hentry => ?_
    rw [Function.comp_apply, (h.built entry hentry).holds.1]
  rw [hlengths received hreceived, hlengths message sendable, hview]

theorem sentHeader_of_view : received.sentHeader = message.sentHeader := by
  have hdescriptors (sent : ProtocolMessage) : descriptors sent.payloads
      = (sent.payloads.map (fun entry => (entry.1, entry.2.mediaType, entry.2.length))).map
        (fun entry => .obj [(ofString "role", .str entry.1.value),
          (ofString "media_type", .str entry.2.1), (ofString "length", .int entry.2.2)]) := by
    rw [descriptors, List.map_map]
    rfl
  have hheader : received.header = message.header := congrArg Prod.fst hview
  rw [ProtocolMessage.sentHeader, ProtocolMessage.sentHeader, hheader, hdescriptors received,
    hdescriptors message, payloads_of_view hview hreceived sendable]

/-- A message can be written as the one that it was received for. -/
theorem writable_of_view (writable : Writable message) : Writable received := by
  have hpayloads := payloads_of_view hview hreceived sendable
  have hheader := sentHeader_of_view hview hreceived sendable
  refine ⟨by rw [hheader]; exact writable.dumpable, by rw [hheader]; exact writable.size, ?_, ?_⟩
  · intro entry hentry
    have hmapped : (entry.1, entry.2.mediaType, entry.2.length) ∈ message.payloads.map
        (fun entry => (entry.1, entry.2.mediaType, entry.2.length)) := by
      rw [← hpayloads]
      exact List.mem_map_of_mem hentry
    obtain ⟨sent, hsent, hsame⟩ := List.mem_map.mp hmapped
    simp only [Prod.mk.injEq] at hsame
    rw [← hsame.2.2]
    exact writable.lengths sent hsent
  · have hdeclared (sent : ProtocolMessage) : declaredBytes sent.payloads
        = ((sent.payloads.map (fun entry => (entry.1, entry.2.mediaType, entry.2.length))).map
          (fun entry => entry.2.2)).sum := by
      rw [declaredBytes, List.map_map]
      rfl
    rw [hdeclared received, hpayloads, ← hdeclared message]
    exact writable.total

end Views

/-- In ASCII a character takes at most twelve bytes. -/
theorem asciiEscape_length (c : CodePoint) :
    0 < (Json.asciiEscape c).length ∧ (Json.asciiEscape c).length ≤ 12 := by
  refine ⟨List.length_pos_iff.mpr (JsonSpelling.asciiEscape_ne_nil c), ?_⟩
  have hunit : (ofString "\\u").length = 2 := rfl
  unfold Json.asciiEscape
  dsimp only
  split_ifs
  · simp only [List.length_singleton, Nat.one_le_ofNat]
  · simp only [List.length_append, List.length_cons, List.length_nil, hunit]
    omega
  · simp only [List.length_append, List.length_cons, List.length_nil, hunit]
    omega

theorem asciiText_length (text : Str) :
    text.length ≤ (text.flatMap Json.asciiEscape).length ∧
      (text.flatMap Json.asciiEscape).length ≤ 12*text.length := by
  induction text with
  | nil => exact ⟨le_rfl, le_rfl⟩
  | cons c text ih =>
    obtain ⟨hpos, hle⟩ := asciiEscape_length c
    rw [List.flatMap_cons, List.length_append, List.length_cons]
    omega

theorem length_le_utf8 (text : Str) : text.length ≤ (utf8 text).length := by
  induction text with
  | nil => exact le_rfl
  | cons c text ih =>
    have hpos := utf8Bytes_length_pos c
    rw [utf8_cons, List.length_append, List.length_cons]
    omega

/-- A message is read when a client writes its header in ASCII, as `json.dumps` does by
default. -/
theorem read_ascii (hdepth : 3 ≤ runtime.maxDepth) {message : ProtocolMessage}
    (sendable : Sendable message) (writable : Writable message)
    (readable : ReadableHeader runtime message.header)
    (hsmall : 12*(Json.obj message.sentHeader).size ≤ maxHeaderBytes) :
    ∃ text, (∀ c ∈ text, c.val < 0x80) ∧ ∀ (rest : Bytes) (stream : ByteSource),
      stream.data = frameBytes message (utf8 text)++rest →
        ∃ received next, ProtocolCodec.read (loads runtime) stream = .ok (received, next) ∧
          received.view = message.view ∧ next.data = rest := by
  obtain ⟨bytes, hbytes⟩ := (Json.encode_spec _).1.mpr writable.dumpable
  have hsize := (Json.encode_spec _).2 bytes hbytes
  rw [Json.encode, bind_eq_ok] at hbytes
  obtain ⟨plain, hplain, hencoded⟩ := hbytes
  obtain ⟨hencodable, rfl⟩ := (encodeText_eq_ok plain bytes).mp hencoded
  have hascii : ∀ c ∈ plain.flatMap Json.asciiEscape, c.val < 0x80 := by
    intro c hc
    obtain ⟨d, _, hd⟩ := List.mem_flatMap.mp hc
    exact Json.asciiEscape_ascii d c hd
  obtain ⟨hreads, hdistinct⟩ := sentHeader_reads
    (fun s hs => JsonSpelling.ascii_keeps (JsonSpelling.noSplitPairs_of_encodable hs)) hdepth
    sendable readable writable.dumpable
  have hloads : loads runtime (utf8 (plain.flatMap Json.asciiEscape))
      = .ok (.obj message.sentHeader) :=
    loads_spelled hplain (Json.encodable_ascii _ hascii) hreads hdistinct
  have hrange : 2 ≤ (utf8 (plain.flatMap Json.asciiEscape)).length ∧
      (utf8 (plain.flatMap Json.asciiEscape)).length ≤ maxHeaderBytes := by
    obtain ⟨hlow, hhigh⟩ := asciiText_length plain
    have hbraces : 2 ≤ plain.length := by
      simp only [Json.dumps, bind_eq_ok, pure_eq_ok] at hplain
      obtain ⟨texts, _, rfl⟩ := hplain
      simp only [List.length_append, List.length_singleton]
      omega
    have hplainSize := length_le_utf8 plain
    rw [Json.utf8_length_ascii _ hascii]
    omega
  exact ⟨_, hascii, fun rest stream hdata =>
    read_spelled sendable hloads hrange writable.lengths writable.total stream rest hdata⟩

/-- A runtime whose floats are written as they were read. -/
def plainRuntime : JsonRuntime where
  floatText text := text
  floatText_stable _ h := Or.inr ⟨h, rfl⟩
  maxDepth := 1000

theorem sampleClose_sendable : Sendable sampleClose ∧ Writable sampleClose
    ∧ ReadableHeader plainRuntime sampleClose.header := by
  have hone : (1 : ℤ).natAbs < Json.intLimit := Json.lt_intLimit (by decide)
  have hkeys : Encodable (ofString "version") ∧ Encodable (ofString "operation") ∧
      Encodable (ofString "session_close") ∧ Encodable payloadsKey := by decide
  have hnames : [ofString "version", ofString "operation"].Nodup := by decide
  refine ⟨⟨by decide, List.forall_mem_nil _⟩, ⟨?_, by decide, List.forall_mem_nil _,
    Nat.zero_le _⟩, ⟨999, rfl, ?_⟩, ?_, hnames⟩
  · simp only [ProtocolMessage.sentHeader, sampleClose, descriptors, List.map_nil,
      List.cons_append, List.nil_append, Json.Dumpable, Json.MembersDumpable, Json.ItemsDumpable,
      hkeys, hone, and_self]
  · simp only [sampleClose, List.forall_mem_cons, List.not_mem_nil, false_implies, implies_true,
      HasShape, and_self]
  · simp only [sampleClose, Json.NoRepeatsMembers, Json.NoRepeats, and_self]

end ConferWorker
