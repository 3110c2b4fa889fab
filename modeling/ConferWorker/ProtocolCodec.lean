import ConferWorker.JsonText
import ConferWorker.ProtocolPayload

/-! `ProtocolMessage` and `ProtocolCodec`: a message is a frame of its header's
length, its header and its payloads. -/
namespace ConferWorker

/-- A value of the `payloads` argument. -/
inductive PayloadValue
  | content (bytes : Bytes)
  | payload (payload : ProtocolPayload)

structure ProtocolMessage where
  header : List (Str × Json)
  payloads : List (PayloadRole × ProtocolPayload)
  distinct_roles : (payloads.map Prod.fst).Nodup
  media_types : ∀ entry ∈ payloads, entry.1.acceptsMediaType entry.2.mediaType = true

namespace ProtocolMessage

theorem no_payloads_roles :
    (([] : List (PayloadRole × ProtocolPayload)).map Prod.fst).Nodup := List.nodup_nil

theorem no_payloads_media_types : ∀ entry ∈ ([] : List (PayloadRole × ProtocolPayload)),
    entry.1.acceptsMediaType entry.2.mediaType = true := List.forall_mem_nil _

/-- The payload that a value of the argument stands for. -/
def payloadOf (role : PayloadRole) : PayloadValue → Except PythonError ProtocolPayload
  | .payload payload => pure payload
  | .content bytes =>
    match role.mediaType with
    | some mediaType => ProtocolPayload.fromBytes bytes mediaType
    | none => .error (.valueError (ofString "source payloads require an explicit media type"))

/-- What the loop of `__init__` collects. -/
def acceptPayloads : (entries : List (PayloadRole × PayloadValue)) →
    Except PythonError {payloads : List (PayloadRole × ProtocolPayload) //
      payloads.map Prod.fst = entries.map Prod.fst ∧
        ∀ entry ∈ payloads, entry.1.acceptsMediaType entry.2.mediaType = true}
  | [] => pure ⟨[], rfl, fun _ h => by cases h⟩
  | (role, value) :: entries => do
    let payload ← payloadOf role value
    if haccepts : role.acceptsMediaType payload.mediaType = true then
      let ⟨payloads, hroles, hmedia⟩ ← acceptPayloads entries
      pure ⟨(role, payload) :: payloads, by rw [List.map_cons, List.map_cons, hroles],
        List.forall_mem_cons.mpr ⟨haccepts, hmedia⟩⟩
    else .error (.valueError (ofString "protocol payload media type does not match its role"))

/-- `ProtocolMessage(header, payloads)`; the keys of a mapping are distinct. -/
def create (header : List (Str × Json)) (entries : List (PayloadRole × PayloadValue))
    (distinct : (entries.map Prod.fst).Nodup) : Except PythonError ProtocolMessage := do
  let ⟨payloads, hroles, hmedia⟩ ← acceptPayloads entries
  pure ⟨header, payloads, by rw [hroles]; exact distinct, hmedia⟩

end ProtocolMessage

namespace ProtocolCodec

def payloadsKey : Str := ofString "payloads"

/-- The entry of the header that describes a payload. -/
def descriptor (role : PayloadRole) (payload : ProtocolPayload) : Json :=
  .obj [(ofString "role", .str role.value), (ofString "media_type", .str payload.mediaType),
    (ofString "length", .int payload.length)]

/-- One round of the loop of `write`. -/
def describePayload (state : List Json × ℕ) (entry : PayloadRole × ProtocolPayload) :
    Except PythonError (List Json × ℕ) := do
  let (descriptors, total) := state
  let (role, payload) := entry
  raiseIf (role.acceptsMediaType payload.mediaType = false)
    (.valueError (ofString "protocol payload media type is invalid"))
  raiseIf (maxPayloadBytes < payload.length)
    (.valueError (ofString "protocol payload length is invalid"))
  raiseIf (maxTotalPayloadBytes < total+payload.length)
    (.valueError (ofString "protocol payloads exceed total limit"))
  pure (descriptors++[descriptor role payload], total+payload.length)

/-- The header that `write` sends. -/
def encodeHeader (message : ProtocolMessage) : Except PythonError Bytes := do
  let (descriptors, _) ← message.payloads.foldlM describePayload ([], 0)
  let header := setItem message.header payloadsKey (.arr descriptors)
  let encoded ← (Json.obj header).encode
  raiseIf (maxHeaderBytes < encoded.length)
    (.valueError (ofString "protocol header exceeds maximum size"))
  pure encoded

/-- The payloads one after the other, up to the first that fails. -/
def writePayloads : List (PayloadRole × ProtocolPayload) → Bytes × Except PythonError Unit
  | [] => ([], .ok ())
  | (_, payload) :: payloads =>
    match payload.writeTo with
    | (bytes, .error error) => (bytes, .error error)
    | (bytes, .ok ()) =>
      let (more, outcome) := writePayloads payloads
      (bytes++more, outcome)

/-- `write`: what reached the stream and how the call ended. -/
def write (message : ProtocolMessage) : Bytes × Except PythonError Unit :=
  match encodeHeader message with
  | .error error => ([], .error error)
  | .ok encoded =>
    let (payloads, outcome) := writePayloads message.payloads
    (toBig headerLengthSize encoded.length++encoded++payloads, outcome)

/-- `_read_exact`. -/
def readExact (stream : ByteSource) (length : ℕ) : Except PythonError (Bytes × ByteSource) :=
  readLoop ProtocolPayload.truncatedMessage id stream length

/-- The header of a frame, as a `dict`. -/
def parseHeader (loads : JsonLoads) (encoded : Bytes) : Except PythonError (List (Str × Json)) :=
  match loads encoded with
  | .error .notJson => .error (.valueError (ofString "protocol header is invalid"))
  | .error (.other error) => .error error
  | .ok (.obj header) => .ok header
  | .ok _ => .error (.valueError (ofString "protocol header must be an object"))

/-- `header.pop("payloads", [])`. -/
def payloadDescriptors (header : List (Str × Json)) : Except PythonError (List Json) :=
  match (getItem header payloadsKey).getD (.arr []) with
  | .arr descriptors => .ok descriptors
  | _ => .error (.valueError (ofString "protocol payload descriptors are invalid"))

def descriptorRole : Option Json → Option PayloadRole
  | some (.str value) => PayloadRole.ofValue value
  | _ => none

def descriptorMediaType (role : PayloadRole) : Option Json → Option Str
  | some (.str mediaType) => if role.acceptsMediaType mediaType then some mediaType else none
  | _ => none

/-- A `bool` is no length. -/
def descriptorLength : Option Json → Option ℕ
  | some (.int length) =>
    if 0 ≤ length ∧ length ≤ maxPayloadBytes then some length.toNat else none
  | _ => none

/-- `value` where the check passes. -/
def orRaise {α : Type} (value : Option α) (message : Str) : Except PythonError α :=
  match value with
  | some a => .ok a
  | none => .error (.valueError message)

/-- The local variables of `read` in its loop. -/
structure ReadState where
  stream : ByteSource
  payloads : List (PayloadRole × ProtocolPayload)
  total : ℕ
  distinct_roles : (payloads.map Prod.fst).Nodup

/-- The payload of a descriptor whose role is new. -/
def readNewPayload (state : ReadState) (members : List (Str × Json)) (role : PayloadRole)
    (hrole : role ∉ state.payloads.map Prod.fst) : Except PythonError ReadState := do
  let mediaType ← orRaise (descriptorMediaType role (getItem members (ofString "media_type")))
    (ofString "protocol payload media type is invalid")
  let length ← orRaise (descriptorLength (getItem members (ofString "length")))
    (ofString "protocol payload length is invalid")
  raiseIf (maxTotalPayloadBytes < state.total+length)
    (.valueError (ofString "protocol payloads exceed total limit"))
  let (payload, stream) ← ProtocolPayload.receive state.stream length mediaType
  pure ⟨stream, state.payloads++[(role, payload)], state.total+length, by
    rw [List.map_append, List.map_singleton, ← List.concat_eq_append, List.nodup_concat]
    exact ⟨hrole, state.distinct_roles⟩⟩

/-- One round of the loop of `read`. -/
def readPayload (state : ReadState) : Json → Except PythonError ReadState
  | .obj members => do
    let role ← orRaise (descriptorRole (getItem members (ofString "role")))
      (ofString "protocol payload role is invalid")
    if hrole : role ∉ state.payloads.map Prod.fst then
      readNewPayload state members role hrole
    else .error (.valueError (ofString "protocol payload role is invalid"))
  | _ => .error (.valueError (ofString "protocol payload descriptor is invalid"))

/-- `read`: the message and what is left of the stream. -/
def read (loads : JsonLoads) (stream : ByteSource) :
    Except PythonError (ProtocolMessage × ByteSource) := do
  let (encodedLength, stream) ← readExact stream headerLengthSize
  let headerLength := fromBig encodedLength
  raiseIf (headerLength < 2 ∨ maxHeaderBytes < headerLength)
    (.valueError (ofString "protocol header length is invalid"))
  let (encodedHeader, stream) ← readExact stream headerLength
  let header ← parseHeader loads encodedHeader
  let descriptors ← payloadDescriptors header
  let state ← descriptors.foldlM readPayload ⟨stream, [], 0, List.nodup_nil⟩
  let message ← ProtocolMessage.create (dropItem header payloadsKey)
    (state.payloads.map (fun entry => (entry.1, PayloadValue.payload entry.2)))
    (by rw [List.map_map]; exact state.distinct_roles)
  pure (message, state.stream)

end ProtocolCodec

end ConferWorker
