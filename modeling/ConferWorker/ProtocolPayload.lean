import ConferWorker.PythonErrors
import ConferWorker.ShortReads

/-! `PayloadRole`, `ProtocolPayload` and the limits of the protocol. -/
namespace ConferWorker

/-- `HEADER_LENGTH.size` of `struct.Struct(">I")`. -/
def headerLengthSize : ℕ := 4

def maxHeaderBytes : ℕ := 64*1024

def maxPayloadBytes : ℕ := 256*1024*1024

def maxTotalPayloadBytes : ℕ := 320*1024*1024

inductive PayloadRole
  | source | artifact | text | result | image
  deriving DecidableEq, Repr

namespace PayloadRole

/-- The value of the `StrEnum` member. -/
def value : PayloadRole → Str
  | source => ofString "source"
  | artifact => ofString "artifact"
  | text => ofString "text"
  | result => ofString "result"
  | image => ofString "image"

/-- `PayloadRole(value)`: `none` where Python raises ValueError. -/
def ofValue (name : Str) : Option PayloadRole :=
  [source, artifact, text, result, image].find? (fun role => role.value == name)

@[simp] theorem ofValue_value (role : PayloadRole) : ofValue role.value = some role := by
  cases role <;> rfl

/-- The `media_type` property: `none` where it raises ValueError. -/
def mediaType : PayloadRole → Option Str
  | source => none
  | artifact => some (ofString "application/vnd.confer.document-artifact")
  | text => some (ofString "text/plain; charset=utf-8")
  | result => some (ofString "application/json")
  | image => some (ofString "image/png")

/-- `accepts_media_type`. -/
def acceptsMediaType (role : PayloadRole) (name : Str) : Bool :=
  !isBlank name && (role == source || role.mediaType == some name)

end PayloadRole

/-- What a payload is read from: bytes in memory, an open temporary file, or
nothing after `close`. -/
inductive BackingStore
  | content (bytes : Bytes)
  | file (bytes : Bytes)
  | closed
  deriving DecidableEq

/-- Bytes in memory are as many as the payload says. -/
def BackingStore.contentFits (length : ℕ) : BackingStore → Prop
  | content bytes => bytes.length = length
  | file _ => True
  | closed => True

instance (length : ℕ) (store : BackingStore) : Decidable (store.contentFits length) :=
  match store with
  | .content bytes => inferInstanceAs (Decidable (bytes.length = length))
  | .file _ => inferInstanceAs (Decidable True)
  | .closed => inferInstanceAs (Decidable True)

structure ProtocolPayload where
  mediaType : Str
  length : ℕ
  store : BackingStore
  media_type_required : isBlank mediaType = false
  content_length : store.contentFits length

namespace ProtocolPayload

def copyBufferBytes : ℕ := 64*1024

/-- `__init__` with one backing store. -/
def create (mediaType : Str) (length : ℕ) (store : BackingStore) :
    Except PythonError ProtocolPayload :=
  if hmedia : isBlank mediaType = false then
    if hlength : store.contentFits length then
      .ok ⟨mediaType, length, store, hmedia, hlength⟩
    else .error (.valueError (ofString "protocol payload content has an invalid length"))
  else .error (.valueError (ofString "protocol payload media type is invalid"))

def fromBytes (content : Bytes) (mediaType : Str) : Except PythonError ProtocolPayload :=
  create mediaType content.length (.content content)

/-- `from_file` on a file with these contents. -/
def fromFile (file : Bytes) (length : ℕ) (mediaType : Str) : Except PythonError ProtocolPayload := do
  raiseIf (file.length ≠ length)
    (.valueError (ofString "protocol payload backing file has an invalid length"))
  create mediaType length (.file file)

def truncatedMessage : PythonError :=
  .valueError (ofString "protocol message is truncated")

/-- How much `receive` asks for at a time. A read never returns more, so the check
for too many bytes does not fire. -/
def receiveSize (remaining : ℕ) : ℕ := min copyBufferBytes remaining

def receive (stream : ByteSource) (length : ℕ) (mediaType : Str) :
    Except PythonError (ProtocolPayload × ByteSource) := do
  let (temporary, stream) ← readLoop truncatedMessage receiveSize stream length
  let payload ← create mediaType length (.file temporary)
  pure (payload, stream)

/-- The copy loop of `write_to`: what reached the stream and how the loop ended. -/
def copyFile (file : Bytes) (remaining : ℕ) : Bytes × Except PythonError Unit :=
  if remaining = 0 then ([], .ok ())
  else if _h : file.take (min copyBufferBytes remaining) = [] then
    ([], .error (.valueError (ofString "protocol payload backing file is truncated")))
  else
    let chunk := file.take (min copyBufferBytes remaining)
    let (rest, outcome) := copyFile (file.drop chunk.length) (remaining-chunk.length)
    (chunk++rest, outcome)
termination_by remaining
decreasing_by
  have hpos := List.length_pos_of_ne_nil _h
  omega

/-- `write_to`. -/
def writeTo (payload : ProtocolPayload) : Bytes × Except PythonError Unit :=
  match payload.store with
  | .content bytes => (bytes, .ok ())
  | .file bytes => copyFile bytes payload.length
  | .closed =>
    ([], .error ⟨.other (ofString "RuntimeError"),
      ofString "protocol payload backing file is closed"⟩)

/-- `close`. -/
def close (payload : ProtocolPayload) : ProtocolPayload :=
  match payload.store with
  | .file _ => ⟨payload.mediaType, payload.length, .closed, payload.media_type_required, trivial⟩
  | _ => payload

/-- The payload is open and holds these bytes. -/
def Holds (payload : ProtocolPayload) (bytes : Bytes) : Prop :=
  bytes.length = payload.length ∧ (payload.store = .content bytes ∨ payload.store = .file bytes)

theorem create_eq_ok {mediaType : Str} {length : ℕ} {store : BackingStore}
    {payload : ProtocolPayload} (h : create mediaType length store = .ok payload) :
    payload.mediaType = mediaType ∧ payload.length = length ∧ payload.store = store := by
  unfold create at h
  split_ifs at h
  rw [Except.ok.injEq] at h
  subst h
  exact ⟨rfl, rfl, rfl⟩

theorem fromBytes_holds {content : Bytes} {mediaType : Str} {payload : ProtocolPayload}
    (h : fromBytes content mediaType = .ok payload) : payload.Holds content := by
  obtain ⟨_, hlength, hstore⟩ := create_eq_ok h
  exact ⟨hlength.symm, Or.inl hstore⟩

theorem fromFile_holds {file : Bytes} {length : ℕ} {mediaType : Str} {payload : ProtocolPayload}
    (h : fromFile file length mediaType = .ok payload) : payload.Holds file := by
  simp only [fromFile, bind_eq_ok, raiseIf_eq_ok, not_not] at h
  obtain ⟨_, hfile, hcreate⟩ := h
  obtain ⟨_, hlength, hstore⟩ := create_eq_ok hcreate
  exact ⟨hfile.trans hlength.symm, Or.inr hstore⟩

theorem receiveSize_range (size : ℕ) (h : 0 < size) :
    0 < receiveSize size ∧ receiveSize size ≤ size := by
  unfold receiveSize copyBufferBytes
  omega

/-- Receiving from a stream that holds the bytes. -/
theorem receive_append (stream : ByteSource) (bytes rest : Bytes) (mediaType : Str)
    (hmedia : isBlank mediaType = false) (hdata : stream.data = bytes++rest) :
    ∃ payload next, receive stream bytes.length mediaType = .ok (payload, next) ∧
      payload.mediaType = mediaType ∧ payload.Holds bytes ∧ next.data = rest := by
  obtain ⟨next, hread, hrest⟩ := readLoop_append truncatedMessage receiveSize_range stream bytes
    rest hdata
  refine ⟨⟨mediaType, bytes.length, .file bytes, hmedia, trivial⟩, next, ?_, rfl,
    ⟨rfl, Or.inr rfl⟩, hrest⟩
  have hfits : BackingStore.contentFits bytes.length (.file bytes) := trivial
  rw [receive, hread, ok_bind]
  simp only [create, dif_pos hmedia, dif_pos hfits, ok_bind]
  rfl

/-- Receiving from a stream that ends early. -/
theorem receive_short (stream : ByteSource) (length : ℕ) (mediaType : Str)
    (hshort : stream.data.length < length) :
    receive stream length mediaType = .error truncatedMessage := by
  rw [receive, readLoop_short truncatedMessage receiveSize_range stream length hshort]
  rfl

/-- A received payload is open and holds as many bytes as asked for. -/
theorem receive_holds {stream next : ByteSource} {length : ℕ} {mediaType : Str}
    {payload : ProtocolPayload} (h : receive stream length mediaType = .ok (payload, next)) :
    ∃ bytes, payload.Holds bytes := by
  rcases Nat.lt_or_ge stream.data.length length with hshort | hlong
  · rw [receive_short stream length mediaType hshort] at h
    cases h
  · have hlength : (stream.data.take length).length = length := by
      rw [List.length_take]
      omega
    have hdata := (List.take_append_drop length stream.data).symm
    obtain ⟨last, hread, _⟩ := readLoop_append truncatedMessage receiveSize_range stream
      (stream.data.take length) (stream.data.drop length) hdata
    rw [hlength] at hread
    simp only [receive, hread, ok_bind, bind_eq_ok, pure_eq_ok, Prod.mk.injEq] at h
    obtain ⟨received, hcreate, rfl, _⟩ := h
    obtain ⟨_, hpayload, hstore⟩ := create_eq_ok hcreate
    exact ⟨_, hlength.trans hpayload.symm, Or.inr hstore⟩

/-- The copy loop copies a file that is long enough. -/
theorem copyFile_eq (file : Bytes) : copyFile file file.length = (file, .ok ()) := by
  induction hn : file.length using Nat.strong_induction_on generalizing file with
  | _ n ih =>
    rw [copyFile]
    rcases Nat.eq_zero_or_pos n with rfl | hpos
    · rw [if_pos rfl, List.eq_nil_of_length_eq_zero hn]
    · have hbuffer : 0 < copyBufferBytes := by decide
      have hlength : (file.take (min copyBufferBytes n)).length = min copyBufferBytes n := by
        rw [List.length_take]
        omega
      have hnonempty : file.take (min copyBufferBytes n) ≠ [] := by
        apply List.ne_nil_of_length_pos
        omega
      have hrest := ih (n-min copyBufferBytes n) (by omega) (file.drop (min copyBufferBytes n))
        (by rw [List.length_drop, hn])
      rw [if_neg (by omega), dif_neg hnonempty]
      simp only [hlength, hrest, List.take_append_drop]

/-- An open payload writes the bytes it holds. -/
theorem Holds.writeTo {payload : ProtocolPayload} {bytes : Bytes} (h : payload.Holds bytes) :
    payload.writeTo = (bytes, .ok ()) := by
  obtain ⟨hlength, hstore | hstore⟩ := h
  · rw [ProtocolPayload.writeTo, hstore]
  · rw [ProtocolPayload.writeTo, hstore]
    simp only [← hlength, copyFile_eq]

/-- A payload holds one byte string. -/
theorem Holds.unique {payload : ProtocolPayload} {bytes bytes' : Bytes} (h : payload.Holds bytes)
    (h' : payload.Holds bytes') : bytes = bytes' := by
  have hwrite := h.writeTo.symm.trans h'.writeTo
  exact (Prod.mk.inj hwrite).1

end ProtocolPayload

end ConferWorker
