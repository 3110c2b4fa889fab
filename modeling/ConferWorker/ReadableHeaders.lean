import ConferWorker.JsonSoundness
import ConferWorker.ReceivedMessages

/-! Headers that the JSON parser reads back from their text: nothing in them is nested too
deeply, no name is repeated and the floats are stable. -/
namespace ConferWorker

namespace JsonParser

/-- A float that is read back from its text. -/
def StableFloat (runtime : JsonRuntime) (text : Str) : Prop :=
  text ∈ floatNames ∨ IsFloatNumber text ∧ runtime.floatText text = text

mutual

/-- No more levels than these, and only stable floats. -/
def HasShape (runtime : JsonRuntime) : ℕ → Json → Prop
  | _, .float text => StableFloat runtime text
  | 0, .arr _ => False
  | depth+1, .arr items => ItemsHaveShape runtime depth items
  | 0, .obj _ => False
  | depth+1, .obj members => MembersHaveShape runtime depth members
  | _, .null | _, .bool _ | _, .int _ | _, .str _ | _, .bytes _ => True

def ItemsHaveShape (runtime : JsonRuntime) : ℕ → List Json → Prop
  | _, [] => True
  | depth, item :: items => HasShape runtime depth item ∧ ItemsHaveShape runtime depth items

def MembersHaveShape (runtime : JsonRuntime) : ℕ → List (Str × Json) → Prop
  | _, [] => True
  | depth, (_, value) :: members =>
    HasShape runtime depth value ∧ MembersHaveShape runtime depth members

end

variable {runtime : JsonRuntime}

theorem itemsHaveShape_iff {depth : ℕ} (items : List Json) :
    ItemsHaveShape runtime depth items ↔ ∀ item ∈ items, HasShape runtime depth item := by
  induction items with
  | nil => rw [ItemsHaveShape]; simp
  | cons item items ih => rw [ItemsHaveShape, ih, List.forall_mem_cons]

theorem membersHaveShape_iff {depth : ℕ} (members : List (Str × Json)) :
    MembersHaveShape runtime depth members
      ↔ ∀ member ∈ members, HasShape runtime depth member.2 := by
  induction members with
  | nil => rw [MembersHaveShape]; simp
  | cons member members ih =>
    obtain ⟨name, value⟩ := member
    rw [MembersHaveShape, ih, List.forall_mem_cons]

mutual

/-- What can be written and has the shape can be read, in a spelling that keeps its texts. -/
theorem readsAt_of_shape {spelling : JsonSpelling}
    (hkeeps : ∀ s, Encodable s → spelling.Keeps s) (value : Json) (depth : ℕ)
    (hdump : value.Dumpable) (hshape : HasShape runtime depth value) :
    ReadsAt runtime spelling.Keeps depth value := by
  cases value with
  | arr items =>
    cases depth with
    | zero => exact absurd hshape (by simp only [HasShape, not_false_iff])
    | succ depth =>
      rw [HasShape] at hshape
      rw [Json.Dumpable] at hdump
      rw [ReadsAt]
      exact itemsReadAt_of_shape hkeeps items depth hdump hshape
  | obj members =>
    cases depth with
    | zero => exact absurd hshape (by simp only [HasShape, not_false_iff])
    | succ depth =>
      rw [HasShape] at hshape
      rw [Json.Dumpable] at hdump
      rw [ReadsAt]
      exact membersReadAt_of_shape hkeeps members depth hdump hshape
  | float text =>
    rw [HasShape] at hshape
    rw [ReadsAt]
    exact hshape
  | int n =>
    rw [Json.Dumpable] at hdump
    rw [ReadsAt]
    exact hdump
  | str s =>
    rw [Json.Dumpable] at hdump
    rw [ReadsAt]
    exact hkeeps s hdump
  | null => simp only [ReadsAt]
  | bool value => simp only [ReadsAt]
  | bytes value => exact absurd hdump (by simp only [Json.Dumpable, not_false_iff])

theorem itemsReadAt_of_shape {spelling : JsonSpelling}
    (hkeeps : ∀ s, Encodable s → spelling.Keeps s) (items : List Json) (depth : ℕ)
    (hdump : Json.ItemsDumpable items)
    (hshape : ItemsHaveShape runtime depth items) :
    ItemsReadAt runtime spelling.Keeps depth items := by
  cases items with
  | nil => simp only [ItemsReadAt]
  | cons item items =>
    rw [Json.ItemsDumpable] at hdump
    rw [ItemsHaveShape] at hshape
    rw [ItemsReadAt]
    exact ⟨readsAt_of_shape hkeeps item depth hdump.1 hshape.1,
      itemsReadAt_of_shape hkeeps items depth hdump.2 hshape.2⟩

theorem membersReadAt_of_shape {spelling : JsonSpelling}
    (hkeeps : ∀ s, Encodable s → spelling.Keeps s) (members : List (Str × Json)) (depth : ℕ)
    (hdump : Json.MembersDumpable members) (hshape : MembersHaveShape runtime depth members) :
    MembersReadAt runtime spelling.Keeps depth members := by
  cases members with
  | nil => simp only [MembersReadAt]
  | cons member members =>
    obtain ⟨name, value⟩ := member
    rw [Json.MembersDumpable] at hdump
    rw [MembersHaveShape] at hshape
    rw [MembersReadAt]
    exact ⟨hkeeps name hdump.1, readsAt_of_shape hkeeps value depth hdump.2.1 hshape.1,
      membersReadAt_of_shape hkeeps members depth hdump.2.2 hshape.2⟩

end

mutual

theorem shape_of_readsAt (value : Json) (depth : ℕ)
    (h : ReadsAt runtime JsonSpelling.raw.Keeps depth value) : HasShape runtime depth value := by
  cases value with
  | arr items =>
    cases depth with
    | zero => exact absurd h (by simp only [ReadsAt, not_false_iff])
    | succ depth =>
      rw [ReadsAt] at h
      rw [HasShape]
      exact itemsShape_of_readAt items depth h
  | obj members =>
    cases depth with
    | zero => exact absurd h (by simp only [ReadsAt, not_false_iff])
    | succ depth =>
      rw [ReadsAt] at h
      rw [HasShape]
      exact membersShape_of_readAt members depth h
  | float text =>
    rw [ReadsAt] at h
    rw [HasShape]
    exact h
  | null => simp only [HasShape]
  | bool value => simp only [HasShape]
  | int n => simp only [HasShape]
  | str s => simp only [HasShape]
  | bytes value => simp only [HasShape]

theorem itemsShape_of_readAt (items : List Json) (depth : ℕ)
    (h : ItemsReadAt runtime JsonSpelling.raw.Keeps depth items) :
    ItemsHaveShape runtime depth items := by
  cases items with
  | nil => simp only [ItemsHaveShape]
  | cons item items =>
    rw [ItemsReadAt] at h
    rw [ItemsHaveShape]
    exact ⟨shape_of_readsAt item depth h.1, itemsShape_of_readAt items depth h.2⟩

theorem membersShape_of_readAt (members : List (Str × Json)) (depth : ℕ)
    (h : MembersReadAt runtime JsonSpelling.raw.Keeps depth members) :
    MembersHaveShape runtime depth members := by
  cases members with
  | nil => simp only [MembersHaveShape]
  | cons member members =>
    obtain ⟨name, value⟩ := member
    rw [MembersReadAt] at h
    rw [MembersHaveShape]
    exact ⟨shape_of_readsAt value depth h.2.1, membersShape_of_readAt members depth h.2.2⟩

end

end JsonParser

namespace Json

mutual

/-- No text and no name in the value has a lone surrogate. -/
def HasUtf8 : Json → Prop
  | .str value => Encodable value
  | .arr items => ItemsHaveUtf8 items
  | .obj members => MembersHaveUtf8 members
  | .null | .bool _ | .int _ | .float _ | .bytes _ => True

def ItemsHaveUtf8 : List Json → Prop
  | [] => True
  | item :: items => HasUtf8 item ∧ ItemsHaveUtf8 items

def MembersHaveUtf8 : List (Str × Json) → Prop
  | [] => True
  | (name, value) :: members => Encodable name ∧ HasUtf8 value ∧ MembersHaveUtf8 members

end

end Json

namespace JsonParser

variable {runtime : JsonRuntime}

theorem float_encodable {text : Str}
    (h : text ∈ floatNames ∨ IsFloatNumber text ∧ runtime.floatText text = text) :
    Encodable text := by
  have hatom : IsAtom runtime text (.float text) := by
    rcases h with hname | ⟨hnumber, hstable⟩
    · exact Or.inl (floatNames_constant hname)
    · exact Or.inr (Or.inr ⟨hnumber, hstable, rfl⟩)
  apply Json.encodable_ascii
  intro c hc
  have hprintable := (hatom.printable c hc).2
  omega

mutual

/-- A value that the parser returned can be written unless it has a lone surrogate. -/
theorem dumpable_iff_utf8 (value : Json) (depth : ℕ)
    (h : ReadsAt runtime JsonSpelling.raw.Keeps depth value) :
    value.Dumpable ↔ value.HasUtf8 := by
  cases value with
  | null => simp only [Json.Dumpable, Json.HasUtf8]
  | bool value => simp only [Json.Dumpable, Json.HasUtf8]
  | int n =>
    rw [ReadsAt] at h
    simp only [Json.Dumpable, Json.HasUtf8, h]
  | float text =>
    rw [ReadsAt] at h
    simp only [Json.Dumpable, Json.HasUtf8, float_encodable h]
  | str s => simp only [Json.Dumpable, Json.HasUtf8]
  | bytes value => exact absurd h (by simp only [ReadsAt, not_false_iff])
  | arr items =>
    cases depth with
    | zero => exact absurd h (by simp only [ReadsAt, not_false_iff])
    | succ depth =>
      rw [ReadsAt] at h
      rw [Json.Dumpable, Json.HasUtf8]
      exact itemsDumpable_iff_utf8 items depth h
  | obj members =>
    cases depth with
    | zero => exact absurd h (by simp only [ReadsAt, not_false_iff])
    | succ depth =>
      rw [ReadsAt] at h
      rw [Json.Dumpable, Json.HasUtf8]
      exact membersDumpable_iff_utf8 members depth h

theorem itemsDumpable_iff_utf8 (items : List Json) (depth : ℕ)
    (h : ItemsReadAt runtime JsonSpelling.raw.Keeps depth items) :
    Json.ItemsDumpable items ↔ Json.ItemsHaveUtf8 items := by
  cases items with
  | nil => simp only [Json.ItemsDumpable, Json.ItemsHaveUtf8]
  | cons item items =>
    rw [ItemsReadAt] at h
    rw [Json.ItemsDumpable, Json.ItemsHaveUtf8, dumpable_iff_utf8 item depth h.1,
      itemsDumpable_iff_utf8 items depth h.2]

theorem membersDumpable_iff_utf8 (members : List (Str × Json)) (depth : ℕ)
    (h : MembersReadAt runtime JsonSpelling.raw.Keeps depth members) :
    Json.MembersDumpable members ↔ Json.MembersHaveUtf8 members := by
  cases members with
  | nil => simp only [Json.MembersDumpable, Json.MembersHaveUtf8]
  | cons member members =>
    obtain ⟨name, value⟩ := member
    rw [MembersReadAt] at h
    rw [Json.MembersDumpable, Json.MembersHaveUtf8, dumpable_iff_utf8 value depth h.2.1,
      membersDumpable_iff_utf8 members depth h.2.2]

end

end JsonParser

open ProtocolCodec JsonParser

/-- A header that is read back: its object is one of the levels. -/
structure ReadableHeader (runtime : JsonRuntime) (header : List (Str × Json)) : Prop where
  shape : ∃ depth, depth+1 = runtime.maxDepth ∧ ∀ member ∈ header, HasShape runtime depth member.2
  values : Json.NoRepeatsMembers header
  names : (header.map Prod.fst).Nodup

/-- The descriptor of a payload is an object of two texts and a number. -/
theorem descriptor_shape (runtime : JsonRuntime) (depth : ℕ) (role : PayloadRole)
    (payload : ProtocolPayload) :
    HasShape runtime (depth+1) (descriptor role payload) ∧ (descriptor role payload).NoRepeats := by
  have hnames : [ofString "role", ofString "media_type", ofString "length"].Nodup := by decide
  refine ⟨?_, ?_⟩
  · simp only [descriptor, HasShape, MembersHaveShape, and_self]
  · simp only [descriptor, Json.NoRepeats, Json.NoRepeatsMembers, and_self, true_and]
    exact hnames

/-- The object in the frame of such a message is read in every spelling that keeps its texts. -/
theorem sentHeader_reads {runtime : JsonRuntime} {spelling : JsonSpelling}
    (hkeeps : ∀ s, Encodable s → spelling.Keeps s) (hdepth : 3 ≤ runtime.maxDepth)
    {message : ProtocolMessage} (sendable : Sendable message)
    (readable : ReadableHeader runtime message.header)
    (hdump : (Json.obj message.sentHeader).Dumpable) :
    ReadsAt runtime spelling.Keeps runtime.maxDepth (.obj message.sentHeader)
      ∧ (Json.obj message.sentHeader).NoRepeats := by
  obtain ⟨depth, hmax, hshape⟩ := readable.shape
  obtain ⟨levels, rfl⟩ : ∃ levels, depth = levels+2 := ⟨depth-2, by omega⟩
  have hdescriptors : ∀ value ∈ descriptors message.payloads,
      HasShape runtime (levels+1) value ∧ value.NoRepeats := by
    intro value hvalue
    obtain ⟨entry, _, rfl⟩ := List.mem_map.mp hvalue
    exact descriptor_shape runtime levels entry.1 entry.2
  have hsent : HasShape runtime runtime.maxDepth (.obj message.sentHeader) := by
    rw [← hmax, HasShape, membersHaveShape_iff, ProtocolMessage.sentHeader, List.forall_mem_append]
    refine ⟨hshape, List.forall_mem_singleton.mpr ?_⟩
    rw [HasShape, itemsHaveShape_iff]
    exact fun value hvalue => (hdescriptors value hvalue).1
  have hdistinct : (Json.obj message.sentHeader).NoRepeats := by
    rw [Json.NoRepeats, noRepeatsMembers_iff, ProtocolMessage.sentHeader, List.forall_mem_append,
      List.map_append, List.map_singleton, ← List.concat_eq_append, List.nodup_concat]
    refine ⟨⟨(noRepeatsMembers_iff _).mp readable.values, List.forall_mem_singleton.mpr ?_⟩, ?_,
      readable.names⟩
    · rw [Json.NoRepeats, noRepeatsItems_iff]
      exact fun value hvalue => (hdescriptors value hvalue).2
    · intro hused
      obtain ⟨member, hmember, hname⟩ := List.mem_map.mp hused
      exact sendable.no_payloads_key member hmember hname
  exact ⟨readsAt_of_shape hkeeps _ _ hdump hsent, hdistinct⟩

/-- The JSON parser reads back what is written for the header of such a message. -/
theorem loadsBack_readable {runtime : JsonRuntime} (hdepth : 3 ≤ runtime.maxDepth)
    {message : ProtocolMessage} (sendable : Sendable message)
    (readable : ReadableHeader runtime message.header) : LoadsBack (loads runtime) message := by
  intro encoded hencoded
  obtain ⟨hreads, hdistinct⟩ := sentHeader_reads (fun s _ => JsonSpelling.raw_keeps s) hdepth
    sendable readable ((Json.encode_spec _).1.mp ⟨encoded, hencoded⟩)
  exact loads_encode hencoded hreads hdistinct

end ConferWorker
