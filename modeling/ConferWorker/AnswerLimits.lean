import ConferWorker.BudgetedPrefixes
import ConferWorker.ResponseSizes
import ConferWorker.WorkerProcess

/-! Which answers fit into a frame. The answer to a read carries its regions and
containers in the header, so their ids and labels are part of its 64 KiB. -/
namespace ConferWorker

open ProtocolCodec ProtocolPresenter

/-- The bytes of a column in the header. -/
def SqlValue.jsonBytes : SqlValue → ℕ
  | .null => 4
  | .integer value => (Json.intText value).length
  | .real digits => (utf8 digits).length
  | .text value => Json.quotedSize value
  | .blob _ => 0

/-- JSON has a form for the value: a BLOB has none. -/
def SqlValue.HasJson : SqlValue → Prop
  | .null => True
  | .integer value => value.natAbs < Json.intLimit
  | .real digits => Encodable digits
  | .text value => Encodable value
  | .blob _ => False

theorem column_size (value : SqlValue) : (column value).size = value.jsonBytes := by
  cases value <;> rw [column, Json.size, SqlValue.jsonBytes]

theorem column_dumpable (value : SqlValue) : (column value).Dumpable ↔ value.HasJson := by
  cases value <;> rw [column, Json.Dumpable, SqlValue.HasJson]

def ContainerValue.jsonBytes (value : ContainerValue) : ℕ :=
  28+value.number.jsonBytes+Json.quotedSize value.kind.value+value.label.jsonBytes

def RegionValue.jsonBytes (value : RegionValue) : ℕ :=
  63+value.id.jsonBytes+value.containerNumber.jsonBytes+Json.quotedSize value.type.value
    +value.confidence.jsonBytes+if value.renderable then 4 else 5

/-- The bytes of an array of items. -/
def arrayBytes (items : List ℕ) : ℕ := max 2 (1+(items.map (fun bytes => bytes+1)).sum)

/-- The length of the header that answers a read with this window. -/
def WindowValue.headerBytes (value : WindowValue) : ℕ :=
  212+value.containerStart.jsonBytes+value.containerEnd.jsonBytes
    +(Json.intText value.totalContainers).length
    +arrayBytes (value.regions.map RegionValue.jsonBytes)
    +arrayBytes (value.containers.map ContainerValue.jsonBytes)
    +(if value.truncated then 4 else 5)+(Json.intText (utf8 value.text).length).length

/-- The answer to a read with this window can be sent. -/
structure WindowValue.Fits (value : WindowValue) : Prop where
  numbers : value.containerStart.HasJson ∧ value.containerEnd.HasJson ∧
    value.totalContainers.natAbs < Json.intLimit
  regions : ∀ region ∈ value.regions, region.id.HasJson ∧ region.containerNumber.HasJson ∧
    region.confidence.HasJson
  containers : ∀ container ∈ value.containers, container.number.HasJson ∧
    container.label.HasJson
  header : value.headerBytes ≤ maxHeaderBytes
  text : (utf8 value.text).length ≤ maxPayloadBytes

/-- A JSON result can be sent as a payload. -/
def JsonFits (value : Json) : Prop := value.Dumpable → value.size ≤ maxPayloadBytes

def HitValue.jsonBytes (value : HitValue) : ℕ :=
  102+value.chunkId.jsonBytes+value.ordinal.jsonBytes+value.score.jsonBytes
    +value.containerStart.jsonBytes+value.containerEnd.jsonBytes+Json.quotedSize value.text
    +arrayBytes (value.regions.map RegionValue.jsonBytes)
    +arrayBytes (value.containers.map ContainerValue.jsonBytes)

structure HitValue.HasJson (value : HitValue) : Prop where
  columns : value.chunkId.HasJson ∧ value.ordinal.HasJson ∧ value.score.HasJson ∧
    value.containerStart.HasJson ∧ value.containerEnd.HasJson ∧ Encodable value.text
  regions : ∀ region ∈ value.regions, region.id.HasJson ∧ region.containerNumber.HasJson ∧
    region.confidence.HasJson
  containers : ∀ container ∈ value.containers, container.number.HasJson ∧
    container.label.HasJson

/-- The answer to a search with these hits can be sent. -/
def SearchFits (hits : List HitValue) (hasMore : Bool) : Prop :=
  (∀ hit ∈ hits, hit.HasJson) →
    21+arrayBytes (hits.map HitValue.jsonBytes)+(if hasMore then 4 else 5) ≤ maxPayloadBytes

/-- The loop of `bounded_outline` with another limit than the default one. -/
def ProtocolPresenter.boundedOutlineWithin (maxOutlineBytes : ℕ) :
    List OutlineValue → ℕ → Except PythonError (List OutlineValue)
  | [], _ => pure []
  | entry :: entries, encodedBytes => do
    let encoded ← (outlineEntry entry).encode
    let entryBytes := encoded.length+1
    if maxOutlineBytes < encodedBytes+entryBytes then pure []
    else do
      let selected ← boundedOutlineWithin maxOutlineBytes entries (encodedBytes+entryBytes)
      pure (entry :: selected)

/-- An entry and one separator. -/
def ProtocolPresenter.entryCost (entry : OutlineValue) : ℕ := (outlineEntry entry).size+1

def OutlineValue.jsonBytes (value : OutlineValue) : ℕ :=
  39+value.level.jsonBytes+value.title.jsonBytes+value.containerNumber.jsonBytes

def OutlineValue.HasJson (value : OutlineValue) : Prop :=
  value.level.HasJson ∧ value.title.HasJson ∧ value.containerNumber.HasJson

/-- The entries of an outline that fit into an overview. -/
def keptOutline (outline : List OutlineValue) : List OutlineValue :=
  takeWithin (fun entry => entry.jsonBytes+1) maxOutlineBytes 0 outline

def MetadataValue.jsonBytes (value : MetadataValue) : ℕ :=
  109+(Json.intText value.schemaVersion).length+Json.quotedSize value.sourceSha256
    +value.mediaType.jsonBytes+(if value.title = .null then 2 else value.title.jsonBytes)
    +(Json.intText value.textBytes).length+(Json.intText value.containerCount).length
    +(Json.intText value.outlineCount).length
    +((value.pageCount.map (fun count => 14+(Json.intText count).length)).getD 0)

structure MetadataValue.HasJson (value : MetadataValue) : Prop where
  numbers : value.schemaVersion.natAbs < Json.intLimit ∧ value.textBytes.natAbs < Json.intLimit ∧
    value.containerCount.natAbs < Json.intLimit ∧ value.outlineCount.natAbs < Json.intLimit ∧
    ∀ count ∈ value.pageCount, count.natAbs < Json.intLimit
  texts : Encodable value.sourceSha256 ∧ value.mediaType.HasJson ∧ value.title.HasJson

/-- Everything that is encoded for an overview has a JSON form, also the first entry of the
outline that does not fit. -/
structure OverviewHasJson (metadata : MetadataValue) (outline : List OutlineValue)
    (labels : List ContainerValue) (firstChunkId : Option ℤ) (content : Option Str) : Prop where
  metadata : metadata.HasJson
  outline : ∀ entry ∈ outline.take ((keptOutline outline).length+1), entry.HasJson
  labels : ∀ container ∈ labels, container.number.HasJson ∧ container.label.HasJson
  firstChunkId : ∀ id ∈ firstChunkId, id.natAbs < Json.intLimit
  content : ∀ text ∈ content, Encodable text

/-- The length of the result of an overview. -/
def overviewBytes (metadata : MetadataValue) (outline : List OutlineValue)
    (labels : List ContainerValue) (firstChunkId : Option ℤ) (content : Option Str) : ℕ :=
  85+metadata.jsonBytes+arrayBytes ((keptOutline outline).map OutlineValue.jsonBytes)
    +(if (keptOutline outline).length < metadata.outlineCount then 4 else 5)
    +arrayBytes (labels.map ContainerValue.jsonBytes)
    +((firstChunkId.map (fun id => (Json.intText id).length)).getD 4)
    +((content.map (fun text => 11+Json.quotedSize text)).getD 0)

/-- The answer to an overview with these parts can be sent. -/
def OverviewFits (metadata : MetadataValue) (outline : List OutlineValue)
    (labels : List ContainerValue) (firstChunkId : Option ℤ) (content : Option Str) : Prop :=
  OverviewHasJson metadata outline labels firstChunkId content →
    overviewBytes metadata outline labels firstChunkId content ≤ maxPayloadBytes

/-- The length of the header that answers a render with this page. -/
def RenderedPage.headerBytes (page : RenderedPage) : ℕ :=
  167+(Json.intText page.width).length+(Json.intText page.height).length
    +(Json.intText page.containerNumber).length+(Json.intText page.png.length).length

structure RenderedPage.Fits (page : RenderedPage) : Prop where
  numbers : page.width < Json.intLimit ∧ page.height < Json.intLimit ∧
    page.containerNumber < Json.intLimit
  header : page.headerBytes ≤ maxHeaderBytes
  png : page.png.length ≤ maxPayloadBytes

/-- The text and the artifact of an extraction can be sent. -/
def ExtractDocumentResult.Fits (result : ExtractDocumentResult) : Prop :=
  result.text.length ≤ maxPayloadBytes ∧ result.artifactLength ≤ maxPayloadBytes ∧
    result.artifactLength+result.text.length ≤ maxTotalPayloadBytes

theorem container_size (value : ContainerValue) :
    (container value).size = value.jsonBytes := by
  have hnumber : Json.quotedSize (ofString "number") = 8 := by decide
  have hkind : Json.quotedSize (ofString "kind") = 6 := by decide
  have hlabel : Json.quotedSize (ofString "label") = 7 := by decide
  simp only [container, Json.size, Json.membersSize, column_size, hnumber, hkind, hlabel,
    ContainerValue.jsonBytes]
  omega

theorem container_dumpable (value : ContainerValue) :
    (container value).Dumpable ↔ value.number.HasJson ∧ value.label.HasJson := by
  have hkind : Encodable value.kind.value := by cases value.kind <;> decide
  have hkeys : Encodable (ofString "number") ∧ Encodable (ofString "kind") ∧
      Encodable (ofString "label") := by decide
  simp only [container, Json.Dumpable, Json.MembersDumpable, column_dumpable, hkeys, hkind,
    true_and, and_true]

theorem region_size (value : RegionValue) : (region value).size = value.jsonBytes := by
  have hid : Json.quotedSize (ofString "id") = 4 := by decide
  have hcontainer : Json.quotedSize (ofString "container_number") = 18 := by decide
  have htype : Json.quotedSize (ofString "type") = 6 := by decide
  have hconfidence : Json.quotedSize (ofString "confidence") = 12 := by decide
  have hrenderable : Json.quotedSize (ofString "renderable") = 12 := by decide
  simp only [region, Json.size, Json.membersSize, column_size, hid, hcontainer, htype,
    hconfidence, hrenderable, RegionValue.jsonBytes]
  omega

theorem region_dumpable (value : RegionValue) :
    (region value).Dumpable ↔ value.id.HasJson ∧ value.containerNumber.HasJson ∧
      value.confidence.HasJson := by
  have htype : Encodable value.type.value := by cases value.type <;> decide
  have hkeys : Encodable (ofString "id") ∧ Encodable (ofString "container_number") ∧
      Encodable (ofString "type") ∧ Encodable (ofString "confidence") ∧
      Encodable (ofString "renderable") := by decide
  simp only [region, Json.Dumpable, Json.MembersDumpable, column_dumpable, hkeys, htype,
    true_and, and_true]

theorem array_size {α : Type} (f : α → Json) (bytes : α → ℕ) (values : List α)
    (h : ∀ value, (f value).size = bytes value) :
    (Json.arr (values.map f)).size = arrayBytes (values.map bytes) := by
  rw [Json.size, Json.itemsSize_map, arrayBytes, List.map_map]
  simp only [h, Function.comp_def]

theorem window_size (value : WindowValue) :
    117+(window value).size+(Json.intText (utf8 value.text).length).length
      = value.headerBytes := by
  have hstart : Json.quotedSize (ofString "container_start") = 17 := by decide
  have hend : Json.quotedSize (ofString "container_end") = 15 := by decide
  have htotal : Json.quotedSize (ofString "total_containers") = 18 := by decide
  have hregions : Json.quotedSize (ofString "regions") = 9 := by decide
  have hcontainers : Json.quotedSize (ofString "containers") = 12 := by decide
  have htruncated : Json.quotedSize (ofString "truncated") = 11 := by decide
  have hregionArray := array_size region _ value.regions region_size
  have hcontainerArray := array_size container _ value.containers container_size
  have hobject (members : List (Str × Json)) : (Json.obj members).size
      = max 2 (1+Json.membersSize members) := by rw [Json.size]
  have hinteger (n : ℤ) : (Json.int n).size = (Json.intText n).length := by rw [Json.size]
  have hboolean (b : Bool) : (Json.bool b).size = if b then 4 else 5 := by rw [Json.size]
  rw [window, hobject, WindowValue.headerBytes]
  simp only [Json.membersSize, column_size, hstart, hend, htotal, hregions, hcontainers,
    htruncated, hregionArray, hcontainerArray, hinteger, hboolean]
  omega

theorem window_dumpable (value : WindowValue) : (window value).Dumpable ↔
    (value.containerStart.HasJson ∧ value.containerEnd.HasJson ∧
      value.totalContainers.natAbs < Json.intLimit) ∧
    (∀ region ∈ value.regions, region.id.HasJson ∧ region.containerNumber.HasJson ∧
      region.confidence.HasJson) ∧
    (∀ container ∈ value.containers, container.number.HasJson ∧ container.label.HasJson) := by
  have hkeys : Encodable (ofString "container_start") ∧ Encodable (ofString "container_end") ∧
      Encodable (ofString "total_containers") ∧ Encodable (ofString "regions") ∧
      Encodable (ofString "containers") ∧ Encodable (ofString "truncated") := by decide
  simp only [window, Json.Dumpable, Json.MembersDumpable, column_dumpable, hkeys,
    Json.itemsDumpable_map, region_dumpable, container_dumpable, true_and, and_true, and_assoc]

theorem hit_size (value : HitValue) : (hit value).size = value.jsonBytes := by
  have hkeys : Json.quotedSize (ofString "chunk_id") = 10 ∧
      Json.quotedSize (ofString "ordinal") = 9 ∧ Json.quotedSize (ofString "score") = 7 ∧
      Json.quotedSize (ofString "container_start") = 17 ∧
      Json.quotedSize (ofString "container_end") = 15 ∧ Json.quotedSize (ofString "text") = 6 ∧
      Json.quotedSize (ofString "regions") = 9 ∧
      Json.quotedSize (ofString "containers") = 12 := by decide
  have hregions := array_size region _ value.regions region_size
  have hcontainers := array_size container _ value.containers container_size
  have hobject (members : List (Str × Json)) : (Json.obj members).size
      = max 2 (1+Json.membersSize members) := by rw [Json.size]
  have htext (text : Str) : (Json.str text).size = Json.quotedSize text := by rw [Json.size]
  rw [hit, hobject, HitValue.jsonBytes]
  simp only [Json.membersSize, column_size, hkeys, hregions, hcontainers, htext]
  omega

theorem hit_dumpable (value : HitValue) : (hit value).Dumpable ↔ value.HasJson := by
  have hkeys : Encodable (ofString "chunk_id") ∧ Encodable (ofString "ordinal") ∧
      Encodable (ofString "score") ∧ Encodable (ofString "container_start") ∧
      Encodable (ofString "container_end") ∧ Encodable (ofString "text") ∧
      Encodable (ofString "regions") ∧ Encodable (ofString "containers") := by decide
  simp only [hit, Json.Dumpable, Json.MembersDumpable, column_dumpable, hkeys,
    Json.itemsDumpable_map, region_dumpable, container_dumpable, true_and, and_true]
  constructor
  · rintro ⟨hid, hordinal, hscore, hstart, hend, htext, hregions, hcontainers⟩
    exact ⟨⟨hid, hordinal, hscore, hstart, hend, htext⟩, hregions, hcontainers⟩
  · rintro ⟨⟨hid, hordinal, hscore, hstart, hend, htext⟩, hregions, hcontainers⟩
    exact ⟨hid, hordinal, hscore, hstart, hend, htext, hregions, hcontainers⟩

/-- A search result is sent exactly when its hits fit. -/
theorem searchResult_fits_iff (hits : List HitValue) (hasMore : Bool) :
    JsonFits (searchResult hits hasMore) ↔ SearchFits hits hasMore := by
  have hkeys : Json.quotedSize (ofString "hits") = 6 ∧
      Json.quotedSize (ofString "has_more") = 10 := by decide
  have hencodable : Encodable (ofString "hits") ∧ Encodable (ofString "has_more") := by decide
  have hhits := array_size hit _ hits hit_size
  have hsize : (searchResult hits hasMore).size
      = 21+arrayBytes (hits.map HitValue.jsonBytes)+(if hasMore then 4 else 5) := by
    have hobject (members : List (Str × Json)) : (Json.obj members).size
        = max 2 (1+Json.membersSize members) := by rw [Json.size]
    have hboolean (b : Bool) : (Json.bool b).size = if b then 4 else 5 := by rw [Json.size]
    rw [searchResult, hobject]
    simp only [Json.membersSize, hkeys, hhits, hboolean]
    omega
  have hdumpable : (searchResult hits hasMore).Dumpable ↔ ∀ hit ∈ hits, hit.HasJson := by
    simp only [searchResult, Json.Dumpable, Json.MembersDumpable, hencodable,
      Json.itemsDumpable_map, hit_dumpable, true_and, and_true]
  rw [JsonFits, SearchFits, hsize, hdumpable]

theorem outlineEntry_size (value : OutlineValue) :
    (outlineEntry value).size = value.jsonBytes := by
  have hkeys : Json.quotedSize (ofString "level") = 7 ∧ Json.quotedSize (ofString "title") = 7 ∧
      Json.quotedSize (ofString "container_number") = 18 := by decide
  simp only [outlineEntry, Json.size, Json.membersSize, column_size, hkeys,
    OutlineValue.jsonBytes]
  omega

theorem outlineEntry_dumpable (value : OutlineValue) :
    (outlineEntry value).Dumpable ↔ value.HasJson := by
  have hkeys : Encodable (ofString "level") ∧ Encodable (ofString "title") ∧
      Encodable (ofString "container_number") := by decide
  simp only [outlineEntry, Json.Dumpable, Json.MembersDumpable, column_dumpable, hkeys,
    OutlineValue.HasJson, true_and, and_true]

theorem titleOrEmpty_size (title : SqlValue) :
    (titleOrEmpty title).size = if title = .null then 2 else title.jsonBytes := by
  cases title with
  | null => rfl
  | integer value => exact column_size (.integer value)
  | real digits => exact column_size (.real digits)
  | text value => exact column_size (.text value)
  | blob value => exact column_size (.blob value)

theorem titleOrEmpty_dumpable (title : SqlValue) : (titleOrEmpty title).Dumpable ↔ title.HasJson := by
  cases title with
  | null => exact iff_of_true (by decide : Encodable []) trivial
  | integer value => exact column_dumpable (.integer value)
  | real digits => exact column_dumpable (.real digits)
  | text value => exact column_dumpable (.text value)
  | blob value => exact column_dumpable (.blob value)

theorem metadata_size (value : MetadataValue) : (metadata value).size = value.jsonBytes := by
  have hkeys : Json.quotedSize (ofString "schema_version") = 16 ∧
      Json.quotedSize (ofString "source_sha256") = 15 ∧
      Json.quotedSize (ofString "media_type") = 12 ∧ Json.quotedSize (ofString "title") = 7 ∧
      Json.quotedSize (ofString "text_bytes") = 12 ∧
      Json.quotedSize (ofString "container_count") = 17 ∧
      Json.quotedSize (ofString "outline_count") = 15 ∧
      Json.quotedSize (ofString "page_count") = 12 := by decide
  have hobject (members : List (Str × Json)) : (Json.obj members).size
      = max 2 (1+Json.membersSize members) := by rw [Json.size]
  have htext (text : Str) : (Json.str text).size = Json.quotedSize text := by rw [Json.size]
  have hinteger (n : ℤ) : (Json.int n).size = (Json.intText n).length := by rw [Json.size]
  rw [metadata, hobject, MetadataValue.jsonBytes, Json.membersSize_append]
  cases value.pageCount with
  | none =>
    simp only [Json.membersSize, column_size, titleOrEmpty_size, hkeys, htext, hinteger,
      Option.map_none, Option.getD_none]
    omega
  | some count =>
    simp only [Json.membersSize, column_size, titleOrEmpty_size, hkeys, htext, hinteger,
      Option.map_some, Option.getD_some]
    omega

theorem metadata_dumpable (value : MetadataValue) :
    (metadata value).Dumpable ↔ value.HasJson := by
  have hkeys : Encodable (ofString "schema_version") ∧ Encodable (ofString "source_sha256") ∧
      Encodable (ofString "media_type") ∧ Encodable (ofString "title") ∧
      Encodable (ofString "text_bytes") ∧ Encodable (ofString "container_count") ∧
      Encodable (ofString "outline_count") ∧ Encodable (ofString "page_count") := by decide
  obtain ⟨version, sha, mediaType, title, textBytes, containers, outline, pages⟩ := value
  have hpages : (metadata ⟨version, sha, mediaType, title, textBytes, containers, outline,
      pages⟩).Dumpable ↔ (version.natAbs < Json.intLimit ∧ Encodable sha ∧ mediaType.HasJson ∧
        title.HasJson ∧ textBytes.natAbs < Json.intLimit ∧ containers.natAbs < Json.intLimit ∧
        outline.natAbs < Json.intLimit) ∧ ∀ count ∈ pages, count.natAbs < Json.intLimit := by
    cases pages with
    | none =>
      simp only [metadata, List.append_nil, Json.Dumpable, Json.MembersDumpable, column_dumpable,
        titleOrEmpty_dumpable, hkeys, true_and, and_true, Option.not_mem_none, false_implies,
        implies_true]
    | some count =>
      simp only [metadata, List.cons_append, List.nil_append, Json.Dumpable, Json.MembersDumpable,
        column_dumpable, titleOrEmpty_dumpable, hkeys, true_and, and_true, Option.mem_some_iff,
        forall_eq', and_assoc]
  rw [hpages]
  constructor
  · rintro ⟨⟨hversion, hsha, hmedia, htitle, htext, hcontainers, houtline⟩, hcount⟩
    exact ⟨⟨hversion, htext, hcontainers, houtline, hcount⟩, hsha, hmedia, htitle⟩
  · rintro ⟨⟨hversion, htext, hcontainers, houtline, hcount⟩, hsha, hmedia, htitle⟩
    exact ⟨⟨hversion, hsha, hmedia, htitle, htext, hcontainers, houtline⟩, hcount⟩

theorem boundedOutlineWithin_default (entries : List OutlineValue) (encodedBytes : ℕ) :
    boundedOutlineWithin maxOutlineBytes entries encodedBytes
      = boundedOutline entries encodedBytes := by
  induction entries generalizing encodedBytes with
  | nil => rfl
  | cons entry entries ih => simp only [boundedOutlineWithin, boundedOutline, ih]

/-- The entries that fit are selected, if those and the next one can be encoded. -/
theorem boundedOutlineWithin_eq_ok {maxOutlineBytes spent : ℕ}
    {entries selected : List OutlineValue} :
    boundedOutlineWithin maxOutlineBytes entries spent = .ok selected ↔
      (∀ entry ∈ entries.take ((takeWithin entryCost maxOutlineBytes spent entries).length+1),
        entry.HasJson) ∧ takeWithin entryCost maxOutlineBytes spent entries = selected := by
  induction entries generalizing spent selected with
  | nil =>
    exact ⟨fun h => ⟨List.forall_mem_nil _, Except.ok.inj h⟩, fun h => congrArg Except.ok h.2⟩
  | cons entry entries ih =>
    obtain ⟨hdumpable, hsize⟩ := Json.encode_spec (outlineEntry entry)
    rw [outlineEntry_dumpable] at hdumpable
    have hcost (encoded : Bytes) (hencoded : (outlineEntry entry).encode = .ok encoded) :
        encoded.length+1 = entryCost entry := by rw [entryCost, hsize encoded hencoded]
    rw [boundedOutlineWithin, bind_eq_ok, List.take_succ_cons, List.forall_mem_cons]
    constructor
    · rintro ⟨encoded, hencoded, hrest⟩
      dsimp only at hrest
      rw [hcost encoded hencoded] at hrest
      rw [takeWithin]
      split_ifs at hrest ⊢ with hexceeds
      · exact ⟨⟨hdumpable.mp ⟨encoded, hencoded⟩, List.forall_mem_nil _⟩, Except.ok.inj hrest⟩
      · simp only [bind_eq_ok, pure_eq_ok] at hrest
        obtain ⟨rest, hselected, rfl⟩ := hrest
        obtain ⟨hothers, rfl⟩ := ih.mp hselected
        exact ⟨⟨hdumpable.mp ⟨encoded, hencoded⟩, hothers⟩, rfl⟩
    · rintro ⟨⟨hentry, hothers⟩, rfl⟩
      obtain ⟨encoded, hencoded⟩ := hdumpable.mpr hentry
      refine ⟨encoded, hencoded, ?_⟩
      dsimp only
      rw [hcost encoded hencoded]
      rw [takeWithin] at hothers ⊢
      split_ifs at hothers ⊢ with hexceeds
      · rfl
      · rw [ih.mpr ⟨hothers, rfl⟩]
        rfl

/-- An overview is sent exactly when its parts fit. -/
theorem overviewResult_fits_iff (documentMetadata : MetadataValue) (outline : List OutlineValue)
    (labels : List ContainerValue) (firstChunkId : Option ℤ) (content : Option Str) :
    (∀ selected, boundedOutline outline 0 = .ok selected →
        JsonFits (overviewResult documentMetadata selected labels firstChunkId content)) ↔
      OverviewFits documentMetadata outline labels firstChunkId content := by
  have hkeys : Json.quotedSize (ofString "metadata") = 10 ∧
      Json.quotedSize (ofString "outline") = 9 ∧
      Json.quotedSize (ofString "outline_truncated") = 19 ∧
      Json.quotedSize (ofString "labeled_containers") = 20 ∧
      Json.quotedSize (ofString "first_chunk_id") = 16 ∧
      Json.quotedSize (ofString "content") = 9 := by decide
  have hencodable : Encodable (ofString "metadata") ∧ Encodable (ofString "outline") ∧
      Encodable (ofString "outline_truncated") ∧ Encodable (ofString "labeled_containers") ∧
      Encodable (ofString "first_chunk_id") ∧ Encodable (ofString "content") := by decide
  have hobject (members : List (Str × Json)) : (Json.obj members).size
      = max 2 (1+Json.membersSize members) := by rw [Json.size]
  have hboolean (b : Bool) : (Json.bool b).size = if b then 4 else 5 := by rw [Json.size]
  have hinteger (n : ℤ) : (Json.int n).size = (Json.intText n).length := by rw [Json.size]
  have htext (text : Str) : (Json.str text).size = Json.quotedSize text := by rw [Json.size]
  have hnull : Json.null.size = 4 := by rw [Json.size]
  have hentries := array_size outlineEntry _ (keptOutline outline) outlineEntry_size
  have hlabels := array_size container _ labels container_size
  have hsize : (overviewResult documentMetadata (keptOutline outline) labels firstChunkId
      content).size = overviewBytes documentMetadata outline labels firstChunkId content := by
    rw [overviewBytes]
    cases firstChunkId <;> cases content <;>
      simp only [overviewResult, hobject, Json.membersSize_append, Json.membersSize, metadata_size,
        hentries, hlabels, hboolean, hinteger, htext, hnull, hkeys, decide_eq_true_eq,
        Option.map_none, Option.getD_none, Option.map_some, Option.getD_some] <;> omega
  have hdumpable : (overviewResult documentMetadata (keptOutline outline) labels firstChunkId
      content).Dumpable ↔ documentMetadata.HasJson ∧ (∀ entry ∈ keptOutline outline, entry.HasJson)
        ∧ (∀ container ∈ labels, container.number.HasJson ∧ container.label.HasJson)
        ∧ (∀ id ∈ firstChunkId, id.natAbs < Json.intLimit)
        ∧ ∀ text ∈ content, Encodable text := by
    cases firstChunkId <;> cases content <;>
      simp only [overviewResult, List.append_nil, List.cons_append, List.nil_append, Json.Dumpable,
        Json.MembersDumpable, metadata_dumpable, Json.itemsDumpable_map, outlineEntry_dumpable,
        container_dumpable, hencodable, Option.mem_some_iff, forall_eq', Option.not_mem_none,
        false_implies, implies_true, true_and, and_true]
  have hkept : (keptOutline outline).length ≤ outline.length := (takeWithin_initial 0 _).length_le
  have hcost : entryCost = fun entry => entry.jsonBytes+1 := by
    funext entry
    rw [entryCost, outlineEntry_size]
  simp only [← boundedOutlineWithin_default, boundedOutlineWithin_eq_ok, hcost]
  constructor
  · intro h hasJson
    rw [← hsize]
    refine h _ ⟨hasJson.outline, rfl⟩ (hdumpable.mpr ⟨hasJson.metadata, ?_, hasJson.labels,
      hasJson.firstChunkId, hasJson.content⟩)
    intro entry hentry
    have hfront : keptOutline outline <+: outline.take ((keptOutline outline).length+1) :=
      List.prefix_take_iff.mpr ⟨takeWithin_initial 0 _, Nat.le_succ _⟩
    exact hasJson.outline entry (hfront.subset hentry)
  · rintro h _ ⟨hencoded, rfl⟩ hresult
    obtain ⟨hmetadata, -, hlabelled, hfirst, hcontent⟩ := hdumpable.mp hresult
    change (overviewResult documentMetadata (keptOutline outline) labels firstChunkId
      content).size ≤ _
    rw [hsize]
    exact h ⟨hmetadata, hencoded, hlabelled, hfirst, hcontent⟩

theorem descriptor_size (role : PayloadRole) (payload : ProtocolPayload) :
    (descriptor role payload).size = 33+Json.quotedSize role.value
      +Json.quotedSize payload.mediaType+(Json.intText payload.length).length := by
  have hrole : Json.quotedSize (ofString "role") = 6 := by decide
  have hmedia : Json.quotedSize (ofString "media_type") = 12 := by decide
  have hlength : Json.quotedSize (ofString "length") = 8 := by decide
  simp only [descriptor, Json.size, Json.membersSize, hrole, hmedia, hlength]
  omega

theorem descriptor_dumpable (role : PayloadRole) (payload : ProtocolPayload)
    (hmedia : Encodable payload.mediaType) (hlength : payload.length ≤ maxPayloadBytes) :
    (descriptor role payload).Dumpable := by
  have hrole : Encodable role.value := by cases role <;> decide
  have hkeys : Encodable (ofString "role") ∧ Encodable (ofString "media_type") ∧
      Encodable (ofString "length") := by decide
  have hlimit : payload.length < Json.intLimit := by
    apply Json.lt_intLimit
    have hmax : maxPayloadBytes < 2^64 := by decide
    omega
  simp only [descriptor, Json.Dumpable, Json.MembersDumpable, hkeys, hrole, hmedia,
    Int.natAbs_natCast, hlimit, and_self]

/-! The messages of the presenter. -/

/-- The media types of the roles in a response. -/
theorem responseRole_media (role : PayloadRole) (h : role ≠ .source) : ∃ mediaType,
    role.mediaType = some mediaType ∧ isBlank mediaType = false ∧ Encodable mediaType ∧
      role.acceptsMediaType mediaType = true ∧ Json.quotedSize mediaType ≤ 46 := by
  cases role with
  | source => exact absurd rfl h
  | artifact => exact ⟨_, rfl, by decide, by decide, by decide, by decide⟩
  | text => exact ⟨_, rfl, by decide, by decide, by decide, by decide⟩
  | result => exact ⟨_, rfl, by decide, by decide, by decide, by decide⟩
  | image => exact ⟨_, rfl, by decide, by decide, by decide, by decide⟩

theorem fromBytes_returns (bytes : Bytes) {mediaType : Str} (h : isBlank mediaType = false) :
    ∃ payload, ProtocolPayload.fromBytes bytes mediaType = .ok payload ∧
      payload.mediaType = mediaType ∧ payload.length = bytes.length := by
  have hfits : BackingStore.contentFits bytes.length (.content bytes) := rfl
  refine ⟨⟨mediaType, bytes.length, .content bytes, h, hfits⟩, ?_, rfl, rfl⟩
  rw [ProtocolPayload.fromBytes, ProtocolPayload.create, dif_pos h, dif_pos hfits]

theorem acceptPayloads_cons {role : PayloadRole} {value : PayloadValue}
    {payload : ProtocolPayload} {entries : List (PayloadRole × PayloadValue)}
    {payloads : List (PayloadRole × ProtocolPayload)}
    (hvalue : ProtocolMessage.payloadOf role value = .ok payload)
    (haccepts : role.acceptsMediaType payload.mediaType = true)
    (hrest : ∃ accepted, ProtocolMessage.acceptPayloads entries = .ok accepted ∧
      accepted.val = payloads) :
    ∃ accepted, ProtocolMessage.acceptPayloads ((role, value) :: entries) = .ok accepted ∧
      accepted.val = (role, payload) :: payloads := by
  obtain ⟨⟨found, hroles, hmedia⟩, hfound, rfl⟩ := hrest
  unfold ProtocolMessage.acceptPayloads
  simp only [hvalue, ok_bind, dif_pos haccepts, hfound]
  exact ⟨_, rfl, rfl⟩

theorem acceptPayloads_nil : ∃ accepted, ProtocolMessage.acceptPayloads [] = .ok accepted ∧
    accepted.val = [] := ⟨_, rfl, rfl⟩

theorem create_accepted (header : List (Str × Json))
    {entries : List (PayloadRole × PayloadValue)} (distinct : (entries.map Prod.fst).Nodup)
    {payloads : List (PayloadRole × ProtocolPayload)}
    (h : ∃ accepted, ProtocolMessage.acceptPayloads entries = .ok accepted ∧
      accepted.val = payloads) :
    ∃ response, ProtocolMessage.create header entries distinct = .ok response ∧
      response.header = header ∧ response.payloads = payloads := by
  obtain ⟨⟨found, hroles, hmedia⟩, hfound, rfl⟩ := h
  unfold ProtocolMessage.create
  simp only [hfound, ok_bind]
  exact ⟨_, rfl, rfl, rfl⟩

/-- The header of a successful response. -/
def okHeader (result : Option Json) : List (Str × Json) :=
  [(ofString "version", .int 1), (ofString "status", .str (ofString "ok"))]
    ++(result.map (fun value => (ofString "result", value))).toList

theorem okHeader_no_payloads (result : Option Json) :
    ∀ member ∈ okHeader result, member.1 ≠ payloadsKey := by
  intro member hmember
  cases result with
  | none =>
    simp only [okHeader, Option.map_none, Option.toList_none, List.append_nil, List.mem_cons,
      List.not_mem_nil, or_false] at hmember
    rcases hmember with rfl | rfl <;> decide
  | some value =>
    simp only [okHeader, Option.map_some, Option.toList_some, List.cons_append, List.nil_append,
      List.mem_cons, List.not_mem_nil, or_false] at hmember
    rcases hmember with rfl | rfl | rfl
    · decide
    · decide
    · exact (by decide : ofString "result" ≠ payloadsKey)

/-- The bytes that a result takes in the header. -/
def resultBytes : Option Json → ℕ
  | none => 0
  | some value => 10+value.size

theorem okHeader_size (result : Option Json) :
    Json.membersSize (okHeader result) = 26+resultBytes result := by
  have hversion : Json.quotedSize (ofString "version") = 9 := by decide
  have hstatus : Json.quotedSize (ofString "status") = 8 := by decide
  have hok : Json.quotedSize (ofString "ok") = 4 := by decide
  have hone : (Json.intText 1).length = 1 := by decide
  have hresult : Json.quotedSize (ofString "result") = 8 := by decide
  rw [okHeader, Json.membersSize_append]
  cases result with
  | none =>
    simp only [Json.membersSize, Json.size, hversion, hstatus, hok, hone, Option.map_none,
      Option.toList_none, resultBytes]
  | some value =>
    simp only [Json.membersSize, Json.size, hversion, hstatus, hok, hone, hresult,
      Option.map_some, Option.toList_some, resultBytes]
    omega

theorem okHeader_dumpable (result : Option Json) :
    Json.MembersDumpable (okHeader result) ↔ ∀ value ∈ result, value.Dumpable := by
  have hkeys : Encodable (ofString "version") ∧ Encodable (ofString "status") ∧
      Encodable (ofString "ok") ∧ Encodable (ofString "result") := by decide
  have hone : (1 : ℤ).natAbs < Json.intLimit := Json.lt_intLimit (by decide)
  rw [okHeader, Json.membersDumpable_append]
  cases result with
  | none =>
    simp only [Json.MembersDumpable, Json.Dumpable, hkeys, hone, Option.map_none,
      Option.toList_none, and_self, Option.not_mem_none, false_implies, implies_true]
  | some value =>
    simp only [Json.MembersDumpable, Json.Dumpable, hkeys, hone, Option.map_some,
      Option.toList_some, and_self, true_and, and_true, Option.mem_some_iff, forall_eq']

end ConferWorker
