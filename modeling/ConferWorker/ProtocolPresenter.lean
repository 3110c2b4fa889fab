import ConferWorker.ProtocolCodec
import ConferWorker.SessionValues

/-! `ProtocolPresenter`: the message that answers a request. Containers and regions
of a read stand in its header; other results are a JSON payload. -/
namespace ConferWorker

structure ExtractDocumentResult where
  text : Bytes
  artifact : Bytes
  artifactLength : ℕ

/-- The subclasses of `WorkerResponse`. -/
inductive WorkerResponse (T : SessionTypes)
  | extracted (result : ExtractDocumentResult)
  | session (response : SessionResponse T)

namespace ProtocolPresenter

def maxOutlineBytes : ℕ := 30000

/-- A column as `json.dumps` sees it. -/
def column : SqlValue → Json
  | .null => .null
  | .integer value => .int value
  | .real text => .float text
  | .text value => .str value
  | .blob value => .bytes value

/-- `_container`. -/
def container (container : ContainerValue) : Json :=
  .obj [(ofString "number", column container.number),
    (ofString "kind", .str container.kind.value), (ofString "label", column container.label)]

/-- `_region`. -/
def region (region : RegionValue) : Json :=
  .obj [(ofString "id", column region.id),
    (ofString "container_number", column region.containerNumber),
    (ofString "type", .str region.type.value), (ofString "confidence", column region.confidence),
    (ofString "renderable", .bool region.renderable)]

/-- `_window`. -/
def window (window : WindowValue) : Json :=
  .obj [(ofString "container_start", column window.containerStart),
    (ofString "container_end", column window.containerEnd),
    (ofString "total_containers", .int window.totalContainers),
    (ofString "regions", .arr (window.regions.map region)),
    (ofString "containers", .arr (window.containers.map container)),
    (ofString "truncated", .bool window.truncated)]

/-- `_hit`. -/
def hit (hit : HitValue) : Json :=
  .obj [(ofString "chunk_id", column hit.chunkId), (ofString "ordinal", column hit.ordinal),
    (ofString "score", column hit.score),
    (ofString "container_start", column hit.containerStart),
    (ofString "container_end", column hit.containerEnd), (ofString "text", .str hit.text),
    (ofString "regions", .arr (hit.regions.map region)),
    (ofString "containers", .arr (hit.containers.map container))]

def searchResult (hits : List HitValue) (hasMore : Bool) : Json :=
  .obj [(ofString "hits", .arr (hits.map hit)), (ofString "has_more", .bool hasMore)]

/-- `metadata.title or ""`. -/
def titleOrEmpty : SqlValue → Json
  | .null => .str []
  | title => column title

/-- `_metadata`. -/
def metadata (metadata : MetadataValue) : Json :=
  .obj ([(ofString "schema_version", .int metadata.schemaVersion),
    (ofString "source_sha256", .str metadata.sourceSha256),
    (ofString "media_type", column metadata.mediaType),
    (ofString "title", titleOrEmpty metadata.title),
    (ofString "text_bytes", .int metadata.textBytes),
    (ofString "container_count", .int metadata.containerCount),
    (ofString "outline_count", .int metadata.outlineCount)]
    ++match metadata.pageCount with
      | some pageCount => [(ofString "page_count", .int pageCount)]
      | none => [])

/-- `_outline_entry`. -/
def outlineEntry (entry : OutlineValue) : Json :=
  .obj [(ofString "level", column entry.level), (ofString "title", column entry.title),
    (ofString "container_number", column entry.containerNumber)]

/-- The loop of `bounded_outline`. -/
def boundedOutline : List OutlineValue → ℕ → Except PythonError (List OutlineValue)
  | [], _ => pure []
  | entry :: entries, encodedBytes => do
    let encoded ← (outlineEntry entry).encode
    let entryBytes := encoded.length+1
    if maxOutlineBytes < encodedBytes+entryBytes then pure []
    else do
      let selected ← boundedOutline entries (encodedBytes+entryBytes)
      pure (entry :: selected)

/-- The result of an overview with these outline entries. -/
def overviewResult (documentMetadata : MetadataValue) (outline : List OutlineValue)
    (labeledContainers : List ContainerValue) (firstChunkId : Option ℤ) (content : Option Str) :
    Json :=
  .obj ([(ofString "metadata", metadata documentMetadata),
    (ofString "outline", .arr (outline.map outlineEntry)),
    (ofString "outline_truncated", .bool (outline.length < documentMetadata.outlineCount)),
    (ofString "labeled_containers", .arr (labeledContainers.map container)),
    (ofString "first_chunk_id", match firstChunkId with
      | some id => .int id
      | none => .null)]
    ++match content with
      | some text => [(ofString "content", .str text)]
      | none => [])

def renderResult (page : RenderedPage) : Json :=
  .obj [(ofString "media_type", .str (ofString "image/png")), (ofString "width", .int page.width),
    (ofString "height", .int page.height),
    (ofString "container_number", .int page.containerNumber)]

/-- `_message`. -/
def message (result : Option Json) (payloads : List (PayloadRole × PayloadValue))
    (distinct : (payloads.map Prod.fst).Nodup) : Except PythonError ProtocolMessage :=
  let header := [(ofString "version", Json.int 1), (ofString "status", .str (ofString "ok"))]
    ++(result.map (fun value => (ofString "result", value))).toList
  ProtocolMessage.create header payloads distinct

/-- `_json_message`. -/
def jsonMessage (value : Json) : Except PythonError ProtocolMessage := do
  let encoded ← value.encode
  message none [(.result, .content encoded)] (List.nodup_singleton _)

/-- `len(text.encode("utf-16-le")) // 2`. -/
def utf16Units (text : Str) : ℕ := (text.map (fun c => if c.val < 0x10000 then 1 else 2)).sum

def extractionResult (text : Bytes) (units escaped : ℕ) : Json :=
  .obj [(ofString "text_bytes", .int text.length), (ofString "text_characters", .int units),
    (ofString "json_escaped_text_bytes", .int (escaped-2 : ℕ))]

/-- `_extraction`. -/
def extraction (response : ExtractDocumentResult) : Except PythonError ProtocolMessage := do
  let text ← decodeText response.text
  let encoded ← (Json.str text).encode
  let result := extractionResult response.text (utf16Units text) encoded.length
  let artifact ← ProtocolPayload.fromFile response.artifact response.artifactLength
    (ofString "application/vnd.confer.document-artifact")
  message (some result) [(.artifact, .payload artifact), (.text, .content response.text)]
    (by simp)

variable {Reader Content : Type}

/-- `present`. -/
def present : WorkerResponse (workerTypes Reader Content) → Except PythonError ProtocolMessage
  | .session .empty => message none [] List.nodup_nil
  | .extracted result => extraction result
  | .session (.overview documentMetadata outline labeledContainers firstChunkId content) => do
    let selected ← boundedOutline outline 0
    jsonMessage (overviewResult documentMetadata selected labeledContainers firstChunkId content)
  | .session (.search hits hasMore) => jsonMessage (searchResult hits hasMore)
  | .session (.read textWindow) => do
    let text ← encodeText textWindow.text
    message (some (window textWindow)) [(.text, .content text)] (List.nodup_singleton _)
  | .session (.render page) =>
    message (some (renderResult page)) [(.image, .content page.png)] (List.nodup_singleton _)

end ProtocolPresenter

end ConferWorker
