import ConferWorker.RequestDecoder

/-! The checks of the worker that answer a request with an error, and the text of each.
The texts are constants of the code: none has room for a value of the request. -/
namespace ConferWorker

/-- The header members that must be non-empty strings. -/
inductive StringName
  | documentId | filename | contentType
  deriving DecidableEq, Repr

/-- The header members that must be integers. -/
inductive IntegerName
  | limit | snippetCharacters | containerNumber | containerCount | dpi
  deriving DecidableEq, Repr

/-- The roles of the payloads that a request needs. -/
inductive RequestRole
  | source | artifact | text
  deriving DecidableEq, Repr

def StringName.value : StringName → Str
  | documentId => documentIdName
  | filename => ofString "filename"
  | contentType => ofString "content_type"

def IntegerName.value : IntegerName → Str
  | limit => ofString "limit"
  | snippetCharacters => ofString "snippet_characters"
  | containerNumber => ofString "container_number"
  | containerCount => ofString "container_count"
  | dpi => ofString "dpi"

def RequestRole.role : RequestRole → PayloadRole
  | source => .source
  | artifact => .artifact
  | text => .text

/-- The checks whose failure refuses a request: those of the decoder and the requests, and
the one of `_run_session`. -/
inductive RefusalCheck
  | version | operationRequired | operationUnknown
  | string (name : StringName) | integer (name : IntegerName)
  | payload (role : RequestRole) | mediaType (role : RequestRole)
  | queries | queryKeys | terms | termCount | termLength
  | queryCount | searchLimit | snippetCharacters | containerNumber | containerCount | renderDpi
  | sessionOnly
  deriving DecidableEq, Repr

def RefusalCheck.message : RefusalCheck → Str
  | version => ofString "Unsupported worker protocol version"
  | operationRequired => ofString "Worker operation is required"
  | operationUnknown => ofString "Unknown worker operation"
  | string name => name.value++ofString " must be a non-empty string"
  | integer name => name.value++ofString " must be an integer"
  | payload role => role.role.value++ofString " payload is required"
  | mediaType role => role.role.value++ofString " payload has the wrong media type"
  | queries => ofString "queries must be an array of objects"
  | queryKeys => ofString "search queries may contain only all"
  | terms => ofString "all must be an array of strings"
  | termCount => ofString "all must contain between 1 and 8 terms"
  | termLength => ofString "search terms must contain between 1 and 256 characters"
  | queryCount => ofString "queries must contain between 1 and 8 searches"
  | searchLimit => ofString "search limit must be between 1 and 50"
  | snippetCharacters => ofString "snippet_characters must be between 64 and 4000"
  | containerNumber => ofString "container_number cannot be negative"
  | containerCount => ofString "container_count must be between 1 and 20"
  | renderDpi => ofString "render DPI is outside the allowed range"
  | sessionOnly => ofString "Only document session operations are allowed"

/-- The checks of the session that raise a `DocumentOperationError`. -/
inductive OperationCheck
  | artifact | text | alreadyOpen | capacity | searchTerms | readTarget | read | render | notOpen
  deriving DecidableEq, Repr

def OperationCheck.message : OperationCheck → Str
  | artifact => ofString "Document artifact is invalid"
  | text => ofString "Legacy document text is invalid"
  | alreadyOpen => ofString "Document is already open"
  | capacity => ofString "Document session capacity exceeded"
  | searchTerms => ofString "Search query has no searchable terms"
  | readTarget => ofString "Document read target was not found"
  | read => ofString "Document read is invalid"
  | render => ofString "Document page could not be rendered"
  | notOpen => ofString "Document is not open"

/-- All of them. -/
def RefusalCheck.all : List RefusalCheck :=
  [version, operationRequired, operationUnknown]
  ++[StringName.documentId, .filename, .contentType].map string
  ++[IntegerName.limit, .snippetCharacters, .containerNumber, .containerCount, .dpi].map integer
  ++[RequestRole.source, .artifact, .text].flatMap (fun role => [payload role, mediaType role])
  ++[queries, queryKeys, terms, termCount, termLength, queryCount, searchLimit,
    snippetCharacters, containerNumber, containerCount, renderDpi, sessionOnly]

def OperationCheck.all : List OperationCheck :=
  [artifact, text, alreadyOpen, capacity, searchTerms, readTarget, read, render, notOpen]

theorem RefusalCheck.mem_all (check : RefusalCheck) : check ∈ all := by
  cases check with
  | string name => cases name <;> decide
  | integer name => cases name <;> decide
  | payload role => cases role <;> decide
  | mediaType role => cases role <;> decide
  | _ => decide

theorem OperationCheck.mem_all (check : OperationCheck) : check ∈ all := by
  cases check <;> decide

/-- A text that fits into the header of a response. -/
def ShortText (text : Str) : Prop := Encodable text ∧ Json.quotedSize text ≤ 1000

instance (text : Str) : Decidable (ShortText text) := inferInstanceAs (Decidable (_ ∧ _))

theorem shortText_ascii {text : Str} (h : text.all (fun c => c.val < 0x80) = true)
    (hlength : text.length ≤ 160) : ShortText text := by
  have hascii : ∀ c ∈ text, c.val < 0x80 := by
    simpa only [List.all_eq_true, decide_eq_true_eq] using h
  have hquoted := Json.quotedSize_le text
  rw [Json.utf8_length_ascii text hascii] at hquoted
  exact ⟨Json.encodable_ascii text hascii, by omega⟩

/-- The messages of a list of checks, if they are plain and not long. -/
theorem shortText_message {Check : Type} {message : Check → Str} (checks : List Check)
    (hall : ∀ check ∈ checks, (message check).all (fun c => c.val < 0x80) = true ∧
      (message check).length ≤ 160) {check : Check} (hcheck : check ∈ checks) :
    ShortText (message check) :=
  shortText_ascii (hall check hcheck).1 (hall check hcheck).2

theorem RefusalCheck.message_short (check : RefusalCheck) : ShortText check.message :=
  shortText_message all (by decide +kernel) check.mem_all

theorem OperationCheck.message_short (check : OperationCheck) : ShortText check.message :=
  shortText_message all (by decide +kernel) check.mem_all

end ConferWorker
