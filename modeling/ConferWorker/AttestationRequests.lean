import ConferWorker.AsciiJson
import ConferWorker.Base64

/-! The request of an attestation in `confer-worker-listener`: a challenge and a client key, each
with one spelling only. -/
namespace ConferWorker

/-- The errors of the listener: `WorkerError`, and those that it does not raise itself. -/
inductive ListenerError
  | workerError (message : Str)
  | other (error : PythonError)
  deriving DecidableEq

def ListenerError.IsWorkerError : ListenerError → Prop
  | .workerError _ => True
  | .other _ => False

/-- The value, or the error where there is none. -/
def valueOr {ε α : Type} (error : ε) : Option α → Except ε α
  | some value => .ok value
  | none => .error error

@[simp] theorem valueOr_eq_ok {ε α : Type} (error : ε) (x : Option α) (a : α) :
    valueOr error x = .ok a ↔ x = some a := by
  cases x <;> simp [valueOr]

@[simp] theorem valueOr_eq_error {ε α : Type} (error e : ε) (x : Option α) :
    valueOr error x = .error e ↔ x = none ∧ e = error := by
  cases x <;> simp [valueOr, eq_comm]

/-- `b.decode("ascii")` on ASCII bytes. -/
def asciiText (b : Bytes) : Str := b.map (fun c => Fin.ofNat _ c.toNat)

/-- What `json` reads in a text. An object stands as the pairs that the hook is called with; where
the text is no JSON, the objects that were complete before are known as well. -/
abbrev JsonReads := Str → Except (List (List (Str × Json)) × JsonFailure) Json

namespace Json

mutual

/-- The hook is called on every object, the inner ones first. -/
def hooked {ε : Type} (hook : List (Str × Json) → Except ε Json) : Json → Except ε Json
  | .arr items => do
    let items ← hookedItems hook items
    pure (.arr items)
  | .obj members => do
    let members ← hookedMembers hook members
    hook members
  | .null => pure .null
  | .bool value => pure (.bool value)
  | .int value => pure (.int value)
  | .float text => pure (.float text)
  | .str value => pure (.str value)
  | .bytes value => pure (.bytes value)

def hookedItems {ε : Type} (hook : List (Str × Json) → Except ε Json) :
    List Json → Except ε (List Json)
  | [] => pure []
  | item :: items => do
    let item ← hooked hook item
    let items ← hookedItems hook items
    pure (item :: items)

def hookedMembers {ε : Type} (hook : List (Str × Json) → Except ε Json) :
    List (Str × Json) → Except ε (List (Str × Json))
  | [] => pure []
  | (name, value) :: members => do
    let value ← hooked hook value
    let members ← hookedMembers hook members
    pure ((name, value) :: members)

end

mutual

/-- No object in the value repeats a member name. -/
def NoRepeats : Json → Prop
  | .arr items => NoRepeatsItems items
  | .obj members => NoRepeatsMembers members ∧ (members.map Prod.fst).Nodup
  | .null | .bool _ | .int _ | .float _ | .str _ | .bytes _ => True

def NoRepeatsItems : List Json → Prop
  | [] => True
  | item :: items => NoRepeats item ∧ NoRepeatsItems items

def NoRepeatsMembers : List (Str × Json) → Prop
  | [] => True
  | (_, value) :: members => NoRepeats value ∧ NoRepeatsMembers members

end

end Json

namespace Listener

def version : ℤ := 4

def challengeBytes : ℕ := 32

def maxRequestBytes : ℕ := 4*1024

/-- `ED25519_KEY_PREFIX`. -/
def ed25519KeyPrefix : Bytes :=
  [0x00, 0x00, 0x00, 0x0B]++utf8 (ofString "ssh-ed25519")++[0x00, 0x00, 0x00, 0x20]

def ed25519KeyBytes : ℕ := ed25519KeyPrefix.length+32

def duplicateFields : ListenerError :=
  .workerError (ofString "Attestation request has duplicate fields")

/-- `reject_duplicate_fields`. -/
def rejectDuplicateFields (pairs : List (Str × Json)) : Except ListenerError Json := do
  let result ← pairs.foldlM (fun result pair =>
    if pair.1 ∈ result.map Prod.fst then .error duplicateFields else .ok (result++[pair])) []
  pure (.obj result)

/-- `encode_urlsafe`. -/
def encodeUrlsafe (value : Bytes) : Str :=
  asciiText (Base64.rstripPad (Base64.urlsafeB64encode value))

def challengeInvalid : ListenerError := .workerError (ofString "Challenge is invalid")

/-- `decode_challenge`. -/
def decodeChallenge : Json → Except ListenerError Bytes
  | .str value => do
    raiseIf (0x3D ∈ value) challengeInvalid
    let encoded ← valueOr challengeInvalid (encodeAscii value)
    let padding := List.replicate ((4-encoded.length%4)%4) Base64.pad
    let challenge ← valueOr challengeInvalid (Base64.b64decodeAltchars (encoded++padding))
    raiseIf (challenge.length ≠ challengeBytes ∨ encodeUrlsafe challenge ≠ value) challengeInvalid
    pure challenge
  | _ => .error challengeInvalid

/-- `validate_public_key`. -/
def validatePublicKey (keyBlob : Bytes) : Except ListenerError Unit :=
  raiseIf (keyBlob.length ≠ ed25519KeyBytes ∨ ¬ed25519KeyPrefix <+: keyBlob)
    (.workerError (ofString "SSH key is invalid"))

def keyTypePrefix : Str := ofString "ssh-ed25519 "

/-- `format_public_key`. -/
def formatPublicKey (keyBlob : Bytes) : Str := keyTypePrefix++asciiText (Base64.b64encode keyBlob)

def clientKeyInvalid : ListenerError := .workerError (ofString "Client key is invalid")

/-- `decode_client_key`. -/
def decodeClientKey : Json → Except ListenerError Bytes
  | .str value => do
    raiseIf (¬keyTypePrefix <+: value) clientKeyInvalid
    let encoded ← valueOr clientKeyInvalid (encodeAscii (value.drop keyTypePrefix.length))
    let keyBlob ← valueOr clientKeyInvalid (Base64.b64decode encoded)
    validatePublicKey keyBlob
    raiseIf (formatPublicKey keyBlob ≠ value) clientKeyInvalid
    pure keyBlob
  | _ => .error clientKeyInvalid

def requestInvalid : ListenerError := .workerError (ofString "Attestation request is invalid")

/-- An error of the parser in the `except` clause of `parse_request`. -/
def parserError : JsonFailure → ListenerError
  | .notJson => requestInvalid
  | .other error => .other error

/-- `json.loads(text, object_pairs_hook=reject_duplicate_fields)`. -/
def loadRequest (reads : JsonReads) (text : Str) : Except ListenerError Json :=
  match reads text with
  | .ok tree => tree.hooked rejectDuplicateFields
  | .error (objects, failure) => do
    let _ ← objects.mapM rejectDuplicateFields
    .error (parserError failure)

def requestFields : List Str := [ofString "version", ofString "challenge", ofString "clientKey"]

def fieldsInvalid : ListenerError :=
  .workerError (ofString "Attestation request fields are invalid")

/-- `set(request) == {"version", "challenge", "clientKey"}`. -/
def HasRequestFields (members : List (Str × Json)) : Prop :=
  (∀ name ∈ members.map Prod.fst, name ∈ requestFields)
    ∧ ∀ field ∈ requestFields, field ∈ members.map Prod.fst

instance (members : List (Str × Json)) : Decidable (HasRequestFields members) :=
  inferInstanceAs (Decidable (_ ∧ _))

/-- The members of a request with the right names. -/
def requireFields : Json → Except ListenerError (List (Str × Json))
  | .obj members => do
    raiseIf (¬HasRequestFields members) fieldsInvalid
    pure members
  | _ => .error fieldsInvalid

/-- `request[name]`. -/
def field (members : List (Str × Json)) (name : String) : Json :=
  (getItem members (ofString name)).getD .null

/-- `type(value) is int and value == VERSION`. -/
def isVersion : Json → Bool
  | .int number => number == version
  | _ => false

/-- `parse_request`: the challenge and the client key. -/
def parseRequest (reads : JsonReads) (encoded : Bytes) : Except ListenerError (Bytes × Bytes) := do
  raiseIf (encoded = [] ∨ maxRequestBytes < encoded.length)
    (.workerError (ofString "Attestation request size is invalid"))
  let text ← valueOr requestInvalid (decodeUtf8 encoded)
  let request ← loadRequest reads text
  let members ← requireFields request
  raiseIf (isVersion (field members "version") = false)
    (.workerError (ofString "Attestation request version is invalid"))
  let challenge ← decodeChallenge (field members "challenge")
  let clientKey ← decodeClientKey (field members "clientKey")
  pure (challenge, clientKey)

end Listener

end ConferWorker
