import ConferWorker.AttestationRequests
import ConferWorker.HashChains
import ConferWorker.PeImage

/-! The platform profile of `scripts/measure-release-image`: its checks, and the register that its
events stand for. -/
namespace ConferWorker

namespace ReleaseImage

/-- The errors of the script: `ReleaseMeasurementError`, and those that it does not raise itself. -/
inductive MeasurementError
  | release (error : ReleaseMeasurementError)
  | other (error : PythonError)
  deriving DecidableEq

abbrev Measured := Except MeasurementError

def refusal (message : String) : MeasurementError := .release ⟨message⟩

def sha384Bytes : ℕ := 48

/-- `bytes(SHA384_BYTES)`. -/
def zeroRegister : Bytes := List.replicate sha384Bytes 0

/-- `bytes.hex()`. -/
def hex (bytes : Bytes) : Str :=
  bytes.flatMap (fun b => [Json.hexDigit (b.toNat/16), Json.hexDigit (b.toNat%16)])

/-- `bytes.fromhex(s)`: blanks may stand between the bytes. -/
def fromHex : Str → Option Bytes
  | [] => some []
  | [c] => if isAsciiSpace c then some [] else none
  | c :: d :: rest =>
    if isAsciiSpace c then fromHex (d :: rest)
    else if isHexDigit c && isHexDigit d then
      (fromHex rest).map (UInt8.ofNat (16*digitValue c+digitValue d) :: ·)
    else none

/-- `reject_duplicate_fields`. -/
def rejectDuplicateFields (pairs : List (Str × Json)) : Measured Json := do
  let result ← pairs.foldlM (fun result pair =>
    if pair.1 ∈ result.map Prod.fst then
      .error (refusal "GCP TDX platform profile has duplicate fields")
    else .ok (result++[pair])) []
  pure (.obj result)

/-- `set(value) == expected`. -/
def HasKeys (members : List (Str × Json)) (expected : List Str) : Prop :=
  (∀ name ∈ members.map Prod.fst, name ∈ expected) ∧ ∀ key ∈ expected, key ∈ members.map Prod.fst

instance (members : List (Str × Json)) (expected : List Str) :
    Decidable (HasKeys members expected) :=
  inferInstanceAs (Decidable (_ ∧ _))

/-- `require_exact_keys`. -/
def requireExactKeys (value : Json) (expected : List String) (description : String) :
    Measured (List (Str × Json)) :=
  match value with
  | .obj members => do
    raiseIf (¬HasKeys members (expected.map ofString)) (refusal (description++" fields are invalid"))
    pure members
  | _ => .error (refusal (description++" fields are invalid"))

/-- `decode_hex`. A text that is not ASCII is refused by `fromHex` at the latest, so that only the
lower case of ASCII letters counts. -/
def decodeHex (value : Json) (bytesCount : ℕ) (description : String) : Measured Bytes :=
  match value with
  | .str text => do
    raiseIf (text.length ≠ bytesCount*2 ∨ lowerAscii text ≠ text)
      (refusal (description++" is not canonical hex"))
    let decoded ← valueOr (refusal (description++" is not canonical hex")) (fromHex text)
    raiseIf (decoded.length ≠ bytesCount) (refusal (description++" is not canonical hex"))
    pure decoded
  | _ => .error (refusal (description++" is not canonical hex"))

/-- `value[name]`, of a name that is there. -/
def member (members : List (Str × Json)) (name : String) : Json :=
  (getItem members (ofString name)).getD .null

/-- `isinstance(value, str) and value`. -/
def isFilledText : Json → Bool
  | .str text => text ≠ []
  | _ => false

/-- `type(value) is bool`. -/
def isBool : Json → Bool
  | .bool _ => true
  | _ => false

/-- `type(value) is int and low <= value <= high`. -/
def isIntBetween (low high : ℤ) : Json → Bool
  | .int n => low ≤ n && n ≤ high
  | _ => false

/-- The checks on `platform`. -/
def checkPlatform (fixture : List (Str × Json)) : Measured Unit := do
  let platform ← requireExactKeys (member fixture "platform")
    ["provider", "region", "machineType", "confidentialInstanceType", "shieldedInstanceConfig"]
    "RTMR0 platform"
  let shielded ← requireExactKeys (member platform "shieldedInstanceConfig")
    ["secureBoot", "virtualTpm", "integrityMonitoring"] "RTMR0 Shielded VM configuration"
  raiseIf (¬(∀ name ∈ ["provider", "region", "machineType", "confidentialInstanceType"],
      isFilledText (member platform name) = true) ∨ ¬∀ pair ∈ shielded, isBool pair.2 = true)
    (refusal "RTMR0 platform configuration is invalid")

/-- The checks on one event, and its digest. -/
def eventDigest (event : Json) : Measured Bytes := do
  let event ← requireExactKeys event ["type", "description", "digest"] "RTMR0 fixture event"
  raiseIf (isIntBetween 0 0xFFFFFFFF (member event "type") = false)
    (refusal "RTMR0 fixture event type is invalid")
  raiseIf (isFilledText (member event "description") = false)
    (refusal "RTMR0 fixture event description is invalid")
  decodeHex (member event "digest") sha384Bytes "RTMR0 fixture event digest"

/-- `isinstance(events, list) and events`. -/
def eventList : Json → Measured (List Json)
  | .arr [] => .error (refusal "RTMR0 fixture events are invalid")
  | .arr events => .ok events
  | _ => .error (refusal "RTMR0 fixture events are invalid")

/-- A profile that was checked, and the register that was computed from its events. -/
structure PlatformProfile where
  members : List (Str × Json)
  rtmr0 : Bytes

/-- The checks on the members of a profile. -/
def checkProfile (sha384 : Bytes → Bytes) (tree : Json) : Measured PlatformProfile := do
  let profile ← requireExactKeys tree ["version", "mrtd", "rtmr0Fixture"]
    "GCP TDX platform profile"
  raiseIf (isIntBetween 1 1 (member profile "version") = false)
    (refusal "GCP TDX platform profile version is invalid")
  let _ ← decodeHex (member profile "mrtd") sha384Bytes "MRTD"
  let fixture ← requireExactKeys (member profile "rtmr0Fixture") ["platform", "events"]
    "RTMR0 fixture"
  checkPlatform fixture
  let events ← eventList (member fixture "events")
  let rtmr0 ← events.foldlM (fun register event => do
    let digest ← eventDigest event
    pure (sha384 (register++digest))) zeroRegister
  pure ⟨profile, rtmr0⟩

def profileInvalid : MeasurementError := refusal "GCP TDX platform profile is invalid"

/-- An error of the parser in the `except` clause of `load_platform_profile`. -/
def parserError : JsonFailure → MeasurementError
  | .notJson => profileInvalid
  | .other error => .other error

/-- An error of the file system in the same clause. -/
def fileError (error : PythonError) : MeasurementError :=
  if error.isOsError then profileInvalid else .other error

/-- `json.loads(text, object_pairs_hook=reject_duplicate_fields)`. -/
def loadProfile (reads : JsonReads) (text : Str) : Measured Json :=
  match reads text with
  | .ok tree => tree.hooked rejectDuplicateFields
  | .error (objects, failure) => do
    let _ ← objects.mapM rejectDuplicateFields
    .error (parserError failure)

/-- `load_platform_profile`, of the contents of the file. A line break that `read_text` translates
is a blank or an error of JSON before and after. -/
def loadPlatformProfile (reads : JsonReads) (sha384 : Bytes → Bytes)
    (file : Except PythonError Bytes) : Measured PlatformProfile := do
  let content ← file.mapError fileError
  let text ← valueOr profileInvalid (decodeUtf8 content)
  let tree ← loadProfile reads text
  checkProfile sha384 tree

end ReleaseImage

end ConferWorker
