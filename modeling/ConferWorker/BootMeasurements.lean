import ConferWorker.AuthenticodeDigest
import ConferWorker.GptEvents
import ConferWorker.PlatformProfiles
import ConferWorker.TextExtraction

/-! `measure_image` of `scripts/measure-release-image`: the partition table, the boot transcript and
the registers that a disk image boots with. -/
namespace ConferWorker

namespace ReleaseImage

/-- The end of a command. -/
inductive CommandOutcome
  | finished (stdout : Bytes)
  | notFound
  | failed (stderr : Bytes)

/-- The commands of a measurement: what `sfdisk` finds on an image, and what `mcopy` writes to the
destination of the file at an offset of it. -/
structure Tools where
  sfdisk : Bytes → CommandOutcome
  mcopy : Bytes → ℕ → CommandOutcome × Option Bytes

/-- A text in the message of an error. -/
def messageText (s : Str) : String := String.ofList (s.map (fun c => Char.ofNat c.val))

/-- `run`. -/
def run (command : String) : CommandOutcome → Measured Bytes
  | .finished stdout => .ok stdout
  | .notFound => .error (refusal ("Required command is unavailable: "++command))
  | .failed stderr =>
    let message := strip (decodeReplace stderr)
    .error (refusal (if message = [] then command++" failed" else messageText message))

def tableInvalid : MeasurementError := refusal "Worker disk partition table is invalid"

/-- `document["partitiontable"]`, of which the errors are handled alike. -/
def partitionTableOf : Json → Measured Json
  | .obj members => valueOr tableInvalid (getItem members (ofString "partitiontable"))
  | _ => .error tableInvalid

/-- An error of the parser in the `except` clause of `get_partition_table`. -/
def tableError : JsonFailure → MeasurementError
  | .notJson => tableInvalid
  | .other error => .other error

/-- `value == text`, of a value that may be missing. -/
def isText (text : Str) : Option Json → Bool
  | some (.str value) => value = text
  | _ => false

/-- `get_partition_table`. -/
def getPartitionTable (loads : JsonLoads) (outcome : CommandOutcome) :
    Measured (List (Str × Json)) := do
  let stdout ← run "sfdisk" outcome
  let document ← (loads stdout).mapError tableError
  let table ← partitionTableOf document
  match table with
  | .obj members => do
    raiseIf (isText (ofString "gpt") (getItem members (ofString "label")) = false
        ∨ isText (ofString "sectors") (getItem members (ofString "unit")) = false)
      (refusal "Worker disk is not a sector-addressed GPT image")
    pure members
  | _ => .error (refusal "Worker disk is not a sector-addressed GPT image")

/-- `get_sector_size`. -/
def getSectorSize (table : List (Str × Json)) : Measured SectorSize :=
  match getItem table (ofString "sectorsize") with
  | some (.int n) =>
    if h : 512 ≤ n.toNat then .ok ⟨n.toNat, h⟩
    else .error (refusal "Worker disk sector size is invalid")
  | _ => .error (refusal "Worker disk sector size is invalid")

/-- `ESP_TYPE`. -/
def espType : Str := ofString "C12A7328-F81F-11D2-BA4B-00A0C93EC93B"

/-- `s.upper()` on ASCII letters. -/
def upperAscii (s : Str) : Str :=
  s.map (fun c => if 0x61 ≤ c.val ∧ c.val ≤ 0x7A then Fin.ofNat _ (c.val-32) else c)

/-- The partition is a dict with the type of an EFI System Partition. Only a text of ASCII letters
has it in upper case. -/
def isEsp : Json → Bool
  | .obj members =>
    match getItem members (ofString "type") with
    | some (.str text) => upperAscii text = espType
    | _ => false
  | _ => false

/-- The members of a dict. -/
def membersOf : Json → List (Str × Json)
  | .obj members => members
  | _ => []

def partitionInvalid : MeasurementError := refusal "EFI System Partition location is invalid"

/-- `get_esp_offset`. -/
def getEspOffset (image : Bytes) (table : List (Str × Json)) : Measured ℕ :=
  match getItem table (ofString "partitions") with
  | some (.arr partitions) =>
    match partitions.filter isEsp with
    | [esp] => do
      let start := getItem (membersOf esp) (ofString "start")
      let size := getItem (membersOf esp) (ofString "size")
      let sectorSize ← getSectorSize table
      match start, size with
      | some (.int start), some (.int size) => do
        raiseIf (start < 2 ∨ size ≤ 0) partitionInvalid
        let offset := start.toNat*sectorSize.bytes
        raiseIf (image.length < offset+size.toNat*sectorSize.bytes)
          (refusal "EFI System Partition exceeds the disk image")
        pure offset
      | _, _ => .error partitionInvalid
    | esp => .error (refusal ("Expected one EFI System Partition, found "++toString esp.length))
  | _ => .error (refusal "Worker disk partitions are invalid")

/-- `copy_uki`: the file that was copied. -/
def copyUki (outcome : CommandOutcome × Option Bytes) : Measured Bytes := do
  let _ ← run "mcopy" outcome.1
  match outcome.2 with
  | some (b :: bytes) => .ok (b :: bytes)
  | _ => .error (refusal "EFI fallback UKI is missing or empty")

/-- A computation that raises `ReleaseMeasurementError` only. -/
def released {α : Type} (x : Except ReleaseMeasurementError α) : Measured α := x.mapError .release

/-- `get_efi_application_digests`. -/
def getEfiApplicationDigests (sha384 : Bytes → Bytes) (uki : Bytes) : Measured (Bytes × Bytes) := do
  let ukiDigest ← released (calculateAuthenticodeDigest sha384 uki "EFI fallback UKI")
  let linuxImage ← released (extractEmbeddedLinuxImage uki)
  let linuxDigest ←
    released (calculateAuthenticodeDigest sha384 linuxImage "Embedded .linux EFI application")
  pure (ukiDigest, linuxDigest)

/-- `extend`. -/
def extend (sha384 : Bytes → Bytes) (register eventDigest : Bytes) : Measured Bytes := do
  raiseIf (register.length ≠ sha384Bytes ∨ eventDigest.length ≠ sha384Bytes)
    (refusal "RTMR extension is not SHA-384")
  pure (sha384 (register++eventDigest))

/-- `hash_and_extend`. -/
def hashAndExtend (sha384 : Bytes → Bytes) (register event : Bytes) : Measured Bytes :=
  extend sha384 register (sha384 event)

def bootAction : Bytes := utf8 (ofString "Calling EFI Application from Boot Option")

def exitInvocation : Bytes := utf8 (ofString "Exit Boot Services Invocation")

def exitSuccess : Bytes := utf8 (ofString "Exit Boot Services Returned with Success")

/-- `bytes(4)`. -/
def separator : Bytes := List.replicate 4 0

/-- `calculate_measurements`. -/
def calculateMeasurements (sha384 : Bytes → Bytes)
    (gptEventDigest ukiAuthenticodeDigest linuxAuthenticodeDigest : Bytes)
    (platformProfile : Measured PlatformProfile) : Measured (List (Str × Json)) := do
  let rtmr1 ← hashAndExtend sha384 zeroRegister bootAction
  let rtmr1 ← hashAndExtend sha384 rtmr1 separator
  let rtmr1 ← extend sha384 rtmr1 gptEventDigest
  let rtmr1 ← extend sha384 rtmr1 ukiAuthenticodeDigest
  let rtmr1 ← extend sha384 rtmr1 linuxAuthenticodeDigest
  let rtmr1 ← hashAndExtend sha384 rtmr1 exitInvocation
  let rtmr1 ← hashAndExtend sha384 rtmr1 exitSuccess
  let platformProfile ← platformProfile
  pure [(ofString "mrtd", member platformProfile.members "mrtd"),
    (ofString "rtmr0", .str (hex platformProfile.rtmr0)), (ofString "rtmr1", .str (hex rtmr1)),
    (ofString "rtmr2", .str (hex zeroRegister))]

/-- `measure_image`, of the contents of the image if it is a regular file. -/
def measureImage (loads : JsonLoads) (reads : JsonReads) (sha384 : Bytes → Bytes) (tools : Tools)
    (profileFile : Except PythonError Bytes) (path : String) (image : Option Bytes) :
    Measured (List (Str × Json)) := do
  let image ← valueOr (refusal ("Disk image does not exist: "++path)) image
  let partitionTable ← getPartitionTable loads (tools.sfdisk image)
  let sectorSize ← getSectorSize partitionTable
  let espOffset ← getEspOffset image partitionTable
  let gptEvent ← released (getGptEventData image sectorSize)
  let uki ← copyUki (tools.mcopy image espOffset)
  let (ukiDigest, linuxDigest) ← getEfiApplicationDigests sha384 uki
  calculateMeasurements sha384 (sha384 gptEvent) ukiDigest linuxDigest
    (loadPlatformProfile reads sha384 profileFile)

end ReleaseImage

end ConferWorker
