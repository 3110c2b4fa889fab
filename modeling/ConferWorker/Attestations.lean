import ConferWorker.AttestationRequests
import ConferWorker.Scripts
import ConferWorker.UnicodeText

/-! `create_attestation` of `confer-worker-listener`: the order of the key file, the register and
the quote, on a machine whose system calls can fail. -/
namespace ConferWorker

namespace Listener

/-- `hashlib`. -/
structure Hashes where
  sha384 : Bytes → Bytes
  sha512 : Bytes → Bytes

/-- What an attestation changes: `authorized_keys`, RTMR3, and the report data of the quotes that
were requested. -/
structure Machine where
  authorizedKeys : Option Bytes
  register : Bytes
  quoteRequests : List Bytes

/-- The outcomes of the system calls of one attestation. A file that was not written to the end
keeps the first bytes of it. -/
structure SystemCalls where
  openKeys : Except PythonError Unit
  writeKeys : Except (PythonError × ℕ) Unit
  syncKeys : Except PythonError Unit
  hostKeyFile : Except PythonError Bytes
  openRegister : Except PythonError Unit
  writeRegister : Except PythonError ℕ
  readRegister : Except PythonError Unit
  makeEntry : Except PythonError Unit
  writeInblob : Except PythonError Unit
  readOutblob : Except PythonError Bytes
  removeEntry : Except PythonError Unit
  manifestFile : Except PythonError Bytes
  manifestBundleFile : Except PythonError Bytes

def reportDomain : Bytes := utf8 (ofString "confer.worker.ssh.prelude.v4")

def reservationDomain : Bytes := utf8 (ofString "confer.worker.rtmr3.reservation.v1")

def measurementBytes : ℕ := 48

def maxQuoteBytes : ℕ := 64*1024

def maxReleaseEvidenceBytes : ℕ := 32*1024

def maxAttestationBytes : ℕ := 256*1024

/-- `bytes(MEASUREMENT_BYTES)`. -/
def zeros : Bytes := List.replicate measurementBytes 0

/-- A line of `authorized_keys`, without the line feed. -/
def authorizedKey (keyBlob : Bytes) : Bytes := utf8 (ofString "restrict "++formatPublicKey keyBlob)

abbrev Step := Script ListenerError Machine

/-- A system call that leaves the machine as it is. -/
def call {α : Type} (outcome : Except PythonError α) : Step α :=
  .lift (outcome.mapError .other)

/-- `os.open` with `O_CREAT | O_EXCL`. -/
def createKeyFile (calls : SystemCalls) : Step Unit := do
  Script.ask (fun machine => if machine.authorizedKeys = none then .ok ()
    else .error (.other (.osError (ofString "File exists"))))
  call calls.openKeys

/-- The writes to the new file. -/
def writeKeyFile (calls : SystemCalls) (line : Bytes) : Step Unit :=
  match calls.writeKeys with
  | .ok _ => do
    Script.modify (fun machine => { machine with authorizedKeys := some line })
    call calls.syncKeys
  | .error (error, written) => do
    Script.modify (fun machine => { machine with authorizedKeys := some (line.take written) })
    Script.raise (.other error)

/-- `write_authorized_key`. -/
def writeAuthorizedKey (calls : SystemCalls) (keyBlob : Bytes) : Step Unit := do
  createKeyFile calls
  writeKeyFile calls (authorizedKey keyBlob++[0x0A])

/-- `path.read_text(encoding="ascii")`. -/
def readAsciiText (content : Bytes) : Except ListenerError Str :=
  if content.all (fun c => c.toNat < 0x80) then .ok (asciiText content)
  else .error (.other (.unicodeError (ofString "ordinal not in range(128)")))

def hostKeyInvalid : ListenerError := .workerError (ofString "Host key is invalid")

/-- `read_host_key`, of the contents of the file. -/
def readHostKey (content : Bytes) : Except ListenerError (Str × Bytes) := do
  let text ← readAsciiText content
  match runs (fun c => !isSpace c) text with
  | keyType :: key :: _ => do
    raiseIf (keyType ≠ ofString "ssh-ed25519") hostKeyInvalid
    let keyBlob ← valueOr hostKeyInvalid ((encodeAscii key).bind Base64.b64decode)
    validatePublicKey keyBlob
    raiseIf (asciiText (Base64.b64encode keyBlob) ≠ key) hostKeyInvalid
    pure (formatPublicKey keyBlob, keyBlob)
  | _ => .error hostKeyInvalid

/-- `read_release_evidence`, of the contents of the file. -/
def readReleaseEvidence (content : Bytes) : Except ListenerError Str := do
  raiseIf (content = [] ∨ maxReleaseEvidenceBytes < content.length)
    (.workerError (ofString "Worker release evidence size is invalid"))
  valueOr (.workerError (ofString "Worker release evidence is not UTF-8")) (decodeUtf8 content)

/-- The `try` block of `create_quote`. -/
def requestQuote (calls : SystemCalls) (report : Bytes) : Step Bytes := do
  Script.modify (fun machine => { machine with quoteRequests := machine.quoteRequests++[report] })
  call calls.writeInblob
  let quote ← call calls.readOutblob
  Script.lift (raiseIf (quote = [] ∨ maxQuoteBytes < quote.length)
    (.workerError (ofString "TDX quote size is invalid")))
  pure quote

/-- `create_quote`. -/
def createQuote (calls : SystemCalls) (report : Bytes) : Step Bytes := do
  call calls.makeEntry
  (requestQuote calls report).andFinally (call calls.removeEntry)

/-- `extend_register`: a write makes the register the hash of its value and what was written. -/
def extendRegister (hashes : Hashes) (calls : SystemCalls) (digest : Bytes) : Step Unit := do
  call calls.openRegister
  let written ← call calls.writeRegister
  Script.modify (fun machine =>
    { machine with register := hashes.sha384 (machine.register++digest) })
  Script.lift (raiseIf (written ≠ digest.length)
    (.workerError (ofString "RTMR3 extension was incomplete")))

/-- `read_register`. -/
def readRegister (calls : SystemCalls) : Step Bytes := do
  call calls.readRegister
  let value ← Script.ask (fun machine => .ok machine.register)
  Script.lift (raiseIf (value.length ≠ measurementBytes)
    (.workerError (ofString "RTMR3 value is invalid")))
  pure value

/-- The digest that stands for a reservation. -/
def reservationEvent (hashes : Hashes) (hostKey clientKey challenge : Bytes) : Bytes :=
  hashes.sha384 (reservationDomain++hostKey++clientKey++challenge)

/-- `record_reservation`. -/
def recordReservation (hashes : Hashes) (calls : SystemCalls) (hostKey clientKey challenge : Bytes) :
    Step Unit := do
  let event := reservationEvent hashes hostKey clientKey challenge
  extendRegister hashes calls event
  let value ← readRegister calls
  Script.lift (raiseIf (value ≠ hashes.sha384 (zeros++event))
    (.workerError (ofString "RTMR3 records more than this reservation")))

def reportData (hashes : Hashes) (hostKey clientKey challenge : Bytes) : Bytes :=
  hashes.sha512 (reportDomain++hostKey++clientKey++challenge)

/-- The document of an attestation. -/
def attestationDocument (challenge : Bytes) (hostKey : Str) (clientKey quote : Bytes)
    (manifest manifestBundle : Str) : List (Str × Json) :=
  [(ofString "version", .int version), (ofString "platform", .str (ofString "TDX")),
    (ofString "protocol", .str (ofString "SSH-2.0")),
    (ofString "challenge", .str (encodeUrlsafe challenge)), (ofString "hostKey", .str hostKey),
    (ofString "clientKey", .str (formatPublicKey clientKey)),
    (ofString "quote", .str (encodeUrlsafe quote)), (ofString "manifest", .str manifest),
    (ofString "manifestBundle", .str manifestBundle)]

/-- The bytes of a document. -/
def encodeDocument (document : List (Str × Json)) : Except ListenerError Bytes := do
  let text ← (Json.obj document).dumpsAscii.mapError .other
  let encoded ← (encodeText text).mapError .other
  raiseIf (maxAttestationBytes < encoded.length)
    (.workerError (ofString "Attestation response size is invalid"))
  pure encoded

/-- `create_attestation`. -/
def createAttestation (reads : JsonReads) (hashes : Hashes) (calls : SystemCalls)
    (request : Bytes) : Step Bytes := do
  let (challenge, clientKeyBlob) ← Script.lift (parseRequest reads request)
  writeAuthorizedKey calls clientKeyBlob
  let content ← call calls.hostKeyFile
  let (hostKey, hostKeyBlob) ← Script.lift (readHostKey content)
  recordReservation hashes calls hostKeyBlob clientKeyBlob challenge
  let quote ← createQuote calls (reportData hashes hostKeyBlob clientKeyBlob challenge)
  let manifest ← call calls.manifestFile
  let manifest ← Script.lift (readReleaseEvidence manifest)
  let manifestBundle ← call calls.manifestBundleFile
  let manifestBundle ← Script.lift (readReleaseEvidence manifestBundle)
  Script.lift (encodeDocument
    (attestationDocument challenge hostKey clientKeyBlob quote manifest manifestBundle))

end Listener

end ConferWorker
