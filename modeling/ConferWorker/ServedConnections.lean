import Mathlib.Data.Rat.Defs
import Mathlib.Algebra.Order.Field.Rat
import ConferWorker.Attestations
import ConferWorker.PythonNumbers

/-! The accepted connection in `confer-worker-listener`: the acknowledgement, the framed request
under its deadline, the framed attestation, and `sshd` on what the peer sent behind it. -/
namespace ConferWorker

namespace Listener

/-- What a `recv` comes back with: some first bytes of what the peer sent, or an error. -/
inductive RecvOutcome
  | arrived (size : ℕ)
  | timedOut
  | failed (error : PythonError)

/-- What a `sendall` comes back with. Before an error some first bytes may have been sent. -/
inductive SendOutcome
  | sent
  | failed (error : PythonError) (taken : ℕ)

/-- The clock, and the outcomes of the system calls on a connection. -/
structure ConnectionCalls where
  monotonic : ℕ → ℚ
  recv : ℕ → RecvOutcome
  setNoDelay : Except PythonError Unit
  sendAcknowledgement : SendOutcome
  sendResponse : SendOutcome
  dupInput : Except PythonError Unit
  dupOutput : Except PythonError Unit
  exec : Except PythonError Unit

/-- A connection: what the peer sent and nobody has read, what was sent to the peer, how often the
clock and the connection were read, and for every `recv` the time and the timeout. -/
structure Connection where
  inbox : Bytes
  outbox : Bytes
  readings : ℕ
  receives : ℕ
  waits : List (ℚ × ℚ)

/-- The machine, its connection, and what `sshd` found on it when it was started. -/
structure Session where
  machine : Machine
  connection : Connection
  sshd : Option Bytes

abbrev ServeStep := Script ListenerError Session

/-- A system call that leaves the session as it is. -/
def callHere {α : Type} (outcome : Except PythonError α) : ServeStep α :=
  .lift (outcome.mapError .other)

/-- A step on the machine. -/
def onMachine {α : Type} (x : Step α) : ServeStep α := fun session =>
  ((x session.machine).1, { session with machine := (x session.machine).2 })

/-- A change of the connection. -/
def updateConnection (f : Connection → Connection) : ServeStep Unit :=
  Script.modify (fun session => { session with connection := f session.connection })

/-- `struct.pack(">I", len(payload)) + payload`. -/
def frame (payload : Bytes) : Bytes := toBig 4 payload.length++payload

def requestTimeoutSeconds : ℚ := 5

def instanceIdInvalid : ListenerError := .workerError (ofString "Instance ID is invalid")

/-- `s.removesuffix("\n")`. -/
def removeNewline (s : Str) : Str :=
  if s.getLast? = some 0x0A then s.dropLast else s

/-- `create_reservation_acknowledgement`. -/
def createReservationAcknowledgement (instanceId : Str) : Except ListenerError Bytes := do
  let instanceId := removeNewline instanceId
  raiseIf (instanceId = [] ∨ instanceId.all isDecimalDigit = false) instanceIdInvalid
  let numericId ← (readInt instanceId).mapError .other
  raiseIf (0xFFFFFFFFFFFFFFFF < numericId) instanceIdInvalid
  pure (utf8 (ofString "CONFER-WORKER-RESERVED 1 "++Json.intText numericId++[0x0A]))

section Connections

variable (calls : ConnectionCalls)

/-- `time.monotonic()`. -/
def readClock : ServeStep ℚ := do
  let now ← Script.ask (fun session => .ok (calls.monotonic session.connection.readings))
  updateConnection (fun connection => { connection with readings := connection.readings+1 })
  pure now

/-- What the outcome of a `recv` is for its caller. -/
def receiveOutcome (size : ℕ) (timedOut : ListenerError) : RecvOutcome → ServeStep Bytes
  | .arrived available => do
    let chunk ← Script.ask (fun session =>
      .ok (session.connection.inbox.take (min available size)))
    updateConnection (fun connection =>
      { connection with inbox := connection.inbox.drop (min available size) })
    pure chunk
  | .timedOut => Script.raise timedOut
  | .failed error => Script.raise (.other error)

/-- `connection.settimeout(remaining)` and `connection.recv(size)`. -/
def receive (size : ℕ) (now remaining : ℚ) (timedOut : ListenerError) : ServeStep Bytes := do
  let outcome ← Script.ask (fun session => .ok (calls.recv session.connection.receives))
  updateConnection (fun connection => { connection with
    receives := connection.receives+1
    waits := connection.waits++[(now, remaining)] })
  receiveOutcome size timedOut outcome

/-- The loop of `read_exact_before`, for some rounds. -/
def receiveLoop (size : ℕ) (deadline : ℚ) (description : String) : ℕ → Bytes → ServeStep Bytes
  | 0, received => pure received
  | rounds+1, received =>
    if received.length < size then do
      let now ← readClock calls
      let timedOut := ListenerError.workerError (ofString description++ofString " timed out")
      Script.lift (raiseIf (deadline-now ≤ 0) timedOut)
      let chunk ← receive calls (size-received.length) now (deadline-now) timedOut
      Script.lift (raiseIf (chunk = [])
        (.workerError (ofString description++ofString " ended early")))
      receiveLoop size deadline description rounds (received++chunk)
    else pure received

/-- `read_exact_before`: every round receives a byte, or is the last one. -/
def readExactBefore (size : ℕ) (deadline : ℚ) (description : String) : ServeStep Bytes :=
  receiveLoop calls size deadline description size []

/-- `connection.sendall(data)`. -/
def sendAll (outcome : SendOutcome) (data : Bytes) : ServeStep Unit :=
  match outcome with
  | .sent => updateConnection (fun connection => { connection with outbox := connection.outbox++data })
  | .failed error taken => do
    updateConnection (fun connection =>
      { connection with outbox := connection.outbox++data.take taken })
    Script.raise (.other error)

/-- `send_acknowledgement`. -/
def sendAcknowledgement (acknowledgement : Bytes) : ServeStep Unit := do
  callHere calls.setNoDelay
  sendAll calls.sendAcknowledgement acknowledgement

/-- `receive_attestation_request`. -/
def receiveAttestationRequest : ServeStep Bytes := do
  let now ← readClock calls
  let deadline := now+requestTimeoutSeconds
  let encodedLength ← readExactBefore calls 4 deadline "Attestation request length"
  let length := fromBig encodedLength
  Script.lift (raiseIf (¬(0 < length ∧ length ≤ maxRequestBytes))
    (.workerError (ofString "Attestation request size is invalid")))
  let request ← readExactBefore calls length deadline "Attestation request"
  Script.lift (raiseIf (decodeUtf8 request = none)
    (.workerError (ofString "Attestation request is not UTF-8")))
  pure request

/-- `send_attestation`. -/
def sendAttestation (attestation : Bytes) : ServeStep Unit :=
  sendAll calls.sendResponse (frame attestation)

/-- `execute_sshd`: the process goes on as `sshd`, with the connection as its input and output. -/
def executeSshd : ServeStep Unit := do
  callHere calls.dupInput
  callHere calls.dupOutput
  callHere calls.exec
  Script.modify (fun session => { session with sshd := some session.connection.inbox })

/-- The `with connection` block of `serve`. -/
def serveConnection (reads : JsonReads) (hashes : Hashes) (system : SystemCalls)
    (acknowledgement : Bytes) : ServeStep Unit := do
  sendAcknowledgement calls acknowledgement
  let request ← receiveAttestationRequest calls
  let response ← onMachine (createAttestation reads hashes system request)
  sendAttestation calls response
  executeSshd calls

end Connections

/-- A connection that was just accepted, on which the peer sends some bytes. -/
def Session.accepted (machine : Machine) (sent : Bytes) : Session :=
  ⟨machine, ⟨sent, [], 0, 0, []⟩, none⟩

end Listener

end ConferWorker
