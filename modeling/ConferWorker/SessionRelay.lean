import ConferWorker.ByteSlices
import ConferWorker.FairRuns

/-! `confer-document-session`: the two threads of the command, the socket between it and the worker
process, and that process. Each event is one system call, or its effect on the other side. -/
namespace ConferWorker

/-- Where `main` is. The loop over `view` is left when nothing of the chunk is left. -/
inductive RelayMain
  | connecting | starting | receiving | writing (view : Bytes) | returned (code : ℕ) | raised
  deriving DecidableEq, Repr

/-- Where the thread that runs `relay_input` is. -/
inductive RelayInput
  | unstarted | reading | sending (chunk : Bytes) | closing | ended
  deriving DecidableEq, Repr

/-- The worker process: its standard input and output are the one accepted socket, so that its
close ends both directions. -/
inductive RelayWorker
  | absent | serving | closed
  deriving DecidableEq, Repr

/-- How many bytes the socket holds in each direction before a sender has to wait. -/
structure SocketBuffers where
  toWorker : ℕ
  toSession : ℕ
  toWorker_pos : 1 ≤ toWorker

namespace RelayMain

/-- What is left of the chunk that is being written. -/
def view : RelayMain → Bytes
  | .writing view => view
  | _ => []

/-- `while view:`. -/
def write (view : Bytes) : RelayMain := if view = [] then .receiving else .writing view

/-- The thread was started, or never will be. -/
def begun : RelayMain → Bool
  | .connecting | .starting => false
  | .receiving | .writing _ | .returned _ | .raised => true

/-- In the `with` block: the connection is open. -/
def connected : RelayMain → Bool
  | .starting | .receiving | .writing _ => true
  | .connecting | .returned _ | .raised => false

def ended : RelayMain → Bool
  | .returned _ | .raised => true
  | .connecting | .starting | .receiving | .writing _ => false

/-- An error is caught in the first `try` block only, and returns 1. -/
def failed : RelayMain → RelayMain
  | .connecting => .returned 1
  | _ => .raised

@[simp] theorem write_view (view : Bytes) : (write view).view = view := by
  unfold write
  split_ifs with hview
  · exact hview.symm
  · rfl

@[simp] theorem write_begun (view : Bytes) : (write view).begun = true := by
  unfold write
  split_ifs <;> rfl

@[simp] theorem write_ended (view : Bytes) : (write view).ended = false := by
  unfold write
  split_ifs <;> rfl

theorem write_ne_nil (view : Bytes) : write view ≠ .writing [] := by
  unfold write
  split_ifs with hview
  · exact RelayMain.noConfusion
  · intro h
    exact hview (RelayMain.writing.inj h)

theorem write_ne_returned (view : Bytes) (code : ℕ) : write view ≠ .returned code := by
  unfold write
  split_ifs <;> exact RelayMain.noConfusion

theorem write_ne_connecting (view : Bytes) : write view ≠ .connecting := by
  unfold write
  split_ifs <;> exact RelayMain.noConfusion

theorem writing_of_view {main : RelayMain} (h : main.view ≠ []) : main = .writing main.view := by
  cases main with
  | writing view => rfl
  | _ => exact absurd rfl h

theorem failed_ended (main : RelayMain) : main.failed.ended = true := by
  cases main <;> rfl

theorem failed_begun (main : RelayMain) : main.failed.begun = true := by
  cases main <;> rfl

theorem failed_ne (main : RelayMain) : main.failed ≠ .returned 0 := by
  cases main <;> exact fun h => by cases h

/-- Before its end, `main` has the connection or is about to make it. -/
theorem connected_of_not_ended {main : RelayMain} (hconnecting : main ≠ .connecting)
    (hended : main.ended = false) : main.connected = true := by
  cases main with
  | connecting => exact absurd rfl hconnecting
  | starting | receiving | writing view => rfl
  | returned code | raised => cases hended

end RelayMain

namespace RelayInput

/-- What `sendall` has not sent yet. -/
def chunk : RelayInput → Bytes
  | .sending chunk => chunk
  | _ => []

/-- `sendall` returns when the whole chunk is sent. -/
def send (chunk : Bytes) : RelayInput := if chunk = [] then .reading else .sending chunk

/-- In the `try` block, or before it. -/
def relaying : RelayInput → Bool
  | .unstarted | .reading | .sending _ => true
  | .closing | .ended => false

@[simp] theorem send_chunk (chunk : Bytes) : (send chunk).chunk = chunk := by
  unfold send
  split_ifs with hchunk
  · exact hchunk.symm
  · rfl

@[simp] theorem send_relaying (chunk : Bytes) : (send chunk).relaying = true := by
  unfold send
  split_ifs <;> rfl

theorem ne_of_relaying {input : RelayInput} (h : input.relaying = true) : input ≠ .ended := by
  intro hended
  rw [hended] at h
  cases h

theorem send_ne_nil (chunk : Bytes) : send chunk ≠ .sending [] := by
  unfold send
  split_ifs with hchunk
  · exact RelayInput.noConfusion
  · intro h
    exact hchunk (RelayInput.sending.inj h)

theorem send_ne_unstarted (chunk : Bytes) : send chunk ≠ .unstarted := by
  unfold send
  split_ifs <;> exact RelayInput.noConfusion

/-- A chunk is left only in `sendall`. -/
theorem sending_of_chunk {input : RelayInput} (h : input.chunk ≠ []) :
    input = .sending input.chunk := by
  cases input with
  | sending chunk => rfl
  | _ => exact absurd rfl h

end RelayInput

/-- `received`, `sawEnd` and `sent` are what the worker process did with its end. -/
structure SessionRelay where
  main : RelayMain
  input : RelayInput
  worker : RelayWorker
  standardInput : Bytes
  toWorker : Bytes
  shutdown : Bool
  received : Bytes
  sawEnd : Bool
  sent : Bytes
  toSession : Bytes
  standardOutput : Bytes
  deriving DecidableEq, Repr

inductive RelayEvent
  -- `main`
  | connect | start | receive (n : ℕ) | receiveEnd | write (n : ℕ) | mainFails
  -- `relay_input`
  | read (n : ℕ) | readEnd | send (n : ℕ) | inputFails | shutdown
  -- the worker process
  | workerReceives (n : ℕ) | workerReceivesEnd | workerSends (bytes : Bytes) | workerCloses
  deriving DecidableEq, Repr

/-- Who has to be scheduled. -/
inductive RelayTurn
  | main | input | reader
  deriving DecidableEq, Repr

/-- Whose turn an event is. A failure, and what the worker sends, is nobody's duty. -/
def RelayEvent.turn : RelayEvent → Option RelayTurn
  | .connect | .start | .receive _ | .receiveEnd | .write _ => some .main
  | .read _ | .readEnd | .send _ | .shutdown => some .input
  | .workerReceives _ | .workerReceivesEnd => some .reader
  | .mainFails | .inputFails | .workerSends _ | .workerCloses => none

namespace SessionRelay

/-- `CHUNK_BYTES`. -/
def chunkBytes : ℕ := 64*1024

def initial (standardInput : Bytes) : SessionRelay where
  main := .connecting
  input := .unstarted
  worker := .absent
  standardInput := standardInput
  toWorker := []
  shutdown := false
  received := []
  sawEnd := false
  sent := []
  toSession := []
  standardOutput := []

/-- Which events can happen. Reads return any part of what there is, and sends and writes accept
any part of what they are given. -/
def Enabled (buffers : SocketBuffers) (s : SessionRelay) : RelayEvent → Prop
  | .connect => s.main = .connecting
  | .start => s.main = .starting
  | .receive n => s.main = .receiving ∧ 1 ≤ n ∧ n ≤ chunkBytes ∧ n ≤ s.toSession.length
  -- `recv` returns nothing only after the worker has closed and all it sent was received
  | .receiveEnd => s.main = .receiving ∧ s.toSession = [] ∧ s.worker = .closed
  | .write n => 1 ≤ n ∧ n ≤ s.main.view.length
  | .mainFails => s.main.ended = false
  | .read n => s.input = .reading ∧ 1 ≤ n ∧ n ≤ chunkBytes ∧ n ≤ s.standardInput.length
  | .readEnd => s.input = .reading ∧ s.standardInput = []
  -- a send that waits for room goes on when `main` closes the connection meanwhile
  | .send n => s.worker = .serving ∧ 1 ≤ n ∧ n ≤ s.input.chunk.length ∧
      s.toWorker.length+n ≤ buffers.toWorker
  -- `os.read` or `sendall` raises, also when `main` has left the `with` block
  | .inputFails => s.input = .reading ∨ s.input.chunk ≠ []
  | .shutdown => s.input = .closing
  | .workerReceives n => s.worker = .serving ∧ 1 ≤ n ∧ n ≤ s.toWorker.length
  | .workerReceivesEnd => s.worker = .serving ∧ s.toWorker = [] ∧
      (s.shutdown = true ∨ s.main.connected = false)
  | .workerSends bytes => s.worker = .serving ∧ s.main.connected = true ∧ bytes ≠ [] ∧
      s.toSession.length+bytes.length ≤ buffers.toSession
  | .workerCloses => s.worker = .serving

instance (buffers : SocketBuffers) (s : SessionRelay) : DecidablePred (s.Enabled buffers)
  | .connect | .start | .mainFails | .shutdown | .workerCloses =>
    inferInstanceAs (Decidable (_ = _))
  | .receive _ | .receiveEnd | .write _ | .read _ | .readEnd | .send _ | .workerReceives _
  | .workerReceivesEnd | .workerSends _ => inferInstanceAs (Decidable (_ ∧ _))
  | .inputFails => inferInstanceAs (Decidable (_ ∨ _))

/-- The state after an event. -/
def next (s : SessionRelay) : RelayEvent → SessionRelay
  | .connect => { s with main := .starting, worker := .serving }
  | .start => { s with main := .receiving, input := .reading }
  | .receive n => { s with
      main := .write (s.toSession.take n)
      toSession := s.toSession.drop n }
  | .receiveEnd => { s with main := .returned 0 }
  | .write n => { s with
      main := .write (s.main.view.drop n)
      standardOutput := s.standardOutput++s.main.view.take n }
  | .mainFails => { s with main := s.main.failed }
  | .read n => { s with
      input := .send (s.standardInput.take n)
      standardInput := s.standardInput.drop n }
  | .readEnd => { s with input := .closing }
  | .send n => { s with
      input := .send (s.input.chunk.drop n)
      toWorker := s.toWorker++s.input.chunk.take n }
  | .inputFails => { s with input := .closing }
  -- on a connection that `main` has closed the call raises, and the error is dropped
  | .shutdown => { s with input := .ended, shutdown := s.shutdown || s.main.connected }
  | .workerReceives n => { s with
      received := s.received++s.toWorker.take n
      toWorker := s.toWorker.drop n }
  | .workerReceivesEnd => { s with sawEnd := true }
  | .workerSends bytes => { s with sent := s.sent++bytes, toSession := s.toSession++bytes }
  | .workerCloses => { s with worker := .closed }

/-- The command and its environment. -/
def system (buffers : SocketBuffers) : EventSystem SessionRelay RelayEvent where
  enabled := Enabled buffers
  next := next

instance (buffers : SocketBuffers) (s : SessionRelay) :
    DecidablePred ((system buffers).enabled s) :=
  inferInstanceAs (DecidablePred (s.Enabled buffers))

end SessionRelay

end ConferWorker
