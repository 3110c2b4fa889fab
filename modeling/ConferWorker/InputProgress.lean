import ConferWorker.OutputProgress

/-! A worker that keeps reading receives the whole standard input and the end of the stream, in
every run in which both threads are scheduled and no call fails. -/
namespace ConferWorker

namespace SessionRelay

variable {buffers : SocketBuffers} {s : SessionRelay} {e : RelayEvent} {standardInput : Bytes}

/-- The steps before the thread runs, and its steps that move no byte. -/
def inputStage (main : RelayMain) : RelayInput → ℕ
  | .unstarted => if main = .connecting then 4 else 3
  | .sending _ => 3
  | .reading => 2
  | .closing => 1
  | .ended => 0

/-- A byte is read, sent and received. -/
def inputRank (s : SessionRelay) : ℕ :=
  4*s.standardInput.length+2*s.input.chunk.length+s.toWorker.length+inputStage s.main s.input

/-- Who can bring the next byte on. -/
def helpfulTurn (buffers : SocketBuffers) (s : SessionRelay) : RelayTurn :=
  match s.input with
  | .unstarted => .main
  | .reading | .closing => .input
  -- `sendall` waits when the socket is full
  | .sending _ => if s.toWorker.length < buffers.toWorker then .input else .reader
  | .ended => .reader

theorem inputStage_send_le (main : RelayMain) (chunk : Bytes) :
    inputStage main (.send chunk) ≤ 3 := by
  unfold RelayInput.send
  split_ifs
  · exact Nat.le_succ 2
  · exact le_rfl

/-- The start brings it on. -/
theorem inputRank_start (waits : s.InputWaits) (h : s.Enabled buffers e)
    (he : e = .connect ∨ e = .start) : (s.next e).inputRank < s.inputRank := by
  rcases he with rfl | rfl
  · have hmain : s.main = .connecting := h
    have hin : s.input = .unstarted := waits (by rw [hmain]; rfl)
    have hstage : inputStage .starting s.input < inputStage s.main s.input := by
      rw [hmain, hin]
      decide
    exact Nat.add_lt_add_left hstage _
  · have hmain : s.main = .starting := h
    have hstage : inputStage .receiving .reading < inputStage s.main s.input := by
      rw [hmain, waits.start h]
      decide
    have hchunk : s.input.chunk = [] := by
      rw [waits.start h]
      rfl
    rw [inputRank, inputRank, hchunk]
    exact Nat.add_lt_add_left hstage _

/-- Every step of the thread brings it on. -/
theorem inputRank_input (h : s.Enabled buffers e) (hturn : e.turn = some .input) :
    (s.next e).inputRank < s.inputRank := by
  unfold inputRank
  cases e with
  | read n =>
    obtain ⟨hreading, hpos, -, hle⟩ := h
    have hstage := inputStage_send_le s.main (s.standardInput.take n)
    show 4*(s.standardInput.drop n).length
      +2*(RelayInput.send (s.standardInput.take n)).chunk.length+s.toWorker.length
      +inputStage s.main (.send (s.standardInput.take n)) < _
    rw [RelayInput.send_chunk, List.length_drop, List.length_take_of_le hle, hreading]
    show _ < 4*s.standardInput.length+2*0+s.toWorker.length+2
    omega
  | readEnd =>
    rw [show s.input = .reading from h.1]
    exact Nat.lt_succ_self _
  | send n =>
    have hbefore : inputStage s.main s.input = 3 := by
      rw [sending_of_send h]
      rfl
    obtain ⟨-, hpos, hle, -⟩ := h
    have hstage := inputStage_send_le s.main (s.input.chunk.drop n)
    show 4*s.standardInput.length+2*(RelayInput.send (s.input.chunk.drop n)).chunk.length
      +(s.toWorker++s.input.chunk.take n).length
      +inputStage s.main (.send (s.input.chunk.drop n)) < _
    rw [RelayInput.send_chunk, List.length_drop, List.length_append, List.length_take_of_le hle]
    omega
  | shutdown =>
    rw [show s.input = .closing from h]
    exact Nat.lt_succ_self _
  | _ => cases hturn

/-- Steps of `main` in its loop leave it where it is. -/
theorem inputRank_main (hin : s.input ≠ .unstarted) (hturn : e.turn = some .main)
    (hconnect : e ≠ .connect ∧ e ≠ .start) :
    (s.next e).inputRank = s.inputRank ∧
      (s.next e).helpfulTurn buffers = s.helpfulTurn buffers := by
  have hstage (main : RelayMain) : inputStage main s.input = inputStage s.main s.input := by
    cases hinput : s.input with
    | unstarted => exact absurd hinput hin
    | _ => rfl
  unfold inputRank
  cases e with
  | connect => exact absurd rfl hconnect.1
  | start => exact absurd rfl hconnect.2
  | receive n => exact ⟨congrArg (_+·) (hstage _), rfl⟩
  | receiveEnd => exact ⟨congrArg (_+·) (hstage _), rfl⟩
  | write n => exact ⟨congrArg (_+·) (hstage _), rfl⟩
  | _ => cases hturn

theorem not_helpful_main (hin : s.input ≠ .unstarted) :
    some RelayTurn.main ≠ some (s.helpfulTurn buffers) := by
  unfold helpfulTurn
  cases hinput : s.input with
  | unstarted => exact absurd hinput hin
  | sending chunk =>
    dsimp only
    split_ifs <;> exact fun h => by cases h
  | _ => exact fun h => by cases h

section Unfailed

variable (unfailed : Unfailed standardInput s)

include unfailed

/-- Until the worker has closed, the helpful turn can be taken. -/
theorem helpful_enabled (hworker : s.worker ≠ .closed) :
    ∃ e : RelayEvent, e.turn = some (s.helpfulTurn buffers) ∧ s.Enabled buffers e := by
  have hserving (hin : s.input ≠ .unstarted) : s.worker = .serving := by
    cases hcase : s.worker with
    | absent =>
      exact absurd (unfailed.complete.waits (by rw [unfailed.served hcase]; rfl)) hin
    | serving => rfl
    | closed => exact absurd hcase hworker
  unfold helpfulTurn
  cases hin : s.input with
  | unstarted =>
    cases hmain : s.main with
    | connecting => exact ⟨.connect, rfl, hmain⟩
    | starting => exact ⟨.start, rfl, hmain⟩
    | _ => exact absurd hin (unfailed.started (by rw [hmain]; rfl))
  | reading =>
    by_cases hempty : s.standardInput = []
    · exact ⟨.readEnd, rfl, hin, hempty⟩
    · exact ⟨.read 1, rfl, hin, le_rfl, by decide, List.length_pos_of_ne_nil hempty⟩
  | sending chunk =>
    have hworking := hserving (by rw [hin]; exact fun h => by cases h)
    have hchunk : 1 ≤ s.input.chunk.length := by
      rw [hin]
      apply List.length_pos_of_ne_nil
      intro hempty
      exact unfailed.chunked (hin.trans (congrArg RelayInput.sending hempty))
    dsimp only
    split_ifs with hroom
    · exact ⟨.send 1, rfl, hworking, le_rfl, hchunk, hroom⟩
    · exact ⟨.workerReceives 1, rfl, hworking, le_rfl, buffers.toWorker_pos.trans (not_lt.mp hroom)⟩
  | closing => exact ⟨.shutdown, rfl, hin⟩
  | ended =>
    have hworking := hserving (by rw [hin]; exact fun h => by cases h)
    by_cases hempty : s.toWorker = []
    · have hshut := (unfailed.shuts hin).resolve_right hworker
      exact ⟨.workerReceivesEnd, rfl, hworking, hempty, Or.inl hshut⟩
    · exact ⟨.workerReceives 1, rfl, hworking, le_rfl, List.length_pos_of_ne_nil hempty⟩

/-- No step but a failure or the close of the worker puts it back. -/
theorem approaches_end (h : s.Enabled buffers e) (hfails : e ≠ .mainFails ∧ e ≠ .inputFails)
    (hcloses : e ≠ .workerCloses) :
    EventSystem.Run.Approaches (m := system buffers) (fun s => s.sawEnd = true) inputRank
      (fun turn e => e.turn = some turn) (helpfulTurn buffers) s e := by
  cases e with
  | connect => exact Or.inr (Or.inl (inputRank_start unfailed.complete.waits h (Or.inl rfl)))
  | start => exact Or.inr (Or.inl (inputRank_start unfailed.complete.waits h (Or.inr rfl)))
  | read n | readEnd | send n | shutdown => exact Or.inr (Or.inl (inputRank_input h rfl))
  | receive n | receiveEnd =>
    have hin := unfailed.started (by rw [show s.main = .receiving from h.1]; rfl)
    exact Or.inr (Or.inr ⟨not_helpful_main hin,
      inputRank_main hin rfl ⟨RelayEvent.noConfusion, RelayEvent.noConfusion⟩⟩)
  | write n =>
    have hin := unfailed.started (by rw [writing_of_write h]; rfl)
    exact Or.inr (Or.inr ⟨not_helpful_main hin,
      inputRank_main hin rfl ⟨RelayEvent.noConfusion, RelayEvent.noConfusion⟩⟩)
  | workerReceives n =>
    obtain ⟨-, hpos, hle⟩ := h
    refine Or.inr (Or.inl ?_)
    show 4*s.standardInput.length+2*s.input.chunk.length+(s.toWorker.drop n).length
      +inputStage s.main s.input < s.inputRank
    rw [inputRank, List.length_drop]
    omega
  | workerReceivesEnd => exact Or.inl rfl
  | workerSends bytes => exact Or.inr (Or.inr ⟨(fun hturn => by cases hturn), rfl, rfl⟩)
  | mainFails => exact absurd rfl hfails.1
  | inputFails => exact absurd rfl hfails.2
  | workerCloses => exact absurd rfl hcloses

end Unfailed

section Run

variable (run : (system buffers).Run (initial standardInput))

/-- The thread is scheduled, and none of its calls fails. -/
structure InputRuns : Prop where
  fair : run.Fair (fun e => e.turn = some .input)
  succeeds : ∀ t, run.event t ≠ some .inputFails

/-- The worker keeps reading until it has seen the end of the stream. -/
structure WorkerReads : Prop where
  fair : run.Fair (fun e => e.turn = some .reader)
  stays : ∀ t, run.event t = some .workerCloses → (run.state t).sawEnd = true

variable {run}

theorem unfailed_at (runs : MainRuns run) (inputRuns : InputRuns run) (t : ℕ) :
    Unfailed standardInput (run.state t) := by
  refine (run.reaches t).invariant (fun e => e ≠ .mainFails ∧ e ≠ .inputFails) .initial
    (fun _ _ hfails h unfailed => unfailed.next hfails h) ?_
  intro e he
  obtain ⟨u, -, hevent⟩ := run.mem_before.mp he
  constructor
  · rintro rfl
    exact runs.succeeds u hevent
  · rintro rfl
    exact inputRuns.succeeds u hevent

/-- The worker closes after the end of the stream. -/
theorem WorkerReads.seen (reads : WorkerReads run) (t : ℕ)
    (hclosed : (run.state t).worker = .closed) : (run.state t).sawEnd = true := by
  induction t with
  | zero =>
    rw [run.begins] at hclosed
    cases hclosed
  | succ t ih =>
    cases hevent : run.event t with
    | none =>
      rw [run.idles t hevent] at hclosed ⊢
      exact ih hclosed
    | some e =>
      rw [(run.steps t e hevent).2] at hclosed ⊢
      cases e with
      | connect => cases hclosed
      | workerReceivesEnd => rfl
      | workerCloses => exact reads.stays t hevent
      | _ => exact ih hclosed

/-- The worker receives the whole standard input and sees its end. -/
theorem WorkerReads.delivered (reads : WorkerReads run) (runs : MainRuns run)
    (inputRuns : InputRuns run) :
    ∃ t, (run.state t).received = standardInput ∧ (run.state t).sawEnd = true := by
  obtain ⟨t, -, hseen⟩ := run.eventually (fun s => s.sawEnd = true) inputRank
    (fun turn e => e.turn = some turn) (helpfulTurn buffers) 0
    (fun turn => by
      cases turn with
      | main => exact runs.fair
      | input => exact inputRuns.fair
      | reader => exact reads.fair)
    (fun t _ hgoal => helpful_enabled (unfailed_at runs inputRuns t)
      (fun hclosed => hgoal (reads.seen t hclosed)))
    (by
      intro t _ e hevent hgoal
      apply approaches_end (unfailed_at runs inputRuns t) (run.steps t e hevent).1
      · constructor
        · rintro rfl
          exact runs.succeeds t hevent
        · rintro rfl
          exact inputRuns.succeeds t hevent
      · rintro rfl
        exact hgoal (reads.stays t hevent))
  exact ⟨t, (unfailed_at runs inputRuns t).received hseen, hseen⟩

end Run

end SessionRelay

end ConferWorker
