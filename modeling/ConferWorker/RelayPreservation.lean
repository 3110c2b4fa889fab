import ConferWorker.InputProgress

/-! `confer-document-session` preserves both byte streams. -/
namespace ConferWorker

namespace SessionRelay

variable {buffers : SocketBuffers} {s : SessionRelay} {standardInput : Bytes}
  {events : List RelayEvent}

/-- What the command promises, in every order of the events of its threads and of the worker. -/
structure StreamsPreserved (buffers : SocketBuffers) (standardInput : Bytes) : Prop where
  /-- The worker receives first bytes of the standard input. -/
  received : ∀ events s, (system buffers).Reaches (initial standardInput) events s →
    s.received <+: standardInput
  /-- It sees the end of the stream after all of them, if no call fails. -/
  complete : ∀ events s, (system buffers).Reaches (initial standardInput) events s →
    .mainFails ∉ events → .inputFails ∉ events → s.sawEnd = true → s.received = standardInput
  /-- If it keeps reading, it comes to see that end. -/
  delivered : ∀ run : (system buffers).Run (initial standardInput),
    MainRuns run → InputRuns run → WorkerReads run →
      ∃ t, (run.state t).received = standardInput ∧ (run.state t).sawEnd = true
  /-- When `main` returns 0, the worker has closed and all it sent is written. -/
  written : ∀ events s, (system buffers).Reaches (initial standardInput) events s →
    s.main = .returned 0 → s.worker = .closed ∧ s.standardOutput = s.sent
  /-- `main` does not end before the worker closes, unless one of its own calls fails. -/
  waits : ∀ events s, (system buffers).Reaches (initial standardInput) events s →
    s.main.ended = true → s.worker = .closed ∨ .mainFails ∈ events
  /-- Whatever becomes of the other direction, it goes on writing what the worker sends. -/
  relays : ∀ run : (system buffers).Run (initial standardInput), MainRuns run →
    ∀ t, ∃ u ≥ t, (run.state t).sent <+: (run.state u).standardOutput
  /-- And it returns 0 after the worker has closed. -/
  returns : ∀ run : (system buffers).Run (initial standardInput), MainRuns run →
    ∀ t, (run.state t).worker = .closed → ∃ u ≥ t, (run.state u).main = .returned 0

theorem reached_received (h : (system buffers).Reaches (initial standardInput) events s) :
    s.received <+: standardInput :=
  (h.always inputOrder_initial (fun _ _ henabled order => order.next henabled)).received

theorem reached_unfailed (h : (system buffers).Reaches (initial standardInput) events s)
    (hmain : .mainFails ∉ events) (hinput : .inputFails ∉ events) : Unfailed standardInput s := by
  refine h.invariant (fun e => e ≠ .mainFails ∧ e ≠ .inputFails) .initial
    (fun _ _ hfails henabled unfailed => unfailed.next hfails henabled) ?_
  intro e he
  constructor
  · rintro rfl
    exact hmain he
  · rintro rfl
    exact hinput he

theorem reached_order (h : (system buffers).Reaches (initial standardInput) events s) :
    s.OutputOrder :=
  h.always outputOrder_initial (fun _ _ henabled order => order.next henabled)

theorem reached_waits (h : (system buffers).Reaches (initial standardInput) events s)
    (hended : s.main.ended = true) : s.worker = .closed ∨ .mainFails ∈ events := by
  by_cases hfails : .mainFails ∈ events
  · exact Or.inr hfails
  have hreturns : s.MainReturns := by
    refine h.invariant (· ≠ .mainFails) (fun h => by cases h)
      (fun _ _ hother _ returns => returns.next hother) ?_
    intro e he
    rintro rfl
    exact hfails he
  exact Or.inl ((reached_order h).returned (hreturns hended)).1

/-- Both streams are relayed in order and without loss, for every standard input and all sizes of
the socket's buffers. -/
theorem session_relay_preserves (buffers : SocketBuffers) (standardInput : Bytes) :
    StreamsPreserved buffers standardInput where
  received _ _ h := reached_received h
  complete _ _ h hmain hinput hseen := (reached_unfailed h hmain hinput).received hseen
  delivered _ runs inputRuns reads := reads.delivered runs inputRuns
  written _ _ h hreturned := (reached_order h).returned hreturned
  waits _ _ h hended := reached_waits h hended
  relays _ runs t := runs.writes t
  returns _ runs _ hclosed := runs.returns_after hclosed

/-- A socket that holds two bytes in each direction. -/
def narrowBuffers : SocketBuffers := ⟨2, 2, by decide⟩

/-- Three bytes go to a worker that answers with two, in parts. -/
def answerEvents : List RelayEvent :=
  [.connect, .start, .read 3, .send 2, .workerReceives 1, .send 1, .workerReceives 2, .readEnd,
    .shutdown, .workerReceivesEnd, .workerSends [8, 9], .receive 2, .write 1, .workerCloses,
    .write 1, .receiveEnd]

theorem answerEvents_follow : (system narrowBuffers).Follows (initial [1, 2, 3]) answerEvents := by
  decide

/-- Nothing is left to do after them. -/
theorem answerEvents_quiet {e : RelayEvent} (turn : RelayTurn) (hturn : e.turn = some turn) :
    ¬(system narrowBuffers).enabled (answerEvents.foldl next (initial [1, 2, 3])) e := by
  intro h
  have hview : (answerEvents.foldl next (initial [1, 2, 3])).main.view = [] := by decide
  have hchunk : (answerEvents.foldl next (initial [1, 2, 3])).input.chunk = [] := by decide
  cases e with
  | write n =>
    obtain ⟨hpos, hle⟩ := h
    rw [hview] at hle
    exact absurd (hpos.trans hle) (Nat.not_succ_le_zero 0)
  | send n =>
    obtain ⟨-, hpos, hle, -⟩ := h
    rw [hchunk] at hle
    exact absurd (hpos.trans hle) (Nat.not_succ_le_zero 0)
  | mainFails | inputFails | workerSends bytes | workerCloses => cases hturn
  | connect | start | shutdown => cases h
  | _ => cases h.1

theorem session_relay_preserves_answer :
    ∃ run : (system narrowBuffers).Run (initial [1, 2, 3]),
      MainRuns run ∧ InputRuns run ∧ WorkerReads run ∧
        (∃ t, (run.state t).received = [1, 2, 3] ∧ (run.state t).sawEnd = true) ∧
        ∃ t, (run.state t).main = .returned 0 ∧ (run.state t).standardOutput = [8, 9] := by
  let run := EventSystem.Run.ofEvents answerEvents_follow
  have preserves := session_relay_preserves narrowBuffers [1, 2, 3]
  have hfair (turn : RelayTurn) : run.Fair (fun e => e.turn = some turn) :=
    EventSystem.Run.ofEvents_fair answerEvents_follow (fun _ => answerEvents_quiet turn)
  have runs : MainRuns run :=
    ⟨hfair .main, fun t hevent => absurd (List.mem_of_getElem? hevent) (by decide)⟩
  have inputRuns : InputRuns run :=
    ⟨hfair .input, fun t hevent => absurd (List.mem_of_getElem? hevent) (by decide)⟩
  have reads : WorkerReads run := by
    refine ⟨hfair .reader, ?_⟩
    have hseen : ∀ t < answerEvents.length, answerEvents[t]? = some .workerCloses →
        ((answerEvents.take t).foldl next (initial [1, 2, 3])).sawEnd = true := by decide
    intro t hevent
    exact hseen t (List.getElem?_eq_some_iff.mp hevent).1 hevent
  refine ⟨run, runs, inputRuns, reads, preserves.delivered run runs inputRuns reads, ?_⟩
  obtain ⟨t, ht, hreturned⟩ := preserves.returns run runs 14 (by decide)
  refine ⟨t, hreturned, (preserves.written _ _ (run.reaches t) hreturned).2.trans ?_⟩
  exact (closed_stays run ht (by decide)).2.trans (by decide)

end SessionRelay

end ConferWorker
