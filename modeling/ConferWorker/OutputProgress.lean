import ConferWorker.RelayedStreams

/-! What `main` of `confer-document-session` does in every run in which it is scheduled and none of
its calls fails: it writes what the worker sends, and returns 0 once the worker has closed. The
other thread plays no part in it. -/
namespace ConferWorker

namespace SessionRelay

variable {buffers : SocketBuffers} {s : SessionRelay} {e : RelayEvent} {standardInput : Bytes}

/-- The steps of `main` before it waits in `recv`, and that one. -/
def outputStage : RelayMain → ℕ
  | .connecting => 3
  | .starting => 2
  | .receiving => 1
  | .writing _ | .returned _ | .raised => 0

/-- How far `main` is from having written so many bytes. -/
def outputRank (count : ℕ) (s : SessionRelay) : ℕ :=
  2*(count-s.standardOutput.length)+outputStage s.main

theorem outputStage_write_le (view : Bytes) : outputStage (.write view) ≤ 1 := by
  unfold RelayMain.write
  split_ifs
  · exact le_rfl
  · exact Nat.zero_le 1

/-- Every step of `main` brings it nearer. -/
theorem outputRank_main {count : ℕ} (h : s.Enabled buffers e) (hturn : e.turn = some .main)
    (hview : s.main.view ≠ [] → s.standardOutput.length < count) :
    outputRank count (s.next e) < outputRank count s := by
  unfold outputRank
  cases e with
  | connect | start =>
    rw [show s.main = _ from h]
    exact Nat.lt_succ_self _
  | receive n =>
    obtain ⟨hmain, hpos, -, hle⟩ := h
    have hchunk : s.toSession.take n ≠ [] := by
      apply List.ne_nil_of_length_pos
      rw [List.length_take_of_le hle]
      exact hpos
    show 2*(count-s.standardOutput.length)+outputStage (.write (s.toSession.take n)) < _
    rw [RelayMain.write, if_neg hchunk, hmain]
    exact Nat.lt_succ_self _
  | receiveEnd =>
    rw [h.1]
    exact Nat.lt_succ_self _
  | write n =>
    obtain ⟨hpos, hle⟩ := h
    have hlt := hview (List.ne_nil_of_length_pos (hpos.trans hle))
    have hstage := outputStage_write_le (s.main.view.drop n)
    show 2*(count-(s.standardOutput++s.main.view.take n).length)
      +outputStage (.write (s.main.view.drop n)) < _
    rw [List.length_append, List.length_take_of_le hle]
    omega
  | _ => cases hturn

/-- No other step puts it back. -/
theorem outputRank_other (count : ℕ) (hturn : e.turn ≠ some .main) (hfails : e ≠ .mainFails) :
    outputRank count (s.next e) = outputRank count s := by
  cases e with
  | connect | start | receive n | receiveEnd | write n => exact absurd rfl hturn
  | mainFails => exact absurd rfl hfails
  | _ => rfl

/-- `main` waits only for the worker. -/
theorem main_enabled (order : s.OutputOrder) (hended : s.main.ended = false)
    (hready : s.main = .receiving → s.toSession ≠ [] ∨ s.worker = .closed) :
    ∃ e : RelayEvent, e.turn = some .main ∧ s.Enabled buffers e := by
  cases hmain : s.main with
  | connecting => exact ⟨.connect, rfl, hmain⟩
  | starting => exact ⟨.start, rfl, hmain⟩
  | receiving =>
    by_cases hempty : s.toSession = []
    · have hclosed := (hready hmain).resolve_left (not_not_intro hempty)
      exact ⟨.receiveEnd, rfl, hmain, hempty, hclosed⟩
    · exact ⟨.receive 1, rfl, hmain, le_rfl, by decide, List.length_pos_of_ne_nil hempty⟩
  | writing view =>
    refine ⟨.write 1, rfl, le_rfl, ?_⟩
    rw [hmain]
    apply List.length_pos_of_ne_nil
    intro hview
    exact order.viewed (by rw [hmain]; exact congrArg RelayMain.writing hview)
  | returned code | raised =>
    rw [hmain] at hended
    cases hended

variable (run : (system buffers).Run (initial standardInput))

/-- `main` is scheduled, and none of its calls fails. -/
structure MainRuns : Prop where
  fair : run.Fair (fun e => e.turn = some .main)
  succeeds : ∀ t, run.event t ≠ some .mainFails

theorem outputOrder_at (t : ℕ) : (run.state t).OutputOrder :=
  (run.reaches t).always outputOrder_initial (fun _ _ h order => order.next h)

variable {run}

/-- What the worker sent stays sent. -/
theorem sent_grows (run : (system buffers).Run (initial standardInput)) {t u : ℕ} (htu : t ≤ u) :
    (run.state t).sent <+: (run.state u).sent := by
  refine run.persists (fun s => (run.state t).sent <+: s.sent) ?_ htu List.prefix_rfl
  intro s e _ hinitial
  cases e with
  | workerSends bytes => exact hinitial.trans (List.prefix_append _ _)
  | _ => exact hinitial

/-- After the worker has closed, nothing more is sent. -/
theorem closed_stays (run : (system buffers).Run (initial standardInput)) {t u : ℕ} (htu : t ≤ u)
    (hclosed : (run.state t).worker = .closed) :
    (run.state u).worker = .closed ∧ (run.state u).sent = (run.state t).sent := by
  have hstays := run.persists
    (fun s => s.OutputOrder ∧ s.worker = .closed ∧ s.sent = (run.state t).sent) ?_ htu
    ⟨outputOrder_at run t, hclosed, rfl⟩
  · exact hstays.2
  · rintro s e h ⟨order, hworker, hsent⟩
    refine ⟨order.next h, ?_⟩
    cases e with
    | connect => cases hworker.symm.trans (order.connecting h)
    | workerSends bytes => cases hworker.symm.trans h.1
    | workerCloses => exact ⟨rfl, hsent⟩
    | _ => exact ⟨hworker, hsent⟩

namespace MainRuns

variable (runs : MainRuns run)

include runs

theorem returns (t : ℕ) : (run.state t).MainReturns := by
  refine (run.reaches t).invariant (· ≠ .mainFails) (fun h => by cases h)
    (fun _ _ hfails _ returns => returns.next hfails) ?_
  intro e he hfails
  obtain ⟨u, -, hevent⟩ := run.mem_before.mp he
  rw [hfails] at hevent
  exact runs.succeeds u hevent

theorem rank_other (count : ℕ) {t : ℕ} {e : RelayEvent} (hevent : run.event t = some e)
    (hturn : e.turn ≠ some .main) :
    outputRank count ((run.state t).next e) = outputRank count (run.state t) := by
  apply outputRank_other count hturn
  intro hfails
  rw [hfails] at hevent
  exact runs.succeeds t hevent

/-- `main` ends only after it has written everything. -/
theorem ended_all {t : ℕ} (hended : (run.state t).main.ended = true) :
    (run.state t).main = .returned 0 ∧ (run.state t).standardOutput = (run.state t).sent :=
  have hreturned := runs.returns t hended
  ⟨hreturned, ((outputOrder_at run t).returned hreturned).2⟩

/-- Whatever the worker sends is written, whatever becomes of the other thread. -/
theorem writes (t : ℕ) : ∃ u ≥ t, (run.state t).sent <+: (run.state u).standardOutput := by
  let count := (run.state t).sent.length
  obtain ⟨u, hu, hwritten⟩ := run.eventually_of_fair
    (fun s => count ≤ s.standardOutput.length) (outputRank count) t runs.fair
    (by
      intro u hu hgoal
      have order := outputOrder_at run u
      have hmore : (run.state u).standardOutput ≠ (run.state u).sent := by
        intro heq
        rw [heq] at hgoal
        exact hgoal (sent_grows run hu).length_le
      apply main_enabled order
      · by_contra hended
        exact hmore (runs.ended_all (Bool.eq_true_of_not_eq_false hended)).2
      · intro hmain
        refine Or.inl (fun hempty => hmore ?_)
        have hflows := order.flows (by rw [hmain]; rfl)
        rw [hmain, hempty, List.append_nil] at hflows
        exact (List.append_nil _).symm.trans hflows)
    (fun u _ e hevent hgoal hturn => outputRank_main (run.steps u e hevent).1 hturn
      (fun _ => not_le.mp hgoal))
    (fun u _ e hevent _ hturn => runs.rank_other count hevent hturn)
  exact ⟨u, hu, List.prefix_of_prefix_length_le (sent_grows run hu) (outputOrder_at run u).writes
    hwritten⟩

/-- Once the worker has closed, `main` returns 0. -/
theorem returns_after {t : ℕ} (hclosed : (run.state t).worker = .closed) :
    ∃ u ≥ t, (run.state u).main = .returned 0 := by
  let count := (run.state t).sent.length
  apply run.eventually_of_fair (fun s => s.main = .returned 0) (outputRank count) t runs.fair
  · intro u hu hgoal
    apply main_enabled (outputOrder_at run u)
    · by_contra hended
      exact hgoal (runs.returns u (Bool.eq_true_of_not_eq_false hended))
    · exact fun _ => Or.inr (closed_stays run hu hclosed).1
  · intro u hu e hevent _ hturn
    apply outputRank_main (run.steps u e hevent).1 hturn
    intro hview
    have hflows := (outputOrder_at run u).flows (by rw [RelayMain.writing_of_view hview]; rfl)
    have hlength := congrArg List.length hflows
    rw [List.length_append, List.length_append, (closed_stays run hu hclosed).2] at hlength
    have hpos := List.length_pos_of_ne_nil hview
    show (run.state u).standardOutput.length < (run.state t).sent.length
    omega
  · exact fun u _ e hevent _ hturn => runs.rank_other count hevent hturn

end MainRuns

end SessionRelay

end ConferWorker
