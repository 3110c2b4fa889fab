import ConferWorker.SessionRelay

/-! What holds in every state of `confer-document-session`: both streams go on in order and without
loss, and `main` waits for the worker process. -/
namespace ConferWorker

namespace SessionRelay

variable {buffers : SocketBuffers} {s : SessionRelay} {e : RelayEvent} {standardInput : Bytes}

section Input

/-- Before `relay_input` starts there is no thread. -/
def InputWaits (s : SessionRelay) : Prop := s.main.begun = false → s.input = .unstarted

theorem InputWaits.start (waits : s.InputWaits) (h : s.Enabled buffers .start) :
    s.input = .unstarted := by
  apply waits
  rw [show s.main = .starting from h]
  rfl

/-- Something is left of the chunk. -/
theorem sending_of_send {n : ℕ} (h : s.Enabled buffers (.send n)) :
    s.input = .sending s.input.chunk :=
  RelayInput.sending_of_chunk (List.ne_nil_of_length_pos (h.2.1.trans h.2.2.1))

/-- The thread takes no turn before it was started, and none of its calls fails. -/
theorem input_started (h : s.Enabled buffers e)
    (hinput : e.turn = some .input ∨ e = .inputFails) : s.input ≠ .unstarted := by
  intro hin
  cases e with
  | read n | readEnd =>
    have hreading : s.input = .reading := h.1
    cases hreading.symm.trans hin
  | send n => cases (sending_of_send h).symm.trans hin
  | inputFails =>
    rcases h with hreading | hchunk
    · cases hreading.symm.trans hin
    · cases (RelayInput.sending_of_chunk hchunk).symm.trans hin
  | shutdown =>
    have hclosing : s.input = .closing := h
    cases hclosing.symm.trans hin
  | _ => rcases hinput with hturn | hfails <;> simp [RelayEvent.turn] at *

theorem InputWaits.next (h : s.Enabled buffers e) (waits : s.InputWaits) :
    (s.next e).InputWaits := by
  cases e with
  | connect =>
    intro _
    exact waits (by rw [show s.main = .connecting from h]; rfl)
  | start | receiveEnd => exact fun hbegun => by cases hbegun
  | receive n | write n =>
    intro hbegun
    rw [SessionRelay.next, RelayMain.write_begun] at hbegun
    cases hbegun
  | mainFails =>
    intro hbegun
    rw [SessionRelay.next, RelayMain.failed_begun] at hbegun
    cases hbegun
  | read n | readEnd | send n | shutdown =>
    exact fun hbegun => absurd (waits hbegun) (input_started h (Or.inl rfl))
  | inputFails => exact fun hbegun => absurd (waits hbegun) (input_started h (Or.inr rfl))
  | workerReceives n | workerReceivesEnd | workerSends bytes | workerCloses => exact waits

/-- What was read from the standard input and neither dropped nor lost. -/
def carried (s : SessionRelay) : Bytes := s.received++s.toWorker++s.input.chunk

/-- No event but a failure loses, repeats or reorders a byte. -/
theorem carried_next (h : s.Enabled buffers e) (waits : s.InputWaits) (hfails : e ≠ .inputFails) :
    (s.next e).carried++(s.next e).standardInput = s.carried++s.standardInput := by
  cases e with
  | start =>
    rw [carried, carried, waits.start h]
    rfl
  | read n =>
    rw [carried, carried, show s.input = .reading from h.1]
    show s.received++s.toWorker++(RelayInput.send (s.standardInput.take n)).chunk
      ++s.standardInput.drop n = s.received++s.toWorker++[]++s.standardInput
    rw [RelayInput.send_chunk, List.append_nil, List.append_assoc _ (List.take n _),
      List.take_append_drop]
  | readEnd =>
    rw [carried, carried, show s.input = .reading from h.1]
    rfl
  | send n =>
    show s.received++(s.toWorker++s.input.chunk.take n)
      ++(RelayInput.send (s.input.chunk.drop n)).chunk++s.standardInput = _
    rw [RelayInput.send_chunk, carried]
    congr 1
    rw [List.append_assoc, List.append_assoc s.toWorker, List.take_append_drop, List.append_assoc]
  | inputFails => exact absurd rfl hfails
  | shutdown =>
    rw [carried, carried, show s.input = .closing from h]
    rfl
  | workerReceives n =>
    show s.received++s.toWorker.take n++s.toWorker.drop n++s.input.chunk++s.standardInput = _
    rw [List.append_assoc s.received, List.take_append_drop]
    rfl
  | _ => rfl

/-- After the `try` block of `relay_input`, nothing more is sent. -/
theorem carried_next_dropped (h : s.Enabled buffers e) (waits : s.InputWaits)
    (hlost : s.input.relaying = false ∨ e = .inputFails) : (s.next e).carried <+: s.carried := by
  by_cases hfails : e = .inputFails
  · subst hfails
    show s.received++s.toWorker++[] <+: _
    rw [List.append_nil]
    exact List.prefix_append _ _
  have hrelaying := hlost.resolve_right hfails
  cases e with
  | start =>
    rw [waits.start h] at hrelaying
    cases hrelaying
  | read n | readEnd =>
    rw [show s.input = .reading from h.1] at hrelaying
    cases hrelaying
  | send n =>
    rw [sending_of_send h] at hrelaying
    cases hrelaying
  | inputFails => exact absurd rfl hfails
  | shutdown =>
    rw [carried, carried, show s.input = .closing from h]
    exact List.prefix_rfl
  | workerReceives n =>
    show s.received++s.toWorker.take n++s.toWorker.drop n++s.input.chunk <+: _
    rw [List.append_assoc s.received, List.take_append_drop]
    exact List.prefix_rfl
  | _ => exact List.prefix_rfl

/-- What the worker received and may still receive are first bytes of the standard input. -/
structure InputOrder (standardInput : Bytes) (s : SessionRelay) : Prop where
  waits : s.InputWaits
  carried : s.carried <+: standardInput
  relaying : s.input.relaying = true → s.carried++s.standardInput = standardInput

theorem relaying_of_next (h : s.Enabled buffers e) (waits : s.InputWaits)
    (hrelaying : (s.next e).input.relaying = true) : s.input.relaying = true := by
  cases e with
  | start =>
    rw [waits.start h]
    rfl
  | read n =>
    rw [show s.input = .reading from h.1]
    rfl
  | send n =>
    rw [sending_of_send h]
    rfl
  | readEnd | inputFails | shutdown => cases hrelaying
  | _ => exact hrelaying

theorem inputOrder_initial : InputOrder standardInput (initial standardInput) where
  waits _ := rfl
  carried := List.nil_prefix
  relaying _ := rfl

theorem InputOrder.next (h : s.Enabled buffers e) (order : InputOrder standardInput s) :
    InputOrder standardInput (s.next e) := by
  have hmoves (hfails : e ≠ .inputFails) (hrelaying : s.input.relaying = true) :
      (s.next e).carried++(s.next e).standardInput = standardInput :=
    (carried_next h order.waits hfails).trans (order.relaying hrelaying)
  refine ⟨order.waits.next h, ?_, ?_⟩
  · by_cases hlost : s.input.relaying = false ∨ e = .inputFails
    · exact (carried_next_dropped h order.waits hlost).trans order.carried
    · push Not at hlost
      rw [← hmoves hlost.2 (Bool.eq_true_of_not_eq_false hlost.1)]
      exact List.prefix_append _ _
  · intro hrelaying
    refine hmoves ?_ (relaying_of_next h order.waits hrelaying)
    intro hfails
    rw [hfails] at hrelaying
    cases hrelaying

/-- The received bytes are first bytes of the standard input. -/
theorem InputOrder.received (order : InputOrder standardInput s) :
    s.received <+: standardInput := by
  have hreceived : s.received <+: s.carried := by
    rw [SessionRelay.carried, List.append_assoc]
    exact List.prefix_append _ _
  exact hreceived.trans order.carried

/-- Without a failure, the thread ends after it has sent everything. -/
structure InputComplete (standardInput : Bytes) (s : SessionRelay) : Prop where
  waits : s.InputWaits
  complete : s.carried++s.standardInput = standardInput
  drained : s.input.relaying = false → s.standardInput = []

theorem inputComplete_initial : InputComplete standardInput (initial standardInput) where
  waits _ := rfl
  complete := rfl
  drained h := by cases h

theorem InputComplete.next (hfails : e ≠ .inputFails) (h : s.Enabled buffers e)
    (complete : InputComplete standardInput s) : InputComplete standardInput (s.next e) := by
  refine ⟨complete.waits.next h,
    (carried_next h complete.waits hfails).trans complete.complete, ?_⟩
  intro hrelaying
  cases e with
  | start => cases hrelaying
  | read n | send n =>
    rw [SessionRelay.next, RelayInput.send_relaying] at hrelaying
    cases hrelaying
  | readEnd => exact h.2
  | inputFails => exact absurd rfl hfails
  | shutdown => exact complete.drained (by rw [show s.input = .closing from h]; rfl)
  | _ => exact complete.drained hrelaying

end Input

section Output

/-- What `main` wrote, is writing and can still receive is what the worker sent. -/
structure OutputOrder (s : SessionRelay) : Prop where
  connecting : s.main = .connecting → s.worker = .absent
  flows : s.main.ended = false → s.standardOutput++s.main.view++s.toSession = s.sent
  writes : s.standardOutput <+: s.sent
  viewed : s.main ≠ .writing []
  returned : s.main = .returned 0 → s.worker = .closed ∧ s.standardOutput = s.sent

theorem outputOrder_initial : (initial standardInput).OutputOrder where
  connecting _ := rfl
  flows _ := rfl
  writes := List.nil_prefix
  viewed h := by cases h
  returned h := by cases h

/-- In the loop over `view`. -/
theorem writing_of_write {n : ℕ} (h : s.Enabled buffers (.write n)) :
    s.main = .writing s.main.view :=
  RelayMain.writing_of_view (List.ne_nil_of_length_pos (h.1.trans h.2))

/-- At the top of one of the two loops. -/
theorem outputOrder_of_write {view : Bytes} (hmain : s.main = .write view)
    (hwrites : s.standardOutput <+: s.sent)
    (hflows : s.standardOutput++view++s.toSession = s.sent) : s.OutputOrder where
  connecting h := absurd (hmain.symm.trans h) (RelayMain.write_ne_connecting view)
  flows _ := by
    rw [hmain, RelayMain.write_view]
    exact hflows
  writes := hwrites
  viewed h := absurd (hmain.symm.trans h) (RelayMain.write_ne_nil view)
  returned h := absurd (hmain.symm.trans h) (RelayMain.write_ne_returned view 0)

/-- After an error there is no view, and no return of 0. -/
theorem outputOrder_of_failed {main : RelayMain} (hmain : s.main = main.failed)
    (hwrites : s.standardOutput <+: s.sent) : s.OutputOrder := by
  have hended : s.main.ended = true := by
    rw [hmain]
    exact RelayMain.failed_ended main
  refine ⟨?_, ?_, hwrites, ?_, fun h => absurd (hmain.symm.trans h) (RelayMain.failed_ne main)⟩
  · intro hconnecting
    rw [hconnecting] at hended
    cases hended
  · intro hopen
    cases hopen.symm.trans hended
  · intro hviewed
    rw [hviewed] at hended
    cases hended

namespace OutputOrder

variable (order : s.OutputOrder)

include order

/-- `main` takes a chunk out of the socket. -/
theorem receive {n : ℕ} (h : s.Enabled buffers (.receive n)) :
    (s.next (.receive n)).OutputOrder := by
  have hmain : s.main = .receiving := h.1
  have hflows := order.flows (by rw [hmain]; rfl)
  rw [hmain] at hflows
  have hnext : s.standardOutput++s.toSession.take n++s.toSession.drop n = s.sent := by
    rw [List.append_assoc, List.take_append_drop, ← hflows]
    exact congrArg (·++s.toSession) (List.append_nil _).symm
  refine outputOrder_of_write rfl ?_ hnext
  exact order.writes

/-- It writes a part of the chunk. -/
theorem write {n : ℕ} (h : s.Enabled buffers (.write n)) : (s.next (.write n)).OutputOrder := by
  have hflows := order.flows (by rw [writing_of_write h]; rfl)
  have hnext : s.standardOutput++s.main.view.take n++s.main.view.drop n++s.toSession = s.sent := by
    rw [List.append_assoc s.standardOutput, List.take_append_drop, hflows]
  refine outputOrder_of_write rfl ?_ hnext
  show s.standardOutput++s.main.view.take n <+: s.sent
  rw [← hnext, List.append_assoc]
  exact List.prefix_append _ _

/-- It returns 0 when nothing is left in the socket. -/
theorem receiveEnd (h : s.Enabled buffers .receiveEnd) : (s.next .receiveEnd).OutputOrder := by
  obtain ⟨hmain, hempty, hclosed⟩ := h
  have hflows := order.flows (by rw [hmain]; rfl)
  rw [hmain, hempty, List.append_nil] at hflows
  have hall : s.standardOutput = s.sent := (List.append_nil _).symm.trans hflows
  refine ⟨?_, ?_, order.writes, ?_, fun _ => ⟨hclosed, hall⟩⟩ <;> exact fun h => by cases h

theorem next (h : s.Enabled buffers e) : (s.next e).OutputOrder := by
  cases e with
  | connect | start =>
    have hmain : s.main = _ := h
    have hflows := order.flows (by rw [hmain]; rfl)
    rw [hmain] at hflows
    refine ⟨?_, fun _ => hflows, order.writes, ?_, ?_⟩ <;> exact fun h => by cases h
  | receive n => exact order.receive h
  | receiveEnd => exact order.receiveEnd h
  | write n => exact order.write h
  | mainFails => exact outputOrder_of_failed rfl order.writes
  | workerSends bytes =>
    refine ⟨order.connecting, ?_, order.writes.trans (List.prefix_append _ _), order.viewed, ?_⟩
    · intro hended
      show s.standardOutput++s.main.view++(s.toSession++bytes) = s.sent++bytes
      rw [← List.append_assoc, order.flows hended]
    · intro hreturned
      cases h.1.symm.trans (order.returned hreturned).1
  | workerCloses =>
    have hserving : s.worker = .serving := h
    refine ⟨?_, order.flows, order.writes, order.viewed, ?_⟩
    · intro hconnecting
      cases hserving.symm.trans (order.connecting hconnecting)
    · intro hreturned
      exact ⟨rfl, (order.returned hreturned).2⟩
  | _ => exact ⟨order.connecting, order.flows, order.writes, order.viewed, order.returned⟩

end OutputOrder

/-- Unless one of its own calls fails, `main` ends by returning 0. -/
def MainReturns (s : SessionRelay) : Prop := s.main.ended = true → s.main = .returned 0

theorem MainReturns.next (hfails : e ≠ .mainFails) (returns : s.MainReturns) :
    (s.next e).MainReturns := by
  cases e with
  | receive n | write n =>
    intro hended
    rw [SessionRelay.next, RelayMain.write_ended] at hended
    cases hended
  | connect | start => exact fun hended => by cases hended
  | receiveEnd => exact fun _ => rfl
  | mainFails => exact absurd rfl hfails
  | _ => exact returns

end Output

section Ended

/-- The thread ends once. -/
theorem ended_next (h : s.Enabled buffers e) (waits : s.InputWaits) (hended : s.input = .ended) :
    (s.next e).input = .ended := by
  cases e with
  | start => cases (waits.start h).symm.trans hended
  | read n | readEnd =>
    have hreading : s.input = .reading := h.1
    cases hreading.symm.trans hended
  | send n => cases (sending_of_send h).symm.trans hended
  | inputFails =>
    rcases h with hreading | hchunk
    · cases hreading.symm.trans hended
    · cases (RelayInput.sending_of_chunk hchunk).symm.trans hended
  | shutdown => rfl
  | _ => exact hended

/-- It ends with the call of `shutdown`. -/
theorem ended_of_next (hended : (s.next e).input = .ended) : e = .shutdown ∨ s.input = .ended := by
  cases e with
  | start | readEnd | inputFails => cases hended
  | read n | send n => exact absurd hended (RelayInput.ne_of_relaying (RelayInput.send_relaying _))
  | shutdown => exact Or.inl rfl
  | _ => exact Or.inr hended

/-- The thread runs once `main` goes on. -/
theorem started_next (h : s.Enabled buffers e) (hfails : e ≠ .mainFails)
    (started : s.main.begun = true → s.input ≠ .unstarted) (hbegun : (s.next e).main.begun = true) :
    (s.next e).input ≠ .unstarted := by
  cases e with
  | connect => cases hbegun
  | start | readEnd | inputFails | shutdown => exact fun hin => by cases hin
  | receive n | receiveEnd => exact started (by rw [show s.main = .receiving from h.1]; rfl)
  | write n => exact started (by rw [writing_of_write h]; rfl)
  | mainFails => exact absurd rfl hfails
  | read n | send n => exact RelayInput.send_ne_unstarted _
  | _ => exact started hbegun

theorem chunked_next (chunked : s.input ≠ .sending []) : (s.next e).input ≠ .sending [] := by
  cases e with
  | start | readEnd | inputFails | shutdown => exact fun hin => by cases hin
  | read n | send n => exact RelayInput.send_ne_nil _
  | _ => exact chunked

/-- The worker serves from the connection on. -/
theorem served_next (h : s.Enabled buffers e) (hfails : e ≠ .mainFails)
    (served : s.worker = .absent → s.main = .connecting) (habsent : (s.next e).worker = .absent) :
    (s.next e).main = .connecting := by
  cases e with
  | connect | workerCloses => cases habsent
  | start =>
    have hmain : s.main = .starting := h
    cases hmain.symm.trans (served habsent)
  | receive n | receiveEnd =>
    have hmain : s.main = .receiving := h.1
    cases hmain.symm.trans (served habsent)
  | write n => cases (writing_of_write h).symm.trans (served habsent)
  | mainFails => exact absurd rfl hfails
  | _ => exact served habsent

end Ended

section Unfailed

/-- No call of the two threads failed. -/
structure Unfailed (standardInput : Bytes) (s : SessionRelay) : Prop where
  complete : InputComplete standardInput s
  output : s.OutputOrder
  returns : s.MainReturns
  served : s.worker = .absent → s.main = .connecting
  started : s.main.begun = true → s.input ≠ .unstarted
  chunked : s.input ≠ .sending []
  shut : s.shutdown = true → s.input = .ended
  shuts : s.input = .ended → s.shutdown = true ∨ s.worker = .closed
  seen : s.sawEnd = true → s.toWorker = [] ∧ s.input = .ended

namespace Unfailed

theorem initial : Unfailed standardInput (initial standardInput) where
  complete := inputComplete_initial
  output := outputOrder_initial
  returns h := by cases h
  served _ := rfl
  started h := by cases h
  chunked h := by cases h
  shut h := by cases h
  shuts h := by cases h
  seen h := by cases h

variable (unfailed : Unfailed standardInput s)

include unfailed

/-- When `main` is no longer in its `with` block, it has returned and the worker is closed. -/
theorem connected_or_closed (hconnecting : s.main ≠ .connecting) :
    s.main.connected = true ∨ s.worker = .closed := by
  cases hended : s.main.ended with
  | false => exact Or.inl (RelayMain.connected_of_not_ended hconnecting hended)
  | true => exact Or.inr (unfailed.output.returned (unfailed.returns hended)).1

/-- As long as the worker serves, the connection is open. -/
theorem connected (hserving : s.worker = .serving) : s.main.connected = true := by
  have hopen : s.worker ≠ .closed := by
    intro hclosed
    cases hserving.symm.trans hclosed
  apply (unfailed.connected_or_closed ?_).resolve_right hopen
  intro hconnecting
  cases hserving.symm.trans (unfailed.output.connecting hconnecting)

/-- The worker sees the end of the stream only after all of the standard input. -/
theorem received (hseen : s.sawEnd = true) : s.received = standardInput := by
  obtain ⟨hempty, hended⟩ := unfailed.seen hseen
  have hdrained := unfailed.complete.drained (by rw [hended]; rfl)
  have hcomplete := unfailed.complete.complete
  rw [carried, hempty, hended, hdrained] at hcomplete
  simpa only [RelayInput.chunk, List.append_nil] using hcomplete

theorem shut_next (h : s.Enabled buffers e) (hshut : (s.next e).shutdown = true) :
    (s.next e).input = .ended := by
  cases e with
  | shutdown => rfl
  | _ => exact ended_next h unfailed.complete.waits (unfailed.shut hshut)

theorem shuts_next (h : s.Enabled buffers e) (hended : (s.next e).input = .ended) :
    (s.next e).shutdown = true ∨ (s.next e).worker = .closed := by
  rcases ended_of_next hended with rfl | hbefore
  · have hclosing : s.input = .closing := h
    have hconnecting : s.main ≠ .connecting := by
      intro hmain
      rw [unfailed.complete.waits (by rw [hmain]; rfl)] at hclosing
      cases hclosing
    refine (unfailed.connected_or_closed hconnecting).imp_left ?_
    intro hconnected
    exact Bool.or_eq_true_iff.mpr (Or.inr hconnected)
  · have hshuts := unfailed.shuts hbefore
    cases e with
    | connect =>
      rw [unfailed.complete.waits (by rw [show s.main = .connecting from h]; rfl)] at hbefore
      cases hbefore
    | shutdown => exact hshuts.imp_left (fun hshut => by rw [SessionRelay.next, hshut]; rfl)
    | workerCloses => exact Or.inr rfl
    | _ => exact hshuts

theorem seen_next (h : s.Enabled buffers e) (hseen : (s.next e).sawEnd = true) :
    (s.next e).toWorker = [] ∧ (s.next e).input = .ended := by
  have hkept (hbefore : s.sawEnd = true) : (s.next e).input = .ended :=
    ended_next h unfailed.complete.waits (unfailed.seen hbefore).2
  cases e with
  | send n => cases (sending_of_send h).symm.trans (unfailed.seen hseen).2
  | workerReceives n =>
    refine ⟨?_, hkept hseen⟩
    show s.toWorker.drop n = []
    rw [(unfailed.seen hseen).1, List.drop_nil]
  | workerReceivesEnd =>
    obtain ⟨hserving, hempty, hend⟩ := h
    refine ⟨hempty, unfailed.shut (hend.resolve_right ?_)⟩
    rw [unfailed.connected hserving]
    exact Bool.true_eq_false.mp
  | _ => exact ⟨(unfailed.seen hseen).1, hkept hseen⟩

theorem next (hfails : e ≠ .mainFails ∧ e ≠ .inputFails) (h : s.Enabled buffers e) :
    Unfailed standardInput (s.next e) where
  complete := unfailed.complete.next hfails.2 h
  output := unfailed.output.next h
  returns := unfailed.returns.next hfails.1
  served := served_next h hfails.1 unfailed.served
  chunked := chunked_next unfailed.chunked
  started := started_next h hfails.1 unfailed.started
  shut := unfailed.shut_next h
  shuts := unfailed.shuts_next h
  seen := unfailed.seen_next h

end Unfailed

end Unfailed

end SessionRelay

end ConferWorker
