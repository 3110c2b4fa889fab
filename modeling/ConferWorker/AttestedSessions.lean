import ConferWorker.AttestationAnswers
import ConferWorker.AttestedKeys
import ConferWorker.ReceivedFrames
import ConferWorker.ServedConnections

/-! What a peer gets from the listener on its connection, and what `sshd` is handed: the phases of
`serve` behind the accept, whatever the peer sends and whichever call fails. -/
namespace ConferWorker

namespace Listener

open Script

variable {calls : ConnectionCalls} {deadline : ℚ}

/-- Some bytes were received, before the deadline, and nothing else has changed. -/
structure Receives (deadline : ℚ) (consumed : Bytes) (before after : Session) : Prop where
  machine : after.machine = before.machine
  sshd : after.sshd = before.sshd
  outbox : after.connection.outbox = before.connection.outbox
  inbox : before.connection.inbox = consumed++after.connection.inbox
  waits : ∃ waits, after.connection.waits = before.connection.waits++waits
    ∧ ∀ wait ∈ waits, 0 < wait.2 ∧ wait.1+wait.2 = deadline

theorem receives_nothing (session : Session) : Receives deadline [] session session :=
  ⟨rfl, rfl, rfl, rfl, [], (List.append_nil _).symm, List.forall_mem_nil _⟩

theorem Receives.trans {consumed more : Bytes} {before between after : Session}
    (h : Receives deadline consumed before between) (h' : Receives deadline more between after) :
    Receives deadline (consumed++more) before after := by
  obtain ⟨waits, hwaits, htimed⟩ := h.waits
  obtain ⟨waits', hwaits', htimed'⟩ := h'.waits
  refine ⟨h'.machine.trans h.machine, h'.sshd.trans h.sshd, h'.outbox.trans h.outbox, ?_,
    waits++waits', ?_, ?_⟩
  · rw [h.inbox, h'.inbox, List.append_assoc]
  · rw [hwaits', hwaits, List.append_assoc]
  · exact List.forall_mem_append.mpr ⟨htimed, htimed'⟩

theorem relates_readClock (calls : ConnectionCalls) (deadline : ℚ) :
    Relates (readClock calls) (fun before result after =>
    Receives deadline [] before after
      ∧ result = .ok (calls.monotonic before.connection.readings)) := by
  intro session
  exact ⟨⟨rfl, rfl, rfl, rfl, [], (List.append_nil _).symm, List.forall_mem_nil _⟩, rfl⟩

theorem relates_receiveOutcome (deadline : ℚ) (size : ℕ) (timedOut : ListenerError)
    (outcome : RecvOutcome) :
    Relates (receiveOutcome size timedOut outcome) (fun before result after =>
      ∃ consumed, Receives deadline consumed before after ∧ consumed.length ≤ size
        ∧ ∀ chunk, result = .ok chunk → chunk = consumed) := by
  intro session
  cases outcome with
  | arrived available =>
    refine ⟨session.connection.inbox.take (min available size), ⟨rfl, rfl, rfl, ?_,
      [], (List.append_nil _).symm, List.forall_mem_nil _⟩, ?_, ?_⟩
    · exact (List.take_append_drop _ _).symm
    · exact (List.length_take_le _ _).trans (Nat.min_le_right _ _)
    · intro chunk h
      cases h
      rfl
  | timedOut => exact ⟨[], receives_nothing session, Nat.zero_le _, fun _ h => by cases h⟩
  | failed error => exact ⟨[], receives_nothing session, Nat.zero_le _, fun _ h => by cases h⟩

/-- One `recv` consumes what it returns, and no more than was asked for. -/
theorem relates_receive (size : ℕ) {now remaining : ℚ} (hpositive : 0 < remaining)
    (hdeadline : now+remaining = deadline) (timedOut : ListenerError) :
    Relates (receive calls size now remaining timedOut) (fun before result after =>
      ∃ consumed, Receives deadline consumed before after ∧ consumed.length ≤ size
        ∧ ∀ chunk, result = .ok chunk → chunk = consumed) := by
  intro session
  obtain ⟨consumed, hreceives, hrest⟩ := relates_receiveOutcome deadline size timedOut
    (calls.recv session.connection.receives)
    { session with connection := { session.connection with
      receives := session.connection.receives+1
      waits := session.connection.waits++[(now, remaining)] } }
  have hwaited : Receives deadline [] session { session with connection := { session.connection with
      receives := session.connection.receives+1
      waits := session.connection.waits++[(now, remaining)] } } :=
    ⟨rfl, rfl, rfl, rfl, [(now, remaining)], rfl,
      List.forall_mem_singleton.mpr ⟨hpositive, hdeadline⟩⟩
  exact ⟨consumed, hwaited.trans hreceives, hrest⟩

/-- What was received, and what a loop returns that had received some bytes before. -/
def Completes (deadline : ℚ) (size : ℕ) (received : Bytes) (before : Session)
    (result : Except ListenerError Bytes) (after : Session) : Prop :=
  ∃ consumed, Receives deadline consumed before after ∧ received.length+consumed.length ≤ size
    ∧ ∀ value, result = .ok value → value = received++consumed ∧ value.length = size

theorem completes_raised {size : ℕ} {received : Bytes} (hsize : received.length ≤ size)
    (session : Session) (error : ListenerError) :
    Completes deadline size received session (.error error) session :=
  ⟨[], receives_nothing session, hsize, fun _ h => by cases h⟩

theorem Completes.after {size : ℕ} {received chunk : Bytes} {before between after : Session}
    {result : Except ListenerError Bytes} (hreceives : Receives deadline chunk before between)
    (h : Completes deadline size (received++chunk) between result after) :
    Completes deadline size received before result after := by
  obtain ⟨consumed, hmore, hlength, hvalue⟩ := h
  refine ⟨chunk++consumed, hreceives.trans hmore, ?_, fun value hok => ?_⟩
  · rw [List.length_append] at hlength ⊢
    omega
  · rw [← List.append_assoc]
    exact hvalue value hok

theorem relates_received {size : ℕ} {received : Bytes} (hlength : received.length = size) :
    Relates (pure received : ServeStep Bytes) (Completes deadline size received) := by
  intro session
  refine ⟨[], receives_nothing session, hlength.le, fun value h => ?_⟩
  cases h
  exact ⟨(List.append_nil _).symm, hlength⟩

theorem relates_receiveLoop (size : ℕ) (description : String) (rounds : ℕ) (received : Bytes)
    (hsize : received.length ≤ size) (hrounds : size ≤ received.length+rounds) :
    Relates (receiveLoop calls size deadline description rounds received)
      (Completes deadline size received) := by
  induction rounds generalizing received with
  | zero => exact relates_received (by omega)
  | succ rounds ih =>
    rw [receiveLoop]
    split_ifs with hmore
    · refine relates_bind (Q := fun _ => Completes deadline size received)
        (relates_readClock calls deadline) (fun now => ?_) ?_ ?_
      · -- the timeout is positive, and what arrives is not empty
        refine relates_after_lift (completes_raised hsize) (fun _ hremaining => ?_)
        rw [raiseIf_eq_ok, not_le] at hremaining
        refine relates_bind (Q := fun chunk before result after =>
          (received++chunk).length ≤ size →
            Completes deadline size (received++chunk) before result after)
          (relates_receive (size-received.length) hremaining (add_sub_cancel now deadline) _)
          (fun chunk => ?_) ?_ ?_
        · intro session hchunk
          refine relates_after_lift (R := Completes deadline size (received++chunk))
            (completes_raised hchunk) (fun _ hnonempty => ?_) session
          rw [raiseIf_eq_ok, ← ne_eq, ← List.length_pos_iff] at hnonempty
          apply ih _ hchunk
          rw [List.length_append]
          omega
        · rintro before after error ⟨consumed, hreceives, hlength, -⟩
          exact ⟨consumed, hreceives, by omega, fun _ h => by cases h⟩
        · rintro before between after chunk result ⟨consumed, hreceives, hlength, hchunk⟩ hrest
          obtain rfl := hchunk chunk rfl
          apply Completes.after hreceives
          apply hrest
          rw [List.length_append]
          omega
      · rintro before after error ⟨-, h⟩
        cases h
      · rintro before between after now result ⟨hreceives, -⟩ hrest
        rw [← List.append_nil received] at hrest
        exact hrest.after hreceives
    · exact relates_received (by omega)

theorem relates_readExactBefore (calls : ConnectionCalls) (deadline : ℚ) (size : ℕ)
    (description : String) :
    Relates (readExactBefore calls size deadline description) (Completes deadline size []) :=
  relates_receiveLoop size description size [] (Nat.zero_le _) (by simp)

/-- A request as it was sent: a text, of a size that is allowed. -/
structure IsRequestText (request : Bytes) : Prop where
  not_empty : 0 < request.length
  size : request.length ≤ maxRequestBytes
  text : ∃ text, decodeUtf8 request = some text

/-- What was consumed does not go beyond the frame that it begins. -/
def WithinFrame (consumed : Bytes) : Prop :=
  4 < consumed.length → consumed.length ≤ 4+fromBig (consumed.take 4)
    ∧ fromBig (consumed.take 4) ≤ maxRequestBytes

theorem withinFrame_frame {request : Bytes} (h : IsRequestText request) :
    WithinFrame (frame request) := by
  have hsize := h.size
  have hlength : fromBig (toBig 4 request.length) = request.length := by
    apply fromBig_toBig
    rw [maxRequestBytes] at hsize
    omega
  intro _
  rw [frame, List.take_left' (toBig_length _ _), hlength, List.length_append, toBig_length]
  exact ⟨le_rfl, hsize⟩

/-- What was received for a request, behind some bytes of its frame, and what a request that was
received is. -/
def ReceivesRequest (deadline : ℚ) (received : Bytes) (before : Session)
    (result : Except ListenerError Bytes) (after : Session) : Prop :=
  ∃ consumed, Receives deadline consumed before after
    ∧ WithinFrame (received++consumed)
    ∧ ∀ request, result = .ok request →
      received++consumed = frame request ∧ IsRequestText request

theorem relates_requestBody {encodedLength : Bytes} (hlengthField : encodedLength.length = 4)
    (hsize : 0 < fromBig encodedLength ∧ fromBig encodedLength ≤ maxRequestBytes) :
    Relates (do
      let request ← readExactBefore calls (fromBig encodedLength) deadline "Attestation request"
      Script.lift (raiseIf (decodeUtf8 request = none)
        (.workerError (ofString "Attestation request is not UTF-8")))
      pure request)
      (ReceivesRequest deadline encodedLength) := by
  have hframe {consumed : Bytes} (hlength : consumed.length ≤ fromBig encodedLength) :
      WithinFrame (encodedLength++consumed) := by
    intro _
    rw [List.take_left' hlengthField, List.length_append]
    exact ⟨by omega, hsize.2⟩
  refine relates_bind (Q := fun request before result after => after = before
    ∧ ∀ value, result = .ok value → value = request ∧ ∃ text, decodeUtf8 request = some text)
    (relates_readExactBefore _ _ _ _) (fun request => ?_) ?_ ?_
  · refine relates_after_lift (fun _ _ => ⟨rfl, fun _ h => by cases h⟩) (fun _ htext session => ?_)
    rw [raiseIf_eq_ok] at htext
    refine ⟨rfl, fun value h => ?_⟩
    cases h
    exact ⟨rfl, Option.ne_none_iff_exists'.mp htext⟩
  · rintro before after error ⟨consumed, hreceives, hlength, -⟩
    rw [List.length_nil, Nat.zero_add] at hlength
    exact ⟨consumed, hreceives, hframe hlength, fun _ h => by cases h⟩
  · rintro before between after request result ⟨consumed, hreceives, hlength, hvalue⟩ ⟨rfl, hresult⟩
    rw [List.length_nil, Nat.zero_add] at hlength
    refine ⟨consumed, hreceives, hframe hlength, fun value hok => ?_⟩
    obtain ⟨rfl, htext⟩ := hresult value hok
    obtain ⟨hconsumed, hrequest⟩ := hvalue _ rfl
    rw [List.nil_append] at hconsumed
    subst hconsumed
    refine ⟨?_, by omega, by omega, htext⟩
    rw [frame, hrequest, ← hlengthField, toBig_fromBig]

/-- The request is read before one deadline, which is set at the first reading of the clock. -/
theorem relates_receiveAttestationRequest (calls : ConnectionCalls) :
    Relates (receiveAttestationRequest calls) (fun before result after =>
      ReceivesRequest (calls.monotonic before.connection.readings+requestTimeoutSeconds) [] before
        result after) := by
  have hrest : ∀ deadline, Relates (do
      let encodedLength ← readExactBefore calls 4 deadline "Attestation request length"
      Script.lift (raiseIf (¬(0 < fromBig encodedLength ∧ fromBig encodedLength ≤ maxRequestBytes))
        (.workerError (ofString "Attestation request size is invalid")))
      let request ←
        readExactBefore calls (fromBig encodedLength) deadline "Attestation request"
      Script.lift (raiseIf (decodeUtf8 request = none)
        (.workerError (ofString "Attestation request is not UTF-8")))
      pure request) (ReceivesRequest deadline []) := by
    intro deadline
    have hshort {consumed : Bytes} (hlength : consumed.length ≤ 4) : WithinFrame consumed :=
      fun hlong => absurd hlong (by omega)
    refine relates_bind (Q := fun encodedLength before result after => encodedLength.length = 4 →
      ReceivesRequest deadline encodedLength before result after)
      (relates_readExactBefore _ _ _ _) (fun encodedLength session hlengthField => ?_) ?_ ?_
    · refine relates_after_lift (R := ReceivesRequest deadline encodedLength) ?_ ?_ session
      · intro session error
        refine ⟨[], receives_nothing session, hshort ?_, fun _ h => by cases h⟩
        rw [List.append_nil, hlengthField]
      · intro _ hsize
        rw [raiseIf_eq_ok, not_not] at hsize
        exact relates_requestBody hlengthField hsize
    · rintro before after error ⟨consumed, hreceives, hlength, -⟩
      rw [List.length_nil, Nat.zero_add] at hlength
      exact ⟨consumed, hreceives, hshort hlength, fun _ h => by cases h⟩
    · rintro before between after encodedLength result ⟨consumed, hreceives, -, hvalue⟩ hbody
      obtain ⟨hconsumed, hlengthField⟩ := hvalue _ rfl
      rw [List.nil_append] at hconsumed
      subst hconsumed
      obtain ⟨more, hmore, hframe⟩ := hbody hlengthField
      exact ⟨encodedLength++more, hreceives.trans hmore, hframe⟩
  intro session
  obtain ⟨hclock, hnow⟩ := relates_readClock calls
    (calls.monotonic session.connection.readings+requestTimeoutSeconds) session
  obtain ⟨consumed, hreceives, hrequest⟩ := hrest _ _
  exact ⟨consumed, hclock.trans hreceives, hrequest⟩

theorem relates_callHere {α : Type} (outcome : Except PythonError α) :
    Relates (callHere outcome) (fun before result after =>
      after = before ∧ result = outcome.mapError .other) :=
  relates_lift _

/-- A session with some more bytes sent to the peer. -/
def Session.sending (session : Session) (part : Bytes) : Session :=
  { session with connection := { session.connection with
    outbox := session.connection.outbox++part } }

/-- Some first bytes were sent, and all of them if nothing was raised. -/
theorem relates_sendAll (outcome : SendOutcome) (data : Bytes) :
    Relates (sendAll outcome data) (fun before result after =>
      ∃ part, part <+: data ∧ after = before.sending part ∧ (result = .ok () → part = data)) := by
  intro session
  cases outcome with
  | sent => exact ⟨data, List.prefix_rfl, rfl, fun _ => rfl⟩
  | failed error taken => exact ⟨data.take taken, List.take_prefix _ _, rfl, fun h => by cases h⟩

theorem relates_sendAcknowledgement (acknowledgement : Bytes) :
    Relates (sendAcknowledgement calls acknowledgement) (fun before result after =>
      ∃ part, part <+: acknowledgement ∧ after = before.sending part
        ∧ (result = .ok () → part = acknowledgement)) := by
  refine relates_bind (relates_callHere calls.setNoDelay)
    (fun _ => relates_sendAll calls.sendAcknowledgement acknowledgement) ?_ ?_
  · rintro before after error ⟨rfl, -⟩
    refine ⟨[], List.nil_prefix, ?_, fun h => by cases h⟩
    rw [Session.sending, List.append_nil]
  · rintro before between after _ result ⟨rfl, -⟩ hsent
    exact hsent

/-- `sshd` is started on what is left of what the peer sent. -/
theorem relates_executeSshd :
    Relates (executeSshd calls) (fun before _ after => after = before
      ∨ after = { before with sshd := some before.connection.inbox }) := by
  have hstart : Relates (modify (fun session : Session =>
      { session with sshd := some session.connection.inbox }) : ServeStep Unit)
      (fun before _ after => after = before
        ∨ after = { before with sshd := some before.connection.inbox }) :=
    fun session => Or.inr rfl
  have hcall (outcome : Except PythonError Unit) {rest : ServeStep Unit}
      (hrest : Relates rest (fun before _ after => after = before
        ∨ after = { before with sshd := some before.connection.inbox })) :
      Relates (callHere outcome >>= fun _ => rest) (fun before _ after => after = before
        ∨ after = { before with sshd := some before.connection.inbox }) :=
    relates_after_lift (fun _ _ => Or.inl rfl) (fun _ _ => hrest)
  exact hcall _ (hcall _ (hcall _ hstart))

section Serving

variable {reads : JsonReads} {hashes : Hashes} {system : SystemCalls} {acknowledgement : Bytes}

/-- What was done for a request: one attestation, of which some first bytes were sent, and `sshd`
only behind the whole of it. -/
def Answered (reads : JsonReads) (hashes : Hashes) (system : SystemCalls) (request : Bytes)
    (before after : Session) : Prop :=
  ∃ outcome part,
    createAttestation reads hashes system request before.machine = (outcome, after.machine)
    ∧ after.connection = (before.sending part).connection
    ∧ (part = [] ∧ after.sshd = before.sshd
      ∨ ∃ response, outcome = .ok response ∧ part <+: frame response
        ∧ (after.sshd = before.sshd
          ∨ part = frame response ∧ after.sshd = some before.connection.inbox))

theorem relates_answer (request : Bytes) :
    Relates (do
      let response ← onMachine (createAttestation reads hashes system request)
      sendAttestation calls response
      executeSshd calls)
      (fun before _ after => Answered reads hashes system request before after) := by
  intro session
  rcases hrun : createAttestation reads hashes system request session.machine with ⟨outcome, machine⟩
  have hmachine : onMachine (createAttestation reads hashes system request) session
      = (outcome, { session with machine := machine }) := by
    rw [onMachine, hrun]
  cases outcome with
  | error error =>
    rw [bind_error _ hmachine]
    refine ⟨.error error, [], hrun, ?_, Or.inl ⟨rfl, rfl⟩⟩
    rw [Session.sending, List.append_nil]
  | ok response =>
    rw [bind_ok _ hmachine]
    -- the answer is sent, and `sshd` is started if nothing was raised before
    refine relates_bind (relates_sendAll calls.sendResponse (frame response))
      (fun _ => relates_executeSshd) (R := fun before _ after => before.machine = machine →
        before.sshd = session.sshd → before.connection = session.connection →
        Answered reads hashes system request session after) ?_ ?_ _ rfl rfl rfl
    · rintro before after error ⟨part, hpart, rfl, -⟩ hmachine hsshd hconnection
      refine ⟨.ok response, part, ?_, ?_, Or.inr ⟨response, rfl, hpart, Or.inl hsshd⟩⟩
      · rw [hrun, ← hmachine]
        rfl
      · rw [Session.sending, Session.sending, hconnection]
    · rintro before between after _ result ⟨part, hpart, rfl, hall⟩ hstarted hmachine hsshd
        hconnection
      obtain rfl : part = frame response := hall rfl
      have hsent : (before.sending (frame response)).connection
          = (session.sending (frame response)).connection := by
        rw [Session.sending, Session.sending, hconnection]
      rcases hstarted with rfl | rfl
      · exact ⟨.ok response, _, hrun.trans (by rw [← hmachine]; rfl), hsent,
          Or.inr ⟨response, rfl, hpart, Or.inl hsshd⟩⟩
      · refine ⟨.ok response, _, hrun.trans (by rw [← hmachine]; rfl), hsent,
          Or.inr ⟨response, rfl, hpart, Or.inr ⟨rfl, ?_⟩⟩⟩
        rw [← hconnection]
        rfl

/-- How far a connection was served. -/
inductive Served (calls : ConnectionCalls) (reads : JsonReads) (hashes : Hashes)
    (system : SystemCalls) (acknowledgement : Bytes) (before after : Session) : Prop
  | greeted (part : Bytes) (sent : part <+: acknowledgement) (after_eq : after = before.sending part)
  | received (consumed : Bytes) (within : WithinFrame consumed)
      (receives : Receives (calls.monotonic before.connection.readings+requestTimeoutSeconds)
        consumed (before.sending acknowledgement) after)
  | answered (request : Bytes) (is_request : IsRequestText request) (between : Session)
      (receives : Receives (calls.monotonic before.connection.readings+requestTimeoutSeconds)
        (frame request) (before.sending acknowledgement) between)
      (answer : Answered reads hashes system request between after)

theorem relates_serveConnection (calls : ConnectionCalls) (reads : JsonReads) (hashes : Hashes)
    (system : SystemCalls) (acknowledgement : Bytes) :
    Relates (serveConnection calls reads hashes system acknowledgement)
      (fun before _ after => Served calls reads hashes system acknowledgement before after) := by
  refine relates_bind (Q := fun _ before _ after => ∀ start, start.sending acknowledgement = before →
    Served calls reads hashes system acknowledgement start after)
    (relates_sendAcknowledgement acknowledgement) (fun _ => ?_) ?_ ?_
  · refine relates_bind (relates_receiveAttestationRequest calls)
      (fun request => relates_answer request) ?_ ?_
    · rintro before after error ⟨consumed, hreceives, hwithin, -⟩ start rfl
      exact .received consumed hwithin hreceives
    · rintro before between after request result ⟨consumed, hreceives, -, hrequest⟩ hanswer start rfl
      obtain ⟨rfl, htext⟩ := hrequest request rfl
      exact .answered request htext between hreceives hanswer
  · rintro before after error ⟨part, hpart, rfl, -⟩
    exact .greeted part hpart rfl
  · rintro before between after _ result ⟨part, -, rfl, hall⟩ hserved
    obtain rfl := hall rfl
    exact hserved before rfl

/-- What a peer has on whose connection `sshd` was started: an answer about its own request, which
it can read, behind which `sshd` finds exactly what the peer sent behind the request. -/
structure Attested (runtime : JsonRuntime) (hashes : Hashes) (system : SystemCalls)
    (machine : Machine) (hostKey clientKey challenge response : Bytes) (after : Session) : Prop where
  bound : HasBound hashes machine after.machine hostKey clientKey challenge
  answer : ∃ quote manifest manifestBundle text, system.readOutblob = .ok quote
    ∧ system.manifestFile = .ok (utf8 manifest)
    ∧ system.manifestBundleFile = .ok (utf8 manifestBundle)
    ∧ decodeUtf8 response = some text
    ∧ JsonParser.read runtime text = .ok (.obj (attestationDocument challenge
      (formatPublicKey hostKey) clientKey quote manifest manifestBundle))

theorem attested_of_served {runtime : JsonRuntime} (hdepth : 0 < runtime.maxDepth)
    {machine : Machine} {sent : Bytes} {after : Session}
    (hserved : Served calls (JsonParser.read runtime) hashes system acknowledgement
      (Session.accepted machine sent) after) (handed : Bytes)
    (hhanded : after.sshd = some handed) :
    ∃ request response hostKey clientKey challenge, sent = frame request++handed
      ∧ after.connection.outbox = acknowledgement++frame response
      ∧ IsAbout (JsonParser.read runtime) system request hostKey clientKey challenge
      ∧ Attested runtime hashes system machine hostKey clientKey challenge response after := by
  cases hserved with
  | greeted part hpart hafter =>
    rw [hafter] at hhanded
    cases hhanded
  | received consumed hwithin hreceives =>
    rw [hreceives.sshd] at hhanded
    cases hhanded
  | answered request hrequest between hreceives hanswer =>
    obtain ⟨outcome, part, hrun, hconnection, hpart⟩ := hanswer
    have hbetween : between.machine = machine := hreceives.machine
    have hnone : between.sshd = none := hreceives.sshd
    rcases hpart with ⟨-, hsshd⟩ | ⟨response, rfl, -, hsshd | ⟨rfl, hsshd⟩⟩
    · rw [hsshd, hnone] at hhanded
      cases hhanded
    · rw [hsshd, hnone] at hhanded
      cases hhanded
    · rw [hsshd] at hhanded
      obtain rfl := Option.some.inj hhanded
      rw [hbetween] at hrun
      obtain ⟨hostKey, clientKey, challenge, quote, manifest, manifestBundle, habout, hbound,
        hattestation⟩ := createAttestation_returns hrun
      obtain ⟨text, htext, hread⟩ := read_attestation runtime hdepth hattestation
      refine ⟨request, response, hostKey, clientKey, challenge, hreceives.inbox, ?_, habout, hbound,
        quote, manifest, manifestBundle, text, hattestation.outblob, hattestation.manifest_file,
        hattestation.bundle_file, htext, hread⟩
      rw [hconnection, Session.sending, hreceives.outbox]
      rfl

/-- Whatever the peer sends, and whichever call fails: the listener consumes no more than the frame
of one request, and waits no longer than its deadline; it sends no more than the acknowledgement
and the frame of one answer; the machine is changed for a whole request only, behind the whole
acknowledgement; and `sshd` is started only behind an answer that was sent as a whole and that the
peer can read, on exactly what the peer sent behind its request. -/
theorem sessions_attested (runtime : JsonRuntime) (hdepth : 0 < runtime.maxDepth)
    (calls : ConnectionCalls) (hashes : Hashes) (system : SystemCalls) (acknowledgement : Bytes)
    (machine : Machine) (sent : Bytes) :
    let reads := JsonParser.read runtime
    let after := (serveConnection calls reads hashes system acknowledgement
      (Session.accepted machine sent)).2
    (∃ consumed, sent = consumed++after.connection.inbox ∧ WithinFrame consumed)
    ∧ (∀ wait ∈ after.connection.waits, 0 < wait.2
      ∧ wait.1+wait.2 = calls.monotonic 0+requestTimeoutSeconds)
    ∧ (after.machine = machine ∨ ∃ request, IsRequestText request
      ∧ sent = frame request++after.connection.inbox
      ∧ acknowledgement <+: after.connection.outbox
      ∧ after.machine = (createAttestation reads hashes system request machine).2)
    ∧ (after.connection.outbox <+: acknowledgement ∨ ∃ request response,
      sent = frame request++after.connection.inbox
      ∧ (createAttestation reads hashes system request machine).1 = .ok response
      ∧ after.connection.outbox <+: acknowledgement++frame response)
    ∧ ∀ handed, after.sshd = some handed → ∃ request response hostKey clientKey challenge,
      sent = frame request++handed
      ∧ after.connection.outbox = acknowledgement++frame response
      ∧ IsAbout reads system request hostKey clientKey challenge
      ∧ Attested runtime hashes system machine hostKey clientKey challenge response after := by
  intro reads after
  have hserved : Served calls reads hashes system acknowledgement (Session.accepted machine sent)
      after := relates_serveConnection calls reads hashes system acknowledgement _
  have hhanded := fun handed => attested_of_served hdepth hserved handed
  have hwaits : ∀ {consumed : Bytes} {between : Session},
      Receives (calls.monotonic 0+requestTimeoutSeconds) consumed
        ((Session.accepted machine sent).sending acknowledgement) between →
      ∀ wait ∈ between.connection.waits, 0 < wait.2
        ∧ wait.1+wait.2 = calls.monotonic 0+requestTimeoutSeconds := by
    rintro consumed between h
    obtain ⟨waits, hwaits, htimed⟩ := h.waits
    rw [hwaits]
    exact htimed
  -- how far the connection came: to the greeting, into the request, or to the answer
  cases hserved with
  | greeted part hpart hafter =>
    rw [hafter] at hhanded ⊢
    exact ⟨⟨[], rfl, fun h => absurd h (by decide)⟩, List.forall_mem_nil _, Or.inl rfl,
      Or.inl hpart, hhanded⟩
  | received consumed hwithin hreceives =>
    refine ⟨⟨consumed, hreceives.inbox, hwithin⟩, hwaits hreceives, Or.inl hreceives.machine,
      Or.inl ?_, hhanded⟩
    rw [hreceives.outbox]
    exact List.prefix_rfl
  | answered request hrequest between hreceives hanswer =>
    -- only here is the machine changed, and by the request that was read
    obtain ⟨outcome, part, hrun, hconnection, hpart⟩ := hanswer
    have hbetween : between.machine = machine := hreceives.machine
    have hinbox : sent = frame request++after.connection.inbox := by
      rw [hconnection]
      exact hreceives.inbox
    have hsent : after.connection.outbox = acknowledgement++part := by
      rw [hconnection, Session.sending, hreceives.outbox]
      rfl
    rw [hbetween] at hrun
    refine ⟨⟨frame request, hinbox, withinFrame_frame hrequest⟩, ?_,
      Or.inr ⟨request, hrequest, hinbox, ?_, ?_⟩, ?_, hhanded⟩
    · rw [hconnection]
      change ∀ wait ∈ between.connection.waits, _
      exact hwaits hreceives
    · rw [hsent]
      exact List.prefix_append _ _
    · rw [hrun]
    · rcases hpart with ⟨rfl, -⟩ | ⟨response, rfl, hpart, -⟩
      · rw [hsent, List.append_nil]
        exact Or.inl List.prefix_rfl
      · rw [hsent]
        exact Or.inr ⟨request, response, hinbox, by rw [hrun],
          (List.prefix_append_right_inj acknowledgement).mpr hpart⟩

end Serving

section Golden

open AttestationRun

/-- A connection on which the first `recv` brings one byte, the second one two, and so on. -/
def goldenCalls : ConnectionCalls where
  monotonic _ := 10
  recv k := .arrived (k+1)
  setNoDelay := .ok ()
  sendAcknowledgement := .sent
  sendResponse := .sent
  dupInput := .ok ()
  dupOutput := .ok ()
  exec := .ok ()

theorem sessions_attested_golden : ∃ request response hostKey clientKey challenge after,
    frame goldenRun.request++[0x53, 0x53, 0x48] = frame request++[0x53, 0x53, 0x48]
    ∧ IsAbout (JsonParser.read plainRuntime) goldenRun.calls request hostKey clientKey challenge
    ∧ Attested plainRuntime goldenHashes goldenRun.calls goldenRun.machine hostKey clientKey
      challenge response after := by
  have hhanded : (serveConnection goldenCalls (JsonParser.read plainRuntime) goldenHashes
      goldenRun.calls [] (Session.accepted goldenRun.machine
        (frame goldenRun.request++[0x53, 0x53, 0x48]))).2.sshd = some [0x53, 0x53, 0x48] := by
    decide +kernel
  obtain ⟨-, -, -, -, hattested⟩ := sessions_attested plainRuntime (by decide) goldenCalls
    goldenHashes goldenRun.calls [] goldenRun.machine (frame goldenRun.request++[0x53, 0x53, 0x48])
  obtain ⟨request, response, hostKey, clientKey, challenge, hsent, -, habout, hfinal⟩ :=
    hattested _ hhanded
  exact ⟨request, response, hostKey, clientKey, challenge, _, hsent, habout, hfinal⟩

end Golden

end Listener

end ConferWorker
