import ConferWorker.AttestationSizes
import ConferWorker.AttestedSessions

/-! A client that sends a valid request to a machine on which nothing fails: it gets its attestation
and then `sshd`, however its bytes are cut into pieces. -/
namespace ConferWorker

namespace Listener

open Script

/-- No system call of an attestation fails, and the files hold what they should. -/
structure Works (system : SystemCalls) (hostKey quote : Bytes) (manifest manifestBundle : Str) :
    Prop where
  open_keys : system.openKeys = .ok ()
  write_keys : system.writeKeys = .ok ()
  sync_keys : system.syncKeys = .ok ()
  host_key : ∃ content line, system.hostKeyFile = .ok content
    ∧ readHostKey content = .ok (line, hostKey)
  open_register : system.openRegister = .ok ()
  write_register : system.writeRegister = .ok measurementBytes
  read_register : system.readRegister = .ok ()
  make_entry : system.makeEntry = .ok ()
  write_inblob : system.writeInblob = .ok ()
  read_outblob : system.readOutblob = .ok quote
  quote_size : quote ≠ [] ∧ quote.length ≤ maxQuoteBytes
  remove_entry : system.removeEntry = .ok ()
  manifest_file : ∃ content, system.manifestFile = .ok content
    ∧ readReleaseEvidence content = .ok manifest
  bundle_file : ∃ content, system.manifestBundleFile = .ok content
    ∧ readReleaseEvidence content = .ok manifestBundle

section Attesting

variable {system : SystemCalls} {hostKey quote : Bytes} {manifest manifestBundle : Str}

theorem call_run {α : Type} {outcome : Except PythonError α} {a : α} (h : outcome = .ok a)
    (machine : Machine) : call outcome machine = (.ok a, machine) := by
  rw [h]
  rfl

theorem lift_ok {ε σ α : Type} {x : Except ε α} {a : α} (h : x = .ok a) (s : σ) :
    (lift x : Script ε σ α) s = (.ok a, s) := by
  rw [h]
  rfl

theorem writeAuthorizedKey_works (h : Works system hostKey quote manifest manifestBundle)
    {machine : Machine} (hnone : machine.authorizedKeys = none) (keyBlob : Bytes) :
    writeAuthorizedKey system keyBlob machine
      = (.ok (), { machine with authorizedKeys := some (authorizedKey keyBlob++[0x0A]) }) := by
  have hcreate : createKeyFile system machine = (.ok (), machine) := by
    have hask : (ask (fun machine : Machine => if machine.authorizedKeys = none then .ok ()
        else .error (.other (.osError (ofString "File exists")))) : Step Unit) machine
          = (.ok (), machine) := by
      rw [ask_run, if_pos hnone]
    rw [createKeyFile, bind_ok _ hask, call_run h.open_keys]
  rw [writeAuthorizedKey, bind_ok _ hcreate, writeKeyFile, h.write_keys]
  exact call_run h.sync_keys _

theorem recordReservation_works (h : Works system hostKey quote manifest manifestBundle)
    {hashes : Hashes} (hlength : ∀ input, (hashes.sha384 input).length = measurementBytes)
    {machine : Machine} (hzeros : machine.register = zeros) (hostKey clientKey challenge : Bytes) :
    recordReservation hashes system hostKey clientKey challenge machine
      = (.ok (), ⟨machine.authorizedKeys,
        hashes.sha384 (zeros++reservationEvent hashes hostKey clientKey challenge),
        machine.quoteRequests⟩) := by
  have hextend : extendRegister hashes system (reservationEvent hashes hostKey clientKey challenge)
      machine = (.ok (), ⟨machine.authorizedKeys,
        hashes.sha384 (zeros++reservationEvent hashes hostKey clientKey challenge),
        machine.quoteRequests⟩) := by
    have hwritten : raiseIf (measurementBytes
        ≠ (reservationEvent hashes hostKey clientKey challenge).length)
        (ListenerError.workerError (ofString "RTMR3 extension was incomplete")) = .ok () := by
      rw [raiseIf_eq_ok, not_not, reservationEvent, hlength]
    rw [extendRegister, bind_ok _ (call_run h.open_register _),
      bind_ok _ (call_run h.write_register _), bind_ok _ (modify_run _ _), hzeros]
    exact lift_ok hwritten _
  have hread : ∀ machine : Machine, machine.register.length = measurementBytes →
      readRegister system machine = (.ok machine.register, machine) := by
    intro machine hregister
    have hsize : raiseIf (machine.register.length ≠ measurementBytes)
        (ListenerError.workerError (ofString "RTMR3 value is invalid")) = .ok () := by
      rw [raiseIf_eq_ok, not_not, hregister]
    have hask : (ask (fun machine : Machine => .ok machine.register) : Step Bytes) machine
        = (.ok machine.register, machine) := rfl
    rw [readRegister, bind_ok _ (call_run h.read_register _), bind_ok _ hask,
      bind_ok _ (lift_ok hsize _)]
    rfl
  rw [recordReservation, bind_ok _ hextend, bind_ok _ (hread _ (hlength _))]
  exact lift_ok ((raiseIf_eq_ok _ _ _).mpr (not_not.mpr rfl)) _

theorem createQuote_works (h : Works system hostKey quote manifest manifestBundle) (report : Bytes)
    (machine : Machine) : createQuote system report machine = (.ok quote,
      { machine with quoteRequests := machine.quoteRequests++[report] }) := by
  have hbody : requestQuote system report machine = (.ok quote,
      { machine with quoteRequests := machine.quoteRequests++[report] }) := by
    have hsize : raiseIf (quote = [] ∨ maxQuoteBytes < quote.length)
        (ListenerError.workerError (ofString "TDX quote size is invalid")) = .ok () := by
      rw [raiseIf_eq_ok, not_or, not_lt]
      exact h.quote_size
    rw [requestQuote, bind_ok _ (modify_run _ _), bind_ok _ (call_run h.write_inblob _),
      bind_ok _ (call_run h.read_outblob _), bind_ok _ (lift_ok hsize _)]
    rfl
  rw [createQuote, bind_ok _ (call_run h.make_entry _), andFinally, hbody]
  dsimp only
  rw [call_run h.remove_entry]
  rfl

/-- A valid request is answered. -/
theorem createAttestation_works (h : Works system hostKey quote manifest manifestBundle)
    {reads : JsonReads} {hashes : Hashes}
    (hlength : ∀ input, (hashes.sha384 input).length = measurementBytes) {machine : Machine}
    (hnone : machine.authorizedKeys = none) (hzeros : machine.register = zeros)
    {request challenge clientKey response : Bytes}
    (hrequest : parseRequest reads request = .ok (challenge, clientKey))
    (hencoded : encodeDocument (attestationDocument challenge (formatPublicKey hostKey) clientKey
      quote manifest manifestBundle) = .ok response) :
    (createAttestation reads hashes system request machine).1 = .ok response := by
  obtain ⟨content, line, hfile, hhost⟩ := h.host_key
  obtain ⟨manifestContent, hmanifest, hmanifestText⟩ := h.manifest_file
  obtain ⟨bundleContent, hbundle, hbundleText⟩ := h.bundle_file
  obtain ⟨rfl, -⟩ := readHostKey_eq_ok hhost
  rw [createAttestation, bind_ok _ (lift_ok hrequest _)]
  dsimp only
  rw [bind_ok _ (writeAuthorizedKey_works h hnone clientKey), bind_ok _ (call_run hfile _),
    bind_ok _ (lift_ok hhost _)]
  dsimp only
  rw [bind_ok _ (recordReservation_works h hlength (by exact hzeros) _ _ _),
    bind_ok _ (createQuote_works h _ _), bind_ok _ (call_run hmanifest _),
    bind_ok _ (lift_ok hmanifestText _), bind_ok _ (call_run hbundle _),
    bind_ok _ (lift_ok hbundleText _), lift_ok hencoded]

end Attesting

/-- A connection that brings some bytes in every `recv`, before the deadline, and takes everything
that is sent. -/
structure Delivers (calls : ConnectionCalls) : Prop where
  arrives : ∀ k, ∃ available, 0 < available ∧ calls.recv k = .arrived available
  in_time : ∀ k, calls.monotonic k < calls.monotonic 0+requestTimeoutSeconds
  no_delay : calls.setNoDelay = .ok ()
  acknowledged : calls.sendAcknowledgement = .sent
  responded : calls.sendResponse = .sent
  input : calls.dupInput = .ok ()
  output : calls.dupOutput = .ok ()
  started : calls.exec = .ok ()

section Receiving

variable {calls : ConnectionCalls}

theorem readClock_run (calls : ConnectionCalls) (session : Session) : ∃ after,
    readClock calls session = (.ok (calls.monotonic session.connection.readings), after)
      ∧ after.connection.inbox = session.connection.inbox :=
  ⟨_, rfl, rfl⟩

theorem receive_arrives {available : ℕ} {session : Session}
    (h : calls.recv session.connection.receives = .arrived available) (size : ℕ)
    (now remaining : ℚ) (timedOut : ListenerError) : ∃ after,
    receive calls size now remaining timedOut session
        = (.ok (session.connection.inbox.take (min available size)), after)
      ∧ after.connection.inbox = session.connection.inbox.drop (min available size) := by
  have hask : (ask (fun session => .ok (calls.recv session.connection.receives)) :
      ServeStep RecvOutcome) session = (.ok (.arrived available), session) := by
    rw [ask_run, h]
  refine ⟨{ session with connection := ⟨session.connection.inbox.drop (min available size),
    session.connection.outbox, session.connection.readings, session.connection.receives+1,
    session.connection.waits++[(now, remaining)]⟩ }, ?_, rfl⟩
  rw [receive, bind_ok _ hask]
  rfl

/-- As long as enough bytes are there, the loop returns, whatever the sizes of the chunks. -/
theorem receiveLoop_returns (hdelivers : Delivers calls) (size : ℕ) (description : String)
    (rounds : ℕ) (received : Bytes) (session : Session)
    (henough : size ≤ received.length+session.connection.inbox.length) :
    ∃ value after, receiveLoop calls size (calls.monotonic 0+requestTimeoutSeconds) description
      rounds received session = (.ok value, after) := by
  induction rounds generalizing received session with
  | zero => exact ⟨received, session, rfl⟩
  | succ rounds ih =>
    rw [receiveLoop]
    split_ifs with hmore
    · obtain ⟨clocked, hclock, hinbox⟩ := readClock_run calls session
      obtain ⟨available, hpositive, harrived⟩ := hdelivers.arrives clocked.connection.receives
      have htime : raiseIf (calls.monotonic 0+requestTimeoutSeconds
          -calls.monotonic session.connection.readings ≤ 0) (ListenerError.workerError
            (ofString description++ofString " timed out")) = .ok () := by
        have hearly := hdelivers.in_time session.connection.readings
        rw [raiseIf_eq_ok, not_le]
        linarith
      obtain ⟨taken, htaken, hleft⟩ := receive_arrives harrived (size-received.length)
        (calls.monotonic session.connection.readings) (calls.monotonic 0+requestTimeoutSeconds
          -calls.monotonic session.connection.readings)
        (ListenerError.workerError (ofString description++ofString " timed out"))
      rw [hinbox] at htaken hleft
      have hlength : (session.connection.inbox.take (min available (size-received.length))).length
          = min available (size-received.length) := by
        rw [List.length_take]
        omega
      have hnonempty : raiseIf (session.connection.inbox.take
          (min available (size-received.length)) = []) (ListenerError.workerError
            (ofString description++ofString " ended early")) = .ok () := by
        rw [raiseIf_eq_ok, ← ne_eq, ← List.length_pos_iff, hlength]
        omega
      obtain ⟨value, after, hrest⟩ :=
        ih (received++session.connection.inbox.take (min available (size-received.length))) taken
          (by rw [hleft, List.length_append, hlength, List.length_drop]; omega)
      refine ⟨value, after, ?_⟩
      rw [bind_ok _ hclock, bind_ok _ (lift_ok htime _), bind_ok _ htaken,
        bind_ok _ (lift_ok hnonempty _), hrest]
    · exact ⟨received, session, rfl⟩

/-- Bytes that are there are received. -/
theorem readExactBefore_returns (hdelivers : Delivers calls) {body rest : Bytes}
    (description : String) {session : Session} (hinbox : session.connection.inbox = body++rest) :
    ∃ after, readExactBefore calls body.length (calls.monotonic 0+requestTimeoutSeconds) description
        session = (.ok body, after)
      ∧ after.connection.inbox = rest := by
  obtain ⟨value, after, hrun⟩ := receiveLoop_returns hdelivers body.length description body.length []
    session (by rw [hinbox, List.length_append, List.length_nil]; omega)
  obtain ⟨consumed, hreceives, -, hvalue⟩ := relates_readExactBefore calls
    (calls.monotonic 0+requestTimeoutSeconds) body.length description session
  rw [readExactBefore] at hreceives hvalue
  rw [hrun] at hreceives hvalue
  obtain ⟨rfl, hlength⟩ := hvalue value rfl
  have hparts := List.append_inj (hinbox.symm.trans hreceives.inbox) hlength.symm
  rw [← hparts.1] at hrun
  exact ⟨after, hrun, hparts.2.symm⟩

theorem receiveAttestationRequest_returns (hdelivers : Delivers calls) {request rest : Bytes}
    (hrequest : IsRequestText request) {session : Session} (hfirst : session.connection.readings = 0)
    (hinbox : session.connection.inbox = frame request++rest) :
    ∃ after, receiveAttestationRequest calls session = (.ok request, after) := by
  have hshort : request.length < 256^4 := by
    have hsize := hrequest.size
    rw [maxRequestBytes] at hsize
    omega
  obtain ⟨text, htext⟩ := hrequest.text
  obtain ⟨clocked, hclock, hclocked⟩ := readClock_run calls session
  rw [hfirst] at hclock
  rw [hinbox, frame, List.append_assoc] at hclocked
  obtain ⟨prefixed, hprefixed, hbody⟩ :=
    readExactBefore_returns hdelivers "Attestation request length" hclocked
  obtain ⟨after, hafter, -⟩ := readExactBefore_returns hdelivers "Attestation request" hbody
  have hsize : raiseIf (¬(0 < request.length ∧ request.length ≤ maxRequestBytes))
      (ListenerError.workerError (ofString "Attestation request size is invalid")) = .ok () := by
    rw [raiseIf_eq_ok, not_not]
    exact ⟨hrequest.not_empty, hrequest.size⟩
  have hutf8 : raiseIf (decodeUtf8 request = none)
      (ListenerError.workerError (ofString "Attestation request is not UTF-8")) = .ok () := by
    rw [raiseIf_eq_ok, htext]
    exact Option.some_ne_none text
  rw [toBig_length] at hprefixed
  refine ⟨after, ?_⟩
  rw [receiveAttestationRequest, bind_ok _ hclock]
  rw [bind_ok _ hprefixed, fromBig_toBig 4 _ hshort, bind_ok _ (lift_ok hsize _), bind_ok _ hafter,
    bind_ok _ (lift_ok hutf8 _)]
  rfl

end Receiving

theorem isRequestText_of_parsed {reads : JsonReads} {request challenge clientKey : Bytes}
    (h : parseRequest reads request = .ok (challenge, clientKey)) : IsRequestText request := by
  obtain ⟨hsize, ⟨text, members, htext, -⟩, -⟩ := (parseRequest_eq_ok reads _ _ _).mp h
  exact ⟨List.length_pos_iff.mpr hsize.1, hsize.2, text, htext⟩

/-- Printable ASCII holds no line feed. -/
theorem lineFeed_notMem_utf8 {s : Str} (h : ∀ c ∈ s, 0x0A < c.val ∧ c.val < 0x80) :
    0x0A ∉ utf8 s := by
  intro hmem
  obtain ⟨c, hc, hbyte⟩ := List.mem_flatMap.mp hmem
  have hrange := h c hc
  have hone : utf8Bytes c = [UInt8.ofNat c.val] := by
    simp only [utf8Bytes, if_pos hrange.2]
  rw [hone, List.mem_singleton] at hbyte
  have hval := congrArg UInt8.toNat hbyte
  rw [UInt8.toNat_ofNat'] at hval
  change 0x0A = c.val%256 at hval
  omega

/-- An acknowledgement is one line. -/
theorem acknowledgement_line {instanceId : Str} {acknowledgement : Bytes}
    (h : createReservationAcknowledgement instanceId = .ok acknowledgement) :
    ∃ line, acknowledgement = line++[0x0A] ∧ 0x0A ∉ line := by
  obtain ⟨_, -, h⟩ := (bind_eq_ok _ _ _).mp h
  obtain ⟨n, -, h⟩ := (bind_eq_ok _ _ _).mp h
  obtain ⟨_, -, h⟩ := (bind_eq_ok _ _ _).mp h
  obtain rfl := (pure_eq_ok _ _).mp h
  refine ⟨utf8 (ofString "CONFER-WORKER-RESERVED 1 "++Json.intText n), ?_, ?_⟩
  · rw [utf8_append]
    rfl
  have hfixed : (ofString "CONFER-WORKER-RESERVED 1 ").all
      (fun c => decide (0x0A < c.val ∧ c.val < 0x80)) = true := by decide
  have hprintable : ∀ c ∈ ofString "CONFER-WORKER-RESERVED 1 "++Json.intText n,
      0x0A < c.val ∧ c.val < 0x80 := by
    intro c hc
    rcases List.mem_append.mp hc with hc | hc
    · exact of_decide_eq_true (List.all_eq_true.mp hfixed c hc)
    · rcases JsonParser.intText_cases n with ⟨htext, -⟩ | ⟨htext, -⟩
      · have hdigit := strOfNat_digits _ c (htext ▸ hc)
        omega
      · rw [htext, List.mem_cons] at hc
        rcases hc with rfl | hc
        · decide
        · have hdigit := strOfNat_digits _ c hc
          omega
  exact lineFeed_notMem_utf8 hprintable

theorem frame_injective {payload other rest : Bytes} (h : frame payload++rest = frame other++rest) :
    payload = other := by
  have hframe := List.append_cancel_right h
  exact (List.append_inj hframe (by rw [toBig_length, toBig_length])).2

theorem executeSshd_run {calls : ConnectionCalls} (h : Delivers calls) (session : Session) :
    executeSshd calls session
      = (.ok (), { session with sshd := some session.connection.inbox }) := by
  rw [executeSshd, h.input, h.output, h.started]
  rfl

section Serving

variable {calls : ConnectionCalls} {reads : JsonReads} {hashes : Hashes} {system : SystemCalls}
  {machine : Machine} {request response : Bytes}

/-- A request that is answered on the machine is answered on the connection. -/
theorem serveConnection_answers (hdelivers : Delivers calls) (hrequest : IsRequestText request)
    (hanswer : (createAttestation reads hashes system request machine).1 = .ok response)
    (acknowledgement rest : Bytes) :
    ∃ after, serveConnection calls reads hashes system acknowledgement
        (Session.accepted machine (frame request++rest)) = (.ok (), after)
      ∧ after.connection.outbox = acknowledgement++frame response ∧ after.sshd = some rest := by
  have hwritten : sendAcknowledgement calls acknowledgement
      (Session.accepted machine (frame request++rest))
        = (.ok (), (Session.accepted machine (frame request++rest)).sending acknowledgement) := by
    rw [sendAcknowledgement, hdelivers.no_delay, hdelivers.acknowledged]
    rfl
  have hreturns : ∃ between, receiveAttestationRequest calls ((Session.accepted machine
      (frame request++rest)).sending acknowledgement) = (.ok request, between) :=
    receiveAttestationRequest_returns hdelivers hrequest rfl rfl
  obtain ⟨between, hreceived⟩ := hreturns
  obtain ⟨consumed, hreceives, -, hconsumed⟩ := relates_receiveAttestationRequest calls
    ((Session.accepted machine (frame request++rest)).sending acknowledgement)
  rw [hreceived] at hreceives hconsumed
  obtain ⟨hconsumed, -⟩ := hconsumed request rfl
  rw [List.nil_append] at hconsumed
  subst hconsumed
  have hinbox : between.connection.inbox = rest := (List.append_cancel_left hreceives.inbox).symm
  have houtbox : between.connection.outbox = acknowledgement := hreceives.outbox
  rcases hrun : createAttestation reads hashes system request machine with ⟨outcome, attested⟩
  rw [hrun] at hanswer
  obtain rfl : outcome = .ok response := hanswer
  -- the machine is still the one that the connection was accepted on
  have hmachine : onMachine (createAttestation reads hashes system request) between
      = (.ok response, { between with machine := attested }) := by
    have hbetween : between.machine = machine := hreceives.machine
    rw [onMachine, hbetween, hrun]
  have hsent : ∀ session : Session, sendAttestation calls response session
      = (.ok (), session.sending (frame response)) := by
    intro session
    rw [sendAttestation, hdelivers.responded]
    rfl
  refine ⟨{ Session.sending { between with machine := attested } (frame response) with
    sshd := some between.connection.inbox }, ?_, ?_, ?_⟩
  · rw [serveConnection, bind_ok _ hwritten, bind_ok _ hreceived, bind_ok _ hmachine,
      bind_ok _ (hsent _), executeSshd_run hdelivers]
    rfl
  · change between.connection.outbox++frame response = _
    rw [houtbox]
  · rw [hinbox]

end Serving

/-- On a fresh machine whose evidence and quote leave room in the attestation, a client that sends a
valid request gets the acknowledgement as a line, and behind it the frame of an attestation of its
own challenge and key, which it can read; and `sshd` is started on what it sent behind the
request. -/
theorem served_clients (runtime : JsonRuntime) (hdepth : 0 < runtime.maxDepth)
    {calls : ConnectionCalls} {hashes : Hashes} {system : SystemCalls} {machine : Machine}
    {instanceId manifest manifestBundle : Str}
    {acknowledgement hostKey quote request challenge clientKey : Bytes}
    (hacknowledgement : createReservationAcknowledgement instanceId = .ok acknowledgement)
    (hdelivers : Delivers calls) (hworks : Works system hostKey quote manifest manifestBundle)
    (hlength : ∀ input, (hashes.sha384 input).length = measurementBytes)
    (hnone : machine.authorizedKeys = none) (hzeros : machine.register = zeros)
    (hrequest : parseRequest (JsonParser.read runtime) request = .ok (challenge, clientKey))
    (hfits : EvidenceFits quote manifest manifestBundle) (rest : Bytes) :
    ∃ response line after, serveConnection calls (JsonParser.read runtime) hashes system acknowledgement
        (Session.accepted machine (frame request++rest)) = (.ok (), after)
      ∧ 0x0A ∉ line ∧ after.connection.outbox = line++[0x0A]++frame response
      ∧ after.sshd = some rest
      ∧ Attested runtime hashes system machine hostKey clientKey challenge response after := by
  obtain ⟨line, rfl, hline⟩ := acknowledgement_line hacknowledgement
  obtain ⟨_, _, -, hread⟩ := hworks.host_key
  have hasked := (parseRequest_eq_ok _ _ _ _).mp hrequest
  obtain ⟨response, hencoded⟩ := encodeDocument_fits hasked.challenge_length
    (readHostKey_eq_ok hread).2.1 hasked.key_length hfits
  have hanswer := createAttestation_works hworks hlength hnone hzeros hrequest hencoded
  obtain ⟨after, hserve, hsent, hhanded⟩ := serveConnection_answers hdelivers
    (isRequestText_of_parsed hrequest) hanswer (line++[0x0A]) rest
  refine ⟨response, line, after, hserve, hline, hsent, hhanded, ?_⟩
  have hserved := relates_serveConnection calls (JsonParser.read runtime) hashes system
    (line++[0x0A]) (Session.accepted machine (frame request++rest))
  rw [hserve] at hserved
  -- what the session is about is what its request and its host key say
  obtain ⟨request', response', hostKey', clientKey', challenge', hframe, hsent', habout,
    hattested⟩ := attested_of_served hdepth hserved rest hhanded
  obtain rfl := frame_injective hframe
  obtain rfl : response = response' := by
    rw [hsent] at hsent'
    have hframes := List.append_cancel_left hsent'
    exact (List.append_inj hframes (by rw [toBig_length, toBig_length])).2
  obtain ⟨hparsed, content, line', hfile, hhost⟩ := habout
  obtain ⟨content', line'', hfile', hhost'⟩ := hworks.host_key
  rw [hrequest] at hparsed
  rw [hfile, Except.ok.injEq] at hfile'
  rw [← hfile', hhost] at hhost'
  cases hparsed
  cases hhost'
  exact hattested

section Golden

open AttestationRun

theorem goldenCalls_delivers : Delivers goldenCalls where
  arrives k := ⟨k+1, Nat.succ_pos k, rfl⟩
  in_time _ := by
    change (10 : ℚ) < 10+5
    norm_num
  no_delay := rfl
  acknowledged := rfl
  responded := rfl
  input := rfl
  output := rfl
  started := rfl

/-- The hashes of the golden run, and some bytes of the right length for anything else. -/
def servedHashes : Hashes where
  sha384 input :=
    if (goldenHashes.sha384 input).length = measurementBytes then goldenHashes.sha384 input else zeros
  sha512 := goldenHashes.sha512

theorem servedHashes_length (input : Bytes) :
    (servedHashes.sha384 input).length = measurementBytes := by
  unfold servedHashes
  dsimp only
  split_ifs with h
  · exact h
  · exact List.length_replicate

theorem golden_parses : parseRequest (JsonParser.read plainRuntime) goldenRun.request
    = .ok (goldenChallenge, goldenKey 7) := by
  decide +kernel

theorem golden_evidence : readReleaseEvidence (utf8 (ofString "[]")) = .ok (ofString "[]") := by
  decide

theorem golden_hostKey :
    readHostKey (utf8 (formatPublicKey (goldenKey 9)++ofString " ignored-comment\n"))
      = .ok (formatPublicKey (goldenKey 9), goldenKey 9) := by
  decide +kernel

theorem goldenRun_works : Works goldenRun.calls (goldenKey 9) (utf8 (ofString "tdx-quote"))
    (ofString "[]") (ofString "[]") where
  open_keys := rfl
  write_keys := rfl
  sync_keys := rfl
  host_key := ⟨_, _, rfl, golden_hostKey⟩
  open_register := rfl
  write_register := rfl
  read_register := rfl
  make_entry := rfl
  write_inblob := rfl
  read_outblob := rfl
  quote_size := by decide
  remove_entry := rfl
  manifest_file := ⟨_, rfl, golden_evidence⟩
  bundle_file := ⟨_, rfl, golden_evidence⟩

theorem golden_fits :
    EvidenceFits (utf8 (ofString "tdx-quote")) (ofString "[]") (ofString "[]") := by
  unfold EvidenceFits
  decide

theorem golden_acknowledges : createReservationAcknowledgement (ofString "00042\n")
    = .ok (utf8 (ofString "CONFER-WORKER-RESERVED 1 42\n")) := by
  decide

theorem served_clients_golden : ∃ response line after,
    serveConnection goldenCalls (JsonParser.read plainRuntime) servedHashes goldenRun.calls
        (utf8 (ofString "CONFER-WORKER-RESERVED 1 42\n"))
        (Session.accepted goldenRun.machine (frame goldenRun.request++[0x53, 0x53, 0x48]))
      = (.ok (), after)
    ∧ 0x0A ∉ line ∧ after.connection.outbox = line++[0x0A]++frame response
    ∧ after.sshd = some [0x53, 0x53, 0x48]
    ∧ Attested plainRuntime servedHashes goldenRun.calls goldenRun.machine (goldenKey 9) (goldenKey 7)
      goldenChallenge response after := by
  exact served_clients plainRuntime (by decide) golden_acknowledges goldenCalls_delivers
    goldenRun_works servedHashes_length rfl rfl golden_parses golden_fits [0x53, 0x53, 0x48]

end Golden

end Listener

end ConferWorker
