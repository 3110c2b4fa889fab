import ConferWorker.Attestations
import ConferWorker.RequestSpellings

/-! Which runs of `create_attestation` reach the quote, what they leave on the machine, and what
their report data and their register stand for. -/
namespace ConferWorker

namespace Listener

open Script

variable {calls : SystemCalls}

/-- A system call leaves the machine as it is. -/
theorem relates_call {α : Type} (outcome : Except PythonError α) :
    Relates (call outcome) (fun before result after =>
      after = before ∧ result = outcome.mapError .other) :=
  relates_lift _

/-- A system call and what comes after it: either it raised, or the rest ran on the same machine. -/
theorem relates_after_call {α β : Type} {outcome : Except PythonError α} {f : α → Step β}
    {R : Machine → Except ListenerError β → Machine → Prop}
    (hraised : ∀ machine e, R machine (.error e) machine) (hf : ∀ a, Relates (f a) R) :
    Relates (call outcome >>= f) R :=
  relates_after_lift hraised (fun a _ => hf a)

theorem relates_createKeyFile :
    Relates (createKeyFile calls) (fun before result after =>
      after = before ∧ (result = .ok () → before.authorizedKeys = none)) := by
  have hexclusive : Relates (ask (fun machine : Machine =>
      if machine.authorizedKeys = none then .ok ()
      else .error (.other (.osError (ofString "File exists")))))
      (fun before (result : Except ListenerError Unit) after =>
        after = before ∧ (result = .ok () → before.authorizedKeys = none)) := by
    apply relates_ask
    intro machine
    refine ⟨rfl, fun hok => ?_⟩
    by_contra hold
    rw [if_neg hold] at hok
    cases hok
  refine relates_bind hexclusive (fun _ => relates_call calls.openKeys) ?_ ?_
  · intro before after e h
    exact ⟨h.1, fun hok => nomatch hok⟩
  · rintro before between after a result ⟨rfl, hnone⟩ ⟨rfl, -⟩
    exact ⟨rfl, fun _ => hnone rfl⟩

theorem relates_writeKeyFile (line : Bytes) :
    Relates (writeKeyFile calls line) (fun before result after =>
      after.register = before.register ∧ after.quoteRequests = before.quoteRequests
        ∧ (result = .ok () → after.authorizedKeys = some line)) := by
  unfold writeKeyFile
  match calls.writeKeys with
  | .ok _ =>
    refine relates_bind (relates_modify _) (fun _ => relates_call calls.syncKeys) ?_ ?_
    · rintro before after e ⟨-, hok⟩
      cases hok
    · rintro before between after a result ⟨rfl, -⟩ ⟨rfl, -⟩
      exact ⟨rfl, rfl, fun _ => rfl⟩
  | .error (error, written) =>
    refine relates_bind (relates_modify _) (fun _ => relates_raise _) ?_ ?_
    · rintro before after e ⟨-, hok⟩
      cases hok
    · rintro before between after a result ⟨rfl, -⟩ ⟨rfl, rfl⟩
      exact ⟨rfl, rfl, fun hok => nomatch hok⟩

/-- The key file is written only if there was none. -/
theorem relates_writeAuthorizedKey (keyBlob : Bytes) :
    Relates (writeAuthorizedKey calls keyBlob) (fun before result after =>
      after.register = before.register ∧ after.quoteRequests = before.quoteRequests
        ∧ (result = .ok () → before.authorizedKeys = none
          ∧ after.authorizedKeys = some (authorizedKey keyBlob++[0x0A]))) := by
  refine relates_bind relates_createKeyFile (fun _ => relates_writeKeyFile _) ?_ ?_
  · rintro before after e ⟨rfl, -⟩
    exact ⟨rfl, rfl, fun hok => nomatch hok⟩
  · rintro before between after a result ⟨rfl, hnone⟩ ⟨hregister, hquotes, hline⟩
    exact ⟨hregister, hquotes, fun hok => ⟨hnone rfl, hline hok⟩⟩

theorem relates_extendRegister (hashes : Hashes) (digest : Bytes) :
    Relates (extendRegister hashes calls digest) (fun before result after =>
      after.authorizedKeys = before.authorizedKeys ∧ after.quoteRequests = before.quoteRequests
        ∧ (result = .ok () → after.register = hashes.sha384 (before.register++digest))) := by
  refine relates_after_call (fun _ _ => ⟨rfl, rfl, fun hok => nomatch hok⟩) (fun _ => ?_)
  refine relates_after_call (fun _ _ => ⟨rfl, rfl, fun hok => nomatch hok⟩) (fun _ => ?_)
  refine relates_bind (relates_modify _) (fun _ => relates_lift _) ?_ ?_
  · rintro before after e ⟨-, hok⟩
    cases hok
  · rintro before between after a result ⟨rfl, -⟩ ⟨rfl, -⟩
    exact ⟨rfl, rfl, fun _ => rfl⟩

theorem relates_readRegister :
    Relates (readRegister calls) (fun before result after =>
      after = before ∧ ∀ value, result = .ok value → value = before.register) := by
  have hcheck : ∀ value : Bytes, Relates
      (lift (raiseIf (value.length ≠ measurementBytes)
        (.workerError (ofString "RTMR3 value is invalid"))) >>= fun _ => (pure value : Step Bytes))
      (fun before result after => after = before ∧ ∀ read, result = .ok read → read = value) := by
    intro value
    refine relates_after_lift (fun _ _ => ⟨rfl, fun _ hok => nomatch hok⟩)
      (fun _ _ machine => ?_)
    refine ⟨rfl, fun read hok => ?_⟩
    cases hok
    rfl
  refine relates_after_call (fun _ _ => ⟨rfl, fun _ hok => nomatch hok⟩) (fun _ => ?_)
  refine relates_bind (relates_ask (P := fun before result after =>
    after = before ∧ result = .ok before.register) (fun _ => ⟨rfl, rfl⟩)) hcheck ?_ ?_
  · rintro before after e ⟨-, hok⟩
    cases hok
  · rintro before between after value result ⟨rfl, hvalue⟩ ⟨rfl, hread⟩
    cases hvalue
    exact ⟨rfl, hread⟩

/-- A reservation goes through only if the register is then the hash of zeros and the event, and
it always is the hash of what it was and the event. -/
theorem relates_recordReservation (hashes : Hashes) (hostKey clientKey challenge : Bytes) :
    Relates (recordReservation hashes calls hostKey clientKey challenge)
      (fun before result after => after.authorizedKeys = before.authorizedKeys
        ∧ after.quoteRequests = before.quoteRequests
        ∧ (result = .ok () →
          after.register
            = hashes.sha384 (before.register++reservationEvent hashes hostKey clientKey challenge)
          ∧ after.register
            = hashes.sha384 (zeros++reservationEvent hashes hostKey clientKey challenge))) := by
  have hcompare : ∀ _ : Unit, Relates
      (readRegister calls >>= fun value => (lift (raiseIf
        (value ≠ hashes.sha384 (zeros++reservationEvent hashes hostKey clientKey challenge))
        (.workerError (ofString "RTMR3 records more than this reservation"))) : Step Unit))
      (fun before result after => after = before ∧ (result = .ok () → before.register
        = hashes.sha384 (zeros++reservationEvent hashes hostKey clientKey challenge))) := by
    intro _
    refine relates_bind relates_readRegister (fun value => relates_lift _) ?_ ?_
    · rintro before after e ⟨rfl, -⟩
      exact ⟨rfl, fun hok => nomatch hok⟩
    · rintro before between after value result ⟨rfl, hvalue⟩ ⟨rfl, hresult⟩
      refine ⟨rfl, fun hok => ?_⟩
      rw [hresult, raiseIf_eq_ok, not_not] at hok
      rw [← hvalue value rfl, hok]
  refine relates_bind (relates_extendRegister hashes _) hcompare ?_ ?_
  · rintro before after e ⟨hkeys, hquotes, -⟩
    exact ⟨hkeys, hquotes, fun hok => nomatch hok⟩
  · rintro before between after a result ⟨hkeys, hquotes, hregister⟩ ⟨rfl, hread⟩
    exact ⟨hkeys, hquotes, fun hok => ⟨hregister rfl, hread hok⟩⟩

theorem relates_requestQuote (report : Bytes) :
    Relates (requestQuote calls report) (fun before _ after =>
      after = { before with quoteRequests := before.quoteRequests++[report] }) := by
  refine relates_bind (Q := fun _ before _ after => after = before) (relates_modify _)
    (fun _ => ?_) ?_ ?_
  · refine relates_after_call (fun _ _ => rfl) (fun _ => ?_)
    refine relates_after_call (fun _ _ => rfl) (fun quote => ?_)
    exact relates_after_lift (fun _ _ => rfl) (fun _ _ _ => rfl)
  · rintro before after e ⟨-, hok⟩
    cases hok
  · rintro before between after a result ⟨rfl, -⟩ rfl
    rfl

/-- A quote is requested over the report data, unless its directory could not be made. -/
theorem relates_createQuote (report : Bytes) :
    Relates (createQuote calls report) (fun before result after =>
      after.authorizedKeys = before.authorizedKeys ∧ after.register = before.register
        ∧ (after.quoteRequests = before.quoteRequests++[report]
          ∨ after.quoteRequests = before.quoteRequests ∧ ∃ e, result = .error e)) := by
  refine relates_after_call (fun _ e => ⟨rfl, rfl, Or.inr ⟨rfl, e, rfl⟩⟩) (fun _ => ?_)
  refine relates_finally (relates_requestQuote report) (relates_call calls.removeEntry) ?_
  rintro before between after result outcome rfl ⟨rfl, -⟩
  exact ⟨rfl, rfl, Or.inl rfl⟩

/-- The document of a run, of which the challenge and the keys can be read again. -/
def IsAnswer (hostKey clientKey challenge response : Bytes) : Prop :=
  ∃ document, encodeDocument document = .ok response
    ∧ decodeChallenge (field document "challenge") = .ok challenge
    ∧ decodeClientKey (field document "hostKey") = .ok hostKey
    ∧ decodeClientKey (field document "clientKey") = .ok clientKey

section Keys

variable {hostKey clientKey challenge : Bytes}

theorem readHostKey_eq_ok {content : Bytes} {line : Str}
    (h : readHostKey content = .ok (line, hostKey)) :
    line = formatPublicKey hostKey ∧ hostKey.length = ed25519KeyBytes
      ∧ ed25519KeyPrefix <+: hostKey := by
  obtain ⟨text, -, h⟩ := (bind_eq_ok _ _ _).mp h
  match hfields : runs (fun c => !isSpace c) text with
  | keyType :: key :: rest =>
    rw [hfields] at h
    simp only [validatePublicKey, bind_eq_ok, raiseIf_eq_ok, valueOr_eq_ok, pure_eq_ok,
      Prod.mk.injEq] at h
    obtain ⟨_, -, keyBlob, -, _, hkey, _, -, hline, rfl⟩ := h
    rw [not_or, not_not, not_not] at hkey
    exact ⟨hline.symm, hkey⟩
  | [] | [_] =>
    rw [hfields] at h
    cases h

theorem isAnswer_of_document (hhost : hostKey.length = ed25519KeyBytes ∧ ed25519KeyPrefix <+: hostKey)
    (hclient : clientKey.length = ed25519KeyBytes ∧ ed25519KeyPrefix <+: clientKey)
    (hchallenge : challenge.length = challengeBytes) {quote response : Bytes}
    {manifest manifestBundle : Str}
    (h : encodeDocument (attestationDocument challenge (formatPublicKey hostKey) clientKey quote
      manifest manifestBundle) = .ok response) :
    IsAnswer hostKey clientKey challenge response := by
  refine ⟨_, h, ?_, ?_, ?_⟩
  · exact (decodeChallenge_eq_ok _ _).mpr ⟨hchallenge, rfl⟩
  · exact (decodeClientKey_eq_ok _ _).mpr ⟨hhost.1, hhost.2, rfl⟩
  · exact (decodeClientKey_eq_ok _ _).mpr ⟨hclient.1, hclient.2, rfl⟩

end Keys

/-- What a run is about that gets past its checks: the host key, the client key and the
challenge. -/
def IsAbout (reads : JsonReads) (calls : SystemCalls) (request : Bytes)
    (hostKey clientKey challenge : Bytes) : Prop :=
  parseRequest reads request = .ok (challenge, clientKey)
    ∧ ∃ content line, calls.hostKeyFile = .ok content ∧ readHostKey content = .ok (line, hostKey)

/-- What a run that reached the quote has done. -/
structure HasBound (hashes : Hashes) (before after : Machine)
    (hostKey clientKey challenge : Bytes) : Prop where
  no_key : before.authorizedKeys = none
  key : after.authorizedKeys = some (authorizedKey clientKey++[0x0A])
  extended : after.register
    = hashes.sha384 (before.register++reservationEvent hashes hostKey clientKey challenge)
  compared : after.register
    = hashes.sha384 (zeros++reservationEvent hashes hostKey clientKey challenge)
  quoted : after.quoteRequests
    = before.quoteRequests++[reportData hashes hostKey clientKey challenge]

/-- The quote and what comes after it. -/
theorem relates_quoted (hashes : Hashes) {hostKey clientKey challenge : Bytes}
    (hhost : hostKey.length = ed25519KeyBytes ∧ ed25519KeyPrefix <+: hostKey)
    (hclient : clientKey.length = ed25519KeyBytes ∧ ed25519KeyPrefix <+: clientKey)
    (hchallenge : challenge.length = challengeBytes) :
    Relates (do
      let quote ← createQuote calls (reportData hashes hostKey clientKey challenge)
      let manifest ← call calls.manifestFile
      let manifest ← lift (readReleaseEvidence manifest)
      let manifestBundle ← call calls.manifestBundleFile
      let manifestBundle ← lift (readReleaseEvidence manifestBundle)
      lift (encodeDocument (attestationDocument challenge (formatPublicKey hostKey) clientKey quote
        manifest manifestBundle)))
      (fun before result after =>
        after.authorizedKeys = before.authorizedKeys ∧ after.register = before.register
          ∧ (after.quoteRequests
              = before.quoteRequests++[reportData hashes hostKey clientKey challenge]
            ∨ after.quoteRequests = before.quoteRequests)
          ∧ ∀ response, result = .ok response → IsAnswer hostKey clientKey challenge response) := by
  refine relates_bind (Q := fun _ before result after => after = before
    ∧ ∀ response, result = .ok response → IsAnswer hostKey clientKey challenge response)
    (relates_createQuote _) (fun quote => ?_) ?_ ?_
  · have hraised : ∀ (machine : Machine) (e : ListenerError), machine = machine
        ∧ ∀ response, Except.error e = .ok response → IsAnswer hostKey clientKey challenge response :=
      fun _ _ => ⟨rfl, fun _ hok => nomatch hok⟩
    refine relates_after_call hraised (fun _ => ?_)
    refine relates_after_lift hraised (fun manifest _ => ?_)
    refine relates_after_call hraised (fun _ => ?_)
    refine relates_after_lift hraised (fun manifestBundle _ machine => ?_)
    exact ⟨rfl, fun response hok => isAnswer_of_document hhost hclient hchallenge hok⟩
  · rintro before after e ⟨hkeys, hregister, hquotes⟩
    exact ⟨hkeys, hregister, hquotes.imp_right And.left, fun _ hok => nomatch hok⟩
  · rintro before between after quote result ⟨hkeys, hregister, hquotes⟩ ⟨rfl, hanswer⟩
    exact ⟨hkeys, hregister, hquotes.imp_right And.left, hanswer⟩

/-- A run leaves the quotes as they were, or it has bound the keys and the challenge that it is
about. -/
theorem relates_createAttestation (reads : JsonReads) (hashes : Hashes) (calls : SystemCalls)
    (request : Bytes) :
    Relates (createAttestation reads hashes calls request) (fun before result after =>
      after.quoteRequests = before.quoteRequests
        ∨ ∃ hostKey clientKey challenge, IsAbout reads calls request hostKey clientKey challenge
          ∧ HasBound hashes before after hostKey clientKey challenge
          ∧ ∀ response, result = .ok response →
            IsAnswer hostKey clientKey challenge response) := by
  refine relates_after_lift (fun _ _ => Or.inl rfl) ?_
  rintro ⟨challenge, clientKey⟩ hparse
  have hrequest := (parseRequest_eq_ok reads request challenge clientKey).mp hparse
  refine relates_bind (Q := fun _ before result after =>
    after.authorizedKeys = before.authorizedKeys
      ∧ (after.quoteRequests = before.quoteRequests
        ∨ ∃ hostKey content line, calls.hostKeyFile = .ok content
          ∧ readHostKey content = .ok (line, hostKey)
          ∧ after.register
            = hashes.sha384 (before.register++reservationEvent hashes hostKey clientKey challenge)
          ∧ after.register
            = hashes.sha384 (zeros++reservationEvent hashes hostKey clientKey challenge)
          ∧ after.quoteRequests
            = before.quoteRequests++[reportData hashes hostKey clientKey challenge]
          ∧ ∀ response, result = .ok response → IsAnswer hostKey clientKey challenge response))
    (relates_writeAuthorizedKey clientKey) (fun _ => ?_) ?_ ?_
  -- behind the authorized key: the host key, the reservation and the quote
  · refine relates_after_lift (fun _ _ => ⟨rfl, Or.inl rfl⟩) (fun content hcontent => ?_)
    refine relates_after_lift (fun _ _ => ⟨rfl, Or.inl rfl⟩) ?_
    rintro ⟨line, hostKey⟩ hhost
    obtain ⟨rfl, hkey⟩ := readHostKey_eq_ok hhost
    have hfile : calls.hostKeyFile = .ok content := by
      cases hread : calls.hostKeyFile with
      | error e =>
        rw [hread] at hcontent
        cases hcontent
      | ok _ =>
        rw [hread] at hcontent
        cases hcontent
        rfl
    refine relates_bind (relates_recordReservation hashes hostKey clientKey challenge)
      (fun _ => relates_quoted hashes hkey ⟨hrequest.key_length, hrequest.key_prefix⟩
        hrequest.challenge_length) ?_ ?_
    · rintro before after e ⟨hkeys, hquotes, -⟩
      exact ⟨hkeys, Or.inl hquotes⟩
    -- the register was extended before the quote was asked for
    · rintro before between after a result ⟨hkeys, hquotes, hregister⟩
        ⟨hkeys', hregister', hquoted | hnone, hanswer⟩
      · obtain ⟨hextended, hcompared⟩ := hregister rfl
        refine ⟨hkeys'.trans hkeys, Or.inr ⟨hostKey, content, _, hfile, hhost, ?_, ?_, ?_, hanswer⟩⟩
        · rw [hregister', hextended]
        · rw [hregister', hcompared]
        · rw [hquoted, hquotes]
      · exact ⟨hkeys'.trans hkeys, Or.inl (hnone.trans hquotes)⟩
  · rintro before after e ⟨-, hquotes, -⟩
    exact Or.inl hquotes
  · rintro before between after a result ⟨hregister, hquotes, hkey⟩ ⟨hkeys, hnone | hquoted⟩
    · exact Or.inl (hnone.trans hquotes)
    · obtain ⟨hostKey, content, line, hfile, hhost, hextended, hcompared, hquoted, hanswer⟩ := hquoted
      obtain ⟨hnew, hline⟩ := hkey rfl
      refine Or.inr ⟨hostKey, clientKey, challenge, ⟨hparse, content, line, hfile, hhost⟩,
        ⟨hnew, hkeys.trans hline, ?_, hcompared, ?_⟩, hanswer⟩
      · rw [hextended, hregister]
      · rw [hquoted, hquotes]

end Listener

end ConferWorker
