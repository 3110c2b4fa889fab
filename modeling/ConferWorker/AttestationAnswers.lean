import ConferWorker.AttestationBinding
import ConferWorker.JsonRoundTrip

/-! What is in an attestation that was sent: the quote and the release evidence as the system
calls returned them, in a document that a JSON parser reads again. -/
namespace ConferWorker

namespace Listener

open Script

variable {calls : SystemCalls}

theorem call_returns {α : Type} {outcome : Except PythonError α} {machine after : Machine} {a : α}
    (h : call outcome machine = (.ok a, after)) : outcome = .ok a ∧ machine = after := by
  obtain ⟨houtcome, rfl⟩ := lift_returns h
  exact ⟨(mapError_eq_ok _ _ _).mp houtcome, rfl⟩

/-- A quote that was returned was requested over the report data, and has a size that is
allowed. -/
theorem createQuote_returns {report quote : Bytes} {machine after : Machine}
    (h : createQuote calls report machine = (.ok quote, after)) :
    calls.readOutblob = .ok quote ∧ quote ≠ [] ∧ quote.length ≤ maxQuoteBytes
      ∧ after = { machine with quoteRequests := machine.quoteRequests++[report] } := by
  obtain ⟨_, _, hentry, hrest⟩ := bind_returns h
  obtain ⟨-, rfl⟩ := call_returns hentry
  have hresult := congrArg Prod.fst hrest
  have hafter := congrArg Prod.snd hrest
  change finallyResult (requestQuote calls report machine).1
    (call calls.removeEntry (requestQuote calls report machine).2).1 = .ok quote at hresult
  change (requestQuote calls report machine).2 = after at hafter
  have hquote : requestQuote calls report machine = (.ok quote, after) := by
    rcases hbody : requestQuote calls report machine with ⟨result, between⟩
    rw [hbody] at hresult hafter
    obtain rfl : between = after := hafter
    cases hremove : calls.removeEntry with
    | error e =>
      rw [hremove] at hresult
      cases hresult
    | ok _ =>
      rw [hremove] at hresult
      obtain rfl : result = .ok quote := hresult
      rfl
  obtain ⟨_, _, hreport, hquote⟩ := bind_returns hquote
  cases hreport
  obtain ⟨_, _, hstep, hquote⟩ := bind_returns hquote
  obtain ⟨-, rfl⟩ := call_returns hstep
  obtain ⟨_, _, hstep, hquote⟩ := bind_returns hquote
  obtain ⟨houtblob, rfl⟩ := call_returns hstep
  obtain ⟨_, _, hstep, hquote⟩ := bind_returns hquote
  obtain ⟨hsize, rfl⟩ := lift_returns hstep
  cases hquote
  rw [raiseIf_eq_ok, not_or, not_lt] at hsize
  exact ⟨houtblob, hsize.1, hsize.2, rfl⟩

/-- Evidence that was read is the content of its file, and a text. -/
theorem readReleaseEvidence_eq_ok {content : Bytes} {text : Str}
    (h : readReleaseEvidence content = .ok text) : Encodable text ∧ utf8 text = content := by
  obtain ⟨_, -, htext⟩ := (bind_eq_ok _ _ _).mp h
  exact (decodeUtf8_eq_some_iff _ _).mp ((valueOr_eq_ok _ _ _).mp htext)

/-- The bytes of an attestation for a host key, a client key and a challenge, with the quote and
the evidence of these system calls. -/
structure IsAttestation (calls : SystemCalls) (hostKey clientKey challenge response : Bytes)
    (quote : Bytes) (manifest manifestBundle : Str) : Prop where
  outblob : calls.readOutblob = .ok quote
  manifest_file : calls.manifestFile = .ok (utf8 manifest)
  bundle_file : calls.manifestBundleFile = .ok (utf8 manifestBundle)
  manifest_text : Encodable manifest
  bundle_text : Encodable manifestBundle
  encoded : encodeDocument (attestationDocument challenge (formatPublicKey hostKey) clientKey quote
    manifest manifestBundle) = .ok response

/-- The quote and what comes after it, in a run that returns. -/
theorem quoted_returns {report response : Bytes} {machine after : Machine}
    {document : Bytes → Str → Str → List (Str × Json)}
    (h : (do
      let quote ← createQuote calls report
      let manifest ← call calls.manifestFile
      let manifest ← lift (readReleaseEvidence manifest)
      let manifestBundle ← call calls.manifestBundleFile
      let manifestBundle ← lift (readReleaseEvidence manifestBundle)
      lift (encodeDocument (document quote manifest manifestBundle)) : Step Bytes) machine
        = (.ok response, after)) :
    ∃ quote manifest manifestBundle, calls.readOutblob = .ok quote
      ∧ calls.manifestFile = .ok (utf8 manifest)
      ∧ calls.manifestBundleFile = .ok (utf8 manifestBundle)
      ∧ Encodable manifest ∧ Encodable manifestBundle
      ∧ encodeDocument (document quote manifest manifestBundle) = .ok response
      ∧ after = { machine with quoteRequests := machine.quoteRequests++[report] } := by
  obtain ⟨quote, _, hquote, hevidence⟩ := bind_returns h
  obtain ⟨houtblob, -, -, rfl⟩ := createQuote_returns hquote
  obtain ⟨_, _, hcall, hread⟩ := bind_returns hevidence
  obtain ⟨hfile, rfl⟩ := call_returns hcall
  obtain ⟨manifest, _, hlift, hbundle⟩ := bind_returns hread
  obtain ⟨htext, rfl⟩ := lift_returns hlift
  obtain ⟨hencodable, rfl⟩ := readReleaseEvidence_eq_ok htext
  obtain ⟨_, _, hcall', hread'⟩ := bind_returns hbundle
  obtain ⟨hfile', rfl⟩ := call_returns hcall'
  obtain ⟨manifestBundle, _, hlift', hdocument⟩ := bind_returns hread'
  obtain ⟨htext', rfl⟩ := lift_returns hlift'
  obtain ⟨hencodable', rfl⟩ := readReleaseEvidence_eq_ok htext'
  obtain ⟨hencoded, rfl⟩ := lift_returns hdocument
  exact ⟨quote, manifest, manifestBundle, houtblob, hfile, hfile', hencodable, hencodable',
    hencoded, rfl⟩

/-- A run that returns has bound what it is about, and its answer is about the same. -/
theorem createAttestation_returns {reads : JsonReads} {hashes : Hashes} {request response : Bytes}
    {machine after : Machine}
    (h : createAttestation reads hashes calls request machine = (.ok response, after)) :
    ∃ hostKey clientKey challenge quote manifest manifestBundle,
      IsAbout reads calls request hostKey clientKey challenge
      ∧ HasBound hashes machine after hostKey clientKey challenge
      ∧ IsAttestation calls hostKey clientKey challenge response quote manifest manifestBundle := by
  obtain ⟨⟨challenge, clientKey⟩, _, hlift, hparsed⟩ := bind_returns h
  obtain ⟨hparse, rfl⟩ := lift_returns hlift
  obtain ⟨_, keyed, hkey, hkeyed⟩ := bind_returns hparsed
  have hwritten := (relates_writeAuthorizedKey clientKey :
    Relates (writeAuthorizedKey calls clientKey) _) machine
  rw [hkey] at hwritten
  obtain ⟨hregister, hquotes, hwritten⟩ := hwritten
  obtain ⟨hnone, hline⟩ := hwritten rfl
  obtain ⟨content, _, hcall, hread⟩ := bind_returns hkeyed
  obtain ⟨hfile, rfl⟩ := call_returns hcall
  obtain ⟨⟨line, hostKey⟩, _, hlift, hvalid⟩ := bind_returns hread
  obtain ⟨hhost, rfl⟩ := lift_returns hlift
  obtain ⟨rfl, -⟩ := readHostKey_eq_ok hhost
  obtain ⟨_, reserved, hreserve, hquoted⟩ := bind_returns hvalid
  have hrecorded := (relates_recordReservation hashes hostKey clientKey challenge :
    Relates (recordReservation hashes calls hostKey clientKey challenge) _) keyed
  rw [hreserve] at hrecorded
  obtain ⟨hkeys', hquotes', hrecorded⟩ := hrecorded
  obtain ⟨hextended, hcompared⟩ := hrecorded rfl
  obtain ⟨quote, manifest, manifestBundle, houtblob, hmanifest, hbundle, htext, htext', hencoded,
    rfl⟩ := quoted_returns hquoted
  refine ⟨hostKey, clientKey, challenge, quote, manifest, manifestBundle,
    ⟨hparse, content, _, hfile, hhost⟩, ⟨hnone, hkeys'.trans hline, ?_, hcompared, ?_⟩,
    ⟨houtblob, hmanifest, hbundle, htext, htext', hencoded⟩⟩
  · exact hextended.trans (by rw [hregister])
  · change reserved.quoteRequests++_ = _
    rw [hquotes', hquotes]

section Reading

variable (runtime : JsonRuntime)

theorem encodable_asciiText {b : Bytes} (h : ∀ c ∈ b, c.toNat < 0x80) :
    Encodable (asciiText b) := by
  intro c hc
  obtain ⟨d, hd, rfl⟩ := List.mem_map.mp hc
  have hlt := h d hd
  apply decide_eq_false
  rw [Fin.val_ofNat]
  omega

theorem encodable_encodeUrlsafe (value : Bytes) : Encodable (encodeUrlsafe value) :=
  encodable_asciiText (Base64.rstripPad_ascii value)

theorem encodable_formatPublicKey (keyBlob : Bytes) : Encodable (formatPublicKey keyBlob) := by
  have hkeyType : Encodable keyTypePrefix := by decide
  exact (encodable_append _ _).mpr
    ⟨hkeyType, encodable_asciiText (Base64.b64encode_ascii keyBlob)⟩

/-- A member of a flat document: a text, or a small number. -/
def IsFlat (member : Str × Json) : Prop :=
  Encodable member.1 ∧ ((∃ text, member.2 = .str text ∧ Encodable text)
    ∨ ∃ n : ℤ, member.2 = .int n ∧ n.natAbs < Json.intLimit)

theorem readsAt_flat (depth : ℕ) {document : List (Str × Json)}
    (h : ∀ member ∈ document, IsFlat member) :
    JsonParser.MembersReadAt runtime JsonSpelling.ascii.Keeps depth document := by
  have hkeeps {s : Str} (hs : Encodable s) : JsonSpelling.ascii.Keeps s :=
    JsonSpelling.ascii_keeps (JsonSpelling.noSplitPairs_of_encodable hs)
  induction document with
  | nil => trivial
  | cons member document ih =>
    obtain ⟨⟨hname, hvalue⟩, hrest⟩ := List.forall_mem_cons.mp h
    refine ⟨hkeeps hname, ?_, ih hrest⟩
    rcases hvalue with ⟨value, hvalue, hencodable⟩ | ⟨n, hvalue, hn⟩
    · rw [hvalue, JsonParser.ReadsAt]
      exact hkeeps hencodable
    · rw [hvalue, JsonParser.ReadsAt]
      exact hn

/-- A flat document is read again from its bytes. -/
theorem read_encodeDocument (hdepth : 0 < runtime.maxDepth) {document : List (Str × Json)}
    {response : Bytes} (hflat : ∀ member ∈ document, IsFlat member)
    (h : encodeDocument document = .ok response) :
    ∃ text, decodeUtf8 response = some text
      ∧ JsonParser.read runtime text = .ok (.obj document) := by
  obtain ⟨text, htext, h⟩ := (bind_eq_ok _ _ _).mp h
  obtain ⟨encoded, hencoded, h⟩ := (bind_eq_ok _ _ _).mp h
  obtain ⟨_, -, h⟩ := (bind_eq_ok _ _ _).mp h
  obtain rfl := (pure_eq_ok _ _).mp h
  obtain ⟨hencodable, rfl⟩ := (encodeText_eq_ok _ _).mp ((mapError_eq_ok _ _ _).mp hencoded)
  obtain ⟨plain, hplain, htext⟩ := (bind_eq_ok _ _ _).mp ((mapError_eq_ok _ _ _).mp htext)
  obtain rfl := (pure_eq_ok _ _).mp htext
  refine ⟨_, decodeUtf8_utf8 _ hencodable, ?_⟩
  change JsonParser.read runtime (plain.flatMap JsonSpelling.ascii.spell) = .ok (.obj document)
  apply JsonParser.read_dumps hplain
  obtain ⟨depth, hlevels⟩ : ∃ depth, runtime.maxDepth = depth+1 := ⟨runtime.maxDepth-1, by omega⟩
  rw [hlevels, JsonParser.ReadsAt]
  exact readsAt_flat runtime depth hflat

/-- What a client reads in an attestation. -/
theorem read_attestation (hdepth : 0 < runtime.maxDepth)
    {hostKey clientKey challenge response quote : Bytes} {manifest manifestBundle : Str}
    (h : IsAttestation calls hostKey clientKey challenge response quote manifest manifestBundle) :
    ∃ text, decodeUtf8 response = some text ∧ JsonParser.read runtime text
      = .ok (.obj (attestationDocument challenge (formatPublicKey hostKey) clientKey quote manifest
        manifestBundle)) := by
  have hnames : Encodable (ofString "version") ∧ Encodable (ofString "platform")
      ∧ Encodable (ofString "protocol") ∧ Encodable (ofString "challenge")
      ∧ Encodable (ofString "hostKey") ∧ Encodable (ofString "clientKey")
      ∧ Encodable (ofString "quote") ∧ Encodable (ofString "manifest")
      ∧ Encodable (ofString "manifestBundle") := by decide
  obtain ⟨hversion, hplatform, hprotocol, hchallenge, hhostKey, hclientKey, hquote, hmanifest,
    hbundle⟩ := hnames
  have hfixed : Encodable (ofString "TDX") ∧ Encodable (ofString "SSH-2.0") := by decide
  have htext {name text : Str} (hname : Encodable name) (hvalue : Encodable text) :
      IsFlat (name, .str text) := ⟨hname, Or.inl ⟨text, rfl, hvalue⟩⟩
  apply read_encodeDocument runtime hdepth _ h.encoded
  simp only [attestationDocument, List.forall_mem_cons]
  exact ⟨⟨hversion, Or.inr ⟨version, rfl, Json.lt_intLimit (by decide)⟩⟩,
    htext hplatform hfixed.1, htext hprotocol hfixed.2,
    htext hchallenge (encodable_encodeUrlsafe challenge),
    htext hhostKey (encodable_formatPublicKey hostKey),
    htext hclientKey (encodable_formatPublicKey clientKey),
    htext hquote (encodable_encodeUrlsafe quote), htext hmanifest h.manifest_text,
    htext hbundle h.bundle_text, List.forall_mem_nil _⟩

end Reading

end Listener

end ConferWorker
