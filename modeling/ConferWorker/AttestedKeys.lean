import ConferWorker.AttestationBinding

/-! What an attestation binds: a quote stands for one host key, one client key and one challenge,
as long as the hashes do not collide on what was hashed. -/
namespace ConferWorker

namespace Listener

/-- A hash does not collide on some inputs. -/
def NoCollision (hash : Bytes → Bytes) (inputs : List Bytes) : Prop :=
  ∀ x ∈ inputs, ∀ y ∈ inputs, hash x = hash y → x = y

theorem NoCollision.left {hash : Bytes → Bytes} {inputs more : List Bytes}
    (h : NoCollision hash (inputs++more)) : NoCollision hash inputs :=
  fun x hx y hy => h x (List.mem_append_left _ hx) y (List.mem_append_left _ hy)

theorem NoCollision.right {hash : Bytes → Bytes} {inputs more : List Bytes}
    (h : NoCollision hash (inputs++more)) : NoCollision hash more :=
  fun x hx y hy => h x (List.mem_append_right _ hx) y (List.mem_append_right _ hy)

/-- One call of `create_attestation`. -/
structure AttestationRun where
  calls : SystemCalls
  machine : Machine
  request : Bytes

namespace AttestationRun

variable (reads : JsonReads) (hashes : Hashes) (run : AttestationRun)

/-- The result, and the machine afterwards. -/
def finish : Except ListenerError Bytes × Machine :=
  createAttestation reads hashes run.calls run.request run.machine

/-- A quote was requested. -/
def ReachesQuote : Prop := (run.finish reads hashes).2.quoteRequests ≠ run.machine.quoteRequests

/-- The host key, the client key and the challenge that the run is about, if its request and the
host-key file are valid. -/
def binding : Option (Bytes × Bytes × Bytes) :=
  match parseRequest reads run.request, run.calls.hostKeyFile with
  | .ok (challenge, clientKey), .ok content =>
    match readHostKey content with
    | .ok (_, hostKey) => some (hostKey, clientKey, challenge)
    | .error _ => none
  | _, _ => none

/-- What the run and the register hash with SHA-384. -/
def sha384Inputs : List Bytes :=
  match run.binding reads with
  | some (hostKey, clientKey, challenge) =>
    let event := reservationEvent hashes hostKey clientKey challenge
    [reservationDomain++hostKey++clientKey++challenge, run.machine.register++event, zeros++event]
  | none => []

/-- What the run hashes with SHA-512. -/
def sha512Inputs : List Bytes :=
  match run.binding reads with
  | some (hostKey, clientKey, challenge) => [reportDomain++hostKey++clientKey++challenge]
  | none => []

/-- The report data of the last quote. -/
def report : Option Bytes := (run.finish reads hashes).2.quoteRequests.getLast?

/-- What a run has done for the keys and the challenge of its quote. -/
structure Binds (hostKey clientKey challenge : Bytes) : Prop where
  about : run.binding reads = some (hostKey, clientKey, challenge)
  register_before : run.machine.register = zeros
  register_after : (run.finish reads hashes).2.register
    = hashes.sha384 (zeros++hashes.sha384 (reservationDomain++hostKey++clientKey++challenge))
  quote : (run.finish reads hashes).2.quoteRequests = run.machine.quoteRequests
    ++[hashes.sha512 (reportDomain++hostKey++clientKey++challenge)]
  no_key_before : run.machine.authorizedKeys = none
  key_after : ∃ line, (run.finish reads hashes).2.authorizedKeys = some (line++[0x0A])
    ∧ 0x0A ∉ line ∧ line = utf8 (ofString "restrict "++formatPublicKey clientKey)
    ∧ decodeClientKey (.str (formatPublicKey clientKey)) = .ok clientKey
  answer : ∀ response, (run.finish reads hashes).1 = .ok response →
    IsAnswer hostKey clientKey challenge response

end AttestationRun

/-- An authorized key is one line. -/
theorem authorizedKey_line (keyBlob : Bytes) : 0x0A ∉ authorizedKey keyBlob := by
  have hfixed : (ofString "restrict "++keyTypePrefix).all
      (fun c => decide (0x0A < c.val ∧ c.val < 0x80)) = true := by decide
  have hprintable : ∀ c ∈ ofString "restrict "++formatPublicKey keyBlob,
      0x0A < c.val ∧ c.val < 0x80 := by
    intro c hc
    rw [formatPublicKey, ← List.append_assoc, List.mem_append] at hc
    rcases hc with hc | hc
    · exact of_decide_eq_true (List.all_eq_true.mp hfixed c hc)
    · obtain ⟨d, hd, rfl⟩ := List.mem_map.mp hc
      have hdigit := Base64.b64encode_printable keyBlob d hd
      show 0x0A < d.toNat%0x110000 ∧ d.toNat%0x110000 < 0x80
      omega
  intro hmem
  obtain ⟨c, hc, hbyte⟩ := List.mem_flatMap.mp hmem
  have hrange := hprintable c hc
  have hone : utf8Bytes c = [UInt8.ofNat c.val] := by
    simp only [utf8Bytes, if_pos hrange.2]
  rw [hone, List.mem_singleton] at hbyte
  have hval := congrArg UInt8.toNat hbyte
  rw [UInt8.toNat_ofNat'] at hval
  change 0x0A = c.val%256 at hval
  omega

/-- The three validators fix the lengths of the parts of what is hashed. -/
theorem parts_eq {domain hostKey clientKey challenge hostKey' clientKey' challenge' : Bytes}
    (hhost : hostKey.length = hostKey'.length) (hclient : clientKey.length = clientKey'.length)
    (h : domain++hostKey++clientKey++challenge = domain++hostKey'++clientKey'++challenge') :
    hostKey = hostKey' ∧ clientKey = clientKey' ∧ challenge = challenge' := by
  rw [List.append_assoc, List.append_assoc, List.append_assoc, List.append_assoc,
    List.append_cancel_left_eq] at h
  obtain ⟨hhosts, hrest⟩ := List.append_inj h hhost
  obtain ⟨hclients, hchallenges⟩ := List.append_inj hrest hclient
  exact ⟨hhosts, hclients, hchallenges⟩

namespace AttestationRun

variable {reads : JsonReads} {hashes : Hashes}

theorem binding_eq_some {run : AttestationRun} {hostKey clientKey challenge : Bytes}
    (h : IsAbout reads run.calls run.request hostKey clientKey challenge) :
    run.binding reads = some (hostKey, clientKey, challenge) := by
  obtain ⟨hparse, content, line, hcontent, hhost⟩ := h
  rw [binding, hparse, hcontent]
  dsimp only
  rw [hhost]

/-- A run that reaches the quote has bound what it is about. -/
theorem binds_of_reachesQuote {run : AttestationRun} (hreaches : run.ReachesQuote reads hashes)
    (hfree : NoCollision hashes.sha384 (run.sha384Inputs reads hashes)) :
    ∃ hostKey clientKey challenge, run.Binds reads hashes hostKey clientKey challenge
      ∧ hostKey.length = ed25519KeyBytes ∧ clientKey.length = ed25519KeyBytes := by
  rcases relates_createAttestation reads hashes run.calls run.request run.machine with
    hnone | ⟨hostKey, clientKey, challenge, habout, hbound, hanswer⟩
  · exact absurd hnone hreaches
  · have hbinding := binding_eq_some habout
    have hrequest := (parseRequest_eq_ok reads _ _ _).mp habout.1
    obtain ⟨content, line, -, hhost⟩ := habout.2
    have hzero : run.machine.register = zeros := by
      rw [sha384Inputs, hbinding] at hfree
      have hsame := hfree _ (List.mem_cons_of_mem _ List.mem_cons_self) _
        (List.mem_cons_of_mem _ (List.mem_cons_of_mem _ (List.mem_singleton_self _)))
        (hbound.extended.symm.trans hbound.compared)
      exact List.append_cancel_right hsame
    refine ⟨hostKey, clientKey, challenge, ⟨hbinding, hzero, hbound.compared, hbound.quoted,
      hbound.no_key, ⟨_, hbound.key, authorizedKey_line clientKey, rfl, ?_⟩, hanswer⟩,
      (readHostKey_eq_ok hhost).2.1, hrequest.key_length⟩
    exact (decodeClientKey_eq_ok _ _).mpr ⟨hrequest.key_length, hrequest.key_prefix, rfl⟩

/-- Two runs that reach the quote with the same report data, or that leave the same value in the
register, are about the same keys and the same challenge. -/
theorem binding_unique {run other : AttestationRun}
    (hfree384 : NoCollision hashes.sha384
      (run.sha384Inputs reads hashes++other.sha384Inputs reads hashes))
    (hfree512 : NoCollision hashes.sha512 (run.sha512Inputs reads++other.sha512Inputs reads))
    (hrun : run.ReachesQuote reads hashes) (hother : other.ReachesQuote reads hashes)
    (hsame : run.report reads hashes = other.report reads hashes
      ∨ (run.finish reads hashes).2.register = (other.finish reads hashes).2.register) :
    run.binding reads = other.binding reads := by
  obtain ⟨hostKey, clientKey, challenge, hbinds, hhost, hclient⟩ :=
    binds_of_reachesQuote hrun hfree384.left
  obtain ⟨hostKey', clientKey', challenge', hbinds', hhost', hclient'⟩ :=
    binds_of_reachesQuote hother hfree384.right
  have hparts : ∀ domain : Bytes, domain++hostKey++clientKey++challenge
      = domain++hostKey'++clientKey'++challenge' → run.binding reads = other.binding reads := by
    intro domain h
    obtain ⟨rfl, rfl, rfl⟩ := parts_eq (hhost.trans hhost'.symm) (hclient.trans hclient'.symm) h
    rw [hbinds.about, hbinds'.about]
  rcases hsame with hreport | hregister
  · rw [report, report, hbinds.quote, hbinds'.quote, List.getLast?_concat, List.getLast?_concat,
      Option.some.injEq] at hreport
    rw [sha512Inputs, sha512Inputs, hbinds.about, hbinds'.about] at hfree512
    exact hparts _ (hfree512 _ (List.mem_append_left _ (List.mem_singleton_self _)) _
      (List.mem_append_right _ (List.mem_singleton_self _)) hreport)
  · rw [hbinds.register_after, hbinds'.register_after] at hregister
    rw [sha384Inputs, sha384Inputs, hbinds.about, hbinds'.about] at hfree384
    have hlast : ∀ a b c : Bytes, c ∈ [a, b, c] := fun a b c =>
      List.mem_cons_of_mem _ (List.mem_cons_of_mem _ (List.mem_singleton_self _))
    have hevent := hfree384 _ (List.mem_append_left _ (hlast _ _ _)) _
      (List.mem_append_right _ (hlast _ _ _)) hregister
    exact hparts _ (hfree384 _ (List.mem_append_left _ List.mem_cons_self) _
      (List.mem_append_right _ List.mem_cons_self) (List.append_cancel_left hevent))

/-- If the hashes do not collide on what two runs hash: a run that reaches the quote found the
register all zero and no key file, and binds its keys and its challenge; with another register or
with a key file it does not reach the quote; and equal report data or equal registers of two such
runs mean equal keys and challenges. -/
theorem attestation_binds (reads : JsonReads) (hashes : Hashes) (run other : AttestationRun)
    (hfree384 : NoCollision hashes.sha384
      (run.sha384Inputs reads hashes++other.sha384Inputs reads hashes))
    (hfree512 : NoCollision hashes.sha512 (run.sha512Inputs reads++other.sha512Inputs reads)) :
    (run.ReachesQuote reads hashes → ∃ hostKey clientKey challenge,
      run.Binds reads hashes hostKey clientKey challenge)
    ∧ (run.machine.register ≠ zeros ∨ run.machine.authorizedKeys ≠ none →
      ¬run.ReachesQuote reads hashes)
    ∧ (run.ReachesQuote reads hashes → other.ReachesQuote reads hashes →
      run.report reads hashes = other.report reads hashes
        ∨ (run.finish reads hashes).2.register = (other.finish reads hashes).2.register →
      run.binding reads = other.binding reads) := by
  refine ⟨fun hreaches => ?_, fun hused hreaches => ?_, binding_unique hfree384 hfree512⟩
  · obtain ⟨hostKey, clientKey, challenge, hbinds, -⟩ := binds_of_reachesQuote hreaches hfree384.left
    exact ⟨hostKey, clientKey, challenge, hbinds⟩
  · obtain ⟨hostKey, clientKey, challenge, hbinds, -⟩ := binds_of_reachesQuote hreaches hfree384.left
    rcases hused with hregister | hkeys
    · exact hregister hbinds.register_before
    · exact hkeys hbinds.no_key_before

section Golden

/-- A public key that repeats one byte. -/
def goldenKey (b : UInt8) : Bytes := ed25519KeyPrefix++List.replicate 32 b

def goldenChallenge : Bytes := (List.range 32).map UInt8.ofNat

def goldenText : Str :=
  ofString "\x7b\"version\":4,\"challenge\":\"AAECAwQFBgcICQoLDA0ODxAREhMUFRYXGBkaGxwdHh8\","
  ++ofString "\"clientKey\":\"ssh-ed25519 AAAAC3NzaC1lZDI1NTE5AAAAIAcHBwcHBwcHBwcHBwcHBwcHBw"
  ++ofString "cHBwcHBwcHBwcHBwcH\"\x7d"

/-- What `json` reads in this text. -/
def goldenReads : JsonReads := fun text =>
  if text = goldenText then
    .ok (.obj [(ofString "version", .int 4),
      (ofString "challenge", .str (encodeUrlsafe goldenChallenge)),
      (ofString "clientKey", .str (formatPublicKey (goldenKey 7)))])
  else .error ([], .notJson)

def goldenEvent : Bytes := toBig 48
  0x9c0396ba2a62f652c3f247bc1e9468e9643b37d855cba78763e0fb38c8dc2b8b327a4a261fc8b8217f7d734a8d88146f

/-- The hashes of what is hashed for these keys and this challenge. -/
def goldenHashes : Hashes where
  sha384 input :=
    if input = reservationDomain++goldenKey 9++goldenKey 7++goldenChallenge then goldenEvent
    else if input = zeros++goldenEvent then toBig 48
      0x4f883dce24b9f83ba2671a5bbd1e168e3cd95562196bf7829bed8efd1ef0b3e65c4b84b3db5609b9ee5176de0d55d6d3
    else []
  sha512 input :=
    if input = reportDomain++goldenKey 9++goldenKey 7++goldenChallenge then toBig 64
      0x6ecc465db853453cb0845d319a3c66f0dc2fb355aad55b1c8933153b533706adcfcb475b3eb4d264b0d540c30c9255c8198e07b2fca8e2dafdfe750c2fda66cc
    else []

/-- A run in which no system call fails. -/
def goldenRun : AttestationRun where
  calls := {
    openKeys := .ok ()
    writeKeys := .ok ()
    syncKeys := .ok ()
    hostKeyFile := .ok (utf8 (formatPublicKey (goldenKey 9)++ofString " ignored-comment\n"))
    openRegister := .ok ()
    writeRegister := .ok 48
    readRegister := .ok ()
    makeEntry := .ok ()
    writeInblob := .ok ()
    readOutblob := .ok (utf8 (ofString "tdx-quote"))
    removeEntry := .ok ()
    manifestFile := .ok (utf8 (ofString "[]"))
    manifestBundleFile := .ok (utf8 (ofString "[]")) }
  machine := ⟨none, zeros, []⟩
  request := utf8 goldenText

theorem attestation_binds_golden :
    ∃ hostKey clientKey challenge,
      goldenRun.Binds goldenReads goldenHashes hostKey clientKey challenge := by
  have hbinding : goldenRun.binding goldenReads
      = some (goldenKey 9, goldenKey 7, goldenChallenge) := by decide +kernel
  have hfree384 : NoCollision goldenHashes.sha384 (goldenRun.sha384Inputs goldenReads goldenHashes
      ++goldenRun.sha384Inputs goldenReads goldenHashes) := by
    rw [sha384Inputs, hbinding]
    unfold NoCollision
    decide +kernel
  have hfree512 : NoCollision goldenHashes.sha512
      (goldenRun.sha512Inputs goldenReads++goldenRun.sha512Inputs goldenReads) := by
    rw [sha512Inputs, hbinding]
    unfold NoCollision
    decide +kernel
  apply (attestation_binds goldenReads goldenHashes goldenRun goldenRun hfree384 hfree512).1
  unfold ReachesQuote
  decide +kernel

end Golden

end AttestationRun

end Listener

end ConferWorker
