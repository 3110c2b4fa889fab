import ConferWorker.AttestationAnswers

/-! The size of an attestation: `create_attestation` refuses one of more than 256 KiB, and it holds
the release evidence as JSON texts in ASCII. -/
namespace ConferWorker

namespace Json

/-- How many bytes the text takes in JSON, in ASCII and with its quotes. -/
def asciiQuotedSize (s : Str) : ℕ :=
  2+(s.map (fun c => ((escapeCharacter c).flatMap asciiEscape).length)).sum

theorem ascii_quote_length (s : Str) :
    ((quote s).flatMap asciiEscape).length = asciiQuotedSize s := by
  have hquote : ([0x22] : Str).flatMap asciiEscape = [0x22] := by decide
  rw [quote, List.flatMap_append, List.flatMap_append, hquote, List.length_append,
    List.length_append, List.length_singleton, List.flatMap_assoc, List.length_flatMap,
    asciiQuotedSize]
  omega

/-- The number of a printable character that JSON does not escape. -/
def IsPlainCode (n : ℕ) : Prop := 0x20 ≤ n ∧ n ≤ 0x7E ∧ n ≠ 0x22 ∧ n ≠ 0x5C

theorem ascii_plain {c : CodePoint} (h : IsPlainCode c.val) :
    (escapeCharacter c).flatMap asciiEscape = [c] := by
  obtain ⟨hlow, hhigh, hquote, hbackslash⟩ := h
  have hother (d : CodePoint) (hd : c.val ≠ d.val) : c ≠ d := fun hc => hd (congrArg Fin.val hc)
  have hcontrol (d : CodePoint) (hd : d.val < 0x20) : c ≠ d := hother d (by omega)
  have hescape : escapeCharacter c = [c] := by
    unfold escapeCharacter
    rw [if_neg (hother _ hquote), if_neg (hother _ hbackslash), if_neg (hcontrol _ (by decide)),
      if_neg (hcontrol _ (by decide)), if_neg (hcontrol _ (by decide)),
      if_neg (hcontrol _ (by decide)), if_neg (hcontrol _ (by decide)), if_neg (not_lt.mpr hlow)]
  rw [hescape, List.flatMap_singleton]
  unfold asciiEscape
  exact if_pos ⟨hlow, hhigh⟩

theorem asciiQuotedSize_plain {s : Str} (h : ∀ c ∈ s, IsPlainCode c.val) :
    asciiQuotedSize s = s.length+2 := by
  have hones : s.map (fun c => ((escapeCharacter c).flatMap asciiEscape).length)
      = List.replicate s.length 1 := by
    rw [List.eq_replicate_iff, List.length_map]
    refine ⟨rfl, fun n hn => ?_⟩
    obtain ⟨c, hc, rfl⟩ := List.mem_map.mp hn
    rw [ascii_plain (h c hc), List.length_singleton]
  rw [asciiQuotedSize, hones, List.sum_replicate, smul_eq_mul, mul_one, Nat.add_comm]

end Json

namespace Base64

theorem b64encode_length (s : Bytes) : (b64encode s).length = 4*((s.length+2)/3) := by
  induction s using b64encode.induct with
  | case1 a b c rest ih =>
    rw [b64encode]
    simp only [List.length_cons, ih]
    omega
  | case2 a b => simp only [b64encode, List.length_cons, List.length_nil]
  | case3 a => simp only [b64encode, List.length_cons, List.length_nil]
  | case4 => rfl

/-- The characters of an encoding stand for themselves in JSON. -/
theorem b64encode_characters (s : Bytes) : ∀ c ∈ b64encode s, Json.IsPlainCode c.toNat := by
  have hdigit : ∀ n : Fin 64, Json.IsPlainCode (digit n.val).toNat := by
    unfold Json.IsPlainCode
    decide
  have hpad : Json.IsPlainCode pad.toNat := by
    unfold Json.IsPlainCode
    decide
  obtain ⟨body, padding, hencode, hbody, -⟩ := b64encode_eq s
  rw [hencode]
  intro c hc
  rcases List.mem_append.mp hc with hmem | hmem
  · obtain ⟨n, hn, rfl⟩ := hbody c hmem
    exact hdigit ⟨n, hn⟩
  · rw [List.eq_of_mem_replicate hmem]
    exact hpad

theorem rstripPad_characters (s : Bytes) :
    ∀ c ∈ rstripPad (urlsafeB64encode s), Json.IsPlainCode c.toNat := by
  have hdash : Json.IsPlainCode (0x2D : UInt8).toNat ∧ Json.IsPlainCode (0x5F : UInt8).toNat := by
    unfold Json.IsPlainCode
    decide
  intro c hc
  have hmem : c ∈ urlsafeB64encode s :=
    List.mem_reverse.mp ((List.dropWhile_suffix _).mem (List.mem_reverse.mp hc))
  obtain ⟨d, hd, rfl⟩ := List.mem_map.mp hmem
  unfold toAltchars
  split_ifs
  · exact hdash.1
  · exact hdash.2
  · exact b64encode_characters s d hd

theorem rstripPad_length_le (s : Bytes) :
    (rstripPad (urlsafeB64encode s)).length ≤ 4*((s.length+2)/3) := by
  rw [← b64encode_length s, rstripPad, List.length_reverse]
  refine ((List.dropWhile_suffix _).length_le).trans ?_
  rw [List.length_reverse, urlsafeB64encode, List.length_map]

end Base64

namespace Listener

theorem asciiText_size {b : Bytes} (h : ∀ c ∈ b, Json.IsPlainCode c.toNat) :
    Json.asciiQuotedSize (asciiText b) = b.length+2 := by
  have hplain : ∀ c ∈ asciiText b, Json.IsPlainCode c.val := by
    intro c hc
    obtain ⟨d, hd, rfl⟩ := List.mem_map.mp hc
    have hlt := d.toNat_lt
    have hval : (Fin.ofNat _ d.toNat : CodePoint).val = d.toNat := by
      rw [Fin.val_ofNat]
      omega
    rw [hval]
    exact h d hd
  rw [Json.asciiQuotedSize_plain hplain, asciiText, List.length_map]

theorem encodeUrlsafe_size_le (value : Bytes) :
    Json.asciiQuotedSize (encodeUrlsafe value) ≤ 4*((value.length+2)/3)+2 := by
  rw [encodeUrlsafe, asciiText_size (Base64.rstripPad_characters value)]
  exact Nat.add_le_add_right (Base64.rstripPad_length_le value) 2

theorem formatPublicKey_size (keyBlob : Bytes) :
    Json.asciiQuotedSize (formatPublicKey keyBlob) = 4*((keyBlob.length+2)/3)+14 := by
  have hkey := asciiText_size (Base64.b64encode_characters keyBlob)
  have htype : Json.asciiQuotedSize keyTypePrefix = 14 := by decide
  unfold Json.asciiQuotedSize at hkey htype
  rw [Base64.b64encode_length] at hkey
  rw [Json.asciiQuotedSize, formatPublicKey, List.map_append, List.sum_append]
  omega

theorem ascii_joined (texts : List Str) (h : texts ≠ []) :
    (([0x2C].intercalate texts).flatMap Json.asciiEscape).length+1
      = (texts.map (fun text => (text.flatMap Json.asciiEscape).length+1)).sum := by
  have hcomma : (([0x2C] : Str).flatMap Json.asciiEscape).length = 1 := by decide
  induction texts with
  | nil => exact absurd rfl h
  | cons text texts ih =>
    by_cases hrest : texts = []
    · subst hrest
      have hone : ([0x2C] : Str).intercalate [text] = text := List.append_nil text
      rw [hone]
      rfl
    · rw [intercalate_cons _ _ _ hrest, List.flatMap_append, List.flatMap_append,
        List.length_append, List.length_append, hcomma, List.map_cons, List.sum_cons, ← ih hrest]
      omega

/-- The size of an object, from its names and the texts of its values. -/
theorem ascii_object (entries : List (Str × Json × Str)) (hsome : entries ≠ [])
    (h : ∀ entry ∈ entries, entry.2.1.dumps = .ok entry.2.2) :
    ∃ text, (Json.obj (entries.map (fun entry => (entry.1, entry.2.1)))).dumps = .ok text ∧
      (text.flatMap Json.asciiEscape).length = 1+(entries.map (fun entry =>
        Json.asciiQuotedSize entry.1+(entry.2.2.flatMap Json.asciiEscape).length+2)).sum := by
  have hmembers : Json.dumpsMembers (entries.map (fun entry => (entry.1, entry.2.1)))
      = .ok (entries.map (fun entry => Json.quote entry.1++[0x3A]++entry.2.2)) := by
    clear hsome
    induction entries with
    | nil => rw [List.map_nil, Json.dumpsMembers]; rfl
    | cons entry entries ih =>
      obtain ⟨hentry, hrest⟩ := List.forall_mem_cons.mp h
      rw [List.map_cons, Json.dumpsMembers, hentry, ok_bind, ih hrest, ok_bind]
      rfl
  have hbraces : (([0x7B] : Str).flatMap Json.asciiEscape).length = 1 ∧
      (([0x3A] : Str).flatMap Json.asciiEscape).length = 1 ∧
      (([0x7D] : Str).flatMap Json.asciiEscape).length = 1 := by decide
  refine ⟨_, by rw [Json.dumps, hmembers, ok_bind]; rfl, ?_⟩
  have hjoined := ascii_joined (entries.map (fun entry => Json.quote entry.1++[0x3A]++entry.2.2))
    (fun hnil => hsome (List.map_eq_nil_iff.mp hnil))
  rw [List.map_map] at hjoined
  have hsizes : entries.map ((fun text => (text.flatMap Json.asciiEscape).length+1) ∘
        (fun entry => Json.quote entry.1++[0x3A]++entry.2.2))
      = entries.map (fun entry =>
        Json.asciiQuotedSize entry.1+(entry.2.2.flatMap Json.asciiEscape).length+2) := by
    refine List.map_congr_left fun entry _ => ?_
    rw [Function.comp_apply, List.flatMap_append, List.flatMap_append, List.length_append,
      List.length_append, Json.ascii_quote_length, hbraces.2.1]
    omega
  rw [hsizes] at hjoined
  rw [List.flatMap_append, List.flatMap_append, List.length_append, List.length_append, hbraces.1,
    hbraces.2.2]
  omega

theorem attestation_size (challenge hostKey clientKey quote : Bytes)
    (manifest manifestBundle : Str) : ∃ text,
    (Json.obj (attestationDocument challenge (formatPublicKey hostKey) clientKey quote manifest
      manifestBundle)).dumps = .ok text ∧
    (text.flatMap Json.asciiEscape).length = 127+Json.asciiQuotedSize (encodeUrlsafe challenge)
      +Json.asciiQuotedSize (formatPublicKey hostKey)
      +Json.asciiQuotedSize (formatPublicKey clientKey)+Json.asciiQuotedSize (encodeUrlsafe quote)
      +Json.asciiQuotedSize manifest+Json.asciiQuotedSize manifestBundle := by
  have hversion : (Json.int version).dumps = .ok [0x34] := by
    rw [Json.dumps, Json.dumpsInt, raiseIf_of_not _ (not_le.mpr (Json.lt_intLimit (by decide)))]
    rfl
  have hstr (value : Str) : (Json.str value).dumps = .ok (Json.quote value) := by
    rw [Json.dumps]
    rfl
  let texts : List (Str × Str) := [(ofString "platform", ofString "TDX"),
    (ofString "protocol", ofString "SSH-2.0"), (ofString "challenge", encodeUrlsafe challenge),
    (ofString "hostKey", formatPublicKey hostKey), (ofString "clientKey", formatPublicKey clientKey),
    (ofString "quote", encodeUrlsafe quote), (ofString "manifest", manifest),
    (ofString "manifestBundle", manifestBundle)]
  obtain ⟨text, htext, hsize⟩ := ascii_object ((ofString "version", .int version, [0x34]) ::
      texts.map (fun entry => (entry.1, .str entry.2, Json.quote entry.2)))
    (List.cons_ne_nil _ _) (by
      refine List.forall_mem_cons.mpr ⟨hversion, fun entry hentry => ?_⟩
      obtain ⟨pair, _, rfl⟩ := List.mem_map.mp hentry
      exact hstr pair.2)
  refine ⟨text, htext, hsize.trans ?_⟩
  -- what does not depend on the session is 127 bytes
  have hnames : Json.asciiQuotedSize (ofString "version") = 9 ∧
      Json.asciiQuotedSize (ofString "platform") = 10 ∧
      Json.asciiQuotedSize (ofString "TDX") = 5 ∧ Json.asciiQuotedSize (ofString "protocol") = 10 ∧
      Json.asciiQuotedSize (ofString "SSH-2.0") = 9 ∧
      Json.asciiQuotedSize (ofString "challenge") = 11 ∧
      Json.asciiQuotedSize (ofString "hostKey") = 9 ∧
      Json.asciiQuotedSize (ofString "clientKey") = 11 ∧
      Json.asciiQuotedSize (ofString "quote") = 7 ∧
      Json.asciiQuotedSize (ofString "manifest") = 10 ∧
      Json.asciiQuotedSize (ofString "manifestBundle") = 16 ∧
      (([0x34] : Str).flatMap Json.asciiEscape).length = 1 := by decide
  simp only [texts, List.map_cons, List.map_nil, List.sum_cons, List.sum_nil,
    Json.ascii_quote_length, hnames]
  omega

/-- The release evidence and the quote leave room for the rest of the attestation. -/
def EvidenceFits (quote : Bytes) (manifest manifestBundle : Str) : Prop :=
  Json.asciiQuotedSize manifest+Json.asciiQuotedSize manifestBundle+4*((quote.length+2)/3)+339
    ≤ maxAttestationBytes

/-- Such an attestation is not refused for its size. -/
theorem encodeDocument_fits {challenge hostKey clientKey quote : Bytes}
    {manifest manifestBundle : Str} (hchallenge : challenge.length = challengeBytes)
    (hhost : hostKey.length = ed25519KeyBytes) (hclient : clientKey.length = ed25519KeyBytes)
    (hfits : EvidenceFits quote manifest manifestBundle) :
    ∃ response, encodeDocument (attestationDocument challenge (formatPublicKey hostKey) clientKey
      quote manifest manifestBundle) = .ok response := by
  have hbytes : challengeBytes = 32 ∧ ed25519KeyBytes = 51 := by decide
  obtain ⟨text, htext, hsize⟩ := attestation_size challenge hostKey clientKey quote manifest
    manifestBundle
  have hascii : ∀ c ∈ text.flatMap Json.asciiEscape, c.val < 0x80 := by
    intro c hc
    obtain ⟨d, _, hd⟩ := List.mem_flatMap.mp hc
    exact Json.asciiEscape_ascii d c hd
  have hwithin : ¬maxAttestationBytes < (utf8 (text.flatMap Json.asciiEscape)).length := by
    have hchallengeSize := encodeUrlsafe_size_le challenge
    have hquoteSize := encodeUrlsafe_size_le quote
    have hhostSize := formatPublicKey_size hostKey
    have hclientSize := formatPublicKey_size clientKey
    rw [hchallenge, hbytes.1] at hchallengeSize
    rw [hhost, hbytes.2] at hhostSize
    rw [hclient, hbytes.2] at hclientSize
    rw [EvidenceFits] at hfits
    rw [Json.utf8_length_ascii _ hascii, hsize]
    omega
  have hdumps : (Json.obj (attestationDocument challenge (formatPublicKey hostKey) clientKey quote
      manifest manifestBundle)).dumpsAscii = .ok (text.flatMap Json.asciiEscape) := by
    rw [Json.dumpsAscii, htext]
    rfl
  have hencoded : encodeText (text.flatMap Json.asciiEscape)
      = .ok (utf8 (text.flatMap Json.asciiEscape)) :=
    (encodeText_eq_ok _ _).mpr ⟨Json.encodable_ascii _ hascii, rfl⟩
  refine ⟨utf8 (text.flatMap Json.asciiEscape), (bind_eq_ok _ _ _).mpr
    ⟨_, (mapError_eq_ok _ _ _).mpr hdumps, (bind_eq_ok _ _ _).mpr
      ⟨_, (mapError_eq_ok _ _ _).mpr hencoded, (bind_eq_ok _ _ _).mpr
        ⟨(), (raiseIf_eq_ok _ _ _).mpr hwithin, rfl⟩⟩⟩⟩

end Listener

end ConferWorker
