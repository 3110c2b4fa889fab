import ConferWorker.AttestationRequests

/-! The language of attestation requests is canonical: each challenge and each client key has one
spelling, and nothing but a plain object with the three members is accepted. -/
namespace ConferWorker

theorem encodeAscii_asciiText (b : Bytes) (h : ∀ c ∈ b, c.toNat < 0x80) :
    encodeAscii (asciiText b) = some b := by
  have hall : (asciiText b).all (fun c => c.val < 0x80) = true := by
    rw [List.all_eq_true]
    intro c hc
    obtain ⟨d, hd, rfl⟩ := List.mem_map.mp hc
    have hlt := h d hd
    simp only [Fin.ofNat, decide_eq_true_eq]
    omega
  rw [encodeAscii, if_pos hall, asciiText, List.map_map, Option.some.injEq]
  calc b.map ((fun c : CodePoint => UInt8.ofNat c.val) ∘ fun c => Fin.ofNat _ c.toNat)
      = b.map id := by
        apply List.map_congr_left
        intro c _
        have hlt := c.toNat_lt
        simp only [Function.comp_apply, Fin.ofNat, id_eq]
        rw [Nat.mod_eq_of_lt (by omega), UInt8.ofNat_toNat]
    _ = b := List.map_id b

namespace Base64

theorem digit_printable (n : ℕ) (hn : n < 64) :
    0x20 < (digit n).toNat ∧ (digit n).toNat < 0x80 := by
  have hall : ∀ n : Fin 64, 0x20 < (digit n.val).toNat ∧ (digit n.val).toNat < 0x80 := by decide
  exact hall ⟨n, hn⟩

/-- The characters of an encoding are printable ASCII. -/
theorem b64encode_printable (s : Bytes) :
    ∀ c ∈ b64encode s, 0x20 < c.toNat ∧ c.toNat < 0x80 := by
  have hpad : 0x20 < pad.toNat ∧ pad.toNat < 0x80 := by decide
  obtain ⟨body, padding, hencode, hbody, -⟩ := b64encode_eq s
  rw [hencode]
  intro c hc
  rcases List.mem_append.mp hc with hmem | hmem
  · obtain ⟨n, hn, rfl⟩ := hbody c hmem
    exact digit_printable n hn
  · rw [List.eq_of_mem_replicate hmem]
    exact hpad

theorem b64encode_ascii (s : Bytes) : ∀ c ∈ b64encode s, c.toNat < 0x80 :=
  fun c hc => (b64encode_printable s c hc).2

theorem rstripPad_ascii (s : Bytes) :
    ∀ c ∈ rstripPad (urlsafeB64encode s), c.toNat < 0x80 := by
  intro c hc
  have hmem : c ∈ urlsafeB64encode s :=
    List.mem_reverse.mp ((List.dropWhile_suffix _).mem (List.mem_reverse.mp hc))
  obtain ⟨d, hd, rfl⟩ := List.mem_map.mp hmem
  have hlt := b64encode_ascii s d hd
  unfold toAltchars
  split_ifs
  · decide
  · decide
  · exact hlt

end Base64

namespace Listener

/-- A challenge has one spelling. -/
theorem decodeChallenge_eq_ok (value : Json) (challenge : Bytes) :
    decodeChallenge value = .ok challenge
      ↔ challenge.length = challengeBytes ∧ value = .str (encodeUrlsafe challenge) := by
  constructor
  · intro h
    cases value with
    | str text =>
      simp only [decodeChallenge, bind_eq_ok, raiseIf_eq_ok, valueOr_eq_ok, pure_eq_ok] at h
      obtain ⟨_, -, encoded, -, decoded, -, _, hcheck, rfl⟩ := h
      rw [not_or, not_not, not_not] at hcheck
      rw [hcheck.2]
      exact ⟨hcheck.1, rfl⟩
    | _ => cases h
  · rintro ⟨hlength, rfl⟩
    obtain ⟨hpad, hdecode⟩ := Base64.b64decodeAltchars_rstrip challenge
    have hascii := encodeAscii_asciiText _ (Base64.rstripPad_ascii challenge)
    have hequals : (0x3D : CodePoint) ∉ encodeUrlsafe challenge := by
      intro hmem
      obtain ⟨c, hc, heq⟩ := List.mem_map.mp hmem
      have hlt := c.toNat_lt
      have hval : c.toNat%0x110000 = 0x3D := congrArg Fin.val heq
      rw [Nat.mod_eq_of_lt (by omega)] at hval
      have hc' : c = Base64.pad := UInt8.toNat_inj.mp hval
      exact hpad (hc' ▸ hc)
    simp only [decodeChallenge, bind_eq_ok, raiseIf_eq_ok, valueOr_eq_ok, pure_eq_ok]
    exact ⟨(), hequals, _, hascii, challenge, hdecode, (), fun h => h.elim (fun hne => hne hlength)
      (fun hne => hne rfl), rfl⟩

/-- A client key has one spelling. -/
theorem decodeClientKey_eq_ok (value : Json) (keyBlob : Bytes) :
    decodeClientKey value = .ok keyBlob
      ↔ keyBlob.length = ed25519KeyBytes ∧ ed25519KeyPrefix <+: keyBlob
        ∧ value = .str (formatPublicKey keyBlob) := by
  constructor
  · intro h
    cases value with
    | str text =>
      simp only [decodeClientKey, validatePublicKey, bind_eq_ok, raiseIf_eq_ok, valueOr_eq_ok,
        pure_eq_ok] at h
      obtain ⟨_, -, encoded, -, decoded, -, _, hkey, _, hcheck, rfl⟩ := h
      rw [not_or, not_not, not_not] at hkey
      rw [not_not] at hcheck
      rw [hcheck]
      exact ⟨hkey.1, hkey.2, rfl⟩
    | _ => cases h
  · rintro ⟨hlength, hprefix, rfl⟩
    have hdrop : (formatPublicKey keyBlob).drop keyTypePrefix.length
        = asciiText (Base64.b64encode keyBlob) := List.drop_left
    simp only [decodeClientKey, validatePublicKey, bind_eq_ok, raiseIf_eq_ok, valueOr_eq_ok,
      pure_eq_ok]
    refine ⟨(), not_not.mpr (List.prefix_append _ _), Base64.b64encode keyBlob, ?_, keyBlob,
      Base64.a2bBase64_b64encode keyBlob, (), ?_, (), not_not.mpr rfl, rfl⟩
    · rw [hdrop]
      exact encodeAscii_asciiText _ (Base64.b64encode_ascii keyBlob)
    · exact fun h => h.elim (fun hne => hne hlength) (fun hne => hne hprefix)

/-- The hook returns the pairs of an object as they are, or raises because two have one name. -/
theorem rejectDuplicateFields_eq (pairs : List (Str × Json)) :
    rejectDuplicateFields pairs
      = if (pairs.map Prod.fst).Nodup then .ok (.obj pairs) else .error duplicateFields := by
  have hloop : ∀ result : List (Str × Json), (result.map Prod.fst).Nodup →
      pairs.foldlM (fun result pair =>
        if pair.1 ∈ result.map Prod.fst then .error duplicateFields
        else (.ok (result++[pair]) : Except ListenerError _)) result
      = if ((result++pairs).map Prod.fst).Nodup then .ok (result++pairs)
        else .error duplicateFields := by
    induction pairs with
    | nil =>
      intro result hresult
      rw [List.append_nil, if_pos hresult]
      rfl
    | cons pair pairs ih =>
      intro result hresult
      rw [List.foldlM_cons]
      by_cases hmem : pair.1 ∈ result.map Prod.fst
      · have hrepeated : ¬((result++pair :: pairs).map Prod.fst).Nodup := by
          rw [List.map_append, List.map_cons]
          intro hnodup
          exact List.disjoint_of_nodup_append hnodup hmem List.mem_cons_self
        rw [if_pos hmem, if_neg hrepeated]
        rfl
      · have hnext : ((result++[pair]).map Prod.fst).Nodup := by
          rw [List.map_append, List.map_singleton]
          exact hresult.append (List.nodup_singleton _) (List.disjoint_singleton.mpr hmem)
        rw [if_neg hmem, ok_bind, ih _ hnext, List.append_assoc, List.singleton_append]
  rw [rejectDuplicateFields, hloop [] List.nodup_nil, List.nil_append]
  split_ifs
  · rfl
  · rfl

mutual

theorem hooked_eq_ok (tree result : Json) :
    tree.hooked rejectDuplicateFields = .ok result ↔ tree.NoRepeats ∧ result = tree := by
  match tree with
  | .null | .bool _ | .int _ | .float _ | .str _ | .bytes _ =>
    simp only [Json.hooked, Json.NoRepeats, pure_eq_ok, true_and]
    exact eq_comm
  | .arr items =>
    simp only [Json.hooked, Json.NoRepeats, bind_eq_ok, pure_eq_ok, hookedItems_eq_ok items]
    constructor
    · rintro ⟨_, ⟨hitems, rfl⟩, rfl⟩
      exact ⟨hitems, rfl⟩
    · rintro ⟨hitems, rfl⟩
      exact ⟨items, ⟨hitems, rfl⟩, rfl⟩
  | .obj members =>
    simp only [Json.hooked, Json.NoRepeats, bind_eq_ok, hookedMembers_eq_ok members,
      rejectDuplicateFields_eq]
    constructor
    · rintro ⟨_, ⟨hmembers, rfl⟩, hhook⟩
      split_ifs at hhook with hnodup
      cases hhook
      exact ⟨⟨hmembers, hnodup⟩, rfl⟩
    · rintro ⟨⟨hmembers, hnodup⟩, rfl⟩
      exact ⟨members, ⟨hmembers, rfl⟩, if_pos hnodup⟩

theorem hookedItems_eq_ok (items result : List Json) :
    Json.hookedItems rejectDuplicateFields items = .ok result
      ↔ Json.NoRepeatsItems items ∧ result = items := by
  match items with
  | [] =>
    simp only [Json.hookedItems, Json.NoRepeatsItems, pure_eq_ok, true_and]
    exact eq_comm
  | item :: items =>
    simp only [Json.hookedItems, Json.NoRepeatsItems, bind_eq_ok, pure_eq_ok, hooked_eq_ok item,
      hookedItems_eq_ok items]
    constructor
    · rintro ⟨_, ⟨hitem, rfl⟩, _, ⟨hitems, rfl⟩, rfl⟩
      exact ⟨⟨hitem, hitems⟩, rfl⟩
    · rintro ⟨⟨hitem, hitems⟩, rfl⟩
      exact ⟨item, ⟨hitem, rfl⟩, items, ⟨hitems, rfl⟩, rfl⟩

theorem hookedMembers_eq_ok (members result : List (Str × Json)) :
    Json.hookedMembers rejectDuplicateFields members = .ok result
      ↔ Json.NoRepeatsMembers members ∧ result = members := by
  match members with
  | [] =>
    simp only [Json.hookedMembers, Json.NoRepeatsMembers, pure_eq_ok, true_and]
    exact eq_comm
  | (name, value) :: members =>
    simp only [Json.hookedMembers, Json.NoRepeatsMembers, bind_eq_ok, pure_eq_ok,
      hooked_eq_ok value, hookedMembers_eq_ok members]
    constructor
    · rintro ⟨_, ⟨hvalue, rfl⟩, _, ⟨hmembers, rfl⟩, rfl⟩
      exact ⟨⟨hvalue, hmembers⟩, rfl⟩
    · rintro ⟨⟨hvalue, hmembers⟩, rfl⟩
      exact ⟨value, ⟨hvalue, rfl⟩, members, ⟨hmembers, rfl⟩, rfl⟩

end

theorem loadRequest_eq_ok (reads : JsonReads) (text : Str) (tree : Json) :
    loadRequest reads text = .ok tree ↔ reads text = .ok tree ∧ tree.NoRepeats := by
  unfold loadRequest
  cases reads text with
  | ok read =>
    simp only [hooked_eq_ok, Except.ok.injEq]
    constructor
    · rintro ⟨hunique, rfl⟩
      exact ⟨rfl, hunique⟩
    · rintro ⟨rfl, hunique⟩
      exact ⟨hunique, rfl⟩
  | error failed =>
    simp only [bind_eq_ok, reduceCtorEq, and_false, exists_false, false_and]

section Errors

mutual

/-- The hook is all that raises. -/
theorem raisesOnly_hooked {ε : Type} {P : ε → Prop} {hook : List (Str × Json) → Except ε Json}
    (hhook : ∀ pairs, RaisesOnly P (hook pairs)) (tree : Json) :
    RaisesOnly P (tree.hooked hook) := by
  match tree with
  | .null | .bool _ | .int _ | .float _ | .str _ | .bytes _ => exact raisesOnly_ok _
  | .arr items =>
    exact raisesOnly_bind (raisesOnly_hookedItems hhook items) (fun _ _ => raisesOnly_ok _)
  | .obj members =>
    exact raisesOnly_bind (raisesOnly_hookedMembers hhook members) (fun pairs _ => hhook pairs)

theorem raisesOnly_hookedItems {ε : Type} {P : ε → Prop}
    {hook : List (Str × Json) → Except ε Json} (hhook : ∀ pairs, RaisesOnly P (hook pairs))
    (items : List Json) : RaisesOnly P (Json.hookedItems hook items) := by
  match items with
  | [] => exact raisesOnly_ok _
  | item :: items =>
    exact raisesOnly_bind (raisesOnly_hooked hhook item) (fun _ _ =>
      raisesOnly_bind (raisesOnly_hookedItems hhook items) (fun _ _ => raisesOnly_ok _))

theorem raisesOnly_hookedMembers {ε : Type} {P : ε → Prop}
    {hook : List (Str × Json) → Except ε Json} (hhook : ∀ pairs, RaisesOnly P (hook pairs))
    (members : List (Str × Json)) : RaisesOnly P (Json.hookedMembers hook members) := by
  match members with
  | [] => exact raisesOnly_ok _
  | (_, value) :: members =>
    exact raisesOnly_bind (raisesOnly_hooked hhook value) (fun _ _ =>
      raisesOnly_bind (raisesOnly_hookedMembers hhook members) (fun _ _ => raisesOnly_ok _))

end

theorem raisesOnly_valueOr {ε α : Type} {P : ε → Prop} {error : ε} (h : P error) (x : Option α) :
    RaisesOnly P (valueOr error x) := by
  intro e he
  rw [((valueOr_eq_error error e x).mp he).2]
  exact h

theorem raisesOnly_rejectDuplicateFields (pairs : List (Str × Json)) :
    RaisesOnly ListenerError.IsWorkerError (rejectDuplicateFields pairs) := by
  rw [rejectDuplicateFields_eq]
  split_ifs
  · exact raisesOnly_ok _
  · exact raisesOnly_error trivial

theorem raisesOnly_decodeChallenge (value : Json) :
    RaisesOnly ListenerError.IsWorkerError (decodeChallenge value) := by
  cases value with
  | str text =>
    refine raisesOnly_bind (raisesOnly_raiseIf _ trivial) (fun _ _ => ?_)
    refine raisesOnly_bind (raisesOnly_valueOr trivial _) (fun _ _ => ?_)
    refine raisesOnly_bind (raisesOnly_valueOr trivial _) (fun _ _ => ?_)
    exact raisesOnly_bind (raisesOnly_raiseIf _ trivial) (fun _ _ => raisesOnly_ok _)
  | _ => exact raisesOnly_error trivial

theorem raisesOnly_decodeClientKey (value : Json) :
    RaisesOnly ListenerError.IsWorkerError (decodeClientKey value) := by
  cases value with
  | str text =>
    refine raisesOnly_bind (raisesOnly_raiseIf _ trivial) (fun _ _ => ?_)
    refine raisesOnly_bind (raisesOnly_valueOr trivial _) (fun _ _ => ?_)
    refine raisesOnly_bind (raisesOnly_valueOr trivial _) (fun _ _ => ?_)
    refine raisesOnly_bind (raisesOnly_raiseIf _ trivial) (fun _ _ => ?_)
    exact raisesOnly_bind (raisesOnly_raiseIf _ trivial) (fun _ _ => raisesOnly_ok _)
  | _ => exact raisesOnly_error trivial

/-- The JSON parser handles a text: it reads it, or finds that it is no JSON. -/
def HandledBy (reads : JsonReads) (text : Str) : Prop :=
  ∀ objects error, reads text ≠ .error (objects, .other error)

theorem raisesOnly_loadRequest {reads : JsonReads} {text : Str} (h : HandledBy reads text) :
    RaisesOnly ListenerError.IsWorkerError (loadRequest reads text) := by
  unfold loadRequest
  match hread : reads text with
  | .ok tree => exact raisesOnly_hooked raisesOnly_rejectDuplicateFields tree
  | .error (objects, .notJson) =>
    apply raisesOnly_bind (raisesOnly_mapM _ objects raisesOnly_rejectDuplicateFields)
    exact fun _ _ => raisesOnly_error trivial
  | .error (objects, .other error) => exact absurd hread (h objects error)

theorem raisesOnly_requireFields (request : Json) :
    RaisesOnly ListenerError.IsWorkerError (requireFields request) := by
  cases request with
  | obj members =>
    exact raisesOnly_bind (raisesOnly_raiseIf _ trivial) (fun _ _ => raisesOnly_ok _)
  | _ => exact raisesOnly_error trivial

theorem raisesOnly_parseRequest {reads : JsonReads} {encoded : Bytes}
    (h : ∀ text, decodeUtf8 encoded = some text → HandledBy reads text) :
    RaisesOnly ListenerError.IsWorkerError (parseRequest reads encoded) := by
  refine raisesOnly_bind (raisesOnly_raiseIf _ trivial) (fun _ _ => ?_)
  cases hdecode : decodeUtf8 encoded with
  | none => exact raisesOnly_error trivial
  | some text =>
    apply raisesOnly_bind (raisesOnly_loadRequest (h text hdecode))
    intro request _
    apply raisesOnly_bind (raisesOnly_requireFields request)
    intro members _
    refine raisesOnly_bind (raisesOnly_raiseIf _ trivial) (fun _ _ => ?_)
    apply raisesOnly_bind (raisesOnly_decodeChallenge _)
    intro _ _
    exact raisesOnly_bind (raisesOnly_decodeClientKey _) (fun _ _ => raisesOnly_ok _)

end Errors

/-- With distinct names a member is found under its name. -/
theorem getItem_eq_some_iff {members : List (Str × Json)} (hnodup : (members.map Prod.fst).Nodup)
    (name : Str) (value : Json) : getItem members name = some value ↔ (name, value) ∈ members := by
  induction members with
  | nil => simp only [getItem, List.find?_nil, Option.map_none, reduceCtorEq, List.not_mem_nil]
  | cons first members ih =>
    rw [List.map_cons, List.nodup_cons] at hnodup
    by_cases hname : first.1 = name
    · have hfound : getItem (first :: members) name = some first.2 := by
        rw [getItem, List.find?_cons, beq_iff_eq.mpr hname]
        rfl
      rw [hfound, List.mem_cons, Option.some.injEq]
      constructor
      · rintro rfl
        exact Or.inl (Prod.ext hname.symm rfl)
      · rintro (heq | hlater)
        · exact (congrArg Prod.snd heq).symm
        · rw [hname] at hnodup
          exact absurd (List.mem_map_of_mem hlater) hnodup.1
    · have hnext : getItem (first :: members) name = getItem members name := by
        rw [getItem, List.find?_cons, beq_eq_false_iff_ne.mpr hname]
        rfl
      rw [hnext, ih hnodup.2, List.mem_cons]
      constructor
      · exact Or.inr
      · rintro (heq | hlater)
        · exact absurd (congrArg Prod.fst heq).symm hname
        · exact hlater

theorem field_eq_iff {members : List (Str × Json)} (hnodup : (members.map Prod.fst).Nodup)
    (name : String) (value : Json) (hvalue : value ≠ .null) :
    field members name = value ↔ (ofString name, value) ∈ members := by
  rw [← getItem_eq_some_iff hnodup, field]
  cases getItem members (ofString name) with
  | none =>
    rw [Option.getD_none]
    constructor
    · intro h
      exact absurd h.symm hvalue
    · intro h
      cases h
  | some other => rw [Option.getD_some, Option.some.injEq]

theorem isVersion_iff (value : Json) : isVersion value = true ↔ value = .int version := by
  cases value with
  | int number => rw [isVersion, beq_iff_eq, Json.int.injEq]
  | _ => simp only [isVersion, Bool.false_eq_true, reduceCtorEq]

theorem requireFields_eq_ok (request : Json) (members : List (Str × Json)) :
    requireFields request = .ok members ↔ request = .obj members ∧ HasRequestFields members := by
  cases request with
  | obj fields =>
    simp only [requireFields, bind_eq_ok, raiseIf_eq_ok, pure_eq_ok, not_not, Json.obj.injEq]
    constructor
    · rintro ⟨_, hfields, rfl⟩
      exact ⟨rfl, hfields⟩
    · rintro ⟨rfl, hfields⟩
      exact ⟨(), hfields, rfl⟩
  | _ => simp only [requireFields, reduceCtorEq, false_and]

/-- What is accepted as a request for a challenge and a client key: an object without repeated
names, with the three members and their only spellings. -/
structure IsRequestFor (reads : JsonReads) (challenge keyBlob : Bytes) (encoded : Bytes) :
    Prop where
  size : encoded ≠ [] ∧ encoded.length ≤ 4096
  json : ∃ text members, decodeUtf8 encoded = some text ∧ reads text = .ok (.obj members)
    ∧ (Json.obj members).NoRepeats ∧ HasRequestFields members
    ∧ (ofString "version", .int 4) ∈ members
    ∧ (ofString "challenge", .str (encodeUrlsafe challenge)) ∈ members
    ∧ (ofString "clientKey", .str (formatPublicKey keyBlob)) ∈ members
  challenge_length : challenge.length = 32
  key_length : keyBlob.length = 51
  key_prefix : ed25519KeyPrefix <+: keyBlob

theorem parseRequest_eq_ok (reads : JsonReads) (encoded challenge keyBlob : Bytes) :
    parseRequest reads encoded = .ok (challenge, keyBlob)
      ↔ IsRequestFor reads challenge keyBlob encoded := by
  have hint (value : ℤ) : Json.int value ≠ .null := by simp
  have hstr (value : Str) : Json.str value ≠ .null := by simp
  simp only [parseRequest, bind_eq_ok, raiseIf_eq_ok, valueOr_eq_ok, loadRequest_eq_ok,
    requireFields_eq_ok, Bool.not_eq_false, isVersion_iff, decodeChallenge_eq_ok,
    decodeClientKey_eq_ok, pure_eq_ok, not_or, not_lt]
  constructor
  · rintro ⟨_, hsize, text, htext, tree, ⟨hreads, hunique⟩, members, ⟨rfl, hfields⟩, _, hversion,
      challenge', hchallenge, keyBlob', hkey, heq⟩
    cases heq
    exact ⟨hsize, ⟨text, members, htext, hreads, hunique, hfields,
      (field_eq_iff hunique.2 "version" (.int 4) (hint 4)).mp hversion,
      (field_eq_iff hunique.2 "challenge" (.str _) (hstr _)).mp hchallenge.2,
      (field_eq_iff hunique.2 "clientKey" (.str _) (hstr _)).mp hkey.2.2⟩,
      hchallenge.1, hkey.1, hkey.2.1⟩
  · rintro ⟨hsize, ⟨text, members, htext, hreads, hunique, hfields, hversion, hchallenge, hkey⟩,
      hlength, hkeyLength, hprefix⟩
    exact ⟨(), hsize, text, htext, _, ⟨hreads, hunique⟩, members, ⟨rfl, hfields⟩, (),
      (field_eq_iff hunique.2 "version" (.int 4) (hint 4)).mpr hversion, challenge,
      ⟨hlength, (field_eq_iff hunique.2 "challenge" (.str _) (hstr _)).mpr hchallenge⟩, keyBlob,
      ⟨hkeyLength, hprefix, (field_eq_iff hunique.2 "clientKey" (.str _) (hstr _)).mpr hkey⟩, rfl⟩

/-- A request is accepted for a challenge and a key exactly if it is the object with their only
spellings; every other one that the JSON parser handles is refused with a `WorkerError`; and each
challenge and each key is decoded from its own encoding and from nothing else. -/
theorem parse_request_canonical (reads : JsonReads) :
    (∀ encoded challenge keyBlob, parseRequest reads encoded = .ok (challenge, keyBlob)
      ↔ IsRequestFor reads challenge keyBlob encoded)
    ∧ (∀ encoded, (∀ text, decodeUtf8 encoded = some text → HandledBy reads text) →
      (¬∃ challenge keyBlob, IsRequestFor reads challenge keyBlob encoded) →
      ∃ message, parseRequest reads encoded = .error (.workerError message))
    ∧ (∀ challenge value, challenge.length = 32 →
      (decodeChallenge value = .ok challenge ↔ value = .str (encodeUrlsafe challenge)))
    ∧ ∀ keyBlob value, keyBlob.length = 51 → ed25519KeyPrefix <+: keyBlob →
      (decodeClientKey value = .ok keyBlob ↔ value = .str (formatPublicKey keyBlob)) := by
  refine ⟨parseRequest_eq_ok reads, ?_, ?_, ?_⟩
  · intro encoded hhandled hnot
    cases hparse : parseRequest reads encoded with
    | ok result =>
      exact absurd ⟨result.1, result.2, (parseRequest_eq_ok reads encoded _ _).mp hparse⟩ hnot
    | error e =>
      have hworker := raisesOnly_parseRequest hhandled e hparse
      cases e with
      | workerError message => exact ⟨message, rfl⟩
      | other error => exact hworker.elim
  · intro challenge value hlength
    rw [decodeChallenge_eq_ok]
    exact and_iff_right hlength
  · intro keyBlob value hlength hprefix
    rw [decodeClientKey_eq_ok]
    exact ⟨fun h => h.2.2, fun h => ⟨hlength, hprefix, h⟩⟩

end Listener

end ConferWorker
