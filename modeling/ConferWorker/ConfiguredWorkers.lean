import ConferWorker.PublishedFiles
import ConferWorker.ServedConnections

/-! A run of `confer-worker-config` from end to end, and what the listener makes of the files that
it leaves. -/
namespace ConferWorker

/-- The number that decimal digits write. -/
def ofDigits (s : Str) : ℕ := s.foldl (fun n c => 10*n+digitValue c) 0

theorem readDigits_decimals {s : Str} (n : ℕ) (afterDigit : Bool)
    (hs : ∀ c ∈ s, isDecimalDigit c = true) (h : s ≠ [] ∨ afterDigit = true) :
    readDigits 10 n afterDigit s = some (s.foldl (fun n c => 10*n+digitValue c) n) := by
  induction s generalizing n afterDigit with
  | nil =>
    obtain rfl : afterDigit = true := h.resolve_left (fun hne => hne rfl)
    rw [readDigits, if_pos rfl, List.foldl_nil]
  | cons c s ih =>
    have hc := hs c List.mem_cons_self
    rw [isDecimalDigit, Bool.and_eq_true, decide_eq_true_eq, decide_eq_true_eq] at hc
    have hvalue : digitValue c = c.val-0x30 := by rw [digitValue, if_pos hc]
    rw [readDigits, if_neg (by omega), if_pos (by omega), List.foldl_cons]
    exact ih _ true (fun d hd => hs d (List.mem_cons_of_mem c hd)) (Or.inr rfl)

/-- `int(s)` of a text of decimal digits, leading zeros included. -/
theorem pythonInt_decimals {s : Str} (hne : s ≠ []) (hs : ∀ c ∈ s, isDecimalDigit c = true) :
    pythonInt 10 s = some (ofDigits s : ℤ) := by
  have hrange (c : CodePoint) (hc : c ∈ s) : 0x30 ≤ c.val ∧ c.val ≤ 0x39 := by
    have hdigit := hs c hc
    rw [isDecimalDigit, Bool.and_eq_true, decide_eq_true_eq, decide_eq_true_eq] at hdigit
    exact hdigit
  have hascii : s.map asciiForm = s := by
    refine (List.map_congr_left fun c hc => ?_).trans (List.map_id _)
    have := hrange c hc
    rw [asciiForm, if_pos (by omega), id]
  have hspace (c : CodePoint) (hc : c ∈ s) : isAsciiSpace c = false := by
    have := hrange c hc
    simp only [isAsciiSpace, Bool.or_eq_false_iff, Bool.and_eq_false_iff, decide_eq_false_iff_not,
      beq_eq_false_iff_ne]
    omega
  have hleft := dropWhile_eq_self isAsciiSpace s hspace
  have hright := dropWhile_eq_self isAsciiSpace s.reverse
    (fun c hc => hspace c (List.mem_reverse.mp hc))
  have hread := readDigits_decimals 0 false hs (Or.inl hne)
  obtain ⟨sign, rest, hcons⟩ := List.exists_cons_of_ne_nil hne
  have hsign := hrange sign (by rw [hcons]; exact List.mem_cons_self)
  rw [pythonInt, hascii, hleft, hright, List.reverse_reverse]
  rw [hcons] at hread ⊢
  dsimp only
  rw [if_neg (by omega), if_neg (by omega), readMagnitude.eq_def, if_neg (by decide), hread]
  rfl

namespace WorkerConfiguration

open Listener Watched

section InstanceId

variable {digits : Bytes}

theorem digits_range (h : requireInstanceId digits = .ok ()) :
    digits ≠ [] ∧ ∀ c ∈ digits, 0x30 ≤ c.toNat ∧ c.toNat ≤ 0x39 := by
  rw [requireInstanceId] at h
  split_ifs at h with hdigits
  refine ⟨hdigits.1, fun c hc => ?_⟩
  have hrange := List.all_eq_true.mp hdigits.2 c hc
  rw [Bool.and_eq_true, decide_eq_true_eq, decide_eq_true_eq, UInt8.le_iff_toNat_le,
    UInt8.le_iff_toNat_le] at hrange
  exact hrange

theorem asciiText_digits (h : requireInstanceId digits = .ok ()) :
    ∀ c ∈ asciiText digits, isDecimalDigit c = true := by
  intro c hc
  obtain ⟨byte, hbyte, rfl⟩ := List.mem_map.mp hc
  have hrange := (digits_range h).2 byte hbyte
  have hval : (Fin.ofNat 0x110000 byte.toNat).val = byte.toNat := ofNat_val _ (by omega)
  rw [isDecimalDigit, Bool.and_eq_true, decide_eq_true_eq, decide_eq_true_eq, hval]
  exact hrange

/-- What the listener acknowledges with, of the file that the configuration wrote. -/
def acknowledgeFile (content : Bytes) : Except ListenerError Bytes := do
  let instanceId ← readAsciiText content
  createReservationAcknowledgement instanceId

/-- The listener takes the instance id that was checked exactly when it is a number of 64 bits
that Python reads. -/
theorem acknowledgeFile_iff (h : requireInstanceId digits = .ok ()) (acknowledgement : Bytes) :
    acknowledgeFile (digits++[0x0A]) = .ok acknowledgement ↔
      digits.length ≤ 4300 ∧ ofDigits (asciiText digits) ≤ 0xFFFFFFFFFFFFFFFF
        ∧ acknowledgement = utf8 (ofString "CONFER-WORKER-RESERVED 1 "
          ++strOfNat (ofDigits (asciiText digits))++[0x0A]) := by
  obtain ⟨hne, hrange⟩ := digits_range h
  have hascii : (digits++[0x0A]).all (fun c => c.toNat < 0x80) = true := by
    rw [List.all_eq_true]
    intro c hc
    rcases List.mem_append.mp hc with hc | hc
    · have := hrange c hc
      exact decide_eq_true (by omega)
    · rw [List.mem_singleton.mp hc]
      rfl
  have htext : asciiText (digits++[0x0A]) = asciiText digits++[0x0A] := List.map_append
  have hline : removeNewline (asciiText digits++[0x0A]) = asciiText digits := by
    rw [removeNewline, if_pos List.getLast?_concat, List.dropLast_concat]
  have hdigits := asciiText_digits h
  have hnonempty : asciiText digits ≠ [] := fun hnil => hne (List.map_eq_nil_iff.mp hnil)
  -- Python counts the digits before it converts them
  have hcount : (asciiText digits).countP isDecimal = digits.length := by
    have hlength : (asciiText digits).length = digits.length := List.length_map _
    rw [← hlength, List.countP_eq_length]
    intro c hc
    have hdigit := hdigits c hc
    rw [isDecimalDigit, Bool.and_eq_true, decide_eq_true_eq, decide_eq_true_eq] at hdigit
    rw [isDecimal, asciiForm, if_pos (by omega), Bool.and_eq_true, decide_eq_true_eq,
      decide_eq_true_eq]
    exact hdigit
  have hread : readInt (asciiText digits) = if 4300 < digits.length
      then .error (.valueError
        (ofString "Exceeds the limit (4300 digits) for integer string conversion"))
      else .ok (ofDigits (asciiText digits) : ℤ) := by
    rw [readInt, pythonInt_decimals hnonempty hdigits, hcount]
  have hspelled : Json.intText (ofDigits (asciiText digits) : ℤ)
      = strOfNat (ofDigits (asciiText digits)) := rfl
  have hchecked : ¬(asciiText digits = [] ∨ (asciiText digits).all isDecimalDigit = false) := by
    rw [not_or, Bool.not_eq_false, List.all_eq_true]
    exact ⟨hnonempty, hdigits⟩
  rw [acknowledgeFile, readAsciiText, if_pos hascii, ok_bind, createReservationAcknowledgement,
    htext, hline, raiseIf_of_not _ hchecked, ok_bind, hread]
  -- past its limit Python refuses the number, whatever its value is
  by_cases hlong : 4300 < digits.length
  · rw [if_pos hlong]
    constructor
    · intro hfailed
      cases hfailed
    · intro hlimits
      omega
  rw [if_neg hlong]
  simp only [Except.mapError, bind_eq_ok, raiseIf_eq_ok, pure_eq_ok, Except.ok.injEq, not_lt,
    exists_eq_left', hspelled, exists_and_left, exists_const]
  constructor
  · rintro ⟨hsmall, rfl⟩
    exact ⟨by omega, by exact_mod_cast hsmall, rfl⟩
  · rintro ⟨-, hsmall, rfl⟩
    exact ⟨by exact_mod_cast hsmall, rfl⟩

end InstanceId

section Runs

variable {before : Files}

theorem leaves_chmod {name : Str} (outcome : Except ExitStatus Unit) (mode : ℕ)
    (h : Published before → Published (setMode name mode before)) :
    Leaves before (chmod outcome mode name) (fun _ files => files = setMode name mode before) :=
  leaves_changeFile h

theorem published_put_privateKey (files : Files) (content : Bytes) (h : Published files) :
    Published (put privateKeyName content files) := by
  refine published_update h (allowed_privateKey ?_)
  cases hold : files privateKeyName with
  | none => rfl
  | some file => exact (h _ _ hold).private_key rfl

/-- The directory once the host key is made. -/
def keyed (calls : ConfigureCalls) (files : Files) : Files :=
  Function.update (Function.update files privateKeyName (some ⟨calls.privateKey.content, 0o600⟩))
    publicKeyName (some ⟨calls.publicKey.content, 0o644⟩)

theorem leaves_sshKeygen (privateKey publicKey : Transfer) :
    Leaves before (sshKeygen privateKey publicKey) (fun _ files => before privateKeyName = none
      ∧ files = put publicKeyName publicKey.content
        (put privateKeyName privateKey.content before)) := by
  refine triple_bind (Q := fun _ files => files = before ∧ before privateKeyName = none)
    (triple_look ?_) ?_
  · rintro _ _ - rfl hanswer
    split_ifs at hanswer with hfresh
    exact ⟨rfl, hfresh⟩
  intro _
  apply triple_exact
  rintro _ - ⟨rfl, hfresh⟩
  apply triple_bind (leaves_transfer privateKey published_put_privateKey)
  intro _
  exact (leaves_transfer publicKey fun _ _ h => published_update h (allowed_publicKey _)).mono
    (fun _ _ hfiles => hfiles) (fun _ _ _ hafter => ⟨hfresh, hafter⟩)

/-- The three files that are moved to their places. -/
def placed (calls : ConfigureCalls) (instanceId : Bytes) (files : Files) : Files :=
  Function.update (Function.update (Function.update files
    instanceIdName (some ⟨instanceId++[0x0A], 0o444⟩))
    manifestName (some ⟨calls.manifest.curl.content, 0o444⟩))
    bundleName (some ⟨calls.bundle.curl.content, 0o444⟩)

theorem leaves_publish (calls : ConfigureCalls) {instanceId : Bytes} {name : Str}
    (hdigits : requireInstanceId instanceId = .ok ())
    (htemporary : ∃ suffix, name = instanceIdName++ofString "."++suffix)
    (hfresh : before name = none) :
    Leaves (Function.update before name (some ⟨[], 0o600⟩)) (publish calls instanceId name)
      (fun _ files => files = placed calls instanceId before
        ∧ Checked calls.manifest.curl.content ∧ Checked calls.bundle.curl.content) := by
  obtain ⟨suffix, rfl⟩ := htemporary
  have hmember : instanceIdName ∈ destinations := List.mem_cons_self
  have hput := published_put_temporary hmember suffix
  apply triple_bind (leaves_transfer _ hput)
  intro _
  rw [put_update]
  apply triple_exact
  rintro _ hpublished rfl
  have hkept : Published before := by
    rw [← remove_update hfresh]
    exact published_remove hpublished
  refine triple_bind (leaves_chmod _ _ fun _ => ?_) ?_
  · rw [setMode_update]
    exact published_update hkept (allowed_temporary hmember suffix _)
  intro _
  rw [setMode_update]
  refine triple_bind (leaves_changeFile fun _ => ?_) ?_
  · rw [rename_update instanceIdName hfresh]
    refine published_update hkept
      ⟨fun _ => ⟨rfl, instanceId, hdigits, rfl⟩, fun h => ?_, fun h => ?_⟩
    · exact absurd h (by decide)
    · exact absurd h (by decide)
  intro _
  rw [rename_update instanceIdName hfresh]
  apply triple_bind (leaves_fetchReleaseEvidence calls.manifest (Or.inl rfl))
  intro _
  apply triple_exact
  rintro _ - ⟨rfl, hmanifest⟩
  exact (leaves_fetchReleaseEvidence calls.bundle (Or.inr rfl)).mono (fun _ _ hfiles => hfiles)
    (fun _ _ _ hafter => ⟨hafter.1, hmanifest, hafter.2⟩)

theorem setMode_same {name : Str} {content : Bytes} {mode : ℕ}
    (h : before name = some ⟨content, mode⟩) : setMode name mode before = before := by
  rw [setMode, h, Option.map_some, ← h, Function.update_eq_self]

/-- The modes of a key pair that was just made. -/
theorem keyed_eq (calls : ConfigureCalls) (hfresh : before privateKeyName = none) :
    setMode privateKeyName 0o600 (put publicKeyName calls.publicKey.content
        (put privateKeyName calls.privateKey.content before))
      = put publicKeyName calls.publicKey.content (put privateKeyName calls.privateKey.content before)
    ∧ setMode publicKeyName 0o644 (put publicKeyName calls.publicKey.content
        (put privateKeyName calls.privateKey.content before)) = keyed calls before := by
  have hmade : put privateKeyName calls.privateKey.content before
      = Function.update before privateKeyName (some ⟨calls.privateKey.content, 0o600⟩) := by
    rw [put, hfresh]
    rfl
  constructor
  · apply setMode_same
    rw [put, Function.update_of_ne (by decide), hmade]
    exact Function.update_self ..
  · rw [put, setMode_update, hmade]
    rfl

/-- A name that is none of the final ones is as it was. -/
theorem placed_other (calls : ConfigureCalls) (instanceId : Bytes) (suffix : Str) (files : Files) :
    placed calls instanceId files (instanceIdName++ofString "."++suffix)
      = files (instanceIdName++ofString "."++suffix) := by
  obtain ⟨hid, hmanifest, hbundle, -, -⟩ := temporary_other List.mem_cons_self suffix
  rw [placed, Function.update_of_ne hbundle, Function.update_of_ne hmanifest,
    Function.update_of_ne hid]

theorem leaves_configureWorker (calls : ConfigureCalls) :
    Leaves before (configureWorker calls) (fun _ files => ∃ output,
      calls.getMetadata = .ok output ∧ requireInstanceId (commandOutput output) = .ok ()
        ∧ files = placed calls (commandOutput output) (keyed calls before)
        ∧ Checked calls.manifest.curl.content ∧ Checked calls.bundle.curl.content) := by
  apply triple_bind (leaves_lift calls.getMetadata)
  intro output
  apply triple_exact
  rintro _ - ⟨rfl, houtput⟩
  apply triple_bind (leaves_lift _)
  intro _
  apply triple_exact
  rintro _ - ⟨rfl, hdigits⟩
  apply triple_bind (leaves_sshKeygen calls.privateKey calls.publicKey)
  intro _
  apply triple_exact
  rintro _ - ⟨hfresh, rfl⟩
  obtain ⟨hprivate, hpublic⟩ := keyed_eq calls hfresh
  refine triple_bind (leaves_chmod _ _ fun h => ?_) ?_
  · rw [hprivate]
    exact h
  intro _
  rw [hprivate]
  refine triple_bind (leaves_chmod _ _ fun h => ?_) ?_
  · rw [setMode, put, Function.update_self]
    exact published_update h (allowed_publicKey _)
  intro _
  rw [hpublic]
  apply triple_bind (leaves_mktemp calls.mktemp List.mem_cons_self)
  intro name
  apply triple_exact
  rintro _ - ⟨⟨suffix, rfl⟩, hunused, rfl⟩
  -- from here on the trap removes the temporary file, however the script ends
  apply triple_finally (leaves_publish calls hdigits ⟨suffix, rfl⟩ hunused)
  · intro _
    apply triple_exact
    rintro _ - ⟨rfl, hmanifest, hbundle⟩
    refine (leaves_rm _ _).mono (fun _ _ hfiles => hfiles) ?_
    rintro _ _ - rfl
    refine ⟨output, houtput, hdigits, ?_, hmanifest, hbundle⟩
    have hgone := (placed_other calls (commandOutput output) suffix _).trans hunused
    rw [remove, ← hgone, Function.update_eq_self]
  · apply triple_exact
    intro _ _ _
    exact (leaves_rm _ _).mono (fun _ _ hfiles => hfiles) (fun _ _ _ _ => trivial)

/-- Whatever its commands do and wherever a run of `confer-worker-config` ends, nobody ever sees
evidence, an instance id or a host key that is not whole. A run that returns leaves exactly the
files that it fetched, and the listener reads them. -/
theorem configured_workers (calls : ConfigureCalls) (watched : Watched Files)
    (h : Always Published watched) :
    Always Published (configureWorker calls watched).2
    ∧ ((configureWorker calls watched).1 = .ok () → ∃ output manifest manifestBundle,
      calls.getMetadata = .ok output
      ∧ (configureWorker calls watched).2.current
        = placed calls (commandOutput output) (keyed calls watched.current)
      ∧ readReleaseEvidence calls.manifest.curl.content = .ok manifest
      ∧ readReleaseEvidence calls.bundle.curl.content = .ok manifestBundle
      ∧ ∀ acknowledgement, acknowledgeFile (commandOutput output++[0x0A]) = .ok acknowledgement ↔
        (commandOutput output).length ≤ 4300
          ∧ ofDigits (asciiText (commandOutput output)) ≤ 0xFFFFFFFFFFFFFFFF
          ∧ acknowledgement = utf8 (ofString "CONFER-WORKER-RESERVED 1 "
            ++strOfNat (ofDigits (asciiText (commandOutput output)))++[0x0A])) := by
  obtain ⟨halways, hreturns⟩ := leaves_configureWorker calls watched h rfl
  refine ⟨halways, fun hreturned => ?_⟩
  obtain ⟨output, houtput, hdigits, hfiles, hmanifest, hbundle⟩ := hreturns () hreturned
  obtain ⟨manifest, hmanifest⟩ := (checked_iff _).mp hmanifest
  obtain ⟨manifestBundle, hbundle⟩ := (checked_iff _).mp hbundle
  exact ⟨output, manifest, manifestBundle, houtput, hfiles, hmanifest, hbundle,
    acknowledgeFile_iff hdigits⟩

/-- A fetch that arrives in two parts. -/
def promptCalls (suffix : String) (content : Bytes) : EvidenceCalls :=
  ⟨.ok (ofString suffix), ⟨content, [0, 1], .ok ()⟩, .ok (), .ok (), .ok (), .ok (), .ok ()⟩

def promptConfiguration : ConfigureCalls where
  getMetadata := .ok (utf8 (ofString "42\n"))
  privateKey := ⟨[1], [], .ok ()⟩
  publicKey := ⟨[2], [], .ok ()⟩
  chmodPrivate := .ok ()
  chmodPublic := .ok ()
  mktemp := .ok (ofString "aZ3xQ9")
  printf := ([1], .ok ())
  chmod := .ok ()
  mv := .ok ()
  cleanup := .ok ()
  manifest := promptCalls "Kw81bb" (utf8 (ofString "[1]"))
  bundle := promptCalls "Kw81bb" (utf8 (ofString "[2]"))

theorem configured_workers_prompt : ∃ manifest manifestBundle,
    (configureWorker promptConfiguration ⟨fun _ => none, []⟩).2.current
      = placed promptConfiguration [0x34, 0x32] (keyed promptConfiguration fun _ => none)
    ∧ readReleaseEvidence (utf8 (ofString "[1]")) = .ok manifest
    ∧ readReleaseEvidence (utf8 (ofString "[2]")) = .ok manifestBundle
    ∧ acknowledgeFile [0x34, 0x32, 0x0A]
      = .ok (utf8 (ofString "CONFER-WORKER-RESERVED 1 42\n")) := by
  have hempty : Always Published ⟨fun _ => none, []⟩ := by
    refine ⟨?_, List.forall_mem_nil _⟩
    intro name file hfile
    cases hfile
  have hreturned : (configureWorker promptConfiguration ⟨fun _ => none, []⟩).1 = .ok () := by
    decide
  obtain ⟨output, manifest, manifestBundle, houtput, hfiles, hmanifest, hbundle, hacknowledged⟩ :=
    (configured_workers promptConfiguration _ hempty).2 hreturned
  cases houtput
  refine ⟨manifest, manifestBundle, hfiles, hmanifest, hbundle, ?_⟩
  exact (hacknowledged _).mpr ⟨by decide, by decide, by decide⟩

end Runs

end WorkerConfiguration

end ConferWorker
