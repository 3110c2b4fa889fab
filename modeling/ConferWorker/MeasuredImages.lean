import ConferWorker.AuthenticodeCoverage
import ConferWorker.AuthenticodeSigning
import ConferWorker.BootMeasurements
import ConferWorker.CanonicalHex
import ConferWorker.GptTampering
import ConferWorker.ReceivedFrames
import ConferWorker.Sha2

/-! What the measurements of a disk image stand for: its partition table, the hashed bytes of its
boot loader and of the kernel in it, and the events of the platform profile. -/
namespace ConferWorker

namespace ReleaseImage

/-- What a boot measures: a disk with its sector size, the boot loader on it, the kernel in the
boot loader, and the values of a platform profile. -/
structure BootParts where
  image : Bytes
  sectorSize : SectorSize
  uki : Bytes
  kernel : Bytes
  mrtd : Bytes
  eventDigests : List Bytes

namespace BootParts

variable (sha384 : Bytes → Bytes) (boot : BootParts)

def gptEvent : Bytes := ReleaseImage.gptEvent boot.image boot.sectorSize

def ukiStream : Bytes := hashedStream boot.uki (peImage boot.uki)

def kernelStream : Bytes := hashedStream boot.kernel (peImage boot.kernel)

/-- The event digests of RTMR1, in the order of the boot. -/
def transcript : List Bytes :=
  [sha384 bootAction, sha384 separator, sha384 boot.gptEvent, sha384 boot.ukiStream,
    sha384 boot.kernelStream, sha384 exitInvocation, sha384 exitSuccess]

def rtmr0 : Bytes := HashChain.run sha384 zeroRegister boot.eventDigests

def rtmr1 : Bytes := HashChain.run sha384 zeroRegister (boot.transcript sha384)

def measurements : List (Str × Json) :=
  [(ofString "mrtd", .str (hex boot.mrtd)), (ofString "rtmr0", .str (hex (boot.rtmr0 sha384))),
    (ofString "rtmr1", .str (hex (boot.rtmr1 sha384))), (ofString "rtmr2", .str (hex zeroRegister))]

/-- Everything that is hashed for the measurements. -/
def hashed : List Bytes :=
  [boot.gptEvent, boot.ukiStream, boot.kernelStream]
    ++HashChain.inputs sha384 zeroRegister (boot.transcript sha384)
    ++HashChain.inputs sha384 zeroRegister boot.eventDigests

/-- The parts pass the checks of the script. -/
structure Accepted : Prop where
  gpt : GptAccepted boot.image boot.sectorSize
  uki : AuthenticodeAccepted boot.uki
  embedded : extractEmbeddedLinuxImage boot.uki = .ok boot.kernel
  kernel : AuthenticodeAccepted boot.kernel
  transcript_sized : ∀ digest ∈ boot.transcript sha384, digest.length = sha384Bytes
  mrtd_sized : boot.mrtd.length = sha384Bytes
  events_sized : ∀ digest ∈ boot.eventDigests, digest.length = sha384Bytes

/-- Two boots that no measurement tells apart, unless the events of a profile bring a register
back to zeros. -/
structure SameMeasured (boot boot' : BootParts) : Prop where
  header : gptHeader boot.image boot.sectorSize = gptHeader boot'.image boot'.sectorSize
  entries : usedEntries boot.image boot.sectorSize = usedEntries boot'.image boot'.sectorSize
  uki : boot.ukiStream = boot'.ukiStream
  kernel : boot.kernelStream = boot'.kernelStream
  mrtd : boot.mrtd = boot'.mrtd
  events : boot.eventDigests = boot'.eventDigests
    ∨ ∃ loop, loop ≠ [] ∧ HashChain.run sha384 zeroRegister loop = zeroRegister
      ∧ (loop <+: boot.eventDigests ∨ loop <+: boot'.eventDigests)

variable {sha384} {boot} {boot' : BootParts}

/-- Without collisions in what was hashed, RTMR1 is one partition table, one boot loader and one
kernel. -/
theorem streams_eq (h : boot.Accepted sha384) (h' : boot'.Accepted sha384)
    (hfree : Set.InjOn sha384 {input | input ∈ boot.hashed sha384++boot'.hashed sha384})
    (hregister : boot.rtmr1 sha384 = boot'.rtmr1 sha384) :
    boot.gptEvent = boot'.gptEvent ∧ boot.ukiStream = boot'.ukiStream
      ∧ boot.kernelStream = boot'.kernelStream := by
  have hin {input : Bytes} (hinput : input ∈ boot.hashed sha384) :
      input ∈ {input | input ∈ boot.hashed sha384++boot'.hashed sha384} :=
    List.mem_append_left _ hinput
  have hin' {input : Bytes} (hinput : input ∈ boot'.hashed sha384) :
      input ∈ {input | input ∈ boot.hashed sha384++boot'.hashed sha384} :=
    List.mem_append_right _ hinput
  have hcount : (boot.transcript sha384).length = (boot'.transcript sha384).length := rfl
  obtain ⟨-, htranscript⟩ := HashChain.run_injective hfree hcount h.transcript_sized
    h'.transcript_sized
    (fun input hinput => hin (List.mem_append_left _ (List.mem_append_right _ hinput)))
    (fun input hinput => hin' (List.mem_append_left _ (List.mem_append_right _ hinput))) hregister
  simp only [transcript, List.cons.injEq, true_and, and_true] at htranscript
  obtain ⟨hgpt, huki, hkernel⟩ := htranscript
  refine ⟨hfree (hin ?_) (hin' ?_) hgpt, hfree (hin ?_) (hin' ?_) huki,
    hfree (hin ?_) (hin' ?_) hkernel⟩
  all_goals simp only [hashed, List.cons_append, List.mem_cons, true_or, or_true]

theorem sameMeasured (h : boot.Accepted sha384) (h' : boot'.Accepted sha384)
    (hfree : Set.InjOn sha384 {input | input ∈ boot.hashed sha384++boot'.hashed sha384})
    (hequal : boot.measurements sha384 = boot'.measurements sha384) :
    SameMeasured sha384 boot boot' := by
  simp only [measurements, List.cons.injEq, Prod.mk.injEq, Json.str.injEq, true_and, and_true,
    hex_injective.eq_iff] at hequal
  obtain ⟨hmrtd, hrtmr0, hrtmr1⟩ := hequal
  obtain ⟨hgpt, huki, hkernel⟩ := streams_eq h h' hfree hrtmr1
  obtain ⟨hheader, hentries⟩ := (gptEvent_eq_iff h.gpt h'.gpt).mp hgpt
  refine ⟨hheader, hentries, huki, hkernel, hmrtd, ?_⟩
  exact HashChain.run_eq hfree h.events_sized h'.events_sized
    (fun input hinput => List.mem_append_left _ (List.mem_append_right _ hinput))
    (fun input hinput => List.mem_append_right _ (List.mem_append_right _ hinput)) hrtmr0

end BootParts

section Registers

variable {sha384 : Bytes → Bytes}

theorem extend_eq_ok (register eventDigest result : Bytes) :
    extend sha384 register eventDigest = .ok result
      ↔ register.length = sha384Bytes ∧ eventDigest.length = sha384Bytes
        ∧ sha384 (register++eventDigest) = result := by
  simp only [extend, bind_eq_ok, raiseIf_eq_ok, exists_const, pure_eq_ok, not_or, not_not, and_assoc]

/-- A transcript whose extensions are all accepted. -/
theorem extendAll_eq_ok {register result : Bytes} {digests : List Bytes}
    (h : digests.foldlM (extend sha384) register = .ok result) :
    (∀ digest ∈ digests, digest.length = sha384Bytes)
      ∧ HashChain.run sha384 register digests = result := by
  induction digests generalizing register with
  | nil =>
    rw [List.foldlM_nil, pure_eq_ok] at h
    exact ⟨List.forall_mem_nil _, h⟩
  | cons digest digests ih =>
    rw [List.foldlM_cons, bind_eq_ok] at h
    obtain ⟨_, hextend, hrest⟩ := h
    obtain ⟨-, hdigest, rfl⟩ := (extend_eq_ok _ _ _).mp hextend
    obtain ⟨hdigests, hrun⟩ := ih hrest
    exact ⟨List.forall_mem_cons.mpr ⟨hdigest, hdigests⟩, hrun⟩

theorem eventDigest_length {event : Json} {digest : Bytes} (h : eventDigest event = .ok digest) :
    digest.length = sha384Bytes := by
  simp only [eventDigest, bind_eq_ok, decodeHex_eq_ok] at h
  obtain ⟨_, _, _, _, _, _, hlength, _⟩ := h
  exact hlength

/-- The events of a profile, as their digests. -/
theorem events_eq_ok {register result : Bytes} {events : List Json}
    (h : events.foldlM (fun register event => do
      let digest ← eventDigest event
      pure (sha384 (register++digest))) register = .ok result) :
    ∃ digests, events.mapM eventDigest = .ok digests
      ∧ (∀ digest ∈ digests, digest.length = sha384Bytes)
      ∧ HashChain.run sha384 register digests = result := by
  induction events generalizing register with
  | nil =>
    rw [List.foldlM_nil, pure_eq_ok] at h
    exact ⟨[], rfl, List.forall_mem_nil _, h⟩
  | cons event events ih =>
    simp only [List.foldlM_cons, bind_eq_ok, pure_eq_ok] at h
    obtain ⟨_, ⟨digest, hdigest, rfl⟩, hrest⟩ := h
    obtain ⟨digests, hdigests, hlengths, hrun⟩ := ih hrest
    refine ⟨digest :: digests, ?_, List.forall_mem_cons.mpr ⟨eventDigest_length hdigest, hlengths⟩,
      hrun⟩
    rw [List.mapM_cons, hdigest, ok_bind, hdigests]
    rfl

end Registers

/-- `value[name]`. -/
def memberOf (value : Json) (name : String) : Json := member (membersOf value) name

/-- The tree of a profile spells these values. -/
structure ProfileValues (tree : Json) (mrtd : Bytes) (eventDigests : List Bytes) : Prop where
  mrtd_spelled : memberOf tree "mrtd" = .str (hex mrtd)
  mrtd_sized : mrtd.length = sha384Bytes
  events_spelled : ∃ events, memberOf (memberOf tree "rtmr0Fixture") "events" = .arr events
    ∧ events.map (memberOf · "digest") = eventDigests.map (fun digest => .str (hex digest))
  events_sized : ∀ digest ∈ eventDigests, digest.length = sha384Bytes

theorem requireExactKeys_eq_ok {value : Json} {expected : List String} {description : String}
    {members : List (Str × Json)} (h : requireExactKeys value expected description = .ok members) :
    value = .obj members := by
  cases value with
  | obj found =>
    simp only [requireExactKeys, bind_eq_ok, pure_eq_ok] at h
    obtain ⟨_, -, rfl⟩ := h
    rfl
  | _ => cases h

theorem eventDigest_spelled {event : Json} {digest : Bytes} (h : eventDigest event = .ok digest) :
    memberOf event "digest" = .str (hex digest) := by
  simp only [eventDigest, bind_eq_ok, decodeHex_eq_ok] at h
  obtain ⟨members, hmembers, _, _, _, _, _, hdigest⟩ := h
  rw [requireExactKeys_eq_ok hmembers]
  exact hdigest

theorem eventList_eq_ok {value : Json} {events : List Json} (h : eventList value = .ok events) :
    value = .arr events := by
  unfold eventList at h
  split at h
  · cases h
  · cases h
    rfl
  · cases h

/-- What a measurement takes from a profile. -/
theorem checkProfile_eq_ok {sha384 : Bytes → Bytes} {tree : Json} {profile : PlatformProfile}
    (h : checkProfile sha384 tree = .ok profile) : ∃ mrtd eventDigests,
      ProfileValues tree mrtd eventDigests ∧ member profile.members "mrtd" = .str (hex mrtd)
        ∧ profile.rtmr0 = HashChain.run sha384 zeroRegister eventDigests := by
  simp only [checkProfile, bind_eq_ok, pure_eq_ok] at h
  obtain ⟨members, hmembers, _, -, mrtd, hmrtd, fixture, hfixture, _, -, events, hevents, rtmr0,
    hrtmr0, rfl⟩ := h
  obtain ⟨hsized, hspelled⟩ := (decodeHex_eq_ok _ _ _ _).mp hmrtd
  obtain ⟨digests, hdigests, hlengths, rfl⟩ := events_eq_ok hrtmr0
  obtain rfl := requireExactKeys_eq_ok hmembers
  refine ⟨mrtd, digests, ⟨hspelled, hsized, ⟨events, ?_, ?_⟩, hlengths⟩, hspelled, rfl⟩
  · have hinside : memberOf (.obj members) "rtmr0Fixture" = .obj fixture :=
      requireExactKeys_eq_ok hfixture
    rw [hinside]
    exact eventList_eq_ok hevents
  · exact (mapM_map_eq (fun event _ digest hdigest => (eventDigest_spelled hdigest).symm)
      hdigests).symm

theorem loadPlatformProfile_eq_ok {reads : JsonReads} {sha384 : Bytes → Bytes}
    {file : Except PythonError Bytes} {profile : PlatformProfile}
    (h : loadPlatformProfile reads sha384 file = .ok profile) : ∃ content text tree,
      file = .ok content ∧ decodeUtf8 content = some text ∧ loadProfile reads text = .ok tree
        ∧ checkProfile sha384 tree = .ok profile := by
  simp only [loadPlatformProfile, bind_eq_ok, mapError_eq_ok, valueOr_eq_ok] at h
  obtain ⟨content, hfile, text, htext, tree, htree, hprofile⟩ := h
  exact ⟨content, text, tree, hfile, htext, htree, hprofile⟩

/-- Where the parts of a boot come from: the disk, by the tools, and the file of the profile. -/
structure BootParts.FoundBy (loads : JsonLoads) (reads : JsonReads) (sha384 : Bytes → Bytes)
    (tools : Tools) (profileFile : Except PythonError Bytes) (boot : BootParts) : Prop where
  accepted : boot.Accepted sha384
  disk : ∃ table offset, getPartitionTable loads (tools.sfdisk boot.image) = .ok table
    ∧ getSectorSize table = .ok boot.sectorSize ∧ getEspOffset boot.image table = .ok offset
    ∧ copyUki (tools.mcopy boot.image offset) = .ok boot.uki
  profile : ∃ content text tree, profileFile = .ok content ∧ decodeUtf8 content = some text
    ∧ loadProfile reads text = .ok tree ∧ ProfileValues tree boot.mrtd boot.eventDigests

section Measured

variable {loads loads' : JsonLoads} {reads reads' : JsonReads} {sha384 : Bytes → Bytes}
variable {tools tools' : Tools} {profileFile profileFile' : Except PythonError Bytes}
variable {path path' : String} {image image' : Option Bytes} {result result' : List (Str × Json)}

/-- The transcript, as a fold over its digests. -/
theorem calculateMeasurements_eq (gptEventDigest ukiDigest linuxDigest : Bytes)
    (platformProfile : Measured PlatformProfile) :
    calculateMeasurements sha384 gptEventDigest ukiDigest linuxDigest platformProfile
      = (do
        let rtmr1 ← [sha384 bootAction, sha384 separator, gptEventDigest, ukiDigest, linuxDigest,
          sha384 exitInvocation, sha384 exitSuccess].foldlM (extend sha384) zeroRegister
        let platformProfile ← platformProfile
        pure [(ofString "mrtd", member platformProfile.members "mrtd"),
          (ofString "rtmr0", .str (hex platformProfile.rtmr0)),
          (ofString "rtmr1", .str (hex rtmr1)), (ofString "rtmr2", .str (hex zeroRegister))]) := by
  simp only [calculateMeasurements, hashAndExtend, List.foldlM_cons, List.foldlM_nil, bind_assoc,
    pure_bind]

theorem getEfiApplicationDigests_eq_ok {uki ukiDigest linuxDigest : Bytes}
    (h : getEfiApplicationDigests sha384 uki = .ok (ukiDigest, linuxDigest)) :
    ∃ kernel, extractEmbeddedLinuxImage uki = .ok kernel ∧ AuthenticodeAccepted uki
      ∧ AuthenticodeAccepted kernel ∧ sha384 (hashedStream uki (peImage uki)) = ukiDigest
      ∧ sha384 (hashedStream kernel (peImage kernel)) = linuxDigest := by
  simp only [getEfiApplicationDigests, released, bind_eq_ok, mapError_eq_ok, pure_eq_ok,
    Prod.mk.injEq, calculateAuthenticodeDigest_eq_ok_iff] at h
  obtain ⟨_, ⟨huki, hukiDigest⟩, kernel, hkernel, _, ⟨hlinux, hlinuxDigest⟩, rfl, rfl⟩ := h
  exact ⟨kernel, hkernel, huki, hlinux, hukiDigest, hlinuxDigest⟩

example : [ConferWorker.sha384 bootAction, ConferWorker.sha384 separator,
    (List.range 48).map UInt8.ofNat, (List.range 48).map (fun i => UInt8.ofNat (48+i)),
    (List.range 48).map (fun i => UInt8.ofNat (96+i)), ConferWorker.sha384 exitInvocation,
    ConferWorker.sha384 exitSuccess].foldlM (extend ConferWorker.sha384) zeroRegister
      = .ok (toBig 24 0xcc223af4034ff1d14ba1e937b6d822b068143fc248f357d5
        ++toBig 24 0x4be99b85552d84dc7fdb69bf9259dce6a1bf01646e4c5613) := by
  decide +kernel

/-- A measurement that succeeded is that of the parts it found. -/
theorem measureImage_eq_ok
    (h : measureImage loads reads sha384 tools profileFile path image = .ok result) :
    ∃ boot : BootParts, image = some boot.image
      ∧ boot.FoundBy loads reads sha384 tools profileFile
      ∧ result = boot.measurements sha384 := by
  simp only [measureImage, bind_eq_ok, valueOr_eq_ok, released, mapError_eq_ok,
    getGptEventData_eq_ok_iff, Prod.exists] at h
  obtain ⟨disk, rfl, table, htable, sectorSize, hsector, offset, hoffset, _, ⟨hgpt, rfl⟩, uki, huki,
    ukiDigest, linuxDigest, hdigests, hcalculate⟩ := h
  obtain ⟨kernel, hembedded, hukiAccepted, hkernelAccepted, rfl, rfl⟩ :=
    getEfiApplicationDigests_eq_ok hdigests
  rw [calculateMeasurements_eq] at hcalculate
  simp only [bind_eq_ok, pure_eq_ok] at hcalculate
  obtain ⟨_, hregister, profile, hprofile, rfl⟩ := hcalculate
  obtain ⟨hsized, rfl⟩ := extendAll_eq_ok hregister
  obtain ⟨content, text, tree, hfile, htext, htree, hchecked⟩ := loadPlatformProfile_eq_ok hprofile
  obtain ⟨mrtd, eventDigests, hvalues, hmrtd, hrtmr0⟩ := checkProfile_eq_ok hchecked
  refine ⟨⟨disk, sectorSize, uki, kernel, mrtd, eventDigests⟩, rfl, ⟨⟨hgpt, hukiAccepted, hembedded,
    hkernelAccepted, hsized, hvalues.mrtd_sized, hvalues.events_sized⟩,
    ⟨table, offset, htable, hsector, hoffset, huki⟩,
    ⟨content, text, tree, hfile, htext, htree, hvalues⟩⟩, ?_⟩
  rw [hmrtd, hrtmr0]
  rfl

/-- Measurements stand for the parts of a boot: where the hash does not collide on what was hashed,
equal measurements are those of one partition table, one boot loader and one kernel as far as they
are hashed, one MRTD, and one list of firmware events. -/
theorem release_measurements_bind
    (h : measureImage loads reads sha384 tools profileFile path image = .ok result)
    (h' : measureImage loads' reads' sha384 tools' profileFile' path' image' = .ok result') :
    ∃ boot boot' : BootParts, image = some boot.image ∧ image' = some boot'.image
      ∧ boot.FoundBy loads reads sha384 tools profileFile
      ∧ boot'.FoundBy loads' reads' sha384 tools' profileFile'
      ∧ result = boot.measurements sha384 ∧ result' = boot'.measurements sha384
      ∧ (Set.InjOn sha384 {input | input ∈ boot.hashed sha384++boot'.hashed sha384} →
        result = result' → BootParts.SameMeasured sha384 boot boot') := by
  obtain ⟨boot, himage, hfound, rfl⟩ := measureImage_eq_ok h
  obtain ⟨boot', himage', hfound', rfl⟩ := measureImage_eq_ok h'
  exact ⟨boot, boot', himage, himage', hfound, hfound', rfl, rfl, fun hfree hequal =>
    BootParts.sameMeasured hfound.accepted hfound'.accepted hfree hequal⟩

end Measured

/-- A boot loader with one section, which holds a kernel. -/
def sampleUki : Bytes :=
  unsignedImage.take 248++toLittle 4 unsignedImage.length++toLittle 4 280
    ++toLittle 4 unsignedImage.length++toLittle 4 280++List.replicate 16 0++unsignedImage

/-- What `sfdisk` finds on a disk whose last sector is its EFI System Partition. -/
def sampleTable : Json :=
  .obj [(ofString "partitiontable", .obj [(ofString "label", .str (ofString "gpt")),
    (ofString "unit", .str (ofString "sectors")), (ofString "sectorsize", .int 512),
    (ofString "partitions", .arr [.obj [(ofString "start", .int 3), (ofString "size", .int 1),
      (ofString "type", .str espType)]])])]

def sampleTools : Tools where
  sfdisk _ := .finished (sampleTable.encode.toOption.getD [])
  mcopy _ _ := (.finished [], some sampleUki)

/-- A profile with one event. -/
def sampleProfile : Json :=
  .obj [(ofString "version", .int 1), (ofString "mrtd", .str (hex (sha384 []))),
    (ofString "rtmr0Fixture", .obj [
      (ofString "platform", .obj [(ofString "provider", .str (ofString "GCP")),
        (ofString "region", .str (ofString "us-central1")),
        (ofString "machineType", .str (ofString "c3-standard-8")),
        (ofString "confidentialInstanceType", .str (ofString "TDX")),
        (ofString "shieldedInstanceConfig", .obj [(ofString "secureBoot", .bool false),
          (ofString "virtualTpm", .bool true), (ofString "integrityMonitoring", .bool true)])]),
      (ofString "events", .arr [.obj [(ofString "type", .int 0x8000000B),
        (ofString "description", .str (ofString "TD HOB")),
        (ofString "digest", .str (hex (sha384 [1])))]])])]

set_option maxRecDepth 20000 in
theorem sample_measured (last : UInt8) (h : last = 0 ∨ last = 255) : ∃ result,
    measureImage (JsonParser.loads plainRuntime) (JsonParser.read plainRuntime) sha384 sampleTools
      sampleProfile.encode "worker.raw" (some (sampleDisk last)) = .ok result := by
  have hreturns : ∀ {x : Measured (List (Str × Json))}, x.isOk = true →
      ∃ result, x = .ok result := by
    intro x hx
    cases x with
    | error e => cases hx
    | ok result => exact ⟨result, rfl⟩
  apply hreturns
  rcases h with rfl | rfl
  · decide +kernel
  · decide +kernel

theorem release_measurements_bind_sample : ∃ result result', ∃ boot boot' : BootParts,
    some (sampleDisk 0) = some boot.image ∧ some (sampleDisk 255) = some boot'.image
      ∧ boot.FoundBy (JsonParser.loads plainRuntime) (JsonParser.read plainRuntime) sha384
        sampleTools sampleProfile.encode
      ∧ boot'.FoundBy (JsonParser.loads plainRuntime) (JsonParser.read plainRuntime) sha384
        sampleTools sampleProfile.encode
      ∧ result = boot.measurements sha384 ∧ result' = boot'.measurements sha384
      ∧ (Set.InjOn sha384 {input | input ∈ boot.hashed sha384++boot'.hashed sha384} →
        result = result' → BootParts.SameMeasured sha384 boot boot') := by
  obtain ⟨result, hresult⟩ := sample_measured 0 (Or.inl rfl)
  obtain ⟨result', hresult'⟩ := sample_measured 255 (Or.inr rfl)
  exact ⟨result, result', release_measurements_bind hresult hresult'⟩

end ReleaseImage

end ConferWorker
