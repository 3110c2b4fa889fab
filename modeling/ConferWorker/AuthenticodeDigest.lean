import Mathlib.Data.List.DropRight
import ConferWorker.PeImage

/-! The Authenticode digest of `scripts/measure-release-image`: which slices of
the image reach the hasher, and what an accepted image guarantees about them. -/
namespace ConferWorker

/-- `section.name.rstrip(b"\0")`. -/
def PeSection.strippedName (s : PeSection) : Bytes := s.name.rdropWhile (· = 0)

/-- `b".linux"`. -/
def linuxSectionName : Bytes := [0x2e, 0x6c, 0x69, 0x6e, 0x75, 0x78]

/-- The order in which `sorted` puts pairs. -/
def pairLe (a b : ℕ × ℕ) : Prop := a.1 < b.1 ∨ a.1 = b.1 ∧ a.2 ≤ b.2

instance : DecidableRel pairLe := fun _ _ => inferInstanceAs (Decidable (_ ∨ _))

/-- The offsets and sizes of the non-empty sections, sorted. -/
def hashedSections (pe : PeImage) : List (ℕ × ℕ) :=
  ((pe.sections.filter (fun s => s.rawSize ≠ 0)).map
    (fun s => (s.rawOffset, s.rawSize))).insertionSort pairLe

def securityDirectory (pe : PeImage) : ℕ := pe.dataDirectories+securityDirectoryIndex*8

/-- The header updates of the hasher, and the certificate size. -/
def hashHeaders (image : Bytes) (description : String) (pe : PeImage) :
    Except ReleaseMeasurementError (List Bytes × ℕ) :=
  if pe.numberOfDirectories ≤ securityDirectoryIndex then
    pure ([slice image 0 pe.checksum, slice image (pe.checksum+4) pe.sizeOfHeaders], 0)
  else do
    raiseIf (pe.sizeOfHeaders < securityDirectory pe+8)
      ⟨description ++ " security directory is invalid"⟩
    let certificateAddress ←
      readPeUnsigned image (securityDirectory pe) 4 description "certificate address"
    let certificateSize ←
      readPeUnsigned image (securityDirectory pe+4) 4 description "certificate size"
    raiseIf (¬(certificateAddress = 0 ↔ certificateSize = 0) ∨
        certificateSize ≠ 0 ∧ certificateAddress+certificateSize ≠ image.length)
      ⟨description ++ " certificate table is invalid"⟩
    pure ([slice image 0 pe.checksum, slice image (pe.checksum+4) (securityDirectory pe),
      slice image (securityDirectory pe+8) pe.sizeOfHeaders], certificateSize)

/-- The section loop: the updates it makes and the final `bytes_hashed`. -/
def hashSections (image : Bytes) (description : String) :
    List (ℕ × ℕ) → ℕ → ℕ → Except ReleaseMeasurementError (List Bytes × ℕ)
  | [], bytesHashed, _ => pure ([], bytesHashed)
  | (offset, size) :: rest, bytesHashed, previousSectionEnd => do
    raiseIf (offset < previousSectionEnd) ⟨description ++ " raw sections overlap"⟩
    let (updates, total) ←
      hashSections image description rest (bytesHashed+size) (offset+size)
    pure (slice image offset (offset+size) :: updates, total)

/-- Every argument of `hasher.update`, in order. -/
def authenticodeUpdates (image : Bytes) (description : String) :
    Except ReleaseMeasurementError (List Bytes) := do
  let pe ← parsePeImage image description
  let (headers, certificateSize) ← hashHeaders image description pe
  let (sections, bytesHashed) ←
    hashSections image description (hashedSections pe) pe.sizeOfHeaders pe.sizeOfHeaders
  raiseIf (image.length < bytesHashed+certificateSize)
    ⟨description ++ " hashed regions exceed the image"⟩
  let trailingBytes := image.length-certificateSize-bytesHashed
  let trailing :=
    if trailingBytes ≠ 0 then [slice image bytesHashed (bytesHashed+trailingBytes)] else []
  pure (headers ++ sections ++ trailing)

def calculateAuthenticodeDigest (sha384 : Bytes → Bytes) (image : Bytes) (description : String) :
    Except ReleaseMeasurementError Bytes :=
  (fun updates => sha384 updates.flatten) <$> authenticodeUpdates image description

def extractEmbeddedLinuxImage (uki : Bytes) : Except ReleaseMeasurementError Bytes := do
  let pe ← parsePeImage uki "EFI fallback UKI"
  match pe.sections.filter (fun s => s.strippedName = linuxSectionName) with
  | [s] =>
    raiseIf (s.virtualSize = 0 ∨ s.rawSize < s.virtualSize)
      ⟨"EFI fallback UKI .linux section size is invalid"⟩
    pure (slice uki s.rawOffset (s.rawOffset+s.virtualSize))
  | sections =>
    .error ⟨"Expected one EFI fallback UKI .linux section, found " ++ toString sections.length⟩

/-! The hashed stream as a function of the bytes, for accepted images. -/

def certificateSize (image : Bytes) (pe : PeImage) : ℕ :=
  if pe.numberOfDirectories ≤ securityDirectoryIndex then 0
  else peField image (securityDirectory pe+4) 4

def certificateAddress (image : Bytes) (pe : PeImage) : ℕ :=
  peField image (securityDirectory pe) 4

/-- The header slices: the checksum is left out, and the security directory
entry where the image declares it. -/
def headerUpdates (image : Bytes) (pe : PeImage) : List Bytes :=
  if pe.numberOfDirectories ≤ securityDirectoryIndex then
    [slice image 0 pe.checksum, slice image (pe.checksum+4) pe.sizeOfHeaders]
  else [slice image 0 pe.checksum, slice image (pe.checksum+4) (securityDirectory pe),
    slice image (securityDirectory pe+8) pe.sizeOfHeaders]

def sectionBytes (image : Bytes) (s : ℕ × ℕ) : Bytes := slice image s.1 (s.1+s.2)

/-- The final `bytes_hashed`. -/
def bytesHashed (pe : PeImage) : ℕ := pe.sizeOfHeaders+((hashedSections pe).map Prod.snd).sum

def trailingBytes (image : Bytes) (pe : PeImage) : Bytes :=
  slice image (bytesHashed pe) (image.length-certificateSize image pe)

def hashedStream (image : Bytes) (pe : PeImage) : Bytes :=
  (headerUpdates image pe).flatten ++ ((hashedSections pe).map (sectionBytes image)).flatten ++
    trailingBytes image pe

/-- Sections that start at or after the end of the one before. -/
def Ascending : ℕ → List (ℕ × ℕ) → Prop
  | _, [] => True
  | stop, s :: rest => stop ≤ s.1 ∧ Ascending (s.1+s.2) rest

/-- Sections that leave no gap. -/
def Tiling : ℕ → List (ℕ × ℕ) → Prop
  | _, [] => True
  | stop, s :: rest => s.1 = stop ∧ Tiling (s.1+s.2) rest

/-- The certificate table, where declared, is absent or ends the file. -/
structure CertificateOk (image : Bytes) (pe : PeImage) : Prop where
  zero_iff : 4 < pe.numberOfDirectories →
    (certificateAddress image pe = 0 ↔ certificateSize image pe = 0)
  ends : 4 < pe.numberOfDirectories → certificateSize image pe ≠ 0 →
    certificateAddress image pe+certificateSize image pe = image.length

structure AuthenticodeAccepted (image : Bytes) : Prop where
  pe : PeAccepted image
  certificate : CertificateOk image (peImage image)
  ascending : Ascending (sizeOfHeaders image) (hashedSections (peImage image))
  fits : bytesHashed (peImage image)+certificateSize image (peImage image) ≤ image.length

theorem hashSections_eq_ok (image : Bytes) (d : String) (sections : List (ℕ × ℕ))
    (hashed stop : ℕ) (r : List Bytes × ℕ) :
    hashSections image d sections hashed stop = .ok r ↔ Ascending stop sections ∧
      (sections.map (sectionBytes image), hashed+(sections.map Prod.snd).sum) = r := by
  induction sections generalizing hashed stop r with
  | nil => simp [hashSections, Ascending]
  | cons s rest ih =>
    simp only [hashSections, bind_eq_ok, raiseIf_eq_ok, exists_const, pure_eq_ok, Prod.exists,
      ih, Ascending, not_lt, List.map_cons, List.sum_cons, Prod.mk.injEq]
    constructor
    · rintro ⟨hs, _, _, ⟨hrest, rfl, rfl⟩, rfl⟩
      exact ⟨⟨hs, hrest⟩, by rw [add_assoc]; rfl⟩
    · rintro ⟨⟨hs, hrest⟩, rfl⟩
      exact ⟨hs, _, _, ⟨hrest, rfl, rfl⟩, by rw [add_assoc]; rfl⟩

/-- The check on the security directory never fires: the entry lies in the
optional header, and that ends before the section table does. -/
theorem PeAccepted.securityDirectory_le {image : Bytes} (h : PeAccepted image)
    (hn : 4 < numberOfDirectories image) :
    securityDirectory (peImage image)+8 ≤ sizeOfHeaders image := by
  have hend := h.directories_end
  have htable := h.sectionTable_le
  have hle : sectionTable image ≤ sectionTableEnd image := Nat.le_add_right _ _
  simp only [securityDirectory, securityDirectoryIndex, peImage]
  omega

theorem PeAccepted.checksum_le {image : Bytes} (h : PeAccepted image) :
    optionalHeader image+112 ≤ sizeOfHeaders image := by
  have hend := h.directories_end
  have htable := h.sectionTable_le
  have hle : sectionTable image ≤ sectionTableEnd image := Nat.le_add_right _ _
  omega

theorem hashHeaders_eq_ok {image : Bytes} (h : PeAccepted image) (d : String)
    (r : List Bytes × ℕ) :
    hashHeaders image d (peImage image) = .ok r ↔ CertificateOk image (peImage image) ∧
      (headerUpdates image (peImage image), certificateSize image (peImage image)) = r := by
  have hlen := h.headers_le
  by_cases hn : (peImage image).numberOfDirectories ≤ securityDirectoryIndex
  · have hsmall : ¬4 < (peImage image).numberOfDirectories := not_lt.mpr hn
    simp only [hashHeaders, headerUpdates, certificateSize, if_pos hn, pure_eq_ok]
    exact ⟨fun hr => ⟨⟨fun hb => absurd hb hsmall, fun hb => absurd hb hsmall⟩, hr⟩, And.right⟩
  · have hbig : 4 < (peImage image).numberOfDirectories := not_le.mp hn
    have hsd := h.securityDirectory_le hbig
    have hsoh : (peImage image).sizeOfHeaders = sizeOfHeaders image := rfl
    have hsize : certificateSize image (peImage image) =
        peField image (securityDirectory (peImage image)+4) 4 := if_neg hn
    have haddr : certificateAddress image (peImage image) =
        peField image (securityDirectory (peImage image)) 4 := rfl
    simp only [hashHeaders, headerUpdates, if_neg hn, bind_eq_ok, raiseIf_eq_ok, pure_eq_ok,
      readPeUnsigned_eq_ok, exists_const, ← haddr, ← hsize]
    constructor
    · rintro ⟨-, _, ⟨-, -, rfl⟩, _, ⟨-, -, rfl⟩, hcert, rfl⟩
      rw [not_or, not_not, not_and, not_not] at hcert
      exact ⟨⟨fun _ => hcert.1, fun _ => hcert.2⟩, rfl⟩
    · rintro ⟨hcert, rfl⟩
      refine ⟨by omega, _, ⟨by decide, by omega, rfl⟩, _, ⟨by decide, by omega, rfl⟩, ?_, rfl⟩
      rw [not_or, not_not, not_and, not_not]
      exact ⟨hcert.zero_iff hbig, hcert.ends hbig⟩

/-- The digest is returned exactly on the accepted images, and hashes the
stream read off the bytes. -/
theorem calculateAuthenticodeDigest_eq_ok_iff (sha384 : Bytes → Bytes) (image : Bytes)
    (d : String) (digest : Bytes) :
    calculateAuthenticodeDigest sha384 image d = .ok digest ↔
      AuthenticodeAccepted image ∧ sha384 (hashedStream image (peImage image)) = digest := by
  have htrail (hfit : bytesHashed (peImage image)+certificateSize image (peImage image) ≤
      image.length) :
      (if image.length-certificateSize image (peImage image)-bytesHashed (peImage image) ≠ 0 then
        [slice image (bytesHashed (peImage image)) (bytesHashed (peImage image)+
          (image.length-certificateSize image (peImage image)-bytesHashed (peImage image)))]
        else []).flatten = trailingBytes image (peImage image) := by
    split_ifs with hz
    · simp only [List.flatten_cons, List.flatten_nil, List.append_nil, trailingBytes]
      congr 1
      omega
    · have hnil : trailingBytes image (peImage image) = [] := by
        apply List.length_eq_zero_iff.mp
        rw [trailingBytes, slice_length]
        omega
      rw [hnil, List.flatten_nil]
  simp only [calculateAuthenticodeDigest, authenticodeUpdates, map_eq_ok, bind_eq_ok,
    parsePeImage_eq_ok_iff, hashSections_eq_ok, raiseIf_eq_ok, pure_eq_ok, exists_const]
  constructor
  · rintro ⟨_, ⟨_, ⟨hpe, rfl⟩, _, hheaders, _, ⟨hasc, rfl⟩, hfit, rfl⟩, rfl⟩
    obtain ⟨hcert, rfl⟩ := (hashHeaders_eq_ok hpe d _).mp hheaders
    have hfit' := not_lt.mp hfit
    refine ⟨⟨hpe, hcert, hasc, hfit'⟩, ?_⟩
    rw [List.flatten_append, List.flatten_append, hashedStream]
    exact congrArg (fun t => sha384 (_ ++ _ ++ t)) (htrail hfit').symm
  · rintro ⟨h, rfl⟩
    refine ⟨_, ⟨_, ⟨h.pe, rfl⟩, _, (hashHeaders_eq_ok h.pe d _).mpr ⟨h.certificate, rfl⟩,
      _, ⟨h.ascending, rfl⟩, not_lt.mpr h.fits, rfl⟩, ?_⟩
    rw [List.flatten_append, List.flatten_append, hashedStream]
    exact congrArg (fun t => sha384 (_ ++ _ ++ t)) (htrail h.fits)

end ConferWorker
