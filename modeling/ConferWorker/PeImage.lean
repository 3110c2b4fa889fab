import ConferWorker.ByteSlices
import ConferWorker.Raising

/-! The PE header parser of `scripts/measure-release-image`, and what an image
has to satisfy for it to return. -/
namespace ConferWorker

structure ReleaseMeasurementError where
  message : String
  deriving DecidableEq, Repr

structure PeSection where
  name : Bytes
  virtualSize : ℕ
  virtualAddress : ℕ
  rawSize : ℕ
  rawOffset : ℕ
  deriving DecidableEq, Repr

structure PeImage where
  checksum : ℕ
  dataDirectories : ℕ
  numberOfDirectories : ℕ
  sections : List PeSection
  sizeOfHeaders : ℕ
  deriving DecidableEq, Repr

def maximumPeSections : ℕ := 96
def amd64Machine : ℕ := 0x8664
def efiApplicationSubsystem : ℕ := 10
def maximumPeDataDirectories : ℕ := 16
def pe32PlusMagic : ℕ := 0x20b
def pe32PlusHeaderBytes : ℕ := 112
def peSectionHeaderBytes : ℕ := 40
def securityDirectoryIndex : ℕ := 4

/-- `b"MZ"` and `b"PE\0\0"`. -/
def dosMagic : Bytes := [0x4d, 0x5a]
def peSignature : Bytes := [0x50, 0x45, 0, 0]

/-- The number an in-range `read_pe_unsigned` returns. -/
def peField (image : Bytes) (offset length : ℕ) : ℕ :=
  fromLittle (slice image offset (offset+length))

def readPeUnsigned (image : Bytes) (offset length : ℕ)
    (imageDescription fieldDescription : String) : Except ReleaseMeasurementError ℕ :=
  let stop := offset+length
  if length = 0 ∨ image.length < stop then
    .error ⟨imageDescription ++ " " ++ fieldDescription ++ " is outside the image"⟩
  else .ok (fromLittle (slice image offset stop))

/-- One round of the loop over the section table. -/
def parsePeSection (image : Bytes) (description : String) (sizeOfHeaders sectionTable index : ℕ) :
    Except ReleaseMeasurementError PeSection := do
  let pos := sectionTable+index*peSectionHeaderBytes
  let name := slice image pos (pos+8)
  let virtualSize ← readPeUnsigned image (pos+8) 4 description "section virtual size"
  let virtualAddress ← readPeUnsigned image (pos+12) 4 description "section virtual address"
  let rawSize ← readPeUnsigned image (pos+16) 4 description "section raw size"
  let rawOffset ← readPeUnsigned image (pos+20) 4 description "section raw offset"
  raiseIf (rawSize ≠ 0 ∧ (virtualAddress < sizeOfHeaders ∨ rawOffset < sizeOfHeaders ∨
      image.length < rawOffset+rawSize))
    ⟨description ++ " section is outside the image"⟩
  pure ⟨name, virtualSize, virtualAddress, rawSize, rawOffset⟩

def parsePeImage (image : Bytes) (description : String) :
    Except ReleaseMeasurementError PeImage := do
  raiseIf (image.length < 64 ∨ slice image 0 2 ≠ dosMagic)
    ⟨description ++ " DOS header is invalid"⟩
  let peOffset ← readPeUnsigned image 0x3c 4 description "PE header offset"
  raiseIf (slice image peOffset (peOffset+4) ≠ peSignature)
    ⟨description ++ " PE signature is invalid"⟩
  let fileHeader := peOffset+4
  let machine ← readPeUnsigned image fileHeader 2 description "machine type"
  let sectionCount ← readPeUnsigned image (fileHeader+2) 2 description "section count"
  let optionalHeaderSize ←
    readPeUnsigned image (fileHeader+16) 2 description "optional header size"
  let optionalHeader := fileHeader+20
  let optionalHeaderEnd := optionalHeader+optionalHeaderSize
  raiseIf (optionalHeaderSize < pe32PlusHeaderBytes ∨ image.length < optionalHeaderEnd)
    ⟨description ++ " optional header is outside the image"⟩
  let magic ← readPeUnsigned image optionalHeader 2 description "optional header magic"
  let subsystem ← readPeUnsigned image (optionalHeader+68) 2 description "subsystem"
  raiseIf (machine ≠ amd64Machine ∨ magic ≠ pe32PlusMagic ∨ subsystem ≠ efiApplicationSubsystem)
    ⟨description ++ " is not an x86-64 EFI application"⟩
  raiseIf (sectionCount = 0 ∨ maximumPeSections < sectionCount)
    ⟨description ++ " section count is invalid"⟩
  let sizeOfHeaders ← readPeUnsigned image (optionalHeader+60) 4 description "header size"
  let sizeOfImage ← readPeUnsigned image (optionalHeader+56) 4 description "image size"
  let checksum := optionalHeader+64
  let numberOfDirectories ←
    readPeUnsigned image (optionalHeader+108) 4 description "data directory count"
  let dataDirectories := optionalHeader+112
  raiseIf (maximumPeDataDirectories < numberOfDirectories ∨
      dataDirectories+numberOfDirectories*8 ≠ optionalHeaderEnd)
    ⟨description ++ " optional header layout is invalid"⟩
  let sectionTable := optionalHeaderEnd
  let sectionTableEnd := sectionTable+sectionCount*peSectionHeaderBytes
  raiseIf (sizeOfHeaders < checksum+4 ∨ sizeOfHeaders < sectionTableEnd ∨
      sizeOfImage ≤ sizeOfHeaders ∨ sizeOfImage ≤ sectionTableEnd ∨ image.length < sizeOfHeaders)
    ⟨description ++ " headers are invalid"⟩
  let sections ← (List.range sectionCount).mapM
    (parsePeSection image description sizeOfHeaders sectionTable)
  pure ⟨checksum, dataDirectories, numberOfDirectories, sections, sizeOfHeaders⟩

theorem readPeUnsigned_eq_ok (image : Bytes) (offset length n : ℕ) (d f : String) :
    readPeUnsigned image offset length d f = .ok n ↔
      0 < length ∧ offset+length ≤ image.length ∧ peField image offset length = n := by
  unfold readPeUnsigned peField
  dsimp only
  split_ifs with h
  · simp only [false_iff]
    omega
  · simp only [Except.ok.injEq]
    constructor
    · intro hn
      exact ⟨by omega, by omega, hn⟩
    · exact fun hn => hn.2.2

/-! The header fields as functions of the bytes alone, wherever they lie. -/

def peOffset (image : Bytes) : ℕ := peField image 0x3c 4
def fileHeader (image : Bytes) : ℕ := peOffset image+4
def optionalHeader (image : Bytes) : ℕ := fileHeader image+20
def sectionCount (image : Bytes) : ℕ := peField image (fileHeader image+2) 2
def optionalHeaderSize (image : Bytes) : ℕ := peField image (fileHeader image+16) 2
def sectionTable (image : Bytes) : ℕ := optionalHeader image+optionalHeaderSize image
def sectionTableEnd (image : Bytes) : ℕ :=
  sectionTable image+sectionCount image*peSectionHeaderBytes
def sizeOfHeaders (image : Bytes) : ℕ := peField image (optionalHeader image+60) 4
def sizeOfImage (image : Bytes) : ℕ := peField image (optionalHeader image+56) 4
def numberOfDirectories (image : Bytes) : ℕ := peField image (optionalHeader image+108) 4

def peSectionAt (image : Bytes) (index : ℕ) : PeSection :=
  let pos := sectionTable image+index*peSectionHeaderBytes
  { name := slice image pos (pos+8)
    virtualSize := peField image (pos+8) 4
    virtualAddress := peField image (pos+12) 4
    rawSize := peField image (pos+16) 4
    rawOffset := peField image (pos+20) 4 }

def peImage (image : Bytes) : PeImage :=
  { checksum := optionalHeader image+64
    dataDirectories := optionalHeader image+112
    numberOfDirectories := numberOfDirectories image
    sections := (List.range (sectionCount image)).map (peSectionAt image)
    sizeOfHeaders := sizeOfHeaders image }

/-- A non-empty section lies in the file, after the headers. -/
def PeSection.Inside (s : PeSection) (headers size : ℕ) : Prop :=
  s.rawSize ≠ 0 → headers ≤ s.virtualAddress ∧ headers ≤ s.rawOffset ∧
    s.rawOffset+s.rawSize ≤ size

/-- The checks of `parse_pe_image`, as one condition on the bytes. -/
structure PeAccepted (image : Bytes) : Prop where
  dosLength : 64 ≤ image.length
  dosMagic : slice image 0 2 = dosMagic
  signature : slice image (peOffset image) (peOffset image+4) = peSignature
  optionalHeaderSize_ge : pe32PlusHeaderBytes ≤ optionalHeaderSize image
  optionalHeaderEnd_le : sectionTable image ≤ image.length
  machine : peField image (fileHeader image) 2 = amd64Machine
  magic : peField image (optionalHeader image) 2 = pe32PlusMagic
  subsystem : peField image (optionalHeader image+68) 2 = efiApplicationSubsystem
  sectionCount_pos : 0 < sectionCount image
  sectionCount_le : sectionCount image ≤ maximumPeSections
  directories_le : numberOfDirectories image ≤ maximumPeDataDirectories
  directories_end : optionalHeader image+112+numberOfDirectories image*8 = sectionTable image
  sectionTable_le : sectionTableEnd image ≤ sizeOfHeaders image
  headers_lt_image : sizeOfHeaders image < sizeOfImage image
  headers_le : sizeOfHeaders image ≤ image.length
  sections_inside : ∀ index < sectionCount image,
    (peSectionAt image index).Inside (sizeOfHeaders image) image.length

theorem parsePeSection_eq_ok (image : Bytes) (d : String) (index : ℕ) (s : PeSection)
    (h : sectionTable image+index*peSectionHeaderBytes+24 ≤ image.length) :
    parsePeSection image d (sizeOfHeaders image) (sectionTable image) index = .ok s ↔
      (peSectionAt image index).Inside (sizeOfHeaders image) image.length ∧
        peSectionAt image index = s := by
  simp only [parsePeSection, bind_eq_ok, readPeUnsigned_eq_ok, raiseIf_eq_ok, pure_eq_ok,
    exists_const, PeSection.Inside, peSectionAt]
  constructor
  · rintro ⟨_, ⟨-, -, rfl⟩, _, ⟨-, -, rfl⟩, _, ⟨-, -, rfl⟩, _, ⟨-, -, rfl⟩, hin, rfl⟩
    refine ⟨fun hs => ?_, rfl⟩
    simp only [not_and_or, not_or, not_lt] at hin
    exact hin.resolve_left (fun hz => hz hs)
  · rintro ⟨hin, rfl⟩
    refine ⟨_, ⟨by decide, by omega, rfl⟩, _, ⟨by decide, by omega, rfl⟩,
      _, ⟨by decide, by omega, rfl⟩, _, ⟨by decide, by omega, rfl⟩, ?_, rfl⟩
    rintro ⟨hs, ho⟩
    have hi := hin hs
    omega

/-- `parse_pe_image` returns exactly on the accepted images, and what it
returns is read off the bytes; the description only appears in errors. -/
theorem parsePeImage_eq_ok_iff (image : Bytes) (d : String) (pe : PeImage) :
    parsePeImage image d = .ok pe ↔ PeAccepted image ∧ peImage image = pe := by
  have hloop (hle : sectionTableEnd image ≤ image.length) (ys : List PeSection) :=
    mapM_eq_ok_iff (parsePeSection image d (sizeOfHeaders image) (sectionTable image))
      (fun index => (peSectionAt image index).Inside (sizeOfHeaders image) image.length)
      (peSectionAt image) (List.range (sectionCount image)) ys
      (fun index hi s => parsePeSection_eq_ok image d index s (by
        have hi' := List.mem_range.mp hi
        simp only [sectionTableEnd, peSectionHeaderBytes] at hle ⊢
        omega))
  simp only [parsePeImage, bind_eq_ok, readPeUnsigned_eq_ok, raiseIf_eq_ok, pure_eq_ok,
    exists_const]
  constructor
  · rintro ⟨hdos, _, ⟨-, -, rfl⟩, hsig, _, ⟨-, -, rfl⟩, _, ⟨-, -, rfl⟩, _, ⟨-, -, rfl⟩, hopt,
      _, ⟨-, -, rfl⟩, _, ⟨-, -, rfl⟩, happ, hcount, _, ⟨-, -, rfl⟩, _, ⟨-, -, rfl⟩,
      _, ⟨-, -, rfl⟩, hdirs, hheaders, ys, hys, rfl⟩
    simp only [not_or, not_lt, not_le, ne_eq, not_not] at hdos hsig hopt happ hcount hdirs hheaders
    obtain ⟨hsize, htable, himage, -, hlen⟩ := hheaders
    obtain ⟨hinside, rfl⟩ := (hloop (htable.trans hlen) ys).mp hys
    exact ⟨{
      dosLength := hdos.1
      dosMagic := hdos.2
      signature := hsig
      optionalHeaderSize_ge := hopt.1
      optionalHeaderEnd_le := hopt.2
      machine := happ.1
      magic := happ.2.1
      subsystem := happ.2.2
      sectionCount_pos := Nat.pos_of_ne_zero hcount.1
      sectionCount_le := hcount.2
      directories_le := hdirs.1
      directories_end := hdirs.2
      sectionTable_le := htable
      headers_lt_image := himage
      headers_le := hlen
      sections_inside := fun index hi => hinside index (List.mem_range.mpr hi) }, rfl⟩
  · rintro ⟨h, rfl⟩
    have hdos := h.dosLength
    have htable := h.sectionTable_le
    have hheaders := h.headers_lt_image
    -- every header field read lies before the end of the optional header
    have hfits : peField image 0x3c 4+4+20+112 ≤ image.length :=
      le_trans (Nat.add_le_add_left h.optionalHeaderSize_ge _) h.optionalHeaderEnd_le
    have hdirs : peField image 0x3c 4+4+20+112 ≤ sectionTable image :=
      Nat.add_le_add_left h.optionalHeaderSize_ge _
    have htable' : sectionTable image ≤ sectionTableEnd image := Nat.le_add_right _ _
    refine ⟨not_or.mpr ⟨not_lt.mpr hdos, not_not.mpr h.dosMagic⟩, _, ⟨by decide, by omega, rfl⟩,
      not_not.mpr h.signature, _, ⟨by decide, by omega, rfl⟩, _, ⟨by decide, by omega, rfl⟩,
      _, ⟨by decide, by omega, rfl⟩,
      not_or.mpr ⟨not_lt.mpr h.optionalHeaderSize_ge, not_lt.mpr h.optionalHeaderEnd_le⟩,
      _, ⟨by decide, by omega, rfl⟩, _, ⟨by decide, by omega, rfl⟩,
      not_or.mpr ⟨not_not.mpr h.machine, not_or.mpr ⟨not_not.mpr h.magic, not_not.mpr h.subsystem⟩⟩,
      not_or.mpr ⟨h.sectionCount_pos.ne', not_lt.mpr h.sectionCount_le⟩,
      _, ⟨by decide, by omega, rfl⟩, _, ⟨by decide, by omega, rfl⟩, _, ⟨by decide, by omega, rfl⟩,
      not_or.mpr ⟨not_lt.mpr h.directories_le, not_not.mpr h.directories_end⟩, ?_, _,
      (hloop (htable.trans h.headers_le) _).mpr
        ⟨fun i hi => h.sections_inside i (List.mem_range.mp hi), rfl⟩, rfl⟩
    change ¬(sizeOfHeaders image < peField image 0x3c 4+4+20+64+4 ∨
      sizeOfHeaders image < sectionTableEnd image ∨ sizeOfImage image ≤ sizeOfHeaders image ∨
      sizeOfImage image ≤ sectionTableEnd image ∨ image.length < sizeOfHeaders image)
    have hlen := h.headers_le
    omega

end ConferWorker
