import ConferWorker.AuthenticodeCoverage

/-! Signing an unsigned image: the checksum and the security directory entry
are overwritten and a certificate table is appended. The digest does not move. -/
namespace ConferWorker

/-- The data a signing tool puts into an image. -/
structure Signing where
  checksum : Bytes
  certificate : Bytes
  checksum_length : checksum.length = 4
  certificate_ne : certificate ≠ []
  certificate_lt : certificate.length < 2^32

/-- The security directory entry of the signed image: address and size. -/
def Signing.entry (s : Signing) (image : Bytes) : Bytes :=
  toLittle 4 image.length ++ toLittle 4 s.certificate.length

def Signing.sign (s : Signing) (image : Bytes) (pe : PeImage) : Bytes :=
  overwrite (overwrite image pe.checksum s.checksum) (securityDirectory pe) (s.entry image) ++
    s.certificate

theorem Signing.entry_length (s : Signing) (image : Bytes) : (s.entry image).length = 8 := by
  simp [Signing.entry]

theorem certificateSize_of_zero_entry {image : Bytes} (hn : 4 < numberOfDirectories image)
    (hz : slice image (securityDirectory (peImage image)) (securityDirectory (peImage image)+8) =
      List.replicate 8 0) :
    certificateSize image (peImage image) = 0 := by
  have hbig : ¬(peImage image).numberOfDirectories ≤ securityDirectoryIndex := not_le.mpr hn
  have hhalf : slice image (securityDirectory (peImage image)+4)
      (securityDirectory (peImage image)+4+4) = List.replicate 4 0 := by
    rw [← slice_slice image _ (securityDirectory (peImage image)+8) 4 8 le_rfl, hz]
    rfl
  rw [certificateSize, if_neg hbig, peField, hhalf, fromLittle_replicate_zero]

section
variable {image : Bytes} (h : PeAccepted image) (hn : 4 < numberOfDirectories image) (s : Signing)
include h hn

theorem overwritten_length :
    (overwrite (overwrite image (peImage image).checksum s.checksum)
      (securityDirectory (peImage image)) (s.entry image)).length = image.length := by
  have hck := h.checksum_le
  have hsd := h.securityDirectory_le hn
  have hlen := h.headers_le
  have hinner : (overwrite image (peImage image).checksum s.checksum).length = image.length := by
    apply overwrite_length
    rw [s.checksum_length]
    change optionalHeader image+64+4 ≤ image.length
    omega
  rw [overwrite_length _ _ _ (by rw [hinner, s.entry_length]; omega), hinner]

theorem sign_length :
    (s.sign image (peImage image)).length = image.length+s.certificate.length := by
  rw [Signing.sign, List.length_append, overwritten_length h hn s]

/-- A slice of the old image that misses both overwritten fields is unchanged. -/
theorem sign_slice (a b : ℕ) (hb : b ≤ image.length)
    (hck : b ≤ optionalHeader image+64 ∨ optionalHeader image+68 ≤ a)
    (hsd : b ≤ optionalHeader image+144 ∨ optionalHeader image+152 ≤ a) :
    slice (s.sign image (peImage image)) a b = slice image a b := by
  have hle := h.securityDirectory_le hn
  have hlen := h.headers_le
  have hat : securityDirectory (peImage image) = optionalHeader image+144 := rfl
  have hcks : (peImage image).checksum = optionalHeader image+64 := rfl
  have hc := s.checksum_length
  have he := s.entry_length image
  have hinner : (overwrite image (peImage image).checksum s.checksum).length = image.length :=
    overwrite_length _ _ _ (by omega)
  rw [Signing.sign, slice_append_left _ _ _ _ (by rw [overwritten_length h hn s]; exact hb),
    slice_overwrite_disjoint _ _ _ _ _ (by omega) (by omega),
    slice_overwrite_disjoint _ _ _ _ _ (by omega) (by omega)]

theorem sign_peField (offset length : ℕ) (hb : offset+length ≤ image.length)
    (hck : offset+length ≤ optionalHeader image+64 ∨ optionalHeader image+68 ≤ offset)
    (hsd : offset+length ≤ optionalHeader image+144 ∨ optionalHeader image+152 ≤ offset) :
    peField (s.sign image (peImage image)) offset length = peField image offset length := by
  rw [peField, sign_slice h hn s _ _ hb hck hsd, peField]

/-- The entry now holds the old length and the certificate's. -/
theorem sign_entry (hsize : image.length < 2^32) :
    certificateAddress (s.sign image (peImage image)) (peImage image) = image.length ∧
    certificateSize (s.sign image (peImage image)) (peImage image) = s.certificate.length := by
  have hle := h.securityDirectory_le hn
  have hlen := h.headers_le
  have he := s.entry_length image
  have hc := s.checksum_length
  have hcks : (peImage image).checksum = optionalHeader image+64 := rfl
  have hck := h.checksum_le
  have hinner : (overwrite image (peImage image).checksum s.checksum).length = image.length :=
    overwrite_length _ _ _ (by omega)
  have hread (a b : ℕ) (hb : b ≤ 8) :
      slice (s.sign image (peImage image)) (securityDirectory (peImage image)+a)
        (securityDirectory (peImage image)+b) = slice (s.entry image) a b := by
    rw [Signing.sign, slice_append_left _ _ _ _ (by rw [overwritten_length h hn s]; omega),
      slice_overwrite_inside _ _ _ _ _ (by omega) (by omega)]
  have hbig : ¬(peImage image).numberOfDirectories ≤ securityDirectoryIndex := not_le.mpr hn
  constructor
  · have h0 := hread 0 4 (by decide)
    rw [Nat.add_zero] at h0
    rw [certificateAddress, peField, h0, Signing.entry, slice_zero,
      List.take_left' (toLittle_length 4 _), fromLittle_toLittle 4 _ (by simpa using hsize)]
  · rw [certificateSize, if_neg hbig, peField, Nat.add_assoc, hread 4 8 le_rfl, Signing.entry,
      slice, List.take_of_length_le (by simp), List.drop_left' (toLittle_length 4 _),
      fromLittle_toLittle 4 _ (by simpa using s.certificate_lt)]

theorem sign_optionalHeader :
    optionalHeader (s.sign image (peImage image)) = optionalHeader image := by
  have hdos := h.dosLength
  have hoff : peOffset (s.sign image (peImage image)) = peOffset image := by
    have hopt : optionalHeader image = peOffset image+4+20 := rfl
    exact sign_peField h hn s 0x3c 4 (by omega) (by omega) (by omega)
  rw [optionalHeader, fileHeader, hoff, optionalHeader, fileHeader]

/-- No field the parser reads lies in the two overwritten ranges. -/
theorem sign_header_fields :
    sectionCount (s.sign image (peImage image)) = sectionCount image ∧
    optionalHeaderSize (s.sign image (peImage image)) = optionalHeaderSize image ∧
    sizeOfHeaders (s.sign image (peImage image)) = sizeOfHeaders image ∧
    sizeOfImage (s.sign image (peImage image)) = sizeOfImage image ∧
    numberOfDirectories (s.sign image (peImage image)) = numberOfDirectories image := by
  have hck := h.checksum_le
  have hlen := h.headers_le
  have hfile : optionalHeader image = fileHeader image+20 := rfl
  have hfile' : fileHeader (s.sign image (peImage image)) = fileHeader image := by
    have ho := sign_optionalHeader h hn s
    simp only [optionalHeader] at ho
    omega
  refine ⟨?_, ?_, ?_, ?_, ?_⟩
  · rw [sectionCount, hfile', sign_peField h hn s _ _ (by omega) (by omega) (by omega), sectionCount]
  · rw [optionalHeaderSize, hfile', sign_peField h hn s _ _ (by omega) (by omega) (by omega),
      optionalHeaderSize]
  · rw [sizeOfHeaders, sign_optionalHeader h hn s,
      sign_peField h hn s _ _ (by omega) (by omega) (by omega), sizeOfHeaders]
  · rw [sizeOfImage, sign_optionalHeader h hn s,
      sign_peField h hn s _ _ (by omega) (by omega) (by omega), sizeOfImage]
  · rw [numberOfDirectories, sign_optionalHeader h hn s,
      sign_peField h hn s _ _ (by omega) (by omega) (by omega), numberOfDirectories]

theorem sign_sectionTable :
    sectionTable (s.sign image (peImage image)) = sectionTable image := by
  rw [sectionTable, sign_optionalHeader h hn s, (sign_header_fields h hn s).2.1, sectionTable]

theorem sign_peSectionAt (index : ℕ) (hi : index < sectionCount image) :
    peSectionAt (s.sign image (peImage image)) index = peSectionAt image index := by
  have htable := h.sectionTable_le
  have hlen := h.headers_le
  have hdirs := h.directories_end
  have hpos : sectionTable image+index*peSectionHeaderBytes+peSectionHeaderBytes ≤
      sectionTableEnd image := by
    have hmul : (index+1)*peSectionHeaderBytes ≤ sectionCount image*peSectionHeaderBytes :=
      Nat.mul_le_mul_right _ hi
    rw [Nat.succ_mul] at hmul
    simp only [sectionTableEnd]
    omega
  have hforty : peSectionHeaderBytes = 40 := rfl
  simp only [peSectionAt, sign_sectionTable h hn s]
  rw [sign_slice h hn s _ _ (by omega) (by omega) (by omega),
    sign_peField h hn s _ _ (by omega) (by omega) (by omega),
    sign_peField h hn s _ _ (by omega) (by omega) (by omega),
    sign_peField h hn s _ _ (by omega) (by omega) (by omega),
    sign_peField h hn s _ _ (by omega) (by omega) (by omega)]

theorem sign_peImage : peImage (s.sign image (peImage image)) = peImage image := by
  obtain ⟨hcount, -, hsize, -, hdirs⟩ := sign_header_fields h hn s
  have ho := sign_optionalHeader h hn s
  have hsections : (List.range (sectionCount image)).map
      (peSectionAt (s.sign image (peImage image))) =
      (List.range (sectionCount image)).map (peSectionAt image) :=
    List.map_congr_left (fun index hi => sign_peSectionAt h hn s index (List.mem_range.mp hi))
  generalize s.sign image (peImage image) = signed at *
  simp only [peImage, ho, hdirs, hcount, hsize, hsections]

theorem sign_peAccepted : PeAccepted (s.sign image (peImage image)) := by
  obtain ⟨hcount, hopt, hsize, himage, hdirs⟩ := sign_header_fields h hn s
  have ho := sign_optionalHeader h hn s
  have htable := sign_sectionTable h hn s
  have hlength := sign_length h hn s
  have hdos := h.dosLength
  have hck := h.checksum_le
  have hlen := h.headers_le
  have hopt' : optionalHeader image = peOffset image+4+20 := rfl
  -- the headers do not move, and the checked fields lie outside of what signing changes
  have hfile : fileHeader (s.sign image (peImage image)) = fileHeader image := by
    simp only [optionalHeader] at ho
    omega
  have hoff : peOffset (s.sign image (peImage image)) = peOffset image := by
    simp only [fileHeader] at hfile
    omega
  have hfile' : fileHeader image = peOffset image+4 := rfl
  exact {
    dosLength := by omega
    dosMagic := by
      rw [sign_slice h hn s _ _ (by omega) (by omega) (by omega), h.dosMagic]
    signature := by
      rw [hoff, sign_slice h hn s _ _ (by omega) (by omega) (by omega), h.signature]
    optionalHeaderSize_ge := by rw [hopt]; exact h.optionalHeaderSize_ge
    optionalHeaderEnd_le := by
      rw [htable, hlength]
      exact h.optionalHeaderEnd_le.trans (Nat.le_add_right _ _)
    machine := by
      rw [hfile, sign_peField h hn s _ _ (by omega) (by omega) (by omega), h.machine]
    magic := by
      rw [ho, sign_peField h hn s _ _ (by omega) (by omega) (by omega), h.magic]
    subsystem := by
      rw [ho, sign_peField h hn s _ _ (by omega) (by omega) (by omega), h.subsystem]
    sectionCount_pos := by rw [hcount]; exact h.sectionCount_pos
    sectionCount_le := by rw [hcount]; exact h.sectionCount_le
    directories_le := by rw [hdirs]; exact h.directories_le
    directories_end := by rw [ho, hdirs, htable]; exact h.directories_end
    sectionTable_le := by
      rw [sectionTableEnd, htable, hcount, hsize]
      exact h.sectionTable_le
    headers_lt_image := by rw [hsize, himage]; exact h.headers_lt_image
    headers_le := by omega
    sections_inside := by
      intro index hi hraw
      rw [hcount] at hi
      rw [sign_peSectionAt h hn s index hi, hsize] at *
      have hin := h.sections_inside index hi hraw
      exact ⟨hin.1, hin.2.1, by omega⟩ }

/-- The two images feed the same bytes to the hasher. -/
theorem sign_hashedStream (hsize : image.length < 2^32)
    (hcert : certificateSize image (peImage image) = 0) :
    hashedStream (s.sign image (peImage image)) (peImage image) =
      hashedStream image (peImage image) := by
  have hsd := h.securityDirectory_le hn
  have hat : securityDirectory (peImage image) = optionalHeader image+144 := rfl
  have hcks : (peImage image).checksum = optionalHeader image+64 := rfl
  have hsoh : (peImage image).sizeOfHeaders = sizeOfHeaders image := rfl
  have hlen := h.headers_le
  have hbig : ¬(peImage image).numberOfDirectories ≤ securityDirectoryIndex := not_le.mpr hn
  have hheaders : headerUpdates (s.sign image (peImage image)) (peImage image) =
      headerUpdates image (peImage image) := by
    simp only [headerUpdates, if_neg hbig]
    rw [sign_slice h hn s _ _ (by omega) (by omega) (by omega),
      sign_slice h hn s _ _ (by omega) (by omega) (by omega),
      sign_slice h hn s _ _ (by omega) (by omega) (by omega)]
  have hsections : (hashedSections (peImage image)).map
      (sectionBytes (s.sign image (peImage image))) =
      (hashedSections (peImage image)).map (sectionBytes image) := by
    apply List.map_congr_left
    intro t ht
    have hin := h.hashedSection_inside ht
    exact sign_slice h hn s _ _ hin.2 (by omega) (by omega)
  have htrailing : trailingBytes (s.sign image (peImage image)) (peImage image) =
      trailingBytes image (peImage image) := by
    have hge : sizeOfHeaders image ≤ bytesHashed (peImage image) := Nat.le_add_right _ _
    have hstop : (s.sign image (peImage image)).length-s.certificate.length = image.length := by
      rw [sign_length h hn s]
      omega
    rw [trailingBytes, (sign_entry h hn s hsize).2, hstop, trailingBytes, hcert, Nat.sub_zero]
    exact sign_slice h hn s _ _ le_rfl (by omega) (by omega)
  rw [hashedStream, hheaders, hsections, htrailing, hashedStream]

theorem sign_certificateOk (hsize : image.length < 2^32) :
    CertificateOk (s.sign image (peImage image)) (peImage image) := by
  obtain ⟨haddr, hcert⟩ := sign_entry h hn s hsize
  have hdos := h.dosLength
  have hpos : 0 < s.certificate.length := List.length_pos_iff.mpr s.certificate_ne
  refine ⟨fun _ => ?_, fun _ _ => ?_⟩
  · rw [haddr, hcert]
    omega
  · rw [haddr, hcert, sign_length h hn s]

end

theorem sign_accepted {image : Bytes} (h : AuthenticodeAccepted image)
    (hn : 4 < numberOfDirectories image) (s : Signing) (hsize : image.length < 2^32) :
    AuthenticodeAccepted (s.sign image (peImage image)) := by
  have hpe := sign_peImage h.pe hn s
  have hheaders := (sign_header_fields h.pe hn s).2.2.1
  have hfits := h.fits
  refine ⟨sign_peAccepted h.pe hn s, ?_, ?_, ?_⟩
  · rw [hpe]
    exact sign_certificateOk h.pe hn s hsize
  · rw [hpe, hheaders]
    exact h.ascending
  · rw [hpe, (sign_entry h.pe hn s hsize).2, sign_length h.pe hn s]
    omega

/-- Any signing of an unsigned image keeps its digest, so two signings of one
image have equal digests. -/
theorem signing_preserves_digest (sha384 : Bytes → Bytes) (image : Bytes) (d : String)
    (pe : PeImage) (digest : Bytes) (hpe : parsePeImage image d = .ok pe)
    (hdigest : calculateAuthenticodeDigest sha384 image d = .ok digest)
    (hn : 4 < pe.numberOfDirectories)
    (hz : slice image (securityDirectory pe) (securityDirectory pe+8) = List.replicate 8 0)
    (hsize : image.length < 2^32) (s t : Signing) (d' : String) :
    calculateAuthenticodeDigest sha384 (s.sign image pe) d' = .ok digest ∧
    calculateAuthenticodeDigest sha384 (s.sign image pe) d' =
      calculateAuthenticodeDigest sha384 (t.sign image pe) d' := by
  obtain ⟨_, rfl⟩ := (parsePeImage_eq_ok_iff image d pe).mp hpe
  obtain ⟨hacc, rfl⟩ := (calculateAuthenticodeDigest_eq_ok_iff sha384 image d digest).mp hdigest
  have hcert := certificateSize_of_zero_entry hn hz
  have hsign (u : Signing) : calculateAuthenticodeDigest sha384 (u.sign image (peImage image)) d' =
      .ok (sha384 (hashedStream image (peImage image))) := by
    rw [calculateAuthenticodeDigest_eq_ok_iff]
    refine ⟨sign_accepted hacc hn u hsize, ?_⟩
    rw [sign_peImage hacc.pe hn u, sign_hashedStream hacc.pe hn u hsize hcert]
  exact ⟨hsign s, (hsign s).trans (hsign t).symm⟩

/-- An unsigned image with five data directories, one section and one trailing byte. -/
def unsignedImage : Bytes :=
  dosMagic ++ List.replicate 58 0 ++ [64, 0, 0, 0] ++ peSignature ++
  [0x64, 0x86, 1, 0] ++ List.replicate 12 0 ++ [152, 0, 0, 0] ++
  [0x0b, 0x02] ++ List.replicate 54 0 ++ [0, 16, 0, 0, 24, 1, 0, 0, 0, 0, 0, 0, 10, 0] ++
  List.replicate 38 0 ++ [5, 0, 0, 0] ++ List.replicate 40 0 ++
  linuxSectionName ++ [0, 0, 3, 0, 0, 0, 24, 1, 0, 0, 4, 0, 0, 0, 24, 1, 0, 0] ++
  List.replicate 16 0 ++ [1, 2, 3, 4] ++ [5]

def sampleSigning : Signing := ⟨[7, 7, 7, 7], [8], rfl, by decide, by decide⟩

/-- Another checksum and a longer certificate table. -/
def otherSigning : Signing := ⟨[1, 2, 3, 4], [8, 9, 10, 11], rfl, by decide, by decide⟩

theorem signing_preserves_digest_unsignedImage :
    sampleSigning.sign unsignedImage (peImage unsignedImage)
      ≠ otherSigning.sign unsignedImage (peImage unsignedImage) ∧
    calculateAuthenticodeDigest id (sampleSigning.sign unsignedImage (peImage unsignedImage)) "UKI" =
      .ok (hashedStream unsignedImage (peImage unsignedImage)) ∧
    calculateAuthenticodeDigest id (sampleSigning.sign unsignedImage (peImage unsignedImage)) "UKI" =
      calculateAuthenticodeDigest id (otherSigning.sign unsignedImage (peImage unsignedImage)) "UKI" :=
  ⟨by decide +kernel, signing_preserves_digest id unsignedImage "UKI" (peImage unsignedImage) _
    (by decide +kernel) (by decide +kernel) (by decide +kernel) (by decide +kernel)
    (by decide +kernel) sampleSigning otherSigning "UKI"⟩

end ConferWorker
