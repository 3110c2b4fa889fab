import ConferWorker.AuthenticodeDigest

/-! Every byte of an accepted image is hashed once, apart from the checksum,
the security directory entry and the certificate table. -/
namespace ConferWorker

theorem hashedSections_perm (pe : PeImage) :
    (hashedSections pe).Perm ((pe.sections.filter (fun s => s.rawSize ≠ 0)).map
      (fun s => (s.rawOffset, s.rawSize))) :=
  List.perm_insertionSort _ _

theorem PeAccepted.section_inside {image : Bytes} (h : PeAccepted image) {s : PeSection}
    (hs : s ∈ (peImage image).sections) : s.Inside (sizeOfHeaders image) image.length := by
  obtain ⟨index, hi, rfl⟩ := List.mem_map.mp hs
  exact h.sections_inside index (List.mem_range.mp hi)

theorem PeAccepted.hashedSection_inside {image : Bytes} (h : PeAccepted image) {s : ℕ × ℕ}
    (hs : s ∈ hashedSections (peImage image)) :
    sizeOfHeaders image ≤ s.1 ∧ s.1+s.2 ≤ image.length := by
  obtain ⟨t, ht, rfl⟩ := List.mem_map.mp ((hashedSections_perm _).mem_iff.mp hs)
  obtain ⟨hmem, hne⟩ := List.mem_filter.mp ht
  exact (h.section_inside hmem (by simpa using hne)).2

theorem Ascending.ge {stop : ℕ} {sections : List (ℕ × ℕ)} (h : Ascending stop sections) :
    ∀ s ∈ sections, stop ≤ s.1 := by
  induction sections generalizing stop with
  | nil => simp
  | cons t rest ih =>
    rintro s (_ | ⟨_, hs⟩)
    · exact h.1
    · exact (h.1.trans (Nat.le_add_right _ _)).trans (ih h.2 s hs)

theorem Ascending.pairwise {stop : ℕ} {sections : List (ℕ × ℕ)} (h : Ascending stop sections) :
    sections.Pairwise (fun s t => s.1+s.2 ≤ t.1) := by
  induction sections generalizing stop with
  | nil => exact .nil
  | cons t rest ih => exact .cons (fun s hs => Ascending.ge h.2 s hs) (ih h.2)

/-- In-range sections contribute exactly their sizes. -/
theorem sectionBytes_flatten_length (image : Bytes) (sections : List (ℕ × ℕ))
    (h : ∀ s ∈ sections, s.1+s.2 ≤ image.length) :
    (sections.map (sectionBytes image)).flatten.length = (sections.map Prod.snd).sum := by
  induction sections with
  | nil => rfl
  | cons s rest ih =>
    obtain ⟨hs, hrest⟩ := List.forall_mem_cons.mp h
    simp only [List.map_cons, List.flatten_cons, List.length_append, List.sum_cons, ih hrest,
      sectionBytes, slice_length_of_le image _ _ hs]
    omega

/-- Sections without gaps concatenate to one slice of the file. -/
theorem Tiling.flatten_eq {image : Bytes} {stop : ℕ} {sections : List (ℕ × ℕ)}
    (h : Tiling stop sections) :
    (sections.map (sectionBytes image)).flatten =
      slice image stop (stop+(sections.map Prod.snd).sum) := by
  induction sections generalizing stop with
  | nil =>
    symm
    apply List.length_eq_zero_iff.mp
    simp
  | cons s rest ih =>
    obtain ⟨rfl, hrest⟩ := h
    simp only [List.map_cons, List.flatten_cons, List.sum_cons, ih hrest, sectionBytes]
    rw [slice_append image _ _ _ (by omega) (by omega), add_assoc]

/-- The image without its checksum, its security directory entry and its
certificate table, the ranges being cut from the last to the first. -/
def withoutUnhashedRanges (image : Bytes) (pe : PeImage) : Bytes :=
  let body := deleteRange image (image.length-certificateSize image pe) image.length
  let headers :=
    if pe.numberOfDirectories ≤ securityDirectoryIndex then body
    else deleteRange body (securityDirectory pe) (securityDirectory pe+8)
  deleteRange headers pe.checksum (pe.checksum+4)

/-- What the stream fed to the hasher is made of. -/
structure ByteCoverage (image : Bytes) (pe : PeImage) (stream : Bytes) : Prop where
  layout : stream = slice image 0 pe.checksum ++
    (if pe.numberOfDirectories ≤ securityDirectoryIndex then slice image (pe.checksum+4) pe.sizeOfHeaders
      else slice image (pe.checksum+4) (securityDirectory pe) ++
        slice image (securityDirectory pe+8) pe.sizeOfHeaders) ++
    ((hashedSections pe).map (fun s => slice image s.1 (s.1+s.2))).flatten ++
    slice image (bytesHashed pe) (image.length-certificateSize image pe)
  headers_full : pe.checksum+4 ≤ pe.sizeOfHeaders ∧ pe.sizeOfHeaders ≤ image.length
  directory_full : securityDirectoryIndex < pe.numberOfDirectories →
    pe.checksum+4 ≤ securityDirectory pe ∧ securityDirectory pe+8 ≤ pe.sizeOfHeaders
  sections_full : ∀ s ∈ hashedSections pe,
    pe.sizeOfHeaders ≤ s.1 ∧ s.1+s.2 ≤ image.length ∧ (slice image s.1 (s.1+s.2)).length = s.2
  sections_all : (hashedSections pe).Perm ((pe.sections.filter (fun s => s.rawSize ≠ 0)).map
    (fun s => (s.rawOffset, s.rawSize)))
  sections_ascending : (hashedSections pe).Pairwise (fun s t => s.1+s.2 ≤ t.1)
  trailing_full : bytesHashed pe+certificateSize image pe ≤ image.length
  length_eq : stream.length+4+(if pe.numberOfDirectories ≤ securityDirectoryIndex then 0 else 8)+
    certificateSize image pe = image.length
  tiled : Tiling pe.sizeOfHeaders (hashedSections pe) → stream = withoutUnhashedRanges image pe

theorem hashedStream_length {image : Bytes} (h : AuthenticodeAccepted image) :
    (hashedStream image (peImage image)).length+4+
      (if (peImage image).numberOfDirectories ≤ securityDirectoryIndex then 0 else 8)+
      certificateSize image (peImage image) = image.length := by
  have hsum := sectionBytes_flatten_length image (hashedSections (peImage image))
    (fun s hs => (h.pe.hashedSection_inside hs).2)
  have hfit := h.fits
  have hlen := h.pe.headers_le
  have hck := h.pe.checksum_le
  have hsoh : (peImage image).sizeOfHeaders = sizeOfHeaders image := rfl
  have hcks : (peImage image).checksum = optionalHeader image+64 := rfl
  have hhash : bytesHashed (peImage image) =
      sizeOfHeaders image+((hashedSections (peImage image)).map Prod.snd).sum := rfl
  have hheaders : (headerUpdates image (peImage image)).flatten.length+4+
      (if (peImage image).numberOfDirectories ≤ securityDirectoryIndex then 0 else 8)
        = sizeOfHeaders image := by
    unfold headerUpdates
    by_cases hn : (peImage image).numberOfDirectories ≤ securityDirectoryIndex
    · rw [if_pos hn, if_pos hn]
      simp only [List.flatten_cons, List.flatten_nil, List.append_nil, List.length_append,
        slice_length]
      omega
    · have hsd := h.pe.securityDirectory_le (not_le.mp hn)
      have hat : securityDirectory (peImage image) = optionalHeader image+144 := rfl
      rw [if_neg hn, if_neg hn]
      simp only [List.flatten_cons, List.flatten_nil, List.append_nil, List.length_append,
        slice_length]
      omega
  simp only [hashedStream, trailingBytes, List.length_append, hsum, slice_length]
  omega

/-- Sections without gaps leave the file in order, less the unhashed ranges. -/
theorem hashedStream_of_tiling {image : Bytes} (h : AuthenticodeAccepted image)
    (ht : Tiling (sizeOfHeaders image) (hashedSections (peImage image))) :
    hashedStream image (peImage image) = withoutUnhashedRanges image (peImage image) := by
  have hfit := h.fits
  have hck := h.pe.checksum_le
  have hsoh : (peImage image).sizeOfHeaders = sizeOfHeaders image := rfl
  have hcks : (peImage image).checksum = optionalHeader image+64 := rfl
  have hhash : bytesHashed (peImage image) =
      sizeOfHeaders image+((hashedSections (peImage image)).map Prod.snd).sum := rfl
  have hrest : ((hashedSections (peImage image)).map (sectionBytes image)).flatten ++
      trailingBytes image (peImage image) =
      slice image (sizeOfHeaders image) (image.length-certificateSize image (peImage image)) := by
    rw [ht.flatten_eq, trailingBytes, ← hhash, slice_append image _ _ _ (by omega) (by omega)]
  rw [hashedStream, List.append_assoc, hrest]
  unfold headerUpdates withoutUnhashedRanges
  by_cases hn : (peImage image).numberOfDirectories ≤ securityDirectoryIndex
  · simp only [if_pos hn, deleteRange_to_end]
    rw [deleteRange_initial _ _ _ _ (by omega) (by omega)]
    simp only [List.flatten_cons, List.flatten_nil, List.append_nil, List.append_assoc, hsoh]
    rw [slice_append image _ _ _ (by omega) (by omega)]
  · have hsd := h.pe.securityDirectory_le (not_le.mp hn)
    have hat : securityDirectory (peImage image) = optionalHeader image+144 := rfl
    simp only [if_neg hn, deleteRange_to_end]
    rw [deleteRange_initial _ _ _ _ (by omega) (by omega),
      deleteRange_append_left _ _ _ _ (by omega) (by rw [slice_length]; omega),
      deleteRange_initial _ _ _ _ (by omega) (by omega)]
    simp only [List.flatten_cons, List.flatten_nil, List.append_nil, List.append_assoc, hsoh]
    rw [slice_append image _ _ _ (by omega) (by omega)]

theorem AuthenticodeAccepted.byteCoverage {image : Bytes} (h : AuthenticodeAccepted image) :
    ByteCoverage image (peImage image) (hashedStream image (peImage image)) := by
  have hck := h.pe.checksum_le
  have hcks : (peImage image).checksum = optionalHeader image+64 := rfl
  have hat : securityDirectory (peImage image) = optionalHeader image+144 := rfl
  refine ⟨?_, ⟨?_, h.pe.headers_le⟩, fun hn => ⟨by omega, h.pe.securityDirectory_le hn⟩, ?_,
    hashedSections_perm _, h.ascending.pairwise, h.fits, hashedStream_length h,
    hashedStream_of_tiling h⟩
  · unfold hashedStream headerUpdates trailingBytes
    by_cases hn : (peImage image).numberOfDirectories ≤ securityDirectoryIndex
    · simp only [if_pos hn, List.flatten_cons, List.flatten_nil, List.append_nil,
        List.append_assoc]
      rfl
    · simp only [if_neg hn, List.flatten_cons, List.flatten_nil, List.append_nil,
        List.append_assoc]
      rfl
  · change optionalHeader image+64+4 ≤ sizeOfHeaders image
    omega
  · intro s hs
    have hin := h.pe.hashedSection_inside hs
    exact ⟨hin.1, hin.2, by rw [slice_length_of_le _ _ _ hin.2]; omega⟩

theorem extractEmbeddedLinuxImage_spec {uki kernel : Bytes}
    (h : extractEmbeddedLinuxImage uki = .ok kernel) :
    ∃ s ∈ (peImage uki).sections, s.strippedName = linuxSectionName ∧ s.virtualSize ≠ 0 ∧
      s.virtualSize ≤ s.rawSize ∧ kernel = slice uki s.rawOffset (s.rawOffset+s.virtualSize) := by
  simp only [extractEmbeddedLinuxImage, bind_eq_ok, parsePeImage_eq_ok_iff] at h
  obtain ⟨_, ⟨-, rfl⟩, hk⟩ := h
  split at hk
  · rename_i s hfilter
    simp only [bind_eq_ok, raiseIf_eq_ok, exists_const, pure_eq_ok, not_or, not_lt] at hk
    obtain ⟨⟨hne, hle⟩, rfl⟩ := hk
    have hs : s ∈ (peImage uki).sections.filter (fun s => s.strippedName = linuxSectionName) := by
      rw [hfilter]
      exact List.mem_singleton_self s
    obtain ⟨hmem, hname⟩ := List.mem_filter.mp hs
    exact ⟨s, hmem, by simpa using hname, hne, hle, rfl⟩
  · simp at hk

/-- The extracted kernel is a full slice of one hashed section. -/
theorem embedded_kernel_hashed {image kernel : Bytes} (h : PeAccepted image)
    (hk : extractEmbeddedLinuxImage image = .ok kernel) :
    ∃ s ∈ (peImage image).sections, s.strippedName = linuxSectionName ∧
      (s.rawOffset, s.rawSize) ∈ hashedSections (peImage image) ∧
      kernel = slice image s.rawOffset (s.rawOffset+s.virtualSize) ∧
      kernel.length = s.virtualSize ∧ s.virtualSize ≤ s.rawSize := by
  obtain ⟨s, hs, hname, hne, hle, rfl⟩ := extractEmbeddedLinuxImage_spec hk
  have hraw : s.rawSize ≠ 0 := by omega
  have hin := h.section_inside hs hraw
  have hmem : (s.rawOffset, s.rawSize) ∈ hashedSections (peImage image) := by
    rw [(hashedSections_perm _).mem_iff]
    exact List.mem_map.mpr ⟨s, List.mem_filter.mpr ⟨hs, by simpa using hraw⟩, rfl⟩
  exact ⟨s, hs, hname, hmem, rfl, by rw [slice_length_of_le _ _ _ (by omega)]; omega, hle⟩

/-- Every image is rejected with a measurement error, or its digest is the
hash of a stream that covers it byte for byte. -/
theorem authenticode_byte_coverage (sha384 : Bytes → Bytes) (image : Bytes) (d : String) :
    (∃ e : ReleaseMeasurementError, calculateAuthenticodeDigest sha384 image d = .error e) ∨
    ∃ pe stream, parsePeImage image d = .ok pe ∧
      calculateAuthenticodeDigest sha384 image d = .ok (sha384 stream) ∧
      ByteCoverage image pe stream ∧
      ∀ kernel, extractEmbeddedLinuxImage image = .ok kernel →
        ∃ s ∈ pe.sections, s.strippedName = linuxSectionName ∧
          (s.rawOffset, s.rawSize) ∈ hashedSections pe ∧
          kernel = slice image s.rawOffset (s.rawOffset+s.virtualSize) ∧
          kernel.length = s.virtualSize ∧ s.virtualSize ≤ s.rawSize := by
  cases hd : calculateAuthenticodeDigest sha384 image d with
  | error e => exact .inl ⟨e, rfl⟩
  | ok digest =>
    obtain ⟨hacc, rfl⟩ := (calculateAuthenticodeDigest_eq_ok_iff sha384 image d digest).mp hd
    exact .inr ⟨peImage image, hashedStream image (peImage image),
      (parsePeImage_eq_ok_iff image d _).mpr ⟨hacc.pe, rfl⟩, rfl, hacc.byteCoverage,
      fun kernel hk => embedded_kernel_hashed hacc.pe hk⟩

end ConferWorker
