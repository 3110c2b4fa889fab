import ConferWorker.BuiltRows

/-! Windowed reads of an artifact: a window is the longest run of whole
containers that fits, or the leading text of a container that does not. -/
namespace ConferWorker

/-- The own texts of the containers from `n` to `k`, joined by the separator. -/
def DocumentContent.joinedTexts (document : DocumentContent) (n k : ℕ) : Str :=
  separatorText.intercalate
    (((document.containers.map DocumentContainer.ownText).take (k+1)).drop n)

/-- The last container that a read of `count` containers from `n` on may reach. -/
def lastRequested (document : DocumentContent) (n count : ℕ) : ℕ :=
  min (document.containers.length-1) (n+count-1)

/-- A window of whole containers: from `n` to the largest `k` in range whose end
is within `maxBytes` of the start. -/
structure WholeWindow (document : DocumentContent) (n count maxBytes : ℕ) (window : TextWindow) :
    Prop where
  not_truncated : window.truncated = false
  start_eq : window.containerStart = n
  le_end : n ≤ window.containerEnd
  end_le : window.containerEnd ≤ lastRequested document n count
  end_fits : endOffset document window.containerEnd-startOffset document n ≤ maxBytes
  end_largest : ∀ k ≤ lastRequested document n count,
    endOffset document k-startOffset document n ≤ maxBytes → k ≤ window.containerEnd
  text_eq : window.text = document.joinedTexts n window.containerEnd

/-- A window on a container that does not fit: the longest part of its text made
of whole characters that does. -/
structure CutWindow (document : DocumentContent) (n maxBytes : ℕ) (ownText : Str)
    (window : TextWindow) : Prop where
  truncated : window.truncated = true
  start_eq : window.containerStart = n
  end_eq : window.containerEnd = n
  text_initial : window.text <+: ownText
  text_longest : ∀ text, text <+: ownText → (utf8 text).length ≤ maxBytes → text <+: window.text

theorem joinedTexts_bytes (document : DocumentContent) (n k : ℕ) (hnk : n ≤ k)
    (hk : k < document.containers.length) :
    slice (utf8 document.canonicalText) (startOffset document n) (endOffset document k)
      = utf8 (document.joinedTexts n k) := by
  have hslice := intercalate_slice containerSeparator (ownBytes document.containers) n k hnk
    (by simpa using hk)
  rw [document.utf8_canonicalText, DocumentContent.joinedTexts, utf8_intercalate,
    utf8_separatorText, List.map_drop, List.map_take, List.map_map]
  exact hslice

theorem joinedTexts_self (document : DocumentContent) (n : ℕ)
    (hn : n < document.containers.length) :
    document.joinedTexts n n = document.containers[n].ownText := by
  have hlength : n < (document.containers.map DocumentContainer.ownText).length := by simpa using hn
  rw [DocumentContent.joinedTexts, List.take_succ_eq_append_getElem hlength,
    List.drop_left' (by simp; omega), List.intercalate_singleton, List.getElem_map]

theorem ownText_bytes (document : DocumentContent) (n : ℕ) (hn : n < document.containers.length) :
    slice (utf8 document.canonicalText) (startOffset document n) (endOffset document n)
      = utf8 document.containers[n].ownText := by
  rw [joinedTexts_bytes document n n (le_refl n) hn, joinedTexts_self document n hn]

theorem endOffset_sub (document : DocumentContent) (n : ℕ) (hn : n < document.containers.length) :
    endOffset document n-startOffset document n = (utf8 document.containers[n].ownText).length := by
  have hpiece : (ownBytes document.containers).getD n [] = utf8 document.containers[n].ownText := by
    simp [ownBytes, hn]
  rw [endOffset, startOffset, pieceEnd, hpiece, Nat.add_sub_cancel_left]

theorem endOffset_le (document : DocumentContent) (k : ℕ) (hk : k < document.containers.length) :
    endOffset document k ≤ (utf8 document.canonicalText).length := by
  rw [document.utf8_canonicalText]
  exact pieceEnd_le_length containerSeparator _ k (by simpa using hk)

theorem startOffset_le_endOffset (document : DocumentContent) (n k : ℕ) (hnk : n ≤ k)
    (hk : k < document.containers.length) : startOffset document n ≤ endOffset document k :=
  (pieceStart_le_pieceEnd _ _ n).trans
    (pieceEnd_mono containerSeparator (ownBytes document.containers) n k hnk (by simpa using hk))

theorem joinedTexts_length (document : DocumentContent) (n k : ℕ) (hnk : n ≤ k)
    (hk : k < document.containers.length) :
    (utf8 (document.joinedTexts n k)).length = endOffset document k-startOffset document n := by
  rw [← joinedTexts_bytes document n k hnk hk,
    slice_length_of_le _ _ _ (endOffset_le document k hk)]

theorem joinedTexts_encodable (document : DocumentContent)
    (h : ∀ container ∈ document.containers, ContainerEncodable container) (n k : ℕ) :
    Encodable (document.joinedTexts n k) := by
  apply intercalate_encodable separatorText _ (by decide)
  intro text htext
  obtain ⟨container, hcontainer, rfl⟩ :=
    List.mem_map.mp (List.mem_of_mem_take (List.mem_of_mem_drop htext))
  exact container.ownText_encodable (h container hcontainer)

section Windows

variable {document : DocumentContent} {reader : ArtifactReader}
  (written : DocumentWritten document reader.database)
  (htext : reader.textBytes = (utf8 document.canonicalText).length)
  (hnonempty : document.canonicalText ≠ [])

include written htext hnonempty

/-- The window over the containers from `n` to `k`. -/
theorem wholeWindow_built (total n k : ℕ) (first last : ContainerRow) (hnk : n ≤ k)
    (hk : k < document.containers.length) (hfirst : first.containerNumber = n)
    (hlast : last.containerNumber = k) (hstop : last.endOffset = endOffset document k) :
    ∃ regions, reader.regionsIn (startOffset document n) (endOffset document k) n k
        = .ok regions ∧
      reader.wholeWindow total (startOffset document n) first last
        = .ok ⟨n, k, total, document.joinedTexts n k, regions, containerReferences document n k,
          false⟩ := by
  obtain ⟨regions, hregions⟩ :=
    regionsIn_built written (startOffset document n) (endOffset document k) n k
  have hbytes := text_built written htext hnonempty (startOffset document n) (endOffset document k)
    (startOffset_le_endOffset document n k hnk hk) (endOffset_le document k hk)
  have hdecode : decodeText (utf8 (document.joinedTexts n k)) = .ok (document.joinedTexts n k) :=
    (decodeText_eq_ok _ _).mpr ⟨joinedTexts_encodable document written.encodable n k, rfl⟩
  refine ⟨regions, hregions, ?_⟩
  simp only [ArtifactReader.wholeWindow, hstop, hbytes, ok_bind,
    joinedTexts_bytes document n k hnk hk, hdecode, hfirst, hlast, hregions,
    containersIn_built written]
  rfl

/-- The window on a container that does not fit. -/
theorem truncatedWindow_built (total n maxBytes : ℕ) (row : ContainerRow)
    (hn : n < document.containers.length) (hrow : row.containerNumber = n)
    (hstart : row.startOffset = startOffset document n)
    (hcut : maxBytes < (utf8 document.containers[n].ownText).length) :
    ∃ regions, reader.regionsIn (startOffset document n) (startOffset document n
          +(utf8 (wholeCharacters maxBytes document.containers[n].ownText)).length) n n
        = .ok regions ∧
      reader.truncatedWindow total maxBytes row
        = .ok ⟨n, n, total, wholeCharacters maxBytes document.containers[n].ownText, regions,
          containerReferences document n n, true⟩ := by
  have hencodable : Encodable document.containers[n].ownText :=
    DocumentContainer.ownText_encodable _ (written.encodable _ (List.getElem_mem hn))
  have hsub := endOffset_sub document n hn
  have hend := endOffset_le document n hn
  have hbytes := text_built written htext hnonempty (startOffset document n)
    (startOffset document n+maxBytes) (by omega) (by omega)
  have hown : slice (utf8 document.canonicalText) (startOffset document n)
      (startOffset document n+maxBytes) = (utf8 document.containers[n].ownText).take maxBytes := by
    rw [← slice_zero, ← ownText_bytes document n hn,
      slice_slice _ _ _ 0 maxBytes (by omega), Nat.add_zero]
  have hwhole := wholeCharacters_initial maxBytes document.containers[n].ownText
  have hencode : encodeText (wholeCharacters maxBytes document.containers[n].ownText)
      = .ok (utf8 (wholeCharacters maxBytes document.containers[n].ownText)) :=
    (encodeText_eq_ok _ _).mpr ⟨fun c hc => hencodable c (hwhole.subset hc), rfl⟩
  obtain ⟨regions, hregions⟩ := regionsIn_built written (startOffset document n)
    (startOffset document n+(utf8 (wholeCharacters maxBytes
      document.containers[n].ownText)).length) n n
  refine ⟨regions, hregions, ?_⟩
  simp only [ArtifactReader.truncatedWindow, hstart, hbytes, ok_bind, hown,
    decodeIgnore_take _ hencodable, hencode, hrow, hregions, containersIn_built written]
  rfl

/-- A read whose first container fits returns the whole containers that fit. -/
theorem readContainers_whole (n count maxBytes : ℕ) (hn : n < document.containers.length)
    (hcount : 1 ≤ count ∧ count ≤ 20)
    (hfits : (utf8 document.containers[n].ownText).length ≤ maxBytes) :
    ∃ window, reader.readContainers n count maxBytes = .ok window ∧
      WholeWindow document n count maxBytes window ∧
      window.totalContainers = document.containers.length ∧
      window.containers = containerReferences document n window.containerEnd ∧
      reader.regionsIn (startOffset document n) (endOffset document window.containerEnd) n
        window.containerEnd = .ok window.regions := by
  obtain ⟨first, rest, hread, hlength, hrows⟩ := readContainers_eq written n count maxBytes hn hcount
  have hsub := endOffset_sub document n hn
  have hfirst := hrows 0 (by simp)
  simp only [List.getElem_cons_zero, Nat.add_zero] at hfirst
  -- the containers that fit are an initial part of the rows, because end offsets grow
  have hanti : (first :: rest).Pairwise (fun a b =>
      decide (b.endOffset-first.startOffset ≤ maxBytes) = true →
        decide (a.endOffset-first.startOffset ≤ maxBytes) = true) := by
    rw [List.pairwise_iff_getElem]
    intro i j hi hj hij
    rw [(hrows i hi).2.2, (hrows j hj).2.2, hfirst.2.1, decide_eq_true_eq, decide_eq_true_eq]
    have hmono := pieceEnd_mono containerSeparator (ownBytes document.containers) (n+i) (n+j)
      (by omega) (by rw [ownBytes_length]; omega)
    unfold endOffset
    omega
  obtain ⟨t, ht, hfilter, hiff⟩ := filter_initial
    (fun row : ContainerRow => decide (row.endOffset-first.startOffset ≤ maxBytes)) _ hanti
  have hpos : 0 < t := by
    rw [← hiff 0 (by simp), List.getElem_cons_zero, decide_eq_true_eq, hfirst.2.1, hfirst.2.2]
    omega
  -- the first of them is the container that was asked for, the last the one before the cut
  obtain ⟨fitting, more, htake⟩ := List.exists_cons_of_ne_nil
    (List.ne_nil_of_length_pos (by
      show 0 < ((first :: rest).take t).length
      rw [List.length_take]
      omega))
  rw [htake] at hfilter
  have hmore : (fitting :: more).length = t := by
    rw [← htake, List.length_take]
    omega
  have hfitting : fitting.containerNumber = n := by
    have h0 : some fitting = (first :: rest)[0]? := by
      rw [← List.getElem?_take_of_lt hpos, htake, List.getElem?_cons_zero]
    rw [List.getElem?_cons_zero, Option.some.injEq] at h0
    rw [h0]
    exact hfirst.1
  have hlast : (fitting :: more).getLast (by simp) = (first :: rest)[t-1] := by
    apply Option.some.inj
    rw [← List.getLast?_eq_some_getLast, List.getLast?_eq_getElem?, hmore, ← htake,
      List.getElem?_take_of_lt (by omega), List.getElem?_eq_getElem]
  obtain ⟨hnumber, -, hstop⟩ := hrows (t-1) (by omega)
  obtain ⟨regions, hregions, hwindow⟩ := wholeWindow_built written htext hnonempty
    document.containers.length n (n+(t-1)) fitting ((fitting :: more).getLast (by simp)) (by omega) (by omega) hfitting
    (by rw [hlast, hnumber]) (by rw [hlast, hstop])
  rw [hfirst.2.1] at hfilter
  rw [ArtifactReader.windowOf, hfirst.2.1] at hread
  simp only [hfilter, hwindow] at hread
  refine ⟨_, hread, ⟨rfl, rfl, by simp, ?_, ?_, ?_, rfl⟩, rfl, rfl, hregions⟩
  · simp only [lastRequested]
    omega
  · have hp := (hiff (t-1) (by omega)).mpr (by omega)
    rw [decide_eq_true_eq, hstop, hfirst.2.1] at hp
    exact hp
  · intro k hk hkfits
    simp only [lastRequested] at hk
    rcases Nat.lt_or_ge k n with hkn | hkn
    · exact le_trans hkn.le (Nat.le_add_right _ _)
    · have hi : k-n < (first :: rest).length := by omega
      have hkt := (hiff (k-n) hi).mp (by
        rw [decide_eq_true_eq, (hrows (k-n) hi).2.2, hfirst.2.1, Nat.add_sub_cancel' hkn]
        exact hkfits)
      change k ≤ n+(t-1)
      omega

/-- A read whose first container does not fit returns its leading text. -/
theorem readContainers_cut (n count maxBytes : ℕ) (hn : n < document.containers.length)
    (hcount : 1 ≤ count ∧ count ≤ 20)
    (hcut : maxBytes < (utf8 document.containers[n].ownText).length) :
    ∃ window, reader.readContainers n count maxBytes = .ok window ∧
      CutWindow document n maxBytes document.containers[n].ownText window ∧
      (utf8 window.text).length ≤ maxBytes ∧
      reader.regionsIn (startOffset document n) (startOffset document n
        +(utf8 window.text).length) n n = .ok window.regions := by
  obtain ⟨first, rest, hread, hlength, hrows⟩ := readContainers_eq written n count maxBytes hn hcount
  have hsub := endOffset_sub document n hn
  have hfirst := hrows 0 (by simp)
  simp only [List.getElem_cons_zero, Nat.add_zero] at hfirst
  have hnone : (first :: rest).filter
      (fun row => row.endOffset-first.startOffset ≤ maxBytes) = [] := by
    rw [List.filter_eq_nil_iff]
    intro row hrow
    obtain ⟨i, hi, rfl⟩ := List.mem_iff_getElem.mp hrow
    have hmono := pieceEnd_mono containerSeparator (ownBytes document.containers) n (n+i)
      (by omega) (by rw [ownBytes_length]; omega)
    rw [(hrows i hi).2.2, hfirst.2.1, decide_eq_true_eq]
    unfold endOffset at *
    omega
  obtain ⟨regions, hregions, hwindow⟩ := truncatedWindow_built written htext hnonempty
    document.containers.length n maxBytes first hn hfirst.1 hfirst.2.1 hcut
  rw [ArtifactReader.windowOf] at hread
  simp only [hnone, hwindow] at hread
  refine ⟨_, hread, ⟨rfl, rfl, rfl, wholeCharacters_initial _ _, ?_⟩,
    wholeCharacters_length_le _ _, hregions⟩
  intro text hinitial hlength
  exact wholeCharacters_longest maxBytes _ text hinitial hlength

end Windows

end ConferWorker
