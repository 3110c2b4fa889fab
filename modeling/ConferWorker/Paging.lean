import ConferWorker.WindowedReads

/-! Paging through a document: reading on at `container_end + 1` visits every
container once and gives the canonical text. -/
namespace ConferWorker

/-- A client that reads on at `container_end + 1` until the last container;
`none` when that takes more than `fuel` reads. Each read may ask for its own
number of containers. -/
def readPages (reader : ArtifactReader) (counts : ℕ → ℕ) (maxBytes : ℕ) :
    (fuel page position : ℕ) → Option (Except PythonError (List TextWindow))
  | 0, _, _ => none
  | fuel+1, page, position =>
    match reader.readContainers position (counts page) maxBytes with
    | .error error => some (.error error)
    | .ok window =>
      if window.containerEnd+1 < window.totalContainers then
        match readPages reader counts maxBytes fuel (page+1) (window.containerEnd+1) with
        | some (.ok windows) => some (.ok (window :: windows))
        | other => other
      else some (.ok [window])

/-- The numbers of the containers that a window covers. -/
def TextWindow.numbers (window : TextWindow) : List ℕ :=
  List.range' window.containerStart (window.containerEnd+1-window.containerStart)

/-- Joining the texts up to `k` with the texts after `k`. -/
theorem joinedTexts_split (document : DocumentContent) (n k last : ℕ) (hnk : n ≤ k)
    (hk : k < last) (hlast : last < document.containers.length) :
    document.joinedTexts n last
      = document.joinedTexts n k++separatorText++document.joinedTexts (k+1) last := by
  unfold DocumentContent.joinedTexts
  have hlength : (document.containers.map DocumentContainer.ownText).length
      = document.containers.length := List.length_map _
  have hsplit : ((document.containers.map DocumentContainer.ownText).take (last+1)).drop n
      = ((document.containers.map DocumentContainer.ownText).take (k+1)).drop n
        ++((document.containers.map DocumentContainer.ownText).take (last+1)).drop (k+1) := by
    have htake : (document.containers.map DocumentContainer.ownText).take (k+1)
        = ((document.containers.map DocumentContainer.ownText).take (last+1)).take (k+1) := by
      rw [List.take_take, min_eq_left (by omega)]
    rw [htake, ← List.drop_append_of_le_length (by simp only [List.length_take]; omega),
      List.take_append_drop]
  have hbefore : ((document.containers.map DocumentContainer.ownText).take (k+1)).drop n ≠ [] := by
    apply List.ne_nil_of_length_pos
    simp only [List.length_drop, List.length_take]
    omega
  have hafter :
      ((document.containers.map DocumentContainer.ownText).take (last+1)).drop (k+1) ≠ [] := by
    apply List.ne_nil_of_length_pos
    simp only [List.length_drop, List.length_take]
    omega
  rw [hsplit, intercalate_join separatorText _ _ hbefore hafter]

section Pages

variable {document : DocumentContent} {reader : ArtifactReader}
  (written : DocumentWritten document reader.database)
  (htext : reader.textBytes = (utf8 document.canonicalText).length)
  (hnonempty : document.canonicalText ≠ [])

include written htext hnonempty

/-- Paging from container `n` on visits the rest of the containers once each. -/
theorem readPages_from (counts : ℕ → ℕ) (hcounts : ∀ page, 1 ≤ counts page ∧ counts page ≤ 20)
    (maxBytes : ℕ)
    (hfits : ∀ container ∈ document.containers, (utf8 container.ownText).length ≤ maxBytes)
    (fuel page n : ℕ) (hn : n < document.containers.length)
    (hfuel : document.containers.length ≤ n+fuel) :
    ∃ windows, readPages reader counts maxBytes fuel page n = some (.ok windows) ∧
      windows ≠ [] ∧
      windows.flatMap TextWindow.numbers = List.range' n (document.containers.length-n) ∧
      separatorText.intercalate (windows.map TextWindow.text)
        = document.joinedTexts n (document.containers.length-1) := by
  induction fuel generalizing page n with
  | zero => omega
  | succ fuel ih =>
    obtain ⟨window, hread, hwindow, htotal, -⟩ := readContainers_whole written htext hnonempty n
      (counts page) maxBytes hn (hcounts page) (hfits _ (List.getElem_mem hn))
    have hend := hwindow.end_le
    simp only [lastRequested] at hend
    have hnumbers : window.numbers = List.range' n (window.containerEnd+1-n) := by
      rw [TextWindow.numbers, hwindow.start_eq]
    have hle := hwindow.le_end
    simp only [readPages, hread, htotal]
    -- one window a page: the next page starts behind its last container
    by_cases hmore : window.containerEnd+1 < document.containers.length
    · obtain ⟨windows, hpages, hne, hvisited, hjoined⟩ :=
        ih (page+1) (window.containerEnd+1) hmore (by omega)
      refine ⟨window :: windows, by rw [if_pos hmore, hpages], by simp, ?_, ?_⟩
      · have hnext : n+(window.containerEnd+1-n) = window.containerEnd+1 := by omega
        have happend := List.range'_append_1 (s := n) (m := window.containerEnd+1-n)
          (n := document.containers.length-(window.containerEnd+1))
        rw [hnext] at happend
        rw [List.flatMap_cons, hnumbers, hvisited, happend]
        congr 1
        omega
      · rw [List.map_cons, intercalate_cons separatorText _ _ (by simp [hne]), hjoined,
          hwindow.text_eq]
        exact (joinedTexts_split document n window.containerEnd _ hle (by omega) (by omega)).symm
    · refine ⟨[window], by rw [if_neg hmore], by simp, ?_, ?_⟩
      · rw [List.flatMap_cons, List.flatMap_nil, List.append_nil, hnumbers]
        congr 1
        omega
      · have hlast : window.containerEnd = document.containers.length-1 := by omega
        rw [List.map_singleton, List.intercalate_singleton, hwindow.text_eq, hlast]

end Pages

theorem joinedTexts_all (document : DocumentContent) (h : 0 < document.containers.length) :
    document.joinedTexts 0 (document.containers.length-1) = document.canonicalText := by
  rw [DocumentContent.joinedTexts, Nat.sub_add_cancel h, List.drop_zero,
    List.take_of_length_le (by simp), DocumentContent.canonicalText]

/-- Windowed reads and paging agree with the canonical text. A read from
container `n` returns the longest run of whole containers that fits in
`maxBytes`, or the longest part of container `n` made of whole characters; and
when every container fits, reading on at `container_end + 1` ends, visits every
container exactly once, and its texts join to the canonical text. -/
theorem windowed_reads_and_paging {writer : ArtifactWriter} {storage : ArtifactStorage}
    {document : DocumentContent} {reader : ArtifactReader} (faithful : storage.Faithful)
    (built : BuiltReader writer storage document reader)
    (hnonempty : document.canonicalText ≠ []) (maxBytes : ℕ) :
    (∀ n count, ∀ hn : n < document.containers.length, 1 ≤ count → count ≤ 20 →
      ∃ window, reader.readContainers n count maxBytes = .ok window ∧
        (utf8 window.text).length ≤ maxBytes ∧
        ((utf8 document.containers[n].ownText).length ≤ maxBytes →
          WholeWindow document n count maxBytes window) ∧
        (maxBytes < (utf8 document.containers[n].ownText).length →
          CutWindow document n maxBytes document.containers[n].ownText window)) ∧
    ((∀ container ∈ document.containers, (utf8 container.ownText).length ≤ maxBytes) →
      ∀ counts : ℕ → ℕ, (∀ page, 1 ≤ counts page ∧ counts page ≤ 20) →
        ∃ fuel windows, readPages reader counts maxBytes fuel 0 0 = some (.ok windows) ∧
          windows.flatMap TextWindow.numbers = List.range document.containers.length ∧
          separatorText.intercalate (windows.map TextWindow.text) = document.canonicalText) := by
  obtain ⟨written, htext⟩ := built.contents faithful
  constructor
  · intro n count hn hmin hmax
    rcases Nat.lt_or_ge maxBytes (utf8 document.containers[n].ownText).length with hcut | hfits
    · obtain ⟨window, hread, hwindow, hlength, -⟩ := readContainers_cut written htext hnonempty n
        count maxBytes hn ⟨hmin, hmax⟩ hcut
      exact ⟨window, hread, hlength, fun h => absurd h (by omega), fun _ => hwindow⟩
    · obtain ⟨window, hread, hwindow, -⟩ := readContainers_whole written htext hnonempty n count
        maxBytes hn ⟨hmin, hmax⟩ hfits
      have hend := hwindow.end_le
      simp only [lastRequested] at hend
      have hlength := joinedTexts_length document n window.containerEnd hwindow.le_end (by omega)
      refine ⟨window, hread, ?_, fun _ => hwindow, fun h => absurd h (by omega)⟩
      rw [hwindow.text_eq, hlength]
      exact hwindow.end_fits
  · intro hfits counts hcounts
    have hpos : 0 < document.containers.length := by
      by_contra hzero
      have hnil : document.containers = [] := List.eq_nil_of_length_eq_zero (by omega)
      exact hnonempty (document.canonicalText_eq_nil_iff.mpr (by simp [hnil]))
    obtain ⟨windows, hpages, -, hvisited, hjoined⟩ := readPages_from written htext hnonempty counts
      hcounts maxBytes hfits document.containers.length 0 0 hpos (by omega)
    refine ⟨_, windows, hpages, ?_, ?_⟩
    · rw [hvisited, List.range_eq_range', Nat.sub_zero]
    · rw [hjoined, joinedTexts_all document hpos]

/-- A block that fills its container. -/
def sampleBlock (text : Str) : TextBlock where
  text := text
  bounds := ⟨0, 0, 1, 1, unit_rectangle⟩
  source := .native
  confidence := 1
  confidence_range := confidence_one

def samplePage (number : ℕ) (texts : List Str) : DocumentContainer where
  number := number
  width := 1
  height := 1
  blocks := texts.map sampleBlock
  regions := []
  kind := .page
  label := none
  dimensions := unit_dimensions

/-- Two pages, the first with a two-byte character and two blocks. -/
def twoPages : DocumentContent where
  sourceSha256 := List.replicate 64 0x61
  containers := [samplePage 0 [[0xE9], ofString "b"], samplePage 1 [ofString "c"]]
  mediaType := ofString "application/pdf"
  title := none
  outline := []
  sha_length := repeatedDigit_length
  sha_hexadecimal := repeatedDigit_hexadecimal
  media_type_required := pdfType_ne_nil
  contiguous := by decide
  outline_references := by decide

/-- The database that the default writer commits for `twoPages`. -/
def twoPagesDatabase : Database :=
  ((ArtifactWriter.default.documentDatabase twoPages 1).bind Except.toOption).elim createSchema
    Prod.fst

theorem twoPages_built : BuiltReader ArtifactWriter.default (singleStorage twoPagesDatabase) twoPages
    ⟨twoPagesDatabase, (utf8 twoPages.canonicalText).length⟩ := by
  have h : ArtifactWriter.default.documentDatabase twoPages 1
      = some (.ok (twoPagesDatabase, utf8 twoPages.canonicalText)) := by
    decide +kernel
  exact builtReader_single h (by decide +kernel)

theorem windowed_reads_and_paging_twoPages :
    ∃ fuel windows, readPages ⟨twoPagesDatabase, (utf8 twoPages.canonicalText).length⟩
        (fun _ => 2) 4 fuel 0 0 = some (.ok windows) ∧
      windows.flatMap TextWindow.numbers = List.range 2 ∧
      separatorText.intercalate (windows.map TextWindow.text) = twoPages.canonicalText := by
  have hmain := windowed_reads_and_paging (singleStorage_faithful twoPagesDatabase) twoPages_built
    (by decide +kernel) 4
  exact hmain.2 (by decide +kernel) (fun _ => 2) (fun _ => by decide)

end ConferWorker
