import ConferWorker.RegionSpans
import ConferWorker.ArtifactRoundTrip
import ConferWorker.ArtifactSearch

/-! Which regions come with the text that a read or a search returns: those of the containers
that the text is from, and of a container that is cut those over the text before the cut. -/
namespace ConferWorker

open ArtifactWriter

/-- The references to the regions of the containers from `first` to `last`. -/
def regionReferences (document : DocumentContent) (first last : ℕ) : List RegionReference :=
  ((document.containers.take (last+1)).drop first).flatMap (fun container =>
    container.regions.map (regionReferenceOf container.number))

/-- The first block of a container that a region overlaps does not begin behind the cut. The
offsets are those in the container's own text. -/
def StartsBefore (cut : ℕ) (container : DocumentContainer) (region : VisualRegion) : Prop :=
  ∀ first ∈ (overlapping region (blockRanges 0 [] container.blocks) container.blocks).head?,
    first.start < cut

instance (cut : ℕ) (container : DocumentContainer) (region : VisualRegion) :
    Decidable (StartsBefore cut container region) :=
  inferInstanceAs (Decidable (∀ first ∈ (overlapping region (blockRanges 0 [] container.blocks)
    container.blocks).head?, first.start < cut))

section Rows

variable {document : DocumentContent}
  (htexts : ∀ container ∈ document.containers, ∀ block ∈ container.blocks, block.text ≠ [])
  {i : ℕ} (hi : i < document.containers.length) (region : VisualRegion)

include htexts hi

/-- The row of a region has no span, or one inside the range of its container that begins
with the first block that the region overlaps. -/
theorem placedRow_span :
    (placedRow document.containers ((document.containers[i], i), region)).containerNumber = i ∧
    ((overlapping region (blockRanges 0 [] document.containers[i].blocks)
        document.containers[i].blocks = [] ∧
      (placedRow document.containers ((document.containers[i], i), region)).startOffset = none) ∨
    ∃ first more stop, overlapping region (blockRanges 0 [] document.containers[i].blocks)
        document.containers[i].blocks = first :: more ∧
      (placedRow document.containers ((document.containers[i], i), region)).startOffset
        = some (startOffset document i+first.start) ∧
      (placedRow document.containers ((document.containers[i], i), region)).endOffset
        = some stop ∧
      startOffset document i+first.start < stop ∧ stop ≤ endOffset document i) := by
  have hrow : placedRow document.containers ((document.containers[i], i), region)
      = regionRow i region (overlapping region (blockRanges (startOffset document i) []
          document.containers[i].blocks) document.containers[i].blocks) := by
    rw [placedRow, document.number_eq i hi]
    rfl
  -- the offsets of a container are those of its own text, moved to where it starts
  have hshift := overlapping_map region (blockRanges 0 [] document.containers[i].blocks)
    document.containers[i].blocks (shiftRange (startOffset document i))
  rw [← blockRanges_shift] at hshift
  rw [hrow]
  refine ⟨rfl, ?_⟩
  cases hoverlaps : overlapping region (blockRanges 0 [] document.containers[i].blocks)
      document.containers[i].blocks with
  | nil =>
    rw [hshift, hoverlaps]
    exact Or.inl ⟨rfl, rfl⟩
  | cons first more =>
    right
    have hsublist := overlapping_sublist region (blockRanges (startOffset document i) []
      document.containers[i].blocks) document.containers[i].blocks
    rw [hshift, hoverlaps, List.map_cons] at hsublist ⊢
    have hend := endOffset_sub document i hi
    have hle := startOffset_le_endOffset document i i le_rfl hi
    obtain ⟨hstart, stop, hstop, -, hlt, hhigh⟩ := regionRow_span region i
      ((blockRanges_ordered _ [] _).sublist hsublist)
      (fun range hrange => blockRanges_nonempty _ [] _ (htexts _ (List.getElem_mem hi)) range
        (hsublist.subset hrange))
      (fun range hrange => blockRanges_bounds _ [] _ range (hsublist.subset hrange))
    have hown : startOffset document i
        +(utf8 (document.containers[i].blocks.foldl appendBlock [])).length
        = endOffset document i := by
      change _+(utf8 document.containers[i].ownText).length = _
      omega
    exact ⟨first, more, stop, rfl, hstart, hstop, hlt, hown ▸ hhigh⟩

/-- A window of whole containers selects the regions of its containers. -/
theorem window_selects {n k : ℕ} (hnk : n ≤ k) (hk : k < document.containers.length) :
    ArtifactReader.regionSelected (startOffset document n) (endOffset document k) n k
        (placedRow document.containers ((document.containers[i], i), region))
      = (n ≤ i && i ≤ k) := by
  obtain ⟨hnumber, hspan⟩ := placedRow_span htexts hi region
  rcases hspan with ⟨-, hnone⟩ | ⟨first, more, stop, -, hstart, hstop, hlt, hhigh⟩
  · rw [ArtifactReader.regionSelected, hnone]
    simp only [hnumber]
  · rw [ArtifactReader.regionSelected, hstart, hstop, Option.any_some, Bool.eq_iff_iff]
    simp only [Bool.and_eq_true, decide_eq_true_eq]
    constructor
    · rintro ⟨hbefore, hbehind⟩
      constructor
      · -- a container in front of the window has ended before it
        by_contra hlow
        have hapart := endOffset_lt_startOffset document (by omega : i < n) (by omega)
        omega
      · by_contra hlate
        have hapart := endOffset_lt_startOffset document (by omega : k < i) hi
        omega
    · rintro ⟨hlow, hlate⟩
      have hfirst := startOffset_le_endOffset document n i hlow hi
      have hmono : startOffset document n ≤ startOffset document i := by
        rcases Nat.lt_or_eq_of_le hlow with h | rfl
        · have hapart := endOffset_lt_startOffset document h hi
          have hown := startOffset_le_endOffset document n n le_rfl (by omega)
          omega
        · exact le_refl _
      have hends := pieceEnd_mono containerSeparator (ownBytes document.containers) i k hlate
        (by rw [ownBytes_length]; exact hk)
      change endOffset document i ≤ endOffset document k at hends
      omega

/-- A window on the leading text of a container selects those of its regions that lie over no
block or begin in that text. -/
theorem cut_selects {n cut : ℕ} (hn : n < document.containers.length)
    (hcut : cut ≤ (utf8 document.containers[n].ownText).length) :
    ArtifactReader.regionSelected (startOffset document n) (startOffset document n+cut) n n
        (placedRow document.containers ((document.containers[i], i), region))
      = ((n ≤ i && i ≤ n) && decide (StartsBefore cut document.containers[i] region)) := by
  obtain ⟨hnumber, hspan⟩ := placedRow_span htexts hi region
  have hend := endOffset_sub document n hn
  have hown := startOffset_le_endOffset document n n le_rfl hn
  rcases hspan with ⟨hnil, hnone⟩ | ⟨first, more, stop, hcons, hstart, hstop, hlt, hhigh⟩
  · have hbefore : StartsBefore cut document.containers[i] region := by
      intro first hfirst
      rw [hnil] at hfirst
      cases hfirst
    rw [ArtifactReader.regionSelected, hnone, decide_eq_true hbefore, Bool.and_true]
    simp only [hnumber]
  · have hbefore : StartsBefore cut document.containers[i] region ↔ first.start < cut := by
      rw [StartsBefore, hcons, List.head?_cons]
      exact ⟨fun h => h first rfl, fun h other hother => Option.some.inj hother ▸ h⟩
    rw [ArtifactReader.regionSelected, hstart, hstop, Option.any_some, Bool.eq_iff_iff]
    simp only [Bool.and_eq_true, decide_eq_true_eq, hbefore]
    constructor
    · rintro ⟨hleft, hright⟩
      have hlow : n ≤ i := by
        by_contra hlow
        have hapart := endOffset_lt_startOffset document (by omega : i < n) hn
        omega
      have hlate : i ≤ n := by
        by_contra hlate
        have hapart := endOffset_lt_startOffset document (by omega : n < i) hi
        omega
      obtain rfl : i = n := by omega
      exact ⟨⟨hlow, hlate⟩, by omega⟩
    · rintro ⟨⟨hlow, hlate⟩, hfirst⟩
      obtain rfl : i = n := by omega
      omega

end Rows

section Placed

variable (entries : List (DocumentContainer × ℕ))

theorem placedRegions_filter (q : DocumentContainer × ℕ → Bool) :
    (placedRegions entries).filter (fun placed => q placed.1)
      = placedRegions (entries.filter q) := by
  induction entries with
  | nil => rfl
  | cons entry entries ih =>
    have hown : (entry.1.regions.map (fun region => (entry, region))).filter
        (fun placed => q placed.1)
        = if q entry then entry.1.regions.map (fun region => (entry, region)) else [] := by
      rw [List.filter_map]
      change (entry.1.regions.filter (fun _ => q entry)).map _ = _
      cases q entry
      · rw [List.filter_false]
        rfl
      · rw [List.filter_true]
        rfl
    change (entry.1.regions.map _++placedRegions entries).filter _ = _
    rw [List.filter_append, hown, ih, List.filter_cons]
    cases q entry <;> rfl

theorem placedRegions_references :
    (placedRegions entries).map placedReference
      = (entries.map Prod.fst).flatMap (fun container =>
          container.regions.map (regionReferenceOf container.number)) := by
  rw [placedRegions, List.map_flatMap, List.flatMap_map]
  congr 1
  funext entry
  rw [List.map_map]
  rfl

theorem placedRegions_mem {document : DocumentContent} {placed : PlacedRegion}
    (h : placed ∈ placedRegions document.containers.zipIdx) :
    ∃ i, ∃ hi : i < document.containers.length, ∃ region ∈ document.containers[i].regions,
      placed = ((document.containers[i], i), region) := by
  obtain ⟨⟨container, i⟩, hentry, hplaced⟩ := List.mem_flatMap.mp h
  obtain ⟨region, hregion, rfl⟩ := List.mem_map.mp hplaced
  rw [List.mem_zipIdx_iff_getElem?] at hentry
  obtain ⟨hi, hget⟩ := List.getElem?_eq_some_iff.mp hentry
  dsimp only at hi hget hregion
  subst hget
  exact ⟨i, hi, region, hregion, rfl⟩

/-- The containers between two numbers are a run of the document's. -/
theorem entries_between (document : DocumentContent) (n k : ℕ) :
    document.containers.zipIdx.filter (fun entry => n ≤ entry.2 && entry.2 ≤ k)
      = (document.containers.zipIdx.take (k+1)).drop n :=
  filter_between Prod.snd document.containers.zipIdx 0 n k
    (fun i h => by rw [List.getElem_zipIdx])

end Placed

section Windows

variable {document : DocumentContent} {reader : ArtifactReader}
  (written : DocumentWritten document reader.database)
  (htexts : ∀ container ∈ document.containers, ∀ block ∈ container.blocks, block.text ≠ [])

include written htexts

/-- The regions of a window of whole containers. -/
theorem regionsIn_window {n k : ℕ} (hnk : n ≤ k) (hk : k < document.containers.length) :
    reader.regionsIn (startOffset document n) (endOffset document k) n k
      = .ok (firstRegions (regionReferences document n k)) := by
  have hfilter : (placedRegions document.containers.zipIdx).filter (fun placed =>
      ArtifactReader.regionSelected (startOffset document n) (endOffset document k) n k
        (placedRow document.containers placed))
      = placedRegions ((document.containers.zipIdx.take (k+1)).drop n) := by
    rw [← entries_between, ← placedRegions_filter]
    apply List.filter_congr
    intro placed hplaced
    obtain ⟨i, hi, region, -, rfl⟩ := placedRegions_mem hplaced
    exact window_selects htexts hi region hnk hk
  rw [regionsIn_eq written, hfilter, placedRegions_references, List.map_drop, List.map_take,
    List.zipIdx_map_fst]
  rfl

/-- The regions of a window on the leading text of a container. -/
theorem regionsIn_cut {n cut : ℕ} (hn : n < document.containers.length)
    (hcut : cut ≤ (utf8 document.containers[n].ownText).length) :
    reader.regionsIn (startOffset document n) (startOffset document n+cut) n n
      = .ok (firstRegions ((document.containers[n].regions.filter (fun region =>
          StartsBefore cut document.containers[n] region)).map (regionReferenceOf n))) := by
  have hentries : (document.containers.zipIdx.take (n+1)).drop n
      = [(document.containers[n], n)] := by
    rw [List.take_succ_eq_append_getElem (by simpa using hn), List.drop_left' (by simp; omega),
      List.getElem_zipIdx, Nat.zero_add]
  have hfilter : (placedRegions document.containers.zipIdx).filter (fun placed =>
      ArtifactReader.regionSelected (startOffset document n) (startOffset document n+cut) n n
        (placedRow document.containers placed))
      = (placedRegions [(document.containers[n], n)]).filter (fun placed =>
          StartsBefore cut placed.1.1 placed.2) := by
    rw [← hentries, ← entries_between, ← placedRegions_filter, List.filter_filter]
    apply List.filter_congr
    intro placed hplaced
    obtain ⟨i, hi, region, -, rfl⟩ := placedRegions_mem hplaced
    rw [cut_selects htexts hi region hn hcut, Bool.and_comm]
  have hregions : placedRegions [(document.containers[n], n)]
      = document.containers[n].regions.map (fun region =>
          ((document.containers[n], n), region)) := List.append_nil _
  have hreference : placedReference ∘ (fun region => ((document.containers[n], n), region))
      = regionReferenceOf n := by
    funext region
    rw [Function.comp, placedReference, document.number_eq n hn]
  rw [regionsIn_eq written, hfilter, hregions, List.filter_map, List.map_map, hreference]
  rfl

end Windows

section Reads

variable {document : DocumentContent} {reader : ArtifactReader}
  (written : DocumentWritten document reader.database)

include written

/-- Only a document with text has windows, and only a request in range. -/
theorem readContainers_returned {n count maxBytes : ℕ} {window : TextWindow}
    (h : reader.readContainers n count maxBytes = .ok window) :
    document.canonicalText ≠ [] ∧ n < document.containers.length ∧ 1 ≤ count ∧ count ≤ 20 := by
  have htotal : reader.database.containers.length = document.containers.length := by
    rw [written.containers, containerRows_length]
  have htext (start stop : ℕ) (bytes : Bytes) (hbytes : reader.text start stop = .ok bytes) :
      document.canonicalText ≠ [] := by
    intro hempty
    rw [ArtifactReader.text, written.documentText, hempty, utf8_nil] at hbytes
    simp only [bind_eq_ok, ArtifactReader.sqliteSubstr, if_pos, reduceCtorEq, and_false,
      exists_false] at hbytes
  simp only [ArtifactReader.readContainers, bind_eq_ok, raiseIf_eq_ok] at h
  obtain ⟨_, hcount, _, hnumber, hwindow⟩ := h
  refine ⟨?_, by omega, by omega, by omega⟩
  unfold ArtifactReader.windowOf at hwindow
  split at hwindow
  · cases hwindow
  · rename_i first rest
    dsimp only at hwindow
    split at hwindow
    · rw [ArtifactReader.truncatedWindow, bind_eq_ok] at hwindow
      obtain ⟨bytes, hbytes, -⟩ := hwindow
      exact htext _ _ _ hbytes
    · rw [ArtifactReader.wholeWindow, bind_eq_ok] at hwindow
      obtain ⟨bytes, hbytes, -⟩ := hwindow
      exact htext _ _ _ hbytes

end Reads

section Hits

variable {writer : ArtifactWriter} {document : DocumentContent} {reader : ArtifactReader}
  (tables : ArtifactTables writer document reader.database)
  (htexts : ∀ container ∈ document.containers, ∀ block ∈ container.blocks, block.text ≠ [])

include tables

/-- A container that a chunk lies in has its number in the range of the chunk. -/
theorem chunk_containers {chunk : ChunkRow} (hchunk : chunk ∈ reader.database.chunks) {i : ℕ}
    (hi : i < document.containers.length) (hbefore : startOffset document i < chunk.endOffset)
    (hbehind : chunk.startOffset < endOffset document i) :
    chunk.containerStart ≤ i ∧ i ≤ chunk.containerEnd := by
  obtain ⟨spans, -, hchunks, -⟩ := tables.chunks
  rw [hchunks, chunkRowsFrom] at hchunk
  obtain ⟨⟨⟨start, stop⟩, ordinal⟩, -, rfl⟩ := List.mem_map.mp hchunk
  have hrange : (⟨i, startOffset document i, endOffset document i⟩ : ContainerRange)
      ∈ document.containers.zipIdx.map (canonicalRange document.containers) := by
    refine List.mem_map.mpr ⟨(document.containers[i], i), ?_, ?_⟩
    · rw [List.mem_zipIdx_iff_getElem?, List.getElem?_eq_getElem hi]
    · rw [canonicalRange, document.number_eq i hi]
      rfl
  have hnumber : i ∈ chunkContainers (document.containers.zipIdx.map
      (canonicalRange document.containers)) start stop := by
    have hmem : i ∈ ((document.containers.zipIdx.map (canonicalRange document.containers)).filter
        (fun container => container.start < stop && start < container.stop)).map
          ContainerRange.containerNumber := by
      refine List.mem_map.mpr ⟨_, List.mem_filter.mpr ⟨hrange, ?_⟩, rfl⟩
      rw [Bool.and_eq_true, decide_eq_true_eq, decide_eq_true_eq]
      exact ⟨hbefore, hbehind⟩
    rw [chunkContainers, if_neg (List.ne_nil_of_mem hmem)]
    exact hmem
  exact ⟨List.min?_getD_le_of_mem hnumber, List.le_max?_getD_of_mem hnumber⟩

include htexts

/-- The regions of a chunk are of containers in the range of the chunk. -/
theorem regionsIn_chunk {chunk : ChunkRow} (hchunk : chunk ∈ reader.database.chunks)
    {regions : List RegionReference}
    (h : reader.regionsIn chunk.startOffset chunk.endOffset chunk.containerStart
      chunk.containerEnd = .ok regions) :
    ∀ region ∈ regions, chunk.containerStart ≤ region.containerNumber ∧
      region.containerNumber ≤ chunk.containerEnd := by
  rw [regionsIn_eq tables.toDocumentWritten, Except.ok.injEq] at h
  subst h
  intro reference hreference
  have hselected := List.mem_of_mem_take hreference
  rw [List.mem_insertionSort, List.mem_map] at hselected
  obtain ⟨placed, hplaced, rfl⟩ := hselected
  rw [List.mem_filter] at hplaced
  obtain ⟨i, hi, region, -, rfl⟩ := placedRegions_mem hplaced.1
  have hnumber : (placedReference ((document.containers[i], i), region)).containerNumber = i :=
    document.number_eq i hi
  obtain ⟨hrow, hspan⟩ := placedRow_span htexts hi region
  have hcondition := hplaced.2
  rw [hnumber]
  rcases hspan with ⟨-, hnone⟩ | ⟨first, more, stop, -, hstart, hstop, hlt, hhigh⟩
  · rw [ArtifactReader.regionSelected, hnone] at hcondition
    simpa only [hrow, Bool.and_eq_true, decide_eq_true_eq] using hcondition
  · rw [ArtifactReader.regionSelected, hstart, hstop, Option.any_some] at hcondition
    simp only [Bool.and_eq_true, decide_eq_true_eq] at hcondition
    exact chunk_containers tables hchunk hi (by omega) (by omega)

/-- Every hit of a search is a chunk with the regions of its containers. -/
theorem search_regions {unicode : UnicodeTables} {index : FullTextIndex} {marker : Str}
    {queries : List SearchQuery} {limit snippetChars : ℕ} {hits : List SearchHit}
    (h : reader.search unicode index marker queries limit snippetChars = .ok hits) :
    ∀ hit ∈ hits, ∀ region ∈ hit.regions, hit.containerStart ≤ region.containerNumber ∧
      region.containerNumber ≤ hit.containerEnd := by
  simp only [ArtifactReader.search, bind_eq_ok] at h
  obtain ⟨_, -, _, -, expression, -, found, -, hhits⟩ := h
  intro hit hhit
  obtain ⟨row, hrow, hread⟩ := mapM_mem hhits hit hhit
  have hchunk : row.chunk ∈ reader.database.chunks := by
    have hjoined := List.mem_of_mem_take hrow
    rw [List.mem_insertionSort] at hjoined
    obtain ⟨ftsMatch, -, hmatch⟩ := List.mem_flatMap.mp hjoined
    obtain ⟨chunk, hchunk, rfl⟩ := List.mem_map.mp hmatch
    exact List.mem_of_mem_filter hchunk
  simp only [ArtifactReader.searchHit, bind_eq_ok, pure_eq_ok] at hread
  obtain ⟨text, -, regions, hregions, containers, -, rfl⟩ := hread
  exact regionsIn_chunk tables htexts hchunk hregions

end Hits

/-- The regions that come with the text of a document: those of the containers in a window,
and of a container that is cut those over no block or over a block that begins before the
cut; each time the first 20. -/
structure RegionsAttributed (document : DocumentContent) (reader : ArtifactReader) : Prop where
  whole : ∀ number count maxBytes window,
    reader.readContainers number count maxBytes = .ok window → window.truncated = false →
      window.regions = firstRegions
        (regionReferences document window.containerStart window.containerEnd)
  cut : ∀ number count maxBytes window,
    reader.readContainers number count maxBytes = .ok window → window.truncated = true →
      window.containerStart = number ∧ window.containerEnd = number ∧
      ∃ container, document.containers[number]? = some container ∧
        window.regions = firstRegions ((container.regions.filter (fun region =>
          StartsBefore (utf8 window.text).length container region)).map
            (regionReferenceOf number))
  hits : ∀ unicode index marker queries limit snippetChars hits,
    reader.search unicode index marker queries limit snippetChars = .ok hits →
      ∀ hit ∈ hits, ∀ region ∈ hit.regions, hit.containerStart ≤ region.containerNumber ∧
        region.containerNumber ≤ hit.containerEnd

/-- Visual regions are attributed to the text that is returned. -/
theorem regions_attributed {writer : ArtifactWriter} {storage : ArtifactStorage}
    {document : DocumentContent} {reader : ArtifactReader} (faithful : storage.Faithful)
    (built : BuiltReader writer storage document reader)
    (htexts : ∀ container ∈ document.containers, ∀ block ∈ container.blocks, block.text ≠ []) :
    RegionsAttributed document reader := by
  obtain ⟨tables, htext⟩ := built.tables faithful
  have written := tables.toDocumentWritten
  -- a read that returns is one of the two kinds of windows
  have hread (number count maxBytes : ℕ) (window : TextWindow)
      (h : reader.readContainers number count maxBytes = .ok window) :
      (window.truncated = false ∧ window.regions = firstRegions
        (regionReferences document window.containerStart window.containerEnd)) ∨
      (window.truncated = true ∧ window.containerStart = number ∧ window.containerEnd = number ∧
        ∃ container, document.containers[number]? = some container ∧
          window.regions = firstRegions ((container.regions.filter (fun region =>
            StartsBefore (utf8 window.text).length container region)).map
              (regionReferenceOf number))) := by
    obtain ⟨hnonempty, hn, hcount⟩ := readContainers_returned written h
    rcases Nat.lt_or_ge maxBytes (utf8 document.containers[number].ownText).length with hcut | hfits
    · right
      obtain ⟨cut, hcutRead, hwindow, hlength, hregions⟩ :=
        readContainers_cut written htext hnonempty number count maxBytes hn hcount hcut
      obtain rfl : window = cut := Except.ok.inj (h.symm.trans hcutRead)
      rw [regionsIn_cut written htexts hn (by omega), Except.ok.injEq] at hregions
      exact ⟨hwindow.truncated, hwindow.start_eq, hwindow.end_eq, _,
        List.getElem?_eq_getElem hn, hregions.symm⟩
    · left
      obtain ⟨whole, hwholeRead, hwindow, -, -, hregions⟩ :=
        readContainers_whole written htext hnonempty number count maxBytes hn hcount hfits
      obtain rfl : window = whole := Except.ok.inj (h.symm.trans hwholeRead)
      have hend := hwindow.end_le
      simp only [lastRequested] at hend
      rw [regionsIn_window written htexts hwindow.le_end (by omega), Except.ok.injEq] at hregions
      refine ⟨hwindow.not_truncated, ?_⟩
      rw [hwindow.start_eq]
      exact hregions.symm
  constructor
  · intro number count maxBytes window h hwhole
    rcases hread number count maxBytes window h with ⟨-, hregions⟩ | ⟨hcut, -⟩
    · exact hregions
    · rw [hwhole] at hcut
      cases hcut
  · intro number count maxBytes window h hcut
    rcases hread number count maxBytes window h with ⟨hwhole, -⟩ | ⟨-, hregions⟩
    · rw [hcut] at hwhole
      cases hwhole
    · exact hregions
  · intro unicode index marker queries limit snippetChars hits h
    exact search_regions tables htexts h

theorem regions_attributed_figurePages : RegionsAttributed figurePages figurePagesReader :=
  regions_attributed (singleStorage_faithful figurePagesDatabase) figurePages_built (by decide)

end ConferWorker
