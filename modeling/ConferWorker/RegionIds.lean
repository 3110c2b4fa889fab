import ConferWorker.PdfExtraction
import ConferWorker.StorableDocuments

/-! The region ids of a PDF: every id begins with the number of its container, and no
container uses an id twice. -/
namespace ConferWorker

/-- A letter, a container number and what follows. -/
def containerId (letter : CodePoint) (number : ℕ) (name : Str) : Str :=
  letter :: strOfNat (number+1)++0x2D :: name

/-- The ids of regions of one container. -/
structure NumberedRegions (letter : CodePoint) (number : ℕ) (regions : List VisualRegion) :
    Prop where
  named : ∀ region ∈ regions, ∃ name, region.id = containerId letter number name
  distinct : (regions.map VisualRegion.id).Nodup

theorem strOfNat_injective {m n : ℕ} (h : strOfNat m = strOfNat n) : m = n := by
  have hread := congrArg (pythonInt 10) h
  rw [pythonInt_strOfNat, pythonInt_strOfNat, Option.some.injEq] at hread
  exact Int.ofNat_inj.mp hread

theorem dash_notMem_strOfNat (n : ℕ) : (0x2D : CodePoint) ∉ strOfNat n := by
  intro hmem
  exact absurd (strOfNat_digits n _ hmem) (by decide)

/-- Lists with the same separator that is not in front of it. -/
theorem append_separator_inj {α : Type} {a : α} {before other after rest : List α}
    (hbefore : a ∉ before) (hother : a ∉ other) (h : before++a :: after = other++a :: rest) :
    before = other ∧ after = rest := by
  induction before generalizing other with
  | nil =>
    cases other with
    | nil => exact ⟨rfl, List.tail_eq_of_cons_eq h⟩
    | cons b other =>
      rw [List.head_eq_of_cons_eq h] at hother
      exact absurd List.mem_cons_self hother
  | cons b before ih =>
    cases other with
    | nil =>
      rw [← List.head_eq_of_cons_eq h] at hbefore
      exact absurd List.mem_cons_self hbefore
    | cons c other =>
      obtain ⟨heads, tails⟩ := ih (fun hmem => hbefore (List.mem_cons_of_mem _ hmem))
        (fun hmem => hother (List.mem_cons_of_mem _ hmem)) (List.tail_eq_of_cons_eq h)
      exact ⟨by rw [List.head_eq_of_cons_eq h, heads], tails⟩

/-- The number ends at the first dash. -/
theorem containerId_inj {letter : CodePoint} {m n : ℕ} {name other : Str}
    (h : containerId letter m name = containerId letter n other) : m = n ∧ name = other := by
  have htail := List.tail_eq_of_cons_eq h
  obtain ⟨hnumber, hname⟩ := append_separator_inj (dash_notMem_strOfNat _)
    (dash_notMem_strOfNat _) htail
  exact ⟨Nat.succ_injective (strOfNat_injective hnumber), hname⟩

theorem NumberedRegions.nil (letter : CodePoint) (number : ℕ) :
    NumberedRegions letter number [] :=
  ⟨List.forall_mem_nil _, List.nodup_nil⟩

/-- Containers with different numbers share no region id. -/
theorem regionIds_nodup (letter : CodePoint) {containers : List DocumentContainer}
    (hnumbers : (containers.map DocumentContainer.number).Nodup)
    (hregions : ∀ container ∈ containers,
      NumberedRegions letter container.number container.regions) :
    (regionIds containers).Nodup := by
  induction containers with
  | nil => exact List.nodup_nil
  | cons container containers ih =>
    obtain ⟨hcontainer, hcontainers⟩ := List.forall_mem_cons.mp hregions
    rw [List.map_cons, List.nodup_cons] at hnumbers
    rw [regionIds, List.flatMap_cons, ← regionIds]
    refine List.Nodup.append hcontainer.distinct (ih hnumbers.2 hcontainers) ?_
    intro id hid hother
    obtain ⟨region, hregion, rfl⟩ := List.mem_map.mp hid
    obtain ⟨next, hnext, hmem⟩ := List.mem_flatMap.mp hother
    obtain ⟨region', hregion', heq⟩ := List.mem_map.mp hmem
    obtain ⟨name, hname⟩ := hcontainer.named region hregion
    obtain ⟨name', hname'⟩ := (hcontainers next hnext).named region' hregion'
    rw [hname, hname'] at heq
    exact hnumbers.1 (List.mem_map.mpr ⟨next, hnext, (containerId_inj heq).1⟩)

namespace PdfPageScanner

theorem numberedId_eq (pageNumber : ℕ) (name : Str) (index : ℕ) :
    numberedId pageNumber name index
      = containerId 0x70 pageNumber (name++0x2D :: strOfNat (index+1)) := by
  simp only [numberedId, containerId, List.append_assoc]
  rfl

/-- A name without a dash ends at the dash before the index. -/
theorem numberedId_inj {pageNumber : ℕ} {name other : Str} {i j : ℕ}
    (hname : (0x2D : CodePoint) ∉ name) (hother : (0x2D : CodePoint) ∉ other)
    (h : numberedId pageNumber name i = numberedId pageNumber other j) : name = other ∧ i = j := by
  rw [numberedId_eq, numberedId_eq] at h
  obtain ⟨hnames, hindices⟩ := append_separator_inj hname hother (containerId_inj h).2
  exact ⟨hnames, Nat.succ_injective (strOfNat_injective hindices)⟩

/-- Filtering leaves the indices in their order. -/
theorem filterMap_indices_sublist {α β : Type} (f : α × ℕ → Option (β × ℕ))
    (hf : ∀ entry kept, f entry = some kept → kept.2 = entry.2) (entries : List (α × ℕ)) :
    ((entries.filterMap f).map Prod.snd).Sublist (entries.map Prod.snd) := by
  induction entries with
  | nil => exact List.Sublist.slnil
  | cons entry entries ih =>
    rw [List.map_cons]
    cases hentry : f entry with
    | none =>
      rw [List.filterMap_cons_none hentry]
      exact ih.cons _
    | some kept =>
      rw [List.filterMap_cons_some hentry, List.map_cons, hf entry kept hentry]
      exact ih.cons_cons _

/-- The regions of one kind. -/
theorem numbered_regions {pageNumber : ℕ} {name : Str} {type : VisualRegionType} {confidence : ℚ}
    {entries : List (Bounds × ℕ)} (hentries : (entries.map Prod.snd).Nodup)
    (hname : (0x2D : CodePoint) ∉ name) {regions : List VisualRegion}
    (h : entries.mapM (fun entry => VisualRegion.create (numberedId pageNumber name entry.2) type
      entry.1 confidence true none none) = .ok regions) :
    regions.map VisualRegion.id = entries.map (fun entry => numberedId pageNumber name entry.2)
      ∧ (regions.map VisualRegion.id).Nodup := by
  have hids := mapM_map_eq (g := VisualRegion.id)
    (h := fun entry : Bounds × ℕ => numberedId pageNumber name entry.2)
    (fun entry _ region hregion => (VisualRegion.create_fields hregion).1) h
  refine ⟨hids, ?_⟩
  have hcompose : entries.map (fun entry => numberedId pageNumber name entry.2)
      = (entries.map Prod.snd).map (numberedId pageNumber name) := by
    rw [List.map_map]
    rfl
  rw [hids, hcompose]
  exact hentries.map fun i j h => (numberedId_inj hname hname h).2

theorem nativeRegions_numbered {page : PdfPage} {blocks : List TextBlock}
    {regions : List VisualRegion} (h : nativeRegions page blocks = .ok regions) :
    NumberedRegions 0x70 page.number regions := by
  simp only [nativeRegions, bind_eq_ok, pure_eq_ok] at h
  obtain ⟨images, himages, tables, htables, rfl⟩ := h
  have hkept : ((keptImages page).map Prod.snd).Nodup := by
    refine List.Nodup.sublist (filterMap_indices_sublist _ (fun image kept hkept => ?_) _) ?_
    · obtain ⟨bounds, _, hbounds⟩ := Option.bind_eq_some_iff.mp hkept
      dsimp only at hbounds
      split_ifs at hbounds
      rw [← Option.some.inj hbounds]
    · rw [List.zipIdx_map_snd]
      exact List.nodup_range'
  have hindices : ((if mayContainTable blocks then page.tables else []).zipIdx.map Prod.snd).Nodup := by
    rw [List.zipIdx_map_snd]
    exact List.nodup_range'
  obtain ⟨himageIds, himages⟩ := numbered_regions hkept (by decide) himages
  obtain ⟨htableIds, htables⟩ := numbered_regions hindices (by decide) htables
  refine ⟨List.forall_mem_append.mpr ⟨fun region hregion => ?_, fun region hregion => ?_⟩, ?_⟩
  · have hid := List.mem_map_of_mem (f := VisualRegion.id) hregion
    rw [himageIds] at hid
    obtain ⟨entry, _, hentry⟩ := List.mem_map.mp hid
    exact ⟨_, by rw [← hentry, numberedId_eq]⟩
  · have hid := List.mem_map_of_mem (f := VisualRegion.id) hregion
    rw [htableIds] at hid
    obtain ⟨entry, _, hentry⟩ := List.mem_map.mp hid
    exact ⟨_, by rw [← hentry, numberedId_eq]⟩
  · rw [List.map_append]
    refine himages.append htables fun id hid hother => ?_
    rw [himageIds] at hid
    rw [htableIds] at hother
    obtain ⟨image, _, himage⟩ := List.mem_map.mp hid
    obtain ⟨table, _, htable⟩ := List.mem_map.mp hother
    rw [← htable] at himage
    exact absurd (numberedId_inj (by decide) (by decide) himage).1 (by decide)

/-- The regions of a draft. -/
theorem scan_numbered {classifier : PageClassifier} {page : PdfPage} {draft : PageDraft}
    (h : scan classifier page = .ok draft) : NumberedRegions 0x70 page.number draft.regions := by
  unfold scan at h
  obtain ⟨blocks, _, h⟩ := (bind_eq_ok _ _ _).mp h
  dsimp only at h
  split_ifs at h
  · obtain ⟨regions, hregions, h⟩ := (bind_eq_ok _ _ _).mp h
    rw [pure_eq_ok] at h
    rw [← h]
    exact nativeRegions_numbered hregions
  · rw [pure_eq_ok] at h
    rw [← h]
    exact .nil _ _

end PdfPageScanner

namespace PdfOcrProcessor

theorem pageId_eq (pageNumber : ℕ) (name : Str) :
    pageId pageNumber name = containerId 0x70 pageNumber name := by
  simp only [pageId, containerId, List.append_assoc]
  rfl

/-- The ids of an OCR page are some of three. -/
theorem regions_ids {tables : UnicodeTables} {pageNumber : ℕ} {pageBounds : Bounds}
    {blocks : List TextBlock} {result : List VisualRegion}
    (h : regions tables pageNumber pageBounds blocks = .ok result) :
    (result.map VisualRegion.id).Sublist ([ofString "scanned-page", ofString "ocr-table",
      ofString "ocr-low-confidence"].map (pageId pageNumber)) := by
  simp only [regions, bind_eq_ok, pure_eq_ok] at h
  obtain ⟨scanned, hscanned, table, htable, low, hlow, rfl⟩ := h
  have hids {names : List Str} {type : VisualRegionType} {confidence : ℚ}
      {found : List VisualRegion} (hfound : names.mapM (fun name => VisualRegion.create
        (pageId pageNumber name) type pageBounds confidence true none none) = .ok found) :
      found.map VisualRegion.id = names.map (pageId pageNumber) :=
    mapM_map_eq (fun name _ region hregion => (VisualRegion.create_fields hregion).1) hfound
  rw [List.cons_append, List.map_cons, List.map_append, (VisualRegion.create_fields hscanned).1,
    hids htable, hids hlow, List.map_cons, ← List.map_append]
  refine List.Sublist.cons_cons _ (List.Sublist.map (pageId pageNumber) ?_)
  show List.Sublist _ ([ofString "ocr-table"]++[ofString "ocr-low-confidence"])
  apply List.Sublist.append <;> split_ifs
  · exact List.Sublist.refl _
  · exact List.nil_sublist _
  · exact List.Sublist.refl _
  · exact List.nil_sublist _

theorem regions_numbered {tables : UnicodeTables} {pageNumber : ℕ} {pageBounds : Bounds}
    {blocks : List TextBlock} {result : List VisualRegion}
    (h : regions tables pageNumber pageBounds blocks = .ok result) :
    NumberedRegions 0x70 pageNumber result := by
  have hids := regions_ids h
  constructor
  · intro region hregion
    obtain ⟨name, _, hname⟩ := List.mem_map.mp (hids.subset (List.mem_map_of_mem hregion))
    exact ⟨name, by rw [← hname, pageId_eq]⟩
  · refine List.Nodup.sublist hids (List.Nodup.map (fun name other heq => ?_) (by decide))
    rw [pageId_eq, pageId_eq] at heq
    exact (containerId_inj heq).2

/-- The regions of a page's container. -/
theorem pageContainer_numbered {processor : PdfOcrProcessor} {classifier : PageClassifier}
    {page : PdfPage} {container : DocumentContainer}
    (h : processor.pageContainer classifier page = .ok container) :
    container.number = page.number
      ∧ NumberedRegions 0x70 container.number container.regions := by
  obtain ⟨draft, hdraft, hnumber⟩ := PdfPageScanner.scan_returns classifier page
  have hscanned := PdfPageScanner.scan_numbered hdraft
  rw [pageContainer, hdraft, ok_bind] at h
  have hpage := draftContainer_number h
  rw [hnumber] at hpage
  refine ⟨hpage, ?_⟩
  unfold draftContainer at h
  cases hroute : draft.route with
  | native =>
    rw [hroute] at h
    rw [(DocumentContainer.create_fields h).2.2, hpage]
    exact hscanned
  | blank =>
    rw [hroute] at h
    rw [(DocumentContainer.create_fields h).2.2]
    exact .nil _ _
  | ocr =>
    rw [hroute] at h
    dsimp only at h
    unfold readRaster at h
    cases hbackend : processor.backend with
    | none =>
      rw [hbackend] at h
      cases h
    | some backend =>
      rw [hbackend] at h
      simp only [bind_eq_ok, ocrContainer] at h
      obtain ⟨image, _, blocks, _, bounds, _, found, hfound, hcreate⟩ := h
      rw [(DocumentContainer.create_fields hcreate).2.2, hpage, ← hnumber]
      exact regions_numbered hfound

end PdfOcrProcessor

/-- No region id of a PDF is used twice, whatever its pages are. -/
theorem pdf_regionIds_nodup {extractor : PdfExtractor} {processor : PdfOcrProcessor}
    {openPdf : Bytes → Option PdfDocument} {source : DocumentSource} {content : DocumentContent}
    (h : extractor.extract processor openPdf source = .ok content) :
    (regionIds content.containers).Nodup := by
  unfold PdfExtractor.extract at h
  obtain ⟨_, _, h⟩ := (bind_eq_ok _ _ _).mp h
  obtain ⟨_, _, h⟩ := (bind_eq_ok _ _ _).mp h
  cases hopen : openPdf source.content with
  | none =>
    rw [hopen] at h
    cases h
  | some document =>
    rw [hopen] at h
    simp only [bind_eq_ok] at h
    obtain ⟨_, _, _, _, outline, _, drafts, hdrafts, pages, hpages, hcreate⟩ := h
    rw [PdfExtractor.scanPages_eq document.numbered] at hdrafts
    have hscanned := PdfExtractor.scanInOrder_ok hdrafts
    have hlength : drafts.length = document.pages.length := by
      simpa using congrArg List.length hscanned
    have hnumbers : drafts.map PageDraft.number = List.range drafts.length := by
      rw [hscanned, document.numbered, hlength]
    have hsequential := (process_eq_sequential document hdrafts hnumbers).mp hpages
    have hcontainers := DocumentContent.create_containers hcreate
    have hrange := content.contiguous
    refine regionIds_nodup 0x70 ?_ fun container hcontainer => ?_
    · rw [hrange]
      exact List.nodup_range
    · rw [hcontainers] at hcontainer
      obtain ⟨page, _, hpage⟩ := mapM_mem hsequential container hcontainer
      exact (PdfOcrProcessor.pageContainer_numbered hpage).2

end ConferWorker
