import ConferWorker.OcrValues

/-! Scanning in several processes and reading pages in several threads gives what one page
after the other gives. -/
namespace ConferWorker

open PdfOcrProcessor PdfExtractor

/-- The states that the threads of `process` can be in. -/
def OcrReaches (processor : PdfOcrProcessor) (backend : OcrBackend) (source : List PdfPage)
    (drafts : List PageDraft) : OcrState → Prop :=
  Relation.ReflTransGen
    (OcrStep processor.tables backend source (processor.concurrency backend))
    (OcrState.start drafts)

section Runs

variable {processor : PdfOcrProcessor} {backend : OcrBackend} {source : List PdfPage}
  {drafts : List PageDraft} {s : OcrState}

theorem PdfOcrProcessor.concurrency_pos (processor : PdfOcrProcessor) (backend : OcrBackend) :
    0 < processor.concurrency backend :=
  Int.pos_iff_toNat_pos.mp (lt_of_lt_of_le one_pos (le_max_left _ _))

theorem OcrState.Counts.start (drafts : List PageDraft) {concurrency : ℕ}
    (hconcurrency : 0 < concurrency) : Counts concurrency (OcrState.start drafts) := by
  unfold OcrState.start
  split
  · exact ⟨Nat.zero_le _, fun _ => hconcurrency, rfl, rfl, fun k hk => absurd hk (Nat.not_lt_zero k)⟩
  · exact ⟨Nat.zero_le _, fun _ => hconcurrency, rfl, rfl, fun k hk => absurd hk (Nat.not_lt_zero k)⟩
  · exact ⟨Nat.zero_le _, fun _ => hconcurrency, rfl, rfl, fun k hk => absurd hk (Nat.not_lt_zero k)⟩

theorem OcrReaches.counts (h : OcrReaches processor backend source drafts s) :
    s.Counts (processor.concurrency backend) := by
  induction h with
  | refl => exact .start drafts (processor.concurrency_pos backend)
  | tail _ hstep ih =>
    cases hstep with
    | main h => exact ih.main (OcrState.mainStep_cases h)
    | worker hjob hopen => exact ih.settle hjob _
    | cancel hjob hopen hpc => exact ih.settle hjob _

theorem OcrReaches.values (hbackend : processor.backend = some backend)
    (hnumbers : drafts.map PageDraft.number = List.range drafts.length)
    (h : OcrReaches processor backend source drafts s) :
    s.Values processor backend source drafts := by
  induction h with
  | refl => exact .start hnumbers
  | tail _ hstep ih =>
    cases hstep with
    | main h =>
      exact ih.main hbackend (jobs_of hnumbers) (processor.concurrency_pos backend)
        (OcrState.mainStep_cases h)
    | worker hjob hopen => exact ih.settle hjob (fun _ => rfl)
    | cancel hjob hopen hpc =>
      refine ih.settle hjob (fun hworking => ?_)
      rw [hpc] at hworking
      exact hworking.elim

/-- A step of any thread brings the end nearer. -/
theorem OcrStep.remaining_lt {tables : UnicodeTables} {concurrency : ℕ} {s s' : OcrState}
    (h : OcrStep tables backend source concurrency s s') : s'.remaining < s.remaining := by
  have hsettle {s : OcrState} {k : ℕ} {job : OcrJob}
      (outcome : Except PythonError (List TextBlock)) (hjob : s.jobs[k]? = some job)
      (hopen : job.outcome = none) : (s.settle k job outcome).remaining < s.remaining := by
    have hless := OcrState.settle_outstanding outcome hjob hopen
    show _+_+(s.settle k job outcome).outstanding+OcrState.pcRemaining s.pc < _
    unfold OcrState.remaining
    rw [← hless]
    show 5*s.waiting.length+2*s.pending.length+_+_ < _
    omega
  cases h with
  | main h => exact OcrState.remaining_main (OcrState.mainStep_cases h)
  | worker hjob hopen => exact hsettle _ hjob hopen
  | cancel hjob hopen hpc => exact hsettle _ hjob hopen

end Runs

section Pages

variable {processor : PdfOcrProcessor} {classifier : PageClassifier}

theorem PdfDocument.rasterOf_number (document : PdfDocument) {page : PdfPage}
    (hpage : page ∈ document.pages) : rasterOf document.pages page.number = page.raster := by
  obtain ⟨i, hi, rfl⟩ := List.getElem_of_mem hpage
  have hget := congrArg (fun numbers => numbers[i]?) document.numbered
  simp only [List.getElem?_map, List.getElem?_eq_getElem hi, Option.map_some,
    List.getElem?_range hi, Option.some.injEq] at hget
  rw [rasterOf, loadPage, hget, List.getElem?_eq_getElem hi]
  rfl

/-- The containers of the drafts are those of the pages. -/
theorem draftContainers_eq (document : PdfDocument) {drafts : List PageDraft}
    (hdrafts : document.pages.mapM (PdfPageScanner.scan classifier) = .ok drafts) :
    drafts.mapM (fun draft => processor.draftContainer (rasterOf document.pages draft.number) draft)
      = document.pages.mapM (processor.pageContainer classifier) := by
  have hall := fun page (hpage : page ∈ document.pages) => document.rasterOf_number hpage
  revert hdrafts hall
  generalize rasterOf document.pages = raster
  intro hdrafts hall
  generalize document.pages = pages at hdrafts hall
  induction pages generalizing drafts with
  | nil =>
    obtain rfl : [] = drafts := by simpa only [List.mapM_nil, pure_eq_ok] using hdrafts
    rfl
  | cons page pages ih =>
    obtain ⟨hraster, hrest⟩ := List.forall_mem_cons.mp hall
    obtain ⟨draft, hdraft, hnumber⟩ := PdfPageScanner.scan_returns classifier page
    rw [List.mapM_cons, hdraft, ok_bind] at hdrafts
    obtain ⟨rest, htail, hcons⟩ := (bind_eq_ok _ _ _).mp hdrafts
    rw [pure_eq_ok] at hcons
    rw [← hcons, List.mapM_cons, List.mapM_cons, pageContainer, hdraft, ok_bind, hnumber, hraster,
      ih htail hrest]

/-- A container has the number of its page. -/
theorem draftContainer_number {raster : Except PythonError RasterImage} {draft : PageDraft}
    {container : DocumentContainer} (h : processor.draftContainer raster draft = .ok container) :
    container.number = draft.number := by
  unfold draftContainer at h
  cases hroute : draft.route with
  | native | blank =>
    rw [hroute] at h
    exact (DocumentContainer.create_fields h).1
  | ocr =>
    rw [hroute] at h
    dsimp only at h
    unfold readRaster at h
    cases hbackend : processor.backend with
    | none =>
      rw [hbackend] at h
      cases h
    | some backend =>
      rw [hbackend] at h
      simp only [bind_eq_ok, ocrContainer] at h
      obtain ⟨image, _, blocks, _, bounds, _, regions, _, hcreate⟩ := h
      exact (DocumentContainer.create_fields hcreate).1

theorem pageContainers_number {pages : List PdfPage} {containers : List DocumentContainer}
    (h : pages.mapM (processor.pageContainer classifier) = .ok containers) :
    containers.map DocumentContainer.number = pages.map PdfPage.number := by
  refine mapM_map_eq (fun page _ container hcontainer => ?_) h
  obtain ⟨draft, hdraft, hnumber⟩ := PdfPageScanner.scan_returns classifier page
  rw [pageContainer, hdraft, ok_bind] at hcontainer
  rw [draftContainer_number hcontainer, hnumber]

/-- `process` on the drafts of a document. -/
theorem process_eq_sequential (document : PdfDocument) {drafts : List PageDraft}
    (hdrafts : document.pages.mapM (PdfPageScanner.scan classifier) = .ok drafts)
    (hnumbers : drafts.map PageDraft.number = List.range drafts.length)
    {containers : List DocumentContainer} :
    processor.process document.pages drafts = .ok containers
      ↔ document.pages.mapM (processor.pageContainer classifier) = .ok containers := by
  rw [process_ok_iff hnumbers, draftContainers_eq document hdrafts]

end Pages

/-- The ranges that the scanning processes get are a partition, also of no page. -/
theorem scanRanges_partition (extractor : PdfExtractor) (pageCount : ℕ) :
    (pageRanges pageCount (chunkSize pageCount (extractor.scanWorkerCount pageCount))).flatMap
      pagesOf = List.range pageCount := by
  rcases Nat.eq_zero_or_pos pageCount with rfl | hpos
  · have hnone (size : ℕ) : (0+size-1)/size = 0 := by
      rw [Nat.zero_add]
      rcases Nat.eq_zero_or_pos size with rfl | hsize
      · rfl
      · exact Nat.div_eq_of_lt (Nat.sub_one_lt hsize.ne')
    rw [pageRanges, hnone]
    rfl
  · exact pageRanges_partition pageCount (chunkSize_pos (scanWorkerCount_pos _ _) hpos)

/-- For any number of scanning processes and of OCR threads, and any order in which the OCR jobs
end: the ranges of pages are a partition, the drafts are those of one process, at most
`concurrency` jobs run at a time, and when the main thread returns it returns the containers
of the pages one after the other, each OCR draft resolved once. It comes to an end in any case, and
raises when a page fails. -/
theorem parallel_eq_sequential (extractor : PdfExtractor) (backend : OcrBackend)
    (maxConcurrency : ℤ) (tables : UnicodeTables) (document : PdfDocument) :
    let processor : PdfOcrProcessor := ⟨some backend, maxConcurrency, tables⟩
    let pageCount := document.pages.length
    let workers := extractor.scanWorkerCount pageCount
    let sequential := document.pages.mapM (processor.pageContainer extractor.classifier)
    (pageRanges pageCount (chunkSize pageCount workers)).flatMap pagesOf = List.range pageCount
    ∧ ∃ drafts, extractor.scanPages document.pages = .ok drafts
      ∧ extractor.scanInOrder document.pages = .ok drafts
      ∧ (∀ s, OcrReaches processor backend document.pages drafts s →
        s.outstanding ≤ processor.concurrency backend
        ∧ (∀ containers, s.pc = .returned containers → sequential = .ok containers
          ∧ containers.map DocumentContainer.number = List.range pageCount
          ∧ s.resolved = ocrNumbers drafts ∧ s.resolved.Nodup)
        ∧ (∀ error, s.pc = .raised error → ∀ containers, sequential ≠ .ok containers)
        ∧ (s.finished ∨ ∃ s', OcrStep tables backend document.pages
          (processor.concurrency backend) s s')
        ∧ ∀ s', OcrStep tables backend document.pages (processor.concurrency backend) s s' →
          s'.remaining < s.remaining)
      ∧ ∀ draft ∈ drafts, draft.route = .ocr →
        (∀ image blocks, rasterOf document.pages draft.number = .ok image →
          backend.extract image ≠ .ok blocks) →
        ∀ s containers, OcrReaches processor backend document.pages drafts s →
          s.pc ≠ .returned containers := by
  intro processor pageCount workers sequential
  obtain ⟨drafts, hdrafts⟩ : ∃ drafts, extractor.scanInOrder document.pages = .ok drafts :=
    mapM_returns _ _ (fun page _ =>
      (PdfPageScanner.scan_returns extractor.classifier page).imp fun _ h => h.1)
  have hscanned := scanInOrder_ok hdrafts
  have hlength : drafts.length = pageCount := by
    have hlengths := congrArg List.length hscanned
    rwa [List.length_map, List.length_map] at hlengths
  have hnumbers : drafts.map PageDraft.number = List.range drafts.length := by
    rw [hscanned, document.numbered, hlength]
  have hsequential : drafts.mapM (fun draft =>
      processor.draftContainer (rasterOf document.pages draft.number) draft) = sequential :=
    draftContainers_eq document hdrafts
  refine ⟨scanRanges_partition extractor pageCount, drafts,
    (scanPages_eq document.numbered).trans hdrafts, hdrafts, fun s hs => ?_,
    fun draft hdraft hroute hfails s containers hs hpc => ?_⟩
  -- what holds in every state that the threads reach, and what it says at the end
  · have hcounts := hs.counts
    have hvalues := hs.values rfl hnumbers
    have hgives := hvalues.gives
    rw [hsequential] at hgives
    refine ⟨hcounts.outstanding_le, fun containers hpc => ?_, fun error hpc containers hok => ?_, ?_,
      fun s' hstep => hstep.remaining_lt⟩
    · have hok : sequential = .ok containers := by
        rw [← hgives, OcrState.Gives, hpc]
      have horder := hvalues.order (fun error herror => by rw [hpc] at herror; cases herror)
      rw [hvalues.submittedAll (by rw [hpc]; trivial), hvalues.resolvedAll (by rw [hpc]; trivial),
        List.map_nil, List.map_nil, List.append_nil, List.append_nil] at horder
      have hnodup : (ocrNumbers drafts).Nodup := by
        refine List.Nodup.sublist (List.filter_sublist.map PageDraft.number) ?_
        rw [hnumbers]
        exact List.nodup_range
      refine ⟨hok, ?_, horder, ?_⟩
      · rw [pageContainers_number hok, document.numbered]
      · rw [horder]
        exact hnodup
    · have hgiven := (hgives containers).mpr hok
      rw [OcrState.Gives, hpc] at hgiven
      exact hgiven
    -- a state that is not final has a step of the main thread or an open job
    · by_cases hfinished : s.finished
      · exact .inl hfinished
      · right
        rcases OcrState.main_or_open tables document.pages hfinished hcounts
          with ⟨s', hmain⟩ | ⟨k, job, hjob, hopen⟩
        · exact ⟨s', .main hmain⟩
        · exact ⟨_, .worker hjob hopen⟩
  -- a return would need the container of the page that fails
  · have hgives := (hs.values rfl hnumbers).gives containers
    rw [OcrState.Gives, hpc] at hgives
    obtain ⟨container, hcontainer⟩ := mapM_all_ok (hgives.mp rfl) draft hdraft
    rw [draftContainer, hroute] at hcontainer
    dsimp only at hcontainer
    simp only [readRaster, processor, bind_eq_ok] at hcontainer
    obtain ⟨image, himage, blocks, hblocks, _⟩ := hcontainer
    exact hfails image blocks himage hblocks

end ConferWorker
