import ConferWorker.PdfOcr

/-! One page after the other: what a page becomes on its own, and that `process` returns
the containers of the pages in their order. -/
namespace ConferWorker

namespace PdfOcrProcessor

variable (processor : PdfOcrProcessor)

/-- The OCR of one page. -/
def readRaster (raster : Except PythonError RasterImage) (draft : PageDraft) :
    Except PythonError DocumentContainer :=
  match processor.backend with
  | none => .error ⟨.other (ofString "OcrRequiredError"),
      ofString "page "++strOfNat (draft.number+1)++ofString " requires OCR"⟩
  | some backend => do
    let image ← raster
    let blocks ← backend.extract image
    ocrContainer processor.tables draft.number draft.width draft.height blocks

/-- The container of a draft on its own. -/
def draftContainer (raster : Except PythonError RasterImage) (draft : PageDraft) :
    Except PythonError DocumentContainer :=
  match draft.route with
  | .native => DocumentContainer.create draft.number draft.width draft.height draft.blocks
      draft.regions .page none
  | .blank => DocumentContainer.create draft.number draft.width draft.height [] [] .page none
  | .ocr => processor.readRaster raster draft

/-- A page that is scanned and then read, before any other page is looked at. -/
def pageContainer (classifier : PageClassifier) (page : PdfPage) :
    Except PythonError DocumentContainer := do
  let draft ← PdfPageScanner.scan classifier page
  processor.draftContainer page.raster draft

/-- The numbers of the drafts that need OCR. -/
def ocrNumbers (drafts : List PageDraft) : List ℕ :=
  (drafts.filter (fun draft => draft.route = .ocr)).map PageDraft.number

def placedNumbers (drafts : List PageDraft) : List ℕ :=
  (drafts.filter (fun draft => draft.route ≠ .ocr)).map PageDraft.number

/-- `job` gives the container of every one of the drafts. -/
def JobOf (source : List PdfPage) (job : ℕ → Except PythonError DocumentContainer)
    (drafts : List PageDraft) : Prop :=
  ∀ draft ∈ drafts,
    job draft.number = processor.draftContainer (rasterOf source draft.number) draft

/-- `_resolve` with the blocks of a pending job does the job of its page. -/
def PendingOf (job : ℕ → Except PythonError DocumentContainer)
    (pending : PendingOcr (Except PythonError (List TextBlock))) : Prop :=
  job pending.pageNumber = do
    let blocks ← pending.future
    ocrContainer processor.tables pending.pageNumber pending.pageWidth pending.pageHeight blocks

/-- The jobs of all drafts. -/
def jobs (source : List PdfPage) (drafts : List PageDraft) (i : ℕ) :
    Except PythonError DocumentContainer :=
  match drafts[i]? with
  | some draft => processor.draftContainer (rasterOf source draft.number) draft
  | none => .error ⟨.other (ofString "IndexError"), ofString "page not in document"⟩

/-- `fillSlots` with the errors of `process`. -/
def fillPages (job : ℕ → Except PythonError DocumentContainer) :
    List (Option DocumentContainer) → List ℕ →
      Except PythonError (List (Option DocumentContainer)) :=
  fillSlots ⟨.other (ofString "IndexError"), ofString "list assignment index out of range"⟩ job

section Order

variable {processor} {source : List PdfPage} {job : ℕ → Except PythonError DocumentContainer}

theorem fillPages_cons {pages : List (Option DocumentContainer)} {i : ℕ} {numbers : List ℕ} :
    fillPages job pages (i :: numbers)
      = job i >>= fun container => setPage pages i container
        >>= fun pages => fillPages job pages numbers := rfl

theorem jobs_of {drafts : List PageDraft}
    (hnumbers : drafts.map PageDraft.number = List.range drafts.length) :
    processor.JobOf source (processor.jobs source drafts) drafts := by
  intro draft hdraft
  obtain ⟨i, hi, rfl⟩ := List.getElem_of_mem hdraft
  have hget := congrArg (fun numbers => numbers[i]?) hnumbers
  simp only [List.getElem?_map, List.getElem?_eq_getElem hi, Option.map_some,
    List.getElem?_range hi, Option.some.injEq] at hget
  rw [jobs, hget, List.getElem?_eq_getElem hi]
  simp only [hget]

/-- The jobs in the order of the numbers are the drafts in their order. -/
theorem jobs_mapM {drafts : List PageDraft}
    (hnumbers : drafts.map PageDraft.number = List.range drafts.length) :
    (List.range drafts.length).mapM (processor.jobs source drafts)
      = drafts.mapM (fun draft => processor.draftContainer (rasterOf source draft.number) draft) := by
  have hrest (rest : List PageDraft)
      (hjobs : processor.JobOf source (processor.jobs source drafts) rest) :
      (rest.map PageDraft.number).mapM (processor.jobs source drafts)
        = rest.mapM (fun draft => processor.draftContainer (rasterOf source draft.number) draft) := by
    induction rest with
    | nil => rfl
    | cons draft rest ih =>
      obtain ⟨hdraft, htail⟩ := List.forall_mem_cons.mp hjobs
      rw [List.map_cons, List.mapM_cons, List.mapM_cons, hdraft, ih htail]
  rw [← hnumbers]
  exact hrest drafts (jobs_of hnumbers)

/-- The first loop of `process` does the jobs of the pages that need no OCR. -/
theorem placeDrafts_ok_iff {drafts : List PageDraft} (hjobs : processor.JobOf source job drafts)
    {pages placed : List (Option DocumentContainer)} {ocrDrafts : List PageDraft} :
    placeDrafts pages drafts = .ok (placed, ocrDrafts)
      ↔ fillPages job pages (placedNumbers drafts) = .ok placed
        ∧ drafts.filter (fun draft => draft.route = .ocr) = ocrDrafts := by
  induction drafts generalizing pages ocrDrafts with
  | nil => simp [placeDrafts, fillPages, placedNumbers, fillSlots]
  | cons draft drafts ih =>
    obtain ⟨hjob, hrest⟩ := List.forall_mem_cons.mp hjobs
    rw [draftContainer] at hjob
    -- a page without OCR is done here, an OCR page is kept
    cases hroute : draft.route with
    | native | blank =>
      have hplaced : placedNumbers (draft :: drafts) = draft.number :: placedNumbers drafts := by
        simp [placedNumbers, hroute]
      rw [hroute] at hjob
      simp only [placeDrafts, hroute, hplaced, fillPages_cons, hjob, bind_eq_ok, ih hrest,
        List.filter_cons, reduceCtorEq, decide_false, Bool.false_eq_true, if_false]
      constructor
      · rintro ⟨container, hcontainer, next, hnext, hfill, hocr⟩
        exact ⟨⟨container, hcontainer, next, hnext, hfill⟩, hocr⟩
      · rintro ⟨⟨container, hcontainer, next, hnext, hfill⟩, hocr⟩
        exact ⟨container, hcontainer, next, hnext, hfill, hocr⟩
    | ocr =>
      have hplaced : placedNumbers (draft :: drafts) = placedNumbers drafts := by
        simp [placedNumbers, hroute]
      simp only [placeDrafts, hroute, hplaced, bind_eq_ok, pure_eq_ok, Prod.exists, Prod.mk.injEq,
        List.filter_cons, decide_true, if_true]
      constructor
      · rintro ⟨_, rest, hplace, rfl, rfl⟩
        obtain ⟨hfill, hocr⟩ := (ih hrest).mp hplace
        exact ⟨hfill, by rw [hocr]⟩
      · rintro ⟨hfill, rfl⟩
        exact ⟨placed, _, (ih hrest).mpr ⟨hfill, rfl⟩, rfl, rfl⟩

/-- `_resolve` does the job of its page. -/
theorem resolve_eq {pages : List (Option DocumentContainer)}
    {pending : PendingOcr (Except PythonError (List TextBlock))}
    (hpending : processor.PendingOf job pending) :
    resolve processor.tables pages pending
      = job pending.pageNumber >>= setPage pages pending.pageNumber := by
  rw [resolve, hpending, bind_assoc]

theorem resolveAll_eq {pending : List (PendingOcr (Except PythonError (List TextBlock)))}
    (hpending : ∀ item ∈ pending, processor.PendingOf job item)
    (pages : List (Option DocumentContainer)) :
    pending.foldlM (resolve processor.tables) pages
      = fillPages job pages (pending.map PendingOcr.pageNumber) := by
  induction pending generalizing pages with
  | nil => rfl
  | cons item pending ih =>
    obtain ⟨hitem, hrest⟩ := List.forall_mem_cons.mp hpending
    rw [List.foldlM_cons, resolve_eq hitem, List.map_cons, fillPages_cons, bind_assoc]
    congr 1
    funext container
    congr 1
    funext pages
    exact ih hrest pages

/-- What the submission of a draft leaves behind does the job of its page. -/
theorem submitted_pendingOf {draft : PageDraft} {backend : OcrBackend}
    (hbackend : processor.backend = some backend) (hroute : draft.route = .ocr)
    (hjob : job draft.number = processor.draftContainer (rasterOf source draft.number) draft)
    {image : RasterImage} (himage : rasterOf source draft.number = .ok image) :
    processor.PendingOf job
      ⟨draft.number, draft.width, draft.height, backend.extract image⟩ := by
  rw [PendingOf, hjob, draftContainer, hroute]
  dsimp only
  rw [readRaster, hbackend, himage]
  rfl

/-- The second loop does the jobs of the pending and the waiting pages, the last of them
when it is over. -/
theorem submitDrafts_ok_iff {backend : OcrBackend} (hbackend : processor.backend = some backend)
    {concurrency : ℕ} {drafts : List PageDraft} (hjobs : processor.JobOf source job drafts)
    (hroutes : ∀ draft ∈ drafts, draft.route = .ocr)
    {pages filled : List (Option DocumentContainer)}
    {pending : List (PendingOcr (Except PythonError (List TextBlock)))}
    (hpending : ∀ item ∈ pending, processor.PendingOf job item) :
    (submitDrafts processor.tables backend source concurrency pages pending drafts
        >>= fun left => left.2.foldlM (resolve processor.tables) left.1) = .ok filled
      ↔ fillPages job pages
          (pending.map PendingOcr.pageNumber++drafts.map PageDraft.number) = .ok filled := by
  induction drafts generalizing pages pending with
  | nil => rw [submitDrafts, ok_bind, resolveAll_eq hpending, List.map_nil, List.append_nil]
  | cons draft drafts ih =>
    obtain ⟨hjob, hrest⟩ := List.forall_mem_cons.mp hjobs
    obtain ⟨hroute, hroutes⟩ := List.forall_mem_cons.mp hroutes
    rw [submitDrafts]
    cases himage : rasterOf source draft.number with
    | error e =>
      -- the job of this page fails, whenever it is done
      have hfails : job draft.number = .error e := by
        rw [hjob, himage, draftContainer, hroute]
        dsimp only
        rw [readRaster, hbackend]
        rfl
      constructor
      · intro h
        cases h
      · intro h
        obtain ⟨hall, _⟩ := fillSlots_ok_iff.mp h
        obtain ⟨_, container, hcontainer⟩ := hall draft.number (by simp)
        rw [hfails] at hcontainer
        cases hcontainer
    | ok image =>
      have hnew := submitted_pendingOf hbackend hroute hjob himage
      have hall : ∀ item ∈ pending++[⟨draft.number, draft.width, draft.height,
          backend.extract image⟩], processor.PendingOf job item :=
        List.forall_mem_append.mpr ⟨hpending, List.forall_mem_singleton.mpr hnew⟩
      have hnumbers : pending.map PendingOcr.pageNumber++(draft :: drafts).map PageDraft.number
          = (pending++[(⟨draft.number, draft.width, draft.height, backend.extract image⟩ :
              PendingOcr (Except PythonError (List TextBlock)))]).map
              PendingOcr.pageNumber++drafts.map PageDraft.number := by
        rw [List.map_append, List.append_assoc]
        rfl
      rw [ok_bind, hnumbers]
      generalize pending++[(⟨draft.number, draft.width, draft.height, backend.extract image⟩ :
        PendingOcr (Except PythonError (List TextBlock)))] = items at hall ⊢
      cases items with
      | nil => exact ih hrest hroutes hall
      | cons first rest =>
        dsimp only
        split_ifs with hfull
        · obtain ⟨hfirst, htail⟩ := List.forall_mem_cons.mp hall
          rw [resolve_eq hfirst, List.map_cons, List.cons_append, fillPages_cons]
          simp only [bind_assoc]
          constructor
          · intro h
            obtain ⟨container, hcontainer, h⟩ := (bind_eq_ok _ _ _).mp h
            obtain ⟨next, hnext, h⟩ := (bind_eq_ok _ _ _).mp h
            rw [hcontainer, ok_bind, hnext, ok_bind]
            exact (ih hrest hroutes htail).mp h
          · intro h
            obtain ⟨container, hcontainer, h⟩ := (bind_eq_ok _ _ _).mp h
            obtain ⟨next, hnext, h⟩ := (bind_eq_ok _ _ _).mp h
            rw [hcontainer, ok_bind, hnext, ok_bind]
            exact (ih hrest hroutes htail).mpr h
        · exact ih hrest hroutes hall

/-- All pages are done: the pages without OCR, and the others. -/
theorem mem_numbers {drafts : List PageDraft}
    (hnumbers : drafts.map PageDraft.number = List.range drafts.length) (i : ℕ) :
    i ∈ placedNumbers drafts++ocrNumbers drafts ↔ i < drafts.length := by
  rw [← List.mem_range, ← hnumbers, placedNumbers, ocrNumbers, ← List.map_append, List.mem_map,
    List.mem_map]
  constructor
  · rintro ⟨draft, hdraft, rfl⟩
    rw [List.mem_append, List.mem_filter, List.mem_filter] at hdraft
    exact ⟨draft, hdraft.elim And.left And.left, rfl⟩
  · rintro ⟨draft, hdraft, rfl⟩
    refine ⟨draft, ?_, rfl⟩
    rw [List.mem_append, List.mem_filter, List.mem_filter]
    rcases eq_or_ne draft.route .ocr with hocr | hother
    · exact .inr ⟨hdraft, by simpa using hocr⟩
    · exact .inl ⟨hdraft, by simpa using hother⟩

/-- The pages without OCR first and the others afterwards is all pages in order. -/
theorem fillPages_all {drafts : List PageDraft}
    (hnumbers : drafts.map PageDraft.number = List.range drafts.length)
    {containers : List DocumentContainer} :
    (fillPages (processor.jobs source drafts) (List.replicate drafts.length none)
        (placedNumbers drafts++ocrNumbers drafts) >>= completedPages) = .ok containers
      ↔ drafts.mapM (fun draft => processor.draftContainer (rasterOf source draft.number) draft)
        = .ok containers := by
  rw [← jobs_mapM hnumbers]
  exact fillSlots_all (mem_numbers hnumbers)

/-- `process` returns the containers of its drafts in their order, and fails when one of
them fails. -/
theorem process_ok_iff {drafts : List PageDraft}
    (hnumbers : drafts.map PageDraft.number = List.range drafts.length)
    {containers : List DocumentContainer} :
    processor.process source drafts = .ok containers
      ↔ drafts.mapM (fun draft => processor.draftContainer (rasterOf source draft.number) draft)
        = .ok containers := by
  have hjobs : processor.JobOf source (processor.jobs source drafts) drafts := jobs_of hnumbers
  have hwaiting := fun draft (h : draft ∈ drafts.filter (fun draft => draft.route = .ocr)) =>
    hjobs draft (List.mem_of_mem_filter h)
  have hroutes : ∀ draft ∈ drafts.filter (fun draft => draft.route = .ocr),
      draft.route = .ocr := fun draft h => of_decide_eq_true (List.mem_filter.mp h).2
  rw [← fillPages_all hnumbers, fillPages, fillSlots_append, bind_assoc, process, bind_eq_ok,
    bind_eq_ok]
  simp only [Prod.exists, placeDrafts_ok_iff hjobs, ocrNumbers]
  constructor
  · rintro ⟨pages, _, ⟨hplaced, rfl⟩, h⟩
    refine ⟨pages, hplaced, ?_⟩
    revert hwaiting hroutes h
    cases drafts.filter (fun draft => draft.route = .ocr) with
    | nil => exact fun _ _ h => h
    | cons draft rest =>
      intro hwaiting hroutes h
      cases hbackend : processor.backend with
      | none =>
        rw [hbackend] at h
        cases h
      | some backend =>
        rw [hbackend] at h
        dsimp only at h
        rw [← bind_assoc] at h
        obtain ⟨filled, hfilled, hcompleted⟩ := (bind_eq_ok _ _ _).mp h
        rw [submitDrafts_ok_iff hbackend hwaiting hroutes (List.forall_mem_nil _)] at hfilled
        exact (bind_eq_ok _ _ _).mpr ⟨filled, hfilled, hcompleted⟩
  · rintro ⟨pages, hplaced, h⟩
    refine ⟨pages, _, ⟨hplaced, rfl⟩, ?_⟩
    revert hwaiting hroutes h
    cases drafts.filter (fun draft => draft.route = .ocr) with
    | nil => exact fun _ _ h => h
    | cons draft rest =>
      intro hwaiting hroutes h
      obtain ⟨filled, hfilled, hcompleted⟩ := (bind_eq_ok _ _ _).mp h
      cases hbackend : processor.backend with
      | none =>
        -- without a backend the first of the jobs fails
        obtain ⟨hall, _⟩ := fillSlots_ok_iff.mp hfilled
        obtain ⟨_, container, hcontainer⟩ := hall draft.number (by simp)
        rw [hwaiting draft List.mem_cons_self, draftContainer,
          hroutes draft List.mem_cons_self] at hcontainer
        dsimp only at hcontainer
        rw [readRaster, hbackend] at hcontainer
        cases hcontainer
      | some backend =>
        dsimp only
        rw [← bind_assoc]
        refine (bind_eq_ok _ _ _).mpr ⟨filled, ?_, hcompleted⟩
        exact (submitDrafts_ok_iff hbackend hwaiting hroutes (List.forall_mem_nil _)).mpr hfilled

end Order

end PdfOcrProcessor

end ConferWorker
