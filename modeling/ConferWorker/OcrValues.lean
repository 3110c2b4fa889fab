import ConferWorker.OcrInterleavings

/-! Whatever the order in which the jobs end, the main thread returns what one page after the
other gives. -/
namespace ConferWorker

open PdfOcrProcessor

/-- The main thread is in one of its loops. -/
def OcrPc.Working : OcrPc → Prop
  | .submitting | .checking | .draining => True
  | .closing _ | .returned _ | .raised _ => False

/-- The main thread has left the loop over the drafts, or both loops, without an error. -/
def OcrPc.SubmittedAll : OcrPc → Prop
  | .draining | .closing none | .returned _ => True
  | .submitting | .checking | .closing (some _) | .raised _ => False

def OcrPc.ResolvedAll : OcrPc → Prop
  | .closing none | .returned _ => True
  | .submitting | .checking | .draining | .closing (some _) | .raised _ => False

namespace OcrState

/-- The containers that the main thread is bound to return, by the jobs that are left. -/
def Gives (job : ℕ → Except PythonError DocumentContainer) (s : OcrState)
    (containers : List DocumentContainer) : Prop :=
  match s.pc with
  | .submitting | .checking | .draining | .closing none =>
    (fillPages job s.pages (s.pending.map PendingOcr.pageNumber++s.waiting.map PageDraft.number)
      >>= completedPages) = .ok containers
  | .closing (some _) | .raised _ => False
  | .returned result => result = containers

structure Values (processor : PdfOcrProcessor) (backend : OcrBackend) (source : List PdfPage)
    (drafts : List PageDraft) (s : OcrState) : Prop where
  queued : s.waiting <:+ drafts.filter (fun draft => draft.route = .ocr)
  awaited : ∀ item ∈ s.pending, ∃ image, s.images[item.future]? = some image
    ∧ processor.PendingOf (processor.jobs source drafts)
      ⟨item.pageNumber, item.pageWidth, item.pageHeight, backend.extract image⟩
  honest : s.pc.Working → ∀ (k : ℕ) (image : RasterImage) (outcome : Except PythonError (List TextBlock)),
    s.images[k]? = some image → s.outcomeOf k = some outcome → outcome = backend.extract image
  order : (∀ error, s.pc ≠ .raised error) →
    s.resolved++s.pending.map PendingOcr.pageNumber++s.waiting.map PageDraft.number
      = ocrNumbers drafts
  submittedAll : s.pc.SubmittedAll → s.waiting = []
  resolvedAll : s.pc.ResolvedAll → s.pending = []
  gives : ∀ containers, s.Gives (processor.jobs source drafts) containers
    ↔ drafts.mapM (fun draft => processor.draftContainer (rasterOf source draft.number) draft)
      = .ok containers

section Steps

variable {processor : PdfOcrProcessor} {backend : OcrBackend} {source : List PdfPage}
  {drafts : List PageDraft} {concurrency : ℕ} {s s' : OcrState}

theorem gives_working {job : ℕ → Except PythonError DocumentContainer} (hpc : s.pc.Working)
    (containers : List DocumentContainer) :
    s.Gives job containers
      ↔ (fillPages job s.pages
          (s.pending.map PendingOcr.pageNumber++s.waiting.map PageDraft.number) >>= completedPages)
        = .ok containers := by
  unfold Gives
  cases hcase : s.pc with
  | submitting | checking | draining => rfl
  | closing error | returned result | raised error =>
    rw [hcase] at hpc
    exact hpc.elim

/-- A job that fails cannot be done. -/
theorem not_filled {job : ℕ → Except PythonError DocumentContainer} {i : ℕ} {error : PythonError}
    (hjob : job i = .error error) {numbers : List ℕ} (hi : i ∈ numbers)
    {pages : List (Option DocumentContainer)} {containers : List DocumentContainer} :
    ¬(fillPages job pages numbers >>= completedPages) = .ok containers := by
  intro h
  obtain ⟨filled, hfilled, _⟩ := (bind_eq_ok _ _ _).mp h
  obtain ⟨_, container, hcontainer⟩ := (fillSlots_ok_iff.mp hfilled).1 i hi
  rw [hjob] at hcontainer
  cases hcontainer

/-- What awaits its result does the job of its page. -/
theorem Values.resolve_eq (h : Values processor backend source drafts s) {next : OcrPc}
    (hnext : Awaits s.pc next) {item : PendingOcr ℕ} {pending : List (PendingOcr ℕ)}
    (hpending : s.pending = item :: pending) {outcome : Except PythonError (List TextBlock)}
    (houtcome : s.outcomeOf item.future = some outcome) :
    PdfOcrProcessor.resolve processor.tables s.pages
        ⟨item.pageNumber, item.pageWidth, item.pageHeight, outcome⟩
      = processor.jobs source drafts item.pageNumber >>= setPage s.pages item.pageNumber := by
  obtain ⟨image, himage, hitem⟩ := h.awaited item (by rw [hpending]; exact List.mem_cons_self)
  have hworking : s.pc.Working := by
    cases hpc : s.pc <;> rw [hpc] at hnext <;> cases hnext <;> trivial
  rw [h.honest hworking _ _ _ himage houtcome]
  exact PdfOcrProcessor.resolve_eq hitem

/-- The main thread goes on elsewhere, with the same pages and jobs. -/
theorem Values.withPc (h : Values processor backend source drafts s) (hpc : s.pc.Working)
    {pc : OcrPc} (hnext : pc.Working ∨ pc = .closing none)
    (hsubmitted : pc.SubmittedAll → s.waiting = []) (hresolved : pc.ResolvedAll → s.pending = []) :
    Values processor backend source drafts { s with pc := pc } := by
  refine ⟨h.queued, h.awaited, fun _ => h.honest hpc, fun _ => h.order ?_, hsubmitted, hresolved,
    fun containers => ?_⟩
  · intro error herror
    rw [herror] at hpc
    exact hpc
  · rw [← h.gives containers, gives_working hpc]
    rcases hnext with hworking | rfl
    · exact gives_working hworking containers
    · rfl

/-- The main thread goes to `shutdown` with the error of a job. -/
theorem Values.failed (h : Values processor backend source drafts s) (hpc : s.pc.Working)
    {error : PythonError} (hnever : ∀ containers,
      ¬(fillPages (processor.jobs source drafts) s.pages
        (s.pending.map PendingOcr.pageNumber++s.waiting.map PageDraft.number) >>= completedPages)
          = .ok containers) {pending : List (PendingOcr ℕ)}
    (hpending : ∀ item ∈ pending, item ∈ s.pending) {resolved : List ℕ}
    (horder : resolved++pending.map PendingOcr.pageNumber
      = s.resolved++s.pending.map PendingOcr.pageNumber) :
    Values processor backend source drafts { s with
      pc := .closing (some error), pending := pending, resolved := resolved } := by
  refine ⟨h.queued, fun item hitem => h.awaited item (hpending item hitem), False.elim,
    fun _ => ?_, False.elim, False.elim, fun containers => ?_⟩
  · dsimp only
    rw [horder]
    refine h.order (fun error herror => ?_)
    rw [herror] at hpc
    exact hpc
  · rw [← h.gives containers, gives_working hpc]
    exact iff_of_false id (hnever containers)

/-- One `_resolve` that returns. -/
theorem Values.called (h : Values processor backend source drafts s) {next : OcrPc}
    (hnext : Awaits s.pc next) {item : PendingOcr ℕ} {pending : List (PendingOcr ℕ)}
    (hpending : s.pending = item :: pending) {outcome : Except PythonError (List TextBlock)}
    (houtcome : s.outcomeOf item.future = some outcome) {pages : List (Option DocumentContainer)}
    (hresolve : PdfOcrProcessor.resolve processor.tables s.pages
      ⟨item.pageNumber, item.pageWidth, item.pageHeight, outcome⟩ = .ok pages) :
    Values processor backend source drafts { s with
      pc := next, pages := pages, pending := pending, resolved := s.resolved++[item.pageNumber] } := by
  have hworking : s.pc.Working ∧ next.Working := by
    cases hpc : s.pc <;> rw [hpc] at hnext <;> cases hnext <;> exact ⟨trivial, trivial⟩
  rw [h.resolve_eq hnext hpending houtcome] at hresolve
  refine ⟨h.queued, fun other hother => h.awaited other ?_, fun _ => h.honest hworking.1,
    fun _ => ?_, fun hall => h.submittedAll ?_, fun hall => ?_, fun containers => ?_⟩
  · rw [hpending]
    exact List.mem_cons_of_mem item hother
  · have horder := h.order (fun error herror => by rw [herror] at hworking; exact hworking.1)
    rw [hpending, List.map_cons] at horder
    rw [← horder]
    simp only [List.append_assoc, List.nil_append, List.cons_append]
  · cases hpc : s.pc <;> rw [hpc] at hnext <;> cases hnext <;> exact hall
  · cases hpc : s.pc <;> rw [hpc] at hnext <;> cases hnext <;> exact hall.elim
  · rw [← h.gives containers, gives_working hworking.1, gives_working hworking.2, hpending,
      List.map_cons, List.cons_append, fillPages_cons, ← bind_assoc (processor.jobs source drafts _),
      hresolve, ok_bind]

/-- One `executor.submit`. -/
theorem Values.submit (hbackend : processor.backend = some backend)
    (hjobs : processor.JobOf source (processor.jobs source drafts) drafts)
    (h : Values processor backend source drafts s) (hpc : s.pc = .submitting) {draft : PageDraft}
    {waiting : List PageDraft} (hwaiting : s.waiting = draft :: waiting) {image : RasterImage}
    (himage : rasterOf source draft.number = .ok image) :
    Values processor backend source drafts { s with
      pc := .checking
      waiting := waiting
      pending := s.pending++[⟨draft.number, draft.width, draft.height, s.jobs.length⟩]
      jobs := s.jobs++[⟨image, none⟩] } := by
  have hworking : s.pc.Working := by rw [hpc]; trivial
  have hqueued := h.queued
  rw [hwaiting] at hqueued
  obtain ⟨hmem, hroute⟩ := List.mem_filter.mp (hqueued.subset List.mem_cons_self)
  -- a job is submitted at the end, so the futures of the others stay what they were
  have himages : (s.jobs++[(⟨image, none⟩ : OcrJob)]).map OcrJob.image = s.images++[image] :=
    List.map_append
  have hlength : s.images.length = s.jobs.length := List.length_map _
  refine ⟨(List.suffix_cons draft waiting).trans hqueued, ?_, fun _ => ?_, fun _ => ?_, False.elim,
    False.elim, fun containers => ?_⟩
  · refine List.forall_mem_append.mpr ⟨fun item hitem => ?_, List.forall_mem_singleton.mpr ?_⟩
    · obtain ⟨other, hother, hpending⟩ := h.awaited item hitem
      refine ⟨other, ?_, hpending⟩
      rw [images, himages, List.getElem?_append_left (List.getElem?_eq_some_iff.mp hother).1]
      exact hother
    · refine ⟨image, ?_, submitted_pendingOf hbackend (of_decide_eq_true hroute)
        (hjobs draft hmem) himage⟩
      dsimp only
      rw [images, himages, ← hlength, List.getElem?_concat_length]
  · intro k other outcome hother houtcome
    rw [images, himages] at hother
    rcases Nat.lt_or_ge k s.jobs.length with hold | hnew
    · rw [List.getElem?_append_left (by omega)] at hother
      rw [outcomeOf, List.getElem?_append_left hold] at houtcome
      exact h.honest hworking k other outcome hother houtcome
    · -- the new job has not come to an end
      rw [outcomeOf, List.getElem?_append_right hnew] at houtcome
      obtain ⟨job, hjob, hended⟩ := Option.bind_eq_some_iff.mp houtcome
      have hlast := List.mem_singleton.mp (List.mem_of_getElem? hjob)
      rw [hlast] at hended
      cases hended
  · have horder := h.order (fun error herror => by rw [herror] at hworking; exact hworking)
    rw [hwaiting] at horder
    rw [← horder]
    simp only [List.map_append, List.map_cons, List.map_nil, List.append_assoc,
      List.singleton_append]
  · rw [← h.gives containers, gives_working hworking, hwaiting]
    show (fillPages _ _ _ >>= completedPages) = .ok containers ↔ _
    simp only [List.map_append, List.map_cons, List.map_nil, List.append_assoc,
      List.singleton_append]

/-- What the main thread does behind `shutdown`. -/
theorem Values.leave (h : Values processor backend source drafts s) {error : Option PythonError}
    (hpc : s.pc = .closing error) : Values processor backend source drafts (s.leave error) := by
  have hgives := h.gives
  have horder := h.order (fun error herror => by rw [herror] at hpc; cases hpc)
  unfold Gives at hgives
  rw [hpc] at hgives
  unfold OcrState.leave
  cases error with
  | some error =>
    exact ⟨h.queued, h.awaited, False.elim, fun hnot => absurd rfl (hnot error), False.elim,
      False.elim, hgives⟩
  | none =>
    have hwaiting := h.submittedAll (by rw [hpc]; trivial)
    have hpending := h.resolvedAll (by rw [hpc]; trivial)
    simp only [hwaiting, hpending, List.map_nil, List.append_nil] at hgives
    have hcompleted (containers : List DocumentContainer) :
        completedPages s.pages = .ok containers ↔ _ := hgives containers
    dsimp only
    cases hpages : completedPages s.pages with
    | ok result =>
      refine ⟨h.queued, h.awaited, False.elim, fun _ => horder, fun _ => hwaiting,
        fun _ => hpending, fun containers => ?_⟩
      rw [← hcompleted, hpages, Except.ok.injEq]
      rfl
    | error error =>
      refine ⟨h.queued, h.awaited, False.elim, fun hnot => absurd rfl (hnot error), False.elim,
        False.elim, fun containers => ?_⟩
      rw [← hcompleted, hpages]
      exact iff_of_false id (fun hok => by cases hok)

theorem Values.main (hbackend : processor.backend = some backend)
    (hjobs : processor.JobOf source (processor.jobs source drafts) drafts)
    (hconcurrency : 0 < concurrency) (h : Values processor backend source drafts s)
    (hstep : MainCase processor.tables source concurrency s s') :
    Values processor backend source drafts s' := by
  cases hstep with
  | allSubmitted hpc hwaiting =>
    exact h.withPc (by rw [hpc]; trivial) (.inl trivial) (fun _ => hwaiting) False.elim
  | submitted draft waiting image hpc hwaiting himage =>
    exact h.submit hbackend hjobs hpc hwaiting himage
  | notRastered draft waiting error hpc hwaiting himage =>
    have hmem : draft ∈ drafts.filter (fun draft => draft.route = .ocr) :=
      h.queued.subset (by rw [hwaiting]; exact List.mem_cons_self)
    obtain ⟨hdraft, hroute⟩ := List.mem_filter.mp hmem
    -- a page that cannot be rastered fails in the sequential run as well
    have hfails : processor.jobs source drafts draft.number = .error error := by
      rw [hjobs draft hdraft, draftContainer, of_decide_eq_true hroute]
      dsimp only
      rw [readRaster, hbackend, himage]
      rfl
    refine h.failed (by rw [hpc]; trivial) (fun containers => not_filled hfails ?_)
      (fun item hitem => hitem) rfl
    rw [hwaiting]
    exact List.mem_append_right _ List.mem_cons_self
  | notFull hpc hroom =>
    exact h.withPc (by rw [hpc]; trivial) (.inl trivial) False.elim False.elim
  | noneLeft hpc hpending =>
    exact h.withPc (by rw [hpc]; trivial) (.inr rfl)
      (fun _ => h.submittedAll (by rw [hpc]; trivial)) (fun _ => hpending)
  | emptyDeque error hpc hpending hroom => omega
  | resolved item pending outcome pages next hnext hpending houtcome hresolve =>
    exact h.called hnext hpending houtcome hresolve
  | notResolved item pending outcome error next hnext hpending houtcome hresolve =>
    have hworking : s.pc.Working := by
      cases hpc : s.pc <;> rw [hpc] at hnext <;> cases hnext <;> trivial
    rw [h.resolve_eq hnext hpending houtcome] at hresolve
    refine h.failed hworking (fun containers => ?_) (fun other hother => ?_) ?_
    · rw [hpending, List.map_cons, List.cons_append, fillPages_cons,
        ← bind_assoc (processor.jobs source drafts _), hresolve]
      intro hok
      cases hok
    · rw [hpending]
      exact List.mem_cons_of_mem item hother
    · rw [hpending, List.map_cons, List.append_assoc]
      rfl
  | left error hpc hended => exact h.leave hpc

/-- A thread of the pool ends a job, or the job is cancelled when its result counts no more. -/
theorem Values.settle (h : Values processor backend source drafts s) {k : ℕ} {ocrJob : OcrJob}
    (hjob : s.jobs[k]? = some ocrJob) {outcome : Except PythonError (List TextBlock)}
    (houtcome : s.pc.Working → outcome = backend.extract ocrJob.image) :
    Values processor backend source drafts (s.settle k ocrJob outcome) := by
  have himages := settle_images outcome hjob
  refine ⟨h.queued, fun item hitem => ?_, fun hworking i image found himage hfound => ?_, h.order,
    h.submittedAll, h.resolvedAll, h.gives⟩
  · rw [himages]
    exact h.awaited item hitem
  · rw [himages] at himage
    rw [settle_outcomeOf outcome hjob] at hfound
    split_ifs at hfound with heq
    · subst heq
      rw [images, List.getElem?_map, hjob, Option.map_some, Option.some.injEq] at himage
      rw [← Option.some.inj hfound, houtcome hworking, himage]
    · exact h.honest hworking i image found himage hfound

/-- The threads before the first job. -/
theorem Values.start (hnumbers : drafts.map PageDraft.number = List.range drafts.length) :
    Values processor backend source drafts (OcrState.start drafts) := by
  have hjobs : processor.JobOf source (processor.jobs source drafts) drafts := jobs_of hnumbers
  have hall (containers : List DocumentContainer) :
      (fillPages (processor.jobs source drafts) (List.replicate drafts.length none)
          (placedNumbers drafts++ocrNumbers drafts) >>= completedPages) = .ok containers
        ↔ drafts.mapM (fun draft => processor.draftContainer (rasterOf source draft.number) draft)
          = .ok containers := fillPages_all hnumbers
  unfold OcrState.start
  cases hplace : placeDrafts (List.replicate drafts.length none) drafts with
  | error error =>
    refine ⟨List.nil_suffix, List.forall_mem_nil _, False.elim, fun hnot => absurd rfl (hnot error),
      False.elim, False.elim, fun containers => iff_of_false id fun hok => ?_⟩
    -- the pages without OCR are among the pages
    rw [← hall, fillPages, fillSlots_append, bind_assoc] at hok
    obtain ⟨pages, hpages, _⟩ := (bind_eq_ok _ _ _).mp hok
    have hplaced := (placeDrafts_ok_iff hjobs).mpr ⟨hpages, rfl⟩
    rw [hplace] at hplaced
    cases hplaced
  | ok placed =>
    obtain ⟨pages, waiting⟩ := placed
    obtain ⟨hplaced, hfilter⟩ := (placeDrafts_ok_iff hjobs).mp hplace
    have hgives (containers : List DocumentContainer) :
        (fillPages (processor.jobs source drafts) pages (waiting.map PageDraft.number)
          >>= completedPages) = .ok containers
        ↔ drafts.mapM (fun draft => processor.draftContainer (rasterOf source draft.number) draft)
          = .ok containers := by
      rw [← hall, fillPages, fillSlots_append, bind_assoc, ← fillPages, hplaced, ok_bind, ocrNumbers,
        hfilter]
    cases waiting with
    | nil =>
      refine ⟨List.nil_suffix, List.forall_mem_nil _, False.elim, fun _ => ?_, fun _ => rfl,
        fun _ => rfl, hgives⟩
      rw [ocrNumbers, hfilter]
      rfl
    | cons draft waiting =>
      refine ⟨by rw [hfilter], List.forall_mem_nil _, fun _ k image outcome himage => ?_,
        fun _ => ?_, False.elim, False.elim, hgives⟩
      · cases himage
      · rw [ocrNumbers, hfilter]
        rfl

end Steps

end OcrState

end ConferWorker
