import Mathlib.Logic.Relation
import ConferWorker.SequentialPdf

/-! `PdfOcrProcessor.process` with its threads: the main thread submits jobs and awaits their
results, and the threads of the pool end the submitted jobs in any order. -/
namespace ConferWorker

/-- A job of the executor; `outcome` is what its future holds once it is done. -/
structure OcrJob where
  image : RasterImage
  outcome : Option (Except PythonError (List TextBlock))

/-- Where the main thread is: at the head of the loop over the drafts, behind `append`, in the
loop over the items left, in `shutdown`, or out of `process`. -/
inductive OcrPc
  | submitting | checking | draining
  | closing (error : Option PythonError)
  | returned (containers : List DocumentContainer)
  | raised (error : PythonError)

/-- A future is the place of its job among the jobs submitted so far; `resolved` holds the
page numbers for which `_resolve` was called. -/
structure OcrState where
  pc : OcrPc
  pages : List (Option DocumentContainer)
  waiting : List PageDraft
  pending : List (PendingOcr ℕ)
  jobs : List OcrJob
  resolved : List ℕ

namespace OcrState

open PdfOcrProcessor

/-- `future.result()`, `none` while the job runs. -/
def outcomeOf (s : OcrState) (future : ℕ) : Option (Except PythonError (List TextBlock)) :=
  s.jobs[future]?.bind OcrJob.outcome

/-- The jobs that have not come to an end. -/
def outstanding (s : OcrState) : ℕ := s.jobs.countP (fun job => job.outcome.isNone)

/-- `pending.popleft()` and `_resolve`, before the main thread goes on at `next`. -/
def resolveFirst (tables : UnicodeTables) (next : OcrPc) (s : OcrState) : Option OcrState :=
  match s.pending with
  | [] => some { s with pc := .closing (some ⟨.other (ofString "IndexError"),
      ofString "pop from an empty deque"⟩) }
  | item :: pending =>
    (s.outcomeOf item.future).map (fun outcome =>
      let called := { s with pending := pending, resolved := s.resolved++[item.pageNumber] }
      match PdfOcrProcessor.resolve tables s.pages
          ⟨item.pageNumber, item.pageWidth, item.pageHeight, outcome⟩ with
      | .ok pages => { called with pages := pages, pc := next }
      | .error error => { called with pc := .closing (some error) })

/-- `executor.submit` for the first of the waiting drafts. -/
def submitFirst (source : List PdfPage) (draft : PageDraft) (waiting : List PageDraft)
    (s : OcrState) : OcrState :=
  match rasterOf source draft.number with
  | .ok image => { s with
      pc := .checking
      waiting := waiting
      pending := s.pending++[⟨draft.number, draft.width, draft.height, s.jobs.length⟩]
      jobs := s.jobs++[⟨image, none⟩] }
  | .error error => { s with pc := .closing (some error) }

/-- What `process` does behind `shutdown`. -/
def leave (error : Option PythonError) (s : OcrState) : OcrState :=
  match error with
  | some error => { s with pc := .raised error }
  | none =>
    match completedPages s.pages with
    | .ok containers => { s with pc := .returned containers }
    | .error error => { s with pc := .raised error }

/-- The next step of the main thread, `none` when it is out of `process` or has to wait. -/
def mainStep (tables : UnicodeTables) (source : List PdfPage) (concurrency : ℕ) (s : OcrState) :
    Option OcrState :=
  match s.pc with
  | .submitting =>
    match s.waiting with
    | [] => some { s with pc := .draining }
    | draft :: waiting => some (s.submitFirst source draft waiting)
  | .checking =>
    if concurrency ≤ s.pending.length then s.resolveFirst tables .submitting
    else some { s with pc := .submitting }
  | .draining =>
    if s.pending = [] then some { s with pc := .closing none }
    else s.resolveFirst tables .draining
  | .closing error => if s.outstanding = 0 then some (s.leave error) else none
  | .returned _ | .raised _ => none

/-- The threads before the first job, or without any job: the first loop of `process` raised, or
no page needs OCR. -/
def start (drafts : List PageDraft) : OcrState :=
  match placeDrafts (List.replicate drafts.length none) drafts with
  | .error error => ⟨.raised error, [], [], [], [], []⟩
  | .ok (pages, []) => ⟨.closing none, pages, [], [], [], []⟩
  | .ok (pages, draft :: waiting) => ⟨.submitting, pages, draft :: waiting, [], [], []⟩

end OcrState

/-- The future `k` of the state holds `outcome` now. -/
def OcrState.settle (s : OcrState) (k : ℕ) (job : OcrJob)
    (outcome : Except PythonError (List TextBlock)) : OcrState :=
  { s with jobs := s.jobs.set k { job with outcome := some outcome } }

/-- A step of the main thread, or of a thread of the pool that ends one of the jobs. Jobs that
have not begun are cancelled once the main thread is in `shutdown`. -/
inductive OcrStep (tables : UnicodeTables) (backend : OcrBackend) (source : List PdfPage)
    (concurrency : ℕ) : OcrState → OcrState → Prop
  | main {s s' : OcrState} (h : s.mainStep tables source concurrency = some s') :
    OcrStep tables backend source concurrency s s'
  | worker {s : OcrState} {k : ℕ} {job : OcrJob} (hjob : s.jobs[k]? = some job)
    (hopen : job.outcome = none) :
    OcrStep tables backend source concurrency s (s.settle k job (backend.extract job.image))
  | cancel {s : OcrState} {k : ℕ} {job : OcrJob} {error : Option PythonError}
    (hjob : s.jobs[k]? = some job) (hopen : job.outcome = none) (hpc : s.pc = .closing error) :
    OcrStep tables backend source concurrency s (s.settle k job
      (.error ⟨.other (ofString "CancelledError"), []⟩))

namespace OcrState

open PdfOcrProcessor

/-- Where the main thread goes on behind `_resolve`. -/
inductive Awaits : OcrPc → OcrPc → Prop
  | full : Awaits .checking .submitting
  | left : Awaits .draining .draining

/-- What a step of the main thread can be. -/
inductive MainCase (tables : UnicodeTables) (source : List PdfPage) (concurrency : ℕ)
    (s : OcrState) : OcrState → Prop
  | allSubmitted (hpc : s.pc = .submitting) (hwaiting : s.waiting = []) :
    MainCase tables source concurrency s { s with pc := .draining }
  | submitted (draft : PageDraft) (waiting : List PageDraft) (image : RasterImage)
    (hpc : s.pc = .submitting) (hwaiting : s.waiting = draft :: waiting)
    (himage : rasterOf source draft.number = .ok image) :
    MainCase tables source concurrency s { s with
      pc := .checking
      waiting := waiting
      pending := s.pending++[⟨draft.number, draft.width, draft.height, s.jobs.length⟩]
      jobs := s.jobs++[⟨image, none⟩] }
  | notRastered (draft : PageDraft) (waiting : List PageDraft) (error : PythonError)
    (hpc : s.pc = .submitting) (hwaiting : s.waiting = draft :: waiting)
    (himage : rasterOf source draft.number = .error error) :
    MainCase tables source concurrency s { s with pc := .closing (some error) }
  | notFull (hpc : s.pc = .checking) (hroom : s.pending.length < concurrency) :
    MainCase tables source concurrency s { s with pc := .submitting }
  | noneLeft (hpc : s.pc = .draining) (hpending : s.pending = []) :
    MainCase tables source concurrency s { s with pc := .closing none }
  | emptyDeque (error : PythonError) (hpc : s.pc = .checking) (hpending : s.pending = [])
    (hroom : concurrency = 0) :
    MainCase tables source concurrency s { s with pc := .closing (some error) }
  | resolved (item : PendingOcr ℕ) (pending : List (PendingOcr ℕ))
    (outcome : Except PythonError (List TextBlock)) (pages : List (Option DocumentContainer))
    (next : OcrPc) (hnext : Awaits s.pc next) (hpending : s.pending = item :: pending)
    (houtcome : s.outcomeOf item.future = some outcome)
    (hresolve : PdfOcrProcessor.resolve tables s.pages
      ⟨item.pageNumber, item.pageWidth, item.pageHeight, outcome⟩ = .ok pages) :
    MainCase tables source concurrency s { s with
      pc := next
      pages := pages
      pending := pending
      resolved := s.resolved++[item.pageNumber] }
  | notResolved (item : PendingOcr ℕ) (pending : List (PendingOcr ℕ))
    (outcome : Except PythonError (List TextBlock)) (error : PythonError)
    (next : OcrPc) (hnext : Awaits s.pc next) (hpending : s.pending = item :: pending)
    (houtcome : s.outcomeOf item.future = some outcome)
    (hresolve : PdfOcrProcessor.resolve tables s.pages
      ⟨item.pageNumber, item.pageWidth, item.pageHeight, outcome⟩ = .error error) :
    MainCase tables source concurrency s { s with
      pc := .closing (some error)
      pending := pending
      resolved := s.resolved++[item.pageNumber] }
  | left (error : Option PythonError) (hpc : s.pc = .closing error) (hended : s.outstanding = 0) :
    MainCase tables source concurrency s (s.leave error)

section Cases

variable {tables : UnicodeTables} {source : List PdfPage} {concurrency : ℕ} {s s' : OcrState}

/-- A step that awaits the first of the pending jobs. -/
theorem resolveFirst_cases {next : OcrPc} (hnext : Awaits s.pc next)
    (h : s.resolveFirst tables next = some s') {item : PendingOcr ℕ}
    {pending : List (PendingOcr ℕ)} (hpending : s.pending = item :: pending) :
    MainCase tables source concurrency s s' := by
  unfold resolveFirst at h
  rw [hpending, Option.map_eq_some_iff] at h
  obtain ⟨outcome, houtcome, h⟩ := h
  dsimp only at h
  cases hresolve : PdfOcrProcessor.resolve tables s.pages
      ⟨item.pageNumber, item.pageWidth, item.pageHeight, outcome⟩ with
  | ok pages =>
    rw [hresolve] at h
    rw [← h]
    exact .resolved item pending outcome pages next hnext hpending houtcome hresolve
  | error error =>
    rw [hresolve] at h
    rw [← h]
    exact .notResolved item pending outcome error next hnext hpending houtcome hresolve

theorem mainStep_cases (h : s.mainStep tables source concurrency = some s') :
    MainCase tables source concurrency s s' := by
  unfold mainStep at h
  cases hpc : s.pc with
  | submitting =>
    rw [hpc] at h
    cases hwaiting : s.waiting with
    | nil =>
      rw [hwaiting] at h
      rw [← Option.some.inj h, ← hwaiting]
      exact .allSubmitted hpc hwaiting
    | cons draft waiting =>
      rw [hwaiting] at h
      rw [← Option.some.inj h, submitFirst]
      cases himage : rasterOf source draft.number with
      | ok image => exact .submitted draft waiting image hpc hwaiting himage
      | error error => exact .notRastered draft waiting error hpc hwaiting himage
  | checking =>
    rw [hpc] at h
    dsimp only at h
    split_ifs at h with hfull
    · cases hpending : s.pending with
      | nil =>
        rw [resolveFirst, hpending] at h
        rw [← Option.some.inj h, ← hpending]
        rw [hpending] at hfull
        exact .emptyDeque _ hpc hpending (Nat.le_zero.mp hfull)
      | cons item pending => exact resolveFirst_cases (hpc ▸ .full) h hpending
    · rw [← Option.some.inj h]
      exact .notFull hpc (not_le.mp hfull)
  | draining =>
    rw [hpc] at h
    dsimp only at h
    split_ifs at h with hempty
    · rw [← Option.some.inj h]
      exact .noneLeft hpc hempty
    · obtain ⟨item, pending, hpending⟩ := List.exists_cons_of_ne_nil hempty
      exact resolveFirst_cases (hpc ▸ .left) h hpending
  | closing error =>
    rw [hpc] at h
    dsimp only at h
    split_ifs at h with hended
    rw [← Option.some.inj h]
    exact .left error hpc hended
  | returned containers | raised error =>
    rw [hpc] at h
    cases h

/-- Leaving changes the place of the main thread only. -/
theorem leave_eq (error : Option PythonError) (s : OcrState) :
    s.leave error = { s with pc := (s.leave error).pc } := by
  unfold leave
  cases error with
  | some error => rfl
  | none => cases completedPages s.pages <;> rfl

end Cases

end OcrState

end ConferWorker
