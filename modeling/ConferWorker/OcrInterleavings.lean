import ConferWorker.OcrThreads

/-! What holds in every state that the main thread and the threads of the pool reach, in
whatever order the jobs end. -/
namespace ConferWorker

open PdfOcrProcessor

namespace OcrState

/-- The images that were handed to the executor. -/
def images (s : OcrState) : List RasterImage := s.jobs.map OcrJob.image

/-- How many steps there can still be: `pcRemaining` of the main thread at one place. -/
def pcRemaining : OcrPc → ℕ
  | .checking => 4
  | .submitting => 3
  | .draining => 2
  | .closing _ => 1
  | .returned _ | .raised _ => 0

def remaining (s : OcrState) : ℕ :=
  5*s.waiting.length+2*s.pending.length+s.outstanding+pcRemaining s.pc

def finished (s : OcrState) : Prop :=
  (∃ containers, s.pc = .returned containers) ∨ ∃ error, s.pc = .raised error

section Settle

variable {s : OcrState} {k : ℕ} {job : OcrJob} (outcome : Except PythonError (List TextBlock))

theorem settle_images (hjob : s.jobs[k]? = some job) : (s.settle k job outcome).images = s.images := by
  apply List.ext_getElem?
  intro i
  unfold images settle
  rw [List.getElem?_map, List.getElem?_map, List.getElem?_set]
  split_ifs with heq hin
  · subst heq
    rw [hjob]
    rfl
  · subst heq
    rw [List.getElem?_eq_none (not_lt.mp hin)]
  · rfl

theorem settle_outcomeOf (hjob : s.jobs[k]? = some job) (i : ℕ) :
    (s.settle k job outcome).outcomeOf i = if k = i then some outcome else s.outcomeOf i := by
  have hin : k < s.jobs.length := (List.getElem?_eq_some_iff.mp hjob).1
  unfold outcomeOf settle
  rw [List.getElem?_set, if_pos hin]
  split_ifs <;> rfl

/-- A job comes to an end once. -/
theorem settle_outstanding (hjob : s.jobs[k]? = some job) (hopen : job.outcome = none) :
    (s.settle k job outcome).outstanding+1 = s.outstanding := by
  obtain ⟨hin, hget⟩ := List.getElem?_eq_some_iff.mp hjob
  have hsplit : s.jobs = s.jobs.take k++job :: s.jobs.drop (k+1) := by
    rw [← hget, List.getElem_cons_drop, List.take_append_drop]
  have hset : (s.settle k job outcome).jobs
      = s.jobs.take k++{ job with outcome := some outcome } :: s.jobs.drop (k+1) :=
    List.set_eq_take_append_cons_drop.trans (if_pos hin)
  have hbefore : s.outstanding = (s.jobs.take k).countP (fun job => job.outcome.isNone)
      +((s.jobs.drop (k+1)).countP (fun job => job.outcome.isNone)+1) := by
    conv_lhs => rw [outstanding, hsplit]
    rw [List.countP_append, List.countP_cons_of_pos (by rw [hopen]; rfl)]
  rw [outstanding, hset, List.countP_append, List.countP_cons_of_neg Bool.false_ne_true,
    hbefore]
  omega

end Settle

/-- The jobs are numbered in the order of their submission; those of the pages behind
`_resolve` have come to an end, and the others are pending. -/
structure Counts (concurrency : ℕ) (s : OcrState) : Prop where
  bound : s.pending.length ≤ concurrency
  room : s.pc = .submitting → s.pending.length < concurrency
  count : s.jobs.length = s.resolved.length+s.pending.length
  futures : s.pending.map PendingOcr.future = List.range' s.resolved.length s.pending.length
  done : ∀ k < s.resolved.length, (s.outcomeOf k).isSome

section Counts

variable {tables : UnicodeTables} {source : List PdfPage} {concurrency : ℕ} {s s' : OcrState}

theorem Counts.withPc (h : Counts concurrency s) {pc : OcrPc}
    (hroom : pc = .submitting → s.pending.length < concurrency) :
    Counts concurrency { s with pc := pc } :=
  ⟨h.bound, hroom, h.count, h.futures, h.done⟩

/-- One `_resolve`. -/
theorem Counts.called (h : Counts concurrency s) {item : PendingOcr ℕ}
    {pending : List (PendingOcr ℕ)} (hpending : s.pending = item :: pending)
    {outcome : Except PythonError (List TextBlock)} (houtcome : s.outcomeOf item.future = some outcome)
    (pc : OcrPc) (pages : List (Option DocumentContainer)) :
    Counts concurrency { s with
      pc := pc, pages := pages, pending := pending, resolved := s.resolved++[item.pageNumber] } := by
  have hlength : s.pending.length = pending.length+1 := by rw [hpending, List.length_cons]
  have hbound := h.bound
  have hcount := h.count
  have hfutures := h.futures
  rw [hlength, hpending, List.map_cons, List.range'_succ, List.cons.injEq] at hfutures
  refine ⟨?_, ?_, ?_, ?_, ?_⟩
  · dsimp only
    omega
  · intro _
    dsimp only
    omega
  · dsimp only
    rw [List.length_append, List.length_singleton]
    omega
  · dsimp only
    rw [List.length_append, List.length_singleton]
    exact hfutures.2
  · intro k hk
    rw [List.length_append, List.length_singleton] at hk
    rcases Nat.lt_succ_iff_lt_or_eq.mp hk with hk | rfl
    · exact h.done k hk
    · show (s.outcomeOf s.resolved.length).isSome
      rw [← hfutures.1, houtcome]
      rfl

/-- One `executor.submit`. -/
theorem Counts.submit (h : Counts concurrency s) (hpc : s.pc = .submitting)
    (item : PendingOcr ℕ) (hitem : item.future = s.jobs.length) (image : RasterImage)
    (waiting : List PageDraft) :
    Counts concurrency { s with
      pc := .checking
      waiting := waiting
      pending := s.pending++[item]
      jobs := s.jobs++[⟨image, none⟩] } := by
  have hroom := h.room hpc
  have hcount := h.count
  refine ⟨?_, (fun hnot => by cases hnot), ?_, ?_, ?_⟩
  · dsimp only
    rw [List.length_append, List.length_singleton]
    omega
  · dsimp only
    rw [List.length_append, List.length_append, List.length_singleton, List.length_singleton]
    omega
  · dsimp only
    rw [List.map_append, List.map_singleton, h.futures, hitem, hcount, List.length_append,
      List.length_singleton, List.range'_1_concat]
  · intro k hk
    have hin : k < s.jobs.length := by
      dsimp only at hk
      omega
    have hdone := h.done k hk
    unfold outcomeOf at hdone ⊢
    rw [List.getElem?_append_left hin]
    exact hdone

theorem Counts.main (h : Counts concurrency s)
    (hstep : MainCase tables source concurrency s s') : Counts concurrency s' := by
  cases hstep with
  | allSubmitted hpc hwaiting => exact h.withPc (fun hpc => by cases hpc)
  | submitted draft waiting image hpc hwaiting himage => exact h.submit hpc _ rfl image waiting
  | notRastered draft waiting error hpc hwaiting himage => exact h.withPc (fun hpc => by cases hpc)
  | notFull hpc hroom => exact h.withPc (fun _ => hroom)
  | noneLeft hpc hpending => exact h.withPc (fun hpc => by cases hpc)
  | emptyDeque error hpc hpending hroom => exact h.withPc (fun hpc => by cases hpc)
  | resolved item pending outcome pages next hnext hpending houtcome hresolve =>
    exact h.called hpending houtcome next pages
  | notResolved item pending outcome error next hnext hpending houtcome hresolve =>
    exact h.called hpending houtcome (.closing (some error)) s.pages
  | left error hpc hended =>
    rw [leave_eq]
    refine h.withPc (fun hpc => ?_)
    unfold leave at hpc
    cases error with
    | some error => cases hpc
    | none =>
      dsimp only at hpc
      cases hpages : completedPages s.pages with
      | ok containers =>
        rw [hpages] at hpc
        cases hpc
      | error error =>
        rw [hpages] at hpc
        cases hpc

theorem Counts.settle (h : Counts concurrency s) {k : ℕ} {job : OcrJob}
    (hjob : s.jobs[k]? = some job) (outcome : Except PythonError (List TextBlock)) :
    Counts concurrency (s.settle k job outcome) := by
  refine ⟨h.bound, h.room, ?_, h.futures, ?_⟩
  · rw [OcrState.settle, List.length_set]
    exact h.count
  · intro i hi
    rw [settle_outcomeOf outcome hjob]
    split_ifs
    · rfl
    · exact h.done i hi

/-- Never more jobs run than there are threads. -/
theorem Counts.outstanding_le (h : Counts concurrency s) : s.outstanding ≤ concurrency := by
  have hdone : (s.jobs.take s.resolved.length).countP (fun job => job.outcome.isNone) = 0 := by
    rw [List.countP_eq_zero]
    intro job hjob
    obtain ⟨k, hk, rfl⟩ := List.getElem_of_mem hjob
    rw [List.length_take, lt_min_iff] at hk
    have hsome := h.done k hk.1
    rw [outcomeOf, List.getElem?_eq_getElem hk.2, Option.bind_some] at hsome
    rw [List.getElem_take, Option.isNone_iff_eq_none]
    intro hnone
    rw [hnone] at hsome
    cases hsome
  calc s.outstanding
      = (s.jobs.take s.resolved.length++s.jobs.drop s.resolved.length).countP
          (fun job => job.outcome.isNone) := by rw [List.take_append_drop, outstanding]
    _ = (s.jobs.drop s.resolved.length).countP (fun job => job.outcome.isNone) := by
      rw [List.countP_append, hdone, Nat.zero_add]
    _ ≤ (s.jobs.drop s.resolved.length).length := List.countP_le_length
    _ = s.pending.length := by rw [List.length_drop, h.count, Nat.add_sub_cancel_left]
    _ ≤ concurrency := h.bound

/-- Every step brings the end nearer. -/
theorem remaining_main (hstep : MainCase tables source concurrency s s') :
    s'.remaining < s.remaining := by
  unfold remaining
  -- a page that waits weighs 5, a pending one 2 and a running job 1: each step is paid for
  cases hstep with
  | allSubmitted hpc hwaiting =>
    rw [hpc]
    exact Nat.lt_succ_self _
  | submitted draft waiting image hpc hwaiting himage =>
    have hopen : (s.jobs++[(⟨image, none⟩ : OcrJob)]).countP (fun job => job.outcome.isNone)
        = s.outstanding+1 := by rw [List.countP_append]; rfl
    have hafter : ({ s with jobs := s.jobs++[⟨image, none⟩] } : OcrState).outstanding
        = s.outstanding+1 := hopen
    show 5*waiting.length+2*(s.pending++[_]).length+_+4 < _
    rw [hpc, hwaiting, List.length_append, List.length_cons]
    show 5*waiting.length+2*(s.pending.length+1)
      +({ s with jobs := s.jobs++[⟨image, none⟩] } : OcrState).outstanding+4
      < 5*(waiting.length+1)+2*s.pending.length+s.outstanding+3
    omega
  | notRastered draft waiting error hpc hwaiting himage =>
    rw [hpc]
    exact Nat.add_lt_add_left (show 1 < 3 by decide) _
  | notFull hpc hroom =>
    rw [hpc]
    exact Nat.lt_succ_self _
  | noneLeft hpc hpending =>
    rw [hpc]
    exact Nat.lt_succ_self _
  | emptyDeque error hpc hpending hroom =>
    rw [hpc]
    exact Nat.add_lt_add_left (show 1 < 4 by decide) _
  | resolved item pending outcome pages next hnext hpending houtcome hresolve =>
    rw [hpending, List.length_cons]
    show _+2*pending.length+s.outstanding+pcRemaining _ < _
    cases hpc : s.pc <;> rw [hpc] at hnext <;> cases hnext <;> dsimp only [pcRemaining] <;> omega
  | notResolved item pending outcome error next hnext hpending houtcome hresolve =>
    rw [hpending, List.length_cons]
    show _+2*pending.length+s.outstanding+pcRemaining _ < _
    cases hpc : s.pc <;> rw [hpc] at hnext <;> cases hnext <;> dsimp only [pcRemaining] <;> omega
  | left error hpc hended =>
    rw [leave_eq, hpc]
    have hout : ({ s with pc := (s.leave error).pc } : OcrState).outstanding = s.outstanding := rfl
    rw [hout]
    unfold leave
    cases error with
    | some error => exact Nat.lt_succ_self _
    | none => cases completedPages s.pages <;> exact Nat.lt_succ_self _

/-- A state in which the main thread is still in `process` is not the last one. -/
theorem main_or_open (tables : UnicodeTables) (source : List PdfPage) (hfinished : ¬s.finished)
    (hcounts : Counts concurrency s) :
    (∃ s', s.mainStep tables source concurrency = some s')
      ∨ ∃ (k : ℕ) (job : OcrJob), s.jobs[k]? = some job ∧ job.outcome = none := by
  have hopen (h : s.outstanding ≠ 0) :
      ∃ (k : ℕ) (job : OcrJob), s.jobs[k]? = some job ∧ job.outcome = none := by
    obtain ⟨job, hjob, hnone⟩ := List.countP_pos_iff.mp (Nat.pos_of_ne_zero h)
    obtain ⟨k, hk, hget⟩ := List.getElem_of_mem hjob
    exact ⟨k, job, by rw [List.getElem?_eq_getElem hk, hget], Option.isNone_iff_eq_none.mp hnone⟩
  -- the oldest future is awaited: it has ended, or its job is one that can end
  have hawait (next : OcrPc) : (∃ s', s.resolveFirst tables next = some s')
      ∨ ∃ (k : ℕ) (job : OcrJob), s.jobs[k]? = some job ∧ job.outcome = none := by
    unfold resolveFirst
    cases hpending : s.pending with
    | nil => exact .inl ⟨_, rfl⟩
    | cons item pending =>
      have hfutures := hcounts.futures
      have hcount := hcounts.count
      rw [hpending, List.map_cons, List.length_cons, List.range'_succ, List.cons.injEq] at hfutures
      rw [hpending, List.length_cons] at hcount
      have hin : item.future < s.jobs.length := by
        rw [hfutures.1]
        omega
      cases houtcome : s.jobs[item.future].outcome with
      | none => exact .inr ⟨_, _, List.getElem?_eq_getElem hin, houtcome⟩
      | some outcome =>
        have hended : s.outcomeOf item.future = some outcome := by
          rw [outcomeOf, List.getElem?_eq_getElem hin, Option.bind_some, houtcome]
        dsimp only
        rw [hended]
        exact .inl ⟨_, rfl⟩
  unfold mainStep
  cases hpc : s.pc with
  | submitting => cases s.waiting <;> exact .inl ⟨_, rfl⟩
  | checking =>
    dsimp only
    split_ifs
    · exact hawait _
    · exact .inl ⟨_, rfl⟩
  | draining =>
    dsimp only
    split_ifs
    · exact .inl ⟨_, rfl⟩
    · exact hawait _
  | closing error =>
    dsimp only
    split_ifs with hended
    · exact .inl ⟨_, rfl⟩
    · exact .inr (hopen hended)
  | returned containers => exact absurd (.inl ⟨_, hpc⟩) hfinished
  | raised error => exact absurd (.inr ⟨_, hpc⟩) hfinished

end Counts

end OcrState

end ConferWorker
