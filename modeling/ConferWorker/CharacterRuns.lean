import ConferWorker.JoinedPieces
import ConferWorker.UnicodeText

/-! The maximal runs of characters with a property: where another character cuts a text, at the
borders of runs, and of runs that are joined again. -/
namespace ConferWorker

variable {p q : CodePoint → Bool}

/-- A character without the property ends the run before it. -/
theorem runsFrom_stop {c : CodePoint} (hc : p c = false) (run s rest : Str) :
    runsFrom p run (s++c :: rest) = runsFrom p run s++runsFrom p [] rest := by
  induction s generalizing run with
  | nil =>
    rw [List.nil_append, runsFrom, runsFrom, hc, if_neg Bool.false_ne_true]
    by_cases hrun : run = []
    · rw [if_pos hrun, if_pos hrun, List.nil_append]
    · rw [if_neg hrun, if_neg hrun, List.singleton_append]
  | cons d s ih =>
    rw [List.cons_append, runsFrom, runsFrom]
    by_cases hd : p d = true
    · rw [if_pos hd, if_pos hd, ih]
    · rw [if_neg hd, if_neg hd]
      by_cases hrun : run = []
      · rw [if_pos hrun, if_pos hrun, ih]
      · rw [if_neg hrun, if_neg hrun, ih, List.cons_append]

theorem runs_stop {c : CodePoint} (hc : p c = false) (s rest : Str) :
    runs p (s++c :: rest) = runs p s++runs p rest :=
  runsFrom_stop hc [] s rest

theorem runsFrom_of_all (run s rest : Str) (hall : ∀ c ∈ s, p c = true) :
    runsFrom p run (s++rest) = runsFrom p (run++s) rest := by
  induction s generalizing run with
  | nil => rw [List.nil_append, List.append_nil]
  | cons c s ih =>
    rw [List.cons_append, runsFrom, if_pos (hall c List.mem_cons_self),
      ih _ (fun d hd => hall d (List.mem_cons_of_mem _ hd)), List.append_assoc,
      List.singleton_append]

/-- A text all of whose characters have the property is one run. -/
theorem runs_of_all (s : Str) (hne : s ≠ []) (hall : ∀ c ∈ s, p c = true) : runs p s = [s] := by
  have hread := runsFrom_of_all [] s [] hall
  rw [List.append_nil, List.nil_append] at hread
  rw [runs, hread, runsFrom, if_neg hne]

theorem runs_of_none (s : Str) (hnone : ∀ c ∈ s, p c = false) : runs p s = [] := by
  induction s with
  | nil => rfl
  | cons c s ih =>
    have hstop := runs_stop (hnone c List.mem_cons_self) [] s
    rw [List.nil_append, ih (fun d hd => hnone d (List.mem_cons_of_mem _ hd))] at hstop
    exact hstop

theorem mem_runsFrom (run s token : Str) (hrun : ∀ c ∈ run, p c = true)
    (htoken : token ∈ runsFrom p run s) : token ≠ [] ∧ ∀ c ∈ token, p c = true := by
  induction s generalizing run with
  | nil =>
    rw [runsFrom] at htoken
    split_ifs at htoken with hempty
    · exact absurd htoken List.not_mem_nil
    · rw [List.mem_singleton.mp htoken]
      exact ⟨hempty, hrun⟩
  | cons c s ih =>
    rw [runsFrom] at htoken
    split_ifs at htoken with hc hempty
    · apply ih (run++[c]) _ htoken
      intro d hd
      rcases List.mem_append.mp hd with hd | hd
      · exact hrun d hd
      · rwa [List.mem_singleton.mp hd]
    · exact ih [] (fun d hd => absurd hd List.not_mem_nil) htoken
    · rcases List.mem_cons.mp htoken with rfl | hlater
      · exact ⟨hempty, hrun⟩
      · exact ih [] (fun d hd => absurd hd List.not_mem_nil) hlater

/-- A run is not empty, and all of its characters have the property. -/
theorem mem_runs {s token : Str} (htoken : token ∈ runs p s) :
    token ≠ [] ∧ ∀ c ∈ token, p c = true :=
  mem_runsFrom [] s token (fun _ hd => absurd hd List.not_mem_nil) htoken

theorem subset_of_mem_runsFrom {run s token : Str} (htoken : token ∈ runsFrom p run s) :
    token ⊆ run++s := by
  induction s generalizing run with
  | nil =>
    rw [runsFrom] at htoken
    split_ifs at htoken
    · cases htoken
    · rw [List.mem_singleton.mp htoken]
      exact List.subset_append_left _ _
  | cons d s ih =>
    have hskip : s ⊆ run++d :: s :=
      List.subset_append_of_subset_right _ (List.subset_cons_self d s)
    rw [runsFrom] at htoken
    split_ifs at htoken
    · have hgrown := ih htoken
      rwa [List.append_assoc, List.singleton_append] at hgrown
    · exact List.Subset.trans (ih htoken) hskip
    · rcases List.mem_cons.mp htoken with rfl | htoken
      · exact List.subset_append_left _ _
      · exact List.Subset.trans (ih htoken) hskip

/-- The characters of a run are from the text. -/
theorem mem_of_mem_runs {s token : Str} (htoken : token ∈ runs p s) {c : CodePoint}
    (hc : c ∈ token) : c ∈ s :=
  subset_of_mem_runsFrom htoken hc

theorem exists_mem_runsFrom (run s : Str) {c : CodePoint} (hp : p c = true) (hc : c ∈ run++s) :
    ∃ token ∈ runsFrom p run s, c ∈ token := by
  induction s generalizing run with
  | nil =>
    rw [List.append_nil] at hc
    refine ⟨run, ?_, hc⟩
    rw [runsFrom, if_neg (List.ne_nil_of_mem hc)]
    exact List.mem_singleton_self run
  | cons d s ih =>
    rw [runsFrom]
    by_cases hd : p d = true
    · rw [if_pos hd]
      apply ih
      rwa [List.append_assoc, List.singleton_append]
    · have hne : c ≠ d := fun heq => hd (heq ▸ hp)
      rw [if_neg hd]
      rcases List.mem_append.mp hc with hrun | hlater
      · rw [if_neg (List.ne_nil_of_mem hrun)]
        exact ⟨run, List.mem_cons_self, hrun⟩
      · obtain ⟨token, htoken, hmem⟩ := ih [] ((List.mem_cons.mp hlater).resolve_left hne)
        refine ⟨token, ?_, hmem⟩
        split_ifs
        · exact htoken
        · exact List.mem_cons_of_mem run htoken

/-- Every character with the property is in a run. -/
theorem exists_mem_runs {s : Str} {c : CodePoint} (hp : p c = true) (hc : c ∈ s) :
    ∃ token ∈ runs p s, c ∈ token :=
  exists_mem_runsFrom [] s hp hc

/-- What has no runs has no character with the property. -/
theorem runs_eq_nil_iff (s : Str) : runs p s = [] ↔ ∀ c ∈ s, p c = false := by
  refine ⟨fun hnil c hc => ?_, runs_of_none s⟩
  apply Bool.eq_false_iff.mpr
  intro hp
  obtain ⟨token, htoken, -⟩ := exists_mem_runs hp hc
  rw [hnil] at htoken
  exact List.not_mem_nil htoken

/-- Runs with a separator between them are found again. -/
theorem runs_intercalate {c : CodePoint} (hc : p c = false) (tokens : List Str)
    (htokens : ∀ token ∈ tokens, token ≠ [] ∧ ∀ d ∈ token, p d = true) :
    runs p ([c].intercalate tokens) = tokens := by
  induction tokens with
  | nil => rfl
  | cons token tokens ih =>
    have hfirst := htokens token List.mem_cons_self
    cases tokens with
    | nil =>
      rw [List.intercalate_singleton]
      exact runs_of_all token hfirst.1 hfirst.2
    | cons next tokens =>
      rw [List.intercalate_cons_cons, List.append_assoc, List.singleton_append, runs_stop hc,
        runs_of_all token hfirst.1 hfirst.2,
        ih (fun other hother => htokens other (List.mem_cons_of_mem _ hother)),
        List.singleton_append]

/-- Between the two texts no run goes on. -/
def IsRunBorder (p : CodePoint → Bool) (before after : Str) : Prop :=
  ∀ c ∈ before.getLast?, ∀ d ∈ after.head?, p c = false ∨ p d = false

@[simp] theorem runs_nil : runs p [] = [] := rfl

/-- At a border the runs of two texts stay what they are. -/
theorem runs_append_of_border (before after : Str) (h : IsRunBorder p before after) :
    runs p (before++after) = runs p before++runs p after := by
  cases after with
  | nil => rw [List.append_nil, runs_nil, List.append_nil]
  | cons d after =>
    rcases List.eq_nil_or_concat' before with rfl | ⟨front, c, rfl⟩
    · rfl
    · rcases h c (by rw [List.getLast?_concat]; rfl) d rfl with hc | hd
      · rw [List.append_assoc, List.singleton_append, runs_stop hc, runs_stop hc, runs_nil,
          List.append_nil]
      · have hfirst := runs_stop hd [] after
        rw [List.nil_append, runs_nil, List.nil_append] at hfirst
        rw [runs_stop hd, hfirst]

theorem runs_stops_append (stops after : Str) (hstops : ∀ c ∈ stops, p c = false) :
    runs p (stops++after) = runs p after := by
  rw [runs_append_of_border stops after, runs_of_none stops hstops, List.nil_append]
  exact fun c hc _ _ => Or.inl (hstops c (List.mem_of_getLast? hc))

/-- A text of characters without the property, put between two others, keeps their runs. -/
theorem runs_append_stops (before stops after : Str) (hne : stops ≠ [])
    (hstops : ∀ c ∈ stops, p c = false) :
    runs p (before++(stops++after)) = runs p before++runs p after := by
  obtain ⟨c, more, rfl⟩ := List.exists_cons_of_ne_nil hne
  rw [List.cons_append, runs_stop (hstops c List.mem_cons_self),
    runs_stops_append more after (fun d hd => hstops d (List.mem_cons_of_mem _ hd))]

/-- Characters that each become another text, those without `p` a text without `q`: the runs are
those of each run. -/
theorem runs_flatMap (f : CodePoint → Str) (s : Str)
    (hf : ∀ c ∈ s, p c = false → f c ≠ [] ∧ ∀ d ∈ f c, q d = false) :
    runs q (s.flatMap f) = (runs p s).flatMap (fun token => runs q (token.flatMap f)) := by
  have hread : ∀ run : Str, runs q ((run++s).flatMap f)
      = (runsFrom p run s).flatMap (fun token => runs q (token.flatMap f)) := by
    induction s with
    | nil =>
      intro run
      rw [List.append_nil, runsFrom]
      split_ifs with hrun
      · rw [hrun]
        rfl
      · rw [List.flatMap_singleton]
    | cons c s ih =>
      obtain ⟨hfirst, hrest⟩ := List.forall_mem_cons.mp hf
      intro run
      rw [runsFrom]
      split_ifs with hc hrun
      · rw [← ih hrest, List.append_assoc, List.singleton_append]
      · have hstops := hfirst (Bool.eq_false_iff.mpr hc)
        rw [hrun, List.nil_append, List.flatMap_cons, runs_stops_append _ _ hstops.2]
        exact ih hrest []
      · have hstops := hfirst (Bool.eq_false_iff.mpr hc)
        rw [List.flatMap_append, List.flatMap_cons, runs_append_stops _ _ _ hstops.1 hstops.2,
          List.flatMap_cons]
        exact congrArg _ (ih hrest [])
  exact hread []

end ConferWorker
