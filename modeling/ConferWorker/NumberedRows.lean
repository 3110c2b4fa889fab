import Mathlib.Tactic

/-! Selections from a list of consecutively numbered rows. -/
namespace ConferWorker

variable {β : Type}

/-- Rows numbered consecutively: those between two numbers are a run. -/
theorem filter_between (number : β → ℕ) (rows : List β) (origin first last : ℕ)
    (hnumber : ∀ i (h : i < rows.length), number rows[i] = origin+i) :
    rows.filter (fun row => first ≤ number row && number row ≤ last)
      = (rows.take (last+1-origin)).drop (first-origin) := by
  induction rows generalizing origin with
  | nil => simp
  | cons row rows ih =>
    have hrow : number row = origin := hnumber 0 (by simp)
    have hrest := ih (origin+1) (fun i h => by
      have hi := hnumber (i+1) (by simpa using h)
      rw [List.getElem_cons_succ] at hi
      omega)
    rw [List.filter_cons, hrow, hrest]
    by_cases hlast : origin ≤ last
    · have htake : last+1-origin = last+1-(origin+1)+1 := by omega
      by_cases hfirst : first ≤ origin
      · have hzero : first-origin = 0 := by omega
        have hzero' : first-(origin+1) = 0 := by omega
        rw [if_pos (by simp [hfirst, hlast]), htake, List.take_succ_cons, hzero, hzero']
        rfl
      · have hdrop : first-origin = first-(origin+1)+1 := by omega
        rw [if_neg (by simp [hfirst]), htake, List.take_succ_cons, hdrop, List.drop_succ_cons]
    · have htake : last+1-origin = 0 := by omega
      have htake' : last+1-(origin+1) = 0 := by omega
      rw [if_neg (by simp [hlast]), htake, htake']
      simp

/-- What fits up to some row and not from there on is an initial part of the rows. -/
theorem filter_initial (p : β → Bool) (rows : List β)
    (hanti : rows.Pairwise (fun a b => p b = true → p a = true)) :
    ∃ t ≤ rows.length, rows.filter p = rows.take t ∧
      ∀ i (h : i < rows.length), p rows[i] = true ↔ i < t := by
  induction rows with
  | nil => exact ⟨0, le_refl _, rfl, fun i h => absurd h (by simp)⟩
  | cons row rows ih =>
    obtain ⟨hrow, hrows⟩ := List.pairwise_cons.mp hanti
    by_cases hp : p row = true
    · obtain ⟨t, ht, hfilter, hiff⟩ := ih hrows
      refine ⟨t+1, by simpa using ht, by rw [List.filter_cons_of_pos hp, hfilter]; rfl, ?_⟩
      intro i hi
      cases i with
      | zero => simp [hp]
      | succ i =>
        rw [List.getElem_cons_succ, hiff i (by simpa using hi)]
        omega
    · have hnone : ∀ other ∈ rows, ¬p other = true := fun other hother h => hp (hrow other hother h)
      refine ⟨0, Nat.zero_le _, ?_, ?_⟩
      · rw [List.filter_cons_of_neg hp, List.filter_eq_nil_iff.mpr hnone]
        rfl
      · intro i hi
        cases i with
        | zero => simp [hp]
        | succ i =>
          rw [List.getElem_cons_succ]
          simp [hnone _ (List.getElem_mem _)]

/-- Rows with distinct keys: the first row with the key of a row is that row. -/
theorem find_of_nodup {γ : Type} [BEq γ] [LawfulBEq γ] (key : β → γ) {rows : List β} {row : β}
    (hdistinct : (rows.map key).Nodup) (h : row ∈ rows) :
    rows.find? (fun other => key other == key row) = some row := by
  induction rows with
  | nil => cases h
  | cons first rest ih =>
    rw [List.map_cons, List.nodup_cons] at hdistinct
    rcases List.mem_cons.mp h with rfl | hrest
    · rw [List.find?_cons_of_pos (by simp)]
    · have hne : key first ≠ key row := fun heq =>
        hdistinct.1 (heq ▸ List.mem_map_of_mem hrest)
      rw [List.find?_cons_of_neg (by simpa using hne)]
      exact ih hdistinct.2 hrest

end ConferWorker
