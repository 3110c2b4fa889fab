import Mathlib.Data.List.GetD
import Mathlib.Tactic

/-! Pieces of a list joined by a separator: where each piece stands in the whole,
and the part of the whole that a run of consecutive pieces makes. -/
namespace ConferWorker

variable {α : Type*}

theorem intercalate_cons (sep piece : List α) (pieces : List (List α)) (h : pieces ≠ []) :
    sep.intercalate (piece :: pieces) = piece++sep++sep.intercalate pieces := by
  obtain ⟨next, rest, rfl⟩ := List.exists_cons_of_ne_nil h
  rw [List.intercalate_cons_cons, List.append_assoc]

/-- Pieces put before a non-empty run each bring one separator. -/
theorem intercalate_append (sep : List α) (before pieces : List (List α)) (h : pieces ≠ []) :
    sep.intercalate (before++pieces)
      = before.flatMap (fun piece => piece++sep)++sep.intercalate pieces := by
  induction before with
  | nil => simp
  | cons piece before ih =>
    rw [List.cons_append, intercalate_cons sep piece _ (by simp [h]), ih, List.flatMap_cons]
    simp only [List.append_assoc]

/-- Pieces put after a non-empty run each bring one separator. -/
theorem intercalate_append_right (sep : List α) (pieces after : List (List α)) (h : pieces ≠ []) :
    sep.intercalate (pieces++after)
      = sep.intercalate pieces++after.flatMap (fun piece => sep++piece) := by
  induction pieces with
  | nil => exact absurd rfl h
  | cons piece pieces ih =>
    rcases eq_or_ne pieces [] with rfl | hne
    · induction after generalizing piece with
      | nil => simp
      | cons next after iha =>
        rw [List.singleton_append, intercalate_cons sep piece _ (by simp)]
        have hnext := iha next (by simp) (by simp)
        rw [List.singleton_append] at hnext
        rw [hnext]
        simp [List.append_assoc]
    · rw [List.cons_append, intercalate_cons sep piece _ (by simp [hne]), ih hne,
        intercalate_cons sep piece _ hne]
      simp only [List.append_assoc]

/-- Two non-empty runs are joined by one separator. -/
theorem intercalate_join (sep : List α) (before after : List (List α)) (hbefore : before ≠ [])
    (hafter : after ≠ []) :
    sep.intercalate (before++after)
      = sep.intercalate before++sep++sep.intercalate after := by
  obtain ⟨piece, rest, rfl⟩ := List.exists_cons_of_ne_nil hafter
  rw [intercalate_append_right sep before _ hbefore]
  have hrest := intercalate_append_right sep [piece] rest (by simp)
  rw [List.singleton_append, List.intercalate_singleton] at hrest
  rw [hrest, List.flatMap_cons]
  simp only [List.append_assoc]

/-- Where piece `i` starts. -/
def pieceStart (sep : List α) (pieces : List (List α)) (i : ℕ) : ℕ :=
  ((pieces.take i).flatMap (fun piece => piece++sep)).length

/-- Where piece `i` ends. -/
def pieceEnd (sep : List α) (pieces : List (List α)) (i : ℕ) : ℕ :=
  pieceStart sep pieces i+(pieces.getD i []).length

@[simp] theorem pieceStart_zero (sep : List α) (pieces : List (List α)) :
    pieceStart sep pieces 0 = 0 := rfl

theorem pieceStart_le_pieceEnd (sep : List α) (pieces : List (List α)) (i : ℕ) :
    pieceStart sep pieces i ≤ pieceEnd sep pieces i :=
  Nat.le_add_right _ _

theorem pieceStart_succ (sep : List α) (pieces : List (List α)) (i : ℕ) (h : i < pieces.length) :
    pieceStart sep pieces (i+1) = pieceEnd sep pieces i+sep.length := by
  unfold pieceEnd pieceStart
  rw [List.take_succ_eq_append_getElem h, List.flatMap_append, List.length_append,
    List.getD_eq_getElem pieces [] h]
  simp only [List.flatMap_cons, List.flatMap_nil, List.append_nil, List.length_append]
  omega

theorem pieceEnd_mono (sep : List α) (pieces : List (List α)) (i j : ℕ) (hij : i ≤ j)
    (hj : j < pieces.length) : pieceEnd sep pieces i ≤ pieceEnd sep pieces j := by
  induction j, hij using Nat.le_induction with
  | base => exact le_refl _
  | succ j hij ih =>
    have hprevious := ih (by omega)
    have hstart := pieceStart_succ sep pieces j (by omega)
    have hle := pieceStart_le_pieceEnd sep pieces (j+1)
    omega

/-- The pieces from `n` to `k` cut a whole into what comes before, their own
joined text, and what comes after. -/
theorem intercalate_split (sep : List α) (pieces : List (List α)) (n k : ℕ) (hnk : n ≤ k)
    (hk : k < pieces.length) :
    sep.intercalate pieces
      = (pieces.take n).flatMap (fun piece => piece++sep)
        ++sep.intercalate ((pieces.take (k+1)).drop n)
        ++(pieces.drop (k+1)).flatMap (fun piece => sep++piece) := by
  have hrun : (pieces.take (k+1)).drop n ≠ [] := by
    apply List.ne_nil_of_length_pos
    simp only [List.length_drop, List.length_take]
    omega
  have hpieces : pieces = pieces.take n++((pieces.take (k+1)).drop n++pieces.drop (k+1)) := by
    have htake : pieces.take n = (pieces.take (k+1)).take n := by
      rw [List.take_take, min_eq_left (by omega)]
    rw [htake, ← List.append_assoc, List.take_append_drop, List.take_append_drop]
  calc sep.intercalate pieces
      = sep.intercalate (pieces.take n++((pieces.take (k+1)).drop n++pieces.drop (k+1))) := by
        rw [← hpieces]
    _ = _ := by
        rw [intercalate_append sep _ _ (by simp [hrun]), intercalate_append_right sep _ _ hrun,
          List.append_assoc]

/-- The joined text of the pieces from `n` to `k` reaches to the end of piece `k`. -/
theorem pieceStart_add_length (sep : List α) (pieces : List (List α)) (n k : ℕ) (hnk : n ≤ k)
    (hk : k < pieces.length) :
    pieceStart sep pieces n+(sep.intercalate ((pieces.take (k+1)).drop n)).length
      = pieceEnd sep pieces k := by
  induction k, hnk using Nat.le_induction with
  | base =>
    rw [List.take_succ_eq_append_getElem hk, List.drop_append_of_le_length (by simp; omega),
      List.drop_of_length_le (by simp), List.nil_append, List.intercalate_singleton,
      pieceEnd, List.getD_eq_getElem pieces [] hk]
  | succ k hnk ih =>
    have hrun : (pieces.take (k+1)).drop n ≠ [] := by
      apply List.ne_nil_of_length_pos
      simp only [List.length_drop, List.length_take]
      omega
    have hprevious := ih (by omega)
    have hstart := pieceStart_succ sep pieces k (by omega)
    rw [List.take_succ_eq_append_getElem hk,
      List.drop_append_of_le_length (by simp only [List.length_take]; omega),
      intercalate_append_right sep _ _ hrun, pieceEnd, List.getD_eq_getElem pieces [] hk]
    simp only [List.flatMap_cons, List.flatMap_nil, List.append_nil, List.length_append]
    omega

theorem pieceEnd_le_length (sep : List α) (pieces : List (List α)) (k : ℕ)
    (hk : k < pieces.length) : pieceEnd sep pieces k ≤ (sep.intercalate pieces).length := by
  have hend := pieceStart_add_length sep pieces 0 k (by omega) hk
  rw [pieceStart_zero, Nat.zero_add, List.drop_zero] at hend
  rw [intercalate_split sep pieces 0 k (by omega) hk]
  simp only [List.drop_zero, List.take_zero, List.flatMap_nil, List.nil_append, List.length_append]
  omega

/-- Cutting the whole from the start of piece `n` to the end of piece `k` gives
these pieces joined by the separator. -/
theorem intercalate_slice (sep : List α) (pieces : List (List α)) (n k : ℕ) (hnk : n ≤ k)
    (hk : k < pieces.length) :
    ((sep.intercalate pieces).take (pieceEnd sep pieces k)).drop (pieceStart sep pieces n)
      = sep.intercalate ((pieces.take (k+1)).drop n) := by
  have hend := pieceStart_add_length sep pieces n k hnk hk
  rw [intercalate_split sep pieces n k hnk hk,
    List.take_append_of_le_length (by
      rw [List.length_append, ← pieceStart]
      omega),
    List.take_of_length_le (by
      rw [List.length_append, ← pieceStart]
      omega),
    List.drop_append_of_le_length (by rw [← pieceStart]),
    List.drop_of_length_le (by rw [← pieceStart]), List.nil_append]

theorem mem_intercalate (c : α) (separator : List α) (texts : List (List α))
    (h : c ∈ separator.intercalate texts) : c ∈ separator ∨ ∃ text ∈ texts, c ∈ text := by
  induction texts with
  | nil => exact absurd h List.not_mem_nil
  | cons text texts ih =>
    cases texts with
    | nil =>
      rw [List.intercalate_singleton] at h
      exact Or.inr ⟨text, List.mem_cons_self, h⟩
    | cons next texts =>
      rw [List.intercalate_cons_cons, List.mem_append, List.mem_append] at h
      rcases h with (hfirst | hseparator) | hrest
      · exact Or.inr ⟨text, List.mem_cons_self, hfirst⟩
      · exact Or.inl hseparator
      · refine (ih hrest).imp_right ?_
        rintro ⟨other, hother, hmem⟩
        exact ⟨other, List.mem_cons_of_mem _ hother, hmem⟩

theorem mem_intercalate_of_mem (c : α) (separator : List α) (texts : List (List α)) {text : List α}
    (htext : text ∈ texts) (hc : c ∈ text) : c ∈ separator.intercalate texts := by
  induction texts with
  | nil => exact absurd htext List.not_mem_nil
  | cons first texts ih =>
    cases texts with
    | nil => rwa [List.intercalate_singleton, ← List.mem_singleton.mp htext]
    | cons next texts =>
      rw [List.intercalate_cons_cons]
      rcases List.mem_cons.mp htext with rfl | hrest
      · exact List.mem_append_left _ (List.mem_append_left _ hc)
      · exact List.mem_append_right _ (ih hrest)

theorem intercalate_eq_nil_iff (sep : List α) (pieces : List (List α)) (hsep : sep ≠ []) :
    sep.intercalate pieces = [] ↔ pieces.length ≤ 1 ∧ ∀ piece ∈ pieces, piece = [] := by
  match pieces with
  | [] => simp
  | [piece] => simp
  | piece :: next :: rest =>
    rw [intercalate_cons sep piece _ (by simp)]
    simp [hsep]

end ConferWorker
