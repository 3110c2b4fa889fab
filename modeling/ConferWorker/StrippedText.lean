import Mathlib.Data.List.TakeWhile
import Mathlib.Tactic
import ConferWorker.UnicodeText

/-! What `strip` leaves of a text: all characters that are no white space, and everything
between two of them. -/
namespace ConferWorker

/-- The number of characters that are no white space. -/
def ink (s : Str) : ℕ := s.countP (fun c => !isSpace c)

theorem ink_append (s t : Str) : ink (s++t) = ink s+ink t := List.countP_append

theorem ink_cons (c : CodePoint) (s : Str) : ink (c :: s) = ink s+ink [c] := by
  rw [← List.singleton_append, ink_append, Nat.add_comm]

theorem ink_reverse (s : Str) : ink s.reverse = ink s := List.countP_reverse

theorem ink_dropSpace (s : Str) : ink (s.dropWhile isSpace) = ink s := by
  induction s with
  | nil => rfl
  | cons c s ih =>
    rw [List.dropWhile_cons]
    split_ifs with hc
    · rw [ih, ink_cons]
      simp [ink, hc]
    · rfl

theorem ink_strip (s : Str) : ink (strip s) = ink s := by
  rw [strip, ink_reverse, ink_dropSpace, ink_reverse, ink_dropSpace]

theorem ink_intercalate (separator : Str) (hseparator : ink separator = 0) (texts : List Str) :
    ink (separator.intercalate texts) = (texts.map ink).sum := by
  induction texts with
  | nil => rfl
  | cons text texts ih =>
    cases texts with
    | nil =>
      rw [List.intercalate_singleton, List.map_singleton, List.sum_singleton]
    | cons next texts =>
      rw [List.intercalate_cons_cons, ink_append, ink_append, hseparator, ih, Nat.add_zero]
      simp only [List.map_cons, List.sum_cons]

theorem dropSpace_blank {s : Str} (hs : s.all isSpace = true) : s.dropWhile isSpace = [] :=
  List.dropWhile_eq_nil_iff.mpr (List.all_eq_true.mp hs)

theorem dropSpace_append {s t : Str} (hs : s.all isSpace = false) :
    (s++t).dropWhile isSpace = s.dropWhile isSpace++t := by
  induction s with
  | nil => exact absurd hs (by simp)
  | cons c s ih =>
    rw [List.cons_append, List.dropWhile_cons, List.dropWhile_cons]
    split_ifs with hc
    · apply ih
      rwa [List.all_cons, hc, Bool.true_and] at hs
    · rfl

theorem strip_blank {s : Str} (hs : s.all isSpace = true) : strip s = [] := by
  rw [strip, dropSpace_blank hs]
  rfl

/-- White space at the end is stripped. -/
theorem strip_append_blank (s t : Str) (ht : t.all isSpace = true) : strip (s++t) = strip s := by
  have hreverse : t.reverse.all isSpace = true := by rwa [List.all_reverse]
  by_cases hs : s.all isSpace = true
  · rw [strip_blank hs, strip_blank]
    rw [List.all_append, hs, ht, Bool.true_and]
  · rw [strip, strip, dropSpace_append (Bool.eq_false_iff.mpr hs), List.reverse_append,
      List.dropWhile_append]
    rw [dropSpace_blank hreverse]
    rfl

/-- What stands between two characters that are no white space is kept. -/
theorem mem_strip_between {s t : Str} (c : CodePoint) (hs : s.all isSpace = false)
    (ht : t.all isSpace = false) : c ∈ strip (s++c :: t) := by
  have hreverse : t.reverse.all isSpace = false := by rwa [List.all_reverse]
  rw [strip, dropSpace_append hs, List.reverse_append, List.reverse_cons, List.append_assoc,
    dropSpace_append hreverse, List.mem_reverse]
  exact List.mem_append_right _ (List.mem_append_left _ (List.mem_singleton_self c))

theorem mem_of_mem_strip {s : Str} {c : CodePoint} (h : c ∈ strip s) : c ∈ s := by
  rw [strip, List.mem_reverse] at h
  exact (List.dropWhile_sublist _).mem (List.mem_reverse.mp ((List.dropWhile_sublist _).mem h))

theorem ink_eq_zero {s : Str} (h : strip s = []) : ink s = 0 := by
  rw [← ink_strip, h]
  rfl

end ConferWorker
