import ConferWorker.SearchSnippets

/-! The text of a search hit is short, is cut from the text of the chunk and shows the match. -/
namespace ConferWorker

namespace SearchSnippets

/-- The text between `s` and `e`, with an ellipsis where it is cut off. -/
def cutText (text : Str) (s e : ℕ) : Str :=
  (if 0 < s then ellipsis else [])++(text.take e).drop s++if e < text.length then ellipsis else []

/-- A snippet of a text around a match: at most `limit` characters, the whole text if it is not
longer, and else a part that holds the match or, where the match is too long, ends with it. -/
structure SnippetAround (text : Str) (matchStart matchEnd limit : ℕ) (snippet : Str) : Prop where
  short : snippet.length ≤ limit
  whole : snippet = text ↔ text.length ≤ limit
  cut : limit < text.length → ∃ s e, s ≤ e ∧ e ≤ text.length ∧ snippet = cutText text s e
    ∧ (matchEnd-matchStart ≤ limit-2 → s ≤ matchStart ∧ matchEnd ≤ e)
    ∧ (limit-2 < matchEnd-matchStart → e = matchEnd)

theorem cutText_length (text : Str) (s e : ℕ) (he : e ≤ text.length) :
    (cutText text s e).length
      = (if 0 < s then 1 else 0)+(e-s)+if e < text.length then 1 else 0 := by
  have hellipsis : ellipsis.length = 1 := rfl
  unfold cutText
  rw [List.length_append, List.length_append, List.length_drop, List.length_take,
    Nat.min_eq_left he]
  split_ifs
  · rw [hellipsis]
  · rw [hellipsis, List.length_nil]
  · rw [hellipsis, List.length_nil]
  · rw [List.length_nil]

/-- Moved forward, a cut stays in the text; at the start it is not moved. -/
theorem characterBoundary_forward (text : Str) (offset : ℕ) (h : offset ≤ text.length) :
    offset ≤ characterBoundary text offset true
      ∧ characterBoundary text offset true ≤ text.length
      ∧ (offset = 0 → characterBoundary text offset true = 0) := by
  have hle := (List.takeWhile_prefix (l := text.drop offset) (fun c => !isSpace c)).length_le
  rw [List.length_drop] at hle
  unfold characterBoundary
  rw [if_pos (rfl : true = true)]
  split_ifs with hend
  · omega
  · omega

/-- Moved back, a cut stays in the text; at the end it is not moved. -/
theorem characterBoundary_backward (text : Str) (offset : ℕ) (h : offset ≤ text.length) :
    characterBoundary text offset false ≤ offset
      ∧ (offset = text.length → characterBoundary text offset false = text.length) := by
  unfold characterBoundary
  rw [if_neg Bool.false_ne_true]
  split_ifs with hend
  · omega
  · omega

/-- The first window: it holds the match or, where the match is too long, ends with it. -/
theorem fitWindow_first {text : Str} {matchStart matchEnd contentLimit : ℕ}
    (hmatch : matchStart ≤ matchEnd) (hend : matchEnd ≤ text.length) {window : ℕ × ℕ}
    (h : fitWindow text (matchStart-(contentLimit-(matchEnd-matchStart))/3) matchEnd contentLimit
      = window) :
    window.2 = min text.length (window.1+contentLimit) ∧ matchEnd ≤ window.2
      ∧ window.1 ≤ window.2
      ∧ (matchEnd-matchStart ≤ contentLimit → window.1 ≤ matchStart)
      ∧ (contentLimit < matchEnd-matchStart → window.2 = matchEnd ∧ matchStart < window.1) := by
  unfold fitWindow at h
  dsimp only at h
  split_ifs at h
  · subst h
    dsimp only
    omega
  · subst h
    dsimp only
    omega

/-- The second window starts where the first one does. At the start of the text it is one
character longer, elsewhere it ends where the first one does. -/
theorem fitWindow_second {text : Str} {start stop matchEnd limit : ℕ} (hlimit : 3 ≤ limit)
    (hlong : limit < text.length) (hstop : stop = min text.length (start+(limit-2)))
    (hmatch : matchEnd ≤ stop) :
    fitWindow text start matchEnd
        (limit-(if start ≠ 0 then ellipsis else []).length
          -(if stop < text.length then ellipsis else []).length)
      = (start, if start = 0 then limit-1 else stop) := by
  have hbefore : (if start ≠ 0 then ellipsis else []).length = if start = 0 then 0 else 1 := by
    rcases eq_or_ne start 0 with hstart | hstart
    · rw [if_neg (not_not.mpr hstart), if_pos hstart, List.length_nil]
    · rw [if_pos hstart, if_neg hstart]
      rfl
  have hafter : (if stop < text.length then ellipsis else []).length
      = if stop < text.length then 1 else 0 := by
    split_ifs
    · rfl
    · rfl
  unfold fitWindow
  dsimp only
  rw [hbefore, hafter]
  -- the match ends inside the window, so that nothing is moved
  split_ifs
  all_goals
    rw [Prod.mk.injEq]
    omega

/-- `_bounded_snippet` around a match inside the text. -/
theorem boundedSnippet_around (text : Str) {matchStart matchEnd limit : ℕ} (hlimit : 3 ≤ limit)
    (hmatch : matchStart ≤ matchEnd) (hend : matchEnd ≤ text.length) :
    SnippetAround text matchStart matchEnd limit (boundedSnippet text matchStart matchEnd limit) := by
  unfold boundedSnippet
  split_ifs with hwhole hsmall
  · exact ⟨hwhole, iff_of_true rfl hwhole, fun hlong => absurd hwhole (Nat.not_le.mpr hlong)⟩
  · omega
  · have hlong := Nat.not_le.mp hwhole
    dsimp only
    rw [Nat.min_eq_right (hmatch.trans hend), Nat.min_eq_right hend, Nat.max_eq_right hmatch]
    obtain ⟨⟨start, stop⟩, hfirst⟩ : ∃ window, fitWindow text
        (matchStart-(limit-2-(matchEnd-matchStart))/3) matchEnd (limit-2) = window := ⟨_, rfl⟩
    obtain ⟨hstop, hheld, hordered, hfits, hover⟩ := fitWindow_first hmatch hend hfirst
    have hsecond := fitWindow_second hlimit hlong hstop hheld
    dsimp only at hstop hheld hordered hfits hover hsecond
    rw [hfirst]
    dsimp only
    rw [hsecond]
    dsimp only
    obtain ⟨stop', hstop'⟩ : ∃ stop', stop' = if start = 0 then limit-1 else stop := ⟨_, rfl⟩
    have hstop'_le : stop' ≤ text.length := by
      rw [hstop']
      split_ifs
      · omega
      · omega
    rw [← hstop']
    obtain ⟨hforward, hinside, hzero⟩ := characterBoundary_forward text start (by omega)
    obtain ⟨hbackward, hlast⟩ := characterBoundary_backward text stop' hstop'_le
    obtain ⟨s, hs⟩ : ∃ s, s = if characterBoundary text start true ≤ matchStart then
      characterBoundary text start true else start := ⟨_, rfl⟩
    obtain ⟨e, he⟩ : ∃ e, e = if matchEnd ≤ characterBoundary text stop' false then
      characterBoundary text stop' false else stop' := ⟨_, rfl⟩
    rw [← hs, ← he]
    -- the boundaries keep which ends are cut off, and never go behind the match
    have hstart : start ≤ s ∧ (start = 0 → s = 0) ∧ (start ≤ matchStart → s ≤ matchStart)
        ∧ (matchStart < start → s = start) := by
      rw [hs]
      split_ifs
      · omega
      · omega
    have hfinish : matchEnd ≤ e ∧ e ≤ stop' ∧ (stop' = text.length → e = text.length)
        ∧ (stop' = matchEnd → e = matchEnd) := by
      have hmatchEnd : matchEnd ≤ stop' := by
        rw [hstop']
        split_ifs
        · omega
        · omega
      rw [he]
      split_ifs
      · omega
      · omega
    have hellipses : (if start ≠ 0 then ellipsis else []) = if 0 < s then ellipsis else [] := by
      rcases Nat.eq_zero_or_pos start with hzero' | hpositive
      · rw [if_neg (by omega), if_neg (by omega)]
      · rw [if_pos (by omega), if_pos (by omega)]
    have hcutoff : stop < text.length ↔ e < text.length := by
      split_ifs at hstop'
      · omega
      · omega
    have hsnippet : (if start ≠ 0 then ellipsis else [])++(text.take e).drop s
        ++(if stop < text.length then ellipsis else []) = cutText text s e := by
      rw [hellipses, cutText]
      simp only [hcutoff]
    have hlength := cutText_length text s e (by omega)
    have hshort : (cutText text s e).length ≤ limit := by
      rw [hlength]
      split_ifs at hstop' ⊢
      all_goals omega
    rw [hsnippet]
    refine ⟨hshort, iff_of_false ?_ hwhole, fun _ => ⟨s, e, ?_, by omega, rfl, ?_, ?_⟩⟩
    · intro heq
      rw [heq] at hshort
      exact hwhole hshort
    · rcases Nat.lt_or_ge (limit-2) (matchEnd-matchStart) with hover' | hfits'
      · have hpast := hover hover'
        omega
      · have hbefore := hfits hfits'
        omega
    · intro hfits'
      exact ⟨hstart.2.2.1 (hfits hfits'), hfinish.1⟩
    · intro hover'
      obtain ⟨hstopEnd, hpast⟩ := hover hover'
      apply hfinish.2.2.2
      rw [hstop', if_neg (by omega), hstopEnd]

end SearchSnippets

end ConferWorker
