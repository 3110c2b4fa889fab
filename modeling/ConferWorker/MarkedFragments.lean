import ConferWorker.BoundedSnippets

/-! The fragment that SQLite marked: without the markers it is found again, with the span from
the start of the first match to the end of the last one. -/
namespace ConferWorker

namespace SearchSnippets

/-- A fragment as its matches cut it: before each match some text, and behind the last one the
rest. -/
structure MarkedText where
  pieces : List (Str × Str)
  rest : Str

namespace MarkedText

/-- The fragment without markers. -/
def plain (marked : MarkedText) : Str :=
  marked.pieces.flatMap (fun piece => piece.1++piece.2)++marked.rest

/-- The fragment with both markers around each match. -/
def text (marked : MarkedText) (startMarker endMarker : Str) : Str :=
  marked.pieces.flatMap (fun piece => piece.1++startMarker++piece.2++endMarker)++marked.rest

/-- Where the first match starts. -/
def first (marked : MarkedText) : ℕ := (marked.pieces.head?.map (fun piece => piece.1.length)).getD 0

/-- Where the last match ends. -/
def last (marked : MarkedText) : ℕ :=
  (marked.pieces.flatMap (fun piece => piece.1++piece.2)).length

theorem last_le (marked : MarkedText) : marked.last ≤ marked.plain.length := by
  rw [plain, List.length_append, last]
  exact Nat.le_add_right _ _

theorem first_le (marked : MarkedText) : marked.first ≤ marked.last := by
  unfold first last
  cases marked.pieces with
  | nil => exact le_rfl
  | cons piece pieces =>
    rw [List.flatMap_cons, List.length_append, List.length_append]
    exact (Nat.le_add_right _ _).trans (Nat.le_add_right _ _)

end MarkedText

/-- `find` finds the first of the places where a fragment stands. -/
theorem findText_infix {fragment text : Str} (h : fragment <:+: text) :
    ∃ before after, findText fragment text = some before.length
      ∧ text = before++fragment++after := by
  induction text with
  | nil =>
    have hempty := List.infix_nil.mp h
    subst hempty
    exact ⟨[], [], rfl, rfl⟩
  | cons c text ih =>
    rw [findText]
    split_ifs with hprefix
    · obtain ⟨after, hafter⟩ := List.isPrefixOf_iff_prefix.mp hprefix
      exact ⟨[], after, rfl, hafter.symm⟩
    · rcases List.infix_cons_iff.mp h with hfront | hlater
      · exact absurd (List.isPrefixOf_iff_prefix.mpr hfront) hprefix
      · obtain ⟨before, after, hfound, htext⟩ := ih hlater
        refine ⟨c :: before, after, ?_, ?_⟩
        · rw [hfound]
          rfl
        · rw [htext]
          rfl

/-- A marker that begins in a text reaches behind it only if the text holds the marker, for what
follows is another marker or nothing. -/
theorem no_marker_across {d : CodePoint} {tail text rest : Str}
    (htail : ∀ c ∈ rest.head?, c ∉ tail) (hne : text ≠ [])
    (hfree : ¬d :: tail <:+: text) : ¬d :: tail <+: text++rest := by
  intro hprefix
  rcases List.prefix_or_prefix_of_prefix hprefix (List.prefix_append text rest) with
    hinside | ⟨beyond, hbeyond⟩
  · exact hfree hinside.isInfix
  · rw [← hbeyond, List.prefix_append_right_inj] at hprefix
    obtain ⟨c, text', rfl⟩ := List.exists_cons_of_ne_nil hne
    rw [List.cons_append, List.cons.injEq] at hbeyond
    cases beyond with
    | nil =>
      apply hfree
      rw [← hbeyond.1, ← hbeyond.2, List.append_nil]
    | cons e beyond =>
      obtain ⟨later, rfl⟩ := hprefix
      apply htail e rfl
      rw [← hbeyond.2]
      exact List.mem_append_right _ List.mem_cons_self

section Markers

variable {marker : Str} (hmarker : ∀ c ∈ marker, isHexDigit c = true)
include hmarker

/-- The first characters of the markers stand nowhere else in them. -/
theorem marker_tail {c : CodePoint} (hc : c = 0xE000 ∨ c = 0xE002) :
    c ∉ marker++[0xE001] ∧ c ∉ marker++[0xE003] := by
  have hhex : isHexDigit c = false := by
    rcases hc with rfl | rfl
    · decide
    · decide
  have hnot : c ∉ marker := by
    intro hmem
    rw [hmarker c hmem] at hhex
    cases hhex
  have hends : c ≠ 0xE001 ∧ c ≠ 0xE003 := by
    rcases hc with rfl | rfl
    · decide
    · decide
  constructor
  · rw [List.mem_append, List.mem_singleton, not_or]
    exact ⟨hnot, hends.1⟩
  · rw [List.mem_append, List.mem_singleton, not_or]
    exact ⟨hnot, hends.2⟩

/-- Neither marker begins at a character of a text that holds none, if another marker or nothing
follows. -/
theorem scanMarked_plain (text rest : Str) (state : MarkedState)
    (hrest : ∀ c ∈ rest.head?, c = 0xE000 ∨ c = 0xE002)
    (hstart : ¬startMarker marker <:+: text) (hend : ¬endMarker marker <:+: text) :
    scanMarked (startMarker marker) (endMarker marker) (text++rest) state
      = scanMarked (startMarker marker) (endMarker marker) rest
        { state with plain := state.plain++text } := by
  induction text generalizing state with
  | nil => simp only [List.nil_append, List.append_nil]
  | cons c text ih =>
    have hnoStart : ¬startMarker marker <+: c :: text++rest :=
      no_marker_across (fun c hc => (marker_tail hmarker (hrest c hc)).1) (List.cons_ne_nil _ _)
        hstart
    have hnoEnd : ¬endMarker marker <+: c :: text++rest :=
      no_marker_across (fun c hc => (marker_tail hmarker (hrest c hc)).2) (List.cons_ne_nil _ _)
        hend
    rw [List.cons_append] at hnoStart hnoEnd ⊢
    rw [scanMarked, if_neg (fun h => hnoStart (List.isPrefixOf_iff_prefix.mp h)),
      if_neg (fun h => hnoEnd (List.isPrefixOf_iff_prefix.mp h)),
      ih _ (fun h => hstart (List.infix_cons h)) (fun h => hend (List.infix_cons h))]
    simp only [List.append_assoc, List.singleton_append]

omit hmarker in
/-- A start marker outside a match. -/
theorem scanMarked_start (rest : Str) (state : MarkedState) (hnone : state.matchStart = none) :
    scanMarked (startMarker marker) (endMarker marker) (startMarker marker++rest) state
      = scanMarked (startMarker marker) (endMarker marker) rest
        { state with matchStart := some state.plain.length } := by
  have hprefix : (startMarker marker).isPrefixOf (startMarker marker++rest) = true :=
    List.isPrefixOf_iff_prefix.mpr (List.prefix_append _ _)
  rw [startMarker, List.cons_append] at hprefix ⊢
  rw [scanMarked, if_pos hprefix, hnone]
  dsimp only
  rw [List.length_cons, Nat.add_sub_cancel, List.drop_left]

omit hmarker in
/-- An end marker inside a match. -/
theorem scanMarked_end (rest : Str) (state : MarkedState) (matchStart : ℕ)
    (hsome : state.matchStart = some matchStart) :
    scanMarked (startMarker marker) (endMarker marker) (endMarker marker++rest) state
      = scanMarked (startMarker marker) (endMarker marker) rest
        { state with
          spans := state.spans++[(matchStart, state.plain.length)]
          matchStart := none } := by
  have hprefix : (endMarker marker).isPrefixOf (endMarker marker++rest) = true :=
    List.isPrefixOf_iff_prefix.mpr (List.prefix_append _ _)
  have hother : ¬(startMarker marker).isPrefixOf (endMarker marker++rest) = true := by
    rw [List.isPrefixOf_iff_prefix, startMarker, endMarker, List.cons_append, List.cons_prefix_cons]
    intro h
    exact absurd h.1 (by decide)
  rw [endMarker, List.cons_append] at hprefix hother ⊢
  rw [scanMarked, if_neg hother, if_pos hprefix, hsome]
  dsimp only
  rw [List.length_cons, Nat.add_sub_cancel, List.drop_left]

/-- The spans of matches behind some text. -/
def spansFrom (offset : ℕ) : List (Str × Str) → List (ℕ × ℕ)
  | [] => []
  | piece :: pieces =>
    (offset+piece.1.length, offset+piece.1.length+piece.2.length)
      :: spansFrom (offset+piece.1.length+piece.2.length) pieces

/-- The loop over a marked fragment. -/
theorem scanMarked_text (marked : MarkedText) (state : MarkedState)
    (hnone : state.matchStart = none) (hstart : ¬startMarker marker <:+: marked.plain)
    (hend : ¬endMarker marker <:+: marked.plain) :
    scanMarked (startMarker marker) (endMarker marker)
        (marked.text (startMarker marker) (endMarker marker)) state
      = .ok ⟨state.plain++marked.plain,
        state.spans++spansFrom state.plain.length marked.pieces, none⟩ := by
  obtain ⟨pieces, rest⟩ := marked
  induction pieces generalizing state with
  | nil =>
    have hscan := scanMarked_plain hmarker rest [] state nofun hstart hend
    rw [List.append_nil] at hscan
    show scanMarked _ _ rest state = _
    rw [hscan, scanMarked, spansFrom, List.append_nil, hnone]
    rfl
  | cons piece pieces ih =>
    obtain ⟨before, match'⟩ := piece
    have hplain : (⟨(before, match') :: pieces, rest⟩ : MarkedText).plain
        = before++(match'++(⟨pieces, rest⟩ : MarkedText).plain) := by
      simp only [MarkedText.plain, List.flatMap_cons, List.append_assoc]
    have htext : (⟨(before, match') :: pieces, rest⟩ : MarkedText).text (startMarker marker)
        (endMarker marker) = before++(startMarker marker++(match'++(endMarker marker
          ++(⟨pieces, rest⟩ : MarkedText).text (startMarker marker) (endMarker marker)))) := by
      simp only [MarkedText.text, List.flatMap_cons, List.append_assoc]
    -- no marker stands in the plain text, so the scan stops at the written ones only
    have hparts : before <:+: (⟨(before, match') :: pieces, rest⟩ : MarkedText).plain
        ∧ match' <:+: (⟨(before, match') :: pieces, rest⟩ : MarkedText).plain
        ∧ (⟨pieces, rest⟩ : MarkedText).plain
          <:+: (⟨(before, match') :: pieces, rest⟩ : MarkedText).plain := by
      rw [hplain]
      refine ⟨(List.prefix_append _ _).isInfix, ⟨before, _, List.append_assoc _ _ _⟩, ?_⟩
      rw [← List.append_assoc]
      exact (List.suffix_append _ _).isInfix
    rw [htext, scanMarked_plain hmarker before _ _ _ (fun h => hstart (h.trans hparts.1))
      (fun h => hend (h.trans hparts.1)),
      scanMarked_start _ { state with plain := state.plain++before } hnone,
      scanMarked_plain hmarker match' _ _ _ (fun h => hstart (h.trans hparts.2.1))
        (fun h => hend (h.trans hparts.2.1)), scanMarked_end _ _ _ rfl,
      ih _ rfl (fun h => hstart (h.trans hparts.2.2)) (fun h => hend (h.trans hparts.2.2))]
    · rw [hplain, spansFrom]
      simp only [List.append_assoc, List.length_append, List.singleton_append, Nat.add_assoc]
    · intro c hc
      rw [endMarker, List.cons_append, List.head?_cons] at hc
      exact Or.inr (Option.some.inj hc).symm
    · intro c hc
      rw [startMarker, List.cons_append, List.head?_cons] at hc
      exact Or.inl (Option.some.inj hc).symm

omit hmarker in
theorem spansFrom_ends (offset : ℕ) (pieces : List (Str × Str)) (hne : pieces ≠ []) (rest : Str) :
    ∃ first last, (spansFrom offset pieces).head? = some first
      ∧ (spansFrom offset pieces).getLast? = some last
      ∧ first.1 = offset+(⟨pieces, rest⟩ : MarkedText).first
      ∧ last.2 = offset+(⟨pieces, rest⟩ : MarkedText).last := by
  induction pieces generalizing offset with
  | nil => exact absurd rfl hne
  | cons piece pieces ih =>
    rcases eq_or_ne pieces [] with rfl | hpieces
    · refine ⟨_, (offset+piece.1.length, offset+piece.1.length+piece.2.length), rfl, rfl, rfl, ?_⟩
      simp only [MarkedText.last, List.flatMap_cons, List.flatMap_nil, List.append_nil,
        List.length_append, Nat.add_assoc]
    · obtain ⟨first, last, _, hlast, _, hend⟩ :=
        ih (offset+piece.1.length+piece.2.length) hpieces
      obtain ⟨next, others, rfl⟩ := List.exists_cons_of_ne_nil hpieces
      refine ⟨_, last, rfl, ?_, rfl, ?_⟩
      · rw [spansFrom, spansFrom, List.getLast?_cons_cons, ← spansFrom]
        exact hlast
      · rw [hend]
        simp only [MarkedText.last, List.flatMap_cons, List.length_append]
        omega

/-- `_marked_fragment` reads the fragment and the span of its matches back. -/
theorem markedFragment_text (marked : MarkedText) (hne : marked.pieces ≠ [])
    (hstart : ¬startMarker marker <:+: marked.plain)
    (hend : ¬endMarker marker <:+: marked.plain) :
    markedFragment (marked.text (startMarker marker) (endMarker marker)) (startMarker marker)
        (endMarker marker) = .ok (marked.plain, (marked.first, marked.last)) := by
  obtain ⟨first, last, hhead, hlast, hfirst, hfinal⟩ :=
    spansFrom_ends 0 marked.pieces hne marked.rest
  unfold markedFragment
  rw [scanMarked_text hmarker marked ⟨[], [], none⟩ rfl hstart hend, ok_bind]
  simp only [List.nil_append, List.length_nil, hhead, hlast]
  rw [hfirst, hfinal, Nat.zero_add, Nat.zero_add]

/-- The snippet of a chunk: for every fragment of its text that is marked around one or more
matches it is a snippet of the text around these matches where the fragment stands. -/
theorem fts_snippet_around (text : Str) (hstart : ¬startMarker marker <:+: text)
    (hend : ¬endMarker marker <:+: text) (marked : MarkedText) (hne : marked.pieces ≠ [])
    (hfragment : marked.plain <:+: text) (limit : ℕ) (hlimit : 3 ≤ limit) :
    markedFragment (marked.text (startMarker marker) (endMarker marker)) (startMarker marker)
        (endMarker marker) = .ok (marked.plain, (marked.first, marked.last))
      ∧ ∃ before after snippet, text = before++marked.plain++after
        ∧ ftsSnippet text (marked.text (startMarker marker) (endMarker marker))
          (startMarker marker) (endMarker marker) limit = .ok snippet
        ∧ SnippetAround text (before.length+marked.first) (before.length+marked.last) limit
          snippet := by
  have hread := markedFragment_text hmarker marked hne (fun h => hstart (h.trans hfragment))
    (fun h => hend (h.trans hfragment))
  obtain ⟨before, after, hfound, htext⟩ := findText_infix hfragment
  refine ⟨hread, before, after, _, htext, ?_, boundedSnippet_around text hlimit ?_ ?_⟩
  · unfold ftsSnippet
    rw [hread, ok_bind]
    dsimp only
    rw [hfound]
    rfl
  · exact Nat.add_le_add_left marked.first_le _
  · rw [htext, List.length_append, List.length_append]
    have hlast := marked.last_le
    omega

end Markers

/-- The second word of a text, marked, and a snippet of five characters. -/
theorem fts_snippet_around_word : (∀ c ∈ ofString "0a", isHexDigit c = true)
    ∧ ¬startMarker (ofString "0a") <:+: ofString "one two three"
    ∧ ¬endMarker (ofString "0a") <:+: ofString "one two three"
    ∧ ∃ snippet, ftsSnippet (ofString "one two three")
        (ofString "one "++startMarker (ofString "0a")++ofString "two"++endMarker (ofString "0a")
          ++ofString " three") (startMarker (ofString "0a")) (endMarker (ofString "0a")) 5
        = .ok snippet ∧ snippet.length ≤ 5 := by
  have hmarker : ∀ c ∈ ofString "0a", isHexDigit c = true := List.all_eq_true.mp (by decide)
  have hstart : ¬startMarker (ofString "0a") <:+: ofString "one two three" := by
    intro h
    have hmem := h.subset (List.mem_cons_self (a := 0xE000))
    revert hmem
    decide
  have hend : ¬endMarker (ofString "0a") <:+: ofString "one two three" := by
    intro h
    have hmem := h.subset (List.mem_cons_self (a := 0xE002))
    revert hmem
    decide
  obtain ⟨_, _, _, snippet, _, hsnippet, haround⟩ := fts_snippet_around hmarker
    (ofString "one two three") hstart hend ⟨[(ofString "one ", ofString "two")], ofString " three"⟩
    (List.cons_ne_nil _ _) (List.infix_refl _) 5 (by decide)
  exact ⟨hmarker, hstart, hend, snippet, hsnippet, haround.short⟩

end SearchSnippets

end ConferWorker
