import ConferWorker.StrippedText
import ConferWorker.TextExtraction

/-! The blocks of a plain text: short pieces without white space at their ends, which hold all
other characters of the text in their order. -/
namespace ConferWorker

/-- A text with all white space removed. -/
def withoutSpace (s : Str) : Str := s.filter (fun c => !isSpace c)

/-- A text that neither starts nor ends with white space. -/
structure Trimmed (s : Str) : Prop where
  starts : ∀ c ∈ s.head?, isSpace c = false
  ends : ∀ c ∈ s.getLast?, isSpace c = false

theorem withoutSpace_append (s t : Str) :
    withoutSpace (s++t) = withoutSpace s++withoutSpace t := List.filter_append s t

theorem withoutSpace_cons (c : CodePoint) (s : Str) :
    withoutSpace (c :: s) = withoutSpace [c]++withoutSpace s := withoutSpace_append [c] s

theorem withoutSpace_reverse (s : Str) : withoutSpace s.reverse = (withoutSpace s).reverse :=
  List.filter_reverse

theorem withoutSpace_blank {s : Str} (h : s.all isSpace = true) : withoutSpace s = [] := by
  apply List.filter_eq_nil_iff.mpr
  intro c hc
  simp [List.all_eq_true.mp h c hc]

theorem withoutSpace_dropSpace (s : Str) : withoutSpace (s.dropWhile isSpace) = withoutSpace s := by
  have hfront : withoutSpace (s.takeWhile isSpace) = [] := withoutSpace_blank List.all_takeWhile
  calc withoutSpace (s.dropWhile isSpace)
      = withoutSpace (s.takeWhile isSpace)++withoutSpace (s.dropWhile isSpace) := by
        rw [hfront, List.nil_append]
    _ = withoutSpace s := by rw [← withoutSpace_append, List.takeWhile_append_dropWhile]

theorem withoutSpace_strip (s : Str) : withoutSpace (strip s) = withoutSpace s := by
  rw [strip, withoutSpace_reverse, withoutSpace_dropSpace, withoutSpace_reverse,
    List.reverse_reverse, withoutSpace_dropSpace]

theorem head_dropSpace (s : Str) : ∀ c ∈ (s.dropWhile isSpace).head?, isSpace c = false := by
  intro c hc
  have hhead := List.head?_dropWhile_not isSpace s
  rwa [Option.mem_def.mp hc] at hhead

theorem strip_trimmed (s : Str) : Trimmed (strip s) := by
  constructor
  · intro c hc
    have hprefix : strip s <+: s.dropWhile isSpace := by
      have hsuffix := List.reverse_prefix.mpr
        (List.dropWhile_suffix (l := (s.dropWhile isSpace).reverse) isSpace)
      rwa [List.reverse_reverse] at hsuffix
    apply head_dropSpace s
    obtain ⟨rest, hrest⟩ := List.head?_eq_some_iff.mp hc
    rw [hrest] at hprefix
    obtain ⟨more, hmore⟩ := hprefix
    rw [← hmore]
    rfl
  · intro c hc
    rw [strip, List.getLast?_reverse] at hc
    exact head_dropSpace _ c hc

theorem strip_length_le (s : Str) : (strip s).length ≤ s.length := by
  rw [strip, List.length_reverse]
  apply (List.length_dropWhile_le _ _).trans
  rw [List.length_reverse]
  exact List.length_dropWhile_le _ _

/-- A text that starts with another character than white space is not stripped to nothing. -/
theorem strip_ne_nil {s : Str} {c : CodePoint} (hhead : s.head? = some c)
    (hc : isSpace c = false) : strip s ≠ [] := by
  intro hnil
  have hkept := withoutSpace_strip s
  rw [hnil] at hkept
  have hmem : c ∈ withoutSpace s :=
    List.mem_filter.mpr ⟨List.mem_of_head? hhead, by rw [hc]; rfl⟩
  rw [← hkept] at hmem
  cases hmem

/-- `rfind` finds the character. -/
theorem rfindChar_spec {c : CodePoint} {s : Str} {i : ℕ} (h : rfindChar c s = some i) :
    s[i]? = some c := by
  rw [rfindChar, Option.map_eq_some_iff] at h
  obtain ⟨j, hj, rfl⟩ := h
  obtain ⟨hlt, hget, _⟩ := List.idxOf?_eq_some_iff.mp hj
  have hreverse := List.getElem?_reverse (l := s) (i := j) (by simpa using hlt)
  rw [← hreverse, List.getElem?_eq_getElem hlt, hget]

theorem rfindChar_lt {c : CodePoint} {s : Str} {i : ℕ} (h : rfindChar c s = some i) :
    i < s.length :=
  (List.getElem?_eq_some_iff.mp (rfindChar_spec h)).1

namespace TextDocumentExtractor

/-- Splitting at blank lines takes white space out and nothing else. -/
theorem splitBlankLinesFrom_keeps (skip : ℕ) (piece text : Str)
    (h : (text.take skip).all isSpace = true) :
    (splitBlankLinesFrom skip piece text).flatMap withoutSpace
      = withoutSpace piece++withoutSpace text := by
  induction text generalizing skip piece with
  | nil => simp [splitBlankLinesFrom, withoutSpace]
  | cons c rest ih =>
    cases skip with
    | succ skip =>
      rw [List.take_succ_cons, List.all_cons, Bool.and_eq_true] at h
      have hc : withoutSpace [c] = [] := withoutSpace_blank (by rw [List.all_cons, h.1]; rfl)
      rw [splitBlankLinesFrom, withoutSpace_cons, hc, List.nil_append]
      exact ih skip piece h.2
    | zero =>
      rw [splitBlankLinesFrom]
      split
      · rename_i last hlast
        obtain ⟨rfl, hlast⟩ : c = 10 ∧ rfindChar 10 (rest.takeWhile isSpace) = some last := by
          split_ifs at hlast with hc
          exact ⟨hc, hlast⟩
        have hblank : (rest.take (last+1)).all isSpace = true := by
          have hlt := rfindChar_lt hlast
          obtain ⟨after, hafter⟩ := List.takeWhile_prefix (l := rest) isSpace
          rw [← hafter, List.take_append_of_le_length hlt, List.all_eq_true]
          intro d hd
          exact List.all_eq_true.mp List.all_takeWhile d (List.mem_of_mem_take hd)
        have hfeed : withoutSpace [(10 : CodePoint)] = [] := by decide
        rw [List.flatMap_cons, ih (last+1) [] hblank, withoutSpace_cons 10 rest, hfeed]
        rfl
      · rw [ih 0 (piece++[c]) (by rw [List.take_zero]; rfl), withoutSpace_append,
          withoutSpace_cons c rest, List.append_assoc]

theorem splitBlankLinesFrom_length (skip : ℕ) (piece text : Str) :
    ∀ part ∈ splitBlankLinesFrom skip piece text, part.length ≤ piece.length+text.length := by
  induction text generalizing skip piece with
  | nil => simp [splitBlankLinesFrom]
  | cons c rest ih =>
    intro part hpart
    rw [List.length_cons]
    cases skip with
    | succ skip =>
      have hle := ih skip piece part hpart
      omega
    | zero =>
      rw [splitBlankLinesFrom] at hpart
      split at hpart
      · rename_i last _
        rcases List.mem_cons.mp hpart with rfl | hrest
        · omega
        · have hle := ih (last+1) [] part hrest
          rw [List.length_nil] at hle
          omega
      · have hle := ih 0 (piece++[c]) part hpart
        rw [List.length_append, List.length_singleton] at hle
        omega

/-- A trimmed paragraph that is too long is split behind its first character. -/
theorem splitPoint_spec {n : ℕ} {remaining : Str} (hn : 1 ≤ n) (h : Trimmed remaining) :
    1 ≤ splitPoint n remaining ∧ splitPoint n remaining ≤ n := by
  have hfound (c : CodePoint) (hc : isSpace c = true) (i : ℕ)
      (hi : (rfindChar c (remaining.take n)).filter (n/2 ≤ ·) = some i) : 1 ≤ i ∧ i ≤ n := by
    rw [Option.filter_eq_some_iff] at hi
    have hlt := rfindChar_lt hi.1
    rw [List.length_take] at hlt
    refine ⟨?_, by omega⟩
    by_contra hzero
    obtain rfl : i = 0 := by omega
    have hhead := rfindChar_spec hi.1
    rw [List.getElem?_take_of_lt (by omega), ← List.head?_eq_getElem?] at hhead
    have hinked := h.starts c hhead
    rw [hc] at hinked
    cases hinked
  unfold splitPoint
  dsimp only
  cases hline : (rfindChar 10 (remaining.take n)).filter (n/2 ≤ ·) with
  | some i => exact hfound 10 (by decide) i hline
  | none =>
    cases hspace : (rfindChar 32 (remaining.take n)).filter (n/2 ≤ ·) with
    | some i => exact hfound 32 (by decide) i hspace
    | none => exact ⟨hn, le_refl n⟩

/-- What a block is: some text of at most `n` characters without white space at its ends. -/
structure IsBlock (n : ℕ) (text : Str) : Prop where
  nonempty : text ≠ []
  trimmed : Trimmed text
  short : text.length ≤ n

/-- The loop over one paragraph: it ends after at most as many rounds as there are characters. -/
theorem splitParagraph_spec {n : ℕ} (hn : 1 ≤ n) (remaining : Str) (h : Trimmed remaining) :
    ∃ texts, (∀ fuel, remaining.length ≤ fuel → splitParagraph n fuel remaining = some texts)
      ∧ (∀ fuel other, splitParagraph n fuel remaining = some other → other = texts)
      ∧ (∀ text ∈ texts, IsBlock n text)
      ∧ texts.flatMap withoutSpace = withoutSpace remaining := by
  induction hlength : remaining.length using Nat.strong_induction_on generalizing remaining with
  | _ length ih =>
    subst hlength
    -- a cut takes at least one character away, hence the induction on the length
    by_cases hlong : n < remaining.length
    · obtain ⟨hlow, hhigh⟩ := splitPoint_spec hn h
      have hrest : (strip (remaining.drop (splitPoint n remaining))).length < remaining.length := by
        have hle := strip_length_le (remaining.drop (splitPoint n remaining))
        rw [List.length_drop] at hle
        omega
      obtain ⟨texts, hruns, honly, hblocks, hkeeps⟩ := ih _ hrest
        (strip (remaining.drop (splitPoint n remaining))) (strip_trimmed _) rfl
      refine ⟨strip (remaining.take (splitPoint n remaining)) :: texts, ?_, ?_, ?_, ?_⟩
      · intro fuel hfuel
        obtain ⟨fuel, rfl⟩ : ∃ more, fuel = more+1 := ⟨fuel-1, by omega⟩
        rw [splitParagraph, if_pos hlong]
        dsimp only
        rw [hruns fuel (by omega), Option.map_some]
      · intro fuel other hother
        cases fuel with
        | zero =>
          rw [splitParagraph, if_pos hlong] at hother
          cases hother
        | succ fuel =>
          rw [splitParagraph, if_pos hlong] at hother
          obtain ⟨later, hlater, rfl⟩ := Option.map_eq_some_iff.mp hother
          rw [honly fuel later hlater]
      · refine List.forall_mem_cons.mpr ⟨⟨?_, strip_trimmed _, ?_⟩, hblocks⟩
        · obtain ⟨c, hc⟩ : ∃ c, remaining.head? = some c := by
            cases remaining with
            | nil => exact absurd hlong (Nat.not_lt_zero n)
            | cons c _ => exact ⟨c, rfl⟩
          apply strip_ne_nil _ (h.starts c hc)
          rw [List.head?_take, if_neg (by omega), hc]
        · apply (strip_length_le _).trans
          rw [List.length_take]
          omega
      · rw [List.flatMap_cons, hkeeps, withoutSpace_strip, withoutSpace_strip,
          ← withoutSpace_append, List.take_append_drop]
    · have hshort (fuel : ℕ) : splitParagraph n fuel remaining
          = some (if remaining = [] then [] else [remaining]) := by
        cases fuel with
        | zero => rw [splitParagraph, if_neg hlong]
        | succ fuel => rw [splitParagraph, if_neg hlong]
      refine ⟨if remaining = [] then [] else [remaining], fun fuel _ => hshort fuel, ?_, ?_, ?_⟩
      · intro fuel other hother
        rw [hshort] at hother
        exact (Option.some.inj hother).symm
      · intro text htext
        split_ifs at htext with hempty
        · cases htext
        · rw [List.mem_singleton.mp htext]
          exact ⟨hempty, h, Nat.not_lt.mp hlong⟩
      · split_ifs with hempty
        · rw [hempty]
          rfl
        · rw [List.flatMap_singleton]

/-- The paragraphs one after the other. -/
theorem splitParagraphs_spec {n : ℕ} (hn : 1 ≤ n) (paragraphs : List Str)
    (h : ∀ paragraph ∈ paragraphs, Trimmed paragraph) :
    ∃ texts, (∀ fuel, (∀ paragraph ∈ paragraphs, paragraph.length ≤ fuel) →
        List.flatten <$> paragraphs.mapM (splitParagraph n fuel) = some texts)
      ∧ (∀ fuel other, List.flatten <$> paragraphs.mapM (splitParagraph n fuel) = some other →
        other = texts)
      ∧ (∀ text ∈ texts, IsBlock n text)
      ∧ texts.flatMap withoutSpace = paragraphs.flatMap withoutSpace := by
  induction paragraphs with
  | nil =>
    exact ⟨[], fun _ _ => rfl, fun _ _ h => (Option.some.inj h).symm, List.forall_mem_nil _, rfl⟩
  | cons paragraph paragraphs ih =>
    obtain ⟨hparagraph, hparagraphs⟩ := List.forall_mem_cons.mp h
    obtain ⟨texts, hruns, honly, hblocks, hkeeps⟩ := splitParagraph_spec hn paragraph hparagraph
    obtain ⟨more, hmore, hmoreOnly, hmoreBlocks, hmoreKeeps⟩ := ih hparagraphs
    refine ⟨texts++more, ?_, ?_, List.forall_mem_append.mpr ⟨hblocks, hmoreBlocks⟩, ?_⟩
    · intro fuel hfuel
      obtain ⟨hfirst, hothers⟩ := List.forall_mem_cons.mp hfuel
      have hrest := hmore fuel hothers
      rw [Option.map_eq_map, Option.map_eq_some_iff] at hrest ⊢
      obtain ⟨parts, hparts, rfl⟩ := hrest
      refine ⟨texts :: parts, ?_, List.flatten_cons⟩
      rw [List.mapM_cons, hruns fuel hfirst, hparts]
      rfl
    · intro fuel other hother
      rw [Option.map_eq_map, Option.map_eq_some_iff] at hother
      obtain ⟨parts, hparts, rfl⟩ := hother
      simp only [List.mapM_cons, Option.bind_eq_bind, Option.bind_eq_some_iff, Option.pure_def,
        Option.some.injEq] at hparts
      obtain ⟨first, hfirst, rest, hrest, rfl⟩ := hparts
      rw [List.flatten_cons, honly fuel first hfirst]
      congr 1
      apply hmoreOnly fuel
      rw [hrest]
      rfl
    · rw [List.flatMap_append, hkeeps, hmoreKeeps, List.flatMap_cons]

/-- `_blocks` comes to an end, and its blocks hold the text up to white space. -/
theorem blocks_spec (extractor : TextDocumentExtractor) (hn : 1 ≤ extractor.blockCharacters)
    (text : Str) : ∃ texts,
      (∀ fuel, text.length ≤ fuel → extractor.blocks fuel text = some texts)
      ∧ (∀ fuel other, extractor.blocks fuel text = some other → other = texts)
      ∧ (∀ block ∈ texts, IsBlock extractor.blockCharacters block)
      ∧ texts.flatMap withoutSpace = withoutSpace text := by
  have htrimmed : ∀ paragraph ∈ ((splitBlankLines text).map strip).filter (fun value => value ≠ []),
      Trimmed paragraph ∧ paragraph.length ≤ text.length := by
    intro paragraph hparagraph
    obtain ⟨piece, hpiece, rfl⟩ := List.mem_map.mp (List.mem_filter.mp hparagraph).1
    have hle := splitBlankLinesFrom_length 0 [] text piece hpiece
    rw [List.length_nil, Nat.zero_add] at hle
    exact ⟨strip_trimmed piece, (strip_length_le piece).trans hle⟩
  obtain ⟨texts, hruns, honly, hblocks, hkeeps⟩ := splitParagraphs_spec hn _
    (fun paragraph hparagraph => (htrimmed paragraph hparagraph).1)
  refine ⟨texts, ?_, honly, hblocks, ?_⟩
  · intro fuel hfuel
    exact hruns fuel fun paragraph hparagraph => (htrimmed paragraph hparagraph).2.trans hfuel
  · have hempty (parts : List Str) :
        (parts.filter (fun value => value ≠ [])).flatMap withoutSpace
          = parts.flatMap withoutSpace := by
      induction parts with
      | nil => rfl
      | cons part parts ih =>
        rw [List.filter_cons]
        split_ifs with hpart
        · rw [List.flatMap_cons, List.flatMap_cons, ih]
        · obtain rfl : part = [] := by simpa using hpart
          rw [List.flatMap_cons, ih]
          rfl
    rw [hkeeps, hempty, List.flatMap_map]
    simp only [withoutSpace_strip]
    exact splitBlankLinesFrom_keeps 0 [] text (by rw [List.take_zero]; rfl)

end TextDocumentExtractor

end ConferWorker
