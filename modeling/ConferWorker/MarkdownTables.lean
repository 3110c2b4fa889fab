import ConferWorker.JoinedPieces
import ConferWorker.StrippedText

/-! Tables of Markdown as a reader takes them: the lines of the text, and the cells between the
pipes of a line that no backslash escapes. -/
namespace ConferWorker

/-- LF and CR. -/
def endsLine (c : CodePoint) : Bool := c == 10 || c == 13

/-- The lines of a text, which LF, CR and CR LF end; `line` is read so far, and `afterReturn`
says that the last character was CR. -/
def markdownLinesFrom (line : Str) (afterReturn : Bool) : Str → List Str
  | [] => if line = [] then [] else [line]
  | c :: rest =>
    if afterReturn && c == 10 then markdownLinesFrom [] false rest
    else if endsLine c then line :: markdownLinesFrom [] (c == 13) rest
    else markdownLinesFrom (line++[c]) false rest

def markdownLines (text : Str) : List Str := markdownLinesFrom [] false text

/-- The pieces between the pipes that no backslash precedes. -/
def splitPipesFrom (escaped : Bool) (piece : Str) : Str → List Str
  | [] => [piece]
  | c :: rest =>
    if c = 0x7C ∧ escaped = false then piece :: splitPipesFrom false [] rest
    else splitPipesFrom (c == 0x5C) (piece++[c]) rest

/-- Every backslash-pipe turned into a pipe. -/
def unescapePipes : Str → Str
  | [] => []
  | c :: rest =>
    if c = 0x5C ∧ rest.head? = some 0x7C then unescapePipes rest else c :: unescapePipes rest

/-- The cells between the outer pipes of a line. -/
def tableCells (line : Str) : List Str :=
  ((splitPipesFrom false [] line).drop 1).dropLast.map (fun piece => unescapePipes (strip piece))

/-- A backslash before every pipe. -/
def escapePipes (s : Str) : Str := s.flatMap (fun c => if c = 0x7C then [0x5C, 0x7C] else [c])

section Lines

theorem markdownLinesFrom_keep (line text : Str) (h : ∀ c ∈ text, endsLine c = false) :
    markdownLinesFrom line false text = if line++text = [] then [] else [line++text] := by
  induction text generalizing line with
  | nil => rw [markdownLinesFrom, List.append_nil]
  | cons c rest ih =>
    obtain ⟨hc, hrest⟩ := List.forall_mem_cons.mp h
    rw [markdownLinesFrom, Bool.false_and, if_neg Bool.false_ne_true, hc,
      if_neg Bool.false_ne_true, ih _ hrest, List.append_assoc, List.singleton_append]

/-- A text that ends with another character has a line. -/
theorem markdownLinesFrom_pos (line : Str) (afterReturn : Bool) (text : Str) (c : CodePoint)
    (hc : endsLine c = false) : 1 ≤ (markdownLinesFrom line afterReturn (text++[c])).length := by
  induction text generalizing line afterReturn with
  | nil =>
    have hfeed : (c == 10) = false := by
      unfold endsLine at hc
      exact (Bool.or_eq_false_iff.mp hc).1
    rw [List.nil_append, markdownLinesFrom, hfeed, Bool.and_false, if_neg Bool.false_ne_true, hc,
      if_neg Bool.false_ne_true, markdownLinesFrom,
      if_neg (List.append_ne_nil_of_right_ne_nil _ (List.cons_ne_nil _ _))]
    exact le_rfl
  | cons d text ih =>
    rw [List.cons_append, markdownLinesFrom]
    split_ifs
    · exact ih [] false
    · exact Nat.le_add_left 1 _
    · exact ih _ false

/-- A CR in front of other characters makes a second line. -/
theorem markdownLinesFrom_return (line : Str) (afterReturn : Bool) (front back : Str)
    (c : CodePoint) (hc : endsLine c = false) :
    2 ≤ (markdownLinesFrom line afterReturn (front++13 :: (back++[c]))).length := by
  induction front generalizing line afterReturn with
  | nil =>
    have hbehind := markdownLinesFrom_pos [] true back c hc
    have hreturn : (13 : CodePoint) ≠ 10 := by decide
    rw [List.nil_append, markdownLinesFrom, beq_eq_false_iff_ne.mpr hreturn, Bool.and_false,
      if_neg Bool.false_ne_true, if_pos (by decide), List.length_cons]
    exact Nat.succ_le_succ hbehind
  | cons d front ih =>
    rw [List.cons_append, markdownLinesFrom]
    split_ifs
    · exact ih [] false
    · exact (ih [] _).trans (Nat.le_add_right _ 1)
    · exact ih _ false

/-- A line feed behind another character separates what is before it from what follows. -/
theorem markdownLinesFrom_feed (line : Str) (afterReturn : Bool) (text rest : Str) (c : CodePoint)
    (hc : endsLine c = false) :
    markdownLinesFrom line afterReturn (text++[c]++10 :: rest)
      = markdownLinesFrom line afterReturn (text++[c])++markdownLines rest := by
  induction text generalizing line afterReturn with
  | nil =>
    have hfeed : (c == 10) = false := by
      unfold endsLine at hc
      exact (Bool.or_eq_false_iff.mp hc).1
    have hne : line++[c] ≠ [] := List.append_ne_nil_of_right_ne_nil _ (List.cons_ne_nil _ _)
    rw [List.nil_append, List.singleton_append]
    simp only [markdownLinesFrom, hfeed, hc, Bool.and_false, Bool.false_and, Bool.false_eq_true,
      if_false, if_neg hne]
    rw [if_pos (by decide)]
    rfl
  | cons d text ih =>
    simp only [List.cons_append, markdownLinesFrom] at ih ⊢
    split_ifs
    · exact ih [] false
    · rw [ih [] _, List.cons_append]
    · exact ih _ false

/-- Lines that end with another character are the lines of the joined text, each for its own. -/
theorem markdownLines_join (lines : List Str)
    (h : ∀ line ∈ lines, ∃ front c, line = front++[c] ∧ endsLine c = false) :
    markdownLines ((ofString "\n").intercalate lines) = lines.flatMap markdownLines := by
  induction lines with
  | nil => rfl
  | cons line lines ih =>
    obtain ⟨⟨front, c, rfl, hc⟩, hlines⟩ := List.forall_mem_cons.mp h
    rcases eq_or_ne lines [] with rfl | hne
    · rw [List.intercalate_singleton, List.flatMap_singleton]
    · have hfeed : ofString "\n" = [10] := by decide
      rw [intercalate_cons _ _ _ hne, hfeed, List.append_assoc, List.singleton_append,
        markdownLines, markdownLinesFrom_feed _ _ _ _ _ hc, ← hfeed, ih hlines, List.flatMap_cons]
      rfl

end Lines

section Cells

theorem escapePipes_cons (c : CodePoint) (s : Str) :
    escapePipes (c :: s) = (if c = 0x7C then [0x5C, 0x7C] else [c])++escapePipes s := rfl

/-- No pipe of an escaped text is taken for a separator. -/
theorem splitPipesFrom_escape (escaped : Bool) (piece s rest : Str) :
    splitPipesFrom escaped piece (escapePipes s++32 :: rest)
      = splitPipesFrom false (piece++escapePipes s++[32]) rest := by
  induction s generalizing escaped piece with
  | nil =>
    have hspace : ¬((32 : CodePoint) = 0x7C ∧ escaped = false) := by
      rintro ⟨hpipe, _⟩
      exact absurd hpipe (by decide)
    show splitPipesFrom escaped piece (32 :: rest) = _
    rw [splitPipesFrom, if_neg hspace, beq_eq_false_iff_ne.mpr (by decide)]
    exact congrArg (fun piece => splitPipesFrom false (piece++[32]) rest) (List.append_nil _).symm
  | cons c s ih =>
    rw [escapePipes_cons]
    split_ifs with hpipe
    · have hslash : ¬((0x5C : CodePoint) = 0x7C ∧ escaped = false) := by
        rintro ⟨heq, _⟩
        exact absurd heq (by decide)
      have hescaped : ¬((0x7C : CodePoint) = 0x7C ∧ ((0x5C : CodePoint) == 0x5C) = false) := by
        decide
      simp only [List.cons_append, List.nil_append]
      rw [splitPipesFrom, if_neg hslash, splitPipesFrom, if_neg hescaped, ih]
      simp only [List.append_assoc, List.cons_append, List.nil_append]
    · have hplain : ¬(c = 0x7C ∧ escaped = false) := fun h => hpipe h.1
      simp only [List.cons_append, List.nil_append]
      rw [splitPipesFrom, if_neg hplain, ih]
      simp only [List.append_assoc, List.cons_append, List.nil_append]

theorem escapePipes_head (s : Str) : (escapePipes s).head? ≠ some 0x7C := by
  cases s with
  | nil => exact nofun
  | cons c s =>
    rw [escapePipes_cons]
    split_ifs with hpipe
    · show some (0x5C : CodePoint) ≠ some 0x7C
      decide
    · intro hhead
      exact hpipe (Option.some.inj hhead)

/-- What was escaped is read back. -/
theorem unescapePipes_escapePipes (s : Str) : unescapePipes (escapePipes s) = s := by
  induction s with
  | nil => rfl
  | cons c s ih =>
    rw [escapePipes_cons]
    split_ifs with hpipe
    · have hslash : ¬((0x7C : CodePoint) = 0x5C ∧ (escapePipes s).head? = some 0x7C) :=
        fun h => escapePipes_head s h.2
      simp only [List.cons_append, List.nil_append]
      rw [unescapePipes, if_pos ⟨rfl, rfl⟩, unescapePipes, if_neg hslash, ih, hpipe]
    · have hplain : ¬(c = 0x5C ∧ (escapePipes s).head? = some 0x7C) :=
        fun h => escapePipes_head s h.2
      simp only [List.cons_append, List.nil_append]
      rw [unescapePipes, if_neg hplain, ih]

/-- Stripping goes character by character where each character that is no white space is
replaced by some that begin with none. -/
theorem dropSpace_flatMap (f : CodePoint → Str) (hspace : ∀ c, isSpace c = true → f c = [c])
    (hink : ∀ c, isSpace c = false → ∃ d rest, f c = d :: rest ∧ isSpace d = false) (s : Str) :
    (s.flatMap f).dropWhile isSpace = (s.dropWhile isSpace).flatMap f := by
  induction s with
  | nil => rfl
  | cons c s ih =>
    rw [List.flatMap_cons, List.dropWhile_cons]
    cases hc : isSpace c with
    | true => rw [hspace c hc, List.singleton_append, List.dropWhile_cons_of_pos hc, ih, if_pos rfl]
    | false =>
      obtain ⟨d, rest, hd, hdink⟩ := hink c hc
      rw [if_neg Bool.false_ne_true, List.flatMap_cons, hd, List.cons_append,
        List.dropWhile_cons_of_neg (by rw [hdink]; exact Bool.false_ne_true)]

theorem strip_escapePipes (s : Str) : strip (escapePipes s) = escapePipes (strip s) := by
  have hpipe (c : CodePoint) (h : isSpace c = true) : c ≠ 0x7C := by
    rintro rfl
    exact absurd h (by decide)
  have hforward (t : Str) : (escapePipes t).dropWhile isSpace = escapePipes (t.dropWhile isSpace) := by
    apply dropSpace_flatMap
    · intro c hc
      rw [if_neg (hpipe c hc)]
    · intro c hc
      split_ifs
      · exact ⟨0x5C, [0x7C], rfl, by decide⟩
      · exact ⟨c, [], rfl, hc⟩
  have hbackward (t : Str) : (escapePipes t).reverse.dropWhile isSpace
      = (escapePipes (t.reverse.dropWhile isSpace).reverse).reverse := by
    rw [escapePipes, escapePipes, List.reverse_flatMap, List.reverse_flatMap, List.reverse_reverse]
    apply dropSpace_flatMap
    · intro c hc
      show (if c = 0x7C then _ else _ : Str).reverse = _
      rw [if_neg (hpipe c hc)]
      rfl
    · intro c hc
      show ∃ d rest, (if c = 0x7C then _ else _ : Str).reverse = d :: rest ∧ _
      split_ifs
      · exact ⟨0x7C, [0x5C], rfl, by decide⟩
      · exact ⟨c, [], rfl, hc⟩
  rw [strip, hforward, hbackward, List.reverse_reverse]
  rfl

/-- The piece between two pipes, read back. -/
theorem cell_escapePipes (s : Str) :
    unescapePipes (strip (32 :: (escapePipes s++[32]))) = strip s := by
  have hfront (t : Str) : strip (32 :: t) = strip t := by
    rw [strip, List.dropWhile_cons_of_pos (by decide)]
    rfl
  rw [hfront, strip_append_blank _ _ (by decide), strip_escapePipes, unescapePipes_escapePipes]

end Cells

end ConferWorker
