import ConferWorker.MarkdownTables
import ConferWorker.TextExtraction

/-! The Markdown table that a CSV file becomes: it reads back as the records exactly when no
cell holds a carriage return. -/
namespace ConferWorker

/-- A text with every line break read as a blank; `afterReturn` says that the last character
was CR. -/
def spacedBreaksFrom (afterReturn : Bool) : Str → Str
  | [] => []
  | c :: rest =>
    if afterReturn && c == 10 then spacedBreaksFrom false rest
    else if endsLine c then 32 :: spacedBreaksFrom (c == 13) rest
    else c :: spacedBreaksFrom false rest

/-- The cells that a table has to hold for a record. -/
def recordCells (row : List Str) : List Str :=
  if row = [] then [[]] else row.map (fun value => strip (spacedBreaksFrom false value))

/-- One line for every record, with its cells, and a separator line behind the first. -/
def FaithfulTable (rows : List (List Str)) (output : Str) : Prop :=
  match rows with
  | [] => markdownLines output = []
  | row :: rows => ∃ first separator others,
      markdownLines output = first :: separator :: others
      ∧ tableCells separator = List.replicate (max 1 row.length) (ofString "---")
      ∧ (first :: others).map tableCells = (row :: rows).map recordCells

namespace TextDocumentExtractor

theorem cellText_eq (value : Str) :
    cellText value = escapePipes (value.map (fun c => if c = 10 then 32 else c)) := by
  unfold cellText escapePipes
  induction value with
  | nil => rfl
  | cons c value ih =>
    rw [List.flatMap_cons, List.map_append, ih, List.map_cons, List.flatMap_cons]
    congr 1
    by_cases hpipe : c = 0x7C
    · rw [hpipe]
      decide
    · rw [if_neg hpipe, List.map_singleton]
      split_ifs with hfeed hother
      · exact absurd hother (by decide)
      · rfl
      · rfl

/-- A text without carriage returns has its line feeds read as blanks. -/
theorem spacedBreaks_feeds (value : Str) (h : 13 ∉ value) :
    spacedBreaksFrom false value = value.map (fun c => if c = 10 then 32 else c) := by
  induction value with
  | nil => rfl
  | cons c value ih =>
    rw [List.mem_cons, not_or] at h
    have hc : (c == 13) = false := beq_eq_false_iff_ne.mpr (Ne.symm h.1)
    rw [spacedBreaksFrom, Bool.false_and, if_neg Bool.false_ne_true, endsLine, hc, Bool.or_false,
      ih h.2, List.map_cons]
    split_ifs with hbeq heq heq
    · rfl
    · exact absurd (beq_iff_eq.mp hbeq) heq
    · exact absurd (beq_iff_eq.mpr heq) hbeq
    · rfl

/-- The pieces of the cells of a line behind its first pipe. -/
theorem splitPipes_cells (values : List Str) (hne : values ≠ []) :
    splitPipesFrom false [32] ((ofString " | ").intercalate (values.map escapePipes)
      ++ofString " |") = values.map (fun value => 32 :: (escapePipes value++[32]))++[[]] := by
  have hend : ofString " |" = [32, 0x7C] := by decide
  have hbetween : ofString " | " = [32, 0x7C, 32] := by decide
  induction values with
  | nil => exact absurd rfl hne
  | cons value values ih =>
    rcases eq_or_ne values [] with rfl | hvalues
    · rw [List.map_singleton, List.intercalate_singleton, hend, splitPipesFrom_escape,
        splitPipesFrom, if_pos ⟨rfl, rfl⟩]
      rfl
    · have hrest : (ofString " | ").intercalate ((value :: values).map escapePipes)++ofString " |"
          = escapePipes value++32 :: 0x7C :: 32
            :: ((ofString " | ").intercalate (values.map escapePipes)++ofString " |") := by
        rw [List.map_cons, intercalate_cons _ _ _ (by simpa using hvalues), hbetween]
        simp only [List.append_assoc, List.cons_append, List.nil_append]
      rw [hrest, splitPipesFrom_escape, splitPipesFrom, if_pos ⟨rfl, rfl⟩, splitPipesFrom,
        if_neg (by decide), List.nil_append]
      show _ :: splitPipesFrom false [32] _ = _
      rw [ih hvalues]
      rfl

/-- The cells of a line of the table, each read back. -/
theorem tableCells_tableLine (values : List Str) :
    tableCells (tableLine (values.map escapePipes))
      = if values = [] then [[]] else values.map strip := by
  have hstart : ofString "| " = [0x7C, 32] := by decide
  split_ifs with hempty
  · rw [hempty]
    decide
  · have hpieces : splitPipesFrom false [] (tableLine (values.map escapePipes))
        = [] :: (values.map (fun value => 32 :: (escapePipes value++[32]))++[[]]) := by
      rw [tableLine, hstart, List.append_assoc]
      show splitPipesFrom false [] (0x7C :: 32 :: ((ofString " | ").intercalate
        (values.map escapePipes)++ofString " |")) = _
      rw [splitPipesFrom, if_pos ⟨rfl, rfl⟩, splitPipesFrom, if_neg (by decide), List.nil_append]
      show [] :: splitPipesFrom false [32] _ = _
      rw [splitPipes_cells values hempty]
    rw [tableCells, hpieces, List.drop_succ_cons, List.drop_zero, List.dropLast_concat,
      List.map_map]
    apply List.map_congr_left
    intro value _
    exact cell_escapePipes value

theorem tableCells_row (row : List Str) (h : ∀ value ∈ row, 13 ∉ value) :
    tableCells (tableLine (row.map cellText)) = recordCells row := by
  have hcells : row.map cellText
      = (row.map (fun value => value.map (fun c => if c = 10 then 32 else c))).map escapePipes := by
    rw [List.map_map]
    exact List.map_congr_left fun value _ => cellText_eq value
  rw [hcells, tableCells_tableLine, recordCells]
  rcases eq_or_ne row [] with rfl | hrow
  · rfl
  · rw [if_neg hrow, if_neg (List.map_eq_nil_iff.not.mpr hrow), List.map_map]
    apply List.map_congr_left
    intro value hvalue
    rw [Function.comp_apply, spacedBreaks_feeds value (h value hvalue)]

theorem tableCells_separator (n : ℕ) :
    tableCells (tableLine (List.replicate (max 1 n) (ofString "---")))
      = List.replicate (max 1 n) (ofString "---") := by
  have hdashes : escapePipes (ofString "---") = ofString "---" := by decide
  have hstrip : strip (ofString "---") = ofString "---" := by decide
  have hne : List.replicate (max 1 n) (ofString "---") ≠ [] := by
    rw [Ne, List.replicate_eq_nil_iff]
    omega
  have hcells := tableCells_tableLine (List.replicate (max 1 n) (ofString "---"))
  rwa [if_neg hne, List.map_replicate, List.map_replicate, hdashes, hstrip] at hcells

theorem tableLine_concat (values : List Str) : ∃ front, tableLine values = front++[0x7C] := by
  refine ⟨ofString "| "++(ofString " | ").intercalate values++[32], ?_⟩
  have hend : ofString " |" = [32]++[0x7C] := by decide
  rw [tableLine, hend]
  simp only [List.append_assoc]

theorem cellText_returns (value : Str) : 13 ∈ cellText value ↔ 13 ∈ value := by
  rw [cellText_eq, escapePipes, List.mem_flatMap]
  constructor
  · rintro ⟨c, hc, hmem⟩
    obtain ⟨d, hd, rfl⟩ := List.mem_map.mp hc
    split_ifs at hmem with hfeed hpipe hpipe
    · exact absurd hmem (by decide)
    · exact absurd hmem (by decide)
    · exact absurd hmem (by decide)
    · rwa [List.mem_singleton.mp hmem]
  · intro hmem
    exact ⟨13, List.mem_map.mpr ⟨13, hmem, if_neg (by decide)⟩, by decide⟩

theorem cellText_feeds (value : Str) : 10 ∉ cellText value := by
  unfold cellText
  intro hmem
  obtain ⟨c, _, hc⟩ := List.mem_map.mp hmem
  split_ifs at hc with hfeed
  · exact absurd hc (by decide)
  · exact hfeed hc

/-- What stands in a line of the table besides the cells. -/
theorem mem_tableLine {values : List Str} {c : CodePoint} (h : c ∈ tableLine values) :
    c = 0x7C ∨ c = 32 ∨ ∃ value ∈ values, c ∈ value := by
  have hpart (part : Str) (hpart : part.all (fun d => d == 0x7C || d == 32) = true)
      (hc : c ∈ part) : c = 0x7C ∨ c = 32 := by
    have hor := List.all_eq_true.mp hpart c hc
    rwa [Bool.or_eq_true, beq_iff_eq, beq_iff_eq] at hor
  rw [tableLine, List.mem_append, List.mem_append] at h
  rcases h with (hc | hc) | hc
  · exact (hpart _ (by decide) hc).imp_right Or.inl
  · rcases mem_intercalate c _ values hc with hbetween | hvalue
    · exact (hpart _ (by decide) hbetween).imp_right Or.inl
    · exact Or.inr (Or.inr hvalue)
  · exact (hpart _ (by decide) hc).imp_right Or.inl

/-- The lines behind the first record. -/
theorem csvLines_later (rowNumber : ℕ) (hnumber : rowNumber ≠ 0) (rows : List (List Str))
    (hrows : rowNumber+rows.length ≤ 1000000) (hcolumns : ∀ row ∈ rows, row.length ≤ 16384) :
    csvLines rowNumber rows = .ok (rows.map (fun row => tableLine (row.map cellText))) := by
  induction rows generalizing rowNumber with
  | nil => rfl
  | cons row rows ih =>
    obtain ⟨hrow, hothers⟩ := List.forall_mem_cons.mp hcolumns
    rw [List.length_cons] at hrows
    rw [csvLines, raiseIf_of_not _ (by omega), ok_bind, raiseIf_of_not _ (by omega), ok_bind,
      ih (rowNumber+1) (by omega) (by omega) hothers, ok_bind]
    simp only [if_neg hnumber]
    rfl

/-- The lines of the table, behind the first record the separator. -/
def tableLines : List (List Str) → List Str
  | [] => []
  | row :: rows =>
    tableLine (row.map cellText) :: tableLine (List.replicate (max 1 row.length) (ofString "---"))
      :: rows.map (fun row => tableLine (row.map cellText))

theorem csvLines_eq (rows : List (List Str)) (hrows : rows.length ≤ 1000000)
    (hcolumns : ∀ row ∈ rows, row.length ≤ 16384) : csvLines 0 rows = .ok (tableLines rows) := by
  cases rows with
  | nil => rfl
  | cons row rows =>
    obtain ⟨hrow, hothers⟩ := List.forall_mem_cons.mp hcolumns
    rw [List.length_cons] at hrows
    rw [csvLines, raiseIf_of_not _ (by omega), ok_bind, raiseIf_of_not _ (by omega), ok_bind,
      csvLines_later 1 one_ne_zero rows (by omega) hothers, ok_bind]
    rfl

/-- A line without carriage returns is one line of the text. -/
theorem markdownLines_row (row : List Str) (h : ∀ value ∈ row, 13 ∉ value) :
    markdownLines (tableLine (row.map cellText)) = [tableLine (row.map cellText)] := by
  have hplain : ∀ c ∈ tableLine (row.map cellText), endsLine c = false := by
    intro c hc
    rcases mem_tableLine hc with rfl | rfl | ⟨cell, hcell, hmem⟩
    · decide
    · decide
    · obtain ⟨value, hvalue, rfl⟩ := List.mem_map.mp hcell
      rw [endsLine, Bool.or_eq_false_iff, beq_eq_false_iff_ne, beq_eq_false_iff_ne]
      constructor
      · rintro rfl
        exact cellText_feeds value hmem
      · rintro rfl
        exact h value hvalue ((cellText_returns value).mp hmem)
  obtain ⟨front, hfront⟩ := tableLine_concat (row.map cellText)
  rw [markdownLines, markdownLinesFrom_keep [] _ hplain, List.nil_append, if_neg]
  rw [hfront]
  exact List.append_ne_nil_of_right_ne_nil _ (List.cons_ne_nil _ _)

theorem markdownLines_separator (n : ℕ) :
    markdownLines (tableLine (List.replicate (max 1 n) (ofString "---")))
      = [tableLine (List.replicate (max 1 n) (ofString "---"))] := by
  have hdashes : cellText (ofString "---") = ofString "---" := by decide
  have hrow := markdownLines_row (List.replicate (max 1 n) (ofString "---"))
    (fun value hvalue => by
      rw [List.eq_of_mem_replicate hvalue]
      decide)
  rwa [List.map_replicate, hdashes] at hrow

/-- A carriage return in a cell breaks the line of its record. -/
theorem markdownLines_broken (row : List Str) (value : Str) (hvalue : value ∈ row)
    (h : 13 ∈ value) : 2 ≤ (markdownLines (tableLine (row.map cellText))).length := by
  obtain ⟨front, hfront⟩ := tableLine_concat (row.map cellText)
  have hmem : 13 ∈ front := by
    have hcell := (cellText_returns value).mpr h
    have hline : 13 ∈ tableLine (row.map cellText) := by
      rw [tableLine, List.mem_append, List.mem_append]
      exact Or.inl (Or.inr (mem_intercalate_of_mem 13 _ _
        (List.mem_map_of_mem hvalue) hcell))
    rw [hfront, List.mem_append] at hline
    exact hline.resolve_right (by decide)
  obtain ⟨before, behind, rfl⟩ := List.append_of_mem hmem
  rw [hfront, List.append_assoc, List.cons_append]
  exact markdownLinesFrom_return [] false before behind 0x7C (by decide)

theorem markdownLines_tableLines (rows : List (List Str)) :
    markdownLines ((ofString "\n").intercalate (tableLines rows))
      = (tableLines rows).flatMap markdownLines := by
  apply markdownLines_join
  intro line hline
  obtain ⟨values, rfl⟩ : ∃ values, line = tableLine values := by
    cases rows with
    | nil => cases hline
    | cons row rows =>
      rcases List.mem_cons.mp hline with rfl | hline
      · exact ⟨_, rfl⟩
      rcases List.mem_cons.mp hline with rfl | hline
      · exact ⟨_, rfl⟩
      · obtain ⟨other, _, rfl⟩ := List.mem_map.mp hline
        exact ⟨_, rfl⟩
  obtain ⟨front, hfront⟩ := tableLine_concat values
  exact ⟨front, 0x7C, hfront, by decide⟩

/-- No record without a line of its own. -/
theorem markdownLines_rows_le (rows : List (List Str)) :
    rows.length ≤ ((rows.map (fun row => tableLine (row.map cellText))).flatMap
      markdownLines).length := by
  induction rows with
  | nil => exact Nat.zero_le _
  | cons row rows ih =>
    obtain ⟨front, hfront⟩ := tableLine_concat (row.map cellText)
    have hline := markdownLinesFrom_pos [] false front 0x7C (by decide)
    rw [← hfront] at hline
    rw [List.map_cons, List.flatMap_cons, List.length_append, List.length_cons, markdownLines]
    omega

theorem markdownLines_rows_lt (rows : List (List Str)) (row : List Str) (hrow : row ∈ rows)
    (value : Str) (hvalue : value ∈ row) (h : 13 ∈ value) :
    rows.length < ((rows.map (fun row => tableLine (row.map cellText))).flatMap
      markdownLines).length := by
  obtain ⟨before, behind, rfl⟩ := List.append_of_mem hrow
  have hbefore := markdownLines_rows_le before
  have hbehind := markdownLines_rows_le behind
  have hbroken := markdownLines_broken row value hvalue h
  rw [List.map_append, List.flatMap_append, List.map_cons, List.flatMap_cons]
  simp only [List.length_append, List.length_cons]
  omega

theorem faithful_of_no_returns (rows : List (List Str))
    (h : ∀ row ∈ rows, ∀ value ∈ row, 13 ∉ value) :
    FaithfulTable rows ((ofString "\n").intercalate (tableLines rows)) := by
  cases rows with
  | nil => rfl
  | cons row rows =>
    obtain ⟨hrow, hrows⟩ := List.forall_mem_cons.mp h
    refine ⟨tableLine (row.map cellText), _, rows.map (fun row => tableLine (row.map cellText)),
      ?_, tableCells_separator row.length, ?_⟩
    · have hrest : (rows.map (fun row => tableLine (row.map cellText))).flatMap markdownLines
          = rows.map (fun row => tableLine (row.map cellText)) := by
        rw [List.flatMap_map]
        calc rows.flatMap (fun row => markdownLines (tableLine (row.map cellText)))
            = rows.flatMap (fun row => [tableLine (row.map cellText)]) :=
              List.flatMap_congr fun row hmem => markdownLines_row row (hrows row hmem)
          _ = rows.map (fun row => tableLine (row.map cellText)) := List.map_eq_flatMap.symm
      rw [markdownLines_tableLines, tableLines, List.flatMap_cons, List.flatMap_cons,
        markdownLines_row row hrow, markdownLines_separator, hrest]
      rfl
    · rw [List.map_cons, List.map_cons, List.map_map, tableCells_row row hrow]
      congr 1
      exact List.map_congr_left fun row hmem => tableCells_row row (hrows row hmem)

theorem no_returns_of_faithful (rows : List (List Str))
    (h : FaithfulTable rows ((ofString "\n").intercalate (tableLines rows))) :
    ∀ row ∈ rows, ∀ value ∈ row, 13 ∉ value := by
  intro row hrow value hvalue hreturn
  cases rows with
  | nil => cases hrow
  | cons first rows =>
    obtain ⟨line, separator, others, hlines, _, hcells⟩ := h
    have hcount := congrArg List.length hlines
    have hothers := congrArg List.length hcells
    have hlonger := markdownLines_rows_lt (first :: rows) row hrow value hvalue hreturn
    rw [markdownLines_tableLines, tableLines, List.flatMap_cons, List.flatMap_cons,
      markdownLines_separator] at hcount
    rw [List.map_cons, List.flatMap_cons] at hlonger
    simp only [List.length_append, List.length_cons, List.length_nil, List.length_map] at *
    omega

/-- The table that a CSV file becomes is faithful to its records exactly when no cell holds a
carriage return. -/
theorem csv_table_iff (rows : List (List Str)) (hrows : rows.length ≤ 1000000)
    (hcolumns : ∀ row ∈ rows, row.length ≤ 16384) :
    ∃ lines, csvLines 0 rows = .ok lines
      ∧ (∀ text, csvReader 0x2C text = ⟨rows, none⟩ →
        csvMarkdown text = .ok ((ofString "\n").intercalate lines))
      ∧ (FaithfulTable rows ((ofString "\n").intercalate lines)
        ↔ ∀ row ∈ rows, ∀ value ∈ row, 13 ∉ value) := by
  refine ⟨tableLines rows, csvLines_eq rows hrows hcolumns, ?_,
    no_returns_of_faithful rows, faithful_of_no_returns rows⟩
  intro text htext
  unfold csvMarkdown
  dsimp only
  rw [htext, csvLines_eq rows hrows hcolumns]
  rfl

/-- The records of a small file with a pipe, a backslash and a line feed in its cells. -/
theorem csv_table_iff_notes : ([[ofString "a|b", ofString "c\\"], [], [ofString "d\ne"]] :
      List (List Str)).length ≤ 1000000
    ∧ ∃ output, csvMarkdown (ofString "a|b,c\\\n\n\"d\ne\"\n") = .ok output
      ∧ FaithfulTable [[ofString "a|b", ofString "c\\"], [], [ofString "d\ne"]] output := by
  have hcolumns : ∀ row ∈ ([[ofString "a|b", ofString "c\\"], [], [ofString "d\ne"]] :
      List (List Str)), row.length ≤ 16384 := by decide
  obtain ⟨lines, _, hmarkdown, hfaithful⟩ := csv_table_iff _ (by decide) hcolumns
  exact ⟨by decide, _, hmarkdown _ (by decide +kernel), hfaithful.mpr (by decide)⟩

/-- A carriage return inside quotes breaks the line of its record. -/
theorem csv_return_breaks_line : csvReader 0x2C (ofString "\"a\rb\"") = ⟨[[ofString "a\rb"]], none⟩
    ∧ csvMarkdown (ofString "\"a\rb\"") = .ok (ofString "| a\rb |\n| --- |")
    ∧ ¬FaithfulTable [[ofString "a\rb"]] (ofString "| a\rb |\n| --- |") := by
  refine ⟨by decide +kernel, by decide +kernel, ?_⟩
  rintro ⟨line, separator, others, hlines, _, hcells⟩
  have hcount := congrArg List.length hlines
  have hothers := congrArg List.length hcells
  have hthree : (markdownLines (ofString "| a\rb |\n| --- |")).length = 3 := by decide +kernel
  simp only [List.length_cons, List.length_nil, List.length_map] at *
  omega

end TextDocumentExtractor

end ConferWorker
