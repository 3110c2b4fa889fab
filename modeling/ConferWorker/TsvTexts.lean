import ConferWorker.JoinedPieces
import ConferWorker.TsvBlocks
import ConferWorker.TsvRuns

/-! The texts of the lines of a page: how much ink they have, that they hold no tab, and that
carriage returns at the end of a row do not count. -/
namespace ConferWorker

open CsvParser

theorem tsvLines_eq_group (rows : List TsvRow) :
    tsvLines rows = (PythonDict.group ((rows.filter TsvRow.isWord).map
      (fun word => (word.lineKey, word)))).values := by
  rw [PythonDict.group_values, tsvLines, List.map_map]
  apply List.map_congr_left
  intro key _
  simp only [valuesOf, List.filter_map, List.map_map, Function.comp_def, List.map_id']

section Ink

/-- The ink that a row adds to the blocks. -/
def wordInk (row : TsvRow) : ℕ := if row.level = ofString "5" then ink row.text else 0

theorem ink_lineText (words : List TsvRow) :
    ink (lineText words) = (words.map (fun word => ink word.text)).sum := by
  rw [lineText, ink_append, ink_intercalate _ (by decide), List.map_map]
  simp only [Function.comp_def, ink_strip]
  rfl

theorem sum_words (rows : List TsvRow) :
    ((rows.filter TsvRow.isWord).map (fun word => ink word.text)).sum
      = (rows.map wordInk).sum := by
  induction rows with
  | nil => rfl
  | cons row rows ih =>
    have hrow : wordInk row = if row.isWord then ink row.text else 0 := by
      by_cases hlevel : row.level = ofString "5"
      · by_cases htext : strip row.text = []
        · simp [wordInk, TsvRow.isWord, htext, ink_eq_zero htext]
        · simp [wordInk, TsvRow.isWord, hlevel, htext]
      · simp [wordInk, TsvRow.isWord, hlevel]
    rw [List.map_cons, List.sum_cons, hrow, ← ih, List.filter_cons]
    split_ifs
    · rw [List.map_cons, List.sum_cons]
    · rw [Nat.zero_add]

/-- The blocks have together the ink of the rows. -/
theorem sum_tsvLines (rows : List TsvRow) :
    (((tsvLines rows).map lineText).map ink).sum = (rows.map wordInk).sum := by
  have hgroup := PythonDict.sum_group_values (fun word : TsvRow => ink word.text)
    ((rows.filter TsvRow.isWord).map (fun word => (word.lineKey, word)))
  rw [← tsvLines_eq_group, List.map_map] at hgroup
  rw [List.map_map, ← sum_words]
  simpa only [Function.comp_def, ink_lineText] using hgroup

theorem wordInk_le {row record : TsvRow} (h : ReadAs row record) : wordInk record ≤ wordInk row := by
  have hlevel : record.level = row.level := (List.cons.inj h.numbers).1
  unfold wordInk
  rw [hlevel]
  split_ifs
  · exact h.ink_le
  · exact le_rfl

/-- Where no ink is lost, every row is clean and read as it stands. -/
theorem clean_of_ink {rows records : List TsvRow} (hread : List.Forall₂ ReadAs rows records)
    (hrows : ∀ row ∈ rows, row.Printed)
    (hink : (records.map wordInk).sum = (rows.map wordInk).sum) :
    (∀ row ∈ rows, row.Clean) ∧ records = rows.map TsvRow.trimmed := by
  have htotal {rows records : List TsvRow} (h : List.Forall₂ ReadAs rows records) :
      (records.map wordInk).sum ≤ (rows.map wordInk).sum := by
    induction h with
    | nil => exact le_rfl
    | cons hfirst _ ih =>
      rw [List.map_cons, List.map_cons, List.sum_cons, List.sum_cons]
      exact Nat.add_le_add (wordInk_le hfirst) ih
  induction hread with
  | nil => exact ⟨nofun, rfl⟩
  | @cons row record rows records hfirst hrest ih =>
    obtain ⟨hrow, hrows⟩ := List.forall_mem_cons.mp hrows
    rw [List.map_cons, List.map_cons, List.sum_cons, List.sum_cons] at hink
    have hle := wordInk_le hfirst
    have hsum := htotal hrest
    have hlevel : record.level = row.level := (List.cons.inj hfirst.numbers).1
    have hsame : ink record.text = ink row.text := by
      by_cases hfive : row.level = ofString "5"
      · have heq : wordInk record = wordInk row := by omega
        simpa only [wordInk, hlevel, hfive, if_true] using heq
      · have hnone := hfirst.ink_le
        rw [hrow.text hfive] at hnone ⊢
        exact Nat.le_antisymm hnone (Nat.zero_le _)
    obtain ⟨hclean, hrecord⟩ := hfirst.clean hsame
    obtain ⟨hcleans, hrecords⟩ := ih hrows (by omega)
    exact ⟨List.forall_mem_cons.mpr ⟨hclean, hcleans⟩, by rw [hrecord, hrecords, List.map_cons]⟩

end Ink

section Tabs

theorem mem_tsvLines {rows words : List TsvRow} (hwords : words ∈ tsvLines rows) :
    ∀ word ∈ words, word ∈ rows :=
  fun word hword => ((tsvLines_words hwords).2.2 word hword).1

/-- The texts of raw rows hold no tab. -/
theorem no_tab_in_lines {rows : List TsvRow} (hraw : ∀ row ∈ rows, row.IsRaw) :
    ∀ text ∈ (tsvLines rows).map lineText, 9 ∉ text := by
  intro text htext htab
  obtain ⟨words, hwords, rfl⟩ := List.mem_map.mp htext
  rcases List.mem_append.mp htab with hjoined | hend
  · rcases mem_intercalate 9 _ _ hjoined with hspace | ⟨stripped, hstripped, hmem⟩
    · exact absurd hspace (by decide)
    · obtain ⟨word, hword, rfl⟩ := List.mem_map.mp hstripped
      exact ((hraw word (mem_tsvLines hwords word hword)).text 9 (mem_of_mem_strip hmem)).1 rfl
  · exact absurd hend (by decide)

/-- A text that ran on over a row leaves a tab in a block. -/
theorem tab_of_runsOn {records : List TsvRow} {record : TsvRow} (hrecord : record ∈ records)
    (hruns : RunsOn record) : ∃ text ∈ (tsvLines records).map lineText, 9 ∈ text := by
  obtain ⟨hlevel, before, after, htext, hbefore, hafter⟩ := hruns
  have htab : 9 ∈ strip record.text := htext ▸ mem_strip_between 9 hbefore hafter
  have hword : record ∈ records.filter TsvRow.isWord := by
    rw [List.mem_filter, TsvRow.isWord, decide_eq_true_eq]
    exact ⟨hrecord, hlevel, List.ne_nil_of_mem htab⟩
  obtain ⟨words, hwords, hmem⟩ := PythonDict.mem_group_values
    ((records.filter TsvRow.isWord).map (fun word => (word.lineKey, word)))
    (record.lineKey, record) (List.mem_map.mpr ⟨record, hword, rfl⟩)
  rw [← tsvLines_eq_group] at hwords
  refine ⟨lineText words, List.mem_map.mpr ⟨words, hwords, rfl⟩, List.mem_append_left _ ?_⟩
  exact mem_intercalate_of_mem 9 _ _ (List.mem_map.mpr ⟨record, hmem, rfl⟩) htab

end Tabs

section Trimmed

theorem strip_lineBody {text : Str} (h : ReturnsLast text) : strip (lineBody text) = strip text := by
  have hblank : (text.dropWhile (fun c => c != 13)).all isSpace = true := by
    rw [List.all_eq_true]
    intro c hc
    rw [h c hc]
    decide
  calc strip (lineBody text)
      = strip (lineBody text++text.dropWhile (fun c => c != 13)) :=
        (strip_append_blank _ _ hblank).symm
    _ = strip text := by rw [lineBody, List.takeWhile_append_dropWhile]

variable {rows : List TsvRow} (hclean : ∀ row ∈ rows, row.Clean)
include hclean

/-- Trimmed rows have the same words in the same lines. -/
theorem tsvLines_trimmed :
    tsvLines (rows.map TsvRow.trimmed)
      = (tsvLines rows).map (fun words => words.map TsvRow.trimmed) := by
  have hwords : (rows.map TsvRow.trimmed).filter TsvRow.isWord
      = (rows.filter TsvRow.isWord).map TsvRow.trimmed := by
    rw [List.filter_map]
    congr 1
    apply List.filter_congr
    intro row hrow
    simp only [Function.comp_apply, TsvRow.isWord, TsvRow.trimmed,
      strip_lineBody (hclean row hrow).returnsLast]
  have hkeys : ((rows.filter TsvRow.isWord).map TsvRow.trimmed).map TsvRow.lineKey
      = (rows.filter TsvRow.isWord).map TsvRow.lineKey := by
    rw [List.map_map]
    rfl
  rw [tsvLines, tsvLines, hwords, hkeys, List.map_map]
  apply List.map_congr_left
  intro key _
  rw [Function.comp_apply, List.filter_map]
  rfl

theorem lineText_trimmed {words : List TsvRow} (hwords : words ∈ tsvLines rows) :
    lineText (words.map TsvRow.trimmed) = lineText words := by
  unfold lineText
  rw [List.map_map]
  congr 2
  apply List.map_congr_left
  intro word hword
  exact strip_lineBody (hclean word (mem_tsvLines hwords word hword)).returnsLast

theorem lineTexts_trimmed :
    (tsvLines (rows.map TsvRow.trimmed)).map lineText = (tsvLines rows).map lineText := by
  rw [tsvLines_trimmed hclean, List.map_map]
  apply List.map_congr_left
  exact fun words hwords => lineText_trimmed hclean hwords

theorem inRange_trimmed (h : TsvInRange rows) : TsvInRange (rows.map TsvRow.trimmed) := by
  refine ⟨by rw [List.length_map]; exact h.count, ?_⟩
  rw [List.forall_mem_map]
  intro row hrow hword
  have hsame : row.isWord = true := by
    simpa only [TsvRow.isWord, TsvRow.trimmed, strip_lineBody (hclean row hrow).returnsLast]
      using hword
  have numbers := h.words row hrow hsame
  exact ⟨numbers.left, numbers.top, numbers.width, numbers.height, numbers.confidence⟩

end Trimmed

end ConferWorker
