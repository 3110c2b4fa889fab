import ConferWorker.TsvTexts

/-! When the words of a page are kept: of numbers in range, the TSV parser loses or alters words
exactly where the CSV reader sees a quote at the start of a text, a stray carriage return or a field
that is too long. -/
namespace ConferWorker

open CsvParser

/-- One block comes from each line, with the words of the line. -/
def WordsKept (image : RasterImage) (rows : List TsvRow) : Prop :=
  ∃ blocks, TesseractTsvParser.parse (tsvText rows) image = .ok blocks
    ∧ blocks.map TextBlock.text = (tsvLines rows).map lineText

/-- The header as a row. -/
def tsvHeader : TsvRow :=
  ⟨ofString "level", ofString "page_num", ofString "block_num", ofString "par_num",
    ofString "line_num", ofString "word_num", ofString "left", ofString "top", ofString "width",
    ofString "height", ofString "conf", ofString "text"⟩

theorem tsvText_eq (rows : List TsvRow) :
    tsvText rows = (tsvHeader :: rows).flatMap TsvRow.line := rfl

theorem tsvHeader_raw : tsvHeader.IsRaw := TsvRow.isRaw_of_all (by decide)

theorem tsvHeader_clean : tsvHeader.Clean := TsvRow.clean_of_all (by decide)

theorem textLines_rows (rows : List TsvRow) (hraw : ∀ row ∈ rows, row.IsRaw) :
    textLines (rows.flatMap TsvRow.line) = rows.map TsvRow.line := by
  induction rows with
  | nil => rfl
  | cons row rows ih =>
    obtain ⟨hrow, hrows⟩ := List.forall_mem_cons.mp hraw
    have hline : 10 ∉ row.numbersText++row.text := by
      intro hmem
      rcases List.mem_append.mp hmem with hnumbers | htext
      · obtain ⟨field, hfield, hchar⟩ := List.mem_flatMap.mp hnumbers
        rcases List.mem_append.mp hchar with hinside | htab
        · exact (hrow.number hfield 10 hinside).2 rfl
        · exact absurd (List.mem_singleton.mp htab) (by decide)
      · exact (hrow.text 10 htext).2 rfl
    have hsplit : row.line++rows.flatMap TsvRow.line
        = (row.numbersText++row.text)++10 :: rows.flatMap TsvRow.line := by
      rw [TsvRow.line_eq]
      simp only [List.append_assoc, List.singleton_append]
    rw [List.flatMap_cons, textLines, hsplit, textLinesFrom_line _ _ _ hline, ← textLines, ih hrows,
      List.map_cons, TsvRow.line_eq]
    simp only [List.append_assoc, List.nil_append]

/-- Behind the header the reader reads the rows. -/
theorem csvReader_tsvText (rows : List TsvRow) (hraw : ∀ row ∈ rows, row.IsRaw) :
    csvReader 9 (tsvText rows)
      = ⟨(tsvNames++[ofString "text"]) :: (readRecords 9 .start (rows.map TsvRow.line)).rows,
        (readRecords 9 .start (rows.map TsvRow.line)).failure⟩ := by
  have hall : ∀ row ∈ tsvHeader :: rows, row.IsRaw :=
    List.forall_mem_cons.mpr ⟨tsvHeader_raw, hraw⟩
  rw [csvReader, tsvText_eq, textLines_rows _ hall, List.map_cons, readRecords,
    TsvRow.readLine_clean tsvHeader_raw tsvHeader_clean]
  rfl

/-- The words of clean rows are kept where the numbers are in range. -/
theorem wordsKept_of_clean (image : RasterImage) (himage : 0 < image.width ∧ 0 < image.height)
    (rows : List TsvRow) (hraw : ∀ row ∈ rows, row.IsRaw) (hclean : ∀ row ∈ rows, row.Clean)
    (page : PageInRange image) (inRange : TsvInRange rows) : WordsKept image rows := by
  have hread := csvReader_tsvText rows hraw
  have hrecords : rows.map (fun row => row.trimmed.fields)
      = (rows.map TsvRow.trimmed).map TsvRow.fields := by
    rw [List.map_map]
    rfl
  rw [readRecords_clean rows (fun row hrow => ⟨hraw row hrow, hclean row hrow⟩), hrecords] at hread
  obtain ⟨blocks, hparse⟩ := parse_inRange hread himage page (inRange_trimmed hclean inRange)
  exact ⟨blocks, hparse, by rw [texts_of_parse hread hparse, lineTexts_trimmed hclean]⟩

/-- Where the words of printed rows are kept, the rows are clean. -/
theorem clean_of_wordsKept (image : RasterImage) (rows : List TsvRow)
    (hrows : ∀ row ∈ rows, row.Printed) (hkept : WordsKept image rows) :
    ∀ row ∈ rows, row.Clean := by
  have hraw (row : TsvRow) (hrow : row ∈ rows) : row.IsRaw := (hrows row hrow).raw
  obtain ⟨blocks, hparse, htexts⟩ := hkept
  have hread := csvReader_tsvText rows hraw
  cases hfailure : (readRecords 9 .start (rows.map TsvRow.line)).failure with
  | some error =>
    exact absurd hparse (not_parse_of_failure (by rw [hread]; exact hfailure))
  | none =>
    rw [hfailure] at hread
    obtain ⟨records, hrecords, hcases⟩ := (readRecords_printed rows hrows).1
      (readRecords 9 .start (rows.map TsvRow.line)).rows (by rw [← hfailure])
    rw [hrecords] at hread
    have hsame : (tsvLines records).map lineText = (tsvLines rows).map lineText :=
      (texts_of_parse hread hparse).symm.trans htexts
    rcases hcases with ⟨record, hrecord, hruns⟩ | hall
    · obtain ⟨text, htext, htab⟩ := tab_of_runsOn hrecord hruns
      exact absurd htab (no_tab_in_lines hraw text (hsame ▸ htext))
    · have hink : (records.map wordInk).sum = (rows.map wordInk).sum := by
        rw [← sum_tsvLines, ← sum_tsvLines, hsame]
      exact (clean_of_ink hall hrows hink).1

/-- Of numbers in range, clean rows keep their words; among the rows that Tesseract prints no
others do, whatever their numbers are. -/
theorem wordsKept_iff_clean (image : RasterImage) (himage : 0 < image.width ∧ 0 < image.height)
    (rows : List TsvRow) (hraw : ∀ row ∈ rows, row.IsRaw) :
    ((∀ row ∈ rows, row.Clean) ∧ PageInRange image ∧ TsvInRange rows → WordsKept image rows)
    ∧ ((∀ row ∈ rows, row.Printed) →
      (WordsKept image rows → ∀ row ∈ rows, row.Clean)
      ∧ (PageInRange image ∧ TsvInRange rows →
        (WordsKept image rows ↔ ∀ row ∈ rows, row.Clean))) := by
  refine ⟨?_, fun hrows => ⟨clean_of_wordsKept image rows hrows, ?_⟩⟩
  · rintro ⟨hclean, page, inRange⟩
    exact wordsKept_of_clean image himage rows hraw hclean page inRange
  · rintro ⟨page, inRange⟩
    exact ⟨clean_of_wordsKept image rows hrows, fun hclean =>
      wordsKept_of_clean image himage rows hraw hclean page inRange⟩

section Page

/-- A page of 100 by 200 pixels. -/
def pageImage : RasterImage := ⟨100, 200, [], 200, 400, 0, 0⟩

/-- A word row of the first paragraph. -/
def wordRow (line word left text : String) : TsvRow :=
  ⟨ofString "5", ofString "1", ofString "1", ofString "1", ofString line, ofString word,
    ofString left, ofString "20", ofString "30", ofString "10", ofString "95.0", ofString text⟩

theorem wordRow_inRange (line word left text : String) (hleft : IsPixels (ofString left)) :
    WordInRange (wordRow line word left text) where
  left := hleft
  top := ⟨20, show readInt (ofString "20") = .ok 20 by decide +kernel, by norm_num⟩
  width := ⟨30, show readInt (ofString "30") = .ok 30 by decide +kernel, by norm_num⟩
  height := ⟨10, show readInt (ofString "10") = .ok 10 by decide +kernel, by norm_num⟩
  confidence := ⟨95, show readFloat (ofString "95.0") = .ok (.finite 95) by decide +kernel,
    by norm_num⟩

theorem pageImage_inRange : PageInRange pageImage where
  width := by decide
  height := by decide
  x0 := ⟨le_rfl, by norm_num [pageImage]⟩
  y0 := ⟨le_rfl, by norm_num [pageImage]⟩
  page_width := ⟨by norm_num [pageImage], by norm_num [pageImage]⟩
  page_height := ⟨by norm_num [pageImage], by norm_num [pageImage]⟩

/-- The words `Analyte 500` of a line, as Tesseract prints them. -/
def analyteRows : List TsvRow := [wordRow "1" "1" "10" "Analyte", wordRow "1" "2" "50" "500"]

theorem analyteRows_raw : ∀ row ∈ analyteRows, row.IsRaw :=
  List.forall_mem_cons.mpr ⟨TsvRow.isRaw_of_all (by decide),
    List.forall_mem_singleton.mpr (TsvRow.isRaw_of_all (by decide))⟩

theorem analyteRows_clean : ∀ row ∈ analyteRows, row.Clean :=
  List.forall_mem_cons.mpr ⟨TsvRow.clean_of_all (by decide),
    List.forall_mem_singleton.mpr (TsvRow.clean_of_all (by decide))⟩

theorem analyteRows_inRange : TsvInRange analyteRows where
  count := by decide
  words := List.forall_mem_cons.mpr
    ⟨fun _ => wordRow_inRange _ _ _ _ ⟨10, by decide +kernel, by norm_num⟩,
      List.forall_mem_singleton.mpr fun _ =>
        wordRow_inRange _ _ _ _ ⟨50, by decide +kernel, by norm_num⟩⟩

theorem analyteRows_printed : ∀ row ∈ analyteRows, row.Printed := by
  have hprinted (row : TsvRow) (hraw : row.IsRaw) (hlevel : row.level = ofString "5")
      (hall : (row.numbers.all fun field =>
        field != [] && field.all fun c => !isSpace c && c != quote) = true) : row.Printed := by
    refine ⟨hraw, fun field hfield => ?_, fun h => absurd hlevel h⟩
    have hnumber := List.all_eq_true.mp hall field hfield
    simpa only [Bool.and_eq_true, bne_iff_ne, List.all_eq_true, Bool.not_eq_true'] using hnumber
  have hraw := List.forall_mem_cons.mp analyteRows_raw
  exact List.forall_mem_cons.mpr ⟨hprinted _ hraw.1 rfl (by decide),
    List.forall_mem_singleton.mpr (hprinted _ (List.forall_mem_singleton.mp hraw.2) rfl (by decide))⟩

theorem analyteRows_kept : WordsKept pageImage analyteRows
    ∧ (WordsKept pageImage analyteRows ↔ ∀ row ∈ analyteRows, row.Clean) :=
  have hwords := wordsKept_iff_clean pageImage (by decide) analyteRows analyteRows_raw
  have inRange := And.intro pageImage_inRange analyteRows_inRange
  ⟨hwords.1 ⟨analyteRows_clean, inRange⟩, (hwords.2 analyteRows_printed).2 inRange⟩

/-- A word that begins with a quote, and the word of the next line. -/
def quotedRows : List TsvRow := [wordRow "1" "1" "10" "\"Analyte", wordRow "2" "1" "50" "500"]

/-- The first word swallows the row of the second one. -/
theorem quotedRows_lost :
    (∀ row ∈ quotedRows, row.IsRaw)
    ∧ (TesseractTsvParser.parse (tsvText quotedRows) pageImage).map
        (fun blocks => blocks.map TextBlock.text)
      = .ok [ofString "Analyte\n5\t1\t1\t1\t2\t1\t50\t20\t30\t10\t95.0\t500\n"]
    ∧ (tsvLines quotedRows).map lineText = [ofString "\"Analyte\n", ofString "500\n"]
    ∧ ¬WordsKept pageImage quotedRows := by
  have hparse : (TesseractTsvParser.parse (tsvText quotedRows) pageImage).map
        (fun blocks => blocks.map TextBlock.text)
      = .ok [ofString "Analyte\n5\t1\t1\t1\t2\t1\t50\t20\t30\t10\t95.0\t500\n"] := by
    decide +kernel
  have htexts : (tsvLines quotedRows).map lineText
      = [ofString "\"Analyte\n", ofString "500\n"] := by
    decide +kernel
  refine ⟨?_, hparse, htexts, ?_⟩
  · exact List.forall_mem_cons.mpr ⟨TsvRow.isRaw_of_all (by decide),
      List.forall_mem_singleton.mpr (TsvRow.isRaw_of_all (by decide))⟩
  · rintro ⟨blocks, hblocks, hkept⟩
    rw [hblocks] at hparse
    have hread : blocks.map TextBlock.text
        = [ofString "Analyte\n5\t1\t1\t1\t2\t1\t50\t20\t30\t10\t95.0\t500\n"] :=
      Except.ok.inj hparse
    rw [hkept, htexts] at hread
    exact absurd (congrArg List.length hread) (by decide)

end Page

end ConferWorker
