import ConferWorker.CsvQuotes
import ConferWorker.TsvRows

/-! The records that the CSV reader makes of printed rows: rows whose fields do not begin with a
quote are read one by one, and a text that begins with one is lost in part or runs on into the
following rows. -/
namespace ConferWorker

open CsvParser

/-- Read line by line, one record comes from every line that ends a record. -/
theorem readRecords_cons {delimiter : CodePoint} {parser : CsvParser} {line : Str}
    {lines : List Str} {recs : List (List Str)}
    (h : readRecords delimiter parser (line :: lines) = ⟨recs, none⟩) :
    ∃ next, parser.readLine delimiter line = .ok next
      ∧ ((next.place = .startRecord ∧ ∃ rest, recs = next.fields :: rest
          ∧ readRecords delimiter .start lines = ⟨rest, none⟩)
        ∨ (next.place ≠ .startRecord ∧ readRecords delimiter next lines = ⟨recs, none⟩)) := by
  rw [readRecords] at h
  cases hline : parser.readLine delimiter line with
  | error error => simp [hline] at h
  | ok next =>
    rw [hline] at h
    refine ⟨next, rfl, ?_⟩
    by_cases hplace : next.place = .startRecord
    · simp only [hplace, if_true] at h
      injection h with hrows hfailure
      refine Or.inl ⟨hplace, _, hrows.symm, ?_⟩
      rw [← hfailure]
    · simp only [hplace, if_false] at h
      exact Or.inr ⟨hplace, h⟩

theorem textLinesFrom_line (line s rest : Str) (hs : 10 ∉ s) :
    textLinesFrom line (s++10 :: rest) = (line++s++[10]) :: textLinesFrom [] rest := by
  induction s generalizing line with
  | nil => rw [List.nil_append, textLinesFrom, if_pos rfl, List.append_nil]
  | cons c s ih =>
    have hc : c ≠ 10 := fun h => hs (h ▸ List.mem_cons_self)
    rw [List.cons_append, textLinesFrom, if_neg hc, ih _ fun h => hs (List.mem_cons_of_mem c h)]
    simp only [List.append_assoc, List.cons_append, List.nil_append]

namespace TsvRow

/-- The row with the part of its text that an undisturbed reader reads. -/
def trimmed (row : TsvRow) : TsvRow := { row with text := lineBody row.text }

/-- No field begins with a quote, carriage returns stand only at the end of the row, and no
field is longer than the reader allows. -/
structure Clean (row : TsvRow) : Prop where
  unquoted : ∀ field ∈ row.fields, field.head? ≠ some quote
  noReturns : ∀ field ∈ row.numbers, 13 ∉ field
  returnsLast : ReturnsLast row.text
  short : ∀ field ∈ row.trimmed.fields, field.length ≤ fieldSizeLimit

/-- A row as Tesseract prints it: the numbers are neither empty nor hold white space or a quote,
and only a row of level 5 has a text. -/
structure Printed (row : TsvRow) : Prop where
  raw : row.IsRaw
  numbers : ∀ field ∈ row.numbers, field ≠ [] ∧ ∀ c ∈ field, isSpace c = false ∧ c ≠ quote
  text : row.level ≠ ofString "5" → row.text = []

/-- The fields in front of the text as they stand in the line. -/
def numbersText (row : TsvRow) : Str := row.numbers.flatMap (fun field => field++[9])

variable {row : TsvRow} {parser : CsvParser}

theorem line_eq (row : TsvRow) : row.line = row.numbersText++(row.text++[10]) :=
  List.append_assoc _ _ _

theorem IsRaw.number (hraw : row.IsRaw) {field : Str} (hfield : field ∈ row.numbers) :
    CsvParser.IsRaw 9 field :=
  hraw field (List.mem_append_left _ hfield)

theorem IsRaw.text (hraw : row.IsRaw) : CsvParser.IsRaw 9 row.text :=
  hraw row.text (List.mem_append_right _ (List.mem_singleton_self _))

theorem isRaw_of_all (h : (row.fields.all fun field => field.all fun c => c != 9 && c != 10) = true) :
    row.IsRaw := by
  intro field hfield c hc
  have hchar := List.all_eq_true.mp (List.all_eq_true.mp h field hfield) c hc
  rwa [Bool.and_eq_true, bne_iff_ne, bne_iff_ne] at hchar

/-- A row without carriage returns is clean if no field begins with a quote or is too long. -/
theorem clean_of_all (h : (row.fields.all fun field =>
      field.head? != some quote && (field.length ≤ fieldSizeLimit && field.all fun c => c != 13))
        = true) : row.Clean := by
  have hfields (field : Str) (hfield : field ∈ row.fields) : field.head? ≠ some quote
      ∧ field.length ≤ fieldSizeLimit ∧ ∀ c ∈ field, (c != 13) = true := by
    have hall := List.all_eq_true.mp h field hfield
    rw [Bool.and_eq_true, Bool.and_eq_true, bne_iff_ne, decide_eq_true_eq,
      List.all_eq_true] at hall
    exact hall
  obtain ⟨_, hshort, hreturns⟩ :=
    hfields row.text (List.mem_append_right _ (List.mem_singleton_self _))
  refine ⟨fun field hfield => (hfields field hfield).1, fun field hfield hreturn => ?_, ?_,
    fun field hfield => ?_⟩
  · have hchar := (hfields field (List.mem_append_left _ hfield)).2.2 13 hreturn
    exact absurd hchar (by decide)
  · rw [ReturnsLast, List.dropWhile_eq_nil_iff.mpr hreturns]
    exact List.forall_mem_nil _
  · rcases List.mem_append.mp hfield with hnumber | hlast
    · exact (hfields field (List.mem_append_left _ hnumber)).2.1
    · rw [List.mem_singleton.mp hlast]
      exact (List.takeWhile_sublist _).length_le.trans hshort

theorem Printed.unquoted (hrow : row.Printed) : ∀ field ∈ row.numbers, field.head? ≠ some quote := by
  intro field hfield hquote
  exact ((hrow.numbers field hfield).2 quote (List.mem_of_mem_head? hquote)).2 rfl

theorem Printed.noReturns (hrow : row.Printed) : ∀ field ∈ row.numbers, 13 ∉ field := by
  intro field hfield hreturn
  have hspace := ((hrow.numbers field hfield).2 13 hreturn).1
  exact absurd hspace (by decide)

/-- The fields in front of the text, read from the start of a record. -/
theorem feed_numbersText (hraw : row.IsRaw)
    (hunquoted : ∀ field ∈ row.numbers, field.head? ≠ some quote)
    (hreturns : ∀ field ∈ row.numbers, 13 ∉ field) :
    feed 9 .start row.numbersText = .ok parser
      ↔ (∀ field ∈ row.numbers, field.length ≤ fieldSizeLimit)
        ∧ parser = ⟨.startField, row.numbers, []⟩ := by
  have hlevel : row.level ∈ row.numbers := List.mem_cons_self
  have hstart : feed 9 .start row.numbersText = feed 9 ⟨.startField, [], []⟩ row.numbersText := by
    unfold numbersText numbers
    rw [List.flatMap_cons]
    cases hcase : row.level with
    | nil => rfl
    | cons c rest =>
      have hc : isLineEnd c = false := by
        have hline := (hraw.number hlevel c (hcase ▸ List.mem_cons_self)).2
        have hreturn : c ≠ 13 := by
          intro h
          exact hreturns _ hlevel (by rw [hcase, h]; exact List.mem_cons_self)
        simp [isLineEnd, hline, hreturn]
      rw [List.cons_append, List.cons_append, feed_cons, feed_cons, start,
        processChar_startRecord hc]
  rw [hstart, numbersText, feed_fields rfl row.numbers
    (fun field hfield => ⟨hraw.number hfield, hunquoted field hfield⟩) (by decide), List.nil_append]
  constructor
  · rintro ⟨hall, rfl⟩
    exact ⟨fun field hfield => (hall field hfield).2, rfl⟩
  · rintro ⟨hshort, rfl⟩
    exact ⟨fun field hfield => ⟨hreturns field hfield, hshort field hfield⟩, rfl⟩

/-- A text that does not begin with a quote, read up to the end of its line. -/
theorem feed_text (fields : List Str) {text : Str} (hraw : CsvParser.IsRaw 9 text)
    (hunquoted : text.head? ≠ some quote) :
    feed 9 ⟨.startField, fields, []⟩ (text++[10]) = .ok parser
      ↔ (ReturnsLast text ∧ (lineBody text).length ≤ fieldSizeLimit)
        ∧ parser = ⟨.eatLineEnd, fields++[lineBody text], []⟩ := by
  have hstart : feed 9 ⟨.startField, fields, []⟩ (text++[10])
      = feed 9 ⟨.inField, fields, []⟩ (text++[10]) := by
    cases text with
    | nil => exact feed_start (Or.inr rfl) 10 [] (by decide) nofun
    | cons c rest =>
      exact feed_start (Or.inr rfl) c _ (fun h => hunquoted (congrArg some h)) nofun
  have hempty : ([] : Str).length ≤ fieldSizeLimit := Nat.zero_le _
  rw [hstart, feed_inField_line text hraw hempty, List.length_nil, Nat.zero_add, List.nil_append]

/-- A clean row is read as one record. -/
theorem readLine_clean (hraw : row.IsRaw) (hclean : row.Clean) :
    start.readLine 9 row.line = .ok ⟨.startRecord, row.trimmed.fields, []⟩ := by
  have hunquoted (field : Str) (hfield : field ∈ row.numbers) : field.head? ≠ some quote :=
    hclean.unquoted field (List.mem_append_left _ hfield)
  have hnumbers := (feed_numbersText hraw hunquoted hclean.noReturns).mpr
    ⟨fun field hfield => hclean.short field (List.mem_append_left _ hfield), rfl⟩
  have htext := (feed_text row.numbers hraw.text
    (hclean.unquoted row.text (List.mem_append_right _ (List.mem_singleton_self _)))).mpr
    ⟨⟨hclean.returnsLast,
      hclean.short (lineBody row.text) (List.mem_append_right _ (List.mem_singleton_self _))⟩, rfl⟩
  show endLine <$> feed 9 start row.line = _
  rw [line_eq, feed_append, hnumbers, ok_bind, htext]
  rfl

/-- A printed row: the reader refuses it, or reads it as a clean row, or its text begins with a
quote and some of its ink is lost. -/
theorem readLine_printed (hrow : row.Printed) (h : start.readLine 9 row.line = .ok parser) :
    (row.Clean ∧ parser = ⟨.startRecord, row.trimmed.fields, []⟩)
    ∨ ∃ text, ink text < ink row.text ∧ (parser = ⟨.inQuotedField, row.numbers, text⟩
      ∨ parser = ⟨.startRecord, row.numbers++[text], []⟩) := by
  have hread : endLine <$> feed 9 start row.line = .ok parser := h
  rw [line_eq, feed_append] at hread
  obtain ⟨_, hline, rfl⟩ := (map_eq_ok _ _ _).mp hread
  obtain ⟨_, hnumbers, htext⟩ := (bind_eq_ok _ _ _).mp hline
  obtain ⟨hshort, rfl⟩ := (feed_numbersText hrow.raw hrow.unquoted hrow.noReturns).mp hnumbers
  by_cases hquote : row.text.head? = some quote
  · obtain ⟨rest, hrest⟩ : ∃ rest, row.text = quote :: rest := List.head?_eq_some_iff.mp hquote
    have hraw : CsvParser.IsRaw 9 (quote :: rest) := hrest ▸ hrow.raw.text
    rw [hrest, List.cons_append, feed_cons, show processChar 9 ⟨.startField, row.numbers, []⟩ quote
      = .ok ⟨.inQuotedField, row.numbers, []⟩ from rfl, ok_bind] at htext
    obtain ⟨text, hink, hend⟩ := feed_inside_line (Or.inr (Or.inl rfl)) rest
      (List.forall_mem_cons.mp hraw).2 (by decide) htext
    have hlost : ink (quote :: rest) = ink rest+1 := ink_cons quote rest
    refine Or.inr ⟨text, by rw [hrest]; omega, ?_⟩
    rcases hend with rfl | rfl
    · exact Or.inl rfl
    · exact Or.inr rfl
  · obtain ⟨⟨hreturns, hlength⟩, rfl⟩ := (feed_text row.numbers hrow.raw.text hquote).mp htext
    refine Or.inl ⟨⟨?_, hrow.noReturns, hreturns, ?_⟩, rfl⟩
    · intro field hfield
      rcases List.mem_append.mp hfield with hnumber | hlast
      · exact hrow.unquoted field hnumber
      · rwa [List.mem_singleton.mp hlast]
    · intro field hfield
      rcases List.mem_append.mp hfield with hnumber | hlast
      · exact hshort field hnumber
      · rwa [List.mem_singleton.mp hlast]

/-- A printed row inside a quoted field: the field is continued by the numbers of the row, with
tabs between them. -/
theorem readLine_quoted (hrow : row.Printed) {fields : List Str} {field : Str}
    (h : CsvParser.readLine 9 ⟨.inQuotedField, fields, field⟩ row.line = .ok parser) :
    ∃ more, parser = ⟨.inQuotedField, fields, field++row.numbersText++more⟩
      ∨ parser = ⟨.startRecord, fields++[field++row.numbersText++more], []⟩ := by
  have hread : endLine <$> feed 9 ⟨.inQuotedField, fields, field⟩ row.line = .ok parser := h
  rw [line_eq, feed_append] at hread
  obtain ⟨_, hline, rfl⟩ := (map_eq_ok _ _ _).mp hread
  obtain ⟨_, hnumbers, htext⟩ := (bind_eq_ok _ _ _).mp hline
  have hunquoted : quote ∉ row.numbersText := by
    intro hmem
    obtain ⟨number, hnumber, hquote⟩ := List.mem_flatMap.mp hmem
    rcases List.mem_append.mp hquote with hinside | htab
    · exact ((hrow.numbers number hnumber).2 quote hinside).2 rfl
    · exact absurd (List.mem_singleton.mp htab) (by decide)
  rw [feed_quoted row.numbersText hunquoted hnumbers] at htext
  obtain ⟨more, _, hend⟩ := feed_inside_line (Or.inr (Or.inl rfl)) row.text hrow.raw.text
    (by decide) htext
  refine ⟨more, ?_⟩
  rcases hend with rfl | rfl
  · exact Or.inl rfl
  · exact Or.inr rfl

end TsvRow

end ConferWorker
