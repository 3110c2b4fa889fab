import ConferWorker.TsvRecords

/-! The whole output: all rows are read as they stand, or a text runs on over a row, or ink is
lost. -/
namespace ConferWorker

open CsvParser

/-- A tab between characters that are no white space. -/
def HasInnerTab (text : Str) : Prop :=
  ∃ before after, text = before++9 :: after ∧ before.all isSpace = false
    ∧ after.all isSpace = false

theorem HasInnerTab.append {text : Str} (h : HasInnerTab text) (more : Str) :
    HasInnerTab (text++more) := by
  obtain ⟨before, after, rfl, hbefore, hafter⟩ := h
  refine ⟨before, after++more, by rw [List.append_assoc, List.cons_append], hbefore, ?_⟩
  rw [List.all_append, hafter, Bool.false_and]

/-- A record that is read from a row has the numbers of the row, no more ink, and as much ink
only if it is the clean row itself. -/
structure ReadAs (row record : TsvRow) : Prop where
  numbers : record.numbers = row.numbers
  ink_le : ink record.text ≤ ink row.text
  clean : ink record.text = ink row.text → row.Clean ∧ record = row.trimmed

/-- A record of level 5 whose text ran on over another row. -/
def RunsOn (record : TsvRow) : Prop := record.level = ofString "5" ∧ HasInnerTab record.text

namespace TsvRow

variable {row : TsvRow}

theorem Printed.visible (hrow : row.Printed) {field : Str} (hfield : field ∈ row.numbers) :
    field.all isSpace = false := by
  obtain ⟨hne, hchars⟩ := hrow.numbers field hfield
  obtain ⟨c, rest, rfl⟩ := List.exists_cons_of_ne_nil hne
  rw [List.all_cons, (hchars c List.mem_cons_self).1, Bool.false_and]

/-- Where a row ran into a field, the field has a tab between two numbers. -/
theorem hasInnerTab_numbersText (hrow : row.Printed) (field more : Str) :
    HasInnerTab (field++row.numbersText++more) := by
  have hlevel : row.level.all isSpace = false := hrow.visible List.mem_cons_self
  have hpage : row.pageNum.all isSpace = false :=
    hrow.visible (List.mem_cons_of_mem _ List.mem_cons_self)
  have htab : HasInnerTab (field++row.numbersText) := by
    refine ⟨field++row.level, (row.numbers.drop 1).flatMap (fun number => number++[9]), ?_, ?_, ?_⟩
    · simp [numbersText, numbers]
    · rw [List.all_append, hlevel, Bool.and_false]
    · simp [numbers, hpage]
  exact htab.append more

theorem level_of_text (hrow : row.Printed) {text : Str} (h : ink text < ink row.text) :
    row.level = ofString "5" := by
  by_contra hlevel
  rw [hrow.text hlevel] at h
  exact absurd h (Nat.not_lt_zero _)

end TsvRow

/-- The records of printed rows: from the start of a record they follow the rows unless a text
ran on; inside a quoted text the first record is that text, run on if there is another row. -/
theorem readRecords_printed (rows : List TsvRow) (hrows : ∀ row ∈ rows, row.Printed) :
    (∀ recs, readRecords 9 .start (rows.map TsvRow.line) = ⟨recs, none⟩ →
      ∃ records : List TsvRow, recs = records.map TsvRow.fields
        ∧ ((∃ record ∈ records, RunsOn record) ∨ List.Forall₂ ReadAs rows records))
    ∧ ∀ (row : TsvRow) (text : Str) (recs : List (List Str)),
      readRecords 9 ⟨.inQuotedField, row.numbers, text⟩ (rows.map TsvRow.line) = ⟨recs, none⟩ →
      ∃ (last : Str) (records : List TsvRow), recs = (row.numbers++[last]) :: records.map TsvRow.fields
        ∧ ((rows = [] ∧ records = [] ∧ last = text) ∨ HasInnerTab last) := by
  -- both readings at once: a text that is left open carries on into the next row
  induction rows with
  | nil =>
    constructor
    · intro recs h
      refine ⟨[], ?_, Or.inr .nil⟩
      exact (congrArg CsvRecords.rows h).symm
    · intro row text recs h
      refine ⟨text, [], ?_, Or.inl ⟨rfl, rfl, rfl⟩⟩
      rw [List.map_nil, readRecords, if_pos (Or.inr rfl)] at h
      exact (congrArg CsvRecords.rows h).symm
  | cons next rows ih =>
    obtain ⟨hnext, hrest⟩ := List.forall_mem_cons.mp hrows
    obtain ⟨ihstart, ihquoted⟩ := ih hrest
    constructor
    · intro recs h
      obtain ⟨parser, hline, hlater⟩ := readRecords_cons h
      rcases TsvRow.readLine_printed hnext hline with ⟨hclean, rfl⟩ | ⟨text, hink, rfl | rfl⟩
      · obtain ⟨_, rest, rfl, hread⟩ := hlater.resolve_right fun hplace => hplace.1 rfl
        obtain ⟨records, rfl, hrecords⟩ := ihstart rest hread
        refine ⟨next.trimmed :: records, rfl, hrecords.imp ?_ ?_⟩
        · rintro ⟨record, hrecord, hruns⟩
          exact ⟨record, List.mem_cons_of_mem _ hrecord, hruns⟩
        · exact fun hall =>
            .cons ⟨rfl, (List.takeWhile_sublist _).countP_le, fun _ => ⟨hclean, rfl⟩⟩ hall
      · -- The text is still open at the end of its line.
        obtain ⟨_, hread⟩ := hlater.resolve_left (by simp)
        obtain ⟨last, records, rfl, hlast⟩ := ihquoted next text recs hread
        refine ⟨{ next with text := last } :: records, rfl, ?_⟩
        rcases hlast with ⟨rfl, rfl, rfl⟩ | htab
        · exact Or.inr (.cons ⟨rfl, hink.le, fun heq => absurd heq hink.ne⟩ .nil)
        · have hlevel : next.level = ofString "5" := TsvRow.level_of_text hnext hink
          exact Or.inl ⟨_, List.mem_cons_self, hlevel, htab⟩
      · -- The text was closed in its own line.
        obtain ⟨_, rest, rfl, hread⟩ := hlater.resolve_right fun hplace => hplace.1 rfl
        obtain ⟨records, rfl, hrecords⟩ := ihstart rest hread
        refine ⟨{ next with text := text } :: records, rfl, hrecords.imp ?_ ?_⟩
        · rintro ⟨record, hrecord, hruns⟩
          exact ⟨record, List.mem_cons_of_mem _ hrecord, hruns⟩
        · exact fun hall => .cons ⟨rfl, hink.le, fun heq => absurd heq hink.ne⟩ hall
    · intro row text recs h
      obtain ⟨parser, hline, hlater⟩ := readRecords_cons h
      obtain ⟨more, rfl | rfl⟩ := TsvRow.readLine_quoted hnext hline
      · obtain ⟨_, hread⟩ := hlater.resolve_left (by simp)
        obtain ⟨last, records, rfl, hlast⟩ := ihquoted row _ recs hread
        refine ⟨last, records, rfl, Or.inr ?_⟩
        rcases hlast with ⟨_, _, rfl⟩ | htab
        · exact next.hasInnerTab_numbersText hnext text more
        · exact htab
      · obtain ⟨_, rest, rfl, hread⟩ := hlater.resolve_right fun hplace => hplace.1 rfl
        obtain ⟨records, rfl, _⟩ := ihstart rest hread
        exact ⟨_, records, rfl, Or.inr (next.hasInnerTab_numbersText hnext text more)⟩

/-- Clean rows are read as they stand. -/
theorem readRecords_clean (rows : List TsvRow)
    (hrows : ∀ row ∈ rows, row.IsRaw ∧ row.Clean) :
    readRecords 9 .start (rows.map TsvRow.line)
      = ⟨rows.map (fun row => row.trimmed.fields), none⟩ := by
  induction rows with
  | nil => rfl
  | cons row rows ih =>
    obtain ⟨⟨hraw, hclean⟩, hrest⟩ := List.forall_mem_cons.mp hrows
    rw [List.map_cons, readRecords, TsvRow.readLine_clean hraw hclean]
    simp only [if_true, ih hrest, List.map_cons]

end ConferWorker
