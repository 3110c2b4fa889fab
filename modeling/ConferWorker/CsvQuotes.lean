import ConferWorker.CsvLines
import ConferWorker.StrippedText

/-! What the CSV parser makes of a raw text that begins with a quote: the quote is lost, and
the field goes on over the following lines until another quote ends it. -/
namespace ConferWorker

namespace CsvParser

variable {delimiter : CodePoint} {fields : List Str} {field : Str} {parser : CsvParser}

/-- Inside a field. -/
def IsInside (place : CsvPlace) : Prop :=
  place = .inField ∨ place = .inQuotedField ∨ place = .quoteInQuotedField

/-- Up to the next quote everything belongs to a quoted field. -/
theorem feed_quoted (s : Str) (hs : quote ∉ s)
    (h : feed delimiter ⟨.inQuotedField, fields, field⟩ s = .ok parser) :
    parser = ⟨.inQuotedField, fields, field++s⟩ := by
  induction s generalizing field with
  | nil =>
    rw [feed_nil] at h
    rw [List.append_nil, Except.ok.inj h]
  | cons c s ih =>
    have hplain : processChar delimiter ⟨.inQuotedField, fields, field⟩ c
        = addChar ⟨.inQuotedField, fields, field⟩ .inQuotedField c := by
      apply if_neg
      intro hc
      rw [hc] at hs
      exact hs List.mem_cons_self
    rw [feed_cons, hplain, bind_eq_ok] at h
    obtain ⟨next, hadd, hrest⟩ := h
    obtain ⟨_, rfl⟩ := addChar_ok.mp hadd
    rw [ih (fun hmem => hs (List.mem_cons_of_mem c hmem)) hrest, List.append_assoc,
      List.singleton_append]

/-- A character inside a field is added, dropped, or ends the record. -/
theorem processChar_inside {place : CsvPlace} {c : CodePoint} (hplace : IsInside place)
    (hc : c ≠ delimiter) (h : processChar delimiter ⟨place, fields, field⟩ c = .ok parser) :
    (∃ next more, IsInside next ∧ (more = [] ∨ more = [c])
      ∧ parser = ⟨next, fields, field++more⟩)
    ∨ parser = ⟨.eatLineEnd, fields++[field], []⟩ := by
  have added {next : CsvPlace} (hnext : IsInside next)
      (hadd : addChar ⟨place, fields, field⟩ next c = .ok parser) :
      ∃ next more, IsInside next ∧ (more = [] ∨ more = [c])
        ∧ parser = ⟨next, fields, field++more⟩ :=
    ⟨next, [c], hnext, Or.inr rfl, (addChar_ok.mp hadd).2⟩
  rcases hplace with rfl | rfl | rfl <;> simp only [processChar, if_neg hc] at h <;>
    split_ifs at h
  · exact Or.inr (Except.ok.inj h).symm
  · exact Or.inl (added (Or.inl rfl) h)
  · refine Or.inl ⟨.quoteInQuotedField, [], Or.inr (Or.inr rfl), Or.inl rfl, ?_⟩
    rw [List.append_nil]
    exact (Except.ok.inj h).symm
  · exact Or.inl (added (Or.inr (Or.inl rfl)) h)
  · exact Or.inl (added (Or.inr (Or.inl rfl)) h)
  · exact Or.inr (Except.ok.inj h).symm
  · exact Or.inl (added (Or.inl rfl) h)

/-- The rest of a line inside a field: the field is continued, by no more ink than the line
has, and the record ends with the line unless the field is still quoted. -/
theorem feed_inside_line {place : CsvPlace} (hplace : IsInside place) (s : Str)
    (hraw : IsRaw delimiter s) (hdelimiter : delimiter ≠ 10)
    (h : feed delimiter ⟨place, fields, field⟩ (s++[10]) = .ok parser) :
    ∃ more, ink more ≤ ink s ∧ (parser = ⟨.inQuotedField, fields, field++more⟩
      ∨ parser = ⟨.eatLineEnd, fields++[field++more], []⟩) := by
  induction s generalizing place field with
  | nil =>
    rw [List.nil_append, feed_cons, bind_eq_ok] at h
    obtain ⟨next, hstep, hrest⟩ := h
    rw [← Except.ok.inj hrest]
    rcases hplace with rfl | rfl | rfl
    · refine ⟨[], le_rfl, Or.inr ?_⟩
      rw [List.append_nil]
      exact (Except.ok.inj hstep).symm
    · exact ⟨[10], le_rfl, Or.inl (addChar_ok.mp hstep).2⟩
    · refine ⟨[], le_rfl, Or.inr ?_⟩
      simp only [processChar, if_neg hdelimiter.symm] at hstep
      rw [List.append_nil]
      exact (Except.ok.inj hstep).symm
  | cons c s ih =>
    obtain ⟨hc, hs⟩ := List.forall_mem_cons.mp hraw
    rw [List.cons_append, feed_cons, bind_eq_ok] at h
    obtain ⟨next, hstep, hrest⟩ := h
    rcases processChar_inside hplace hc.1 hstep with ⟨place', first, hplace', hfirst, rfl⟩ | rfl
    · obtain ⟨more, hmore, hend⟩ := ih hplace' hs hrest
      have hink : ink first ≤ ink [c] := by
        rcases hfirst with rfl | rfl
        · exact Nat.zero_le _
        · exact le_rfl
      refine ⟨first++more, ?_, by rw [← List.append_assoc]; exact hend⟩
      rw [ink_append, ink_cons]
      omega
    · refine ⟨[], Nat.zero_le _, Or.inr ?_⟩
      rw [List.append_nil]
      exact ((feed_eatLineEnd _).mp hrest).2

end CsvParser

end ConferWorker
