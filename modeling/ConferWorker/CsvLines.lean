import ConferWorker.CsvReader

/-! What the CSV parser makes of fields that are written raw, with nothing quoted: a field that
begins with another character than a quote is read up to its delimiter as it stands. -/
namespace ConferWorker.CsvParser

/-- The characters of a text, one after the other. -/
def feed (delimiter : CodePoint) (parser : CsvParser) (s : Str) : Except PythonError CsvParser :=
  s.foldlM (processChar delimiter) parser

/-- A field that holds no delimiter and no line feed. -/
def IsRaw (delimiter : CodePoint) (s : Str) : Prop := ∀ c ∈ s, c ≠ delimiter ∧ c ≠ 10

/-- The part of the last field of a line that is read into the field. -/
def lineBody (s : Str) : Str := s.takeWhile (fun c => c != 13)

/-- Carriage returns stand only at the end. -/
def ReturnsLast (s : Str) : Prop := ∀ c ∈ s.dropWhile (fun c => c != 13), c = 13

instance (s : Str) : Decidable (ReturnsLast s) :=
  inferInstanceAs (Decidable (∀ c ∈ s.dropWhile (fun c => c != 13), c = 13))

variable {delimiter : CodePoint} {fields : List Str} {field : Str} {parser : CsvParser}

theorem feed_nil (parser : CsvParser) : feed delimiter parser [] = .ok parser := rfl

theorem feed_cons (parser : CsvParser) (c : CodePoint) (s : Str) :
    feed delimiter parser (c :: s)
      = processChar delimiter parser c >>= fun parser => feed delimiter parser s :=
  List.foldlM_cons

theorem feed_append (parser : CsvParser) (s t : Str) :
    feed delimiter parser (s++t)
      = feed delimiter parser s >>= fun parser => feed delimiter parser t :=
  List.foldlM_append

theorem addChar_ok {place next : CsvPlace} {c : CodePoint} :
    addChar ⟨place, fields, field⟩ next c = .ok parser
      ↔ field.length+1 ≤ fieldSizeLimit ∧ parser = ⟨next, fields, field++[c]⟩ := by
  unfold addChar
  split_ifs with hlimit
  · simp only [false_iff, not_and]
    intro h
    exact absurd hlimit (Nat.not_le.mpr h)
  · rw [Except.ok.injEq, eq_comm, and_iff_right]
    exact Nat.lt_of_not_le hlimit

/-- Behind the end of a line only line ends may follow. -/
theorem feed_eatLineEnd (s : Str) :
    feed delimiter ⟨.eatLineEnd, fields, field⟩ s = .ok parser
      ↔ (∀ c ∈ s, isLineEnd c = true) ∧ parser = ⟨.eatLineEnd, fields, field⟩ := by
  induction s with
  | nil =>
    rw [feed_nil, Except.ok.injEq, eq_comm, and_iff_right]
    exact fun c hc => absurd hc List.not_mem_nil
  | cons c s ih =>
    rw [feed_cons, List.forall_mem_cons]
    by_cases hend : isLineEnd c = true
    · rw [show processChar delimiter ⟨.eatLineEnd, fields, field⟩ c
          = .ok ⟨.eatLineEnd, fields, field⟩ from if_pos hend, ok_bind, ih, and_assoc,
        and_iff_right hend]
    · rw [show processChar delimiter ⟨.eatLineEnd, fields, field⟩ c = .error _ from if_neg hend]
      simp only [hend, bind_eq_ok, reduceCtorEq, false_and, exists_false]

/-- A field that does not begin with a quote is read as the rest of one is. -/
theorem processChar_startField {c : CodePoint} (hc : c ≠ quote) :
    processChar delimiter ⟨.startField, fields, field⟩ c
      = processChar delimiter ⟨.inField, fields, field⟩ c := by
  show startFieldChar delimiter _ c = _
  rw [startFieldChar, if_neg hc]
  rfl

theorem processChar_startRecord {c : CodePoint} (hc : isLineEnd c = false) :
    processChar delimiter ⟨.startRecord, fields, field⟩ c
      = processChar delimiter ⟨.startField, fields, field⟩ c := by
  show (if isLineEnd c then _ else startFieldChar delimiter _ c) = startFieldChar delimiter _ c
  rw [hc, if_neg Bool.false_ne_true]
  simp only [startFieldChar, hc, saveField, addChar]

/-- At the start of a record or a field, a text that begins with neither a quote nor a line end
is read as the rest of a field is. -/
theorem feed_start {place : CsvPlace} (hplace : place = .startRecord ∨ place = .startField)
    (c : CodePoint) (s : Str) (hquote : c ≠ quote)
    (hend : place = .startRecord → isLineEnd c = false) :
    feed delimiter ⟨place, fields, field⟩ (c :: s)
      = feed delimiter ⟨.inField, fields, field⟩ (c :: s) := by
  rw [feed_cons, feed_cons, ← processChar_startField hquote]
  rcases hplace with rfl | rfl
  · rw [processChar_startRecord (hend rfl)]
  · rfl

variable (hdelimiter : isLineEnd delimiter = false)
include hdelimiter

/-- The rest of a field and its delimiter. -/
theorem feed_inField_delimiter (s : Str) (hraw : IsRaw delimiter s)
    (hfield : field.length ≤ fieldSizeLimit) :
    feed delimiter ⟨.inField, fields, field⟩ (s++[delimiter]) = .ok parser
      ↔ (13 ∉ s ∧ field.length+s.length ≤ fieldSizeLimit)
        ∧ parser = ⟨.startField, fields++[field++s], []⟩ := by
  induction s generalizing field with
  | nil =>
    have hsave : processChar delimiter ⟨.inField, fields, field⟩ delimiter
        = .ok ⟨.startField, fields++[field], []⟩ := by
      show (if isLineEnd delimiter then _ else if delimiter = delimiter then _ else _) = _
      rw [hdelimiter, if_neg Bool.false_ne_true, if_pos rfl]
      rfl
    rw [List.nil_append, feed_cons, hsave, ok_bind, feed_nil, Except.ok.injEq, List.append_nil,
      eq_comm, and_iff_right]
    exact ⟨List.not_mem_nil, hfield⟩
  | cons c s ih =>
    obtain ⟨hc, hs⟩ := List.forall_mem_cons.mp hraw
    rw [List.cons_append, feed_cons]
    -- a carriage return ends the record, and the delimiter behind it is then refused
    by_cases hreturn : c = 13
    · have hsave : processChar delimiter ⟨.inField, fields, field⟩ c
          = .ok ⟨.eatLineEnd, fields++[field], []⟩ := by
        rw [hreturn]
        rfl
      rw [hsave, ok_bind, feed_eatLineEnd]
      simp only [hreturn, List.mem_cons, true_or, not_true, false_and, iff_false]
      intro h
      exact absurd (h.1 delimiter (List.mem_append_right s (List.mem_singleton_self _)))
        (Bool.eq_false_iff.mp hdelimiter)
    · have hplain : processChar delimiter ⟨.inField, fields, field⟩ c
          = addChar ⟨.inField, fields, field⟩ .inField c := by
        have hend : isLineEnd c = false := by simp [isLineEnd, hc.2, hreturn]
        show (if isLineEnd c then _ else if c = delimiter then _ else _) = _
        rw [hend, if_neg Bool.false_ne_true, if_neg hc.1]
      simp only [hplain, bind_eq_ok, addChar_ok]
      constructor
      · rintro ⟨_, ⟨hlength, rfl⟩, hrest⟩
        obtain ⟨⟨hreturns, hlimit⟩, rfl⟩ := (ih hs (by simpa using hlength)).mp hrest
        refine ⟨⟨?_, ?_⟩, by rw [List.append_assoc, List.singleton_append]⟩
        · simpa [Ne.symm hreturn] using hreturns
        · rw [List.length_append, List.length_singleton] at hlimit
          rw [List.length_cons]
          omega
      · rintro ⟨⟨hreturns, hlimit⟩, rfl⟩
        rw [List.length_cons] at hlimit
        refine ⟨_, ⟨by omega, rfl⟩, (ih hs (by simp; omega)).mpr ⟨⟨?_, ?_⟩, ?_⟩⟩
        · exact fun h => hreturns (List.mem_cons_of_mem c h)
        · rw [List.length_append, List.length_singleton]
          omega
        · rw [List.append_assoc, List.singleton_append]

omit hdelimiter in
/-- The rest of the last field of a line and its line feed. -/
theorem feed_inField_line (s : Str) (hraw : IsRaw delimiter s)
    (hfield : field.length ≤ fieldSizeLimit) :
    feed delimiter ⟨.inField, fields, field⟩ (s++[10]) = .ok parser
      ↔ (ReturnsLast s ∧ field.length+(lineBody s).length ≤ fieldSizeLimit)
        ∧ parser = ⟨.eatLineEnd, fields++[field++lineBody s], []⟩ := by
  induction s generalizing field with
  | nil =>
    rw [List.nil_append, feed_cons, show processChar delimiter ⟨.inField, fields, field⟩ 10
      = .ok ⟨.eatLineEnd, fields++[field], []⟩ from rfl, ok_bind, feed_nil, Except.ok.injEq,
      lineBody, List.takeWhile_nil, List.append_nil, eq_comm, and_iff_right]
    exact ⟨fun c hc => absurd hc List.not_mem_nil, hfield⟩
  | cons c s ih =>
    obtain ⟨hc, hs⟩ := List.forall_mem_cons.mp hraw
    rw [List.cons_append, feed_cons]
    by_cases hreturn : c = 13
    · have hsave : processChar delimiter ⟨.inField, fields, field⟩ c
          = .ok ⟨.eatLineEnd, fields++[field], []⟩ := by
        rw [hreturn]
        rfl
      have hbody : lineBody (c :: s) = [] := by simp [lineBody, hreturn]
      have hlast : ReturnsLast (c :: s) ↔ ∀ d ∈ s, d = 13 := by simp [ReturnsLast, hreturn]
      have hends : (∀ d ∈ s++[10], isLineEnd d = true) ↔ ∀ d ∈ s, d = 13 := by
        simp only [List.forall_mem_append, List.forall_mem_singleton]
        rw [and_iff_left (show isLineEnd 10 = true from rfl)]
        apply forall₂_congr
        intro d hd
        simp [isLineEnd, (hs d hd).2]
      rw [hsave, ok_bind, feed_eatLineEnd, hends, hbody, hlast, List.append_nil,
        and_iff_left (show field.length+([] : Str).length ≤ fieldSizeLimit from hfield)]
    · have hplain : processChar delimiter ⟨.inField, fields, field⟩ c
          = addChar ⟨.inField, fields, field⟩ .inField c := by
        have hend : isLineEnd c = false := by simp [isLineEnd, hc.2, hreturn]
        show (if isLineEnd c then _ else if c = delimiter then _ else _) = _
        rw [hend, if_neg Bool.false_ne_true, if_neg hc.1]
      have hbody : lineBody (c :: s) = c :: lineBody s := by simp [lineBody, hreturn]
      have hlast : ReturnsLast (c :: s) ↔ ReturnsLast s := by simp [ReturnsLast, hreturn]
      simp only [hplain, bind_eq_ok, addChar_ok, hbody, hlast, List.length_cons]
      constructor
      · rintro ⟨_, ⟨hlength, rfl⟩, hrest⟩
        obtain ⟨⟨hreturns, hlimit⟩, rfl⟩ := (ih hs (by simpa using hlength)).mp hrest
        rw [List.length_append, List.length_singleton] at hlimit
        exact ⟨⟨hreturns, by omega⟩, by rw [List.append_assoc, List.singleton_append]⟩
      · rintro ⟨⟨hreturns, hlimit⟩, rfl⟩
        refine ⟨_, ⟨by omega, rfl⟩, (ih hs (by simp; omega)).mpr ⟨⟨hreturns, ?_⟩, ?_⟩⟩
        · rw [List.length_append, List.length_singleton]
          omega
        · rw [List.append_assoc, List.singleton_append]

/-- Fields in front of the last one, each with its delimiter. -/
theorem feed_fields (more : List Str)
    (hraw : ∀ s ∈ more, IsRaw delimiter s ∧ s.head? ≠ some quote)
    (hquote : delimiter ≠ quote) :
    feed delimiter ⟨.startField, fields, []⟩ (more.flatMap (fun s => s++[delimiter])) = .ok parser
      ↔ (∀ s ∈ more, 13 ∉ s ∧ s.length ≤ fieldSizeLimit)
        ∧ parser = ⟨.startField, fields++more, []⟩ := by
  induction more generalizing fields with
  | nil =>
    rw [List.flatMap_nil, feed_nil, Except.ok.injEq, List.append_nil, eq_comm, and_iff_right]
    exact fun s hs => absurd hs List.not_mem_nil
  | cons s more ih =>
    obtain ⟨hs, hmore⟩ := List.forall_mem_cons.mp hraw
    have hstart : feed delimiter ⟨.startField, fields, []⟩ (s++[delimiter])
        = feed delimiter ⟨.inField, fields, []⟩ (s++[delimiter]) := by
      cases s with
      | nil => exact feed_start (Or.inr rfl) delimiter [] hquote nofun
      | cons c s => exact feed_start (Or.inr rfl) c _ (fun h => hs.2 (congrArg some h)) nofun
    have hempty : ([] : Str).length ≤ fieldSizeLimit := Nat.zero_le _
    rw [List.flatMap_cons, feed_append, hstart, List.forall_mem_cons]
    simp only [bind_eq_ok, feed_inField_delimiter hdelimiter s hs.1 hempty, List.length_nil,
      Nat.zero_add, List.nil_append]
    constructor
    · rintro ⟨_, ⟨hfirst, rfl⟩, hrest⟩
      obtain ⟨hall, rfl⟩ := (ih hmore).mp hrest
      exact ⟨⟨hfirst, hall⟩, by rw [List.append_assoc, List.singleton_append]⟩
    · rintro ⟨⟨hfirst, hall⟩, rfl⟩
      refine ⟨_, ⟨hfirst, rfl⟩, (ih hmore).mpr ⟨hall, ?_⟩⟩
      rw [List.append_assoc, List.singleton_append]

end ConferWorker.CsvParser
