import ConferWorker.JsonRoundTrip

/-! Every value that the parser returns is one that it can return again: its numbers and floats
are stable, its names are distinct and it is not nested too deeply. So the text that is written
for an accepted document stands for the same document. -/
namespace ConferWorker

/-- A number that `int` reads has at most 4300 digits. -/
theorem readDigits_lt (acc : ℕ) (afterDigit : Bool) (s : Str) (n : ℕ)
    (h : readDigits 10 acc afterDigit s = some n) :
    n < (acc+1)*10^(s.countP isDecimalDigit) := by
  induction s generalizing acc afterDigit with
  | nil =>
    rw [readDigits] at h
    split_ifs at h
    obtain rfl := Option.some.inj h
    simp
  | cons c s ih =>
    rw [readDigits] at h
    split_ifs at h with hline hafter hdigit
    · rw [List.countP_cons_of_neg (by rw [isDecimalDigit, hline]; decide)]
      exact ih acc false h
    · have hdecimal : isDecimalDigit c = true := by
        rw [digitValue] at hdigit
        split_ifs at hdigit with hplain
        · simpa [isDecimalDigit] using hplain
        · omega
        · omega
        · omega
      have hlt := ih _ true h
      rw [List.countP_cons_of_pos hdecimal, pow_succ]
      calc n < (10*acc+digitValue c+1)*10^(s.countP isDecimalDigit) := hlt
        _ ≤ (10*(acc+1))*10^(s.countP isDecimalDigit) := Nat.mul_le_mul_right _ (by omega)
        _ = (acc+1)*(10^(s.countP isDecimalDigit)*10) := by ring

theorem pythonInt_natAbs_lt {s : Str} {n : ℤ} (h : pythonInt 10 s = some n) :
    n.natAbs < 10^(s.countP isDecimal) := by
  have hmagnitude {t : Str} {m : ℕ} (hm : readMagnitude 10 t = some m) :
      m < 10^(t.countP isDecimalDigit) := by
    have hbase : ¬10 = 16 := by decide
    rw [readMagnitude.eq_def, if_neg hbase] at hm
    simpa using readDigits_lt 0 false t m hm
  have hstripped (t : Str) (ht : t.Sublist (s.map asciiForm)) :
      10^(t.countP isDecimalDigit) ≤ 10^(s.countP isDecimal) := by
    apply Nat.pow_le_pow_right (by decide)
    refine ht.countP_le.trans ?_
    rw [List.countP_map]
    exact le_of_eq rfl
  have hsub : ((((s.map asciiForm).dropWhile isAsciiSpace).reverse.dropWhile
      isAsciiSpace).reverse).Sublist (s.map asciiForm) := by
    rw [← List.reverse_sublist, List.reverse_reverse]
    exact (List.dropWhile_sublist _).trans (List.reverse_sublist.mpr (List.dropWhile_sublist _))
  rw [pythonInt] at h
  generalize htrim : (((s.map asciiForm).dropWhile isAsciiSpace).reverse.dropWhile
    isAsciiSpace).reverse = t at h hsub
  cases t with
  | nil => cases h
  | cons sign t =>
    have htail := hstripped t ((List.sublist_cons_self sign t).trans hsub)
    dsimp only at h
    split_ifs at h
    · obtain ⟨m, hm, rfl⟩ := Option.map_eq_some_iff.mp h
      exact (hmagnitude hm).trans_le htail
    · obtain ⟨m, hm, rfl⟩ := Option.map_eq_some_iff.mp h
      rw [Int.natAbs_neg]
      exact (hmagnitude hm).trans_le htail
    · obtain ⟨m, hm, rfl⟩ := Option.map_eq_some_iff.mp h
      exact (hmagnitude hm).trans_le (hstripped _ hsub)

theorem readInt_lt {s : Str} {n : ℤ} (h : readInt s = .ok n) : n.natAbs < Json.intLimit := by
  have hpower (k : ℕ) (hk : s.countP isDecimal ≤ k) (hn : n.natAbs < 10^(s.countP isDecimal)) :
      n.natAbs < 10^k :=
    hn.trans_le (Nat.pow_le_pow_right (by decide) hk)
  rw [readInt] at h
  split at h
  · cases h
  · rename_i m hm
    split_ifs at h with hlong
    obtain rfl := Except.ok.inj h
    unfold Json.intLimit
    exact hpower _ (Nat.not_lt.mp hlong) (pythonInt_natAbs_lt hm)

namespace JsonParser

/-- The digits in front of a text are read with anything behind them that is no digit. -/
theorem takeWhile_digits (text behind : Str) (h : ∀ c ∈ behind.head?, ¬isDecimalDigit c = true) :
    (text.takeWhile isDecimalDigit++behind).takeWhile isDecimalDigit
        = text.takeWhile isDecimalDigit
      ∧ (text.takeWhile isDecimalDigit++behind).dropWhile isDecimalDigit = behind := by
  have hall : ∀ c ∈ text.takeWhile isDecimalDigit, isDecimalDigit c = true :=
    fun c hc => List.mem_takeWhile_imp hc
  obtain ⟨htake, hdrop⟩ := takeWhile_append_stop isDecimalDigit _ behind h
  rw [htake, hdrop, List.takeWhile_eq_self_iff.mpr hall, List.dropWhile_eq_nil_iff.mpr hall]
  exact ⟨rfl, rfl⟩

theorem wholePart_again {text whole after : Str} (h : wholePart text = some (whole, after))
    (behind : Str) (hbehind : ∀ c ∈ behind.head?, ¬isDecimalDigit c = true) :
    wholePart (whole++behind) = some (whole, behind) := by
  cases text with
  | nil => cases h
  | cons c text =>
    rw [wholePart] at h
    split_ifs at h with hzero hdigit
    · cases h
      rw [List.singleton_append, wholePart, if_pos hzero]
    · cases h
      obtain ⟨htake, hdrop⟩ := takeWhile_digits text behind hbehind
      rw [List.cons_append, wholePart, if_neg hzero, if_pos hdigit, htake, hdrop]

theorem wholePart_head {text whole after : Str} (h : wholePart text = some (whole, after)) :
    ∃ c rest, whole = c :: rest ∧ isDecimalDigit c = true := by
  cases text with
  | nil => cases h
  | cons c text =>
    rw [wholePart] at h
    split_ifs at h with hzero hdigit
    · cases h
      exact ⟨c, [], rfl, by rw [hzero]; decide⟩
    · cases h
      exact ⟨c, _, rfl, hdigit⟩

theorem minusPart_again {text sign : Str} (h : (minusPart text).1 = sign) {c : CodePoint}
    (hc : isDecimalDigit c = true) (rest : Str) :
    minusPart (sign++c :: rest) = (sign, c :: rest) := by
  subst h
  have hdigit : minusPart (c :: rest) = ([], c :: rest) := by
    refine if_neg ?_
    rintro rfl
    exact absurd hc (by decide)
  cases text with
  | nil => exact hdigit
  | cons d text =>
    rw [minusPart]
    split_ifs with hd
    · rw [hd]
      rfl
    · exact hdigit

/-- A fraction is empty, or a point with digits behind it. -/
theorem fractionPart_cases (text : Str) : (fractionPart text).1 = []
    ∨ ∃ d more, isDecimalDigit d = true
      ∧ (fractionPart text).1 = 0x2E :: (d :: more).takeWhile isDecimalDigit := by
  cases text with
  | nil => exact Or.inl rfl
  | cons c text =>
    rw [fractionPart]
    split_ifs with h
    · obtain ⟨rfl, hdigit⟩ := h
      cases text with
      | nil => cases hdigit
      | cons d more => exact Or.inr ⟨d, more, hdigit, rfl⟩
    · exact Or.inl rfl

/-- An exponent is empty, or a letter with digits behind it, and maybe a sign between them. -/
theorem exponentPart_cases (text : Str) : (exponentPart text).1 = []
    ∨ ∃ letter sign d more, (letter = 0x65 ∨ letter = 0x45) ∧ (sign = [] ∨ sign = [0x2B]
        ∨ sign = [0x2D]) ∧ isDecimalDigit d = true
      ∧ (exponentPart text).1 = letter :: sign++(d :: more).takeWhile isDecimalDigit := by
  have hsign (text : Str) : (exponentSign text).1 = [] ∨ (exponentSign text).1 = [0x2B]
      ∨ (exponentSign text).1 = [0x2D] := by
    cases text with
    | nil => exact Or.inl rfl
    | cons c text =>
      rw [exponentSign]
      split_ifs with h
      · rcases h with rfl | rfl
        · exact Or.inr (Or.inl rfl)
        · exact Or.inr (Or.inr rfl)
      · exact Or.inl rfl
  cases text with
  | nil => exact Or.inl rfl
  | cons c text =>
    rw [exponentPart]
    dsimp only
    split_ifs with h
    · obtain ⟨hletter, hdigit⟩ := h
      cases hdigits : (exponentSign text).2 with
      | nil =>
        rw [hdigits] at hdigit
        cases hdigit
      | cons d more =>
        rw [hdigits] at hdigit
        exact Or.inr ⟨c, (exponentSign text).1, d, more, hletter, hsign text, hdigit, rfl⟩
    · exact Or.inl rfl

theorem exponentPart_again {exponent : Str} {text : Str} (h : (exponentPart text).1 = exponent) :
    exponentPart exponent = (exponent, []) := by
  subst h
  rcases exponentPart_cases text with hnone | ⟨letter, sign, d, more, hletter, hsign, hd, hexponent⟩
  · rw [hnone]
    rfl
  · obtain ⟨htake, hdrop⟩ := takeWhile_digits (d :: more) [] (fun _ hc => by cases hc)
    rw [List.append_nil] at htake hdrop
    have hdigits : (d :: more).takeWhile isDecimalDigit = d :: more.takeWhile isDecimalDigit :=
      List.takeWhile_cons_of_pos hd
    have hafter : exponentSign (sign++(d :: more).takeWhile isDecimalDigit)
        = (sign, (d :: more).takeWhile isDecimalDigit) := by
      rcases hsign with rfl | rfl | rfl
      · rw [List.nil_append, hdigits]
        refine if_neg ?_
        rintro (rfl | rfl)
        · exact absurd hd (by decide)
        · exact absurd hd (by decide)
      · rfl
      · rfl
    have hhead : ((d :: more).takeWhile isDecimalDigit).head?.any isDecimalDigit = true := by
      rw [hdigits]
      exact hd
    rw [hexponent, List.cons_append, exponentPart, hafter]
    dsimp only
    rw [if_pos ⟨hletter, hhead⟩, htake, hdrop]
    rfl

theorem exponentPart_head (text : Str) :
    ∀ c ∈ (exponentPart text).1.head?, c = 0x65 ∨ c = 0x45 := by
  intro c hc
  rcases exponentPart_cases text with hnone | ⟨letter, sign, d, more, hletter, -, -, hexponent⟩
  · rw [hnone] at hc
    cases hc
  · rw [hexponent] at hc
    obtain rfl : letter = c := Option.some.inj hc
    exact hletter

theorem fractionPart_again (text : Str) {exponent : Str}
    (hexponent : ∀ c ∈ exponent.head?, c = 0x65 ∨ c = 0x45) :
    fractionPart ((fractionPart text).1++exponent) = ((fractionPart text).1, exponent) := by
  have hnot (P : CodePoint → Prop) (hP : ¬P 0x65 ∧ ¬P 0x45) : ∀ c ∈ exponent.head?, ¬P c := by
    intro c hc
    rcases hexponent c hc with rfl | rfl
    · exact hP.1
    · exact hP.2
  rcases fractionPart_cases text with hnone | ⟨d, more, hd, hfraction⟩
  · rw [hnone, List.nil_append]
    cases exponent with
    | nil => rfl
    | cons c exponent => exact if_neg (fun h => hnot (· = 0x2E) (by decide) c rfl h.1)
  · obtain ⟨htake, hdrop⟩ := takeWhile_digits (d :: more) exponent
      (hnot (fun c => isDecimalDigit c = true) (by decide))
    have hhead : ((d :: more).takeWhile isDecimalDigit++exponent).head?.any isDecimalDigit
        = true := by
      rw [List.takeWhile_cons_of_pos hd]
      exact hd
    rw [hfraction, List.cons_append, fractionPart, if_pos ⟨rfl, hhead⟩, htake, hdrop]

/-- The text of a number that was scanned is a number by itself. -/
theorem scanNumber_again {text : Str} {number : NumberToken} (h : scanNumber text = some number) :
    scanNumber number.text = some ⟨number.text, number.isFloat, []⟩ := by
  simp only [scanNumber, Option.bind_eq_bind, Option.bind_eq_some_iff] at h
  obtain ⟨⟨whole, after⟩, hwhole, hnumber⟩ := h
  dsimp only at hnumber
  generalize hsign : (minusPart text).1 = sign at hnumber
  generalize hexponent : (exponentPart (fractionPart after).2).1 = exponent at hnumber
  obtain rfl := Option.some.inj hnumber
  have hletter : ∀ c ∈ exponent.head?, c = 0x65 ∨ c = 0x45 := by
    rw [← hexponent]
    exact exponentPart_head _
  have hfraction := fractionPart_again after hletter
  have hnodigit : ∀ c ∈ ((fractionPart after).1++exponent).head?, ¬isDecimalDigit c = true := by
    intro c hc
    rcases fractionPart_cases after with hnone | ⟨d, more, -, hpoint⟩
    · rw [hnone] at hc
      rcases hletter c hc with rfl | rfl
      · decide
      · decide
    · rw [hpoint] at hc
      obtain rfl : 0x2E = c := Option.some.inj hc
      decide
  have hagain := wholePart_again hwhole _ hnodigit
  have hminus : minusPart (sign++(whole++((fractionPart after).1++exponent)))
      = (sign, whole++((fractionPart after).1++exponent)) := by
    obtain ⟨c, rest, rfl, hc⟩ := wholePart_head hwhole
    exact minusPart_again hsign hc _
  dsimp only
  rw [List.append_assoc, List.append_assoc, scanNumber, hminus]
  dsimp only
  rw [hagain]
  change some _ = some _
  rw [hfraction, exponentPart_again hexponent]
  dsimp only
  rw [List.append_assoc, List.append_assoc]

/-- Everything that a script returns has a property. -/
def Returns {α : Type} (script : JsonScript α) (P : α → Prop) : Prop :=
  ∀ scan value after, script scan = (.ok value, after) → P value

section Returns

variable {α β : Type} {script : JsonScript α} {P : α → Prop} {Q : β → Prop}

theorem returns_bind {next : α → JsonScript β} (hscript : Returns script P)
    (hnext : ∀ value, P value → Returns (next value) Q) : Returns (script >>= next) Q := by
  intro scan value after h
  rcases hrun : script scan with ⟨failure | first, middle⟩
  · rw [Script.bind_error next hrun] at h
    cases h
  · rw [Script.bind_ok next hrun] at h
    exact hnext first (hscript scan first middle hrun) middle value after h

theorem returns_any (script : JsonScript α) : Returns script (fun _ => True) :=
  fun _ _ _ _ => trivial

theorem returns_pure {value : α} (h : P value) : Returns (pure value) P := by
  intro scan found after hrun
  cases hrun
  exact h

theorem returns_raise (failure : JsonFailure) : Returns (Script.raise failure) P := by
  intro scan found after hrun
  cases hrun

theorem returns_ite {condition : Prop} [Decidable condition] {other : JsonScript α}
    (hscript : Returns script P) (hother : Returns other P) :
    Returns (if condition then script else other) P := by
  split_ifs
  · exact hscript
  · exact hother

theorem returns_token {scanner : Str → Except JsonFailure (α × Str)}
    (h : ∀ text value rest, scanner text = .ok (value, rest) → P value) :
    Returns (token scanner) P := by
  intro scan found after hrun
  rw [token] at hrun
  split at hrun
  · rename_i value rest hscanner
    cases hrun
    exact h _ _ _ hscanner
  · cases hrun

end Returns

variable {runtime : JsonRuntime} {depth : ℕ}

theorem itemsReadAt_iff {keeps : Str → Prop} (items : List Json) :
    ItemsReadAt runtime keeps depth items ↔ ∀ item ∈ items, ReadsAt runtime keeps depth item := by
  induction items with
  | nil => rw [ItemsReadAt]; simp
  | cons item items ih => rw [ItemsReadAt, ih, List.forall_mem_cons]

theorem membersReadAt_iff {keeps : Str → Prop} (members : List (Str × Json)) :
    MembersReadAt runtime keeps depth members
      ↔ ∀ member ∈ members, keeps member.1 ∧ ReadsAt runtime keeps depth member.2 := by
  induction members with
  | nil => rw [MembersReadAt]; simp
  | cons member members ih =>
    obtain ⟨name, value⟩ := member
    rw [MembersReadAt, ih, List.forall_mem_cons, and_assoc]

theorem scanAtom_returns {text rest : Str} {value : Json}
    (h : scanAtom runtime text = .ok (value, rest)) : ReadsAt runtime JsonSpelling.raw.Keeps depth value := by
  rw [scanAtom] at h
  split at h
  · rename_i constant hfound
    have hmem := List.mem_of_find?_eq_some hfound
    cases h
    simp only [constants, List.mem_cons, List.not_mem_nil, or_false] at hmem
    rcases hmem with rfl | rfl | rfl | rfl | rfl | rfl
    · simp only [ReadsAt]
    · simp only [ReadsAt]
    · simp only [ReadsAt]
    all_goals
      rw [ReadsAt]
      exact Or.inl (by simp [floatNames])
  · split at h
    · cases h
    · rename_i number hnumber
      split_ifs at h with hfloat
      · cases h
        have hagain := scanNumber_again hnumber
        rw [hfloat] at hagain
        rw [ReadsAt]
        exact runtime.floatText_stable number.text hagain
      · split at h
        · rename_i n hn
          cases h
          rw [ReadsAt]
          exact readInt_lt hn
        · cases h

theorem scanEntries_returns {α : Type} {entry : JsonScript α} {P : α → Prop}
    (hentry : Returns entry P) (bracket : CodePoint) (fuel : ℕ) :
    Returns (scanEntries entry bracket fuel) (fun values => ∀ value ∈ values, P value) := by
  induction fuel with
  | zero => exact returns_raise _
  | succ fuel ih =>
    refine returns_bind hentry (fun value hvalue => ?_)
    refine returns_bind (returns_any _) (fun _ _ => ?_)
    refine returns_bind (returns_any _) (fun closed _ => ?_)
    apply returns_ite
    · exact returns_pure (List.forall_mem_singleton.mpr hvalue)
    · refine returns_bind (returns_any _) (fun _ _ => ?_)
      refine returns_bind (returns_any _) (fun _ _ => ?_)
      refine returns_bind ih (fun values hvalues => ?_)
      exact returns_pure (List.forall_mem_cons.mpr ⟨hvalue, hvalues⟩)

theorem scanBody_returns {α : Type} {entry : JsonScript α} {P : α → Prop}
    (hentry : Returns entry P) (bracket : CodePoint) :
    Returns (scanBody entry bracket) (fun values => ∀ value ∈ values, P value) := by
  refine returns_bind (returns_any _) (fun _ _ => ?_)
  refine returns_bind (returns_any _) (fun closed _ => ?_)
  apply returns_ite
  · exact returns_pure (List.forall_mem_nil _)
  · exact fun scan => scanEntries_returns hentry bracket scan.rest.length scan

theorem scanArray_returns {item : JsonScript Json}
    (h : Returns item (ReadsAt runtime JsonSpelling.raw.Keeps depth)) :
    Returns (scanArray item) (ReadsAt runtime JsonSpelling.raw.Keeps (depth+1)) := by
  refine returns_bind (returns_any _) (fun _ _ => ?_)
  refine returns_bind (scanBody_returns h 0x5D) (fun items hitems => returns_pure ?_)
  rw [ReadsAt, itemsReadAt_iff]
  exact hitems

theorem scanObject_returns {item : JsonScript Json}
    (h : Returns item (ReadsAt runtime JsonSpelling.raw.Keeps depth)) :
    Returns (scanObject item) (ReadsAt runtime JsonSpelling.raw.Keeps (depth+1)) := by
  have hmember : Returns (scanMember item)
      (fun member => ReadsAt runtime JsonSpelling.raw.Keeps depth member.2) := by
    refine returns_bind (returns_any _) (fun name _ => ?_)
    refine returns_bind (returns_any _) (fun _ _ => ?_)
    refine returns_bind (returns_any _) (fun _ _ => ?_)
    refine returns_bind (returns_any _) (fun _ _ => ?_)
    exact returns_bind h (fun value hvalue => returns_pure hvalue)
  refine returns_bind (returns_any _) (fun _ _ => ?_)
  refine returns_bind (scanBody_returns hmember 0x7D) (fun members hmembers => ?_)
  refine returns_bind (returns_any _) (fun _ _ => returns_pure ?_)
  rw [ReadsAt, membersReadAt_iff]
  exact fun member hmember => ⟨JsonSpelling.raw_keeps _, hmembers member hmember⟩

theorem scanValue_returns (item : Option (JsonScript Json))
    (harray : Returns (nested item scanArray) (ReadsAt runtime JsonSpelling.raw.Keeps depth))
    (hobject : Returns (nested item scanObject) (ReadsAt runtime JsonSpelling.raw.Keeps depth)) :
    Returns (scanValue runtime item) (ReadsAt runtime JsonSpelling.raw.Keeps depth) := by
  refine returns_bind (returns_any _) (fun front _ => ?_)
  apply returns_ite
  · refine returns_bind (returns_any _) (fun s _ => returns_pure ?_)
    rw [ReadsAt]
    exact JsonSpelling.raw_keeps s
  apply returns_ite
  · exact hobject
  apply returns_ite
  · exact harray
  · exact returns_token (fun _ _ _ h => scanAtom_returns h)

theorem scanOnce_returns (runtime : JsonRuntime) (depth : ℕ) :
    Returns (scanOnce runtime depth) (ReadsAt runtime JsonSpelling.raw.Keeps depth) := by
  induction depth with
  | zero => exact scanValue_returns none (returns_raise _) (returns_raise _)
  | succ depth ih =>
    exact scanValue_returns (some (scanOnce runtime depth)) (scanArray_returns ih)
      (scanObject_returns ih)

theorem read_returns {text : Str} {value : Json} (h : read runtime text = .ok value) :
    ReadsAt runtime JsonSpelling.raw.Keeps runtime.maxDepth value := by
  have hdecode : Returns (decode runtime) (ReadsAt runtime JsonSpelling.raw.Keeps runtime.maxDepth) := by
    refine returns_bind (returns_any _) (fun front _ => ?_)
    apply returns_ite
    · exact returns_raise _
    refine returns_bind (returns_any _) (fun _ _ => ?_)
    refine returns_bind (scanOnce_returns runtime runtime.maxDepth) (fun value hvalue => ?_)
    refine returns_bind (returns_any _) (fun _ _ => ?_)
    refine returns_bind (returns_any _) (fun rest _ => ?_)
    apply returns_ite
    · exact returns_pure hvalue
    · exact returns_raise _
  rw [read] at h
  split at h
  · rename_i found after hrun
    cases h
    exact hdecode _ _ _ hrun
  · cases h

theorem noRepeatsItems_iff (items : List Json) :
    Json.NoRepeatsItems items ↔ ∀ item ∈ items, item.NoRepeats := by
  induction items with
  | nil => rw [Json.NoRepeatsItems]; simp
  | cons item items ih => rw [Json.NoRepeatsItems, ih, List.forall_mem_cons]

theorem noRepeatsMembers_iff (members : List (Str × Json)) :
    Json.NoRepeatsMembers members ↔ ∀ member ∈ members, member.2.NoRepeats := by
  induction members with
  | nil => rw [Json.NoRepeatsMembers]; simp
  | cons member members ih =>
    obtain ⟨name, value⟩ := member
    rw [Json.NoRepeatsMembers, ih, List.forall_mem_cons]

/-- A `dict` whose values have a property. -/
structure IsDict (P : Json → Prop) (members : List (Str × Json)) : Prop where
  distinct : (members.map Prod.fst).Nodup
  values : ∀ member ∈ members, P member.2

theorem IsDict.setItem {P : Json → Prop} {members : List (Str × Json)} (h : IsDict P members)
    (name : Str) {value : Json} (hvalue : P value) : IsDict P (setItem members name value) := by
  rw [ConferWorker.setItem]
  split_ifs with hused
  · refine ⟨?_, ?_⟩
    · have hkeys : (members.map (fun member => if member.1 = name then (name, value)
          else member)).map Prod.fst = members.map Prod.fst := by
        rw [List.map_map]
        apply List.map_congr_left
        intro member _
        rw [Function.comp_apply]
        split_ifs with hname
        · exact hname.symm
        · rfl
      rw [hkeys]
      exact h.distinct
    · intro member hmember
      obtain ⟨old, hold, rfl⟩ := List.mem_map.mp hmember
      split_ifs
      · exact hvalue
      · exact h.values old hold
  · refine ⟨?_, ?_⟩
    · rw [List.map_append, List.map_singleton, ← List.concat_eq_append, List.nodup_concat]
      refine ⟨?_, h.distinct⟩
      intro hname
      obtain ⟨member, hmember, heq⟩ := List.mem_map.mp hname
      exact hused ⟨member, hmember, heq⟩
    · rw [List.forall_mem_append]
      exact ⟨h.values, List.forall_mem_singleton.mpr hvalue⟩

theorem isDict_foldl {P : Json → Prop} (pairs members : List (Str × Json))
    (h : IsDict P members) (hpairs : ∀ pair ∈ pairs, P pair.2) :
    IsDict P (pairs.foldl (fun members pair => setItem members pair.1 pair.2) members) := by
  induction pairs generalizing members with
  | nil => exact h
  | cons pair pairs ih =>
    obtain ⟨hpair, hrest⟩ := List.forall_mem_cons.mp hpairs
    exact ih _ (h.setItem pair.1 hpair) hrest

/-- A value that the parser can return as a whole: its objects are `dict`s. -/
structure Canonical (runtime : JsonRuntime) (depth : ℕ) (value : Json) : Prop where
  reads : ReadsAt runtime JsonSpelling.raw.Keeps depth value
  distinct : value.NoRepeats

mutual

theorem hooked_canonical (tree result : Json) (depth : ℕ) (h : tree.hooked asDict = .ok result)
    (hreads : ReadsAt runtime JsonSpelling.raw.Keeps depth tree) :
    Canonical runtime depth result := by
  cases tree with
  | arr items =>
    rw [Json.hooked, bind_eq_ok] at h
    obtain ⟨results, hresults, hresult⟩ := h
    obtain rfl := (pure_eq_ok _ _).mp hresult
    cases depth with
    | zero => exact absurd hreads (by simp only [ReadsAt, not_false_iff])
    | succ depth =>
      rw [ReadsAt, itemsReadAt_iff] at hreads
      have hitems := hookedItems_canonical items results depth hresults hreads
      refine ⟨?_, ?_⟩
      · rw [ReadsAt, itemsReadAt_iff]
        exact fun item hitem => (hitems item hitem).reads
      · rw [Json.NoRepeats, noRepeatsItems_iff]
        exact fun item hitem => (hitems item hitem).distinct
  | obj members =>
    rw [Json.hooked, bind_eq_ok] at h
    obtain ⟨results, hresults, hresult⟩ := h
    obtain rfl := Except.ok.inj hresult
    cases depth with
    | zero => exact absurd hreads (by simp only [ReadsAt, not_false_iff])
    | succ depth =>
      rw [ReadsAt, membersReadAt_iff] at hreads
      have hmembers := hookedMembers_canonical members results depth hresults
        (fun member hmember => (hreads member hmember).2)
      -- a repeated name keeps its first place and its last value
      have hdict := isDict_foldl results [] ⟨List.nodup_nil, List.forall_mem_nil _⟩ hmembers
      refine ⟨?_, ?_⟩
      · rw [ReadsAt, membersReadAt_iff]
        exact fun member hmember =>
          ⟨JsonSpelling.raw_keeps _, (hdict.values member hmember).reads⟩
      · rw [Json.NoRepeats, noRepeatsMembers_iff]
        exact ⟨fun member hmember => (hdict.values member hmember).distinct, hdict.distinct⟩
  | null =>
    cases h
    exact ⟨hreads, by simp only [Json.NoRepeats]⟩
  | bool value =>
    cases h
    exact ⟨hreads, by simp only [Json.NoRepeats]⟩
  | int n =>
    cases h
    exact ⟨hreads, by simp only [Json.NoRepeats]⟩
  | float text =>
    cases h
    exact ⟨hreads, by simp only [Json.NoRepeats]⟩
  | str s =>
    cases h
    exact ⟨hreads, by simp only [Json.NoRepeats]⟩
  | bytes value =>
    cases h
    exact ⟨hreads, by simp only [Json.NoRepeats]⟩

theorem hookedItems_canonical (items results : List Json) (depth : ℕ)
    (h : Json.hookedItems asDict items = .ok results)
    (hreads : ∀ item ∈ items, ReadsAt runtime JsonSpelling.raw.Keeps depth item) :
    ∀ item ∈ results, Canonical runtime depth item := by
  cases items with
  | nil =>
    cases h
    exact List.forall_mem_nil _
  | cons item items =>
    obtain ⟨hitem, hitems⟩ := List.forall_mem_cons.mp hreads
    rw [Json.hookedItems, bind_eq_ok] at h
    obtain ⟨result, hresult, hrest⟩ := h
    rw [bind_eq_ok] at hrest
    obtain ⟨others, hothers, hresults⟩ := hrest
    obtain rfl := (pure_eq_ok _ _).mp hresults
    exact List.forall_mem_cons.mpr ⟨hooked_canonical item result depth hresult hitem,
      hookedItems_canonical items others depth hothers hitems⟩

theorem hookedMembers_canonical (members results : List (Str × Json)) (depth : ℕ)
    (h : Json.hookedMembers asDict members = .ok results)
    (hreads : ∀ member ∈ members, ReadsAt runtime JsonSpelling.raw.Keeps depth member.2) :
    ∀ member ∈ results, Canonical runtime depth member.2 := by
  cases members with
  | nil =>
    cases h
    exact List.forall_mem_nil _
  | cons member members =>
    obtain ⟨name, value⟩ := member
    obtain ⟨hvalue, hmembers⟩ := List.forall_mem_cons.mp hreads
    rw [Json.hookedMembers, bind_eq_ok] at h
    obtain ⟨result, hresult, hrest⟩ := h
    rw [bind_eq_ok] at hrest
    obtain ⟨others, hothers, hresults⟩ := hrest
    obtain rfl := (pure_eq_ok _ _).mp hresults
    exact List.forall_mem_cons.mpr ⟨hooked_canonical value result depth hresult hvalue,
      hookedMembers_canonical members others depth hothers hmembers⟩

end

/-- Whatever the bytes are, the document that is read can be read again. -/
theorem loads_canonical {bytes : Bytes} {value : Json} (h : loads runtime bytes = .ok value) :
    Canonical runtime runtime.maxDepth value := by
  rw [loads] at h
  split at h
  · cases h
  · split at h
    · rename_i tree hread
      exact hooked_canonical tree value runtime.maxDepth h (read_returns hread)
    · cases h

/-- What is written for an accepted document is the same document. -/
theorem loads_again {bytes again : Bytes} {value : Json} (h : loads runtime bytes = .ok value)
    (hencode : value.encode = .ok again) : loads runtime again = .ok value := by
  have hcanonical := loads_canonical h
  exact loads_encode hencode hcanonical.reads hcanonical.distinct

end JsonParser

end ConferWorker
