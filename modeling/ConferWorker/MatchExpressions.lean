import ConferWorker.ArtifactSearch
import ConferWorker.CharacterRuns
import ConferWorker.FtsPhrases

/-! The expression that a search request becomes: it is read as a disjunction of conjunctions of
plain phrases, and matches what one of the queries asks for. -/
namespace ConferWorker

/-- The blank, the double quote, the underscore and NUL are not alphanumeric. -/
structure UnicodeTables.LeavesSyntax (tables : UnicodeTables) : Prop where
  blank : tables.isAlnum 0x20 = false
  quote : tables.isAlnum 0x22 = false
  underscore : tables.isAlnum 0x5F = false
  nul : tables.isAlnum 0 = false

namespace ArtifactReader

variable {tables : UnicodeTables}

/-- The phrase of a literal. -/
def phraseOf (tables : UnicodeTables) (literal : Str) : Str :=
  (ofString " ").intercalate (queryTokens tables literal)

@[simp] theorem mem_appendNew (items : List Str) (item x : Str) :
    x ∈ appendNew items item ↔ x ∈ items ∨ x = item := by
  unfold appendNew
  split_ifs with hmem
  · constructor
    · exact Or.inl
    · rintro (hx | rfl)
      · exact hx
      · exact hmem
  · rw [List.mem_append, List.mem_singleton]

theorem queryTokens_eq_nil_iff (literal : Str) :
    queryTokens tables literal = []
      ↔ ∀ c ∈ literal.flatMap tables.casefold, tables.isTerm c = false :=
  runs_eq_nil_iff _

/-- A query is dropped if one of its literals has no tokens. -/
theorem requiredPhrases_eq_none_iff (tables : UnicodeTables) (required literals : List Str) :
    requiredPhrases tables required literals = none
      ↔ ∃ literal ∈ literals, queryTokens tables literal = [] := by
  induction literals generalizing required with
  | nil => simp [requiredPhrases]
  | cons literal literals ih =>
    rw [requiredPhrases]
    cases htokens : queryTokens tables literal with
    | nil => simp [htokens]
    | cons token tokens =>
      dsimp only
      rw [ih]
      simp [htokens]

/-- Otherwise its phrases are those of its literals. -/
theorem mem_requiredPhrases {required literals phrases : List Str}
    (h : requiredPhrases tables required literals = some phrases) (phrase : Str) :
    phrase ∈ phrases ↔ phrase ∈ required ∨ ∃ literal ∈ literals, phrase = phraseOf tables literal := by
  induction literals generalizing required with
  | nil =>
    rw [requiredPhrases, Option.some.injEq] at h
    rw [h]
    simp only [List.not_mem_nil, false_and, exists_false, or_false]
  | cons literal literals ih =>
    rw [requiredPhrases] at h
    cases htokens : queryTokens tables literal with
    | nil =>
      rw [htokens] at h
      cases h
    | cons token tokens =>
      rw [htokens] at h
      rw [ih h, mem_appendNew, ← htokens]
      simp only [List.mem_cons, exists_eq_or_imp, or_assoc, phraseOf]

/-- The phrases of a query that is searched for. -/
def IsAlternative (tables : UnicodeTables) (literals phrases : List Str) : Prop :=
  requiredPhrases tables [] literals = some phrases ∧ phrases ≠ []

theorem isAlternative_of_tokens (tables : UnicodeTables) (literals : List Str) (hne : literals ≠ [])
    (htokens : ∀ literal ∈ literals, queryTokens tables literal ≠ []) :
    ∃ phrases, IsAlternative tables literals phrases := by
  cases hphrases : requiredPhrases tables [] literals with
  | none =>
    obtain ⟨literal, hliteral, hnil⟩ := (requiredPhrases_eq_none_iff tables [] literals).mp hphrases
    exact absurd hnil (htokens literal hliteral)
  | some phrases =>
    obtain ⟨literal, hliteral⟩ := List.exists_mem_of_ne_nil _ hne
    exact ⟨phrases, hphrases, List.ne_nil_of_mem
      ((mem_requiredPhrases hphrases _).mpr (Or.inr ⟨literal, hliteral, rfl⟩))⟩

theorem tokens_of_isAlternative {literals phrases : List Str}
    (h : IsAlternative tables literals phrases) :
    ∀ literal ∈ literals, queryTokens tables literal ≠ [] := by
  intro literal hliteral hnil
  have hnone := (requiredPhrases_eq_none_iff tables [] literals).mpr
    ⟨literal, hliteral, hnil⟩
  rw [h.1] at hnone
  cases hnone

theorem matchAlternatives_append (queries : List (List Str)) {literals phrases : List Str}
    (h : IsAlternative tables literals phrases) :
    matchAlternatives tables (queries++[literals])
      = appendNew (matchAlternatives tables queries) (conjunctionText phrases) := by
  obtain ⟨phrase, more, rfl⟩ := List.exists_cons_of_ne_nil h.2
  rw [matchAlternatives, List.foldl_append, List.foldl_cons, List.foldl_nil, h.1]
  rfl

theorem matchAlternatives_append_none (queries : List (List Str)) {literals : List Str}
    (h : ¬∃ phrases, IsAlternative tables literals phrases) :
    matchAlternatives tables (queries++[literals]) = matchAlternatives tables queries := by
  rw [matchAlternatives, List.foldl_append, List.foldl_cons, List.foldl_nil]
  match hphrases : requiredPhrases tables [] literals with
  | none => rfl
  | some [] => rfl
  | some (phrase :: phrases) => exact absurd ⟨_, hphrases, List.cons_ne_nil _ _⟩ h

/-- The loop over the queries: the alternatives are the texts of some phrase lists, every one of
them of a query, and every query that has one has its text among them. -/
theorem matchAlternatives_eq (tables : UnicodeTables) (queries : List (List Str)) :
    ∃ alternatives : List (List Str),
      matchAlternatives tables queries = alternatives.map conjunctionText
      ∧ (∀ phrases ∈ alternatives, ∃ literals ∈ queries, IsAlternative tables literals phrases)
      ∧ ∀ literals ∈ queries, ∀ phrases, IsAlternative tables literals phrases →
        conjunctionText phrases ∈ alternatives.map conjunctionText := by
  -- the loop appends at the end, so the induction takes the last query off
  induction queries using List.reverseRecOn with
  | nil => exact ⟨[], rfl, fun _ h => absurd h List.not_mem_nil,
      fun _ h => absurd h List.not_mem_nil⟩
  | append_singleton queries literals ih =>
    obtain ⟨alternatives, htexts, hsource, hall⟩ := ih
    have hkeep : ∀ phrases ∈ alternatives, ∃ literals' ∈ queries++[literals],
        IsAlternative tables literals' phrases := by
      intro phrases hphrases
      obtain ⟨literals', hmem, hphrase⟩ := hsource phrases hphrases
      exact ⟨literals', List.mem_append_left _ hmem, hphrase⟩
    by_cases hlast : ∃ phrases, IsAlternative tables literals phrases
    · obtain ⟨phrases, hphrases⟩ := hlast
      have hsame : ∀ literals' ∈ queries++[literals], ∀ other, IsAlternative tables literals' other →
          conjunctionText other ∈ alternatives.map conjunctionText
            ∨ conjunctionText other = conjunctionText phrases := by
        intro literals' hmem other hother
        rcases List.mem_append.mp hmem with hearlier | hhere
        · exact Or.inl (hall literals' hearlier other hother)
        · rw [List.mem_singleton.mp hhere] at hother
          rw [Option.some.inj (hother.1.symm.trans hphrases.1)]
          exact Or.inr rfl
      rw [matchAlternatives_append queries hphrases, htexts]
      -- an expression that was asked for before is not asked for twice
      by_cases hmem : conjunctionText phrases ∈ alternatives.map conjunctionText
      · refine ⟨alternatives, if_pos hmem, hkeep, fun literals' hliterals other hother => ?_⟩
        rcases hsame literals' hliterals other hother with hearlier | heq
        · exact hearlier
        · rwa [heq]
      · refine ⟨alternatives++[phrases], ?_, ?_, ?_⟩
        · rw [List.map_append]
          exact if_neg hmem
        · intro other hother
          rcases List.mem_append.mp hother with hearlier | hhere
          · exact hkeep other hearlier
          · rw [List.mem_singleton.mp hhere]
            exact ⟨literals, List.mem_append_right _ (List.mem_singleton_self _), hphrases⟩
        · intro literals' hliterals other hother
          rw [List.map_append, List.mem_append]
          refine (hsame literals' hliterals other hother).imp_right ?_
          intro heq
          rw [heq]
          exact List.mem_singleton_self _
    · rw [matchAlternatives_append_none queries hlast]
      refine ⟨alternatives, htexts, hkeep, fun literals' hliterals other hother => ?_⟩
      rcases List.mem_append.mp hliterals with hearlier | hhere
      · exact hall literals' hearlier other hother
      · rw [List.mem_singleton.mp hhere] at hother
        exact absurd ⟨other, hother⟩ hlast

section Reading

variable (hleaves : tables.LeavesSyntax)
include hleaves

/-- `[^\W_]` are the letters and digits. -/
theorem isTerm_eq (c : CodePoint) : tables.isTerm c = tables.isAlnum c := by
  rw [UnicodeTables.isTerm, UnicodeTables.isWord]
  by_cases hc : c = 0x5F
  · rw [hc, hleaves.underscore]
    decide
  · rw [beq_eq_false_iff_ne.mpr hc, bne_iff_ne.mpr hc, Bool.or_false, Bool.and_true]

theorem isTerm_blank : tables.isTerm 0x20 = false := by
  rw [isTerm_eq hleaves, hleaves.blank]

/-- The tokens of a phrase are those of its literal. -/
theorem runs_phraseOf (literal : Str) :
    runs tables.isTerm (phraseOf tables literal) = queryTokens tables literal :=
  runs_intercalate (isTerm_blank hleaves) _ (fun _ htoken => mem_runs htoken)

/-- No phrase holds a quote or a NUL character. -/
theorem isPlainText_phraseOf (literal : Str) : IsPlainText (phraseOf tables literal) := by
  have hplain : ∀ c, tables.isTerm c = true → c.val ≠ 0 ∧ c.val ≠ 0x22 := by
    intro c hc
    constructor
    · intro hval
      have hzero : c = 0 := Fin.ext hval
      rw [hzero, isTerm_eq hleaves, hleaves.nul] at hc
      cases hc
    · intro hval
      have hquote : c = 0x22 := Fin.ext hval
      rw [hquote, isTerm_eq hleaves, hleaves.quote] at hc
      cases hc
  intro c hc
  rcases mem_intercalate c _ _ hc with hblank | ⟨token, htoken, hmem⟩
  · rw [List.mem_singleton.mp hblank]
    decide
  · exact hplain c ((mem_runs htoken).2 c hmem)

theorem isPlainText_of_isAlternative {literals phrases : List Str}
    (h : IsAlternative tables literals phrases) : ∀ phrase ∈ phrases, IsPlainText phrase := by
  intro phrase hphrase
  rcases (mem_requiredPhrases h.1 phrase).mp hphrase with hnone | ⟨literal, -, rfl⟩
  · exact absurd hnone List.not_mem_nil
  · exact isPlainText_phraseOf hleaves literal

/-- The conjunction of a query matches the texts in which the tokens of all of its literals
stand. -/
theorem matches_isAlternative {literals phrases : List Str}
    (h : IsAlternative tables literals phrases) (name : Str) (words : List Str) :
    (conjunction phrases).Matches (runs tables.isTerm) [(name, words)]
      ↔ ∀ literal ∈ literals, queryTokens tables literal ≠ []
        ∧ queryTokens tables literal <:+: words := by
  rw [FtsExpr.matches_conjunction _ _ _ h.2]
  simp only [FtsExpr.matches_plainPhrase]
  constructor
  · intro hall literal hliteral
    have hphrase := hall (phraseOf tables literal)
      ((mem_requiredPhrases h.1 _).mpr (Or.inr ⟨literal, hliteral, rfl⟩))
    rwa [runs_phraseOf hleaves] at hphrase
  · intro hall phrase hphrase
    rcases (mem_requiredPhrases h.1 phrase).mp hphrase with hnone | ⟨literal, hliteral, rfl⟩
    · exact absurd hnone List.not_mem_nil
    · rw [runs_phraseOf hleaves]
      exact hall literal hliteral

/-- Two alternatives with the same text are the same conjunction. -/
theorem conjunction_of_text {literals literals' phrases phrases' : List Str}
    (h : IsAlternative tables literals phrases) (h' : IsAlternative tables literals' phrases')
    (heq : conjunctionText phrases = conjunctionText phrases') :
    conjunction phrases = conjunction phrases' := by
  have hread := FtsExpr.read_disjunction [phrases] (List.cons_ne_nil _ _) (by
    intro other hother
    rw [List.mem_singleton.mp hother]
    exact ⟨h.2, isPlainText_of_isAlternative hleaves h⟩)
  have hread' := FtsExpr.read_disjunction [phrases'] (List.cons_ne_nil _ _) (by
    intro other hother
    rw [List.mem_singleton.mp hother]
    exact ⟨h'.2, isPlainText_of_isAlternative hleaves h'⟩)
  rw [List.map_singleton, heq] at hread
  exact Option.some.inj (hread.symm.trans hread')

end Reading

theorem matchQuery_eq (queries : List SearchQuery) :
    matchQuery tables queries
      = if matchAlternatives tables (queries.map SearchQuery.all) = [] then
          .error (.valueError (ofString "search query has no searchable terms"))
        else .ok ((ofString " OR ").intercalate
          (matchAlternatives tables (queries.map SearchQuery.all))) := by
  rw [matchQuery, raiseIf]
  split_ifs
  · rfl
  · rfl

theorem searchQuery_all_ne_nil (query : SearchQuery) : query.all ≠ [] :=
  List.ne_nil_of_length_pos query.all_range.1

/-- Nothing is searched for exactly if every query has a literal whose case folding has no letter
or digit. -/
theorem matchAlternatives_eq_nil_iff (queries : List SearchQuery) :
    matchAlternatives tables (queries.map SearchQuery.all) = []
      ↔ ∀ query ∈ queries, ∃ literal ∈ query.all, queryTokens tables literal = [] := by
  obtain ⟨alternatives, htexts, hsource, hall⟩ :=
    matchAlternatives_eq tables (queries.map SearchQuery.all)
  rw [htexts, List.map_eq_nil_iff]
  constructor
  · intro hnil query hquery
    by_contra hnone
    obtain ⟨phrases, hphrases⟩ := isAlternative_of_tokens tables query.all
      (searchQuery_all_ne_nil query) (fun literal hliteral hempty =>
        hnone ⟨literal, hliteral, hempty⟩)
    have hmem := hall _ (List.mem_map_of_mem hquery) phrases hphrases
    rw [hnil] at hmem
    exact List.not_mem_nil hmem
  · intro hevery
    by_contra hne
    obtain ⟨phrases, hphrases⟩ := List.exists_mem_of_ne_nil _ hne
    obtain ⟨literals, hliterals, halternative⟩ := hsource phrases hphrases
    obtain ⟨query, hquery, rfl⟩ := List.mem_map.mp hliterals
    obtain ⟨literal, hliteral, hempty⟩ := hevery query hquery
    exact tokens_of_isAlternative halternative literal hliteral hempty

/-- The expression of a request raises exactly if every query has a literal whose case folding has
no letter or digit. Otherwise it is read as a disjunction of conjunctions of plain phrases, and it
matches a sequence of tokens exactly if some query, all of whose literals have tokens, has the
tokens of each of its literals in it one behind the other. -/
theorem match_query_means (hleaves : tables.LeavesSyntax) (queries : List SearchQuery) :
    ((∃ text, matchQuery tables queries = .error (.valueError text))
      ↔ ∀ query ∈ queries, ∃ literal ∈ query.all,
        ∀ c ∈ literal.flatMap tables.casefold, tables.isAlnum c = false)
    ∧ ((¬∀ query ∈ queries, ∃ literal ∈ query.all,
        ∀ c ∈ literal.flatMap tables.casefold, tables.isAlnum c = false) →
      ∃ expression, ∃ alternatives : List (List Str),
        matchQuery tables queries = .ok expression
        ∧ FtsExpr.read expression = some (disjunction alternatives)
        ∧ alternatives ≠ []
        ∧ (∀ phrases ∈ alternatives, phrases ≠ [] ∧ ∀ phrase ∈ phrases,
          ∃ query ∈ queries, ∃ literal ∈ query.all,
            phrase = (ofString " ").intercalate (queryTokens tables literal))
        ∧ ∀ words : List Str,
          (disjunction alternatives).Matches (runs tables.isTerm) [(ofString "text", words)]
            ↔ ∃ query ∈ queries, ∀ literal ∈ query.all,
              queryTokens tables literal ≠ [] ∧ queryTokens tables literal <:+: words) := by
  have hempty : (∀ query ∈ queries, ∃ literal ∈ query.all,
        ∀ c ∈ literal.flatMap tables.casefold, tables.isAlnum c = false)
      ↔ matchAlternatives tables (queries.map SearchQuery.all) = [] := by
    rw [matchAlternatives_eq_nil_iff]
    simp only [queryTokens_eq_nil_iff, isTerm_eq hleaves]
  rw [hempty, matchQuery_eq]
  constructor
  · constructor
    · rintro ⟨text, herror⟩
      by_contra hne
      rw [if_neg hne] at herror
      cases herror
    · intro hnil
      exact ⟨_, if_pos hnil⟩
  · intro hne
    obtain ⟨alternatives, htexts, hsource, hall⟩ :=
      matchAlternatives_eq tables (queries.map SearchQuery.all)
    have halternatives : alternatives ≠ [] := by
      intro hnil
      rw [hnil, List.map_nil] at htexts
      exact hne htexts
    -- what is quoted holds no quote and no syntax
    have hplain : ∀ phrases ∈ alternatives,
        phrases ≠ [] ∧ ∀ phrase ∈ phrases, IsPlainText phrase := by
      intro phrases hphrases
      obtain ⟨literals, -, halternative⟩ := hsource phrases hphrases
      exact ⟨halternative.2, isPlainText_of_isAlternative hleaves halternative⟩
    refine ⟨_, alternatives, if_neg hne, ?_, halternatives, ?_, ?_⟩
    · rw [htexts]
      exact FtsExpr.read_disjunction alternatives halternatives hplain
    · intro phrases hphrases
      obtain ⟨literals, hliterals, halternative⟩ := hsource phrases hphrases
      obtain ⟨query, hquery, rfl⟩ := List.mem_map.mp hliterals
      refine ⟨halternative.2, fun phrase hphrase => ⟨query, hquery, ?_⟩⟩
      exact ((mem_requiredPhrases halternative.1 phrase).mp hphrase).resolve_left List.not_mem_nil
    · intro words
      rw [FtsExpr.matches_disjunction _ _ _ halternatives]
      constructor
      · rintro ⟨phrases, hphrases, hmatch⟩
        obtain ⟨literals, hliterals, halternative⟩ := hsource phrases hphrases
        obtain ⟨query, hquery, rfl⟩ := List.mem_map.mp hliterals
        exact ⟨query, hquery, (matches_isAlternative hleaves halternative _ words).mp hmatch⟩
      · rintro ⟨query, hquery, htokens⟩
        obtain ⟨phrases, hphrases⟩ := isAlternative_of_tokens tables query.all
          (searchQuery_all_ne_nil query) (fun literal hliteral => (htokens literal hliteral).1)
        have hmatch := (matches_isAlternative hleaves hphrases (ofString "text") words).mpr htokens
        -- a repeated alternative is another list of phrases with the same text
        obtain ⟨other, hother, hsame⟩ :=
          List.mem_map.mp (hall _ (List.mem_map_of_mem hquery) phrases hphrases)
        obtain ⟨literals, -, halternative⟩ := hsource other hother
        refine ⟨other, hother, ?_⟩
        rwa [conjunction_of_text hleaves halternative hphrases hsame]

/-- Letters and digits of ASCII, `ß` and `ι`, and U+0345, a mark whose case folding is `ι`. -/
def sampleTables : UnicodeTables where
  casefold c :=
    if 0x41 ≤ c.val ∧ c.val ≤ 0x5A then [Fin.ofNat _ (c.val+32)]
    else if c = 0xDF then ofString "ss"
    else if c = 0x345 then [0x3B9]
    else [c]
  isAlnum c := (0x30 ≤ c.val && c.val ≤ 0x39) || (0x41 ≤ c.val && c.val ≤ 0x5A)
    || (0x61 ≤ c.val && c.val ≤ 0x7A) || c == 0xDF || c == 0x3B9

theorem leavesSyntax_sampleTables : sampleTables.LeavesSyntax :=
  ⟨by decide, by decide, by decide, by decide⟩

/-- A search for the two texts `Cat` and `or" dog`. -/
def catQuery : SearchQuery := ⟨[ofString "Cat", ofString "or\" dog"], by decide, by decide⟩

/-- A search for a text without letters. -/
def markQuery : SearchQuery := ⟨[ofString "?!"], by decide, by decide⟩

theorem match_query_means_cat : ∃ expression, ∃ alternatives : List (List Str),
    matchQuery sampleTables [catQuery, markQuery] = .ok expression
    ∧ FtsExpr.read expression = some (disjunction alternatives)
    ∧ (disjunction alternatives).Matches (runs sampleTables.isTerm)
      [(ofString "text", [ofString "or", ofString "dog", ofString "cat"])] := by
  have hsearchable : ¬∀ query ∈ [catQuery, markQuery], ∃ literal ∈ query.all,
      ∀ c ∈ literal.flatMap sampleTables.casefold, sampleTables.isAlnum c = false := by
    intro hall
    obtain ⟨literal, hliteral, hnone⟩ := hall catQuery List.mem_cons_self
    rcases List.mem_cons.mp hliteral with rfl | hlast
    · exact absurd (hnone 0x63 (by decide)) (by decide)
    · rw [List.mem_singleton.mp hlast] at hnone
      exact absurd (hnone 0x6F (by decide)) (by decide)
  obtain ⟨expression, alternatives, hok, hread, -, -, hmatches⟩ :=
    (match_query_means leavesSyntax_sampleTables [catQuery, markQuery]).2 hsearchable
  exact ⟨expression, alternatives, hok, hread, (hmatches _).mpr
    ⟨catQuery, List.mem_cons_self, by decide +kernel⟩⟩

/-- A search for U+0345, which is neither a letter nor a digit. -/
def ypogegrammeniQuery : SearchQuery := ⟨[[0x345]], by decide, by decide⟩

/-- The only literal has no letter or digit, but its case folding has one, and nothing is
raised. -/
theorem match_query_folds_first :
    (∀ query ∈ [ypogegrammeniQuery], ∃ literal ∈ query.all,
      ∀ c ∈ literal, sampleTables.isAlnum c = false)
    ∧ matchQuery sampleTables [ypogegrammeniQuery] = .ok [0x28, 0x22, 0x3B9, 0x22, 0x29] := by
  refine ⟨fun query hquery => ⟨[0x345], ?_, fun c hc => ?_⟩, by decide +kernel⟩
  · rw [List.mem_singleton.mp hquery]
    exact List.mem_singleton_self _
  · rw [List.mem_singleton.mp hc]
    decide

end ArtifactReader

end ConferWorker
