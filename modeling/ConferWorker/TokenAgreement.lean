import ConferWorker.MatchExpressions

/-! Whether a document's own words find it: the index splits and folds a text in its own way, and
a literal that was copied from a chunk is found only if both ways agree on it. -/
namespace ConferWorker

section Alignment

variable {α β : Type} {words : α → List β} {folded : α → β}

theorem length_le_flatMap (items : List α) (hne : ∀ item ∈ items, words item ≠ []) :
    items.length ≤ (items.flatMap words).length := by
  induction items with
  | nil => exact Nat.zero_le _
  | cons item items ih =>
    have hfirst := List.length_pos_of_ne_nil (hne item List.mem_cons_self)
    have hmore := ih (fun other hother => hne other (List.mem_cons_of_mem _ hother))
    rw [List.flatMap_cons, List.length_append, List.length_cons]
    omega

/-- If every item has words, and they are as many as the items, every item has one. -/
theorem words_eq_of_flatMap_eq (items : List α) (hne : ∀ item ∈ items, words item ≠ [])
    (h : items.flatMap words = items.map folded) : ∀ item ∈ items, words item = [folded item] := by
  induction items with
  | nil => exact fun _ hitem => absurd hitem List.not_mem_nil
  | cons item items ih =>
    have hlater : ∀ other ∈ items, words other ≠ [] :=
      fun other hother => hne other (List.mem_cons_of_mem _ hother)
    obtain ⟨word, more, hwords⟩ := List.exists_cons_of_ne_nil (hne item List.mem_cons_self)
    rw [List.flatMap_cons, List.map_cons, hwords, List.cons_append, List.cons.injEq] at h
    have hlength := congrArg List.length h.2
    rw [List.length_append, List.length_map] at hlength
    have hle := length_le_flatMap items hlater
    have hmore : more = [] := List.eq_nil_of_length_eq_zero (by omega)
    rw [hmore, List.nil_append] at h
    intro other hother
    rcases List.mem_cons.mp hother with rfl | hother
    · rw [hwords, hmore, h.1]
    · exact ih hlater h.2 other hother

/-- The words of all items stand among the folded items only if the items with words stand one
behind the other and each has its folded form as its only word. An item whose folded form is a
word has one itself. -/
theorem flatMap_infix_map_iff (items : List α)
    (hown : ∀ item ∈ items, folded item ∈ items.flatMap words → words item ≠ []) :
    items.flatMap words <:+: items.map folded
      ↔ ∃ front middle back, items = front++middle++back
        ∧ (∀ item ∈ front++back, words item = [])
        ∧ ∀ item ∈ middle, words item = [folded item] := by
  constructor
  · rintro ⟨front', back', hinfix⟩
    obtain ⟨items', back, hitems, hfront, hback⟩ := List.map_eq_append_iff.mp hinfix.symm
    obtain ⟨front, middle, rfl, hfront', hmiddle⟩ := List.map_eq_append_iff.mp hfront
    have hhas : ∀ item ∈ middle, words item ≠ [] := by
      intro item hitem
      apply hown item
      · rw [hitems]
        exact List.mem_append_left _ (List.mem_append_right _ hitem)
      · rw [← hmiddle]
        exact List.mem_map_of_mem hitem
    have hcount := congrArg List.length hmiddle
    rw [List.length_map, hitems, List.flatMap_append, List.flatMap_append, List.length_append,
      List.length_append] at hcount
    have hle := length_le_flatMap middle hhas
    have hempty : front.flatMap words = [] ∧ back.flatMap words = [] :=
      ⟨List.eq_nil_of_length_eq_zero (by omega), List.eq_nil_of_length_eq_zero (by omega)⟩
    refine ⟨front, middle, back, hitems, ?_, ?_⟩
    · intro item hitem
      rcases List.mem_append.mp hitem with hitem | hitem
      · exact List.flatMap_eq_nil_iff.mp hempty.1 item hitem
      · exact List.flatMap_eq_nil_iff.mp hempty.2 item hitem
    · apply words_eq_of_flatMap_eq middle hhas
      rw [hmiddle, hitems, List.flatMap_append, List.flatMap_append, hempty.1, hempty.2,
        List.nil_append, List.append_nil]
  · rintro ⟨front, middle, back, rfl, hends, hmiddle⟩
    have hfront : front.flatMap words = [] :=
      List.flatMap_eq_nil_iff.mpr (fun item hitem => hends item (List.mem_append_left _ hitem))
    have hback : back.flatMap words = [] :=
      List.flatMap_eq_nil_iff.mpr (fun item hitem => hends item (List.mem_append_right _ hitem))
    have hsame : middle.flatMap words = middle.map folded := by
      rw [List.flatMap_congr hmiddle]
      exact List.flatMap_pure_eq_map folded middle
    refine ⟨front.map folded, back.map folded, ?_⟩
    rw [List.flatMap_append, List.flatMap_append, hfront, hback, List.nil_append, List.append_nil,
      hsame, List.map_append, List.map_append]

/-- Items without words can be left out. -/
theorem flatMap_filter_of_nil {p : α → Bool} {items : List α}
    (h : ∀ item ∈ items, ¬p item = true → words item = []) :
    (items.filter p).flatMap words = items.flatMap words := by
  induction items with
  | nil => rfl
  | cons item items ih =>
    obtain ⟨hfirst, hrest⟩ := List.forall_mem_cons.mp h
    rw [List.filter_cons, List.flatMap_cons, ← ih hrest]
    split_ifs with hp
    · rw [List.flatMap_cons]
    · rw [hfirst hp, List.nil_append]

end Alignment

/-- A tokenizer of the index: it splits a text at the characters that are no token characters, and
folds each of the others on its own, a mark that it drops to nothing. -/
structure IndexTokenizer where
  isTokenChar : CodePoint → Bool
  fold : CodePoint → Str

namespace IndexTokenizer

def foldText (index : IndexTokenizer) (s : Str) : Str := s.flatMap index.fold

/-- The tokens as they stand in a text; what is folded to nothing is none. -/
def tokens (index : IndexTokenizer) (s : Str) : List Str :=
  (runs index.isTokenChar s).filter (fun token => index.foldText token ≠ [])

def tokenize (index : IndexTokenizer) (s : Str) : List Str := (index.tokens s).map index.foldText

/-- A letter or digit of Python is a token character of the index, the blank is none. -/
structure SharesLetters (index : IndexTokenizer) (tables : UnicodeTables) : Prop where
  blank : index.isTokenChar 0x20 = false
  letter : ∀ c, tables.isAlnum c = true → index.isTokenChar c = true

/-- What `unicode61` and the Unicode tables of Python have in common besides. A letter or digit is
not dropped, and one is in its case folding; of the characters of a literal, what separates tokens
or is dropped is folded to no letter or digit, and a token character whose case folding has none,
a mark, is folded to nothing that a letter or digit is folded to. -/
structure SharesAlphabet (index : IndexTokenizer) (tables : UnicodeTables) (literal : Str) : Prop
    extends index.SharesLetters tables where
  kept : ∀ c, tables.isAlnum c = true → index.fold c ≠ []
  folded_letter : ∀ c, tables.isAlnum c = true →
    ∃ d ∈ tables.casefold c, tables.isAlnum d = true
  separator : ∀ c ∈ literal, index.isTokenChar c = false →
    tables.casefold c ≠ [] ∧ ∀ d ∈ tables.casefold c, tables.isAlnum d = false
  dropped : ∀ c ∈ literal, index.fold c = [] → ∀ d ∈ tables.casefold c, tables.isAlnum d = false
  mark : ∀ c ∈ literal, index.isTokenChar c = true →
    (∀ d ∈ tables.casefold c, tables.isAlnum d = false) →
    ∀ d, tables.isAlnum d = true → ∀ e ∈ index.fold c, e ∉ index.fold d

/-- Where a copied text starts or ends, no token of the index goes on. -/
def IsTokenBorder (index : IndexTokenizer) (before after : Str) : Prop :=
  IsRunBorder index.isTokenChar before after

theorem tokenize_append (index : IndexTokenizer) (before after : Str)
    (h : index.IsTokenBorder before after) :
    index.tokenize (before++after) = index.tokenize before++index.tokenize after := by
  rw [tokenize, tokens, runs_append_of_border before after h, List.filter_append, List.map_append]
  rfl

end IndexTokenizer

namespace ArtifactReader

variable {tables : UnicodeTables} {index : IndexTokenizer}

/-- A search for one literal, in an index of one chunk: the expression of the request is read and
matches the words of the chunk. -/
def Finds (tables : UnicodeTables) (index : IndexTokenizer) (query : SearchQuery) (chunk : Str) :
    Prop :=
  ∃ expression e, matchQuery tables [query] = .ok expression ∧ FtsExpr.read expression = some e
    ∧ e.Matches index.tokenize [(ofString "text", index.tokenize chunk)]

/-- The words that a token of the index, as it stands in a text, has in a search. -/
def searchedWords (tables : UnicodeTables) (index : IndexTokenizer) (token : Str) : List Str :=
  ((queryTokens tables token).filter (fun word => index.foldText word ≠ [])).map index.foldText

/-- The tokens of a literal, apart from marks at both ends, are folded alike on both sides. -/
def FoldsAlike (tables : UnicodeTables) (index : IndexTokenizer) (literal : Str) : Prop :=
  ∃ front middle back, index.tokens literal = front++middle++back
    ∧ (∀ token ∈ front++back, ∀ c ∈ token.flatMap tables.casefold, tables.isAlnum c = false)
    ∧ ∀ token ∈ middle, searchedWords tables index token = [index.foldText token]

section Found

/-- What the index makes of the phrase of a literal. -/
theorem tokenize_phraseOf (hleaves : tables.LeavesSyntax) (hletters : index.SharesLetters tables)
    (literal : Str) :
    index.tokenize (phraseOf tables literal) = searchedWords tables index literal := by
  have htokens : ∀ token ∈ queryTokens tables literal,
      token ≠ [] ∧ ∀ c ∈ token, index.isTokenChar c = true := by
    intro token htoken
    have hrun := mem_runs htoken
    refine ⟨hrun.1, fun c hc => hletters.letter c ?_⟩
    rw [← isTerm_eq hleaves]
    exact hrun.2 c hc
  have hblank : ofString " " = [0x20] := by decide
  rw [IndexTokenizer.tokenize, IndexTokenizer.tokens, phraseOf, hblank,
    runs_intercalate hletters.blank _ htokens]
  rfl

variable {literal : Str} (hleaves : tables.LeavesSyntax)
  (hshared : index.SharesAlphabet tables literal)
include hleaves hshared

/-- No word of a search is folded to nothing. -/
theorem foldText_word_ne_nil {token word : Str} (hword : word ∈ queryTokens tables token) :
    index.foldText word ≠ [] := by
  obtain ⟨hne, hterm⟩ := mem_runs hword
  obtain ⟨c, more, hcons⟩ := List.exists_cons_of_ne_nil hne
  have hc : c ∈ word := hcons ▸ List.mem_cons_self
  intro hnil
  refine hshared.kept c ?_ (List.flatMap_eq_nil_iff.mp hnil c hc)
  rw [← isTerm_eq hleaves]
  exact hterm c hc

theorem searchedWords_eq_nil_iff (token : Str) : searchedWords tables index token = []
    ↔ ∀ c ∈ token.flatMap tables.casefold, tables.isAlnum c = false := by
  have hall : (queryTokens tables token).filter (fun word => index.foldText word ≠ [])
      = queryTokens tables token :=
    List.filter_eq_self.mpr fun word hword =>
      decide_eq_true (foldText_word_ne_nil hleaves hshared hword)
  rw [searchedWords, hall, List.map_eq_nil_iff, queryTokens_eq_nil_iff]
  simp only [isTerm_eq hleaves]

/-- The words of a literal are those of its tokens in the index. -/
theorem searchedWords_eq : searchedWords tables index literal
    = (index.tokens literal).flatMap (searchedWords tables index) := by
  have hsplit : queryTokens tables literal
      = (runs index.isTokenChar literal).flatMap (queryTokens tables) := by
    apply runs_flatMap
    intro c hmem hc
    refine ⟨(hshared.separator c hmem hc).1, fun d hd => ?_⟩
    rw [isTerm_eq hleaves]
    exact (hshared.separator c hmem hc).2 d hd
  have hruns : searchedWords tables index literal
      = (runs index.isTokenChar literal).flatMap (searchedWords tables index) := by
    rw [searchedWords, hsplit, List.filter_flatMap, List.map_flatMap]
    rfl
  -- a run that is folded to nothing has no words
  have hdropped : ∀ token ∈ runs index.isTokenChar literal, index.foldText token = [] →
      searchedWords tables index token = [] := by
    intro token htoken hnil
    rw [searchedWords_eq_nil_iff hleaves hshared]
    intro d hd
    obtain ⟨c, hc, hd⟩ := List.mem_flatMap.mp hd
    exact hshared.dropped c (mem_of_mem_runs htoken hc) (List.flatMap_eq_nil_iff.mp hnil c hc) d hd
  rw [hruns, IndexTokenizer.tokens, flatMap_filter_of_nil]
  intro token htoken hnot
  exact hdropped token htoken (by simpa using hnot)

theorem searchedWords_ne_nil (hletter : ∃ c ∈ literal, tables.isAlnum c = true) :
    searchedWords tables index literal ≠ [] := by
  obtain ⟨c, hc, halnum⟩ := hletter
  obtain ⟨d, hd, hfolded⟩ := hshared.folded_letter c halnum
  intro hnil
  have hnone := (searchedWords_eq_nil_iff hleaves hshared literal).mp hnil d
    (List.mem_flatMap.mpr ⟨c, hc, hd⟩)
  rw [hfolded] at hnone
  cases hnone

/-- A search for one literal finds the chunks in which its words stand. -/
theorem finds_iff (query : SearchQuery) (hquery : query.all = [literal])
    (hletter : ∃ c ∈ literal, tables.isAlnum c = true) (chunk : Str) :
    Finds tables index query chunk
      ↔ searchedWords tables index literal <:+: index.tokenize chunk := by
  have hwords := searchedWords_ne_nil hleaves hshared hletter
  have hphrases : IsAlternative tables query.all [phraseOf tables literal] := by
    obtain ⟨token, more, htokens⟩ := List.exists_cons_of_ne_nil
      (fun hnil => hwords (by rw [searchedWords, hnil]; rfl) : queryTokens tables literal ≠ [])
    refine ⟨?_, List.cons_ne_nil _ _⟩
    rw [hquery, requiredPhrases, htokens]
    show some [_] = some [_]
    rw [phraseOf, htokens]
  have htexts : matchAlternatives tables [query.all]
      = [conjunctionText [phraseOf tables literal]] :=
    matchAlternatives_append [] hphrases
  have hok : matchQuery tables [query] = .ok (conjunctionText [phraseOf tables literal]) := by
    rw [matchQuery_eq, List.map_singleton, htexts, if_neg (List.cons_ne_nil _ _),
      List.intercalate_singleton]
  have hread := FtsExpr.read_disjunction [[phraseOf tables literal]] (List.cons_ne_nil _ _) (by
    intro phrases hmem
    rw [List.mem_singleton.mp hmem]
    exact ⟨List.cons_ne_nil _ _, isPlainText_of_isAlternative hleaves hphrases⟩)
  rw [List.map_singleton, List.intercalate_singleton] at hread
  have hmatch := FtsExpr.matches_plainPhrase index.tokenize (phraseOf tables literal)
    (ofString "text") (index.tokenize chunk)
  rw [tokenize_phraseOf hleaves hshared.toSharesLetters] at hmatch
  constructor
  · rintro ⟨expression, e, hexpression, he, hmatches⟩
    rw [hok] at hexpression
    cases hexpression
    rw [hread] at he
    cases he
    exact (hmatch.mp hmatches).2
  · intro hinfix
    exact ⟨_, _, hok, hread, hmatch.mpr ⟨hwords, hinfix⟩⟩

/-- A mark is folded to nothing that a letter or digit is folded to, so a token of the index that
is a word of a search has words itself. -/
theorem searchedWords_own {token : Str} (htoken : token ∈ index.tokens literal)
    (hmem : index.foldText token ∈ searchedWords tables index literal) :
    searchedWords tables index token ≠ [] := by
  obtain ⟨hrun, hfolded⟩ := List.mem_filter.mp htoken
  obtain ⟨e, more, hcons⟩ := List.exists_cons_of_ne_nil (of_decide_eq_true hfolded)
  have he : e ∈ index.foldText token := hcons ▸ List.mem_cons_self
  obtain ⟨word, hword, hsame⟩ := List.mem_map.mp hmem
  obtain ⟨c, hc, hfold⟩ := List.mem_flatMap.mp he
  rw [← hsame] at he
  obtain ⟨d, hd, hfold'⟩ := List.mem_flatMap.mp he
  have halnum : tables.isAlnum d = true := by
    rw [← isTerm_eq hleaves]
    exact (mem_runs (List.mem_of_mem_filter hword)).2 d hd
  intro hnil
  have hnone := (searchedWords_eq_nil_iff hleaves hshared token).mp hnil
  exact hshared.mark c (mem_of_mem_runs hrun hc) ((mem_runs hrun).2 c hc)
    (fun e he => hnone e (List.mem_flatMap.mpr ⟨c, hc, he⟩)) d halnum e hfold hfold'

/-- The words of a literal stand among its own tokens exactly if both sides fold them alike. -/
theorem searchedWords_infix_iff :
    searchedWords tables index literal <:+: index.tokenize literal
      ↔ FoldsAlike tables index literal := by
  have hwords := searchedWords_eq hleaves hshared
  rw [hwords, IndexTokenizer.tokenize, flatMap_infix_map_iff]
  · simp only [searchedWords_eq_nil_iff hleaves hshared]
    exact Iff.rfl
  · intro token htoken hmem
    rw [← hwords] at hmem
    exact searchedWords_own hleaves hshared htoken hmem

/-- A literal with a letter or digit finds every chunk from which it was copied at token borders of
the index, exactly if its tokens, apart from marks at both ends, are folded alike on both sides. -/
theorem copied_literal_found_iff (query : SearchQuery)
    (hquery : query.all = [literal]) (hletter : ∃ c ∈ literal, tables.isAlnum c = true) :
    (∀ before after, index.IsTokenBorder before literal →
        index.IsTokenBorder (before++literal) after →
        Finds tables index query (before++literal++after))
      ↔ FoldsAlike tables index literal := by
  simp only [finds_iff hleaves hshared query hquery hletter]
  rw [← searchedWords_infix_iff hleaves hshared]
  constructor
  · intro hfound
    have hwhole := hfound [] [] (fun c hc => nomatch hc) (fun c hc d hd => nomatch hd)
    rwa [List.nil_append, List.append_nil] at hwhole
  · intro hinfix before after hbefore hafter
    rw [index.tokenize_append _ _ hafter, index.tokenize_append _ _ hbefore]
    exact hinfix.trans ⟨_, _, rfl⟩

end Found

/-- An index that keeps the mark U+0301 in a word, drops U+0302 and knows upper and lower case of
ASCII. -/
def sampleIndex : IndexTokenizer where
  isTokenChar c := sampleTables.isAlnum c || c == 0x301 || c == 0x302
  fold c := if 0x41 ≤ c.val ∧ c.val ≤ 0x5A then [Fin.ofNat _ (c.val+32)]
    else if c = 0x302 then [] else [c]

theorem sampleTables_isAlnum_iff (c : CodePoint) :
    sampleTables.isAlnum c = true ↔ (0x30 ≤ c.val ∧ c.val ≤ 0x39) ∨ (0x41 ≤ c.val ∧ c.val ≤ 0x5A)
      ∨ (0x61 ≤ c.val ∧ c.val ≤ 0x7A) ∨ c = 0xDF ∨ c = 0x3B9 := by
  simp only [sampleTables, Bool.or_eq_true, Bool.and_eq_true, decide_eq_true_eq, beq_iff_eq,
    or_assoc]

/-- Every letter and digit of the sample has one in its case folding. -/
theorem sampleTables_folded_letter (c : CodePoint) (hc : sampleTables.isAlnum c = true) :
    ∃ d ∈ sampleTables.casefold c, sampleTables.isAlnum d = true := by
  unfold sampleTables
  dsimp only
  split_ifs with hupper hsharp hiota
  · refine ⟨_, List.mem_singleton_self _, (sampleTables_isAlnum_iff _).mpr ?_⟩
    right; right; left
    simp only [Fin.ofNat]
    omega
  · exact ⟨0x73, by decide, by decide⟩
  · exact ⟨0x3B9, List.mem_singleton_self _, by decide⟩
  · exact ⟨c, List.mem_singleton_self _, hc⟩

theorem sharesLetters_sampleIndex : sampleIndex.SharesLetters sampleTables where
  blank := by decide
  letter c hc := by
    show (sampleTables.isAlnum c || c == 0x301 || c == 0x302) = true
    rw [hc]
    rfl

/-- A letter or digit of the sample is folded to one. -/
theorem sampleIndex_fold_letter {c : CodePoint} (hc : sampleTables.isAlnum c = true) :
    ∃ d, sampleIndex.fold c = [d] ∧ sampleTables.isAlnum d = true := by
  have hletter := (sampleTables_isAlnum_iff c).mp hc
  unfold sampleIndex
  dsimp only
  split_ifs with hupper hmark
  · refine ⟨_, rfl, (sampleTables_isAlnum_iff _).mpr ?_⟩
    right; right; left
    simp only [Fin.ofNat]
    omega
  · rw [hmark] at hc
    exact absurd hc (by decide)
  · exact ⟨c, rfl, hc⟩

theorem sharesAlphabet_sampleIndex {literal : Str} (hliteral : 0x345 ∉ literal) :
    sampleIndex.SharesAlphabet sampleTables literal := by
  have hother : ∀ c ∈ literal, sampleTables.isAlnum c = false → sampleTables.casefold c = [c] := by
    intro c hmem hc
    have hnot := mt (sampleTables_isAlnum_iff c).mpr (Bool.eq_false_iff.mp hc)
    simp only [not_or] at hnot
    have hiota : c ≠ 0x345 := fun heq => hliteral (heq ▸ hmem)
    show (if _ then _ else if _ then _ else if _ then _ else _) = _
    rw [if_neg hnot.2.1, if_neg hnot.2.2.2.1, if_neg hiota]
  refine ⟨sharesLetters_sampleIndex, ?_, sampleTables_folded_letter, ?_, ?_, ?_⟩
  · intro c hc
    obtain ⟨d, hfold, -⟩ := sampleIndex_fold_letter hc
    rw [hfold]
    exact List.cons_ne_nil _ _
  · intro c hmem hc
    have hnone : sampleTables.isAlnum c = false := by
      simp only [sampleIndex, Bool.or_eq_false_iff] at hc
      exact hc.1.1
    rw [hother c hmem hnone]
    refine ⟨List.cons_ne_nil _ _, fun d hd => ?_⟩
    rw [List.mem_singleton.mp hd]
    exact hnone
  · intro c hmem hnil
    have hdropped : c = 0x302 := by
      unfold sampleIndex at hnil
      dsimp only at hnil
      split_ifs at hnil with hupper hmark
      exact hmark
    have hsame : sampleTables.casefold 0x302 = [0x302] := by decide
    rw [hdropped, hsame, List.forall_mem_singleton]
    decide
  · intro c hmem hc hnone d hd e he
    have hnot : sampleTables.isAlnum c = false := by
      apply Bool.eq_false_iff.mpr
      intro halnum
      obtain ⟨f, hf, hfolded⟩ := sampleTables_folded_letter c halnum
      rw [hnone f hf] at hfolded
      cases hfolded
    have hmark : c = 0x301 ∨ c = 0x302 := by
      simpa only [sampleIndex, hnot, Bool.false_or, Bool.or_eq_true, beq_iff_eq] using hc
    obtain ⟨f, hfold, hletter⟩ := sampleIndex_fold_letter hd
    rcases hmark with rfl | rfl
    · have hkept : sampleIndex.fold 0x301 = [0x301] := by decide
      rw [hkept, List.mem_singleton] at he
      rw [he, hfold, List.mem_singleton]
      rintro rfl
      exact absurd hletter (by decide)
    · have hnone : sampleIndex.fold 0x302 = [] := by decide
      rw [hnone] at he
      cases he

/-- A search for `Cat`. -/
def catWordQuery : SearchQuery := ⟨[ofString "Cat"], by decide, by decide⟩

theorem copied_literal_found_cat :
    Finds sampleTables sampleIndex catWordQuery (ofString "One "++ofString "Cat"++ofString "!") := by
  have hborders : sampleIndex.IsTokenBorder (ofString "One ") (ofString "Cat")
      ∧ sampleIndex.IsTokenBorder (ofString "One "++ofString "Cat") (ofString "!") := by
    constructor
    · intro c hc d _
      left
      cases hc
      decide
    · intro c _ d hd
      right
      cases hd
      decide
  have hshared : sampleIndex.SharesAlphabet sampleTables (ofString "Cat") :=
    sharesAlphabet_sampleIndex (by decide)
  apply (copied_literal_found_iff leavesSyntax_sampleTables hshared catWordQuery rfl
    ⟨0x43, by decide, by decide⟩).mpr
  · exact ⟨[], [ofString "Cat"], [], by decide +kernel, fun _ h => absurd h List.not_mem_nil,
      by decide +kernel⟩
  · exact hborders.1
  · exact hborders.2

/-- A search for `Straße`. -/
def strasseQuery : SearchQuery := ⟨[ofString "Straße"], by decide, by decide⟩

/-- A chunk that is one word with `ß` is not found by this word: the request asks for `strasse`,
the index holds `straße`. -/
theorem strasse_not_found :
    (∃ c ∈ ofString "Straße", sampleTables.isAlnum c = true)
    ∧ ¬Finds sampleTables sampleIndex strasseQuery (ofString "Straße") := by
  have hletter : ∃ c ∈ ofString "Straße", sampleTables.isAlnum c = true :=
    ⟨0x53, by decide, by decide⟩
  refine ⟨hletter, ?_⟩
  rw [finds_iff leavesSyntax_sampleTables (sharesAlphabet_sampleIndex (by decide)) strasseQuery rfl
    hletter]
  decide +kernel

end ArtifactReader

end ConferWorker
