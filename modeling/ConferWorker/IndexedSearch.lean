import ConferWorker.ChunkRounds
import ConferWorker.MarkedFragments
import ConferWorker.TokenAgreement

/-! What `ArtifactReader.search` gets from the full-text index: the rows in which the words of a
query stand, each once, with a fragment that is marked around a match. -/
namespace ConferWorker

/-- What a full-text index does over a tokenizer: an expression that can be read has the rows that
it matches, each once, and of every one of them a fragment of its text with marked matches. -/
structure IndexTokenizer.Indexes (tokenizer : IndexTokenizer) (index : FullTextIndex) : Prop where
  finds : ∀ texts startMarker endMarker tokens expression e,
    FtsExpr.read expression = some e → (texts.map Prod.fst).Nodup →
    ∃ hits, index texts startMarker endMarker tokens expression = .ok hits
      ∧ (hits.map FtsMatch.rowid).Nodup
      ∧ (∀ rowid text, (rowid, text) ∈ texts → (rowid ∈ hits.map FtsMatch.rowid
        ↔ e.Matches tokenizer.tokenize [(ofString "text", tokenizer.tokenize text)]))
      ∧ ∀ hit ∈ hits, ∃ text, (hit.rowid, text) ∈ texts ∧ ∃ marked : SearchSnippets.MarkedText,
        marked.pieces ≠ [] ∧ marked.plain <:+: text
          ∧ hit.fragment = marked.text startMarker endMarker

section Keys

variable {α β : Type} [DecidableEq β]

/-- The one item with a key. -/
theorem filter_key (key : α → β) {items : List α} (hdistinct : (items.map key).Nodup) {item : α}
    (hitem : item ∈ items) : items.filter (fun other => key other = key item) = [item] := by
  induction items with
  | nil => cases hitem
  | cons first items ih =>
    rw [List.map_cons, List.nodup_cons] at hdistinct
    rcases List.mem_cons.mp hitem with rfl | hlater
    · rw [List.filter_cons_of_pos (by rw [decide_eq_true_eq]), List.filter_eq_nil_iff.mpr]
      intro other hother hkey
      exact hdistinct.1 (of_decide_eq_true hkey ▸ List.mem_map_of_mem hother)
    · rw [List.filter_cons_of_neg, ih hdistinct.2 hlater]
      intro hkey
      exact hdistinct.1 (of_decide_eq_true hkey ▸ List.mem_map_of_mem hlater)

theorem lookup_of_mem {entries : List (β × α)} (hdistinct : (entries.map Prod.fst).Nodup)
    {key : β} {value : α} (hmem : (key, value) ∈ entries) : entries.lookup key = some value := by
  obtain ⟨front, back, rfl⟩ := List.append_of_mem hmem
  refine List.lookup_eq_some_iff.mpr ⟨front, back, rfl, fun entry hentry => bne_iff_ne.mpr ?_⟩
  rintro rfl
  rw [List.map_append, List.map_cons, List.nodup_append] at hdistinct
  exact hdistinct.2.2 _ (List.mem_map_of_mem hentry) _ List.mem_cons_self rfl

end Keys

theorem IsRunBorder.mono {p : CodePoint → Bool} {before after front back : Str}
    (h : IsRunBorder p before after) (hfront : front <:+ before) (hback : back <+: after) :
    IsRunBorder p front back := by
  intro c hc d hd
  refine h c ?_ d ?_
  · obtain ⟨more, rfl⟩ := hfront
    rw [List.getLast?_append, hc]
    rfl
  · obtain ⟨more, rfl⟩ := hback
    rw [List.head?_append, hd]
    rfl

namespace ArtifactReader

variable {tables : UnicodeTables} {tokenizer : IndexTokenizer}

/-- The words of all literals of a query stand among some words. -/
def Asks (tables : UnicodeTables) (tokenizer : IndexTokenizer) (query : SearchQuery)
    (words : List Str) : Prop :=
  ∀ literal ∈ query.all, searchedWords tables tokenizer literal ≠ []
    ∧ searchedWords tables tokenizer literal <:+: words

theorem Asks.mono {query : SearchQuery} {words words' : List Str}
    (h : Asks tables tokenizer query words) (hwords : words <:+: words') :
    Asks tables tokenizer query words' :=
  fun literal hliteral => ⟨(h literal hliteral).1, (h literal hliteral).2.trans hwords⟩

section Expressions

variable (hleaves : tables.LeavesSyntax) (hletters : tokenizer.SharesLetters tables)
include hleaves hletters

theorem conjunction_asks {query : SearchQuery} {phrases : List Str}
    (h : IsAlternative tables query.all phrases) (words : List Str) :
    (conjunction phrases).Matches tokenizer.tokenize [(ofString "text", words)]
      ↔ Asks tables tokenizer query words := by
  rw [FtsExpr.matches_conjunction _ _ _ h.2]
  simp only [FtsExpr.matches_plainPhrase]
  constructor
  · intro hall literal hliteral
    have hphrase := hall (phraseOf tables literal)
      ((mem_requiredPhrases h.1 _).mpr (Or.inr ⟨literal, hliteral, rfl⟩))
    rwa [tokenize_phraseOf hleaves hletters] at hphrase
  · intro hall phrase hphrase
    rcases (mem_requiredPhrases h.1 phrase).mp hphrase with hnone | ⟨literal, hliteral, rfl⟩
    · exact absurd hnone List.not_mem_nil
    · rw [tokenize_phraseOf hleaves hletters]
      exact hall literal hliteral

/-- A request with a query that has words for all of its literals becomes an expression that the
index reads, and that matches what one of the queries asks for. -/
theorem matchQuery_asks {queries : List SearchQuery}
    (hwords : ∃ query ∈ queries, ∀ literal ∈ query.all, queryTokens tables literal ≠ []) :
    ∃ expression e, matchQuery tables queries = .ok expression
      ∧ FtsExpr.read expression = some e
      ∧ ∀ words, e.Matches tokenizer.tokenize [(ofString "text", words)]
        ↔ ∃ query ∈ queries, Asks tables tokenizer query words := by
  obtain ⟨alternatives, htexts, hsource, hall⟩ :=
    matchAlternatives_eq tables (queries.map SearchQuery.all)
  have hne : alternatives ≠ [] := by
    intro hnil
    obtain ⟨query, hquery, htokens⟩ := hwords
    rw [hnil, List.map_nil] at htexts
    obtain ⟨literal, hliteral, hempty⟩ :=
      (matchAlternatives_eq_nil_iff queries).mp htexts query hquery
    exact htokens literal hliteral hempty
  have hplain : ∀ phrases ∈ alternatives,
      phrases ≠ [] ∧ ∀ phrase ∈ phrases, IsPlainText phrase := by
    intro phrases hphrases
    obtain ⟨literals, -, halternative⟩ := hsource phrases hphrases
    exact ⟨halternative.2, isPlainText_of_isAlternative hleaves halternative⟩
  refine ⟨_, disjunction alternatives, ?_, FtsExpr.read_disjunction alternatives hne hplain, ?_⟩
  · rw [matchQuery_eq, htexts, if_neg (mt List.map_eq_nil_iff.mp hne)]
  · intro words
    rw [FtsExpr.matches_disjunction _ _ _ hne]
    constructor
    · rintro ⟨phrases, hphrases, hmatch⟩
      obtain ⟨literals, hliterals, halternative⟩ := hsource phrases hphrases
      obtain ⟨query, hquery, rfl⟩ := List.mem_map.mp hliterals
      exact ⟨query, hquery, (conjunction_asks hleaves hletters halternative words).mp hmatch⟩
    · rintro ⟨query, hquery, hasks⟩
      obtain ⟨phrases, hphrases⟩ := isAlternative_of_tokens tables query.all
        (searchQuery_all_ne_nil query)
        (fun literal hliteral hnil => (hasks literal hliteral).1 (by rw [searchedWords, hnil]; rfl))
      obtain ⟨other, hother, hsame⟩ :=
        List.mem_map.mp (hall _ (List.mem_map_of_mem hquery) phrases hphrases)
      obtain ⟨literals, -, halternative⟩ := hsource other hother
      refine ⟨other, hother, ?_⟩
      rw [conjunction_of_text hleaves halternative hphrases hsame]
      exact (conjunction_asks hleaves hletters hphrases words).mpr hasks

end Expressions

open SearchSnippets in
/-- The snippet of a marked fragment is one of the text around the matches. -/
theorem ftsSnippet_marked {marker text : Str} (hmarker : ∀ c ∈ marker, isHexDigit c = true)
    (hstart : ¬startMarker marker <:+: text) (hend : ¬endMarker marker <:+: text)
    {marked : MarkedText} (hne : marked.pieces ≠ []) (hfragment : marked.plain <:+: text)
    {limit : ℕ} (hlimit : 3 ≤ limit) :
    ∃ before after snippet, text = before++marked.plain++after
      ∧ ftsSnippet text (marked.text (startMarker marker) (endMarker marker)) (startMarker marker)
        (endMarker marker) limit = .ok snippet
      ∧ SnippetAround text (before.length+marked.first) (before.length+marked.last) limit
        snippet := by
  obtain ⟨before, after, hfound, htext⟩ := findText_infix hfragment
  refine ⟨before, after, _, htext, ?_, boundedSnippet_around text hlimit
    (Nat.add_le_add_left marked.first_le _) ?_⟩
  · rw [ftsSnippet, markedFragment_text hmarker marked hne (fun h => hstart (h.trans hfragment))
      (fun h => hend (h.trans hfragment)), ok_bind]
    dsimp only
    rw [hfound]
    rfl
  · have hlast := marked.last_le
    rw [htext, List.length_append, List.length_append]
    omega

instance : Std.Total hitBefore := by
  constructor
  intro a b
  unfold hitBefore
  rcases lt_trichotomy a.hit.score b.hit.score with hlt | heq | hgt
  · exact Or.inl (Or.inl hlt)
  · exact (Nat.le_total a.chunk.ordinal b.chunk.ordinal).imp (fun hle => Or.inr ⟨heq, hle⟩)
      (fun hle => Or.inr ⟨heq.symm, hle⟩)
  · exact Or.inr (Or.inl hgt)

instance : IsTrans HitRow hitBefore := by
  constructor
  rintro a b c (hab | ⟨hab, hle⟩) (hbc | ⟨hbc, hle'⟩)
  · exact Or.inl (hab.trans hbc)
  · exact Or.inl (hbc ▸ hab)
  · exact Or.inl (hab ▸ hbc)
  · exact Or.inr ⟨hab.trans hbc, hle.trans hle'⟩

end ArtifactReader

namespace ArtifactWriter

/-- The text of a chunk. -/
def chunkText (canonical : Bytes) (span : ℕ × ℕ) : Str :=
  (decodeUtf8 (slice canonical span.1 span.2)).getD []

/-- The row of the search for a match in the index over some chunks. -/
def hitRow (containers : List ContainerRange) (canonical : Bytes) (spans : List (ℕ × ℕ))
    (hit : FtsMatch) : HitRow :=
  let span := spans.getD (hit.rowid-1) (0, 0)
  ⟨chunkRow (hit.rowid-1) span.1 span.2 (chunkContainers containers span.1 span.2),
    chunkText canonical span, hit⟩

section Rows

variable {containers : List ContainerRange} {canonical : Bytes} {spans : List (ℕ × ℕ)}

theorem mem_chunkTexts {rowid : ℕ} {text : Str} :
    (rowid, text) ∈ chunkTextsFrom canonical 0 spans
      ↔ ∃ n span, spans[n]? = some span ∧ rowid = n+1 ∧ text = chunkText canonical span := by
  rw [chunkTextsFrom, List.mem_map]
  constructor
  · rintro ⟨⟨span, n⟩, hentry, hrow⟩
    rw [Prod.mk.injEq] at hrow
    exact ⟨n, span, List.mem_zipIdx_iff_getElem?.mp hentry, hrow.1.symm, hrow.2.symm⟩
  · rintro ⟨n, span, hget, rfl, rfl⟩
    exact ⟨(span, n), List.mem_zipIdx_iff_getElem?.mpr hget, rfl⟩

theorem chunkTexts_nodup : ((chunkTextsFrom canonical 0 spans).map Prod.fst).Nodup := by
  have hids : (chunkTextsFrom canonical 0 spans).map Prod.fst
      = (spans.zipIdx.map Prod.snd).map Nat.succ := by
    rw [chunkTextsFrom, List.map_map, List.map_map]
    rfl
  rw [hids, List.zipIdx_map_snd]
  exact (List.nodup_range' 1).map Nat.succ_injective

theorem chunkRows_nodup : ((chunkRowsFrom containers 0 spans).map ChunkRow.id).Nodup := by
  have hids : (chunkRowsFrom containers 0 spans).map ChunkRow.id
      = (spans.zipIdx.map Prod.snd).map Nat.succ := by
    rw [chunkRowsFrom, List.map_map, List.map_map]
    rfl
  rw [hids, List.zipIdx_map_snd]
  exact (List.nodup_range' 1).map Nat.succ_injective

/-- The join finds for every match the row of its chunk. -/
theorem joinChunks_built {reader : ArtifactReader} {hits : List FtsMatch}
    (hchunks : reader.database.chunks = chunkRowsFrom containers 0 spans)
    (htexts : reader.database.chunkFts = chunkTextsFrom canonical 0 spans)
    (hhits : ∀ hit ∈ hits, ∃ text, (hit.rowid, text) ∈ chunkTextsFrom canonical 0 spans) :
    reader.joinChunks hits = hits.map (hitRow containers canonical spans) := by
  have hrow : ∀ hit ∈ hits,
      ((reader.database.chunks.filter (fun chunk => chunk.id = hit.rowid)).map
        (fun chunk => (⟨chunk, (reader.database.chunkFts.lookup hit.rowid).getD [], hit⟩ : HitRow)))
        = [hitRow containers canonical spans hit] := by
    intro hit hmem
    obtain ⟨text, htext⟩ := hhits hit hmem
    obtain ⟨n, span, hget, hrowid, rfl⟩ := mem_chunkTexts.mp htext
    have hspan : spans.getD (hit.rowid-1) (0, 0) = span := by
      rw [hrowid, Nat.add_sub_cancel, List.getD_eq_getElem?_getD, hget, Option.getD_some]
    have hmember : chunkRow n span.1 span.2 (chunkContainers containers span.1 span.2)
        ∈ chunkRowsFrom containers 0 spans :=
      List.mem_map.mpr ⟨(span, n), List.mem_zipIdx_iff_getElem?.mpr hget, rfl⟩
    have hfilter : (chunkRowsFrom containers 0 spans).filter (fun chunk => chunk.id = n+1)
        = [chunkRow n span.1 span.2 (chunkContainers containers span.1 span.2)] :=
      filter_key ChunkRow.id chunkRows_nodup hmember
    have hlookup := lookup_of_mem chunkTexts_nodup htext
    rw [hchunks, htexts, hlookup, hrowid, hfilter, hitRow, hspan, hrowid]
    rfl
  rw [ArtifactReader.joinChunks, List.flatMap_congr hrow, ← List.map_eq_flatMap]

end Rows

end ArtifactWriter

end ConferWorker
