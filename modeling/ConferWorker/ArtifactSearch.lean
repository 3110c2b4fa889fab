import ConferWorker.ArtifactReader
import ConferWorker.SearchSnippets
import ConferWorker.SessionRequests
import ConferWorker.UnicodeText

/-! `ArtifactReader.search`: the expression that a request becomes, and the hits of the
full-text index. -/
namespace ConferWorker

namespace ArtifactReader

/-- `re.findall(r"[^\W_]+", literal.casefold())`. -/
def queryTokens (tables : UnicodeTables) (literal : Str) : List Str :=
  runs tables.isTerm (literal.flatMap tables.casefold)

/-- `x` at the end of a list that does not hold it yet. -/
def appendNew (items : List Str) (item : Str) : List Str :=
  if item ∈ items then items else items++[item]

/-- The phrases of a query; `none` when one of its literals has no tokens. -/
def requiredPhrases (tables : UnicodeTables) : List Str → List Str → Option (List Str)
  | required, [] => some required
  | required, literal :: literals =>
    match queryTokens tables literal with
    | [] => none
    | token :: tokens =>
      requiredPhrases tables
        (appendNew required ((ofString " ").intercalate (token :: tokens))) literals

/-- `f'"{phrase}"'`. -/
def quoted (phrase : Str) : Str := 0x22 :: (phrase++[0x22])

/-- One alternative of the expression. -/
def alternative (required : List Str) : Str :=
  ofString "("++(ofString " AND ").intercalate (required.map quoted)++ofString ")"

/-- The loop of `_match_query` over the queries. -/
def matchAlternatives (tables : UnicodeTables) (queries : List (List Str)) : List Str :=
  queries.foldl (fun alternatives literals =>
    match requiredPhrases tables [] literals with
    | none | some [] => alternatives
    | some (phrase :: phrases) => appendNew alternatives (alternative (phrase :: phrases))) []

/-- `_match_query`. -/
def matchQuery (tables : UnicodeTables) (queries : List SearchQuery) : Except PythonError Str := do
  let alternatives := matchAlternatives tables (queries.map SearchQuery.all)
  raiseIf (alternatives = []) (.valueError (ofString "search query has no searchable terms"))
  pure ((ofString " OR ").intercalate alternatives)

end ArtifactReader

/-- A row of the full-text index that matches: its id, the marked fragment and the score. -/
structure FtsMatch where
  rowid : ℕ
  fragment : Str
  score : ℚ

/-- FTS5: the matches of an expression in the indexed texts, with `snippet` called with the two
markers and the number of tokens. -/
abbrev FullTextIndex :=
  (texts : List (ℕ × Str)) → (startMarker endMarker : Str) → (tokens : ℕ) → (expression : Str) →
    Except PythonError (List FtsMatch)

structure SearchHit where
  chunkId : ℕ
  ordinal : ℕ
  score : ℚ
  containerStart : ℕ
  containerEnd : ℕ
  text : Str
  regions : List RegionReference
  containers : List ContainerReference

/-- A row of the query of `search`. -/
structure HitRow where
  chunk : ChunkRow
  indexedText : Str
  hit : FtsMatch

namespace ArtifactReader

/-- `FTS_SNIPPET_TOKENS`. -/
def ftsSnippetTokens : ℕ := 64

/-- `ORDER BY score, chunks.ordinal`. -/
def hitBefore (a b : HitRow) : Prop :=
  a.hit.score < b.hit.score ∨ (a.hit.score = b.hit.score ∧ a.chunk.ordinal ≤ b.chunk.ordinal)

instance (a b : HitRow) : Decidable (hitBefore a b) := inferInstanceAs (Decidable (_ ∨ _))

/-- `JOIN chunks ON chunks.id = chunk_fts.rowid`. -/
def joinChunks (reader : ArtifactReader) (hits : List FtsMatch) : List HitRow :=
  hits.flatMap (fun hit => (reader.database.chunks.filter (fun chunk => chunk.id = hit.rowid)).map
    (fun chunk => ⟨chunk, (reader.database.chunkFts.lookup hit.rowid).getD [], hit⟩))

/-- The hit of one row. -/
def searchHit (reader : ArtifactReader) (startMarker endMarker : Str) (snippetChars : ℕ)
    (row : HitRow) : Except PythonError SearchHit := do
  let chunk := row.chunk
  let text ← SearchSnippets.ftsSnippet row.indexedText row.hit.fragment startMarker endMarker
    snippetChars
  let regions ← reader.regionsIn chunk.startOffset chunk.endOffset chunk.containerStart
    chunk.containerEnd
  let containers ← reader.containersIn chunk.containerStart chunk.containerEnd
  pure ⟨chunk.id, chunk.ordinal, row.hit.score, chunk.containerStart, chunk.containerEnd, text,
    regions, containers⟩

/-- `search`; `marker` is the random one of the call. -/
def search (reader : ArtifactReader) (tables : UnicodeTables) (index : FullTextIndex)
    (marker : Str) (queries : List SearchQuery) (limit snippetChars : ℕ) :
    Except PythonError (List SearchHit) := do
  raiseIf (limit < 1 ∨ 51 < limit)
    (.valueError (ofString "search limit must be between 1 and 51"))
  raiseIf (snippetChars < 1) (.valueError (ofString "snippet length must be positive"))
  let expression ← matchQuery tables queries
  let startMarker := SearchSnippets.startMarker marker
  let endMarker := SearchSnippets.endMarker marker
  let hits ← index reader.database.chunkFts startMarker endMarker ftsSnippetTokens expression
  let rows := ((reader.joinChunks hits).insertionSort hitBefore).take limit
  rows.mapM (reader.searchHit startMarker endMarker snippetChars)

end ArtifactReader

end ConferWorker
