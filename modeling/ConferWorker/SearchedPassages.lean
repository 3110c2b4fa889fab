import ConferWorker.BuiltRows
import ConferWorker.ChunkContainers
import ConferWorker.ChunkWindows
import ConferWorker.IndexedSearch

/-! A search over the artifact of a document: its hits are chunks with the words of a query, and a
short passage with these words is in one of them, unless there are more hits than were asked for. -/
namespace ConferWorker

open ArtifactReader ArtifactWriter SearchSnippets

/-- The ranges of the containers in the text of a document. -/
def canonicalRanges (document : DocumentContent) : List ContainerRange :=
  document.containers.zipIdx.map (canonicalRange document.containers)

/-- A hit is that of a chunk with some text. -/
structure HitOf (document : DocumentContent) (reader : ArtifactReader) (hit : SearchHit)
    (chunk : ChunkRow) (text : Str) : Prop where
  stored : chunk ∈ reader.database.chunks
  identity : hit.chunkId = chunk.id ∧ hit.ordinal = chunk.ordinal
  place : hit.containerStart = chunk.containerStart ∧ hit.containerEnd = chunk.containerEnd
  text : utf8 text = slice (utf8 document.canonicalText) chunk.startOffset chunk.endOffset
  containers : hit.containers = containerReferences document hit.containerStart hit.containerEnd
  regions : reader.regionsIn chunk.startOffset chunk.endOffset chunk.containerStart
    chunk.containerEnd = .ok hit.regions

/-- The hit covers a passage between two offsets, with all containers that the passage is in. -/
structure HitCovers (document : DocumentContent) (hit : SearchHit) (chunk : ChunkRow)
    (start stop : ℕ) : Prop where
  start_le : chunk.startOffset ≤ start
  le_stop : stop ≤ chunk.endOffset
  containers : ∀ range ∈ canonicalRanges document, range.Meets start stop →
    hit.containerStart ≤ range.containerNumber ∧ range.containerNumber ≤ hit.containerEnd

/-- What a search finds. -/
structure SearchAnswers (document : DocumentContent) (reader : ArtifactReader)
    (tables : UnicodeTables) (tokenizer : IndexTokenizer) (overlapBytes : ℕ)
    (queries : List SearchQuery) (limit snippetChars : ℕ) (hits : List SearchHit) : Prop where
  count : hits.length ≤ limit
  ranked : hits.Pairwise (fun a b =>
    a.score < b.score ∨ (a.score = b.score ∧ a.ordinal ≤ b.ordinal))
  distinct : (hits.map SearchHit.chunkId).Nodup
  sound : ∀ hit ∈ hits, ∃ chunk text, HitOf document reader hit chunk text
    ∧ (∃ query ∈ queries, Asks tables tokenizer query (tokenizer.tokenize text))
    ∧ ∃ first last, first ≤ last ∧ last ≤ text.length
      ∧ SnippetAround text first last snippetChars hit.text
  complete : hits.length < limit → ∀ before passage after,
    document.canonicalText = before++passage++after → (utf8 passage).length ≤ overlapBytes →
    tokenizer.IsTokenBorder before passage → tokenizer.IsTokenBorder (before++passage) after →
    (∃ query ∈ queries, Asks tables tokenizer query (tokenizer.tokenize passage)) →
    ∃ hit ∈ hits, ∃ chunk text, HitOf document reader hit chunk text ∧ passage <:+: text
      ∧ HitCovers document hit chunk (utf8 before).length (utf8 (before++passage)).length

section Chunks

variable {writer : ArtifactWriter} {s : Str} {spans : List (ℕ × ℕ)}

/-- The text of a chunk stands in the text, between its offsets. -/
theorem chunkText_spec (h : ChunkList writer s spans) (hs : Encodable s) {span : ℕ × ℕ}
    (hspan : span ∈ spans) : utf8 (chunkText (utf8 s) span) = slice (utf8 s) span.1 span.2
      ∧ chunkText (utf8 s) span <:+: s := by
  obtain ⟨hstart, hstop⟩ := h.boundaries span hspan
  obtain ⟨i, j, hslice⟩ := hstart.slice hstop
  have hdecode : decodeUtf8 (slice (utf8 s) span.1 span.2) = some ((s.take j).drop i) := by
    rw [hslice, decodeUtf8_utf8 _ (encodable_slice hs i j)]
  rw [chunkText, hdecode, Option.getD_some]
  exact ⟨hslice.symm, (List.drop_suffix i _).isInfix.trans (List.take_prefix j s).isInfix⟩

/-- A short passage lies in a chunk. -/
theorem exists_chunk_of_passage (hspans : ChunkSpans writer (utf8 s) 0 spans)
    (hoverlap : 2*writer.overlapBytes+8 ≤ writer.chunkBytes) {before passage after : Str}
    (htext : s = before++passage++after) (hne : passage ≠ [])
    (hshort : (utf8 passage).length ≤ writer.overlapBytes) :
    ∃ span ∈ spans, span.1 ≤ (utf8 before).length
      ∧ (utf8 (before++passage)).length ≤ span.2 := by
  obtain ⟨next, hrounds, hleft⟩ := hspans.rounds .start
  rw [List.nil_append] at hrounds
  obtain ⟨hend, _, hnone⟩ := freshBytes_left hrounds hleft
  have hinside := utf8_prefix_length (s := s) (t := before++passage) ⟨after, htext.symm⟩
  have hpositive : 0 < (utf8 passage).length :=
    List.length_pos_iff.mpr fun h => hne ((utf8_eq_nil_iff passage).mp h)
  have hlength : (utf8 (before++passage)).length = (utf8 before).length+(utf8 passage).length := by
    rw [utf8_append, List.length_append]
  apply hrounds.window hoverlap
  · omega
  · cases hlast : spans.getLast? with
    | none =>
      rw [hnone.mp (List.getLast?_eq_none_iff.mp hlast), utf8_nil, List.length_nil] at hinside
      omega
    | some span => exact ⟨span, rfl, hinside.trans (hend span hlast).ge⟩

theorem chunkList_of_spans (hspans : ChunkSpans writer (utf8 s) 0 spans) :
    ChunkList writer s spans := by
  obtain ⟨next, hrounds, -⟩ := hspans.rounds .start
  rw [List.nil_append] at hrounds
  exact (rounds_inv hrounds).1

end Chunks

section Hits

variable {writer : ArtifactWriter} {document : DocumentContent} {reader : ArtifactReader}
variable {spans : List (ℕ × ℕ)} {marker : Str} {snippetChars : ℕ}

/-- The row of a match. -/
theorem hitRow_eq {hit : FtsMatch} {n : ℕ} {span : ℕ × ℕ} (hget : spans[n]? = some span)
    (hrowid : hit.rowid = n+1) (containers : List ContainerRange) (canonical : Bytes) :
    hitRow containers canonical spans hit
      = ⟨chunkRow n span.1 span.2 (chunkContainers containers span.1 span.2),
        chunkText canonical span, hit⟩ := by
  have hspan : spans.getD (hit.rowid-1) (0, 0) = span := by
    rw [hrowid, Nat.add_sub_cancel, List.getD_eq_getElem?_getD, hget, Option.getD_some]
  rw [hitRow, hspan, hrowid]
  rfl

/-- What the reader has in its tables. -/
structure ChunksOf (writer : ArtifactWriter) (document : DocumentContent) (reader : ArtifactReader)
    (spans : List (ℕ × ℕ)) : Prop where
  written : DocumentWritten document reader.database
  cut : ChunkSpans writer (utf8 document.canonicalText) 0 spans
  chunks : reader.database.chunks = chunkRowsFrom (canonicalRanges document) 0 spans
  texts : reader.database.chunkFts = chunkTextsFrom (utf8 document.canonicalText) 0 spans

/-- A match of the index becomes a hit. -/
theorem searchHit_returns (h : ChunksOf writer document reader spans)
    (hmarker : ∀ c ∈ marker, isHexDigit c = true)
    (hstart : ¬startMarker marker <:+: document.canonicalText)
    (hend : ¬endMarker marker <:+: document.canonicalText) (hchars : 3 ≤ snippetChars)
    {hit : FtsMatch} {n : ℕ} {span : ℕ × ℕ} (hget : spans[n]? = some span)
    (hrowid : hit.rowid = n+1) {marked : MarkedText} (hne : marked.pieces ≠ [])
    (hfragment : marked.plain <:+: chunkText (utf8 document.canonicalText) span)
    (hmarked : hit.fragment = marked.text (startMarker marker) (endMarker marker)) :
    ∃ result, reader.searchHit (startMarker marker) (endMarker marker) snippetChars
        (hitRow (canonicalRanges document) (utf8 document.canonicalText) spans hit) = .ok result
      ∧ HitOf document reader result
        (chunkRow n span.1 span.2 (chunkContainers (canonicalRanges document) span.1 span.2))
        (chunkText (utf8 document.canonicalText) span)
      ∧ ∃ first last, first ≤ last
        ∧ last ≤ (chunkText (utf8 document.canonicalText) span).length
        ∧ SnippetAround (chunkText (utf8 document.canonicalText) span) first last snippetChars
          result.text := by
  have hencodable := document.canonicalText_encodable h.written.encodable
  obtain ⟨htext, hinfix⟩ := chunkText_spec (chunkList_of_spans h.cut) hencodable
    (List.mem_of_getElem? hget)
  -- the markers are hexadecimal and not in the text, so the fragment is read back exactly
  obtain ⟨before, after, snippet, hsplit, hsnippet, haround⟩ := ftsSnippet_marked hmarker
    (fun hmem => hstart (hmem.trans hinfix)) (fun hmem => hend (hmem.trans hinfix)) hne hfragment
    hchars
  have hlast := marked.last_le
  obtain ⟨regions, hregions⟩ := regionsIn_built h.written span.1 span.2
    ((chunkContainers (canonicalRanges document) span.1 span.2).min?.getD 0)
    ((chunkContainers (canonicalRanges document) span.1 span.2).max?.getD 0)
  have hcontainers := containersIn_built h.written
    ((chunkContainers (canonicalRanges document) span.1 span.2).min?.getD 0)
    ((chunkContainers (canonicalRanges document) span.1 span.2).max?.getD 0)
  refine ⟨⟨n+1, n, hit.score, _, _, snippet, regions, containerReferences document
    ((chunkContainers (canonicalRanges document) span.1 span.2).min?.getD 0)
    ((chunkContainers (canonicalRanges document) span.1 span.2).max?.getD 0)⟩, ?_,
    ⟨?_, ⟨rfl, rfl⟩, ⟨rfl, rfl⟩, htext, rfl, hregions⟩, before.length+marked.first,
    before.length+marked.last, Nat.add_le_add_left marked.first_le _, ?_, haround⟩
  · rw [hitRow_eq hget hrowid]
    simp only [searchHit, bind_eq_ok, pure_eq_ok]
    exact ⟨snippet, hmarked ▸ hsnippet, regions, hregions, _, hcontainers, rfl⟩
  · rw [h.chunks]
    exact List.mem_map.mpr ⟨(span, n), List.mem_zipIdx_iff_getElem?.mpr hget, rfl⟩
  · rw [hsplit, List.length_append, List.length_append]
    omega

/-- The matches of a request in the index over the chunks of a document. -/
structure MatchesOf (document : DocumentContent) (tables : UnicodeTables)
    (tokenizer : IndexTokenizer) (queries : List SearchQuery) (marker : Str)
    (spans : List (ℕ × ℕ)) (hits : List FtsMatch) : Prop where
  distinct : (hits.map FtsMatch.rowid).Nodup
  found : ∀ n span, spans[n]? = some span → (∃ query ∈ queries, Asks tables tokenizer query
    (tokenizer.tokenize (chunkText (utf8 document.canonicalText) span))) →
    ∃ hit ∈ hits, hit.rowid = n+1
  matching : ∀ hit ∈ hits, ∃ n span, spans[n]? = some span ∧ hit.rowid = n+1
    ∧ (∃ query ∈ queries, Asks tables tokenizer query
      (tokenizer.tokenize (chunkText (utf8 document.canonicalText) span)))
    ∧ ∃ marked : MarkedText, marked.pieces ≠ []
      ∧ marked.plain <:+: chunkText (utf8 document.canonicalText) span
      ∧ hit.fragment = marked.text (startMarker marker) (endMarker marker)

variable {tables : UnicodeTables} {tokenizer : IndexTokenizer} {index : FullTextIndex}
variable {queries : List SearchQuery} {limit : ℕ}

/-- A request is answered from the matches of the index. -/
theorem search_eq (marker : Str) (h : ChunksOf writer document reader spans)
    (hleaves : tables.LeavesSyntax) (hletters : tokenizer.SharesLetters tables)
    (hindex : tokenizer.Indexes index)
    (hwords : ∃ query ∈ queries, ∀ literal ∈ query.all, queryTokens tables literal ≠ [])
    (hlimit : 1 ≤ limit ∧ limit ≤ 51) (hchars : 1 ≤ snippetChars) :
    ∃ hits, MatchesOf document tables tokenizer queries marker spans hits
      ∧ reader.search tables index marker queries limit snippetChars
        = (((hits.map (hitRow (canonicalRanges document) (utf8 document.canonicalText)
          spans)).insertionSort hitBefore).take limit).mapM
            (reader.searchHit (startMarker marker) (endMarker marker) snippetChars) := by
  obtain ⟨expression, e, hexpression, hread, hmatches⟩ := matchQuery_asks hleaves hletters hwords
  obtain ⟨hits, hanswer, hdistinct, hfound, hmarked⟩ := hindex.finds reader.database.chunkFts
    (startMarker marker) (endMarker marker) ftsSnippetTokens expression e hread
    (h.texts ▸ chunkTexts_nodup)
  rw [h.texts] at hfound hmarked
  refine ⟨hits, ⟨hdistinct, ?_, ?_⟩, ?_⟩
  · intro n span hget hasks
    have htext : (n+1, chunkText (utf8 document.canonicalText) span)
        ∈ chunkTextsFrom (utf8 document.canonicalText) 0 spans :=
      mem_chunkTexts.mpr ⟨n, span, hget, rfl, rfl⟩
    exact List.mem_map.mp ((hfound _ _ htext).mpr ((hmatches _).mpr hasks))
  · intro hit hhit
    obtain ⟨text, htext, marked, hne, hinfix, hfragment⟩ := hmarked hit hhit
    have hasks := (hmatches _).mp ((hfound _ _ htext).mp (List.mem_map_of_mem hhit))
    obtain ⟨n, span, hget, hrowid, rfl⟩ := mem_chunkTexts.mp htext
    exact ⟨n, span, hget, hrowid, hasks, marked, hne, hinfix, hfragment⟩
  · have hjoin := joinChunks_built h.chunks h.texts
      (fun hit hhit => (hmarked hit hhit).imp (fun text htext => htext.1))
    rw [ArtifactReader.search, raiseIf_of_not _ (by omega), ok_bind, raiseIf_of_not _ (by omega),
      ok_bind, hexpression, ok_bind]
    dsimp only
    rw [hanswer, ok_bind, hjoin]

/-- What a hit takes over from its row. -/
theorem searchHit_keeps {row : HitRow} {startMarker endMarker : Str} {hit : SearchHit}
    (h : reader.searchHit startMarker endMarker snippetChars row = .ok hit) :
    hit.chunkId = row.chunk.id ∧ (hit.score, hit.ordinal) = (row.hit.score, row.chunk.ordinal) := by
  simp only [searchHit, bind_eq_ok, pure_eq_ok] at h
  obtain ⟨_, _, _, _, _, _, rfl⟩ := h
  exact ⟨rfl, rfl⟩

section Answers

variable {hits : List FtsMatch} {answers : List SearchHit}
variable (hmatches : MatchesOf document tables tokenizer queries marker spans hits)
variable (hanswers : (((hits.map (hitRow (canonicalRanges document) (utf8 document.canonicalText)
  spans)).insertionSort hitBefore).take limit).mapM
    (reader.searchHit (startMarker marker) (endMarker marker) snippetChars) = .ok answers)

include hanswers in
theorem answers_length : answers.length = min limit hits.length := by
  have hsame := congrArg List.length
    (mapM_map_eq (g := fun _ => ()) (h := fun _ => ()) (fun _ _ _ _ => rfl) hanswers)
  rwa [List.length_map, List.length_map, List.length_take, List.length_insertionSort,
    List.length_map] at hsame

include hanswers in
theorem answers_ranked : answers.Pairwise (fun a b =>
    a.score < b.score ∨ (a.score = b.score ∧ a.ordinal ≤ b.ordinal)) := by
  have hsame := mapM_map_eq (g := fun hit : SearchHit => (hit.score, hit.ordinal))
    (h := fun row : HitRow => (row.hit.score, row.chunk.ordinal))
    (fun _ _ _ hrow => (searchHit_keeps hrow).2) hanswers
  have hsorted := (List.pairwise_insertionSort hitBefore (hits.map (hitRow
    (canonicalRanges document) (utf8 document.canonicalText) spans))).sublist
      (List.take_sublist limit _)
  have hpairs : (answers.map (fun hit : SearchHit => (hit.score, hit.ordinal))).Pairwise
      (fun a b => a.1 < b.1 ∨ (a.1 = b.1 ∧ a.2 ≤ b.2)) := by
    rw [hsame]
    exact List.pairwise_map.mpr hsorted
  exact List.pairwise_map.mp hpairs

include hmatches hanswers in
theorem answers_distinct : (answers.map SearchHit.chunkId).Nodup := by
  have hsame := mapM_map_eq (g := SearchHit.chunkId) (h := fun row : HitRow => row.chunk.id)
    (fun _ _ _ hrow => (searchHit_keeps hrow).1) hanswers
  have hids : (hits.map (hitRow (canonicalRanges document) (utf8 document.canonicalText)
      spans)).map (fun row => row.chunk.id) = hits.map FtsMatch.rowid := by
    rw [List.map_map]
    apply List.map_congr_left
    intro hit hhit
    obtain ⟨n, span, hget, hrowid, -⟩ := hmatches.matching hit hhit
    rw [Function.comp_apply, hitRow_eq hget hrowid, hrowid]
    rfl
  rw [hsame]
  apply List.Nodup.sublist ((List.take_sublist limit _).map _)
  rw [((List.perm_insertionSort hitBefore _).map _).nodup_iff, hids]
  exact hmatches.distinct

variable (h : ChunksOf writer document reader spans)
variable (hmarker : ∀ c ∈ marker, isHexDigit c = true)
variable (hstart : ¬startMarker marker <:+: document.canonicalText)
variable (hend : ¬endMarker marker <:+: document.canonicalText) (hchars : 3 ≤ snippetChars)

include h hmarker hstart hend hchars hmatches in
theorem answers_return : ∃ answers, (((hits.map (hitRow (canonicalRanges document)
    (utf8 document.canonicalText) spans)).insertionSort hitBefore).take limit).mapM
      (reader.searchHit (startMarker marker) (endMarker marker) snippetChars) = .ok answers := by
  apply mapM_returns
  intro row hrow
  have hmem := (List.perm_insertionSort hitBefore _).mem_iff.mp (List.mem_of_mem_take hrow)
  obtain ⟨hit, hhit, rfl⟩ := List.mem_map.mp hmem
  obtain ⟨n, span, hget, hrowid, -, marked, hne, hinfix, hfragment⟩ := hmatches.matching hit hhit
  obtain ⟨result, hresult, -⟩ :=
    searchHit_returns h hmarker hstart hend hchars hget hrowid hne hinfix hfragment
  exact ⟨result, hresult⟩

include h hmarker hstart hend hchars hmatches hanswers in
theorem answers_sound : ∀ hit ∈ answers, ∃ chunk text, HitOf document reader hit chunk text
    ∧ (∃ query ∈ queries, Asks tables tokenizer query (tokenizer.tokenize text))
    ∧ ∃ first last, first ≤ last ∧ last ≤ text.length
      ∧ SnippetAround text first last snippetChars hit.text := by
  intro answer hanswer
  obtain ⟨row, hrow, hresult⟩ := mapM_mem hanswers answer hanswer
  have hmem := (List.perm_insertionSort hitBefore _).mem_iff.mp (List.mem_of_mem_take hrow)
  obtain ⟨hit, hhit, rfl⟩ := List.mem_map.mp hmem
  obtain ⟨n, span, hget, hrowid, hasks, marked, hne, hinfix, hfragment⟩ :=
    hmatches.matching hit hhit
  obtain ⟨result, hreturned, hof, haround⟩ :=
    searchHit_returns h hmarker hstart hend hchars hget hrowid hne hinfix hfragment
  obtain rfl := Except.ok.inj (hreturned.symm.trans hresult)
  exact ⟨_, _, hof, hasks, haround⟩

include h hmarker hstart hend hchars hmatches hanswers in
theorem answers_complete (hoverlap : 2*writer.overlapBytes+8 ≤ writer.chunkBytes)
    (hfew : answers.length < limit) {before passage after : Str}
    (htext : document.canonicalText = before++passage++after)
    (hshort : (utf8 passage).length ≤ writer.overlapBytes)
    (hbefore : tokenizer.IsTokenBorder before passage)
    (hafter : tokenizer.IsTokenBorder (before++passage) after)
    (hasks : ∃ query ∈ queries, Asks tables tokenizer query (tokenizer.tokenize passage)) :
    ∃ hit ∈ answers, ∃ chunk text, HitOf document reader hit chunk text ∧ passage <:+: text
      ∧ HitCovers document hit chunk (utf8 before).length (utf8 (before++passage)).length := by
  have hencodable := document.canonicalText_encodable h.written.encodable
  have hne : passage ≠ [] := by
    rintro rfl
    obtain ⟨query, -, hasks⟩ := hasks
    obtain ⟨literal, hliteral⟩ := List.exists_mem_of_ne_nil _ (searchQuery_all_ne_nil query)
    exact (hasks literal hliteral).1 (List.infix_nil.mp (hasks literal hliteral).2)
  obtain ⟨span, hspan, hlow, hhigh⟩ :=
    exists_chunk_of_passage h.cut hoverlap htext hne hshort
  obtain ⟨front, back, hdecode, hfront, hback⟩ := passage_in_chunk (chunkList_of_spans h.cut)
    hencodable hspan before passage after htext hlow hhigh
  have hchunk : chunkText (utf8 document.canonicalText) span = front++passage++back := by
    rw [chunkText, hdecode, Option.getD_some]
  -- the borders of the passage are borders in the chunk
  have htokens : tokenizer.tokenize passage
      <:+: tokenizer.tokenize (chunkText (utf8 document.canonicalText) span) := by
    obtain ⟨more, hmore⟩ := hfront
    have hsuffix : front++passage <:+ before++passage := ⟨more, by rw [← hmore, List.append_assoc]⟩
    rw [hchunk, tokenizer.tokenize_append _ _ (IsRunBorder.mono hafter hsuffix hback),
      tokenizer.tokenize_append _ _ (IsRunBorder.mono hbefore ⟨more, hmore⟩ (List.prefix_refl _))]
    exact ⟨_, _, rfl⟩
  obtain ⟨n, hget⟩ := List.mem_iff_getElem?.mp hspan
  obtain ⟨hit, hhit, hrowid⟩ := hmatches.found n span hget
    (hasks.imp (fun query hquery => ⟨hquery.1, hquery.2.mono htokens⟩))
  obtain ⟨n', span', hget', hrowid', -, marked, hmarked, hinfix, hfragment⟩ :=
    hmatches.matching hit hhit
  obtain rfl : n = n' := by omega
  obtain rfl := Option.some.inj (hget.symm.trans hget')
  obtain ⟨result, hresult, hof, -⟩ :=
    searchHit_returns h hmarker hstart hend hchars hget hrowid hmarked hinfix hfragment
  -- with fewer answers than asked for, no row was cut off
  have hall : ((hits.map (hitRow (canonicalRanges document) (utf8 document.canonicalText)
      spans)).insertionSort hitBefore).length ≤ limit := by
    have hlength := answers_length hanswers
    rw [List.length_insertionSort, List.length_map]
    omega
  rw [List.take_of_length_le hall] at hanswers
  obtain ⟨answer, hanswer, hsame⟩ := mapM_covers hanswers _
    ((List.perm_insertionSort hitBefore _).mem_iff.mpr (List.mem_map_of_mem hhit))
  obtain rfl := Except.ok.inj (hsame.symm.trans hresult)
  refine ⟨answer, hanswer, _, _, hof, ⟨front, back, hchunk.symm⟩, hlow, hhigh, ?_⟩
  intro range hrange hmeets
  rw [hof.place.1, hof.place.2]
  exact (chunkContainers_attributed (canonicalRanges_inOrder document) (List.ne_nil_of_mem hrange)
    span.1 span.2).covers range hrange ⟨hmeets.1.trans_le hhigh, hlow.trans_lt hmeets.2⟩

end Answers

end Hits

/-- A reader that was built from a document has its chunks. -/
theorem BuiltReader.chunks {writer : ArtifactWriter} {storage : ArtifactStorage}
    {document : DocumentContent} {reader : ArtifactReader} (built : BuiltReader writer storage
      document reader) (faithful : storage.Faithful) :
    ∃ spans, ChunksOf writer document reader spans := by
  obtain ⟨tablesOf, -⟩ := built.tables faithful
  obtain ⟨spans, hcut, hchunks, htexts⟩ := tablesOf.chunks
  exact ⟨spans, tablesOf.toDocumentWritten, hcut, hchunks, htexts⟩

/-- A reader with the chunks of a document answers a search as it should. -/
theorem chunks_answer {writer : ArtifactWriter} {document : DocumentContent}
    {reader : ArtifactReader} {spans : List (ℕ × ℕ)} (h : ChunksOf writer document reader spans)
    (hoverlap : 2*writer.overlapBytes+8 ≤ writer.chunkBytes) {tables : UnicodeTables}
    {tokenizer : IndexTokenizer} {index : FullTextIndex} (hleaves : tables.LeavesSyntax)
    (hletters : tokenizer.SharesLetters tables) (hindex : tokenizer.Indexes index) {marker : Str}
    (hmarker : ∀ c ∈ marker, isHexDigit c = true)
    (hstart : ¬startMarker marker <:+: document.canonicalText)
    (hend : ¬endMarker marker <:+: document.canonicalText) (queries : List SearchQuery)
    (hwords : ∃ query ∈ queries, ∀ literal ∈ query.all, queryTokens tables literal ≠ [])
    (limit snippetChars : ℕ) (hlimit : 1 ≤ limit ∧ limit ≤ 51) (hchars : 3 ≤ snippetChars) :
    ∃ hits, reader.search tables index marker queries limit snippetChars = .ok hits
      ∧ SearchAnswers document reader tables tokenizer writer.overlapBytes queries limit
        snippetChars hits := by
  obtain ⟨hits, hmatches, hsearch⟩ := search_eq marker h hleaves hletters hindex hwords hlimit
    (by omega : 1 ≤ snippetChars)
  obtain ⟨answers, hanswers⟩ := answers_return hmatches h hmarker hstart hend hchars
  refine ⟨answers, hsearch.trans hanswers, ?_, answers_ranked hanswers,
    answers_distinct hmatches hanswers,
    answers_sound hmatches hanswers h hmarker hstart hend hchars, ?_⟩
  · rw [answers_length hanswers]
    exact Nat.min_le_left _ _
  · intro hfew before passage after htext hshort hbefore hafter hasks
    exact answers_complete hmatches hanswers h hmarker hstart hend hchars hoverlap hfew htext
      hshort hbefore hafter hasks

open Classical in
/-- The rows that an expression matches, each marked as a whole. -/
noncomputable def wholeTextMatches (tokenizer : IndexTokenizer) (texts : List (ℕ × Str))
    (startMarker endMarker : Str) (e : FtsExpr) : List FtsMatch :=
  (texts.filter (fun row => e.Matches tokenizer.tokenize
    [(ofString "text", tokenizer.tokenize row.2)])).map
      (fun row => ⟨row.1, startMarker++row.2++endMarker, 0⟩)

noncomputable def wholeTextIndex (tokenizer : IndexTokenizer) : FullTextIndex :=
  fun texts startMarker endMarker _ expression =>
    match FtsExpr.read expression with
    | none => .error ⟨.sqliteDatabaseError, ofString "fts5: syntax error"⟩
    | some e => .ok (wholeTextMatches tokenizer texts startMarker endMarker e)

theorem indexes_wholeTextIndex (tokenizer : IndexTokenizer) :
    tokenizer.Indexes (wholeTextIndex tokenizer) := by
  classical
  constructor
  intro texts startMarker endMarker tokens expression e hread hdistinct
  have hids : (wholeTextMatches tokenizer texts startMarker endMarker e).map FtsMatch.rowid
      = (texts.filter (fun row => e.Matches tokenizer.tokenize
        [(ofString "text", tokenizer.tokenize row.2)])).map Prod.fst := by
    rw [wholeTextMatches, List.map_map]
    rfl
  refine ⟨wholeTextMatches tokenizer texts startMarker endMarker e, ?_, ?_, ?_, ?_⟩
  · rw [wholeTextIndex, hread]
  · rw [hids]
    exact hdistinct.sublist (List.filter_sublist.map _)
  · intro rowid text hrow
    rw [hids, List.mem_map]
    simp only [List.mem_filter, decide_eq_true_eq, Prod.exists]
    constructor
    · rintro ⟨_, other, ⟨hother, hmatch⟩, rfl⟩
      have hsame := (lookup_of_mem hdistinct hrow).symm.trans (lookup_of_mem hdistinct hother)
      rwa [Option.some.inj hsame]
    · intro hmatch
      exact ⟨rowid, text, ⟨hrow, hmatch⟩, rfl⟩
  · intro hit hhit
    obtain ⟨row, hrow, rfl⟩ := List.mem_map.mp hhit
    refine ⟨row.2, (List.mem_filter.mp hrow).1, ⟨[([], row.2)], []⟩, List.cons_ne_nil _ _, ?_, ?_⟩
    · simp only [MarkedText.plain, List.flatMap_cons, List.flatMap_nil, List.nil_append,
        List.append_nil, List.infix_refl]
    · simp only [MarkedText.text, List.flatMap_cons, List.flatMap_nil, List.nil_append,
        List.append_nil]

/-- A page with a text of three short chunks. -/
def catPage : DocumentContent where
  sourceSha256 := List.replicate 64 0x61
  containers := [samplePage 0 [manyLines]]
  mediaType := ofString "application/pdf"
  title := none
  outline := []
  sha_length := repeatedDigit_length
  sha_hexadecimal := repeatedDigit_hexadecimal
  media_type_required := pdfType_ne_nil
  contiguous := by decide
  outline_references := by decide

def catPageDatabase : Database :=
  ((shortChunks.documentDatabase catPage 4).bind Except.toOption).elim createSchema Prod.fst

def catPageReader : ArtifactReader := ⟨catPageDatabase, (utf8 catPage.canonicalText).length⟩

theorem catPage_built :
    BuiltReader shortChunks (singleStorage catPageDatabase) catPage catPageReader := by
  have h : shortChunks.documentDatabase catPage 4
      = some (.ok (catPageDatabase, utf8 catPage.canonicalText)) := by
    decide +kernel
  exact builtReader_single h (by decide +kernel)

theorem catPage_text : catPage.canonicalText = manyLines := by decide +kernel

theorem catPage_unmarked : (∀ c ∈ ofString "0a", isHexDigit c = true)
    ∧ ¬startMarker (ofString "0a") <:+: catPage.canonicalText
    ∧ ¬endMarker (ofString "0a") <:+: catPage.canonicalText := by
  have hplain : (0xE000 : CodePoint) ∉ manyLines ∧ (0xE002 : CodePoint) ∉ manyLines := by
    decide +kernel
  rw [catPage_text]
  exact ⟨List.all_eq_true.mp (by decide), fun h => hplain.1 (h.subset List.mem_cons_self),
    fun h => hplain.2 (h.subset List.mem_cons_self)⟩

end ConferWorker
