import ConferWorker.ArtifactBuild
import ConferWorker.TextBlocks

/-! A plain text on its way into the artifact: decoding, cutting into blocks and writing the
canonical text change its white space at most. -/
namespace ConferWorker

/-- A text without a byte-order mark in front. -/
def withoutSignature : Str → Str
  | [] => []
  | c :: rest => if c = 0xFEFF then rest else c :: rest

theorem decodeReplaceFrom_skip (front rest : Bytes) :
    decodeReplaceFrom front.length (front++rest) = decodeReplace rest := by
  induction front with
  | nil => rfl
  | cons b front ih =>
    rw [List.length_cons, List.cons_append, decodeReplaceFrom]
    exact ih

/-- Nothing is replaced in valid UTF-8. -/
theorem decodeReplace_utf8 (s : Str) (h : Encodable s) : decodeReplace (utf8 s) = s := by
  induction s with
  | nil => rfl
  | cons c s ih =>
    obtain ⟨hc, hs⟩ := (encodable_cons c s).mp h
    obtain ⟨b, tail, htail⟩ := List.exists_cons_of_ne_nil (utf8Bytes_ne_nil c)
    have hfront := utf8Front_append c hc (utf8 s)
    rw [utf8_cons, htail, List.cons_append, decodeReplace, decodeReplaceFrom]
    rw [htail, List.cons_append] at hfront
    rw [hfront]
    show c :: decodeReplaceFrom tail.length (tail++utf8 s) = _
    rw [decodeReplaceFrom_skip, ih hs]

namespace TextDocumentExtractor

/-- `utf-8-sig` takes the byte-order mark away. -/
theorem decodeSignature_utf8 (s : Str) (h : Encodable s) :
    decodeSignature (utf8 s) = withoutSignature s := by
  have hmark : utf8Bytes 0xFEFF = [0xEF, 0xBB, 0xBF] := by decide
  unfold decodeSignature
  cases s with
  | nil => rfl
  | cons c s =>
    obtain ⟨hc, hs⟩ := (encodable_cons c s).mp h
    rw [withoutSignature]
    split_ifs with hbytes hchar hchar
    · rw [utf8_cons, hchar, hmark]
      exact decodeReplace_utf8 s hs
    · have hfront := utf8Front_append c hc (utf8 s)
      have hsplit : utf8Bytes c++utf8 s = utf8Bytes 0xFEFF++(utf8Bytes c++utf8 s).drop 3 := by
        rw [hmark, ← hbytes, utf8_cons, List.take_append_drop]
      rw [hsplit, utf8Front_append 0xFEFF (by decide)] at hfront
      exact absurd (Option.some.inj (congrArg Prod.fst hfront)).symm hchar
    · rw [utf8_cons, hchar, hmark] at hbytes
      exact absurd rfl hbytes
    · exact decodeReplace_utf8 (c :: s) h

/-- What `extract` returns for a plain text: one container with the blocks of the text. -/
theorem extract_plain {extractor : TextDocumentExtractor} {source : DocumentSource}
    {filename mediaType : Str} {fuel : ℕ} {document : DocumentContent}
    (hmedia : mediaType ≠ ofString "text/csv")
    (h : extractor.extract source filename mediaType fuel = some (.ok document)) :
    ∃ texts container, extractor.blocks fuel
        ((decodeSignature source.content).filter (· ≠ 0)) = some texts
      ∧ document.containers = [container] ∧ container.blocks.map TextBlock.text = texts := by
  unfold extract at h
  cases htext : extractor.sourceText source mediaType with
  | error error =>
    rw [htext] at h
    cases h
  | ok text =>
    rw [htext] at h
    obtain ⟨texts, htexts, hbuilt⟩ := Option.map_eq_some_iff.mp h
    simp only [sourceText, if_neg hmedia, bind_eq_ok, pure_eq_ok, decode] at htext
    obtain ⟨_, _, _, _, _, _, _, ⟨_, _, rfl⟩, _, rfl, _, _, _, _, rfl⟩ := htext
    simp only [blockContent, bind_eq_ok] at hbuilt
    obtain ⟨blocks, hblocks, _, _, _, _, container, hcontainer, hcreate⟩ := hbuilt
    refine ⟨texts, container, htexts, DocumentContent.create_containers hcreate, ?_⟩
    have hkept := mapM_map_eq (g := TextBlock.text) (h := Prod.fst) (fun block _ made hmade => by
      rw [bind_eq_ok] at hmade
      obtain ⟨bounds, _, hmade⟩ := hmade
      unfold TextBlock.create at hmade
      split_ifs at hmade
      rw [← Except.ok.inj hmade]) hblocks
    rw [(DocumentContainer.create_fields hcontainer).2.1, hkept, List.zipIdx_map_fst]

end TextDocumentExtractor

/-- The own text of a container holds its blocks' texts up to white space. -/
theorem ownText_withoutSpace (blocks : List TextBlock) (text : Str) :
    withoutSpace (blocks.foldl appendBlock text)
      = withoutSpace text++(blocks.map TextBlock.text).flatMap withoutSpace := by
  induction blocks generalizing text with
  | nil => exact (List.append_nil _).symm
  | cons block blocks ih =>
    have hblock : withoutSpace (appendBlock text block)
        = withoutSpace text++withoutSpace block.text := by
      have hfeed : withoutSpace [lineFeed] = [] := by decide
      unfold appendBlock
      split_ifs
      · rw [withoutSpace_append, withoutSpace_cons lineFeed, hfeed, List.nil_append]
      · rw [withoutSpace_append]
    rw [List.foldl_cons, ih, hblock, List.map_cons, List.flatMap_cons, List.append_assoc]

theorem withoutSpace_flatten (texts : List Str) :
    withoutSpace texts.flatten = texts.flatMap withoutSpace := by
  induction texts with
  | nil => rfl
  | cons text texts ih => rw [List.flatten_cons, withoutSpace_append, ih, List.flatMap_cons]

open TextDocumentExtractor in
/-- A plain text is extracted to one container, whose text has the characters of the source up to
white space, a byte-order mark and NUL characters. -/
theorem extract_withoutSpace {extractor : TextDocumentExtractor}
    (hblock : 1 ≤ extractor.blockCharacters) {s : Str} (hs : Encodable s) {source : DocumentSource}
    {filename mediaType : Str} {fuel : ℕ} {document : DocumentContent}
    (hsource : source.content = utf8 s) (hmedia : mediaType ≠ ofString "text/csv")
    (hextract : extractor.extract source filename mediaType fuel = some (.ok document)) :
    document.containers.length = 1
      ∧ withoutSpace document.canonicalText
        = withoutSpace ((withoutSignature s).filter (· ≠ 0)) := by
  obtain ⟨texts, container, htexts, hcontainers, hblocks⟩ := extract_plain hmedia hextract
  obtain ⟨only, _, honly, _, hkeeps⟩ := blocks_spec extractor hblock
    ((decodeSignature source.content).filter (· ≠ 0))
  refine ⟨by rw [hcontainers, List.length_singleton], ?_⟩
  calc withoutSpace document.canonicalText
      = withoutSpace container.ownText := by
        rw [DocumentContent.canonicalText, hcontainers, List.map_singleton,
          List.intercalate_singleton]
    _ = texts.flatMap withoutSpace := by
        rw [DocumentContainer.ownText, ownText_withoutSpace, hblocks]
        rfl
    _ = withoutSpace ((decodeSignature source.content).filter (· ≠ 0)) := by
        rw [honly fuel texts htexts, hkeeps]
    _ = withoutSpace ((withoutSignature s).filter (· ≠ 0)) := by
        rw [hsource, decodeSignature_utf8 s hs]

open TextDocumentExtractor in
/-- Plain text extraction loses nothing but white space: the blocks of every text are short
pieces that hold its other characters, and the canonical text of a source that is no CSV holds
those of the source, a byte-order mark and NUL characters apart. -/
theorem plain_text_kept (extractor : TextDocumentExtractor)
    (hblock : 1 ≤ extractor.blockCharacters) :
    (∀ text, ∃ texts,
      (∀ fuel, text.length ≤ fuel → extractor.blocks fuel text = some texts)
      ∧ (∀ fuel other, extractor.blocks fuel text = some other → other = texts)
      ∧ (∀ block ∈ texts, IsBlock extractor.blockCharacters block)
      ∧ withoutSpace texts.flatten = withoutSpace text)
    ∧ ∀ s, Encodable s → ∀ source filename mediaType fuel document, source.content = utf8 s →
      mediaType ≠ ofString "text/csv" →
      extractor.extract source filename mediaType fuel = some (.ok document) →
      ∀ (writer : ArtifactWriter) storage rounds result,
      writer.write storage document rounds = some (.ok result) →
      ∃ canonical, result.text = utf8 canonical
        ∧ withoutSpace canonical = withoutSpace ((withoutSignature s).filter (· ≠ 0)) := by
  constructor
  · intro text
    obtain ⟨texts, hruns, honly, hblocks, hkeeps⟩ := blocks_spec extractor hblock text
    exact ⟨texts, hruns, honly, hblocks, (withoutSpace_flatten texts).trans hkeeps⟩
  · intro s hs source filename mediaType fuel document hsource hmedia hextract writer storage rounds
      result hwrite
    obtain ⟨_, _, _, _, _, _, htext, _, _⟩ := write_ok hwrite
    exact ⟨document.canonicalText, htext,
      (extract_withoutSpace hblock hs hsource hmedia hextract).2⟩

/-- A source with a byte-order mark, a NUL character and white space around. -/
def markedSource : DocumentSource where
  content := utf8 (0xFEFF :: ofString " a\n\n b\x00c ")
  length := 12
  sha256 := List.replicate 64 0x61
  source_hash := ⟨by decide, by decide, by decide⟩

/-- The marked source is extracted, and its database is small enough for a reader. -/
theorem markedSource_written :
    (match TextDocumentExtractor.default.extract markedSource (ofString "a.txt")
        (ofString "text/plain") 1 with
      | some (.ok document) =>
        match ArtifactWriter.default.documentDatabase document 1 with
        | some (.ok built) => decide (built.1.storedBytes ≤ maxDatabaseBytes)
        | _ => false
      | _ => false) = true := by decide +kernel

theorem markedSource_built : ∃ document built,
    TextDocumentExtractor.default.extract markedSource (ofString "a.txt") (ofString "text/plain") 1
        = some (.ok document)
      ∧ ArtifactWriter.default.documentDatabase document 1 = some (.ok built)
      ∧ built.1.storedBytes ≤ maxDatabaseBytes := by
  have hwritten := markedSource_written
  rcases hextract : TextDocumentExtractor.default.extract markedSource (ofString "a.txt")
    (ofString "text/plain") 1 with _ | error | document
  · rw [hextract] at hwritten
    cases hwritten
  · rw [hextract] at hwritten
    cases hwritten
  · rw [hextract] at hwritten
    rcases hdatabase : ArtifactWriter.default.documentDatabase document 1 with _ | error | built
    · simp only [hdatabase, Bool.false_eq_true] at hwritten
    · simp only [hdatabase, Bool.false_eq_true] at hwritten
    · simp only [hdatabase, decide_eq_true_eq] at hwritten
      exact ⟨document, built, rfl, hdatabase, hwritten⟩

/-- A storage that holds the marked source. -/
theorem markedSource_stored : ∃ document storage result reader,
    TextDocumentExtractor.default.extract markedSource (ofString "a.txt") (ofString "text/plain") 1
        = some (.ok document)
      ∧ storage.Faithful ∧ ArtifactWriter.default.write storage document 1 = some (.ok result)
      ∧ ArtifactReader.create storage result.artifact = .ok reader := by
  obtain ⟨document, ⟨database, canonical⟩, hextract, hdatabase, hsmall⟩ := markedSource_built
  have hfile : (singleStorage database).databaseFile database
      = .ok (List.replicate database.storedBytes 0) := if_pos rfl
  have hlength : (List.replicate database.storedBytes (0 : UInt8)).length ≤ maxDatabaseBytes := by
    rw [List.length_replicate]
    exact hsmall
  have hsize := hlength.trans_lt (by decide : maxDatabaseBytes < 2^64)
  obtain ⟨result, hwrite, hartifact⟩ := write_returns hdatabase hfile hsize
  obtain ⟨-, tables⟩ := documentDatabase_ok hdatabase
  have hcreate := create_written (singleStorage_faithful database) tables.toDocumentWritten hfile
    hsize
  rw [if_pos hlength, ← hartifact] at hcreate
  exact ⟨document, _, result, _, hextract, singleStorage_faithful database, hwrite, hcreate⟩

theorem plain_text_kept_marked : 1 ≤ TextDocumentExtractor.default.blockCharacters
    ∧ ∃ document storage result,
      TextDocumentExtractor.default.extract markedSource (ofString "a.txt") (ofString "text/plain") 1
        = some (.ok document)
      ∧ ArtifactWriter.default.write storage document 1 = some (.ok result)
      ∧ ∃ canonical, result.text = utf8 canonical ∧ withoutSpace canonical = ofString "abc" := by
  have hblock : 1 ≤ TextDocumentExtractor.default.blockCharacters := by decide
  obtain ⟨document, storage, result, _, hextract, -, hwrite, -⟩ := markedSource_stored
  obtain ⟨canonical, htext, hkept⟩ := (plain_text_kept TextDocumentExtractor.default hblock).2
    (0xFEFF :: ofString " a\n\n b\x00c ") (by decide) markedSource _ _ _ _ rfl (by decide)
    hextract ArtifactWriter.default _ _ _ hwrite
  exact ⟨hblock, document, storage, result, hextract, hwrite, canonical, htext,
    hkept.trans (by decide)⟩

end ConferWorker
