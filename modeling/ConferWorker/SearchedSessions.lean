import ConferWorker.SearchedPassages
import ConferWorker.TextSessions

/-! Searches in the sessions of the worker: an artifact that was written for a document and opened
in a session is searched in every later state, and the answer says whether there are more hits. -/
namespace ConferWorker

open ArtifactReader ArtifactWriter DocumentSession SearchSnippets

section Sessions

variable {Source Rendered : Type}

/-- The reader of the session searches as an `ArtifactReader`. -/
def withArtifactSearch (tables : UnicodeTables) (index : FullTextIndex) (marker : Str)
    (calls : SessionCalls (artifactTypes Source SearchHit Rendered)) :
    SessionCalls (artifactTypes Source SearchHit Rendered) :=
  { calls with
    search := fun reader queries limit snippetCharacters =>
      ArtifactReader.search reader tables index marker queries limit snippetCharacters }

/-- One hit more is fetched than is asked for. -/
theorem SearchAnswers.take {document : DocumentContent} {reader : ArtifactReader}
    {tables : UnicodeTables} {tokenizer : IndexTokenizer} {overlapBytes : ℕ}
    {queries : List SearchQuery} {limit snippetChars : ℕ} {hits : List SearchHit}
    (h : SearchAnswers document reader tables tokenizer overlapBytes queries (limit+1) snippetChars
      hits) :
    SearchAnswers document reader tables tokenizer overlapBytes queries limit snippetChars
      (hits.take limit) where
  count := List.length_take_le limit hits
  ranked := h.ranked.sublist (List.take_sublist limit hits)
  distinct := h.distinct.sublist ((List.take_sublist limit hits).map SearchHit.chunkId)
  sound hit hhit := h.sound hit (List.mem_of_mem_take hhit)
  complete hfew before passage after htext hshort hbefore hafter hasks := by
    have hlength : hits.length < limit := by
      rw [List.length_take] at hfew
      omega
    rw [List.take_of_length_le hlength.le]
    exact h.complete (hlength.trans (Nat.lt_succ_self limit)) before passage after htext hshort
      hbefore hafter hasks

/-- What a session answers to a search in a document: hits as they should be, and all there are
where it says that there are no more. -/
def SearchesDocument (document : DocumentContent) (reader : ArtifactReader) (tables : UnicodeTables)
    (tokenizer : IndexTokenizer) (overlapBytes : ℕ) (request : SearchDocumentRequest)
    (hits : List SearchHit) (hasMore : Bool) : Prop :=
  SearchAnswers document reader tables tokenizer overlapBytes request.queries request.limit
      request.snippetCharacters hits
    ∧ (hasMore = false → SearchAnswers document reader tables tokenizer overlapBytes
      request.queries (request.limit+1) request.snippetCharacters hits)

theorem execute_search_document {calls : SessionCalls (artifactTypes Source SearchHit Rendered)}
    {document : DocumentContent} {reader : ArtifactReader} {tables : UnicodeTables}
    {tokenizer : IndexTokenizer} {overlapBytes : ℕ} {request : SearchDocumentRequest}
    {session : DocumentSession (artifactTypes Source SearchHit Rendered).Reader}
    {index : FullTextIndex} {marker : Str} {fetched : List SearchHit}
    (hcell : session.cell request.documentId = some reader)
    (hsearch : reader.search tables index marker request.queries (request.limit+1)
      request.snippetCharacters = .ok fetched)
    (hanswers : SearchAnswers document reader tables tokenizer overlapBytes request.queries
      (request.limit+1) request.snippetCharacters fetched) :
    ∃ (hits : List SearchHit) (hasMore : Bool),
      (execute (withArtifactSearch tables index marker calls) session (.search request)).2
        = .ok (.search hits hasMore)
      ∧ SearchesDocument document reader tables tokenizer overlapBytes request hits hasMore := by
  obtain ⟨serial, hfind⟩ := find_of_cell hcell
  refine ⟨fetched.take request.limit, request.limit < fetched.length, ?_, hanswers.take, ?_⟩
  · simp only [execute, ask, hfind, answer, withArtifactSearch, hsearch]
    rfl
  · intro hnone
    rw [List.take_of_length_le (Nat.not_lt.mp (of_decide_eq_false hnone))]
    exact hanswers

end Sessions

theorem catId_ne_nil : ofString "d" ≠ [] := by decide

/-- The artifact of the page with the cat is opened. -/
def catRequest (artifact : Bytes) :
    OpenDocumentRequest (artifactTypes DocumentSource SearchHit Unit) where
  documentId := ofString "d"
  artifact := artifact
  document_id_required := catId_ne_nil

end ConferWorker
