import ConferWorker.ChunkRounds
import ConferWorker.Paging

/-! The containers that a chunk is attributed to: those that it shares text with, and for a chunk
inside a separator the one before it. -/
namespace ConferWorker

namespace ContainerRange

/-- The range shares a byte with `[start, stop)`, in the sense of the writer's test. -/
def Meets (range : ContainerRange) (start stop : ℕ) : Prop := range.start < stop ∧ start < range.stop

end ContainerRange

/-- Ranges one behind the other, numbered in their order, the first at the start of the text. -/
structure RangesInOrder (ranges : List ContainerRange) : Prop where
  inside : ∀ range ∈ ranges, range.start ≤ range.stop
  ordered : ranges.Pairwise (fun a b => a.containerNumber < b.containerNumber ∧ a.stop ≤ b.start)
  first : ∀ range ∈ ranges.head?, range.start = 0

/-- The numbers `first` to `last` are the right ones for `[start, stop)`: every container that
meets it is among them, both ends meet it, and if none does they are the last container that
starts at or before it. -/
structure Attributed (ranges : List ContainerRange) (start stop first last : ℕ) : Prop where
  covers : ∀ range ∈ ranges, range.Meets start stop →
    first ≤ range.containerNumber ∧ range.containerNumber ≤ last
  ends : (∃ range ∈ ranges, range.Meets start stop) →
    (∃ range ∈ ranges, range.containerNumber = first ∧ range.Meets start stop)
    ∧ ∃ range ∈ ranges, range.containerNumber = last ∧ range.Meets start stop
  nearest : (∀ range ∈ ranges, ¬range.Meets start stop) → first = last
    ∧ ∃ range ∈ ranges, range.containerNumber = first ∧ range.start ≤ start
      ∧ ∀ other ∈ ranges, other.start ≤ start → other.containerNumber ≤ first

section Ranges

variable {ranges : List ContainerRange}

/-- A smaller number stands in front. -/
theorem RangesInOrder.stop_le (h : RangesInOrder ranges) {a b : ContainerRange} (ha : a ∈ ranges)
    (hb : b ∈ ranges) (hlt : a.containerNumber < b.containerNumber) : a.stop ≤ b.start := by
  obtain ⟨i, hi, rfl⟩ := List.mem_iff_getElem.mp ha
  obtain ⟨j, hj, rfl⟩ := List.mem_iff_getElem.mp hb
  have hordered := List.pairwise_iff_getElem.mp h.ordered
  rcases Nat.lt_trichotomy i j with hij | rfl | hij
  · exact (hordered i j hi hj hij).2
  · exact absurd hlt (lt_irrefl _)
  · exact absurd (hordered j i hj hi hij).1 hlt.asymm

/-- The last of the ranges that start at or before an offset. -/
theorem nearestContainer_spec (h : RangesInOrder ranges) (hne : ranges ≠ []) (offset : ℕ) :
    ∃ range ∈ ranges, range.containerNumber = ArtifactWriter.nearestContainer ranges offset
      ∧ range.start ≤ offset
      ∧ ∀ other ∈ ranges, other.start ≤ offset →
        other.containerNumber ≤ ArtifactWriter.nearestContainer ranges offset := by
  obtain ⟨first, rest, rfl⟩ := List.exists_cons_of_ne_nil hne
  have hfirst : first ∈ (first :: rest).filter (fun range => range.start ≤ offset) := by
    rw [List.mem_filter, decide_eq_true_eq, h.first first rfl]
    exact ⟨List.mem_cons_self, Nat.zero_le _⟩
  obtain ⟨before, last, hlast⟩ :=
    (List.eq_nil_or_concat' _).resolve_left (List.ne_nil_of_mem hfirst)
  have hnumber : ArtifactWriter.nearestContainer (first :: rest) offset = last.containerNumber := by
    unfold ArtifactWriter.nearestContainer
    dsimp only
    rw [hlast, List.getLast?_concat]
  have hmem : last ∈ (first :: rest).filter (fun range => range.start ≤ offset) := by
    rw [hlast]
    exact List.mem_append_right _ (List.mem_singleton_self _)
  rw [List.mem_filter, decide_eq_true_eq] at hmem
  refine ⟨last, hmem.1, hnumber.symm, hmem.2, ?_⟩
  intro other hother hstart
  have hfiltered : other ∈ before++[last] := by
    rw [← hlast, List.mem_filter, decide_eq_true_eq]
    exact ⟨hother, hstart⟩
  rw [hnumber]
  rcases List.mem_append.mp hfiltered with hbefore | hsame
  · have hsorted := h.ordered.sublist
      (List.filter_sublist (p := fun range : ContainerRange => range.start ≤ offset))
    rw [hlast] at hsorted
    exact ((List.pairwise_append.mp hsorted).2.2 other hbefore last
      (List.mem_singleton_self _)).1.le
  · rw [List.mem_singleton.mp hsame]

/-- What the writer stores for a chunk. -/
theorem chunkContainers_attributed (h : RangesInOrder ranges) (hne : ranges ≠ [])
    (start stop : ℕ) : Attributed ranges start stop
      ((ArtifactWriter.chunkContainers ranges start stop).min?.getD 0)
      ((ArtifactWriter.chunkContainers ranges start stop).max?.getD 0) := by
  have hmeets (range : ContainerRange) : range ∈ ranges.filter (fun container =>
      container.start < stop && start < container.stop)
        ↔ range ∈ ranges ∧ range.Meets start stop := by
    rw [List.mem_filter, Bool.and_eq_true, decide_eq_true_eq, decide_eq_true_eq,
      ContainerRange.Meets]
  -- a chunk between two containers gets the nearest one, every other chunk those it meets
  by_cases hnone : ∀ range ∈ ranges, ¬range.Meets start stop
  · have hfilter : ranges.filter (fun container =>
        container.start < stop && start < container.stop) = [] := by
      apply List.eq_nil_iff_forall_not_mem.mpr
      intro range hrange
      obtain ⟨hmem, hmeet⟩ := (hmeets range).mp hrange
      exact hnone range hmem hmeet
    have hnumbers : ArtifactWriter.chunkContainers ranges start stop
        = [ArtifactWriter.nearestContainer ranges start] := by
      unfold ArtifactWriter.chunkContainers
      rw [hfilter, List.map_nil, if_pos rfl]
    rw [hnumbers]
    refine ⟨?_, ?_, fun _ => ⟨rfl, nearestContainer_spec h hne start⟩⟩
    · intro range hrange hmeet
      exact absurd hmeet (hnone range hrange)
    · rintro ⟨range, hrange, hmeet⟩
      exact absurd hmeet (hnone range hrange)
  · push Not at hnone
    obtain ⟨some', hsome, hmeet⟩ := hnone
    have hnumbers : ArtifactWriter.chunkContainers ranges start stop
        = (ranges.filter (fun container =>
          container.start < stop && start < container.stop)).map ContainerRange.containerNumber := by
      unfold ArtifactWriter.chunkContainers
      apply if_neg
      rw [List.map_eq_nil_iff]
      exact List.ne_nil_of_mem ((hmeets some').mpr ⟨hsome, hmeet⟩)
    have hnumber (n : ℕ) : n ∈ ArtifactWriter.chunkContainers ranges start stop
        ↔ ∃ range ∈ ranges, range.containerNumber = n ∧ range.Meets start stop := by
      rw [hnumbers, List.mem_map]
      constructor
      · rintro ⟨range, hrange, rfl⟩
        obtain ⟨hmem, hmeet⟩ := (hmeets range).mp hrange
        exact ⟨range, hmem, rfl, hmeet⟩
      · rintro ⟨range, hmem, rfl, hmeet⟩
        exact ⟨range, (hmeets range).mpr ⟨hmem, hmeet⟩, rfl⟩
    have hfound : ArtifactWriter.chunkContainers ranges start stop ≠ [] :=
      List.ne_nil_of_mem ((hnumber _).mpr ⟨some', hsome, rfl, hmeet⟩)
    obtain ⟨first, hfirst⟩ := Option.isSome_iff_exists.mp
      (List.isSome_min?_iff.mpr hfound)
    obtain ⟨last, hlast⟩ := Option.isSome_iff_exists.mp
      (List.isSome_max?_iff.mpr hfound)
    have hminimum := List.min?_eq_some_iff.mp hfirst
    have hmaximum := List.max?_eq_some_iff.mp hlast
    rw [hfirst, hlast, Option.getD_some, Option.getD_some]
    refine ⟨?_, fun _ => ⟨(hnumber first).mp hminimum.1, (hnumber last).mp hmaximum.1⟩, ?_⟩
    · intro range hrange hmeet
      have hmem := (hnumber range.containerNumber).mpr ⟨range, hrange, rfl, hmeet⟩
      exact ⟨hminimum.2 _ hmem, hmaximum.2 _ hmem⟩
    · intro hall
      exact absurd hmeet (hall some' hsome)

/-- A chunk that starts and ends later is attributed to no earlier containers. -/
theorem Attributed.mono (h : RangesInOrder ranges) {start stop first last : ℕ}
    {start' stop' first' last' : ℕ} (hnow : Attributed ranges start stop first last)
    (hlater : Attributed ranges start' stop' first' last') (hstart : start ≤ start')
    (hstop : stop ≤ stop') : first ≤ first' ∧ last ≤ last' := by
  -- a span meets containers, or it is attributed to the nearest one; the same for the later
  by_cases hmeet : ∃ range ∈ ranges, range.Meets start stop
  · obtain ⟨⟨a, ha, rfl, hameets⟩, b, hb, rfl, hbmeets⟩ := hnow.ends hmeet
    have hab := hnow.covers a ha hameets
    by_cases hmeet' : ∃ range ∈ ranges, range.Meets start' stop'
    · obtain ⟨⟨a', ha', rfl, hameets'⟩, b', hb', rfl, hbmeets'⟩ := hlater.ends hmeet'
      constructor
      · by_contra hlt
        have hbefore := h.stop_le ha' ha (Nat.not_le.mp hlt)
        have hinside := h.inside a' ha'
        have hcovered := hnow.covers a' ha'
          ⟨hinside.trans_lt (hbefore.trans_lt hameets.1), hstart.trans_lt hameets'.2⟩
        exact hlt hcovered.1
      · by_contra hlt
        have hbefore := h.stop_le hb' hb (Nat.not_le.mp hlt)
        have hinside := h.inside b hb
        have hcovered := hlater.covers b hb
          ⟨hbmeets.1.trans_le hstop, hbmeets'.2.trans_le (hbefore.trans hinside)⟩
        exact hlt hcovered.2
    · push Not at hmeet'
      obtain ⟨hsame, range, _, hnumber, _, hmost⟩ := hlater.nearest hmeet'
      have hbefore : b.start ≤ start' := by
        have hmisses := hmeet' b hb
        have hinside := h.inside b hb
        by_contra hafter
        exact hmisses ⟨hbmeets.1.trans_le hstop, (Nat.not_le.mp hafter).trans_le hinside⟩
      have hle := hmost b hb hbefore
      rw [← hsame]
      exact ⟨hab.2.trans hle, hle⟩
  · push Not at hmeet
    obtain ⟨hsame, range, hrange, rfl, hbefore, _⟩ := hnow.nearest hmeet
    rw [← hsame]
    by_cases hmeet' : ∃ range ∈ ranges, range.Meets start' stop'
    · obtain ⟨⟨a', ha', rfl, hameets'⟩, _⟩ := hlater.ends hmeet'
      have hle : range.containerNumber ≤ a'.containerNumber := by
        by_contra hlt
        have hfront := h.stop_le ha' hrange (Nat.not_le.mp hlt)
        have hmeets := hameets'.2
        omega
      exact ⟨hle, hle.trans (hlater.covers a' ha' hameets').2⟩
    · push Not at hmeet'
      obtain ⟨hsame', _, _, _, _, hmost⟩ := hlater.nearest hmeet'
      have hle := hmost range hrange (hbefore.trans hstart)
      rw [← hsame']
      exact ⟨hle, hle⟩

end Ranges

/-- The ranges that the writer hands to the chunk loop. -/
theorem canonicalRanges_inOrder (document : DocumentContent) : RangesInOrder
    (document.containers.zipIdx.map (canonicalRange document.containers)) := by
  have hseparator : containerSeparator.length = 3 := rfl
  constructor
  · intro range hrange
    obtain ⟨entry, _, rfl⟩ := List.mem_map.mp hrange
    exact pieceStart_le_pieceEnd _ _ _
  · apply List.pairwise_iff_getElem.mpr
    intro i j hi hj hij
    have hlength : j < document.containers.length := by
      rwa [List.length_map, List.length_zipIdx] at hj
    obtain ⟨k, rfl⟩ : ∃ k, j = k+1 := ⟨j-1, by omega⟩
    have hstart := pieceStart_succ containerSeparator (ownBytes document.containers) k
      (by rw [ownBytes_length]; omega)
    have hend := pieceEnd_mono containerSeparator (ownBytes document.containers) i k
      (by omega) (by rw [ownBytes_length]; omega)
    simp only [List.getElem_map, List.getElem_zipIdx, Nat.zero_add, canonicalRange,
      document.number_eq]
    exact ⟨hij, by omega⟩
  · intro range hrange
    rw [List.head?_eq_getElem?, List.getElem?_map, Option.mem_def, Option.map_eq_some_iff] at hrange
    obtain ⟨entry, hentry, rfl⟩ := hrange
    have hindex : entry.2 = 0 := by
      rw [List.getElem?_zipIdx, Option.map_eq_some_iff] at hentry
      obtain ⟨container, _, rfl⟩ := hentry
      rfl
    show pieceStart containerSeparator (ownBytes document.containers) entry.2 = 0
    rw [hindex, pieceStart_zero]

/-- Chunks that touch or overlap leave no byte out. -/
theorem exists_span_of_chain (span : ℕ × ℕ) (spans : List (ℕ × ℕ)) (offset : ℕ)
    (hstart : span.1 ≤ offset)
    (hstop : offset < ((span :: spans).getLast (List.cons_ne_nil _ _)).2)
    (hchain : (span :: spans).IsChain (fun span next =>
      span.1 ≤ next.1 ∧ next.1 ≤ span.2 ∧ span.2 ≤ next.2)) :
    ∃ found ∈ span :: spans, found.1 ≤ offset ∧ offset < found.2 := by
  induction spans generalizing span with
  | nil =>
    rw [List.getLast_singleton] at hstop
    exact ⟨span, List.mem_cons_self, hstart, hstop⟩
  | cons following spans ih =>
    obtain ⟨⟨_, htouch, _⟩, hrest⟩ := List.isChain_cons_cons.mp hchain
    by_cases hinside : offset < span.2
    · exact ⟨span, List.mem_cons_self, hstart, hinside⟩
    · rw [List.getLast_cons (List.cons_ne_nil _ _)] at hstop
      obtain ⟨found, hfound, hcontains⟩ := ih following (by omega) hstop hrest
      exact ⟨found, List.mem_cons_of_mem _ hfound, hcontains⟩

namespace ArtifactWriter

variable {writer : ArtifactWriter} {s : Str} {spans : List (ℕ × ℕ)} {next : Option ℕ}

/-- When the loop is left, every byte lies in a chunk. -/
theorem Rounds.exists_span (h : Rounds writer (utf8 s) spans next) (hleft : LoopLeft (utf8 s) next)
    {offset : ℕ} (hoffset : offset < (utf8 s).length) :
    ∃ span ∈ spans, span.1 ≤ offset ∧ offset < span.2 := by
  obtain ⟨hlast, _, hnone⟩ := freshBytes_left h hleft
  have hlist := (rounds_inv h).1
  cases spans with
  | nil =>
    rw [hnone.mp rfl, utf8_nil, List.length_nil] at hoffset
    exact absurd hoffset (Nat.not_lt_zero _)
  | cons span spans =>
    apply exists_span_of_chain span spans offset _ _ hlist.ordered
    · rw [hlist.first span rfl]
      exact Nat.zero_le _
    · rwa [hlast _ (List.getLast?_eq_getLast_of_ne_nil (List.cons_ne_nil _ _))]

/-- The rows of the chunks, for every span its own. -/
theorem mem_chunkRowsFrom {containers : List ContainerRange} {row : ChunkRow} :
    row ∈ chunkRowsFrom containers 0 spans ↔ ∃ span ∈ spans, ∃ ordinal,
      spans[ordinal]? = some span
      ∧ row = chunkRow ordinal span.1 span.2 (chunkContainers containers span.1 span.2) := by
  rw [chunkRowsFrom, List.mem_map]
  constructor
  · rintro ⟨⟨span, ordinal⟩, hentry, rfl⟩
    have hget := List.mem_zipIdx_iff_getElem?.mp hentry
    exact ⟨span, List.mem_of_getElem? hget, ordinal, hget, rfl⟩
  · rintro ⟨span, _, ordinal, hget, rfl⟩
    exact ⟨(span, ordinal), List.mem_zipIdx_iff_getElem?.mpr hget, rfl⟩

/-- The chunks of a document with containers, in every round of the loop: each is attributed to
the right containers, later chunks to later ones, and when the loop is left every container with
text is one of those of a chunk. -/
theorem chunks_attributed (writer : ArtifactWriter) (document : DocumentContent)
    (hcontainers : document.containers ≠ []) (content : ContentState)
    (hcontent : writeContent createSchema document = .ok content) (spans : List (ℕ × ℕ))
    (next : Option ℕ) (hrounds : Rounds writer content.canonical spans next) :
    (∀ fuel database, writer.writeChunks content.canonical content.containerRanges
      (spans.length+fuel) 0 0 database
        = writer.loopFrom content.canonical content.containerRanges fuel spans.length next
          (database.insertChunks (chunkRowsFrom content.containerRanges 0 spans)
            (chunkTextsFrom content.canonical 0 spans)))
    ∧ (∀ row ∈ chunkRowsFrom content.containerRanges 0 spans,
      Attributed content.containerRanges row.startOffset row.endOffset
        row.containerStart row.containerEnd)
    ∧ (chunkRowsFrom content.containerRanges 0 spans).IsChain (fun row later =>
      row.containerStart ≤ later.containerStart ∧ row.containerEnd ≤ later.containerEnd)
    ∧ (LoopLeft content.canonical next → ∀ container ∈ document.containers,
      container.ownText ≠ [] → ∃ row ∈ chunkRowsFrom content.containerRanges 0 spans,
        row.containerStart ≤ container.number ∧ container.number ≤ row.containerEnd) := by
  have written := writeContent_ok hcontent
  have hencodable := document.canonicalText_encodable written.encodable
  have horder : RangesInOrder content.containerRanges := by
    rw [written.ranges]
    exact canonicalRanges_inOrder document
  have hne : content.containerRanges ≠ [] := by
    rw [written.ranges]
    simpa using hcontainers
  rw [written.canonical] at hrounds ⊢
  have hlist := (rounds_inv hrounds).1
  have hrows : ∀ row ∈ chunkRowsFrom content.containerRanges 0 spans,
      Attributed content.containerRanges row.startOffset row.endOffset
        row.containerStart row.containerEnd := by
    intro row hrow
    obtain ⟨span, _, ordinal, _, rfl⟩ := mem_chunkRowsFrom.mp hrow
    exact chunkContainers_attributed horder hne span.1 span.2
  refine ⟨writeChunks_rounds hencodable hrounds _, hrows, ?_, ?_⟩
  -- later chunks start and end later, and so do their containers
  · apply List.isChain_iff_getElem.mpr
    intro i hi
    have hlength : i+1 < spans.length := by
      rwa [chunkRowsFrom, List.length_map, List.length_zipIdx] at hi
    have hchain := List.isChain_iff_getElem.mp hlist.ordered i hlength
    have hstart : (chunkRowsFrom content.containerRanges 0 spans)[i].startOffset
        ≤ (chunkRowsFrom content.containerRanges 0 spans)[i+1].startOffset := by
      simpa [chunkRowsFrom, chunkRow] using hchain.1
    have hstop : (chunkRowsFrom content.containerRanges 0 spans)[i].endOffset
        ≤ (chunkRowsFrom content.containerRanges 0 spans)[i+1].endOffset := by
      simpa [chunkRowsFrom, chunkRow] using hchain.2.2
    exact (hrows _ (List.getElem_mem _)).mono horder (hrows _ (List.getElem_mem _)) hstart hstop
  -- the chunk that holds the first byte of a container covers it
  · intro hleft container hcontainer htext
    obtain ⟨i, hi, rfl⟩ := List.mem_iff_getElem.mp hcontainer
    have hrange : canonicalRange document.containers (document.containers[i], i)
        ∈ content.containerRanges := by
      rw [written.ranges]
      apply List.mem_map_of_mem
      rw [List.mem_zipIdx_iff_getElem?]
      exact List.getElem?_eq_getElem hi
    have hbytes : 0 < (utf8 document.containers[i].ownText).length :=
      List.length_pos_iff.mpr fun h => htext ((utf8_eq_nil_iff _).mp h)
    have hlength : pieceStart containerSeparator (ownBytes document.containers) i
        +(utf8 document.containers[i].ownText).length
          = pieceEnd containerSeparator (ownBytes document.containers) i := by
      rw [pieceEnd, List.getD_eq_getElem _ _ (by rwa [ownBytes_length])]
      simp [ownBytes]
    have hinside := pieceEnd_le_length containerSeparator (ownBytes document.containers) i
      (by rwa [ownBytes_length])
    rw [← document.utf8_canonicalText] at hinside
    obtain ⟨span, hspan, hbefore, hbehind⟩ := hrounds.exists_span hleft
      (show pieceStart containerSeparator (ownBytes document.containers) i < _ by omega)
    obtain ⟨ordinal, hget⟩ := List.mem_iff_getElem?.mp hspan
    have hrow := mem_chunkRowsFrom.mpr
      ⟨span, hspan, ordinal, hget, (Eq.refl (chunkRow ordinal span.1 span.2
        (chunkContainers content.containerRanges span.1 span.2)))⟩
    refine ⟨_, hrow, ?_⟩
    apply (hrows _ hrow).covers _ hrange
    show pieceStart _ _ i < span.2 ∧ span.1 < pieceEnd _ _ i
    exact ⟨hbehind, by omega⟩

/-- The two pages share one chunk. -/
theorem chunks_attributed_twoPages : twoPages.containers ≠ []
    ∧ ∃ content, writeContent createSchema twoPages = .ok content
      ∧ Rounds default content.canonical [(0, 8)] none
      ∧ ∀ container ∈ twoPages.containers, container.ownText ≠ [] →
        ∃ row ∈ chunkRowsFrom content.containerRanges 0 [(0, 8)],
          row.containerStart ≤ container.number ∧ container.number ≤ row.containerEnd := by
  have hcontainers : twoPages.containers ≠ [] := List.cons_ne_nil _ _
  have hsome : (writeContent createSchema twoPages).toOption.isSome := by decide +kernel
  cases hcontent : writeContent createSchema twoPages with
  | error error =>
    rw [hcontent] at hsome
    cases hsome
  | ok content =>
    have hcanonical : content.canonical = utf8 twoPages.canonicalText :=
      (writeContent_ok hcontent).canonical
    have hrounds : Rounds default content.canonical [(0, 8)] none := by
      rw [hcanonical]
      exact .last [] 0 .start (by decide +kernel) (by decide +kernel)
    have hmain := chunks_attributed default twoPages hcontainers content hcontent [(0, 8)] none
      hrounds
    exact ⟨hcontainers, content, rfl, hrounds, hmain.2.2.2 nofun⟩

end ArtifactWriter

end ConferWorker
