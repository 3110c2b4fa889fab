import ConferWorker.ChunkRounds

/-! With an overlap of less than half a chunk, every short range of the text lies in one of the
chunks, and with it every short passage in one of the indexed texts. -/
namespace ConferWorker

section Passages

variable {s : Str}

theorem utf8_prefix_length {t : Str} (h : t <+: s) : (utf8 t).length ≤ (utf8 s).length := by
  obtain ⟨rest, rfl⟩ := h
  rw [utf8_append, List.length_append]
  exact Nat.le_add_right _ _

/-- Of two beginnings of a text the one with fewer bytes is a beginning of the other one. -/
theorem prefix_of_utf8_length {t u : Str} (ht : t <+: s) (hu : u <+: s)
    (h : (utf8 t).length ≤ (utf8 u).length) : t <+: u := by
  rcases List.prefix_or_prefix_of_prefix ht hu with hprefix | ⟨rest, rfl⟩
  · exact hprefix
  · rw [utf8_append, List.length_append] at h
    have hrest : utf8 rest = [] := List.length_eq_zero_iff.mp (by omega)
    rw [utf8_eq_nil_iff] at hrest
    rw [hrest, List.append_nil]

/-- The bytes between two beginnings of a text. -/
theorem slice_prefix {t u : Str} (hs : t++u <+: s) :
    slice (utf8 s) (utf8 t).length (utf8 (t++u)).length = utf8 u := by
  obtain ⟨rest, rfl⟩ := hs
  rw [slice, utf8_append (t++u), List.take_left' rfl, utf8_append, List.drop_left' rfl]

end Passages

namespace ArtifactWriter

variable {writer : ArtifactWriter} {s : Str} {spans : List (ℕ × ℕ)} {next : Option ℕ}

/-- Finitely many chunks are emitted by finitely many rounds. -/
theorem ChunkSpans.rounds {canonical : Bytes} {start : ℕ} {done : List (ℕ × ℕ)}
    (h : ChunkSpans writer canonical start spans)
    (hdone : Rounds writer canonical done (some start)) :
    ∃ next, Rounds writer canonical (done++spans) next ∧ LoopLeft canonical next := by
  induction h generalizing done with
  | done start hend =>
    refine ⟨some start, by rwa [List.append_nil], ?_⟩
    intro later hlater
    rwa [← Option.some.inj hlater]
  | last start hstart hstop =>
    refine ⟨none, ?_, nofun⟩
    have hlast := Rounds.last done start hdone hstart hstop
    rwa [hstop] at hlast
  | more start spans hstart hstop _ ih =>
    obtain ⟨next, hrounds, hleft⟩ := ih (.more done start hdone hstart hstop)
    rw [List.append_assoc, List.singleton_append] at hrounds
    exact ⟨next, hrounds, hleft⟩

section Overlap

variable (hoverlap : 2*writer.overlapBytes+8 ≤ writer.chunkBytes)
include hoverlap

/-- The next chunk starts a full overlap before the end of the last one. -/
theorem Rounds.overlap {start : ℕ} (h : Rounds writer (utf8 s) spans (some start)) :
    ∀ span ∈ spans.getLast?, start+writer.overlapBytes ≤ span.2 := by
  generalize hnext : some start = next at h
  cases h with
  | start => exact nofun
  | more spans before h hstart hstop =>
    intro span hspan
    rw [List.getLast?_concat] at hspan
    obtain rfl := Option.some.inj hspan
    obtain rfl := Option.some.inj hnext
    have hadvance := (chunkEnd_spec writer s before).advance.resolve_left hstop
    have hcut := utf8Boundary_le (utf8 s)
      (max (before+1) (writer.chunkEnd (utf8 s) before-writer.overlapBytes))
    unfold nextStart
    show _ ≤ writer.chunkEnd (utf8 s) before
    omega
  | last => cases hnext

/-- A range in the part that the chunks cover lies in one of them. -/
theorem Rounds.window (h : Rounds writer (utf8 s) spans next) (a b : ℕ)
    (hshort : b-a ≤ writer.overlapBytes) (hcovered : ∃ span ∈ spans.getLast?, b ≤ span.2) :
    ∃ span ∈ spans, span.1 ≤ a ∧ b ≤ span.2 := by
  -- Either the chunks before the last one hold the range, or it ends behind them.
  have hlater (spans : List (ℕ × ℕ)) (start : ℕ) (h : Rounds writer (utf8 s) spans (some start))
      (ih : (∃ span ∈ spans.getLast?, b ≤ span.2) → ∃ span ∈ spans, span.1 ≤ a ∧ b ≤ span.2)
      (hb : b ≤ writer.chunkEnd (utf8 s) start) :
      ∃ span ∈ spans++[(start, writer.chunkEnd (utf8 s) start)], span.1 ≤ a ∧ b ≤ span.2 := by
    by_cases hbefore : ∃ span ∈ spans.getLast?, b ≤ span.2
    · obtain ⟨span, hspan, hcontains⟩ := ih hbefore
      exact ⟨span, List.mem_append_left _ hspan, hcontains⟩
    · refine ⟨_, List.mem_append_right _ (List.mem_singleton_self _), ?_, hb⟩
      cases hlast : spans.getLast? with
      | none =>
        have hfirst := ((rounds_inv h).2.1 start rfl).first (List.getLast?_eq_none_iff.mp hlast)
        exact hfirst.le.trans (Nat.zero_le a)
      | some span =>
        have hspan := h.overlap hoverlap span hlast
        have hbehind : span.2 < b := by
          by_contra hnot
          exact hbefore ⟨span, hlast, Nat.not_lt.mp hnot⟩
        show start ≤ a
        omega
  induction h with
  | start =>
    obtain ⟨span, hspan, _⟩ := hcovered
    cases hspan
  | more spans start h hstart hstop ih =>
    obtain ⟨span, hspan, hb⟩ := hcovered
    rw [List.getLast?_concat] at hspan
    obtain rfl := Option.some.inj hspan
    exact hlater spans start h ih hb
  | last spans start h hstart hstop ih =>
    obtain ⟨span, hspan, hb⟩ := hcovered
    rw [List.getLast?_concat] at hspan
    obtain rfl := Option.some.inj hspan
    exact hlater spans start h ih hb

end Overlap

/-- A passage whose bytes lie in a chunk stands in the text of that chunk, between some of what is
around it. -/
theorem passage_in_chunk (h : ChunkList writer s spans) (hs : Encodable s) {span : ℕ × ℕ}
    (hspan : span ∈ spans) (before passage after : Str) (htext : s = before++passage++after)
    (hstart : span.1 ≤ (utf8 before).length)
    (hstop : (utf8 (before++passage)).length ≤ span.2) :
    ∃ front back, decodeUtf8 (slice (utf8 s) span.1 span.2) = some (front++passage++back)
      ∧ front <:+ before ∧ back <+: after := by
  obtain ⟨⟨i, hi⟩, ⟨j, hj⟩⟩ := h.boundaries span hspan
  have hbefore : before <+: s := ⟨passage++after, by rw [htext, List.append_assoc]⟩
  have hpassage : before++passage <+: s := ⟨after, htext.symm⟩
  obtain ⟨front, hfront⟩ := prefix_of_utf8_length (List.take_prefix i s) hbefore (hi ▸ hstart)
  obtain ⟨back, hback⟩ := prefix_of_utf8_length hpassage (List.take_prefix j s) (hj ▸ hstop)
  have hmiddle : s.take j = s.take i++(front++passage++back) := by
    rw [← hback, ← hfront]
    simp only [List.append_assoc]
  have hslice : slice (utf8 s) span.1 span.2 = utf8 (front++passage++back) := by
    rw [hi, hj, hmiddle]
    apply slice_prefix
    rw [← hmiddle]
    exact List.take_prefix j s
  have hencodable : Encodable (front++passage++back) := by
    intro c hc
    apply hs c
    apply List.mem_of_mem_take (i := j)
    rw [hmiddle]
    exact List.mem_append_right _ hc
  have hbehind : back++s.drop j = after := by
    have hwhole := List.take_append_drop j s
    rw [← hback, List.append_assoc] at hwhole
    exact List.append_cancel_left (hwhole.trans htext)
  exact ⟨front, back, by rw [hslice, decodeUtf8_utf8 _ hencodable], ⟨_, hfront⟩, ⟨_, hbehind⟩⟩

/-- A passage whose bytes lie in a chunk stands in the indexed text of that chunk. -/
theorem passage_indexed (h : ChunkList writer s spans) (hs : Encodable s) {span : ℕ × ℕ}
    (hspan : span ∈ spans) (before passage after : Str) (htext : s = before++passage++after)
    (hstart : span.1 ≤ (utf8 before).length)
    (hstop : (utf8 (before++passage)).length ≤ span.2) :
    ∃ row ∈ chunkTextsFrom (utf8 s) 0 spans, passage <:+: row.2 := by
  obtain ⟨front, back, hdecode, -, -⟩ :=
    passage_in_chunk h hs hspan before passage after htext hstart hstop
  obtain ⟨n, hn⟩ := List.mem_iff_getElem?.mp hspan
  refine ⟨(n+1, front++passage++back), List.mem_map.mpr ⟨(span, n), ?_, ?_⟩, ⟨front, back, rfl⟩⟩
  · exact List.mem_zipIdx_iff_getElem?.mpr hn
  · show (n+1, (decodeUtf8 (slice (utf8 s) span.1 span.2)).getD []) = _
    rw [hdecode]
    rfl

/-- With an overlap of less than half a chunk the loop ends, and every range of the text that is
no longer than the overlap lies in a chunk, every such passage in an indexed text. -/
theorem overlap_keeps_windows (writer : ArtifactWriter)
    (hoverlap : 2*writer.overlapBytes+8 ≤ writer.chunkBytes) (s : Str) (hs : Encodable s) :
    ∃ spans next, Rounds writer (utf8 s) spans next ∧ LoopLeft (utf8 s) next
      ∧ (∀ containers database fuel, spans.length ≤ fuel →
        writer.writeChunks (utf8 s) containers fuel 0 0 database
          = some (.ok (database.insertChunks (chunkRowsFrom containers 0 spans)
            (chunkTextsFrom (utf8 s) 0 spans))))
      ∧ (∀ a b, a < b → b ≤ (utf8 s).length → b-a ≤ writer.overlapBytes →
        ∃ span ∈ spans, span.1 ≤ a ∧ b ≤ span.2)
      ∧ ∀ before passage after, s = before++passage++after → passage ≠ [] →
        (utf8 passage).length ≤ writer.overlapBytes →
        ∃ row ∈ chunkTextsFrom (utf8 s) 0 spans, passage <:+: row.2 := by
  -- with this much room every round starts behind the one before it
  obtain ⟨spans, hspans⟩ := exists_chunkSpans (fun _ => True)
    (fun start _ (h : start < (utf8 s).length) hstop =>
      ⟨trivial, lt_nextStart hoverlap h hstop⟩) 0 trivial
  obtain ⟨next, hrounds, hleft⟩ := hspans.rounds .start
  rw [List.nil_append] at hrounds
  obtain ⟨hend, _, hnone⟩ := freshBytes_left hrounds hleft
  -- a window no longer than the overlap is whole in the next chunk where it leaves one
  have hwindow (a b : ℕ) (hlt : a < b) (hb : b ≤ (utf8 s).length)
      (hshort : b-a ≤ writer.overlapBytes) : ∃ span ∈ spans, span.1 ≤ a ∧ b ≤ span.2 := by
    apply hrounds.window hoverlap a b hshort
    cases hlast : spans.getLast? with
    | none =>
      rw [hnone.mp (List.getLast?_eq_none_iff.mp hlast), utf8_nil, List.length_nil] at hb
      omega
    | some span => exact ⟨span, rfl, hb.trans (hend span hlast).ge⟩
  refine ⟨spans, next, hrounds, hleft, ?_, hwindow, ?_⟩
  · intro containers database fuel hfuel
    obtain ⟨more, rfl⟩ := Nat.exists_eq_add_of_le hfuel
    rw [writeChunks_rounds hs hrounds containers more]
    cases next with
    | none => rfl
    | some start =>
      have hover := hleft start rfl
      show writer.writeChunks (utf8 s) containers more start spans.length _ = _
      cases more with
      | zero => rw [writeChunks, if_neg (Nat.not_lt.mpr hover)]
      | succ more => rw [writeChunks, if_neg (Nat.not_lt.mpr hover)]
  · intro before passage after htext hne hshort
    have hpos : 0 < (utf8 passage).length :=
      List.length_pos_iff.mpr fun h => hne ((utf8_eq_nil_iff passage).mp h)
    have hlength : (utf8 (before++passage)).length = (utf8 before).length+(utf8 passage).length := by
      rw [utf8_append, List.length_append]
    have hinside := utf8_prefix_length (s := s) (t := before++passage) ⟨after, htext.symm⟩
    obtain ⟨span, hspan, hstart, hstop⟩ := hwindow (utf8 before).length
      (utf8 (before++passage)).length (by omega) hinside (by omega)
    exact passage_indexed (rounds_inv hrounds).1 hs hspan before passage after htext hstart hstop

/-- The shipped sizes keep a passage that the end of the first chunk cuts. -/
theorem default_keeps_windows : 2*default.overlapBytes+8 ≤ default.chunkBytes
    ∧ Encodable default.wideText ∧ default.chunkEnd (utf8 default.wideText) 0 = 3001
    ∧ ∃ spans next, Rounds default (utf8 default.wideText) spans next
      ∧ LoopLeft (utf8 default.wideText) next
      ∧ ∃ row ∈ chunkTextsFrom (utf8 default.wideText) 0 spans, ofString "\na" <:+: row.2 := by
  have hoverlap : 2*default.overlapBytes+8 ≤ default.chunkBytes := by decide
  have hs := encodable_wideText default
  have htext : default.wideText
      = (0x10000 :: List.replicate 2996 97)++ofString "\na"++List.replicate 5999 97 := by
    rw [List.append_assoc]
    rfl
  obtain ⟨spans, next, hrounds, hleft, _, _, hpassage⟩ :=
    overlap_keeps_windows default hoverlap default.wideText hs
  exact ⟨hoverlap, hs, chunkEnd_wideText default, spans, next, hrounds, hleft,
    hpassage _ _ _ htext (by decide) (by decide)⟩

end ArtifactWriter

end ConferWorker
