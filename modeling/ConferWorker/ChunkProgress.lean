import ConferWorker.Chunking

/-! When the chunk loop comes to an end. The next chunk starts behind the start of the last
one exactly when the overlap leaves the first character of that chunk; otherwise
`_utf8_boundary` goes back to where the chunk started, and the loop repeats it for ever. -/
namespace ConferWorker

namespace ArtifactWriter

/-- The offset behind the character that begins at `start`. -/
def firstCharacterEnd (canonical : Bytes) (start : ℕ) : ℕ :=
  start+(utf8Front (canonical.drop start)).2

/-- The chunk that begins at `start` is the last one, or the first character of it lies
before the offset at which the next one is to begin. -/
def ClearsFirstCharacter (writer : ArtifactWriter) (canonical : Bytes) (start : ℕ) : Prop :=
  writer.chunkEnd canonical start = canonical.length ∨
    firstCharacterEnd canonical start
      ≤ max (start+1) (writer.chunkEnd canonical start-writer.overlapBytes)

instance (writer : ArtifactWriter) (canonical : Bytes) (start : ℕ) :
    Decidable (writer.ClearsFirstCharacter canonical start) :=
  inferInstanceAs (Decidable (_ ∨ _))

/-- The offsets at which the loop begins a chunk. -/
inductive ChunkStart (writer : ArtifactWriter) (canonical : Bytes) : ℕ → Prop
  | first (h : canonical ≠ []) : ChunkStart writer canonical 0
  | next (start : ℕ) (h : ChunkStart writer canonical start)
      (hstop : writer.chunkEnd canonical start ≠ canonical.length) :
      ChunkStart writer canonical
        (writer.nextStart canonical start (writer.chunkEnd canonical start))

section Characters

variable {s : Str} {start : ℕ}

/-- The character that begins at a boundary. -/
theorem firstCharacterEnd_eq (hs : Encodable s) (hstart : IsBoundary s start)
    (h : start < (utf8 s).length) : ∃ i, start = (utf8 (s.take i)).length ∧ i < s.length ∧
      firstCharacterEnd (utf8 s) start = (utf8 (s.take (i+1))).length := by
  obtain ⟨i, rfl⟩ := hstart
  have hi : i < s.length := by
    by_contra hge
    rw [List.take_of_length_le (by omega)] at h
    exact absurd h (lt_irrefl _)
  refine ⟨i, rfl, hi, ?_⟩
  have hsplit : s = s.take i++s[i] :: s.drop (i+1) := by
    rw [← List.drop_eq_getElem_cons hi, List.take_append_drop]
  have hdrop : (utf8 s).drop (utf8 (s.take i)).length
      = utf8Bytes s[i]++utf8 (s.drop (i+1)) := by
    conv_lhs => rw [hsplit]
    rw [utf8_append, utf8_cons]
    exact List.drop_left' (by rw [← hsplit])
  have hencodable : isSurrogate s[i] = false := hs s[i] (List.getElem_mem hi)
  rw [firstCharacterEnd, hdrop, utf8Front_append _ hencodable, List.take_succ_eq_append_getElem hi,
    utf8_append, List.length_append, utf8_cons, utf8_nil, List.append_nil]

/-- No boundary lies inside the first character. -/
theorem firstCharacterEnd_le (hs : Encodable s) (hstart : IsBoundary s start)
    (h : start < (utf8 s).length) : IsBoundary s (firstCharacterEnd (utf8 s) start) ∧
      start < firstCharacterEnd (utf8 s) start ∧
      ∀ offset, IsBoundary s offset → start < offset →
        firstCharacterEnd (utf8 s) start ≤ offset := by
  obtain ⟨i, rfl, hi, heq⟩ := firstCharacterEnd_eq hs hstart h
  have htake : utf8 (s.take (i+1)) = utf8 (s.take i)++utf8Bytes s[i] := by
    rw [List.take_succ_eq_append_getElem hi, utf8_append, utf8_cons, utf8_nil, List.append_nil]
  have hpos := utf8Bytes_length_pos s[i]
  refine ⟨⟨i+1, heq⟩, ?_, ?_⟩
  · rw [heq, htake, List.length_append]
    omega
  · intro offset hoffset hlt
    obtain ⟨j, rfl⟩ := hoffset
    rw [heq]
    have hij : i < j := by
      by_contra hge
      have hfront : utf8 (s.take i) = utf8 (s.take j)++utf8 ((s.take i).drop j) := by
        rw [← utf8_append]
        congr 1
        have hmin : s.take j = (s.take i).take j := by
          rw [List.take_take, Nat.min_eq_left (by omega)]
        rw [hmin, List.take_append_drop]
      rw [hfront, List.length_append] at hlt
      omega
    have hfront : utf8 (s.take j) = utf8 (s.take (i+1))++utf8 ((s.take j).drop (i+1)) := by
      rw [← utf8_append]
      congr 1
      have hmin : s.take (i+1) = (s.take j).take (i+1) := by
        rw [List.take_take, Nat.min_eq_left (by omega)]
      rw [hmin, List.take_append_drop]
    rw [hfront, List.length_append]
    omega

end Characters

section Steps

variable {writer : ArtifactWriter} {s : Str} {start : ℕ}

/-- One step of the loop goes forward exactly when it leaves the first character. -/
theorem lt_nextStart_iff (hs : Encodable s) (hstart : IsBoundary s start)
    (h : start < (utf8 s).length)
    (hstop : writer.chunkEnd (utf8 s) start ≠ (utf8 s).length) :
    start < writer.nextStart (utf8 s) start (writer.chunkEnd (utf8 s) start) ↔
      writer.ClearsFirstCharacter (utf8 s) start := by
  obtain ⟨hboundary, hlt, hnone⟩ := firstCharacterEnd_le hs hstart h
  have hspec := chunkEnd_spec writer s start
  have hle : max (start+1) (writer.chunkEnd (utf8 s) start-writer.overlapBytes)
      ≤ (utf8 s).length := by
    have hend := hspec.boundary.le
    omega
  unfold nextStart ClearsFirstCharacter
  constructor
  · intro hnext
    right
    calc firstCharacterEnd (utf8 s) start
        ≤ utf8Boundary (utf8 s) (max (start+1)
            (writer.chunkEnd (utf8 s) start-writer.overlapBytes)) :=
          hnone _ (utf8Boundary_boundary s _ hle) hnext
      _ ≤ max (start+1) (writer.chunkEnd (utf8 s) start-writer.overlapBytes) :=
          utf8Boundary_le _ _
  · intro hclears
    have hclears := hclears.resolve_left hstop
    calc start < firstCharacterEnd (utf8 s) start := hlt
      _ ≤ _ := utf8Boundary_maximal s _ _ hle hboundary hclears

/-- A step that does not go forward stays where it is. -/
theorem nextStart_stuck (hs : Encodable s) (hstart : IsBoundary s start)
    (h : start < (utf8 s).length)
    (hstuck : ¬writer.ClearsFirstCharacter (utf8 s) start) :
    writer.nextStart (utf8 s) start (writer.chunkEnd (utf8 s) start) = start := by
  have hstop : writer.chunkEnd (utf8 s) start ≠ (utf8 s).length := fun heq => hstuck (Or.inl heq)
  have hle : writer.nextStart (utf8 s) start (writer.chunkEnd (utf8 s) start) ≤ start := by
    rw [← lt_nextStart_iff hs hstart h hstop] at hstuck
    omega
  have hge : start ≤ writer.nextStart (utf8 s) start (writer.chunkEnd (utf8 s) start) := by
    have hend := (chunkEnd_spec writer s start).boundary.le
    exact utf8Boundary_maximal s _ start (by omega) hstart (by omega)
  omega

/-- The loop only begins chunks inside the text, at the start of a character. -/
theorem ChunkStart.inside (h : ChunkStart writer (utf8 s) start) :
    IsBoundary s start ∧ start < (utf8 s).length := by
  induction h with
  | first h => exact ⟨isBoundary_zero s, List.length_pos_iff.mpr h⟩
  | next start _ hstop ih =>
    have hend := (chunkEnd_spec writer s start).boundary.le
    refine ⟨nextStart_boundary ih.2 hend, ?_⟩
    have hle := utf8Boundary_le (utf8 s)
      (max (start+1) (writer.chunkEnd (utf8 s) start-writer.overlapBytes))
    have hadvance := (chunkEnd_spec writer s start).advance.resolve_left hstop
    have hsmaller := writer.chunk_minimum
    unfold nextStart
    omega

/-- The loop is at the start of a chunk in finitely many rounds, or never comes to an end. -/
theorem ChunkStart.spans {canonical : Bytes} {spans : List (ℕ × ℕ)}
    (h : ChunkStart writer canonical start) (hspans : ChunkSpans writer canonical 0 spans) :
    ∃ rest, ChunkSpans writer canonical start rest := by
  induction h with
  | first => exact ⟨spans, hspans⟩
  | next start _ hstop ih =>
    obtain ⟨rest, hrest⟩ := ih
    cases hrest with
    | done _ hdone =>
      -- Behind the end of the text a chunk would end there too.
      refine absurd ?_ hstop
      unfold chunkEnd
      dsimp only
      rw [Nat.min_eq_left (by omega), if_pos rfl]
    | last _ _ hlast => exact absurd hlast hstop
    | more _ rest _ _ hmore => exact ⟨rest, hmore⟩

/-- A chunk that is repeated is repeated for ever. -/
theorem ChunkSpans.not_stuck {canonical : Bytes} {spans : List (ℕ × ℕ)}
    (h : ChunkSpans writer canonical start spans) (hlt : start < canonical.length)
    (hstop : writer.chunkEnd canonical start ≠ canonical.length) :
    writer.nextStart canonical start (writer.chunkEnd canonical start) ≠ start := by
  induction h with
  | done start hdone => omega
  | last start _ hlast => exact absurd hlast hstop
  | more start spans _ _ rest ih =>
    intro hstuck
    rw [hstuck] at ih
    exact ih hlt hstop hstuck

end Steps

/-- The loop of `_write_chunks` comes to an end. -/
def LoopReturns (writer : ArtifactWriter) (canonical : Bytes) : Prop :=
  ∀ containers database, ∃ fuel result,
    writer.writeChunks canonical containers fuel 0 0 database = some result

/-- A chunk that does not reach the end of the text is followed by one that starts later. -/
def ChunksAdvance (writer : ArtifactWriter) (canonical : Bytes) : Prop :=
  ∀ start, ChunkStart writer canonical start →
    writer.chunkEnd canonical start ≠ canonical.length →
    start < writer.nextStart canonical start (writer.chunkEnd canonical start)

section Loop

variable {writer : ArtifactWriter} {s : Str}

/-- A loop that returns has cut the text into finitely many chunks. -/
theorem writeChunks_spans (hs : Encodable s) {containers : List ContainerRange}
    {fuel start ordinal : ℕ} {database : Database} {result : Except PythonError Database}
    (hstart : IsBoundary s start)
    (h : writer.writeChunks (utf8 s) containers fuel start ordinal database = some result) :
    ∃ spans, ChunkSpans writer (utf8 s) start spans := by
  induction fuel generalizing start ordinal database with
  | zero =>
    rw [writeChunks] at h
    split_ifs at h with hlt
    exact ⟨[], .done start (by omega)⟩
  | succ fuel ih =>
    by_cases hlt : start < (utf8 s).length
    · by_cases hstop : writer.chunkEnd (utf8 s) start = (utf8 s).length
      · exact ⟨_, .last start hlt hstop⟩
      · obtain ⟨text, htext⟩ := decodeText_chunk writer hs hstart
        rw [writeChunks, if_pos hlt] at h
        simp only [htext, if_neg hstop] at h
        obtain ⟨spans, hspans⟩ :=
          ih (nextStart_boundary hlt (chunkEnd_spec writer s start).boundary.le) h
        exact ⟨_, .more start spans hlt hstop hspans⟩
    · exact ⟨[], .done start (by omega)⟩

theorem chunksAdvance_iff (hs : Encodable s) : writer.ChunksAdvance (utf8 s) ↔
    ∀ start, ChunkStart writer (utf8 s) start → writer.ClearsFirstCharacter (utf8 s) start := by
  refine forall_congr' fun start => forall_congr' fun h => ?_
  obtain ⟨hboundary, hlt⟩ := h.inside
  constructor
  · intro hadvance
    by_cases hstop : writer.chunkEnd (utf8 s) start = (utf8 s).length
    · exact Or.inl hstop
    · exact (lt_nextStart_iff hs hboundary hlt hstop).mp (hadvance hstop)
  · intro hclears hstop
    exact (lt_nextStart_iff hs hboundary hlt hstop).mpr hclears

/-- The loop comes to an end exactly when every chunk that is not the last is left. -/
theorem loopReturns_iff (hs : Encodable s) :
    writer.LoopReturns (utf8 s) ↔ writer.ChunksAdvance (utf8 s) := by
  constructor
  · intro hreturns
    rw [chunksAdvance_iff hs]
    intro start h
    by_contra hstuck
    obtain ⟨hboundary, hlt⟩ := h.inside
    obtain ⟨fuel, result, hresult⟩ := hreturns [] createSchema
    obtain ⟨spans, hspans⟩ := writeChunks_spans hs (isBoundary_zero s) hresult
    obtain ⟨rest, hrest⟩ := h.spans hspans
    exact hrest.not_stuck hlt (fun heq => hstuck (Or.inl heq))
      (nextStart_stuck hs hboundary hlt hstuck)
  · intro hadvance containers database
    by_cases hempty : utf8 s = []
    · exact ⟨0, .ok database, by rw [writeChunks, hempty, if_neg (by simp)]⟩
    · have hstep : ∀ start, ChunkStart writer (utf8 s) start → start < (utf8 s).length →
          writer.chunkEnd (utf8 s) start ≠ (utf8 s).length →
          ChunkStart writer (utf8 s)
              (writer.nextStart (utf8 s) start (writer.chunkEnd (utf8 s) start)) ∧
            start < writer.nextStart (utf8 s) start (writer.chunkEnd (utf8 s) start) :=
        fun start h _ hstop => ⟨.next start h hstop, hadvance start h hstop⟩
      obtain ⟨spans, hspans⟩ := exists_chunkSpans _ hstep 0 (.first hempty)
      obtain ⟨database', hdatabase⟩ := hspans.returns hs (isBoundary_zero s) containers
        spans.length 0 database le_rfl
      exact ⟨spans.length, .ok database', hdatabase⟩

end Loop

section Parameters

variable {writer : ArtifactWriter} {s : Str} {start : ℕ}

/-- An overlap that leaves four bytes of the shortest chunk leaves its first character. -/
theorem clearsFirstCharacter_of_overlap (hs : Encodable s)
    (hoverlap : writer.overlapBytes+3 ≤ writer.chunkBytes/2)
    (h : ChunkStart writer (utf8 s) start) : writer.ClearsFirstCharacter (utf8 s) start := by
  obtain ⟨hboundary, hlt⟩ := h.inside
  obtain ⟨i, hi, hlength, heq⟩ := firstCharacterEnd_eq hs hboundary hlt
  have hwidth := utf8Bytes_length_le s[i]
  rcases (chunkEnd_spec writer s start).advance with hend | hadvance
  · exact Or.inl hend
  · right
    calc firstCharacterEnd (utf8 s) start = start+(utf8Bytes s[i]).length := by
          rw [heq, hi, List.take_succ_eq_append_getElem hlength, utf8_append, utf8_cons,
            utf8_nil, List.append_nil, List.length_append]
      _ ≤ start+4 := by omega
      _ ≤ writer.chunkEnd (utf8 s) start-writer.overlapBytes := by omega
      _ ≤ _ := le_max_right _ _

/-- A chunk that begins with a character of four bytes and is cut behind the line feed in
its middle, with more text than a chunk holds behind it. -/
def wideText (writer : ArtifactWriter) : Str :=
  (0x10000 :: List.replicate (writer.chunkBytes/2-4) 97)++10 :: List.replicate writer.chunkBytes 97

theorem encodable_wideText (writer : ArtifactWriter) : Encodable writer.wideText := by
  intro c hc
  simp only [wideText, List.mem_append, List.mem_cons, List.mem_replicate] at hc
  rcases hc with (rfl | ⟨_, rfl⟩) | rfl | ⟨_, rfl⟩ <;> decide

theorem utf8_replicate (n : ℕ) : utf8 (List.replicate n 97) = List.replicate n 97 := by
  induction n with
  | zero => rfl
  | succ n ih => rw [List.replicate_succ, utf8_cons, ih]; rfl

theorem utf8_wideText (writer : ArtifactWriter) : utf8 writer.wideText =
    ([0xF0, 0x90, 0x80, 0x80]++List.replicate (writer.chunkBytes/2-4) 97)
      ++10 :: List.replicate writer.chunkBytes 97 := by
  rw [wideText, utf8_append, utf8_cons, utf8_cons, utf8_replicate, utf8_replicate]
  rfl

theorem rfindByte_last {data : Bytes} {byte : UInt8} {low high found : ℕ} (hlow : low ≤ found)
    (hhigh : found < high) (hfound : data[found]? = some byte)
    (hafter : ∀ i, found < i → i < high → data[i]? ≠ some byte) :
    rfindByte data byte low high = some found := by
  induction high with
  | zero => omega
  | succ high ih =>
    rw [rfindByte, if_neg (by omega)]
    rcases Nat.lt_or_eq_of_le (Nat.le_of_lt_succ hhigh) with hlt | rfl
    · rw [if_neg (hafter high hlt (by omega))]
      exact ih hlt fun i hi hihigh => hafter i hi (by omega)
    · rw [if_pos hfound]

theorem chunkEnd_wideText (writer : ArtifactWriter) :
    writer.chunkEnd (utf8 writer.wideText) 0 = writer.chunkBytes/2+1 := by
  have hminimum := writer.chunk_minimum
  have hfront : ([0xF0, 0x90, 0x80, 0x80]++List.replicate (writer.chunkBytes/2-4) 97 :
      Bytes).length = writer.chunkBytes/2 := by
    rw [List.length_append, List.length_replicate]
    simp only [List.length_cons, List.length_nil]
    omega
  rw [utf8_wideText]
  generalize hfrontEq : ([0xF0, 0x90, 0x80, 0x80]++List.replicate (writer.chunkBytes/2-4) 97 :
      Bytes) = front at hfront
  have hlength : (front++10 :: List.replicate writer.chunkBytes 97).length
      = writer.chunkBytes/2+1+writer.chunkBytes := by
    rw [List.length_append, List.length_cons, List.length_replicate, hfront]
    omega
  have hnewline : rfindByte (front++10 :: List.replicate writer.chunkBytes 97) 10
      (writer.chunkBytes/2) writer.chunkBytes = some (writer.chunkBytes/2) := by
    refine rfindByte_last le_rfl (by omega) ?_ ?_
    · rw [List.getElem?_append_right (by omega), hfront, Nat.sub_self]
      rfl
    · intro i hi hhigh
      obtain ⟨k, rfl⟩ : ∃ k, i = front.length+(k+1) := ⟨i-front.length-1, by omega⟩
      rw [List.getElem?_append_right (by omega), Nat.add_sub_cancel_left,
        List.getElem?_cons_succ, List.getElem?_replicate_of_lt (by omega)]
      decide
  unfold chunkEnd
  dsimp only
  rw [hlength, Nat.zero_add, Nat.zero_add, Nat.min_eq_right (by omega), if_neg (by omega),
    Nat.min_eq_right (by omega), hnewline]
  exact if_pos (by omega)

/-- A longer overlap makes the loop repeat the first chunk of some text. -/
theorem wideText_stuck (writer : ArtifactWriter)
    (h : writer.chunkBytes/2 < writer.overlapBytes+3) :
    ChunkStart writer (utf8 writer.wideText) 0 ∧
      ¬writer.ClearsFirstCharacter (utf8 writer.wideText) 0 := by
  have hminimum := writer.chunk_minimum
  have hlength : (utf8 writer.wideText).length = writer.chunkBytes/2+1+writer.chunkBytes := by
    rw [utf8_wideText]
    simp only [List.length_append, List.length_cons, List.length_replicate, List.length_nil]
    omega
  have hwidth : firstCharacterEnd (utf8 writer.wideText) 0 = 4 := by
    rw [utf8_wideText]
    rfl
  refine ⟨.first (List.ne_nil_of_length_pos (by omega)), ?_⟩
  rintro (hend | hclears)
  · rw [chunkEnd_wideText] at hend
    omega
  · rw [chunkEnd_wideText, hwidth] at hclears
    omega

end Parameters

/-- The chunk loop comes to an end, and always goes forward, exactly on the texts in which
every chunk but the last leaves its first character; it does so on every text exactly when
the overlap leaves four bytes of every chunk. -/
theorem chunk_loop_terminates_iff (writer : ArtifactWriter) :
    (∀ s, Encodable s →
      (writer.LoopReturns (utf8 s) ∧ writer.ChunksAdvance (utf8 s) ↔
        ∀ start, ChunkStart writer (utf8 s) start →
          writer.ClearsFirstCharacter (utf8 s) start)) ∧
    ((∀ s, Encodable s → writer.LoopReturns (utf8 s) ∧ writer.ChunksAdvance (utf8 s)) ↔
      writer.overlapBytes+3 ≤ writer.chunkBytes/2) := by
  have htext : ∀ s, Encodable s →
      (writer.LoopReturns (utf8 s) ∧ writer.ChunksAdvance (utf8 s) ↔
        ∀ start, ChunkStart writer (utf8 s) start →
          writer.ClearsFirstCharacter (utf8 s) start) := by
    intro s hs
    rw [loopReturns_iff hs, and_self_iff, chunksAdvance_iff hs]
  refine ⟨htext, ?_, ?_⟩
  · intro hall
    by_contra hoverlap
    obtain ⟨hstart, hstuck⟩ := wideText_stuck writer (by omega)
    have hs := encodable_wideText writer
    exact hstuck ((htext _ hs).mp (hall _ hs) 0 hstart)
  · intro hoverlap s hs
    exact (htext s hs).mpr fun start h => clearsFirstCharacter_of_overlap hs hoverlap h

/-- The default chunks and overlap leave every character, also of a text of several chunks. -/
theorem chunk_loop_terminates_default : default.overlapBytes+3 ≤ default.chunkBytes/2 ∧
    default.chunkEnd (utf8 default.wideText) 0 = 3001 ∧
    (utf8 default.wideText).length = 9001 ∧
    default.LoopReturns (utf8 default.wideText) ∧ default.ChunksAdvance (utf8 default.wideText) := by
  have hoverlap : default.overlapBytes+3 ≤ default.chunkBytes/2 := by decide
  have hlength : (utf8 default.wideText).length = 9001 := by
    rw [utf8_wideText]
    simp only [List.length_append, List.length_cons, List.length_replicate, List.length_nil]
    rfl
  exact ⟨hoverlap, chunkEnd_wideText default, hlength,
    (chunk_loop_terminates_iff default).2.mpr hoverlap _ (encodable_wideText default)⟩

/-- A chunk of 256 bytes of two-byte characters with an overlap of 255 bytes. -/
def repeatingWriter : ArtifactWriter := ⟨256, 255, by omega, by omega⟩

def repeatedText : Str := List.replicate 129 0xE9

theorem chunk_loop_repeats : Encodable repeatedText ∧
    ¬repeatingWriter.LoopReturns (utf8 repeatedText) ∧
    ¬repeatingWriter.ChunksAdvance (utf8 repeatedText) := by
  have hs : Encodable repeatedText := fun c hc => by
    rw [List.eq_of_mem_replicate hc]
    decide
  have hstart : ChunkStart repeatingWriter (utf8 repeatedText) 0 :=
    .first ((utf8_eq_nil_iff repeatedText).not.mpr (by decide))
  have hstuck : ¬repeatingWriter.ClearsFirstCharacter (utf8 repeatedText) 0 := by decide +kernel
  rw [loopReturns_iff hs, chunksAdvance_iff hs, and_self_iff]
  exact ⟨hs, fun hclears => hstuck (hclears 0 hstart)⟩

end ArtifactWriter

end ConferWorker
