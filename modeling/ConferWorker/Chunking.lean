import ConferWorker.ArtifactWriter
import ConferWorker.Utf8Boundaries

/-! The chunk loop of the writer: where the chunks of a text lie, and that the
loop comes to the end of every text when the overlap is less than half a chunk. -/
namespace ConferWorker

namespace ArtifactWriter

theorem rfindByte_eq_some {data : Bytes} {byte : UInt8} {low high found : ℕ}
    (h : rfindByte data byte low high = some found) :
    low ≤ found ∧ found < high ∧ data[found]? = some byte := by
  induction high with
  | zero => simp [rfindByte] at h
  | succ high ih =>
    rw [rfindByte] at h
    split_ifs at h with hlow hbyte
    · obtain rfl : high = found := by simpa using h
      exact ⟨by omega, by omega, hbyte⟩
    · obtain ⟨hle, hlt, hfound⟩ := ih h
      exact ⟨hle, by omega, hfound⟩

theorem utf8Boundary_le (data : Bytes) (offset : ℕ) : utf8Boundary data offset ≤ offset := by
  induction offset with
  | zero => exact le_refl 0
  | succ offset ih =>
    rw [utf8Boundary]
    split_ifs <;> omega

/-- `_utf8_boundary` goes back to the start of the character. -/
theorem utf8Boundary_boundary (s : Str) (offset : ℕ) (h : offset ≤ (utf8 s).length) :
    IsBoundary s (utf8Boundary (utf8 s) offset) := by
  induction offset with
  | zero => exact isBoundary_zero s
  | succ offset ih =>
    rw [utf8Boundary]
    split_ifs with hbyte
    · exact ih (by omega)
    · rcases Nat.lt_or_eq_of_le h with hlt | heq
      · rw [isBoundary_iff_byte s _ hlt]
        simpa [List.getElem?_eq_getElem hlt] using hbyte
      · rw [heq]
        exact isBoundary_length s

theorem utf8Boundary_maximal (s : Str) (offset near : ℕ) (h : offset ≤ (utf8 s).length)
    (hnear : IsBoundary s near) (hle : near ≤ offset) : near ≤ utf8Boundary (utf8 s) offset := by
  induction offset with
  | zero => exact hle
  | succ offset ih =>
    rw [utf8Boundary]
    split_ifs with hbyte
    · apply ih (by omega)
      by_contra hgt
      obtain rfl : near = offset+1 := by omega
      have hlt : offset+1 < (utf8 s).length := by
        by_contra hge
        rw [List.getElem?_eq_none (by omega)] at hbyte
        simp at hbyte
      rw [isBoundary_iff_byte s _ hlt] at hnear
      rw [List.getElem?_eq_getElem hlt, Option.any_some, hnear] at hbyte
      cases hbyte
    · exact hle

/-- `_utf8_boundary` goes back at most three bytes. -/
theorem lt_utf8Boundary_add (s : Str) (offset : ℕ) (h : offset ≤ (utf8 s).length) :
    offset < utf8Boundary (utf8 s) offset+4 := by
  obtain ⟨near, hnear, hle, hlt⟩ := exists_boundary_near s offset h
  have hmaximal := utf8Boundary_maximal s offset near h hnear hle
  omega

/-- What the loop needs of the end of a chunk. -/
structure ChunkEnd (writer : ArtifactWriter) (s : Str) (start stop : ℕ) : Prop where
  boundary : IsBoundary s stop
  limit : stop ≤ start+writer.chunkBytes
  advance : stop = (utf8 s).length ∨ start+writer.chunkBytes/2 < stop

/-- A chunk that is cut after a line feed or a space. -/
theorem chunkEnd_after (writer : ArtifactWriter) (s : Str) (start found : ℕ) (byte : UInt8)
    (hbyte : byte.toNat < 0x80)
    (h : rfindByte (utf8 s) byte (start+writer.chunkBytes/2) (start+writer.chunkBytes)
      = some found) : ChunkEnd writer s start (found+1) := by
  obtain ⟨hlow, hhigh, hfound⟩ := rfindByte_eq_some h
  obtain ⟨hlt, hget⟩ := List.getElem?_eq_some_iff.mp hfound
  exact ⟨isBoundary_succ s found hlt (by rw [hget]; exact hbyte), by omega, Or.inr (by omega)⟩

theorem chunkEnd_spec (writer : ArtifactWriter) (s : Str) (start : ℕ) :
    ChunkEnd writer s start (writer.chunkEnd (utf8 s) start) := by
  have hminimum := writer.chunk_minimum
  rcases Nat.lt_or_ge (start+writer.chunkBytes) (utf8 s).length with hhard | hhard
  · have hmin : min (utf8 s).length (start+writer.chunkBytes) = start+writer.chunkBytes :=
      Nat.min_eq_right hhard.le
    have hlow : min (start+writer.chunkBytes) (start+writer.chunkBytes/2)
        = start+writer.chunkBytes/2 := by omega
    have hcut : ChunkEnd writer s start (utf8Boundary (utf8 s) (start+writer.chunkBytes)) := by
      have hle := utf8Boundary_le (utf8 s) (start+writer.chunkBytes)
      have hnear := lt_utf8Boundary_add s (start+writer.chunkBytes) hhard.le
      exact ⟨utf8Boundary_boundary s _ hhard.le, hle, Or.inr (by omega)⟩
    have hspace : ChunkEnd writer s start (chunkEnd.spaceEnd (utf8 s) start
        (start+writer.chunkBytes/2) (start+writer.chunkBytes)) := by
      unfold chunkEnd.spaceEnd
      split
      · rename_i space hfound
        split_ifs
        · exact chunkEnd_after writer s start space 32 (by decide) hfound
        · exact hcut
      · exact hcut
    unfold chunkEnd
    dsimp only
    rw [hmin, if_neg (by omega), hlow]
    split
    · rename_i newline hfound
      split_ifs
      · exact chunkEnd_after writer s start newline 10 (by decide) hfound
      · exact hspace
    · exact hspace
  · have hmin : min (utf8 s).length (start+writer.chunkBytes) = (utf8 s).length :=
      Nat.min_eq_left hhard
    unfold chunkEnd
    dsimp only
    rw [hmin, if_pos rfl]
    exact ⟨isBoundary_length s, by omega, Or.inl rfl⟩

/-- Where the chunk after one that ends at `stop` starts. -/
def nextStart (writer : ArtifactWriter) (canonical : Bytes) (start stop : ℕ) : ℕ :=
  utf8Boundary canonical (max (start+1) (stop-writer.overlapBytes))

/-- The chunks of a text from `start` on. -/
inductive ChunkSpans (writer : ArtifactWriter) (canonical : Bytes) : ℕ → List (ℕ × ℕ) → Prop
  | done (start : ℕ) (h : canonical.length ≤ start) : ChunkSpans writer canonical start []
  | last (start : ℕ) (h : start < canonical.length)
      (hstop : writer.chunkEnd canonical start = canonical.length) :
      ChunkSpans writer canonical start [(start, canonical.length)]
  | more (start : ℕ) (spans : List (ℕ × ℕ)) (h : start < canonical.length)
      (hstop : writer.chunkEnd canonical start ≠ canonical.length)
      (rest : ChunkSpans writer canonical
        (writer.nextStart canonical start (writer.chunkEnd canonical start)) spans) :
      ChunkSpans writer canonical start ((start, writer.chunkEnd canonical start) :: spans)

theorem ChunkSpans.unique {writer : ArtifactWriter} {canonical : Bytes} {start : ℕ}
    {spans spans' : List (ℕ × ℕ)} (h : ChunkSpans writer canonical start spans)
    (h' : ChunkSpans writer canonical start spans') : spans = spans' := by
  induction h generalizing spans' with
  | done start hstart => cases h' <;> first | rfl | omega
  | last start hstart hstop =>
    cases h' with
    | done _ hdone => omega
    | last => rfl
    | more _ _ _ hmore => exact absurd hstop hmore
  | more start spans hstart hstop rest ih =>
    cases h' with
    | done _ hdone => omega
    | last _ _ hlast => exact absurd hlast hstop
    | more _ spans' _ _ rest' => rw [ih rest']

/-- The rows of the chunks table. -/
def chunkRowsFrom (containers : List ContainerRange) (ordinal : ℕ) (spans : List (ℕ × ℕ)) :
    List ChunkRow :=
  (spans.zipIdx ordinal).map (fun entry => chunkRow entry.2 entry.1.1 entry.1.2
    (chunkContainers containers entry.1.1 entry.1.2))

/-- The rows of the full-text index. -/
def chunkTextsFrom (canonical : Bytes) (ordinal : ℕ) (spans : List (ℕ × ℕ)) : List (ℕ × Str) :=
  (spans.zipIdx ordinal).map (fun entry =>
    (entry.2+1, (decodeUtf8 (slice canonical entry.1.1 entry.1.2)).getD []))

/-- The chunk loop stores the chunks of the text. -/
theorem writeChunks_ok {writer : ArtifactWriter} {canonical : Bytes}
    {containers : List ContainerRange} {fuel start ordinal : ℕ} {database database' : Database}
    (h : writer.writeChunks canonical containers fuel start ordinal database
      = some (.ok database')) :
    ∃ spans, ChunkSpans writer canonical start spans ∧
      database' = database.insertChunks (chunkRowsFrom containers ordinal spans)
        (chunkTextsFrom canonical ordinal spans) := by
  induction fuel generalizing start ordinal database with
  | zero =>
    rw [writeChunks] at h
    split_ifs at h with hstart
    obtain rfl : database = database' := by simpa using h
    exact ⟨[], .done start (by omega), (database.insertChunks_nil).symm⟩
  | succ fuel ih =>
    rw [writeChunks] at h
    by_cases hstart : start < canonical.length
    · rw [if_pos hstart] at h
      dsimp only at h
      split at h
      · simp at h
      · rename_i text htext
        rw [decodeText_eq_ok, ← decodeUtf8_eq_some_iff] at htext
        by_cases hend : writer.chunkEnd canonical start = canonical.length
        · rw [if_pos hend, Option.some.injEq, Except.ok.injEq] at h
          refine ⟨_, .last start hstart hend, ?_⟩
          rw [← h]
          simp [chunkRowsFrom, chunkTextsFrom, ← hend, htext]
        · rw [if_neg hend] at h
          obtain ⟨spans, hspans, rfl⟩ := ih h
          refine ⟨_, .more start spans hstart hend hspans, ?_⟩
          rw [Database.insertChunks_insertChunks]
          simp [chunkRowsFrom, chunkTextsFrom, htext]
    · rw [if_neg hstart, Option.some.injEq, Except.ok.injEq] at h
      subst h
      exact ⟨[], .done start (by omega), (database.insertChunks_nil).symm⟩

theorem nextStart_boundary {writer : ArtifactWriter} {s : Str} {start stop : ℕ}
    (h : start < (utf8 s).length) (hstop : stop ≤ (utf8 s).length) :
    IsBoundary s (writer.nextStart (utf8 s) start stop) :=
  utf8Boundary_boundary s _ (by omega)

/-- A loop that always goes forward cuts the text into finitely many chunks. `Reached` may
say what is known of the offsets at which the loop begins a chunk. -/
theorem exists_chunkSpans {writer : ArtifactWriter} {canonical : Bytes} (Reached : ℕ → Prop)
    (hstep : ∀ start, Reached start → start < canonical.length →
      writer.chunkEnd canonical start ≠ canonical.length →
      Reached (writer.nextStart canonical start (writer.chunkEnd canonical start)) ∧
        start < writer.nextStart canonical start (writer.chunkEnd canonical start))
    (start : ℕ) (h : Reached start) : ∃ spans, ChunkSpans writer canonical start spans := by
  -- The measure is the number of bytes that are left.
  induction hleft : canonical.length-start using Nat.strong_induction_on generalizing start with
  | _ left ih =>
    by_cases hstart : start < canonical.length
    · by_cases hstop : writer.chunkEnd canonical start = canonical.length
      · exact ⟨_, .last start hstart hstop⟩
      · obtain ⟨hreached, hlt⟩ := hstep start h hstart hstop
        obtain ⟨spans, hspans⟩ := ih _ (by omega) _ hreached rfl
        exact ⟨_, .more start spans hstart hstop hspans⟩
    · exact ⟨[], .done start (by omega)⟩

/-- A chunk that begins at a boundary is a text again. -/
theorem decodeText_chunk (writer : ArtifactWriter) {s : Str} {start : ℕ} (hs : Encodable s)
    (hstart : IsBoundary s start) :
    ∃ text, decodeText (slice (utf8 s) start (writer.chunkEnd (utf8 s) start)) = .ok text := by
  obtain ⟨i, j, hslice⟩ := hstart.slice (chunkEnd_spec writer s start).boundary
  refine ⟨(s.take j).drop i, ?_⟩
  rw [decodeText_eq_ok, hslice]
  exact ⟨encodable_slice hs i j, rfl⟩

/-- A loop over finitely many chunks returns after as many rounds. -/
theorem ChunkSpans.returns {writer : ArtifactWriter} {s : Str} {start : ℕ}
    {spans : List (ℕ × ℕ)} (h : ChunkSpans writer (utf8 s) start spans) (hs : Encodable s)
    (hstart : IsBoundary s start) (containers : List ContainerRange) (fuel ordinal : ℕ)
    (database : Database) (hfuel : spans.length ≤ fuel) :
    ∃ database', writer.writeChunks (utf8 s) containers fuel start ordinal database
      = some (.ok database') := by
  induction h generalizing fuel ordinal database with
  | done start hdone =>
    cases fuel <;>
      exact ⟨database, by rw [writeChunks, if_neg (by omega)]⟩
  | last start hlt hstop =>
    obtain ⟨fuel, rfl⟩ : ∃ rounds, fuel = rounds+1 := ⟨fuel-1, by simp at hfuel; omega⟩
    obtain ⟨text, htext⟩ := decodeText_chunk writer hs hstart
    rw [writeChunks, if_pos hlt]
    simp only [htext, if_pos hstop]
    exact ⟨_, rfl⟩
  | more start spans hlt hstop rest ih =>
    obtain ⟨fuel, rfl⟩ : ∃ rounds, fuel = rounds+1 := ⟨fuel-1, by simp at hfuel; omega⟩
    obtain ⟨text, htext⟩ := decodeText_chunk writer hs hstart
    rw [writeChunks, if_pos hlt]
    simp only [htext, if_neg hstop]
    exact ih (nextStart_boundary hlt (chunkEnd_spec writer s start).boundary.le) _ _ _
      (by simpa using hfuel)

section Progress

variable {writer : ArtifactWriter} {s : Str}

/-- With an overlap of less than half a chunk every chunk starts after the one before. -/
theorem lt_nextStart (hoverlap : 2*writer.overlapBytes+8 ≤ writer.chunkBytes) {start : ℕ}
    (h : start < (utf8 s).length)
    (hstop : writer.chunkEnd (utf8 s) start ≠ (utf8 s).length) :
    start < writer.nextStart (utf8 s) start (writer.chunkEnd (utf8 s) start) := by
  have hspec := chunkEnd_spec writer s start
  have hadvance := hspec.advance.resolve_left hstop
  have hle := hspec.boundary.le
  have hnear := lt_utf8Boundary_add s
    (max (start+1) (writer.chunkEnd (utf8 s) start-writer.overlapBytes)) (by omega)
  unfold nextStart
  omega

/-- There are no more chunks than bytes, and none is longer than a chunk may be. -/
theorem ChunkSpans.bounds (hoverlap : 2*writer.overlapBytes+8 ≤ writer.chunkBytes) {start : ℕ}
    {spans : List (ℕ × ℕ)} (h : ChunkSpans writer (utf8 s) start spans) :
    spans.length ≤ (utf8 s).length-start ∧
      ∀ span ∈ spans, span.2 ≤ span.1+writer.chunkBytes := by
  induction h with
  | done start hdone => exact ⟨by simp, by simp⟩
  | last start hstart hstop =>
    have hlimit := (chunkEnd_spec writer s start).limit
    rw [hstop] at hlimit
    exact ⟨by simp only [List.length_singleton]; omega, by simpa using hlimit⟩
  | more start spans hstart hstop rest ih =>
    have hnext := lt_nextStart hoverlap hstart hstop
    obtain ⟨hlength, hlimits⟩ := ih
    refine ⟨by simp only [List.length_cons]; omega, ?_⟩
    exact List.forall_mem_cons.mpr ⟨(chunkEnd_spec writer s start).limit, hlimits⟩

/-- The chunk loop returns: as many rounds as bytes are left are enough. -/
theorem writeChunks_returns (hoverlap : 2*writer.overlapBytes+8 ≤ writer.chunkBytes)
    (hs : Encodable s) (containers : List ContainerRange) (fuel start ordinal : ℕ)
    (database : Database) (hstart : IsBoundary s start) (hfuel : (utf8 s).length ≤ start+fuel) :
    ∃ database', writer.writeChunks (utf8 s) containers fuel start ordinal database
      = some (.ok database') := by
  obtain ⟨spans, hspans⟩ := exists_chunkSpans (fun _ => True)
    (fun start _ (h : start < (utf8 s).length) hstop =>
      ⟨trivial, lt_nextStart hoverlap h hstop⟩) start trivial
  have hlength := (hspans.bounds hoverlap).1
  exact hspans.returns hs hstart containers fuel ordinal database (by omega)

end Progress

end ArtifactWriter

end ConferWorker
