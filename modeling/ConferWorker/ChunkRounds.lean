import ConferWorker.ChunkEnds
import ConferWorker.ChunkProgress

/-! The rounds of the chunk loop, whether it comes to an end or not: what has been written after
each of them, and where the chunks of a text lie. -/
namespace ConferWorker

namespace ArtifactWriter

/-- The spans that some rounds of the loop have emitted, and the offset at which the next round
begins; `none` when the loop was left at the end of the text. -/
inductive Rounds (writer : ArtifactWriter) (canonical : Bytes) :
    List (ℕ × ℕ) → Option ℕ → Prop
  | start : Rounds writer canonical [] (some 0)
  | more (spans : List (ℕ × ℕ)) (start : ℕ) (h : Rounds writer canonical spans (some start))
      (hstart : start < canonical.length)
      (hstop : writer.chunkEnd canonical start ≠ canonical.length) :
      Rounds writer canonical (spans++[(start, writer.chunkEnd canonical start)])
        (some (writer.nextStart canonical start (writer.chunkEnd canonical start)))
  | last (spans : List (ℕ × ℕ)) (start : ℕ) (h : Rounds writer canonical spans (some start))
      (hstart : start < canonical.length)
      (hstop : writer.chunkEnd canonical start = canonical.length) :
      Rounds writer canonical (spans++[(start, writer.chunkEnd canonical start)]) none

/-- The loop makes no further round. -/
def LoopLeft (canonical : Bytes) (next : Option ℕ) : Prop :=
  ∀ start ∈ next, canonical.length ≤ start

/-- What the loop returns when `fuel` more rounds are allowed after some rounds. -/
def loopFrom (writer : ArtifactWriter) (canonical : Bytes) (containers : List ContainerRange)
    (fuel ordinal : ℕ) (next : Option ℕ) (database : Database) :
    Option (Except PythonError Database) :=
  match next with
  | some start => writer.writeChunks canonical containers fuel start ordinal database
  | none => some (.ok database)

/-- Where the chunks of a text lie. -/
structure ChunkList (writer : ArtifactWriter) (s : Str) (spans : List (ℕ × ℕ)) : Prop where
  first : ∀ span ∈ spans.head?, span.1 = 0
  inside : ∀ span ∈ spans, span.1 < span.2 ∧ span.2 ≤ (utf8 s).length
    ∧ span.2-span.1 ≤ writer.chunkBytes
  boundaries : ∀ span ∈ spans, IsBoundary s span.1 ∧ IsBoundary s span.2
  ordered : spans.IsChain (fun span next =>
    span.1 ≤ next.1 ∧ next.1 ≤ span.2 ∧ span.2 ≤ next.2)

/-- The bytes of each chunk that no chunk before it holds, one after the other. -/
def freshBytes (canonical : Bytes) (covered : ℕ) : List (ℕ × ℕ) → Bytes
  | [] => []
  | span :: spans =>
    slice canonical (max covered span.1) span.2++freshBytes canonical (max covered span.2) spans

section Rounds

variable {writer : ArtifactWriter} {s : Str} {spans : List (ℕ × ℕ)} {next : Option ℕ}

/-- The next round begins at a character, inside the last chunk or at its end. -/
structure NextRound (writer : ArtifactWriter) (s : Str) (spans : List (ℕ × ℕ)) (start : ℕ) :
    Prop where
  boundary : IsBoundary s start
  first : spans = [] → start = 0
  inside : ∀ span ∈ spans.getLast?, span.1 ≤ start ∧ start ≤ span.2
    ∧ span.2 = writer.chunkEnd (utf8 s) span.1

theorem ChunkList.nil : ChunkList writer s [] :=
  ⟨nofun, List.forall_mem_nil _, List.forall_mem_nil _, .nil⟩

/-- One more chunk. -/
theorem ChunkList.append {start : ℕ} (h : ChunkList writer s spans)
    (hnext : NextRound writer s spans start) (hstart : start < (utf8 s).length) :
    ChunkList writer s (spans++[(start, writer.chunkEnd (utf8 s) start)]) := by
  have hspec := chunkEnd_spec writer s start
  have hlt : start < writer.chunkEnd (utf8 s) start := by
    rcases hspec.advance with hend | hadvance
    · omega
    · omega
  refine ⟨?_, ?_, ?_, ?_⟩
  · cases spans with
    | nil =>
      intro span hspan
      obtain rfl := Option.some.inj hspan
      exact hnext.first rfl
    | cons first rest => exact h.first
  · exact List.forall_mem_append.mpr ⟨h.inside, List.forall_mem_singleton.mpr
      ⟨hlt, hspec.boundary.le, Nat.sub_le_iff_le_add'.mpr hspec.limit⟩⟩
  · exact List.forall_mem_append.mpr ⟨h.boundaries,
      List.forall_mem_singleton.mpr ⟨hnext.boundary, hspec.boundary⟩⟩
  · apply List.IsChain.append h.ordered (List.isChain_singleton _)
    intro span hspan other hother
    obtain rfl := Option.some.inj hother
    obtain ⟨hle, hinside, heq⟩ := hnext.inside span hspan
    refine ⟨hle, hinside, ?_⟩
    rw [heq]
    exact chunkEnd_mono writer s hle

/-- The round after a chunk that does not reach the end of the text. -/
theorem NextRound.append {start : ℕ} (hnext : NextRound writer s spans start)
    (hstart : start < (utf8 s).length)
    (hstop : writer.chunkEnd (utf8 s) start ≠ (utf8 s).length) :
    NextRound writer s (spans++[(start, writer.chunkEnd (utf8 s) start)])
      (writer.nextStart (utf8 s) start (writer.chunkEnd (utf8 s) start)) := by
  have hspec := chunkEnd_spec writer s start
  have hadvance := hspec.advance.resolve_left hstop
  refine ⟨nextStart_boundary hstart hspec.boundary.le, ?_, ?_⟩
  · intro hnil
    exact absurd hnil (List.append_ne_nil_of_right_ne_nil _ (List.cons_ne_nil _ _))
  · intro span hspan
    rw [List.getLast?_concat] at hspan
    obtain rfl := Option.some.inj hspan
    refine ⟨?_, ?_, rfl⟩
    · apply utf8Boundary_maximal s _ start _ hnext.boundary (by omega)
      have hend := hspec.boundary.le
      omega
    · apply (utf8Boundary_le _ _).trans
      omega

/-- The invariant of the loop. -/
theorem rounds_inv (h : Rounds writer (utf8 s) spans next) :
    ChunkList writer s spans ∧ (∀ start ∈ next, NextRound writer s spans start)
      ∧ (next = none → ∀ span ∈ spans.getLast?, span.2 = (utf8 s).length) := by
  induction h with
  | start =>
    refine ⟨.nil, ?_, nofun⟩
    intro start hstart
    obtain rfl := Option.some.inj hstart
    exact ⟨isBoundary_zero s, fun _ => rfl, nofun⟩
  | more spans start _ hstart hstop ih =>
    have hnext := ih.2.1 start rfl
    refine ⟨ih.1.append hnext hstart, ?_, nofun⟩
    intro later hlater
    obtain rfl := Option.some.inj hlater
    exact hnext.append hstart hstop
  | last spans start _ hstart hstop ih =>
    refine ⟨ih.1.append (ih.2.1 start rfl) hstart, nofun, ?_⟩
    intro _ span hspan
    rw [List.getLast?_concat] at hspan
    obtain rfl := Option.some.inj hspan
    exact hstop

/-- The chunks of a chain cover everything up to the end of the last one. -/
theorem freshBytes_chain {canonical : Bytes} (span : ℕ × ℕ) (spans : List (ℕ × ℕ)) (covered : ℕ)
    (hcovered : span.1 ≤ covered ∧ covered ≤ span.2)
    (hchain : (span :: spans).IsChain (fun span next =>
      span.1 ≤ next.1 ∧ next.1 ≤ span.2 ∧ span.2 ≤ next.2)) :
    span.2 ≤ ((span :: spans).getLast (List.cons_ne_nil _ _)).2
      ∧ freshBytes canonical covered (span :: spans)
        = slice canonical covered ((span :: spans).getLast (List.cons_ne_nil _ _)).2 := by
  induction spans generalizing span covered with
  | nil =>
    rw [freshBytes, freshBytes, List.append_nil, Nat.max_eq_left hcovered.1,
      List.getLast_singleton]
    exact ⟨le_rfl, rfl⟩
  | cons following spans ih =>
    obtain ⟨⟨_, hstart, hstop⟩, hrest⟩ := List.isChain_cons_cons.mp hchain
    obtain ⟨hbound, hfresh⟩ := ih following span.2 ⟨hstart, hstop⟩ hrest
    rw [List.getLast_cons (List.cons_ne_nil _ _), freshBytes, Nat.max_eq_left hcovered.1,
      Nat.max_eq_right hcovered.2, hfresh]
    exact ⟨hstop.trans hbound, slice_append canonical _ _ _ hcovered.2 (hstop.trans hbound)⟩

theorem Rounds.no_spans {canonical : Bytes} (h : Rounds writer canonical [] next) :
    next = some 0 := by
  generalize hnil : ([] : List (ℕ × ℕ)) = none' at h
  cases h with
  | start => rfl
  | more => exact absurd hnil.symm (List.append_ne_nil_of_right_ne_nil _ (List.cons_ne_nil _ _))
  | last => exact absurd hnil.symm (List.append_ne_nil_of_right_ne_nil _ (List.cons_ne_nil _ _))

/-- A loop that was left has covered the text. -/
theorem freshBytes_left (h : Rounds writer (utf8 s) spans next) (hleft : LoopLeft (utf8 s) next) :
    (∀ span ∈ spans.getLast?, span.2 = (utf8 s).length)
      ∧ freshBytes (utf8 s) 0 spans = utf8 s ∧ (spans = [] ↔ s = []) := by
  obtain ⟨hlist, hnext, hend⟩ := rounds_inv h
  have hlast : ∀ span ∈ spans.getLast?, span.2 = (utf8 s).length := by
    cases next with
    | none => exact hend rfl
    | some start =>
      intro span hspan
      have hinside := (hnext start rfl).inside span hspan
      have hstop := (hlist.inside span (List.mem_of_mem_getLast? hspan)).2.1
      have hover := hleft start rfl
      omega
  refine ⟨hlast, ?_⟩
  cases spans with
  | nil =>
    have hfirst : next = some 0 := h.no_spans
    have hempty : utf8 s = [] :=
      List.length_eq_zero_iff.mp (Nat.le_zero.mp (hleft 0 (Option.mem_def.mpr hfirst)))
    exact ⟨hempty.symm, iff_of_true rfl ((utf8_eq_nil_iff s).mp hempty)⟩
  | cons span spans =>
    have hfirst : span.1 = 0 := hlist.first span rfl
    have hinside := hlist.inside span List.mem_cons_self
    have hfresh := (freshBytes_chain span spans 0 ⟨hfirst.le, Nat.zero_le _⟩ hlist.ordered
      : _ ∧ freshBytes (utf8 s) 0 (span :: spans) = _).2
    rw [hlast _ (List.getLast?_eq_getLast_of_ne_nil (List.cons_ne_nil _ _)), slice_to_end] at hfresh
    refine ⟨hfresh, iff_of_false (List.cons_ne_nil _ _) ?_⟩
    rintro rfl
    have hnone : span.2 ≤ 0 := hinside.2.1
    omega

theorem chunkRowsFrom_append (containers : List ContainerRange) (spans : List (ℕ × ℕ))
    (span : ℕ × ℕ) : chunkRowsFrom containers 0 (spans++[span])
      = chunkRowsFrom containers 0 spans
        ++[chunkRow spans.length span.1 span.2 (chunkContainers containers span.1 span.2)] := by
  simp [chunkRowsFrom, List.zipIdx_append]

theorem chunkTextsFrom_append (canonical : Bytes) (spans : List (ℕ × ℕ)) (span : ℕ × ℕ) :
    chunkTextsFrom canonical 0 (spans++[span])
      = chunkTextsFrom canonical 0 spans
        ++[(spans.length+1, (decodeUtf8 (slice canonical span.1 span.2)).getD [])] := by
  simp [chunkTextsFrom, List.zipIdx_append]

/-- One round of the loop. -/
theorem writeChunks_round (hs : Encodable s) {start : ℕ} (hboundary : IsBoundary s start)
    (hstart : start < (utf8 s).length) (containers : List ContainerRange) (fuel ordinal : ℕ)
    (database : Database) :
    writer.writeChunks (utf8 s) containers (fuel+1) start ordinal database
      = writer.loopFrom (utf8 s) containers fuel (ordinal+1)
        (if writer.chunkEnd (utf8 s) start = (utf8 s).length then none
          else some (writer.nextStart (utf8 s) start (writer.chunkEnd (utf8 s) start)))
        (database.insertChunks
          [chunkRow ordinal start (writer.chunkEnd (utf8 s) start)
            (chunkContainers containers start (writer.chunkEnd (utf8 s) start))]
          [(ordinal+1, (decodeUtf8 (slice (utf8 s) start
            (writer.chunkEnd (utf8 s) start))).getD [])]) := by
  obtain ⟨text, htext⟩ := decodeText_chunk writer hs hboundary
  have hdecode := htext
  rw [decodeText_eq_ok, ← decodeUtf8_eq_some_iff] at hdecode
  rw [writeChunks, if_pos hstart]
  simp only [htext, hdecode, Option.getD_some]
  split_ifs
  · rfl
  · rfl

/-- After some rounds the loop has written the rows of their chunks and nothing else. -/
theorem writeChunks_rounds (hs : Encodable s) (h : Rounds writer (utf8 s) spans next)
    (containers : List ContainerRange) (fuel : ℕ) (database : Database) :
    writer.writeChunks (utf8 s) containers (spans.length+fuel) 0 0 database
      = writer.loopFrom (utf8 s) containers fuel spans.length next
        (database.insertChunks (chunkRowsFrom containers 0 spans)
          (chunkTextsFrom (utf8 s) 0 spans)) := by
  induction h generalizing fuel with
  | start =>
    rw [List.length_nil, Nat.zero_add]
    exact congrArg _ (database.insertChunks_nil).symm
  | more spans start h hstart hstop ih =>
    have hboundary := ((rounds_inv h).2.1 start rfl).boundary
    rw [List.length_append, List.length_singleton, Nat.add_assoc, Nat.add_comm 1 fuel, ih,
      chunkRowsFrom_append, chunkTextsFrom_append, ← Database.insertChunks_insertChunks]
    show writer.writeChunks (utf8 s) containers (fuel+1) start spans.length _ = _
    rw [writeChunks_round hs hboundary hstart, if_neg hstop]
  | last spans start h hstart hstop ih =>
    have hboundary := ((rounds_inv h).2.1 start rfl).boundary
    rw [List.length_append, List.length_singleton, Nat.add_assoc, Nat.add_comm 1 fuel, ih,
      chunkRowsFrom_append, chunkTextsFrom_append, ← Database.insertChunks_insertChunks]
    show writer.writeChunks (utf8 s) containers (fuel+1) start spans.length _ = _
    rw [writeChunks_round hs hboundary hstart, if_pos hstop]

/-- The loop makes as many rounds as one likes, unless it is left before. -/
theorem exists_rounds (writer : ArtifactWriter) (canonical : Bytes) (n : ℕ) :
    ∃ spans next, Rounds writer canonical spans next
      ∧ (spans.length = n ∨ spans.length ≤ n ∧ LoopLeft canonical next) := by
  induction n with
  | zero => exact ⟨[], some 0, .start, Or.inl rfl⟩
  | succ n ih =>
    obtain ⟨spans, next, h, hlength | ⟨hlength, hleft⟩⟩ := ih
    · cases next with
      | none => exact ⟨spans, none, h, Or.inr ⟨by omega, nofun⟩⟩
      | some start =>
        by_cases hstart : start < canonical.length
        · by_cases hstop : writer.chunkEnd canonical start = canonical.length
          · exact ⟨_, _, .last spans start h hstart hstop, Or.inl (by simp [hlength])⟩
          · exact ⟨_, _, .more spans start h hstart hstop, Or.inl (by simp [hlength])⟩
        · refine ⟨spans, some start, h, Or.inr ⟨by omega, ?_⟩⟩
          intro later hlater
          obtain rfl := Option.some.inj hlater
          exact Nat.not_lt.mp hstart
    · exact ⟨spans, next, h, Or.inr ⟨by omega, hleft⟩⟩

/-- The chunks that the loop emits, in every round of it: they start at 0, lie inside the text,
are no longer than allowed, begin and end at characters, overlap or touch and never go back;
the loop has written their rows, and if it is left they cover the text. -/
theorem chunks_cover (writer : ArtifactWriter) (s : Str) (hs : Encodable s) :
    (∀ n, ∃ spans next, Rounds writer (utf8 s) spans next
      ∧ (spans.length = n ∨ spans.length ≤ n ∧ LoopLeft (utf8 s) next))
    ∧ ∀ spans next, Rounds writer (utf8 s) spans next →
      ChunkList writer s spans
      ∧ (∀ span ∈ spans, ∃ text, decodeText (slice (utf8 s) span.1 span.2) = .ok text)
      ∧ (∀ containers fuel database,
        writer.writeChunks (utf8 s) containers (spans.length+fuel) 0 0 database
          = writer.loopFrom (utf8 s) containers fuel spans.length next
            (database.insertChunks (chunkRowsFrom containers 0 spans)
              (chunkTextsFrom (utf8 s) 0 spans)))
      ∧ (LoopLeft (utf8 s) next →
        (∀ span ∈ spans.getLast?, span.2 = (utf8 s).length)
        ∧ freshBytes (utf8 s) 0 spans = utf8 s ∧ (spans = [] ↔ s = []))
      ∧ (s = [] → spans = []) := by
  refine ⟨exists_rounds writer (utf8 s), fun spans next h => ?_⟩
  have hlist := (rounds_inv h).1
  refine ⟨hlist, fun span hspan => ?_, writeChunks_rounds hs h, freshBytes_left h, ?_⟩
  · obtain ⟨i, j, hslice⟩ := (hlist.boundaries span hspan).1.slice (hlist.boundaries span hspan).2
    refine ⟨(s.take j).drop i, ?_⟩
    rw [decodeText_eq_ok, hslice]
    exact ⟨encodable_slice hs i j, rfl⟩
  · rintro rfl
    apply List.eq_nil_iff_forall_not_mem.mpr
    intro span hspan
    obtain ⟨hlt, hle, _⟩ := hlist.inside span hspan
    exact absurd hle (Nat.not_le.mpr (Nat.zero_lt_of_lt hlt))

end Rounds

/-- The shortest chunks. -/
def shortChunks : ArtifactWriter := ⟨256, 100, le_rfl, by omega⟩

/-- A text of three of them. -/
def manyLines : Str := (List.replicate 40 (ofString "One cat sat.\n")).flatten

theorem manyLines_rounds :
    Rounds shortChunks (utf8 manyLines) [(0, 247), (147, 403), (303, 520)] none := by
  have hends : shortChunks.chunkEnd (utf8 manyLines) 0 = 247
      ∧ shortChunks.chunkEnd (utf8 manyLines) 147 = 403
      ∧ shortChunks.chunkEnd (utf8 manyLines) 303 = 520 := by
    decide +kernel
  have hstarts : shortChunks.nextStart (utf8 manyLines) 0 247 = 147
      ∧ shortChunks.nextStart (utf8 manyLines) 147 403 = 303 := by
    decide +kernel
  have hlength : (utf8 manyLines).length = 520 := by decide +kernel
  have hfirst := Rounds.more [] 0 (.start : Rounds shortChunks (utf8 manyLines) _ _)
    (by omega) (by omega)
  rw [hends.1, hstarts.1] at hfirst
  have hsecond := Rounds.more _ 147 hfirst (by omega) (by omega)
  rw [hends.2.1, hstarts.2] at hsecond
  have hlast := Rounds.last _ 303 hsecond (by omega) (by omega)
  rw [hends.2.2] at hlast
  exact hlast

theorem chunks_cover_lines : Encodable manyLines
    ∧ ChunkList shortChunks manyLines [(0, 247), (147, 403), (303, 520)]
    ∧ freshBytes (utf8 manyLines) 0 [(0, 247), (147, 403), (303, 520)] = utf8 manyLines := by
  have hs : Encodable manyLines := by decide +kernel
  obtain ⟨hlist, _, _, hleft, _⟩ := (chunks_cover shortChunks manyLines hs).2 _ none manyLines_rounds
  exact ⟨hs, hlist, (hleft nofun).2.1⟩

end ArtifactWriter

end ConferWorker
