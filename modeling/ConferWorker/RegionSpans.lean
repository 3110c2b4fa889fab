import ConferWorker.WindowedReads

/-! Where the blocks of a container and the regions over them lie in the canonical text: the
blocks of a container in order inside its range, the ranges of two containers apart. -/
namespace ConferWorker

open ArtifactWriter

section Blocks

theorem appendBlock_length (text : Str) (block : TextBlock) :
    (utf8 text).length+(utf8 block.text).length ≤ (utf8 (appendBlock text block)).length := by
  rw [utf8_appendBlock]
  split_ifs <;> simp only [List.length_append, List.length_singleton] <;> omega

theorem appendBlocks_length (blocks : List TextBlock) (text : Str) :
    (utf8 text).length ≤ (utf8 (blocks.foldl appendBlock text)).length := by
  induction blocks generalizing text with
  | nil => exact le_refl _
  | cons block blocks ih =>
    have hblock := appendBlock_length text block
    exact le_trans (by omega) (ih (appendBlock text block))

/-- The blocks lie between the text that the container already holds and its end. -/
theorem blockRanges_bounds (start : ℕ) (text : Str) (blocks : List TextBlock) :
    ∀ range ∈ blockRanges start text blocks, start+(utf8 text).length ≤ range.start ∧
      range.stop ≤ start+(utf8 (blocks.foldl appendBlock text)).length := by
  induction blocks generalizing text with
  | nil => exact List.forall_mem_nil _
  | cons block blocks ih =>
    have hblock := appendBlock_length text block
    refine List.forall_mem_cons.mpr ⟨⟨by dsimp only; omega, ?_⟩, fun range hrange => ?_⟩
    · have hlater := appendBlocks_length blocks (appendBlock text block)
      exact Nat.add_le_add_left hlater start
    · obtain ⟨hlow, hhigh⟩ := ih (appendBlock text block) range hrange
      exact ⟨by omega, hhigh⟩

/-- No block begins before the one in front of it has ended. -/
theorem blockRanges_ordered (start : ℕ) (text : Str) (blocks : List TextBlock) :
    (blockRanges start text blocks).Pairwise (fun a b => a.stop ≤ b.start) := by
  induction blocks generalizing text with
  | nil => exact List.Pairwise.nil
  | cons block blocks ih =>
    refine List.pairwise_cons.mpr ⟨fun range hrange => ?_, ih (appendBlock text block)⟩
    exact (blockRanges_bounds start (appendBlock text block) blocks range hrange).1

/-- A block with text has a range that is not empty. -/
theorem blockRanges_nonempty (start : ℕ) (text : Str) (blocks : List TextBlock)
    (h : ∀ block ∈ blocks, block.text ≠ []) :
    ∀ range ∈ blockRanges start text blocks, range.start < range.stop := by
  induction blocks generalizing text with
  | nil => exact List.forall_mem_nil _
  | cons block blocks ih =>
    obtain ⟨hblock, hblocks⟩ := List.forall_mem_cons.mp h
    have hlength := appendBlock_length text block
    have hpos : 0 < (utf8 block.text).length :=
      List.length_pos_of_ne_nil ((utf8_eq_nil_iff block.text).not.mpr hblock)
    exact List.forall_mem_cons.mpr ⟨by dsimp only; omega, ih (appendBlock text block) hblocks⟩

/-- The range as far behind `start` as it was behind the start of the text. -/
def shiftRange (start : ℕ) (range : BlockRange) : BlockRange :=
  ⟨start+range.start, start+range.stop⟩

/-- A container that begins later has its blocks later by as much. -/
theorem blockRanges_shift (start : ℕ) (text : Str) (blocks : List TextBlock) :
    blockRanges start text blocks = (blockRanges 0 text blocks).map (shiftRange start) := by
  induction blocks generalizing text with
  | nil => rfl
  | cons block blocks ih =>
    have hlength := appendBlock_length text block
    have hstart : start+(utf8 (appendBlock text block)).length-(utf8 block.text).length
        = start+((utf8 (appendBlock text block)).length-(utf8 block.text).length) := by omega
    simp only [blockRanges, List.map_cons, shiftRange, Nat.zero_add, hstart,
      ih (appendBlock text block)]

end Blocks

section Regions

variable (region : VisualRegion) (ranges : List BlockRange) (blocks : List TextBlock)

theorem zip_fst_sublist : ((ranges.zip blocks).map Prod.fst).Sublist ranges := by
  induction ranges generalizing blocks with
  | nil => exact List.Sublist.refl []
  | cons range ranges ih =>
    cases blocks with
    | nil => exact List.nil_sublist _
    | cons block blocks => exact (ih blocks).cons_cons range

theorem overlapping_sublist : (overlapping region ranges blocks).Sublist ranges :=
  (List.filter_sublist.map Prod.fst).trans (zip_fst_sublist ranges blocks)

theorem overlapping_map (f : BlockRange → BlockRange) :
    overlapping region (ranges.map f) blocks = (overlapping region ranges blocks).map f := by
  have hzip : (ranges.map f).zip blocks
      = (ranges.zip blocks).map (fun pair => (f pair.1, pair.2)) := by
    rw [List.zip_map_left]
    rfl
  unfold overlapping
  rw [hzip, List.filter_map, List.map_map, List.map_map]
  rfl

/-- The span of a region over at least one block: from the start of the first block to an
offset behind it, inside the bounds of all blocks. -/
theorem regionRow_span (number : ℕ) {first : BlockRange} {more : List BlockRange} {low high : ℕ}
    (hordered : (first :: more).Pairwise (fun a b => a.stop ≤ b.start))
    (hnonempty : ∀ range ∈ first :: more, range.start < range.stop)
    (hbounds : ∀ range ∈ first :: more, low ≤ range.start ∧ range.stop ≤ high) :
    (regionRow number region (first :: more)).startOffset = some first.start ∧
      ∃ stop, (regionRow number region (first :: more)).endOffset = some stop ∧
        low ≤ first.start ∧ first.start < stop ∧ stop ≤ high := by
  have hfirst := hnonempty first List.mem_cons_self
  constructor
  · refine (List.min?_eq_some_iff).mpr ⟨List.mem_map_of_mem List.mem_cons_self, ?_⟩
    intro start hstart
    obtain ⟨range, hrange, rfl⟩ := List.mem_map.mp hstart
    rcases List.mem_cons.mp hrange with rfl | hmore
    · exact le_refl _
    · have hlater := (List.pairwise_cons.mp hordered).1 range hmore
      omega
  · obtain ⟨stop, hstop⟩ : ∃ stop, ((first :: more).map BlockRange.stop).max? = some stop :=
      Option.isSome_iff_exists.mp rfl
    obtain ⟨hmem, hmax⟩ := List.max?_eq_some_iff.mp hstop
    obtain ⟨range, hrange, rfl⟩ := List.mem_map.mp hmem
    have hlast := hmax first.stop (List.mem_map_of_mem List.mem_cons_self)
    exact ⟨_, hstop, (hbounds first List.mem_cons_self).1, by omega, (hbounds range hrange).2⟩

end Regions

/-- The separator keeps the ranges of two containers apart. -/
theorem endOffset_lt_startOffset (document : DocumentContent) {i j : ℕ} (hij : i < j)
    (hj : j < document.containers.length) : endOffset document i < startOffset document j := by
  obtain ⟨k, rfl⟩ : ∃ k, j = k+1 := ⟨j-1, by omega⟩
  have hstart := pieceStart_succ containerSeparator (ownBytes document.containers) k
    (by rw [ownBytes_length]; omega)
  have hmono := pieceEnd_mono containerSeparator (ownBytes document.containers) i k (by omega)
    (by rw [ownBytes_length]; omega)
  have hseparator : containerSeparator.length = 3 := rfl
  unfold endOffset startOffset
  omega

end ConferWorker
