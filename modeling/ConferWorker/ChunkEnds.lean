import ConferWorker.Chunking

/-! The end of a chunk as a function of its start: by which of the rules it is chosen, and that
a later start never gives an earlier end. -/
namespace ConferWorker

namespace ArtifactWriter

theorem rfindByte_eq_none {data : Bytes} {byte : UInt8} {low high : ℕ}
    (h : rfindByte data byte low high = none) (i : ℕ) (hlow : low ≤ i) (hhigh : i < high) :
    data[i]? ≠ some byte := by
  induction high with
  | zero => exact absurd hhigh (Nat.not_lt_zero i)
  | succ high ih =>
    rw [rfindByte] at h
    split_ifs at h with hbelow hbyte
    · omega
    · rcases Nat.lt_or_eq_of_le (Nat.le_of_lt_succ hhigh) with hlt | rfl
      · exact ih h hlt
      · exact hbyte

theorem le_rfindByte {data : Bytes} {byte : UInt8} {low high found : ℕ}
    (h : rfindByte data byte low high = some found) (i : ℕ) (hhigh : i < high)
    (hbyte : data[i]? = some byte) : i ≤ found := by
  induction high with
  | zero => exact absurd hhigh (Nat.not_lt_zero i)
  | succ high ih =>
    rw [rfindByte] at h
    split_ifs at h with hbelow hfound
    · obtain rfl : high = found := Option.some.inj h
      omega
    · rcases Nat.lt_or_eq_of_le (Nat.le_of_lt_succ hhigh) with hlt | rfl
      · exact ih h hlt
      · exact absurd hbyte hfound

section ChunkEnd

variable {writer : ArtifactWriter} {canonical : Bytes} {start : ℕ}

theorem chunkEnd_last (h : canonical.length ≤ start+writer.chunkBytes) :
    writer.chunkEnd canonical start = canonical.length := by
  unfold chunkEnd
  dsimp only
  rw [Nat.min_eq_left h, if_pos rfl]

/-- A chunk that does not reach the end of the text is cut behind the last line feed of its
second half, else behind the last space, else in front of a character. -/
theorem chunkEnd_cases (h : start+writer.chunkBytes < canonical.length) :
    (∃ found, rfindByte canonical 10 (start+writer.chunkBytes/2) (start+writer.chunkBytes)
        = some found ∧ writer.chunkEnd canonical start = found+1)
    ∨ rfindByte canonical 10 (start+writer.chunkBytes/2) (start+writer.chunkBytes) = none
      ∧ ((∃ found, rfindByte canonical 32 (start+writer.chunkBytes/2) (start+writer.chunkBytes)
            = some found ∧ writer.chunkEnd canonical start = found+1)
        ∨ rfindByte canonical 32 (start+writer.chunkBytes/2) (start+writer.chunkBytes) = none
          ∧ writer.chunkEnd canonical start
            = utf8Boundary canonical (start+writer.chunkBytes)) := by
  have hminimum := writer.chunk_minimum
  unfold chunkEnd chunkEnd.spaceEnd
  dsimp only
  rw [Nat.min_eq_right h.le, if_neg h.ne,
    show min (start+writer.chunkBytes) (start+writer.chunkBytes/2) = start+writer.chunkBytes/2 by
      omega]
  cases hline : rfindByte canonical 10 (start+writer.chunkBytes/2) (start+writer.chunkBytes) with
  | some found =>
    have hlow := (rfindByte_eq_some hline).1
    exact Or.inl ⟨found, rfl, if_pos (by omega)⟩
  | none =>
    refine Or.inr ⟨rfl, ?_⟩
    cases hspace : rfindByte canonical 32 (start+writer.chunkBytes/2)
        (start+writer.chunkBytes) with
    | some found =>
      have hlow := (rfindByte_eq_some hspace).1
      exact Or.inl ⟨found, rfl, if_pos (by omega)⟩
    | none => exact Or.inr ⟨rfl, rfl⟩

end ChunkEnd

/-- A chunk that starts later does not end earlier. -/
theorem chunkEnd_mono (writer : ArtifactWriter) (s : Str) {start start' : ℕ}
    (hle : start ≤ start') :
    writer.chunkEnd (utf8 s) start ≤ writer.chunkEnd (utf8 s) start' := by
  have hspec := chunkEnd_spec writer s start
  have hspec' := chunkEnd_spec writer s start'
  rcases Nat.lt_or_ge (start'+writer.chunkBytes) (utf8 s).length with hhard' | hhard'
  · have hhard : start+writer.chunkBytes < (utf8 s).length := by omega
    have hadvance : start'+writer.chunkBytes/2 < writer.chunkEnd (utf8 s) start' := by
      rcases hspec'.advance with hend | hadvance
      · have hlimit := hspec'.limit
        omega
      · exact hadvance
    -- A byte of the first window is below the second window or inside it.
    have hbelow (found : ℕ) (h : found < start'+writer.chunkBytes/2) :
        found+1 ≤ writer.chunkEnd (utf8 s) start' := by omega
    rcases chunkEnd_cases hhard with ⟨found, hline, heq⟩ | ⟨hline, ⟨found, hspace, heq⟩ | ⟨hspace, heq⟩⟩
    · obtain ⟨_, hhigh, hbyte⟩ := rfindByte_eq_some hline
      rw [heq]
      rcases Nat.lt_or_ge found (start'+writer.chunkBytes/2) with hlt | hge
      · exact hbelow found hlt
      · rcases chunkEnd_cases hhard' with ⟨found', hline', heq'⟩ | ⟨hline', _⟩
        · have hlater := le_rfindByte hline' found (by omega) hbyte
          omega
        · exact absurd hbyte (rfindByte_eq_none hline' found hge (by omega))
    · obtain ⟨_, hhigh, hbyte⟩ := rfindByte_eq_some hspace
      rw [heq]
      rcases Nat.lt_or_ge found (start'+writer.chunkBytes/2) with hlt | hge
      · exact hbelow found hlt
      · rcases chunkEnd_cases hhard' with
          ⟨found', hline', heq'⟩ | ⟨_, ⟨found', hspace', heq'⟩ | ⟨hspace', _⟩⟩
        · obtain ⟨hlow', _, hbyte'⟩ := rfindByte_eq_some hline'
          have hbehind : start+writer.chunkBytes ≤ found' := by
            by_contra hinside
            exact rfindByte_eq_none hline found' (by omega) (by omega) hbyte'
          omega
        · have hlater := le_rfindByte hspace' found (by omega) hbyte
          omega
        · exact absurd hbyte (rfindByte_eq_none hspace' found hge (by omega))
    · have hcut := utf8Boundary_le (utf8 s) (start+writer.chunkBytes)
      -- Any cut behind a line feed or a space lies behind the first window.
      have hbehind (byte : UInt8) (found' : ℕ)
          (hnone : rfindByte (utf8 s) byte (start+writer.chunkBytes/2) (start+writer.chunkBytes)
            = none) (hfound : rfindByte (utf8 s) byte (start'+writer.chunkBytes/2)
              (start'+writer.chunkBytes) = some found') : start+writer.chunkBytes ≤ found' := by
        obtain ⟨hlow', _, hbyte'⟩ := rfindByte_eq_some hfound
        by_contra hinside
        exact rfindByte_eq_none hnone found' (by omega) (by omega) hbyte'
      rcases chunkEnd_cases hhard' with
        ⟨found', hline', heq'⟩ | ⟨_, ⟨found', hspace', heq'⟩ | ⟨_, heq'⟩⟩
      · have := hbehind 10 found' hline hline'
        omega
      · have := hbehind 32 found' hspace hspace'
        omega
      · rw [heq']
        exact utf8Boundary_maximal s _ _ hhard'.le hspec.boundary (by omega)
  · rw [chunkEnd_last hhard']
    exact hspec.boundary.le

end ArtifactWriter

end ConferWorker
