import ConferWorker.Utf8

/-! The offsets in the bytes of a text at which a character begins or the text
ends: where they are, and what lies between two of them. -/
namespace ConferWorker

/-- No character of the text lies across the offset. -/
def IsBoundary (s : Str) (offset : ℕ) : Prop := ∃ i, offset = (utf8 (s.take i)).length

theorem isBoundary_zero (s : Str) : IsBoundary s 0 := ⟨0, rfl⟩

theorem isBoundary_length (s : Str) : IsBoundary s (utf8 s).length :=
  ⟨s.length, by rw [List.take_length]⟩

theorem isBoundary_cons (c : CodePoint) (s : Str) (offset : ℕ) :
    IsBoundary (c :: s) offset ↔
      offset = 0 ∨ ∃ rest, IsBoundary s rest ∧ offset = (utf8Bytes c).length+rest := by
  constructor
  · intro h
    obtain ⟨i, rfl⟩ := h
    cases i with
    | zero => exact Or.inl rfl
    | succ i =>
      refine Or.inr ⟨_, ⟨i, rfl⟩, ?_⟩
      rw [List.take_succ_cons, utf8_cons, List.length_append]
  · intro h
    rcases h with rfl | ⟨rest, ⟨i, rfl⟩, rfl⟩
    · exact isBoundary_zero _
    · refine ⟨i+1, ?_⟩
      rw [List.take_succ_cons, utf8_cons, List.length_append]

/-- The first byte of a character is no continuation byte, the others are. -/
theorem utf8Bytes_getElem (c : CodePoint) (k : ℕ) (h : k < (utf8Bytes c).length) :
    isContinuation (utf8Bytes c)[k] = true ↔ 0 < k := by
  have hc := c.isLt
  have hcontinuation (n : ℕ) : isContinuation (UInt8.ofNat (0x80+n%64)) = true :=
    isContinuation_ofNat _ (Nat.mod_lt n (by omega))
  have hfirst (n : ℕ) (h1 : n < 256) (h2 : n < 0x80 ∨ 0xC0 ≤ n) :
      ¬isContinuation (UInt8.ofNat n) = true := by
    rw [isContinuation_iff, ofNat_toNat n h1]
    omega
  rcases Nat.eq_zero_or_pos k with rfl | hk
  · have hbyte : ¬isContinuation (utf8Bytes c)[0] = true := by
      unfold utf8Bytes
      dsimp only
      split_ifs <;> exact hfirst _ (by omega) (by omega)
    simp [hbyte]
  · have hbyte : isContinuation (utf8Bytes c)[k] = true := by
      revert h
      unfold utf8Bytes
      dsimp only
      -- k is 1, 2 or 3, as far as the width of the character allows
      split_ifs <;> intro h <;> simp only [List.length_cons, List.length_nil] at h
      · omega
      · obtain rfl : k = 1 := by omega
        exact hcontinuation _
      · rcases (by omega : k = 1 ∨ k = 2) with rfl | rfl <;> exact hcontinuation _
      · rcases (by omega : k = 1 ∨ k = 2 ∨ k = 3) with rfl | rfl | rfl <;> exact hcontinuation _
    simp [hbyte, hk]

/-- An offset inside a text is a boundary unless a continuation byte stands there. -/
theorem isBoundary_iff_byte (s : Str) (offset : ℕ) (h : offset < (utf8 s).length) :
    IsBoundary s offset ↔ isContinuation (utf8 s)[offset] = false := by
  induction s generalizing offset with
  | nil => simp at h
  | cons c s ih =>
    rw [isBoundary_cons]
    rw [utf8_cons, List.length_append] at h
    have hpos := utf8Bytes_length_pos c
    simp only [utf8_cons]
    rcases Nat.lt_or_ge offset (utf8Bytes c).length with hlt | hge
    · have hbyte := utf8Bytes_getElem c offset hlt
      rw [List.getElem_append_left hlt]
      constructor
      · intro hboundary
        obtain rfl : offset = 0 := by
          rcases hboundary with h0 | ⟨rest, _, hrest⟩ <;> omega
        simpa using hbyte
      · intro hcontinuation
        rw [hcontinuation] at hbyte
        left
        by_contra hne
        exact absurd (hbyte.mpr (by omega)) (by decide)
    · rw [List.getElem_append_right hge, ← ih _ (by omega)]
      constructor
      · intro hboundary
        rcases hboundary with h0 | ⟨rest, hrest, rfl⟩
        · omega
        · rwa [Nat.add_sub_cancel_left]
      · intro hrest
        exact Or.inr ⟨_, hrest, by omega⟩

/-- A one-byte character ends where it begins plus one. -/
theorem isBoundary_succ (s : Str) (offset : ℕ) (h : offset < (utf8 s).length)
    (hbyte : (utf8 s)[offset].toNat < 0x80) : IsBoundary s (offset+1) := by
  induction s generalizing offset with
  | nil => simp at h
  | cons c s ih =>
    rw [isBoundary_cons]
    rw [utf8_cons, List.length_append] at h
    simp only [utf8_cons] at hbyte
    right
    rcases Nat.lt_or_ge offset (utf8Bytes c).length with hlt | hge
    · rw [List.getElem_append_left hlt] at hbyte
      refine ⟨0, isBoundary_zero s, ?_⟩
      -- a byte below 0x80 is the whole character
      revert hlt hbyte
      have hc := c.isLt
      unfold utf8Bytes
      dsimp only
      split_ifs with h1 h2 h3
      · intro hlt
        simp only [List.length_singleton] at hlt ⊢
        omega
      all_goals
        intro hlt hbyte
        simp only [List.length_cons, List.length_nil] at hlt
        rcases (by omega : offset = 0 ∨ offset = 1 ∨ offset = 2 ∨ offset = 3) with
          rfl | rfl | rfl | rfl <;>
          first
          | omega
          | (simp only [List.getElem_cons_zero, List.getElem_cons_succ] at hbyte
             rw [ofNat_toNat _ (by omega)] at hbyte
             omega)
    · rw [List.getElem_append_right hge] at hbyte
      exact ⟨_, ih (offset-(utf8Bytes c).length) (by omega) hbyte, by omega⟩

/-- A boundary is at most three bytes before any offset of the text. -/
theorem exists_boundary_near (s : Str) (offset : ℕ) (h : offset ≤ (utf8 s).length) :
    ∃ near, IsBoundary s near ∧ near ≤ offset ∧ offset < near+4 := by
  induction s generalizing offset with
  | nil =>
    simp only [utf8_nil, List.length_nil, Nat.le_zero] at h
    exact ⟨0, isBoundary_zero _, by omega, by omega⟩
  | cons c s ih =>
    rw [utf8_cons, List.length_append] at h
    have hwidth := utf8Bytes_length_le c
    rcases Nat.lt_or_ge offset (utf8Bytes c).length with hlt | hge
    · exact ⟨0, isBoundary_zero _, by omega, by omega⟩
    · obtain ⟨near, hnear, hle, hlt⟩ := ih (offset-(utf8Bytes c).length) (by omega)
      exact ⟨_, (isBoundary_cons c s _).mpr (Or.inr ⟨near, hnear, rfl⟩), by omega, by omega⟩

theorem IsBoundary.le {s : Str} {offset : ℕ} (h : IsBoundary s offset) :
    offset ≤ (utf8 s).length := by
  obtain ⟨i, rfl⟩ := h
  have hsplit : utf8 s = utf8 (s.take i)++utf8 (s.drop i) := by
    rw [← utf8_append, List.take_append_drop]
  rw [hsplit, List.length_append]
  omega

/-- Between two boundaries stand whole characters. -/
theorem IsBoundary.slice {s : Str} {start stop : ℕ} (hstart : IsBoundary s start)
    (hstop : IsBoundary s stop) :
    ∃ i j, slice (utf8 s) start stop = utf8 ((s.take j).drop i) := by
  obtain ⟨i, rfl⟩ := hstart
  obtain ⟨j, rfl⟩ := hstop
  refine ⟨i, j, ?_⟩
  have hj : (utf8 s).take (utf8 (s.take j)).length = utf8 (s.take j) := by
    have hsplit : utf8 s = utf8 (s.take j)++utf8 (s.drop j) := by
      rw [← utf8_append, List.take_append_drop]
    rw [hsplit, List.take_left']
    rfl
  rw [ConferWorker.slice, hj]
  rcases Nat.le_total i j with hij | hij
  · have hsplit : utf8 (s.take j) = utf8 (s.take i)++utf8 ((s.take j).drop i) := by
      rw [← utf8_append]
      congr 1
      have htake := List.take_append_drop i (s.take j)
      rwa [List.take_take, Nat.min_eq_left hij, eq_comm] at htake
    rw [hsplit, List.drop_left']
    rfl
  · have hshort : (s.take j).drop i = [] :=
      List.drop_eq_nil_of_le ((List.length_take_le _ _).trans hij)
    have hsplit : s.take i = s.take j++(s.take i).drop j := by
      have htake := List.take_append_drop j (s.take i)
      rwa [List.take_take, Nat.min_eq_left hij, eq_comm] at htake
    rw [hshort, utf8_nil]
    apply List.drop_eq_nil_of_le
    rw [hsplit, utf8_append, List.length_append]
    omega

theorem encodable_slice {s : Str} (h : Encodable s) (i j : ℕ) : Encodable ((s.take j).drop i) :=
  fun c hc => h c (List.mem_of_mem_take (List.mem_of_mem_drop hc))

end ConferWorker
