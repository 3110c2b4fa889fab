import ConferWorker.GptEvents

/-! What a GPT event stands for, and which changes of a disk the checks of its partition table
find. -/
namespace ConferWorker

namespace ReleaseImage

section Outside

/-- Two byte strings that differ in one range at most. -/
structure SameOutside (image image' : Bytes) (start stop : ℕ) : Prop where
  length : image'.length = image.length
  front : image'.take start = image.take start
  rest : image'.drop stop = image.drop stop

variable {image image' : Bytes} {start stop : ℕ}

theorem SameOutside.getElem? (h : SameOutside image image' start stop) {i : ℕ}
    (hi : i < start ∨ stop ≤ i) : image'[i]? = image[i]? := by
  rcases hi with hi | hi
  · have hfront := congrArg (·[i]?) h.front
    simpa only [List.getElem?_take, if_pos hi] using hfront
  · have hrest := congrArg (·[i-stop]?) h.rest
    simp only [List.getElem?_drop] at hrest
    rwa [Nat.add_sub_cancel' hi] at hrest

/-- A slice beside the range. -/
theorem SameOutside.slice_eq (h : SameOutside image image' start stop) {a b : ℕ}
    (hbeside : b ≤ start ∨ stop ≤ a) : slice image' a b = slice image a b := by
  apply List.ext_getElem?
  intro i
  simp only [slice, List.getElem?_drop, List.getElem?_take]
  split_ifs with hi
  · exact h.getElem? (by omega)
  · rfl

theorem sameOutside_of_getElem? (hlength : image'.length = image.length)
    (h : ∀ i, i < start ∨ stop ≤ i → image'[i]? = image[i]?) :
    SameOutside image image' start stop := by
  refine ⟨hlength, ?_, ?_⟩
  · apply List.ext_getElem?
    intro i
    simp only [List.getElem?_take]
    split_ifs with hi
    · exact h i (Or.inl hi)
    · rfl
  · apply List.ext_getElem?
    intro i
    simp only [List.getElem?_drop]
    exact h _ (Or.inr (Nat.le_add_right _ _))

/-- The slice around the range. -/
theorem SameOutside.slice (h : SameOutside image image' start stop) (a b : ℕ) :
    SameOutside (slice image a b) (slice image' a b) (start-a) (stop-a) := by
  apply sameOutside_of_getElem?
  · rw [slice_length, slice_length, h.length]
  · intro i hi
    simp only [ConferWorker.slice, List.getElem?_drop, List.getElem?_take]
    split_ifs with hb
    · exact h.getElem? (by omega)
    · rfl

/-- The range is the same if a slice around it is. -/
theorem SameOutside.eq_of_slice (h : SameOutside image image' start stop) {a b : ℕ}
    (ha : a ≤ start) (hb : stop ≤ b)
    (hslice : ConferWorker.slice image' a b = ConferWorker.slice image a b) : image' = image := by
  apply List.ext_getElem?
  intro i
  by_cases hi : i < start ∨ stop ≤ i
  · exact h.getElem? hi
  · have hat := congrArg (·[i-a]?) hslice
    have hback : a+(i-a) = i := by omega
    have hinside : a+(i-a) < b := by omega
    simp only [ConferWorker.slice, List.getElem?_drop, List.getElem?_take, if_pos hinside] at hat
    rwa [hback] at hat

/-- A check tells two strings apart that differ in four bytes in a row at most. -/
theorem SameOutside.eq_of_crc32 (h : SameOutside image image' start stop)
    (hshort : stop ≤ start+4) (hcrc : crc32 image' = crc32 image) : image' = image := by
  have hsplit {x : Bytes} (hx : x.take start = image.take start ∧ x.drop stop = image.drop stop)
      (horder : start ≤ stop) :
      x = image.take start++(x.drop start).take (stop-start)++image.drop stop := by
    have hbehind : (x.drop start).drop (stop-start) = image.drop stop := by
      rw [List.drop_drop, Nat.add_sub_cancel' horder, hx.2]
    rw [← hbehind, List.append_assoc, List.take_append_drop, ← hx.1, List.take_append_drop]
  rcases Nat.le_total stop start with horder | horder
  · apply List.ext_getElem?
    intro i
    exact h.getElem? (by omega)
  · have hsame : crc32 (image.take start++(image'.drop start).take (stop-start)++image.drop stop)
        = crc32 (image.take start++(image.drop start).take (stop-start)++image.drop stop) := by
      rw [← hsplit ⟨h.front, h.rest⟩ horder, ← hsplit ⟨rfl, rfl⟩ horder]
      exact hcrc
    have hwindow : (image'.drop start).take (stop-start) = (image.drop start).take (stop-start) := by
      refine crc32_window ?_ ?_ hsame
      · rw [List.length_take, List.length_take, List.length_drop, List.length_drop, h.length]
      · rw [List.length_take]
        omega
    rw [hsplit ⟨h.front, h.rest⟩ horder, hwindow]
    exact (hsplit ⟨rfl, rfl⟩ horder).symm

end Outside

section Events

variable {image image' : Bytes} {sectorSize : SectorSize}

theorem gptHeader_length (h : GptAccepted image sectorSize) :
    (gptHeader image sectorSize).length = gptHeaderBytes := by
  have hfits := h.sector_fits
  have hlarge := sectorSize.large
  rw [gptHeader, slice_length_of_le _ _ _ (by rw [gptHeaderBytes]; omega), Nat.add_sub_cancel_left]

/-- The entries fill the array. -/
theorem usedEntry_length (h : GptAccepted image sectorSize) :
    ∀ entry ∈ usedEntries image sectorSize,
      entry.length = (gptFields (gptHeader image sectorSize)).entrySize := by
  intro entry hentry
  obtain ⟨hentry, -⟩ := List.mem_filter.mp hentry
  obtain ⟨i, hi, rfl⟩ := List.mem_map.mp hentry
  have hsize := h.size
  have hlength : (gptEntries image sectorSize).length = entriesLength image sectorSize := by
    rw [gptEntries, slice_length_of_le _ _ _ h.entries_fit, Nat.add_sub_cancel_left]
  have hpositive : 0 < (gptFields (gptHeader image sectorSize)).entrySize := by omega
  rw [List.mem_range, hlength, entriesLength, ← Nat.succ_le_iff, Nat.le_div_iff_mul_le hpositive]
    at hi
  have hindex : i < (gptFields (gptHeader image sectorSize)).entryCount := by
    apply Nat.lt_of_mul_lt_mul_right (a := (gptFields (gptHeader image sectorSize)).entrySize)
    rw [Nat.succ_mul] at hi
    omega
  rw [slice_length_of_le, Nat.add_sub_cancel_left]
  rw [hlength, entriesLength, ← Nat.succ_mul]
  exact Nat.mul_le_mul_right _ hindex

/-- Pieces of one length are told apart in their concatenation. -/
theorem eq_of_flatten_eq {size : ℕ} (hsize : 0 < size) {pieces pieces' : List Bytes}
    (h : ∀ piece ∈ pieces, piece.length = size) (h' : ∀ piece ∈ pieces', piece.length = size)
    (hflat : pieces.flatten = pieces'.flatten) : pieces = pieces' := by
  have hreplicate {pieces : List Bytes} (h : ∀ piece ∈ pieces, piece.length = size) :
      pieces.map List.length = List.replicate pieces.length size := by
    rw [List.eq_replicate_iff, List.length_map]
    exact ⟨rfl, List.forall_mem_map.mpr h⟩
  have hcount : pieces.length*size = pieces'.length*size := by
    have hlength := congrArg List.length hflat
    rwa [List.length_flatten, List.length_flatten, hreplicate h, hreplicate h',
      List.sum_replicate, List.sum_replicate] at hlength
  rw [List.eq_iff_flatten_eq]
  refine ⟨hflat, ?_⟩
  rw [hreplicate h, hreplicate h', Nat.eq_of_mul_eq_mul_right hsize hcount]

/-- Events are equal exactly if the headers and the used entries are. -/
theorem gptEvent_eq_iff {other : Bytes} {otherSize : SectorSize} (h : GptAccepted image sectorSize)
    (h' : GptAccepted other otherSize) : gptEvent image sectorSize = gptEvent other otherSize
      ↔ gptHeader image sectorSize = gptHeader other otherSize
        ∧ usedEntries image sectorSize = usedEntries other otherSize := by
  constructor
  · intro hevent
    rw [gptEvent, gptEvent, List.append_assoc, List.append_assoc] at hevent
    obtain ⟨hheader, hrest⟩ := List.append_inj hevent
      ((gptHeader_length h).trans (gptHeader_length h').symm)
    obtain ⟨-, hflat⟩ := List.append_inj hrest (by rw [toLittle_length, toLittle_length])
    have hlengths := usedEntry_length h
    have hsize := h'.size
    rw [hheader] at hlengths
    exact ⟨hheader, eq_of_flatten_eq (by omega) hlengths (usedEntry_length h') hflat⟩
  · rintro ⟨hheader, hused⟩
    rw [gptEvent, gptEvent, hheader, hused]

theorem gpt_event_binds {other event event' : Bytes} {otherSize : SectorSize}
    (haccepted : getGptEventData image sectorSize = .ok event)
    (haccepted' : getGptEventData other otherSize = .ok event') :
    event = event' ↔ gptHeader image sectorSize = gptHeader other otherSize
      ∧ usedEntries image sectorSize = usedEntries other otherSize := by
  obtain ⟨h, rfl⟩ := (getGptEventData_eq_ok_iff _ _ _).mp haccepted
  obtain ⟨h', rfl⟩ := (getGptEventData_eq_ok_iff _ _ _).mp haccepted'
  exact gptEvent_eq_iff h h'

/-- The entries of a small disk, of which one is used. -/
def sampleEntries : Bytes :=
  (List.range 128).map (fun i => UInt8.ofNat (i+1))++List.replicate 128 0

/-- Its header, for a check. -/
def sampleHeader (checksum : ℕ) : Bytes :=
  gptSignature++toLittle 4 0x00010000++toLittle 4 gptHeaderBytes++toLittle 4 checksum
    ++toLittle 4 0++toLittle 8 1++toLittle 8 3++toLittle 8 3++toLittle 8 3
    ++(List.range 16).map UInt8.ofNat++toLittle 8 2++toLittle 4 2++toLittle 4 128
    ++toLittle 4 (crc32 sampleEntries)

/-- A disk of four sectors, of which the last one repeats a byte. -/
def sampleDisk (last : UInt8) : Bytes :=
  List.replicate 512 0++sampleHeader (crc32 (sampleHeader 0))++List.replicate 420 0++sampleEntries
    ++List.replicate 256 0++List.replicate 512 last

def sampleSectorSize : SectorSize := ⟨512, le_rfl⟩

def sampleEvent : Bytes :=
  sampleHeader (crc32 (sampleHeader 0))++toLittle 8 1
    ++(List.range 128).map (fun i => UInt8.ofNat (i+1))

set_option maxRecDepth 20000 in
theorem sampleDisk_event (last : UInt8) (h : last = 0 ∨ last = 255) :
    getGptEventData (sampleDisk last) sampleSectorSize = .ok sampleEvent := by
  rcases h with rfl | rfl
  · decide +kernel
  · decide +kernel

theorem gpt_event_binds_sample : gptHeader (sampleDisk 0) sampleSectorSize
      = gptHeader (sampleDisk 255) sampleSectorSize
    ∧ usedEntries (sampleDisk 0) sampleSectorSize = usedEntries (sampleDisk 255) sampleSectorSize :=
  (gpt_event_binds (sampleDisk_event 0 (Or.inl rfl)) (sampleDisk_event 255 (Or.inr rfl))).mp rfl

/-- Behind the check of a header stand all its bytes but the check itself. -/
theorem header_eq_of_crc {header header' : Bytes} {start stop : ℕ}
    (hlength : header.length = gptHeaderBytes) (h : SameOutside header header' start stop)
    (hshort : stop ≤ start+4) (hbeside : stop ≤ 16 ∨ 20 ≤ start)
    (hcrc : crc32 (headerForCrc header') = crc32 (headerForCrc header)) : header' = header := by
  have hfits (x : Bytes) (hx : x.length = header.length) :
      16+(List.replicate 4 (0 : UInt8)).length ≤ x.length := by
    rw [hx, hlength, List.length_replicate]
    decide
  have hcleared : SameOutside (headerForCrc header) (headerForCrc header') start stop := by
    apply sameOutside_of_getElem?
    · rw [headerForCrc, headerForCrc, overwrite_length _ _ _ (hfits _ h.length),
        overwrite_length _ _ _ (hfits _ rfl), h.length]
    · intro i hi
      rw [headerForCrc, headerForCrc, overwrite_getElem? _ _ _ _ (hfits _ h.length),
        overwrite_getElem? _ _ _ _ (hfits _ rfl), h.getElem? hi]
  have hsame := hcleared.eq_of_crc32 hshort hcrc
  apply List.ext_getElem?
  intro i
  by_cases hi : i < start ∨ stop ≤ i
  · exact h.getElem? hi
  · have hat := congrArg (·[i]?) hsame
    simp only [headerForCrc] at hat
    rw [overwrite_getElem? _ _ _ _ (hfits _ h.length), overwrite_getElem? _ _ _ _ (hfits _ rfl),
      if_neg, if_neg] at hat
    · exact hat
    · rw [List.length_replicate]
      omega
    · rw [List.length_replicate]
      omega

/-- The ranges that the checks of a partition table cover: the header before its check, the check,
the header behind it, and the entries. -/
def Guarded (image : Bytes) (sectorSize : SectorSize) (start stop : ℕ) : Prop :=
  (sectorSize.bytes ≤ start ∧ stop ≤ sectorSize.bytes+16)
  ∨ (sectorSize.bytes+16 ≤ start ∧ stop ≤ sectorSize.bytes+20)
  ∨ (sectorSize.bytes+20 ≤ start ∧ stop ≤ sectorSize.bytes+gptHeaderBytes)
  ∨ (entriesStart image sectorSize ≤ start
    ∧ stop ≤ entriesStart image sectorSize+entriesLength image sectorSize)

theorem eq_of_header_change (h : GptAccepted image sectorSize) (h' : GptAccepted image' sectorSize)
    {start stop : ℕ} (hsame : SameOutside image image' start stop) (hshort : stop ≤ start+4)
    (hinside : sectorSize.bytes ≤ start ∧ stop ≤ sectorSize.bytes+gptHeaderBytes)
    (hbeside : stop ≤ sectorSize.bytes+16 ∨ sectorSize.bytes+20 ≤ start) : image' = image := by
  have hheader : SameOutside (gptHeader image sectorSize) (gptHeader image' sectorSize)
      (start-sectorSize.bytes) (stop-sectorSize.bytes) := hsame.slice _ _
  have hchecksum : peField (gptHeader image' sectorSize) 16 4
      = peField (gptHeader image sectorSize) 16 4 := by
    rw [peField, peField, hheader.slice_eq (by omega)]
  apply hsame.eq_of_slice hinside.1 hinside.2
  apply header_eq_of_crc (gptHeader_length h) hheader (by omega) (by omega)
  rw [h'.header_crc, h.header_crc, hchecksum]

theorem eq_of_checksum_change (h : GptAccepted image sectorSize)
    (h' : GptAccepted image' sectorSize) {start stop : ℕ}
    (hsame : SameOutside image image' start stop)
    (hinside : sectorSize.bytes+16 ≤ start ∧ stop ≤ sectorSize.bytes+20) : image' = image := by
  have hheader : SameOutside (gptHeader image sectorSize) (gptHeader image' sectorSize)
      (start-sectorSize.bytes) (stop-sectorSize.bytes) := hsame.slice _ _
  have hfits (x : Bytes) (hx : x.length = gptHeaderBytes) :
      16+(List.replicate 4 (0 : UInt8)).length ≤ x.length := by
    rw [hx, List.length_replicate]
    decide
  -- with the check left out, the headers are the same
  have hcleared : headerForCrc (gptHeader image' sectorSize)
      = headerForCrc (gptHeader image sectorSize) := by
    apply List.ext_getElem?
    intro i
    rw [headerForCrc, headerForCrc, overwrite_getElem? _ _ _ _ (hfits _ (gptHeader_length h')),
      overwrite_getElem? _ _ _ _ (hfits _ (gptHeader_length h)), List.length_replicate]
    split_ifs with hi
    · rfl
    · exact hheader.getElem? (by omega)
  have hchecksum : fromLittle (slice (gptHeader image' sectorSize) 16 20)
      = fromLittle (slice (gptHeader image sectorSize) 16 20) := by
    have hcrc := h'.header_crc
    rw [hcleared, h.header_crc] at hcrc
    exact hcrc.symm
  have hbytes := CyclicCheck.fromLittle_injective
    (by rw [slice_length, slice_length, gptHeader_length h, gptHeader_length h']) hchecksum
  apply hsame.eq_of_slice hinside.1 hinside.2
  rw [gptHeader, gptHeader, slice_slice _ _ _ _ _ (by rw [gptHeaderBytes]; omega),
    slice_slice _ _ _ _ _ (by rw [gptHeaderBytes]; omega)] at hbytes
  exact hbytes

theorem eq_of_entries_change (h : GptAccepted image sectorSize)
    (h' : GptAccepted image' sectorSize) {start stop : ℕ}
    (hsame : SameOutside image image' start stop) (hshort : stop ≤ start+4)
    (hinside : entriesStart image sectorSize ≤ start
      ∧ stop ≤ entriesStart image sectorSize+entriesLength image sectorSize) : image' = image := by
  have hlarge := sectorSize.large
  have hbehind : sectorSize.bytes+gptHeaderBytes ≤ start := by
    have hstart := hinside.1
    have hsectors : 2*sectorSize.bytes ≤ entriesStart image sectorSize :=
      Nat.mul_le_mul_right _ h.entries_behind
    rw [gptHeaderBytes]
    omega
  have hheader : gptHeader image' sectorSize = gptHeader image sectorSize :=
    hsame.slice_eq (Or.inl hbehind)
  have hcrc := h'.entries_crc
  rw [hheader, ← h.entries_crc] at hcrc
  apply hsame.eq_of_slice hinside.1 hinside.2
  have hentries := hsame.slice (entriesStart image sectorSize)
    (entriesStart image sectorSize+entriesLength image sectorSize)
  apply hentries.eq_of_crc32 (by omega)
  rw [gptEntries, entriesStart, entriesLength, hheader] at hcrc
  exact hcrc

/-- A disk whose table is accepted is refused after any change of at most four bytes in a row that
lies in one of the ranges that the checks cover. -/
theorem gpt_corruption_refused {event : Bytes}
    (haccepted : getGptEventData image sectorSize = .ok event) {start stop : ℕ}
    (hguarded : Guarded image sectorSize start stop) (hshort : stop ≤ start+4)
    (hsame : SameOutside image image' start stop) (hchanged : image' ≠ image) :
    ∃ error, getGptEventData image' sectorSize = .error error := by
  obtain ⟨h, -⟩ := (getGptEventData_eq_ok_iff _ _ _).mp haccepted
  cases hresult : getGptEventData image' sectorSize with
  | error error => exact ⟨error, rfl⟩
  | ok event' =>
    obtain ⟨h', -⟩ := (getGptEventData_eq_ok_iff _ _ _).mp hresult
    refine absurd ?_ hchanged
    rcases hguarded with hfront | hchecksum | hbehind | hentries
    · exact eq_of_header_change h h' hsame hshort ⟨hfront.1, by rw [gptHeaderBytes]; omega⟩
        (Or.inl hfront.2)
    · exact eq_of_checksum_change h h' hsame hchecksum
    · exact eq_of_header_change h h' hsame hshort ⟨by omega, hbehind.2⟩ (Or.inr hbehind.1)
    · exact eq_of_entries_change h h' hsame hshort hentries

set_option maxRecDepth 20000 in
theorem gpt_corruption_refused_sample : ∃ error,
    getGptEventData (overwrite (sampleDisk 0) 568 [0xFF]) sampleSectorSize = .error error := by
  have hfits : 568+[(0xFF : UInt8)].length ≤ (sampleDisk 0).length := by decide +kernel
  have hsame : SameOutside (sampleDisk 0) (overwrite (sampleDisk 0) 568 [0xFF]) 568 569 := by
    apply sameOutside_of_getElem? (overwrite_length _ _ _ hfits)
    intro i hi
    rw [overwrite_getElem? _ _ _ _ hfits, if_neg (by rw [List.length_singleton]; omega)]
  have hguarded : Guarded (sampleDisk 0) sampleSectorSize 568 569 :=
    Or.inr (Or.inr (Or.inl (by decide)))
  have hchanged : overwrite (sampleDisk 0) 568 [0xFF] ≠ sampleDisk 0 := by decide +kernel
  exact gpt_corruption_refused (sampleDisk_event 0 (Or.inl rfl)) hguarded (by decide) hsame hchanged

end Events

end ReleaseImage

end ConferWorker
