import ConferWorker.CyclicChecks
import ConferWorker.PeImage

/-! The GPT event of `scripts/measure-release-image`: the header and the used entries of the
primary partition table, as the firmware measures them. -/
namespace ConferWorker

namespace ReleaseImage

/-- A sector size that was checked. -/
structure SectorSize where
  bytes : ℕ
  large : 512 ≤ bytes

def gptHeaderBytes : ℕ := 92

def maximumGptEntriesBytes : ℕ := 16*1024*1024

/-- `b"EFI PART"`. -/
def gptSignature : Bytes := [0x45, 0x46, 0x49, 0x20, 0x50, 0x41, 0x52, 0x54]

/-- `read_at`. -/
def readAt (image : Bytes) (offset length : ℕ) : Except ReleaseMeasurementError Bytes := do
  raiseIf (image.length < offset+length) ⟨"Worker GPT exceeds the disk image"⟩
  let value := slice image offset (offset+length)
  raiseIf (value.length ≠ length) ⟨"Worker disk ended unexpectedly"⟩
  pure value

/-- The header with `header_for_crc[16:20] = bytes(4)`. -/
def headerForCrc (header : Bytes) : Bytes := overwrite header 16 (List.replicate 4 0)

/-- `entries[offset:offset+entry_size] for offset in range(0, len(entries), entry_size)`. -/
def splitEntries (entries : Bytes) (entrySize : ℕ) : List Bytes :=
  (List.range ((entries.length+entrySize-1)/entrySize)).map
    (fun i => slice entries (i*entrySize) (i*entrySize+entrySize))

/-- The type of the partition is set. -/
def isUsed (entry : Bytes) : Bool := slice entry 0 16 != List.replicate 16 0

/-- The fields of a header that are compared with something else than the header. -/
structure GptFields where
  backupLba : ℕ
  firstUsableLba : ℕ
  entriesLba : ℕ
  entryCount : ℕ
  entrySize : ℕ
  entriesCrc : ℕ

/-- `struct.unpack_from`, of the header sector. -/
def gptFields (sector : Bytes) : GptFields where
  backupLba := peField sector 32 8
  firstUsableLba := peField sector 40 8
  entriesLba := peField sector 72 8
  entryCount := peField sector 80 4
  entrySize := peField sector 84 4
  entriesCrc := peField sector 88 4

/-- `get_gpt_event_data`. -/
def getGptEventData (image : Bytes) (sectorSize : SectorSize) :
    Except ReleaseMeasurementError Bytes := do
  let sector ← readAt image sectorSize.bytes sectorSize.bytes
  raiseIf (slice sector 0 8 ≠ gptSignature) ⟨"Worker disk has no primary GPT header"⟩
  let fields := gptFields sector
  raiseIf (image.length%sectorSize.bytes ≠ 0) ⟨"Worker disk is not aligned to its sector size"⟩
  let totalSectors := image.length/sectorSize.bytes
  raiseIf (peField sector 8 4 ≠ 0x00010000 ∨ peField sector 12 4 ≠ gptHeaderBytes
      ∨ peField sector 24 8 ≠ 1 ∨ totalSectors ≤ fields.backupLba ∨ fields.entriesLba < 2
      ∨ fields.firstUsableLba ≤ fields.entriesLba ∨ fields.entryCount = 0 ∨ fields.entrySize < 128
      ∨ fields.entrySize &&& (fields.entrySize-1) ≠ 0)
    ⟨"Worker primary GPT header is unsupported"⟩
  let header := slice sector 0 (peField sector 12 4)
  raiseIf (crc32 (headerForCrc header) ≠ peField sector 16 4)
    ⟨"Worker primary GPT header checksum is invalid"⟩
  let entriesBytes := fields.entryCount*fields.entrySize
  raiseIf (maximumGptEntriesBytes < entriesBytes) ⟨"Worker GPT partition array is too large"⟩
  let entries ← readAt image (fields.entriesLba*sectorSize.bytes) entriesBytes
  raiseIf (crc32 entries ≠ fields.entriesCrc)
    ⟨"Worker GPT partition array checksum is invalid"⟩
  let validEntries := (splitEntries entries fields.entrySize).filter isUsed
  pure (header++toLittle 8 validEntries.length++validEntries.flatten)

/-! The header and the entries as functions of the bytes, wherever they lie. -/

section Layout

variable (image : Bytes) (sectorSize : SectorSize)

def gptHeader : Bytes := slice image sectorSize.bytes (sectorSize.bytes+gptHeaderBytes)

def entriesStart : ℕ := (gptFields (gptHeader image sectorSize)).entriesLba*sectorSize.bytes

def entriesLength : ℕ :=
  (gptFields (gptHeader image sectorSize)).entryCount
    *(gptFields (gptHeader image sectorSize)).entrySize

def gptEntries : Bytes :=
  slice image (entriesStart image sectorSize)
    (entriesStart image sectorSize+entriesLength image sectorSize)

def usedEntries : List Bytes :=
  (splitEntries (gptEntries image sectorSize)
    (gptFields (gptHeader image sectorSize)).entrySize).filter isUsed

/-- What the firmware measures of a partition table. -/
def gptEvent : Bytes :=
  gptHeader image sectorSize++toLittle 8 (usedEntries image sectorSize).length
    ++(usedEntries image sectorSize).flatten

/-- A partition table that the firmware accepts. -/
structure GptAccepted : Prop where
  sector_fits : sectorSize.bytes+sectorSize.bytes ≤ image.length
  signature : slice (gptHeader image sectorSize) 0 8 = gptSignature
  aligned : image.length%sectorSize.bytes = 0
  revision : peField (gptHeader image sectorSize) 8 4 = 0x00010000
  header_size : peField (gptHeader image sectorSize) 12 4 = gptHeaderBytes
  current : peField (gptHeader image sectorSize) 24 8 = 1
  backup : (gptFields (gptHeader image sectorSize)).backupLba < image.length/sectorSize.bytes
  entries_behind : 2 ≤ (gptFields (gptHeader image sectorSize)).entriesLba
  usable_behind : (gptFields (gptHeader image sectorSize)).entriesLba
    < (gptFields (gptHeader image sectorSize)).firstUsableLba
  count : 0 < (gptFields (gptHeader image sectorSize)).entryCount
  size : 128 ≤ (gptFields (gptHeader image sectorSize)).entrySize
  size_power : (gptFields (gptHeader image sectorSize)).entrySize.isPowerOfTwo
  header_crc : crc32 (headerForCrc (gptHeader image sectorSize))
    = peField (gptHeader image sectorSize) 16 4
  entries_small : entriesLength image sectorSize ≤ maximumGptEntriesBytes
  entries_fit : entriesStart image sectorSize+entriesLength image sectorSize ≤ image.length
  entries_crc : crc32 (gptEntries image sectorSize)
    = (gptFields (gptHeader image sectorSize)).entriesCrc

end Layout

theorem readAt_eq_ok (image : Bytes) (offset length : ℕ) (value : Bytes) :
    readAt image offset length = .ok value
      ↔ offset+length ≤ image.length ∧ slice image offset (offset+length) = value := by
  simp only [readAt, bind_eq_ok, raiseIf_eq_ok, exists_const, pure_eq_ok, not_lt]
  constructor
  · rintro ⟨hfits, -, rfl⟩
    exact ⟨hfits, rfl⟩
  · rintro ⟨hfits, rfl⟩
    refine ⟨hfits, ?_, rfl⟩
    rw [not_not, slice_length_of_le _ _ _ hfits, Nat.add_sub_cancel_left]

/-- The fields of the sector are those of the header. -/
theorem peField_sector (image : Bytes) (sectorSize : SectorSize) (offset length : ℕ)
    (h : offset+length ≤ gptHeaderBytes) :
    peField (slice image sectorSize.bytes (sectorSize.bytes+sectorSize.bytes)) offset length
      = peField (gptHeader image sectorSize) offset length := by
  have hlarge := sectorSize.large
  rw [gptHeaderBytes] at h
  rw [peField, peField, gptHeader, slice_slice _ _ _ _ _ (by omega),
    slice_slice _ _ _ _ _ (by rw [gptHeaderBytes]; omega)]

theorem gptFields_sector (image : Bytes) (sectorSize : SectorSize) :
    gptFields (slice image sectorSize.bytes (sectorSize.bytes+sectorSize.bytes))
      = gptFields (gptHeader image sectorSize) := by
  simp only [gptFields, peField_sector image sectorSize _ _ (by decide : 32+8 ≤ gptHeaderBytes),
    peField_sector image sectorSize _ _ (by decide : 40+8 ≤ gptHeaderBytes),
    peField_sector image sectorSize _ _ (by decide : 72+8 ≤ gptHeaderBytes),
    peField_sector image sectorSize _ _ (by decide : 80+4 ≤ gptHeaderBytes),
    peField_sector image sectorSize _ _ (by decide : 84+4 ≤ gptHeaderBytes),
    peField_sector image sectorSize _ _ (by decide : 88+4 ≤ gptHeaderBytes)]

theorem slice_sector (image : Bytes) (sectorSize : SectorSize) {stop : ℕ}
    (h : stop ≤ gptHeaderBytes) :
    slice (slice image sectorSize.bytes (sectorSize.bytes+sectorSize.bytes)) 0 stop
      = slice (gptHeader image sectorSize) 0 stop := by
  have hlarge := sectorSize.large
  rw [gptHeaderBytes] at h
  rw [gptHeader, slice_slice _ _ _ _ _ (by omega),
    slice_slice _ _ _ _ _ (by rw [gptHeaderBytes]; omega)]

/-- The event is returned exactly for the tables that are accepted. -/
theorem getGptEventData_eq_ok_iff (image : Bytes) (sectorSize : SectorSize) (event : Bytes) :
    getGptEventData image sectorSize = .ok event
      ↔ GptAccepted image sectorSize ∧ gptEvent image sectorSize = event := by
  have hheader : slice (slice image sectorSize.bytes (sectorSize.bytes+sectorSize.bytes)) 0
      gptHeaderBytes = gptHeader image sectorSize := by
    rw [slice_sector image sectorSize le_rfl, gptHeader, slice_slice _ _ _ _ _ le_rfl, Nat.add_zero]
  have hpower (n : ℕ) (hn : 128 ≤ n) : n &&& (n-1) = 0 ↔ n.isPowerOfTwo :=
    Nat.and_sub_one_eq_zero_iff_isPowerOfTwo (by omega)
  have hfield := peField_sector image sectorSize
  have hrevision := hfield 8 4 (by decide)
  have hsize := hfield 12 4 (by decide)
  have hchecksum := hfield 16 4 (by decide)
  have hcurrent := hfield 24 8 (by decide)
  simp only [getGptEventData, bind_eq_ok, readAt_eq_ok, raiseIf_eq_ok, exists_const, pure_eq_ok,
    not_or, not_not, not_le, not_lt]
  constructor
  · rintro ⟨_, ⟨hfits, rfl⟩, h⟩
    rw [gptFields_sector, hrevision, hsize, hchecksum, hcurrent,
      slice_sector image sectorSize (by decide : 8 ≤ gptHeaderBytes)] at h
    obtain ⟨hsignature, haligned, ⟨hrevision, hsize, hcurrent, hbackup, hbehind, husable, hcount,
      hentry, hpow⟩, hcrc, hsmall, _, ⟨hentries, rfl⟩, hentriesCrc, rfl⟩ := h
    rw [hsize, hheader] at hcrc ⊢
    exact ⟨⟨hfits, hsignature, haligned, hrevision, hsize, hcurrent, hbackup, hbehind, husable,
      Nat.pos_of_ne_zero hcount, hentry, (hpower _ hentry).mp hpow, hcrc, hsmall, hentries,
      hentriesCrc⟩, rfl⟩
  · rintro ⟨h, rfl⟩
    refine ⟨_, ⟨h.sector_fits, rfl⟩, ?_⟩
    rw [gptFields_sector, hrevision, hsize, hchecksum, hcurrent,
      slice_sector image sectorSize (by decide : 8 ≤ gptHeaderBytes), h.header_size, hheader]
    exact ⟨h.signature, h.aligned, ⟨h.revision, rfl, h.current, h.backup, h.entries_behind,
      h.usable_behind, h.count.ne', h.size, (hpower _ h.size).mpr h.size_power⟩, h.header_crc,
      h.entries_small, _, ⟨h.entries_fit, rfl⟩, h.entries_crc, rfl⟩

end ReleaseImage

end ConferWorker
