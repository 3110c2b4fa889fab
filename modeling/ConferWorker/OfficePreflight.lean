import ConferWorker.Binary64
import ConferWorker.PythonErrors

/-! `OfficeArchivePreflight`: which ZIP archives reach the office parsers, and what is promised of
their members. -/
namespace ConferWorker

def docxMediaType : Str :=
  ofString "application/vnd.openxmlformats-officedocument.wordprocessingml.document"

def pptxMediaType : Str :=
  ofString "application/vnd.openxmlformats-officedocument.presentationml.presentation"

def xlsxMediaType : Str :=
  ofString "application/vnd.openxmlformats-officedocument.spreadsheetml.sheet"

/-- A `zipfile.ZipInfo`, as far as it is looked at. -/
structure ZipInfo where
  filename : Str
  externalAttr : ℕ
  flagBits : ℕ
  fileSize : ℕ
  compressSize : ℕ

/-- The pieces of a text between slashes; `part` is read so far. -/
def splitSlashesFrom (part : Str) : Str → List Str
  | [] => [part]
  | c :: rest => if c = 0x2F then part :: splitSlashesFrom [] rest else splitSlashesFrom (part++[c]) rest

/-- `Path(name).parts`, without the root. -/
def pathParts (name : Str) : List Str :=
  (splitSlashesFrom [] name).filter (fun part => part ≠ [] ∧ part ≠ ofString ".")

/-- `Path(name).is_absolute()`. -/
def isAbsolute (name : Str) : Bool := name.head? == some 0x2F

/-- `member.filename.replace("\\", "/")`. -/
def ZipInfo.path (member : ZipInfo) : Str :=
  member.filename.map (fun c => if c = 0x5C then 0x2F else c)

/-- The limits, of which a member's is one that floats count exactly. -/
structure OfficeArchivePreflight where
  maxEntries : ℕ
  maxExpandedBytes : ℕ
  maxEntryBytes : ℕ
  maxCompressionRatio : ℕ
  entry_limit : maxEntryBytes ≤ 2^53
  ratio_positive : 0 < maxCompressionRatio

namespace OfficeArchivePreflight

theorem default_entry_limit : 64*1024*1024 ≤ 2^53 := by decide

theorem default_ratio_positive : 0 < 1000 := by decide

/-- `OfficeArchivePreflight()`. -/
def default : OfficeArchivePreflight :=
  ⟨20000, 256*1024*1024, 64*1024*1024, 1000, default_entry_limit, default_ratio_positive⟩

/-- `self.required_members.get(media_type)`. -/
def requiredMember (mediaType : Str) : Option Str :=
  if mediaType = docxMediaType then some (ofString "word/document.xml")
  else if mediaType = pptxMediaType then some (ofString "ppt/presentation.xml")
  else if mediaType = xlsxMediaType then some (ofString "xl/workbook.xml")
  else none

/-- `_validate_member`. -/
def validateMember (preflight : OfficeArchivePreflight) (member : ZipInfo) :
    Except PythonError Unit := do
  raiseIf (isAbsolute member.path = true ∨ ofString ".." ∈ pathParts member.path)
    (.valueError (ofString "Office document contains an unsafe archive path"))
  raiseIf ((member.externalAttr >>> 16) &&& 0o170000 = 0o120000)
    (.valueError (ofString "Office document contains a symbolic link"))
  raiseIf (member.flagBits &&& 1 ≠ 0)
    (.valueError (ofString "encrypted Office documents are not supported"))
  raiseIf (preflight.maxEntryBytes < member.fileSize)
    (.valueError (ofString "Office document contains an oversized archive member"))
  let ratio := Binary64.nearest ((member.fileSize : ℚ)/(max 1 member.compressSize : ℕ))
  raiseIf ((preflight.maxCompressionRatio : ℚ) < ratio)
    (.valueError (ofString "Office document contains an excessive compression ratio"))

/-- The loop of `validate`. -/
def validateMembers (preflight : OfficeArchivePreflight) (expanded : ℕ) :
    List ZipInfo → Except PythonError Unit
  | [] => .ok ()
  | member :: members => do
    preflight.validateMember member
    raiseIf (preflight.maxExpandedBytes < expanded+member.fileSize)
      (.valueError (ofString "Office document expands beyond the allowed size"))
    validateMembers preflight (expanded+member.fileSize) members

/-- `validate`, of what `zipfile` makes of the file: its members, or `none` for BadZipFile. -/
def validate (preflight : OfficeArchivePreflight) (archive : Except PythonError (Option (List ZipInfo)))
    (mediaType : Str) : Except PythonError Unit :=
  match requiredMember mediaType with
  | none => .ok ()
  | some required => do
    match ← archive with
    | none => .error (.valueError (ofString "Office document archive is invalid"))
    | some members => do
      raiseIf (preflight.maxEntries < members.length)
        (.valueError (ofString "Office document contains too many archive members"))
      let names := (members.map ZipInfo.filename).dedup
      raiseIf (names.length ≠ members.length)
        (.valueError (ofString "Office document contains duplicate archive members"))
      raiseIf (required ∉ names)
        (.valueError (ofString "Office document does not match its declared media type"))
      preflight.validateMembers 0 members

/-- A member that can be unpacked. -/
structure SafeMember (preflight : OfficeArchivePreflight) (member : ZipInfo) : Prop where
  relative : isAbsolute member.path = false
  no_parent : ofString ".." ∉ pathParts member.path
  no_link : (member.externalAttr >>> 16) &&& 0o170000 ≠ 0o120000
  plain : member.flagBits &&& 1 = 0
  size : member.fileSize ≤ preflight.maxEntryBytes
  ratio : member.fileSize ≤ preflight.maxCompressionRatio*max 1 member.compressSize

/-- An archive that can be unpacked as a whole. -/
structure SafeArchive (preflight : OfficeArchivePreflight) (required : Str)
    (members : List ZipInfo) : Prop where
  entries : members.length ≤ preflight.maxEntries
  distinct : (members.map ZipInfo.filename).Nodup
  required_member : required ∈ members.map ZipInfo.filename
  members_safe : ∀ member ∈ members, SafeMember preflight member
  expanded : (members.map ZipInfo.fileSize).sum ≤ preflight.maxExpandedBytes

section Validate

variable (preflight : OfficeArchivePreflight)

/-- The float of the ratio is on the same side of the bound as the ratio. -/
theorem ratio_le_iff {member : ZipInfo} (hsize : member.fileSize ≤ preflight.maxEntryBytes) :
    Binary64.nearest ((member.fileSize : ℚ)/(max 1 member.compressSize : ℕ))
        ≤ (preflight.maxCompressionRatio : ℚ)
      ↔ member.fileSize ≤ preflight.maxCompressionRatio*max 1 member.compressSize :=
  Binary64.nearest_quotient_le_iff (hsize.trans preflight.entry_limit)
    (Nat.lt_of_lt_of_le Nat.one_pos (le_max_left 1 _)) preflight.ratio_positive

theorem validateMember_eq_ok (member : ZipInfo) (u : Unit) :
    preflight.validateMember member = .ok u ↔ SafeMember preflight member := by
  simp only [validateMember, bind_eq_ok, raiseIf_eq_ok, exists_const, not_or,
    Bool.not_eq_true, not_not, not_lt]
  constructor
  · rintro ⟨⟨hrelative, hparent⟩, hlink, hplain, hsize, hratio⟩
    exact ⟨hrelative, hparent, hlink, hplain, hsize, (ratio_le_iff preflight hsize).mp hratio⟩
  · rintro ⟨hrelative, hparent, hlink, hplain, hsize, hratio⟩
    exact ⟨⟨hrelative, hparent⟩, hlink, hplain, hsize, (ratio_le_iff preflight hsize).mpr hratio⟩

/-- The sum stays within the limit in every round exactly when the whole does. -/
theorem validateMembers_eq_ok {expanded : ℕ} (h : expanded ≤ preflight.maxExpandedBytes)
    (members : List ZipInfo) : preflight.validateMembers expanded members = .ok () ↔
      (∀ member ∈ members, SafeMember preflight member)
        ∧ expanded+(members.map ZipInfo.fileSize).sum ≤ preflight.maxExpandedBytes := by
  induction members generalizing expanded with
  | nil =>
    constructor
    · exact fun _ => ⟨List.forall_mem_nil _, h⟩
    · exact fun _ => rfl
  | cons member members ih =>
    simp only [validateMembers, bind_eq_ok, raiseIf_eq_ok, exists_const, not_lt,
      validateMember_eq_ok, List.forall_mem_cons, List.map_cons, List.sum_cons]
    constructor
    · rintro ⟨hmember, hround, hrest⟩
      obtain ⟨hmembers, hsum⟩ := (ih hround).mp hrest
      exact ⟨⟨hmember, hmembers⟩, by omega⟩
    · rintro ⟨⟨hmember, hmembers⟩, hsum⟩
      have hround : expanded+member.fileSize ≤ preflight.maxExpandedBytes := by omega
      exact ⟨hmember, hround, (ih hround).mpr ⟨hmembers, by omega⟩⟩

theorem dedup_length_iff (names : List Str) : names.dedup.length = names.length ↔ names.Nodup := by
  constructor
  · intro hlength
    rw [← (List.dedup_sublist names).eq_of_length hlength]
    exact List.nodup_dedup names
  · intro hdistinct
    rw [hdistinct.dedup]

/-- An office file passes exactly when its archive is safe. -/
theorem validate_eq_ok (archive : Except PythonError (Option (List ZipInfo)))
    {mediaType required : Str} (hrequired : requiredMember mediaType = some required) :
    preflight.validate archive mediaType = .ok ()
      ↔ ∃ members, archive = .ok (some members) ∧ SafeArchive preflight required members := by
  have hloop (members : List ZipInfo) := validateMembers_eq_ok preflight (Nat.zero_le _) members
  rw [validate, hrequired]
  dsimp only
  rw [bind_eq_ok]
  constructor
  · rintro ⟨_ | members, harchive, hchecks⟩
    · cases hchecks
    · simp only [bind_eq_ok, raiseIf_eq_ok, exists_const, not_lt, not_not, hloop] at hchecks
      obtain ⟨hentries, hlength, hmember, hsafe, hsum⟩ := hchecks
      rw [← List.length_map ZipInfo.filename, dedup_length_iff] at hlength
      rw [List.mem_dedup] at hmember
      exact ⟨members, harchive, hentries, hlength, hmember, hsafe, by omega⟩
  · rintro ⟨members, harchive, hentries, hdistinct, hmember, hsafe, hsum⟩
    refine ⟨some members, harchive, ?_⟩
    simp only [bind_eq_ok, raiseIf_eq_ok, exists_const, not_lt, not_not, hloop]
    have hlength := (dedup_length_iff _).mpr hdistinct
    rw [List.length_map] at hlength
    exact ⟨hentries, hlength, List.mem_dedup.mpr hmember, hsafe, by omega⟩

theorem SafeArchive.ratio {required : Str} {members : List ZipInfo}
    (h : SafeArchive preflight required members) : (members.map ZipInfo.fileSize).sum
      ≤ preflight.maxCompressionRatio*(members.map (fun member => max 1 member.compressSize)).sum := by
  rw [← List.sum_map_mul_left]
  exact List.sum_le_sum fun member hmember => (h.members_safe member hmember).ratio

end Validate

/-- Where a path leads from a directory. -/
def resolve (directory parts : List Str) : List Str :=
  parts.foldl (fun directory part =>
    if part = ofString ".." then directory.dropLast else directory++[part]) directory

theorem resolve_below (directory : List Str) {parts : List Str} (h : ofString ".." ∉ parts) :
    resolve directory parts = directory++parts := by
  induction parts generalizing directory with
  | nil => exact (List.append_nil directory).symm
  | cons part parts ih =>
    rw [List.mem_cons, not_or] at h
    obtain ⟨hpart, hparts⟩ := h
    have hstep : resolve directory (part :: parts) = resolve (directory++[part]) parts := by
      change resolve (if part = ofString ".." then directory.dropLast else directory++[part]) parts
        = _
      rw [if_neg (fun heq => hpart heq.symm)]
    rw [hstep, ih _ hparts, List.append_assoc, List.singleton_append]

/-- An office file passes the check exactly when its archive is safe as a whole. Wherever the
members of such an archive are unpacked, each of them stays below that directory, and together they
are no larger than the limit nor than the ratio allows. -/
theorem archives_unpack_safely (preflight : OfficeArchivePreflight)
    (archive : Except PythonError (Option (List ZipInfo))) {mediaType required : Str}
    (hrequired : requiredMember mediaType = some required) :
    (preflight.validate archive mediaType = .ok ()
      ↔ ∃ members, archive = .ok (some members) ∧ SafeArchive preflight required members)
    ∧ ∀ members, archive = .ok (some members) → preflight.validate archive mediaType = .ok () →
      (∀ member ∈ members, isAbsolute member.path = false ∧ ∀ directory,
        resolve directory (pathParts member.path) = directory++pathParts member.path)
      ∧ (members.map ZipInfo.fileSize).sum ≤ preflight.maxExpandedBytes
      ∧ (members.map ZipInfo.fileSize).sum ≤ preflight.maxCompressionRatio
        *(members.map (fun member => max 1 member.compressSize)).sum := by
  have hvalidate := validate_eq_ok preflight archive hrequired
  refine ⟨hvalidate, fun members harchive hpassed => ?_⟩
  obtain ⟨others, hothers, hsafe⟩ := hvalidate.mp hpassed
  rw [harchive] at hothers
  cases hothers
  refine ⟨fun member hmember => ?_, hsafe.expanded, hsafe.ratio⟩
  have hsafeMember := hsafe.members_safe member hmember
  exact ⟨hsafeMember.relative, fun directory => resolve_below directory hsafeMember.no_parent⟩

/-- A document with a picture, named the way Windows programs do. -/
def smallArchive : List ZipInfo :=
  [⟨ofString "word/document.xml", 0, 0, 2000, 400⟩, ⟨ofString "word\\media\\a.png", 0, 8, 0, 0⟩]

theorem archives_unpack_safely_small :
    default.validate (.ok (some smallArchive)) docxMediaType = .ok ()
    ∧ (smallArchive.map ZipInfo.fileSize).sum ≤ 1000*401 := by
  have hpassed : default.validate (.ok (some smallArchive)) docxMediaType = .ok () := by
    decide +kernel
  exact ⟨hpassed, ((archives_unpack_safely default _ rfl).2 smallArchive rfl hpassed).2.2⟩

end OfficeArchivePreflight

end ConferWorker
