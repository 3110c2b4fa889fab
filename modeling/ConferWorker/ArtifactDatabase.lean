import ConferWorker.DocumentContent
import ConferWorker.PythonErrors

/-! The tables of a document artifact, and SQLite and zstandard as parameters. -/
namespace ConferWorker

def magic : Bytes := [0x43, 0x46, 0x44, 0x4F, 0x43, 0x30, 0x30, 0x31]

/-- `struct.Struct(">8sQ").size`. -/
def headerSize : ℕ := 16

def applicationId : ℕ := 0x43464441

def minSupportedSchemaVersion : ℕ := 4

def schemaVersion : ℕ := 4

def maxDatabaseBytes : ℕ := 256*1024*1024

/-- `b"\n\f\n"`. -/
def containerSeparator : Bytes := [10, 12, 10]

structure ContainerRow where
  containerNumber : ℕ
  startOffset : ℕ
  endOffset : ℕ
  width : ℚ
  height : ℚ
  kind : Str
  label : Option Str
  deriving DecidableEq

structure BlockRow where
  containerNumber : ℕ
  blockOrder : ℕ
  startOffset : ℕ
  endOffset : ℕ
  x0 : ℚ
  y0 : ℚ
  x1 : ℚ
  y1 : ℚ
  source : Str
  confidence : ℚ
  deriving DecidableEq

structure RegionRow where
  id : Str
  containerNumber : ℕ
  type : Str
  x0 : ℚ
  y0 : ℚ
  x1 : ℚ
  y1 : ℚ
  startOffset : Option ℕ
  endOffset : Option ℕ
  confidence : ℚ
  renderable : ℕ
  assetMediaType : Option Str
  asset : Option Bytes
  deriving DecidableEq

structure OutlineRow where
  ordinal : ℕ
  level : ℕ
  title : Str
  containerNumber : ℕ
  deriving DecidableEq

structure ChunkRow where
  id : ℕ
  ordinal : ℕ
  startOffset : ℕ
  endOffset : ℕ
  containerStart : ℕ
  containerEnd : ℕ
  deriving DecidableEq

/-- The contents of the SQLite file. `documentText` is the row with `id = 1`. -/
structure Database where
  applicationId : ℕ
  userVersion : ℕ
  metadata : List (Str × Str)
  documentText : Option Bytes
  containers : List ContainerRow
  blocks : List BlockRow
  regions : List RegionRow
  outline : List OutlineRow
  chunks : List ChunkRow
  chunkFts : List (ℕ × Str)
  deriving DecidableEq

/-- A `str` bound to a TEXT column. -/
def sqlText (s : Str) : Except PythonError Str := do
  let _ ← encodeText s
  pure s

def sqlOptionalText : Option Str → Except PythonError (Option Str)
  | none => pure none
  | some s => some <$> sqlText s

/-- An `int` bound to an INTEGER column. Offsets and counts are lengths of
objects in memory and always fit. -/
def sqlInteger (n : ℕ) : Except PythonError ℕ := do
  raiseIf (2^63 ≤ n)
    (.overflowError (ofString "Python int too large to convert to SQLite INTEGER"))
  pure n

theorem sqlInteger_ok {n : ℕ} (h : n < 2^63) : sqlInteger n = .ok n := by
  rw [sqlInteger, raiseIf_of_not _ (by omega), ok_bind]
  rfl

theorem sqlText_eq_ok (s t : Str) : sqlText s = .ok t ↔ Encodable s ∧ s = t := by
  simp [sqlText]

theorem sqlOptionalText_eq_ok (s t : Option Str) :
    sqlOptionalText s = .ok t ↔ (∀ label, s = some label → Encodable label) ∧ s = t := by
  cases s with
  | none => simp [sqlOptionalText]
  | some s =>
    simp only [sqlOptionalText, map_eq_ok, sqlText_eq_ok, Option.some.injEq]
    constructor
    · rintro ⟨a, ⟨hs, rfl⟩, rfl⟩
      exact ⟨fun label h => h ▸ hs, rfl⟩
    · rintro ⟨hs, rfl⟩
      exact ⟨s, ⟨hs s rfl, rfl⟩, rfl⟩

namespace Database

/-! Inserts append rows to one table and leave the others. -/

def insertContainers (database : Database) (rows : List ContainerRow) : Database :=
  { database with containers := database.containers++rows }

def insertBlocks (database : Database) (rows : List BlockRow) : Database :=
  { database with blocks := database.blocks++rows }

def insertRegions (database : Database) (rows : List RegionRow) : Database :=
  { database with regions := database.regions++rows }

def insertOutline (database : Database) (rows : List OutlineRow) : Database :=
  { database with outline := database.outline++rows }

def insertChunks (database : Database) (rows : List ChunkRow) (texts : List (ℕ × Str)) : Database :=
  { database with chunks := database.chunks++rows, chunkFts := database.chunkFts++texts }

@[simp] theorem insertChunks_nil (database : Database) : database.insertChunks [] [] = database := by
  simp only [insertChunks, List.append_nil]

theorem insertChunks_insertChunks (database : Database) (rows rows' : List ChunkRow)
    (texts texts' : List (ℕ × Str)) :
    (database.insertChunks rows texts).insertChunks rows' texts'
      = database.insertChunks (rows++rows') (texts++texts') := by
  simp only [insertChunks, List.append_assoc]

end Database

/-- The bytes of the TEXT and BLOB values that the tables store. -/
def Database.storedBytes (database : Database) : ℕ :=
  (database.metadata.map (fun row => (utf8 row.1).length+(utf8 row.2).length)).sum
    + (database.documentText.getD []).length
    + (database.containers.map (fun row => (utf8 row.kind).length+(utf8 (row.label.getD [])).length)).sum
    + (database.blocks.map (fun row => (utf8 row.source).length)).sum
    + (database.regions.map (fun row => (utf8 row.id).length+(utf8 row.type).length
        +(utf8 (row.assetMediaType.getD [])).length+(row.asset.getD []).length)).sum
    + (database.outline.map (fun row => (utf8 row.title).length)).sum
    + (database.chunkFts.map (fun row => (utf8 row.2).length)).sum

/-- The results of successive `read` calls on a zstandard stream reader; an
empty chunk is the end of the stream. -/
abbrev ChunkStream := ℕ → Except PythonError Bytes

/-- The reads return these chunks and then the end of the stream. -/
def ChunkStream.Delivers (stream : ChunkStream) (bytes : Bytes) : Prop :=
  ∃ chunks : List Bytes, (∀ chunk ∈ chunks, chunk ≠ []) ∧
    (∀ i, stream i = .ok (chunks.getD i [])) ∧ chunks.flatten = bytes

/-- SQLite and zstandard as the artifact classes use them: the file that the
inserts, `commit` and `VACUUM` leave, and opening a file read-only. -/
structure ArtifactStorage where
  databaseFile : Database → Except PythonError Bytes
  openDatabase : Bytes → Except PythonError Database
  compress : Bytes → Bytes
  decompress : Bytes → ChunkStream

/-- What the artifact classes rely on. -/
structure ArtifactStorage.Faithful (storage : ArtifactStorage) : Prop where
  opens : ∀ database file, storage.databaseFile database = .ok file →
    storage.openDatabase file = .ok database
  holdsValues : ∀ database file, storage.databaseFile database = .ok file →
    database.storedBytes ≤ file.length
  unpacks : ∀ bytes, (storage.decompress (storage.compress bytes)).Delivers bytes

/-- `HEADER.pack(MAGIC, size)`. -/
def packHeader (size : ℕ) : Except PythonError Bytes := do
  raiseIf (2^64 ≤ size) (.structError (ofString "int too large to convert"))
  pure (magic++toBig 8 size)

theorem packHeader_eq_ok (size : ℕ) (bytes : Bytes) :
    packHeader size = .ok bytes ↔ size < 2^64 ∧ magic++toBig 8 size = bytes := by
  simp only [packHeader, bind_eq_ok, raiseIf_eq_ok, not_le, pure_eq_ok, exists_const]

end ConferWorker
