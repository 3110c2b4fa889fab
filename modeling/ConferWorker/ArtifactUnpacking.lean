import ConferWorker.ArtifactBuild

/-! Unpacking an artifact of any origin: what is written to the database file, when unpacking
returns, and how much it reads. The decompressor may yield any chunks, without end, or fail. -/
namespace ConferWorker

/-- The chunks up to the first empty one are together `bytes`. -/
def ChunkStream.Outputs (stream : ChunkStream) (bytes : Bytes) : Prop :=
  ∃ chunks : List Bytes, (∀ chunk ∈ chunks, chunk ≠ []) ∧
    (∀ i ≤ chunks.length, stream i = .ok (chunks.getD i [])) ∧ chunks.flatten = bytes

/-- The size field of the header. -/
def declaredSize (artifact : Bytes) : ℕ := fromBig ((artifact.take headerSize).drop 8)

/-- A full header with the right magic. -/
def HasHeader (artifact : Bytes) : Prop :=
  (artifact.take headerSize).length = headerSize ∧ (artifact.take headerSize).take 8 = magic

/-- The decompressor fails with `ZstdError` only. -/
def FailsWithZstdError (storage : ArtifactStorage) : Prop :=
  ∀ bytes i error, storage.decompress bytes i = .error error → error.errorClass = .zstdError

section Copy

variable {stream : ChunkStream} {expectedSize : ℕ}

/-- How one read of the loop ends it or goes on. -/
theorem copyChunks_cases (stream : ChunkStream) (expectedSize i : ℕ) (database : Bytes) :
    (∃ error, stream i = .error error
      ∧ copyChunks stream expectedSize i database = (database, .error (unpackError error)))
    ∨ (stream i = .ok [] ∧ copyChunks stream expectedSize i database = (database, .ok ()))
    ∨ ∃ chunk, stream i = .ok chunk ∧ chunk ≠ [] ∧
      ((min expectedSize maxDatabaseBytes < database.length+chunk.length
        ∧ copyChunks stream expectedSize i database
          = (database, .error (.valueError (ofString "artifact database exceeds declared size"))))
      ∨ (database.length+chunk.length ≤ min expectedSize maxDatabaseBytes
        ∧ copyChunks stream expectedSize i database
          = copyChunks stream expectedSize (i+1) (database++chunk))) := by
  rw [copyChunks]
  cases hread : stream i with
  | error error => exact Or.inl ⟨error, rfl, rfl⟩
  | ok chunk =>
    cases chunk with
    | nil => exact Or.inr (Or.inl ⟨rfl, rfl⟩)
    | cons b rest =>
      refine Or.inr (Or.inr ⟨b :: rest, rfl, List.cons_ne_nil b rest, ?_⟩)
      dsimp only
      split_ifs with hlarge
      · exact Or.inl ⟨by omega, rfl⟩
      · exact Or.inr ⟨by omega, rfl⟩

/-- The loop by the room that is left: a property that goes back over one more chunk holds. -/
theorem copyChunks_induction (stream : ChunkStream) (expectedSize : ℕ) (P : ℕ → Bytes → Prop)
    (hstep : ∀ i database, (∀ chunk, stream i = .ok chunk → chunk ≠ [] →
      database.length+chunk.length ≤ min expectedSize maxDatabaseBytes →
      P (i+1) (database++chunk)) → P i database) (i : ℕ) (database : Bytes) : P i database := by
  induction hleft : min expectedSize maxDatabaseBytes-database.length
    using Nat.strong_induction_on generalizing i database with
  | _ left ih =>
    apply hstep
    intro chunk _ hne hsize
    have hpos : 0 < chunk.length := List.length_pos_iff.mpr hne
    apply ih _ _ _ _ rfl
    rw [List.length_append]
    omega

/-- The file grows up to the limit at most. -/
theorem copyChunks_bounded (i : ℕ) (database : Bytes) :
    database.length ≤ min expectedSize maxDatabaseBytes →
    (copyChunks stream expectedSize i database).1.length ≤ min expectedSize maxDatabaseBytes := by
  induction i, database using copyChunks_induction stream expectedSize with
  | hstep i database ih =>
    intro hsize
    rcases copyChunks_cases stream expectedSize i database with
      ⟨error, _, h⟩ | ⟨_, h⟩ | ⟨chunk, hread, hne, ⟨_, h⟩ | ⟨hle, h⟩⟩
    · rwa [h]
    · rwa [h]
    · rwa [h]
    · rw [h]
      apply ih chunk hread hne hle
      rwa [List.length_append]

/-- A loop that returns has copied the chunks up to the first empty one. -/
theorem copyChunks_outputs (i : ℕ) (database file : Bytes) :
    copyChunks stream expectedSize i database = (file, .ok ()) →
    ∃ chunks : List Bytes, (∀ chunk ∈ chunks, chunk ≠ [])
      ∧ (∀ k ≤ chunks.length, stream (i+k) = .ok (chunks.getD k []))
      ∧ file = database++chunks.flatten := by
  induction i, database using copyChunks_induction stream expectedSize with
  | hstep i database ih =>
    intro hcopy
    rcases copyChunks_cases stream expectedSize i database with
      ⟨error, _, h⟩ | ⟨hread, h⟩ | ⟨chunk, hread, hne, ⟨_, h⟩ | ⟨hle, h⟩⟩
    · rw [h] at hcopy
      exact absurd (congrArg Prod.snd hcopy) (by simp)
    · rw [h] at hcopy
      refine ⟨[], List.forall_mem_nil _, ?_, ?_⟩
      · intro k hk
        obtain rfl : k = 0 := Nat.le_zero.mp hk
        exact hread
      · rw [List.flatten_nil, List.append_nil]
        exact (congrArg Prod.fst hcopy).symm
    · rw [h] at hcopy
      exact absurd (congrArg Prod.snd hcopy) (by simp)
    · obtain ⟨chunks, hchunks, hstream, hfile⟩ := ih chunk hread hne hle (h ▸ hcopy)
      refine ⟨chunk :: chunks, List.forall_mem_cons.mpr ⟨hne, hchunks⟩, ?_, ?_⟩
      · intro k hk
        cases k with
        | zero => exact hread
        | succ k =>
          rw [List.getD_cons_succ, ← hstream k (Nat.le_of_succ_le_succ hk)]
          congr 1
          omega
      · rw [hfile, List.flatten_cons, List.append_assoc]

/-- Chunks that fit are copied whole. -/
theorem copyChunks_fitting (chunks : List Bytes) (i : ℕ) (database : Bytes)
    (hchunks : ∀ chunk ∈ chunks, chunk ≠ [])
    (hstream : ∀ k ≤ chunks.length, stream (i+k) = .ok (chunks.getD k []))
    (hsize : database.length+chunks.flatten.length ≤ min expectedSize maxDatabaseBytes) :
    copyChunks stream expectedSize i database = (database++chunks.flatten, .ok ()) := by
  induction chunks generalizing i database with
  | nil =>
    have hend : stream i = .ok [] := hstream 0 le_rfl
    rcases copyChunks_cases stream expectedSize i database with
      ⟨error, hread, _⟩ | ⟨_, h⟩ | ⟨chunk, hread, hne, _⟩
    · exact absurd (hend.symm.trans hread) (by simp)
    · rw [h, List.flatten_nil, List.append_nil]
    · exact absurd (Except.ok.inj (hread.symm.trans hend)) hne
  | cons first chunks ih =>
    obtain ⟨hfirst, hrest⟩ := List.forall_mem_cons.mp hchunks
    have hnow : stream i = .ok first := hstream 0 (Nat.zero_le _)
    rw [List.flatten_cons, List.length_append] at hsize
    rcases copyChunks_cases stream expectedSize i database with
      ⟨error, hread, _⟩ | ⟨hread, _⟩ | ⟨chunk, hread, hne, hcases⟩
    · exact absurd (hnow.symm.trans hread) (by simp)
    · exact absurd (Except.ok.inj (hnow.symm.trans hread)) hfirst
    · obtain rfl : first = chunk := Except.ok.inj (hnow.symm.trans hread)
      rcases hcases with ⟨hlarge, _⟩ | ⟨_, h⟩
      · omega
      · rw [h, ih (i+1) (database++first) hrest _ (by rw [List.length_append]; omega),
          List.flatten_cons, List.append_assoc]
        intro k hk
        have hnext := hstream (k+1) (Nat.succ_le_succ hk)
        rw [List.getD_cons_succ] at hnext
        rw [← hnext]
        congr 1
        omega

/-- The error of a loop that raises. -/
theorem copyChunks_error (hzstd : ∀ i error, stream i = .error error → error.errorClass = .zstdError)
    (i : ℕ) (database : Bytes) (error : PythonError) :
    (copyChunks stream expectedSize i database).2 = .error error → error.errorClass = .valueError := by
  induction i, database using copyChunks_induction stream expectedSize with
  | hstep i database ih =>
    intro hraise
    rcases copyChunks_cases stream expectedSize i database with
      ⟨cause, hread, h⟩ | ⟨_, h⟩ | ⟨chunk, hread, hne, ⟨_, h⟩ | ⟨hle, h⟩⟩
    · rw [h] at hraise
      rw [← Except.error.inj hraise, unpackError, if_pos (hzstd i cause hread)]
      rfl
    · rw [h] at hraise
      exact absurd hraise (by simp)
    · rw [h] at hraise
      rw [← Except.error.inj hraise]
      rfl
    · exact ih chunk hread hne hle (h ▸ hraise)

/-- The loop depends on finitely many reads: one for each byte that may still be written, and
the last one. -/
theorem copyChunks_reads (other : ChunkStream) (i : ℕ) (database : Bytes) :
    (∀ k ≤ min expectedSize maxDatabaseBytes-database.length, other (i+k) = stream (i+k)) →
    copyChunks other expectedSize i database = copyChunks stream expectedSize i database := by
  induction i, database using copyChunks_induction stream expectedSize with
  | hstep i database ih =>
    intro hsame
    have hfirst : other i = stream i := hsame 0 (Nat.zero_le _)
    rcases copyChunks_cases stream expectedSize i database with
      ⟨error, hread, h⟩ | ⟨hread, h⟩ | ⟨chunk, hread, hne, hcases⟩
    · rw [h, copyChunks, hfirst, hread]
    · rw [h, copyChunks, hfirst, hread]
    · obtain ⟨b, rest, rfl⟩ := List.exists_cons_of_ne_nil hne
      rw [copyChunks, hfirst, hread]
      dsimp only
      rcases hcases with ⟨hlarge, h⟩ | ⟨hle, h⟩
      · rw [if_pos (by omega), h]
      · rw [if_neg (by omega), h]
        apply ih (b :: rest) hread hne hle
        intro k hk
        rw [List.length_append, List.length_cons] at hk
        rw [List.length_cons] at hle
        have hnext := hsame (k+1) (by omega)
        rwa [← Nat.add_assoc, Nat.add_right_comm] at hnext

end Copy

section Unpack

variable {storage : ArtifactStorage} {artifact : Bytes}

/-- The loop of `_unpack` on an artifact with a valid header. -/
theorem unpack_eq (hheader : HasHeader artifact) (hsize : declaredSize artifact ≤ maxDatabaseBytes)
    {file : Bytes} {outcome : Except PythonError Unit}
    (hcopy : copyChunks (storage.decompress (artifact.drop headerSize)) (declaredSize artifact) 0 []
      = (file, outcome)) :
    unpack storage artifact = (file, do
      outcome
      raiseIf (file.length ≠ declaredSize artifact)
        (.valueError (ofString "artifact database size does not match header"))) := by
  unfold declaredSize at hsize hcopy
  unfold unpack
  simp only [hheader.1, hheader.2, ne_eq, not_true_eq_false, if_false]
  rw [if_neg (Nat.not_lt.mpr hsize), hcopy]
  rfl

/-- An artifact without a valid header, or with too large a size in it, is refused before
anything is read. -/
theorem unpack_refused (h : ¬(HasHeader artifact ∧ declaredSize artifact ≤ maxDatabaseBytes)) :
    ∃ error, unpack storage artifact = ([], .error error) ∧ error.errorClass = .valueError := by
  unfold unpack
  simp only
  split_ifs with hlength hmagic hlarge
  · exact ⟨_, rfl, rfl⟩
  · exact ⟨_, rfl, rfl⟩
  · exact ⟨_, rfl, rfl⟩
  · exact absurd ⟨⟨not_not.mp hlength, not_not.mp hmagic⟩, Nat.not_lt.mp hlarge⟩ h

theorem unpack_bounded :
    (unpack storage artifact).1.length ≤ min (declaredSize artifact) maxDatabaseBytes := by
  by_cases h : HasHeader artifact ∧ declaredSize artifact ≤ maxDatabaseBytes
  · rw [unpack_eq h.1 h.2 rfl]
    exact copyChunks_bounded 0 [] (Nat.zero_le _)
  · obtain ⟨error, hunpack, _⟩ := @unpack_refused storage artifact h
    rw [hunpack]
    exact Nat.zero_le _

/-- A normal return is exactly a valid header with the output that it declares. -/
theorem unpack_eq_ok (file : Bytes) :
    unpack storage artifact = (file, .ok ())
      ↔ HasHeader artifact ∧ declaredSize artifact ≤ maxDatabaseBytes
        ∧ (storage.decompress (artifact.drop headerSize)).Outputs file
        ∧ file.length = declaredSize artifact := by
  by_cases h : HasHeader artifact ∧ declaredSize artifact ≤ maxDatabaseBytes
  · constructor
    · intro hunpack
      obtain ⟨copied, outcome, hcopy⟩ : ∃ copied outcome,
          copyChunks (storage.decompress (artifact.drop headerSize)) (declaredSize artifact) 0 []
            = (copied, outcome) := ⟨_, _, rfl⟩
      rw [unpack_eq h.1 h.2 hcopy, Prod.mk.injEq, bind_eq_ok] at hunpack
      obtain ⟨rfl, ⟨⟩, houtcome, hlength⟩ := hunpack
      rw [raiseIf_eq_ok, not_not] at hlength
      rw [houtcome] at hcopy
      obtain ⟨chunks, hchunks, hstream, hfile⟩ := copyChunks_outputs 0 [] copied hcopy
      refine ⟨h.1, h.2, ⟨chunks, hchunks, fun k hk => ?_, hfile.symm⟩, hlength⟩
      rw [← hstream k hk, Nat.zero_add]
    · rintro ⟨_, _, ⟨chunks, hchunks, hstream, rfl⟩, hlength⟩
      have hroom : ([] : Bytes).length+chunks.flatten.length
          ≤ min (declaredSize artifact) maxDatabaseBytes := by
        rw [List.length_nil, Nat.zero_add, hlength]
        exact le_min le_rfl h.2
      have hcopy : copyChunks (storage.decompress (artifact.drop headerSize))
          (declaredSize artifact) 0 [] = (chunks.flatten, .ok ()) := by
        apply copyChunks_fitting chunks 0 [] hchunks _ hroom
        intro k hk
        rw [Nat.zero_add]
        exact hstream k hk
      rw [unpack_eq h.1 h.2 hcopy, ok_bind, raiseIf_of_not _ (not_not.mpr hlength)]
  · obtain ⟨error, hunpack, _⟩ := @unpack_refused storage artifact h
    rw [hunpack]
    constructor
    · intro heq
      exact absurd (congrArg Prod.snd heq) (by simp)
    · rintro ⟨hheader, hsize, _⟩
      exact absurd ⟨hheader, hsize⟩ h

/-- Everything else is a ValueError. -/
theorem unpack_error (hzstd : FailsWithZstdError storage) {error : PythonError}
    (hunpack : (unpack storage artifact).2 = .error error) : error.errorClass = .valueError := by
  by_cases h : HasHeader artifact ∧ declaredSize artifact ≤ maxDatabaseBytes
  · rw [unpack_eq h.1 h.2 rfl] at hunpack
    rcases (bind_eq_error _ _ _).mp hunpack with hcopy | ⟨_, _, hraise⟩
    · exact copyChunks_error (hzstd _) 0 [] error hcopy
    · unfold raiseIf at hraise
      split_ifs at hraise
      rw [← Except.error.inj hraise]
      rfl
  · obtain ⟨refusal, hrefused, hclass⟩ := @unpack_refused storage artifact h
    rw [hrefused] at hunpack
    rwa [← Except.error.inj hunpack]

/-- Unpacking depends on finitely many reads, no more than one for each declared byte and the
last one. -/
theorem unpack_reads (other : ArtifactStorage)
    (hsame : ∀ k ≤ min (declaredSize artifact) maxDatabaseBytes,
      other.decompress (artifact.drop headerSize) k
        = storage.decompress (artifact.drop headerSize) k) :
    unpack other artifact = unpack storage artifact := by
  have hcopy : copyChunks (other.decompress (artifact.drop headerSize)) (declaredSize artifact) 0 []
      = copyChunks (storage.decompress (artifact.drop headerSize)) (declaredSize artifact) 0 [] := by
    apply copyChunks_reads
    intro k hk
    rw [Nat.zero_add]
    exact hsame k hk
  unfold declaredSize at hcopy
  unfold unpack
  simp only [hcopy]

end Unpack

/-- Unpacking never writes more than is declared or allowed, returns exactly on artifacts whose
output has the declared size, with that output in the file, raises ValueError on all others
after finitely many reads, and gives back what the writer packed. -/
theorem unpack_exact (storage : ArtifactStorage) (hzstd : FailsWithZstdError storage) :
    (∀ artifact, (unpack storage artifact).1.length ≤ min (declaredSize artifact) maxDatabaseBytes
      ∧ (∀ file, unpack storage artifact = (file, .ok ())
        ↔ HasHeader artifact ∧ declaredSize artifact ≤ maxDatabaseBytes
          ∧ (storage.decompress (artifact.drop headerSize)).Outputs file
          ∧ file.length = declaredSize artifact)
      ∧ (∀ error, (unpack storage artifact).2 = .error error → error.errorClass = .valueError)
      ∧ ∀ other : ArtifactStorage, (∀ k ≤ min (declaredSize artifact) maxDatabaseBytes,
          other.decompress (artifact.drop headerSize) k
            = storage.decompress (artifact.drop headerSize) k) →
        unpack other artifact = unpack storage artifact)
    ∧ ∀ (writer : ArtifactWriter) (document : DocumentContent) (fuel : ℕ)
        (result : ArtifactWriter.BuildResult),
      storage.Faithful → writer.write storage document fuel = some (.ok result) →
      result.databaseSize ≤ maxDatabaseBytes →
      ∃ database file, writer.documentDatabase document fuel
          = some (.ok (database, utf8 document.canonicalText))
        ∧ storage.databaseFile database = .ok file
        ∧ unpack storage result.artifact = (file, .ok ()) := by
  constructor
  · intro artifact
    exact ⟨unpack_bounded, unpack_eq_ok, fun error => unpack_error hzstd, unpack_reads⟩
  · intro writer document fuel result faithful hwrite hsize
    obtain ⟨database, file, hdatabase, _, hfile, hlength, _, hresult, hartifact⟩ := write_ok hwrite
    refine ⟨database, file, hdatabase, hfile, ?_⟩
    rw [hartifact, unpack_packed faithful file hlength, if_pos (hresult ▸ hsize)]

/-- A storage that does not compress: an artifact of three bytes is unpacked. -/
theorem unpack_exact_plain :
    unpack (singleStorage createSchema) (magic++toBig 8 3++[1, 2, 3]) = ([1, 2, 3], .ok ()) := by
  have hzstd : FailsWithZstdError (singleStorage createSchema) := by
    intro bytes i error h
    cases h
  have hunpack := (unpack_exact (singleStorage createSchema) hzstd).1 (magic++toBig 8 3++[1, 2, 3])
  refine (hunpack.2.1 [1, 2, 3]).mpr
    ⟨⟨by decide, by decide⟩, by decide, ⟨[[1, 2, 3]], by decide, ?_, rfl⟩, by decide⟩
  intro i hi
  rw [List.length_singleton] at hi
  interval_cases i
  · rfl
  · rfl

end ConferWorker
