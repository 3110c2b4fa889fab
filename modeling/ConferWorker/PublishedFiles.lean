import ConferWorker.WorkerConfiguration
import ConferWorker.AttestationAnswers

/-! What `confer-worker-config` lets others see: at every moment of every run, a file under a name
that the listener reads is whole and one that the listener accepts. -/
namespace ConferWorker

namespace WorkerConfiguration

open Listener Watched

/-- What may be in the directory under a name. -/
structure Allowed (name : Str) (file : File) : Prop where
  instance_id : name = instanceIdName → file.mode = 0o444
    ∧ ∃ digits, requireInstanceId digits = .ok () ∧ file.content = digits++[0x0A]
  evidence : name = manifestName ∨ name = bundleName → file.mode = 0o444
    ∧ ∃ text, readReleaseEvidence file.content = .ok text
  private_key : name = privateKeyName → file.mode = 0o600

def Published (files : Files) : Prop := ∀ name file, files name = some file → Allowed name file

theorem published_update {files : Files} {name : Str} {file : File} (h : Published files)
    (hfile : Allowed name file) : Published (Function.update files name (some file)) := by
  intro other found hfound
  by_cases hother : other = name
  · subst hother
    rw [Function.update_self] at hfound
    cases hfound
    exact hfile
  · rw [Function.update_of_ne hother] at hfound
    exact h other found hfound

theorem published_remove {files : Files} {name : Str} (h : Published files) :
    Published (remove name files) := by
  intro other found hfound
  by_cases hother : other = name
  · subst hother
    rw [remove, Function.update_self] at hfound
    cases hfound
  · rw [remove, Function.update_of_ne hother] at hfound
    exact h other found hfound

/-- No promise is made about a name that nobody reads. -/
theorem allowed_other {name : Str} (file : File) (hid : name ≠ instanceIdName)
    (hmanifest : name ≠ manifestName) (hbundle : name ≠ bundleName) (hkey : name ≠ privateKeyName) :
    Allowed name file :=
  ⟨fun h => absurd h hid, fun h => absurd h (not_or.mpr ⟨hmanifest, hbundle⟩),
    fun h => absurd h hkey⟩

theorem allowed_publicKey (file : File) : Allowed publicKeyName file :=
  allowed_other file (by decide) (by decide) (by decide) (by decide)

theorem allowed_privateKey {file : File} (h : file.mode = 0o600) : Allowed privateKeyName file :=
  ⟨fun h => absurd h (by decide), fun h => absurd h (by decide), fun _ => h⟩

/-- A name with a fixed start is none of the names that do not start so. -/
theorem temporary_ne {destination name : Str} (suffix : Str)
    (h : name.take (destination++ofString ".").length ≠ destination++ofString ".") :
    destination++ofString "."++suffix ≠ name := by
  rintro rfl
  exact h List.take_left

/-- The names that are moved to. -/
def destinations : List Str := [instanceIdName, manifestName, bundleName]

theorem temporary_other {destination : Str} (h : destination ∈ destinations) (suffix : Str) :
    destination++ofString "."++suffix ≠ instanceIdName
      ∧ destination++ofString "."++suffix ≠ manifestName
      ∧ destination++ofString "."++suffix ≠ bundleName
      ∧ destination++ofString "."++suffix ≠ privateKeyName
      ∧ destination++ofString "."++suffix ≠ publicKeyName := by
  simp only [destinations, List.mem_cons, List.not_mem_nil, or_false] at h
  rcases h with rfl | rfl | rfl
  all_goals
    refine ⟨temporary_ne suffix ?_, temporary_ne suffix ?_, temporary_ne suffix ?_,
      temporary_ne suffix ?_, temporary_ne suffix ?_⟩ <;> decide

theorem allowed_temporary {destination : Str} (h : destination ∈ destinations) (suffix : Str)
    (file : File) : Allowed (destination++ofString "."++suffix) file := by
  obtain ⟨hid, hmanifest, hbundle, hkey, -⟩ := temporary_other h suffix
  exact allowed_other file hid hmanifest hbundle hkey

section Commands

variable {before : Files}

/-- From this directory on, the command lets others see only what is published, and where it
returns it leaves what is said. -/
abbrev Leaves {α : Type} (before : Files) (x : Command α) (Q : α → Files → Prop) : Prop :=
  Triple Published (fun files => files = before) x Q

theorem leaves_lift {α : Type} (outcome : Except ExitStatus α) :
    Leaves before (Script.lift outcome) (fun a files => files = before ∧ outcome = .ok a) :=
  triple_lift fun _ _ _ hfiles houtcome => ⟨hfiles, houtcome⟩

theorem leaves_change {outcome : Except ExitStatus Unit} {f : Files → Files}
    (h : Published before → Published (f before)) :
    Leaves before (change outcome f) (fun _ files => files = f before) := by
  apply triple_bind (leaves_lift outcome)
  intro _
  apply triple_change
  rintro _ hpublished ⟨rfl, -⟩
  exact ⟨h hpublished, rfl⟩

theorem leaves_changeFile {outcome : Except ExitStatus Unit} {name : Str} {f : Files → Files}
    (h : Published before → Published (f before)) :
    Leaves before (changeFile outcome name f) (fun _ files => files = f before) := by
  apply triple_bind (Q := fun _ files => files = before)
  · exact triple_look fun _ _ _ hfiles _ => hfiles
  · exact fun _ => leaves_change h

theorem leaves_rm (outcome : Except ExitStatus Unit) (name : Str) :
    Leaves before (rm outcome name) (fun _ files => files = remove name before) :=
  leaves_change published_remove

/-- Discarding a file never returns. -/
theorem leaves_discard (outcome : Except ExitStatus Unit) (name : Str)
    (Q : Unit → Files → Prop) : Triple Published (fun _ => True) (discard outcome name) Q := by
  intro watched halways _
  exact triple_bind (leaves_rm outcome name) (fun _ => triple_raise) watched halways rfl

theorem put_put (name : Str) (content later : Bytes) (files : Files) :
    put name later (put name content files) = put name later files := by
  rw [put, put, Function.update_self, Function.update_idem, Option.map_some, Option.getD_some]
  rfl

/-- The file that is written is a version of its final self all along. -/
theorem leaves_transfer {name : Str} (written : Transfer)
    (h : ∀ files content, Published files → Published (put name content files)) :
    Leaves before (transfer name written)
      (fun _ files => files = put name written.content before) := by
  have hparts (progress : List ℕ) : Triple Published
      (fun files => put name written.content files = put name written.content before)
      (writeParts name written.content progress)
      (fun _ files => put name written.content files = put name written.content before) := by
    induction progress with
    | nil => exact triple_pure fun _ _ hfiles => hfiles
    | cons size progress ih =>
      refine triple_bind (triple_change ?_) (fun _ => ih)
      intro files hpublished hfiles
      exact ⟨h files _ hpublished, by rw [put_put, hfiles]⟩
  have hwritten := (hparts written.progress).mono (S := fun files => files = before)
    (fun _ _ hfiles => by rw [hfiles]) (fun _ _ _ hfiles => hfiles)
  apply triple_bind hwritten
  intro _
  refine triple_bind (Q := fun _ files => files = put name written.content before)
    (triple_change ?_) ?_
  · intro files hpublished hfiles
    exact ⟨h files _ hpublished, hfiles⟩
  · exact fun _ => triple_lift fun _ _ _ hfiles _ => hfiles

theorem leaves_mktemp {destination : Str} (outcome : Except ExitStatus Str)
    (h : destination ∈ destinations) :
    Leaves before (mktemp outcome destination) (fun name files =>
      (∃ suffix, name = destination++ofString "."++suffix) ∧ before name = none
        ∧ files = Function.update before name (some ⟨[], 0o600⟩)) := by
  apply triple_bind (leaves_lift outcome)
  intro suffix
  refine triple_bind (Q := fun _ files => files = before
    ∧ before (destination++ofString "."++suffix) = none) (triple_look ?_) ?_
  · rintro _ files - ⟨rfl, -⟩ hanswer
    split_ifs at hanswer with hfresh
    exact ⟨rfl, hfresh⟩
  · intro _
    refine triple_bind (Q := fun _ files => before (destination++ofString "."++suffix) = none
      ∧ files = Function.update before (destination++ofString "."++suffix) (some ⟨[], 0o600⟩))
      (triple_change ?_) ?_
    · rintro _ hpublished ⟨rfl, hfresh⟩
      exact ⟨published_update hpublished (allowed_temporary h suffix _), hfresh, rfl⟩
    · intro _
      apply triple_pure
      rintro _ - ⟨hfresh, hfiles⟩
      exact ⟨⟨suffix, rfl⟩, hfresh, hfiles⟩

theorem leaves_readFile (name : Str) : Leaves before (readFile name) (fun content files =>
    files = before ∧ ∀ file, before name = some file → content = file.content) := by
  apply triple_look
  rintro content _ - rfl hanswer
  refine ⟨rfl, fun file hfile => ?_⟩
  rw [hfile] at hanswer
  exact (Except.ok.inj hanswer).symm

end Commands

section Temporaries

variable {before : Files} {name : Str} {file : File}

theorem put_update (content : Bytes) : put name content (Function.update before name (some file))
    = Function.update before name (some ⟨content, file.mode⟩) := by
  rw [put, Function.update_self, Function.update_idem]
  rfl

theorem setMode_update (mode : ℕ) : setMode name mode (Function.update before name (some file))
    = Function.update before name (some ⟨file.content, mode⟩) := by
  rw [setMode, Function.update_self, Function.update_idem]
  rfl

theorem remove_update (h : before name = none) :
    remove name (Function.update before name (some file)) = before := by
  rw [remove, Function.update_idem, ← h, Function.update_eq_self]

/-- A file that is moved leaves nothing under its temporary name. -/
theorem rename_update (destination : Str) (h : before name = none) :
    rename name destination (Function.update before name (some file))
      = Function.update before destination (some file) := by
  rw [rename, Function.update_self]
  dsimp only
  rw [remove_update h]

/-- Writing a temporary file, making it readable and moving it. -/
theorem published_put_temporary {destination : Str} (h : destination ∈ destinations) (suffix : Str)
    (files : Files) (content : Bytes) (hpublished : Published files) :
    Published (put (destination++ofString "."++suffix) content files) :=
  published_update hpublished (allowed_temporary h suffix _)

end Temporaries

/-- Evidence that passes the checks of `fetch_release_evidence`. -/
def Checked (content : Bytes) : Prop :=
  content ≠ [] ∧ content.length ≤ 32*1024 ∧ ∃ text, decodeUtf8 content = some text

/-- The checks of the script are the ones of the listener. -/
theorem checked_iff (content : Bytes) :
    Checked content ↔ ∃ text, readReleaseEvidence content = .ok text := by
  have hsize : maxReleaseEvidenceBytes = 32*1024 := rfl
  constructor
  · rintro ⟨hne, hlength, text, htext⟩
    refine ⟨text, ?_⟩
    rw [readReleaseEvidence, raiseIf_of_not _ (by rw [hsize, not_or, not_lt]; exact ⟨hne, hlength⟩),
      htext]
    rfl
  · rintro ⟨text, htext⟩
    obtain ⟨_, hchecked, htext⟩ := (bind_eq_ok _ _ _).mp htext
    rw [raiseIf_eq_ok, hsize, not_or, not_lt] at hchecked
    exact ⟨hchecked.1, hchecked.2, text, (valueOr_eq_ok _ _ _).mp htext⟩

section Evidence

variable {before : Files}

theorem leaves_requireSize {calls : EvidenceCalls} {name : Str} {file : File}
    (hbefore : before name = some file) :
    Leaves before (requireSize calls name) (fun _ files => files = before ∧ file.content ≠ []
      ∧ file.content.length ≤ 32*1024) := by
  apply triple_bind (leaves_readFile name)
  intro content
  refine triple_bind (Q := fun _ files => files = before ∧ content = file.content)
    (triple_lift fun _ _ _ hfiles _ => ⟨hfiles.1, hfiles.2 file hbefore⟩) ?_
  intro _
  by_cases hsize : content.length = 0 ∨ 32*1024 < content.length
  · rw [if_pos hsize]
    exact (leaves_discard calls.rm name _).mono (fun _ _ _ => trivial) (fun _ _ _ h => h)
  · rw [if_neg hsize]
    apply triple_pure
    rintro files - ⟨hfiles, rfl⟩
    rw [not_or, not_lt] at hsize
    exact ⟨hfiles, fun hnil => hsize.1 (by rw [hnil]; rfl), hsize.2⟩

theorem leaves_requireText {calls : EvidenceCalls} {name : Str} {file : File}
    (hbefore : before name = some file) :
    Leaves before (requireText calls name)
      (fun _ files => files = before ∧ ∃ text, decodeUtf8 file.content = some text) := by
  apply triple_orElse _ (leaves_discard calls.rm name _)
  apply triple_bind (leaves_readFile name)
  intro content
  apply triple_lift
  intro _ _ _ hfiles hanswer
  rw [hfiles.2 file hbefore] at hanswer
  refine ⟨hfiles.1, Option.isSome_iff_exists.mp ?_⟩
  by_contra hnone
  rw [if_pos (by rw [Option.not_isSome_iff_eq_none.mp hnone]; rfl)] at hanswer
  cases hanswer

/-- `fetch_release_evidence` moves what it fetched to its place, or does not return. -/
theorem leaves_fetchReleaseEvidence (calls : EvidenceCalls) {destination : Str}
    (h : destination = manifestName ∨ destination = bundleName) :
    Leaves before (fetchReleaseEvidence calls destination) (fun _ files =>
      files = Function.update before destination (some ⟨calls.curl.content, 0o444⟩)
        ∧ Checked calls.curl.content) := by
  have hmember : destination ∈ destinations := List.mem_cons_of_mem _ (by
    rcases h with rfl | rfl
    · exact List.mem_cons_self
    · exact List.mem_cons_of_mem _ List.mem_cons_self)
  apply triple_bind (leaves_mktemp calls.mktemp hmember)
  intro name
  apply triple_exact
  rintro _ - ⟨⟨suffix, rfl⟩, hfresh, rfl⟩
  -- curl may stop anywhere: all that it ever touches is the temporary name
  have hput := published_put_temporary hmember suffix
  apply triple_bind (triple_orElse (leaves_transfer calls.curl hput) (leaves_discard calls.rm _ _))
  intro _
  rw [put_update]
  have hthere (mode : ℕ) : Function.update before (destination++ofString "."++suffix)
      (some ⟨calls.curl.content, mode⟩) (destination++ofString "."++suffix)
        = some ⟨calls.curl.content, mode⟩ := Function.update_self ..
  apply triple_bind (leaves_requireSize (hthere _))
  intro _
  apply triple_exact
  rintro _ - ⟨rfl, hne, hlength⟩
  apply triple_bind (leaves_requireText (hthere _))
  intro _
  apply triple_exact
  rintro _ hpublished ⟨rfl, htext⟩
  have hchecked : Checked calls.curl.content := ⟨hne, hlength, htext⟩
  -- the final names are still as they were before the fetch
  have hkept : Published before := by
    rw [← remove_update hfresh]
    exact published_remove hpublished
  refine triple_bind (leaves_changeFile fun _ => ?_) ?_
  · rw [setMode_update]
    exact published_update hkept (allowed_temporary hmember suffix _)
  intro _
  rw [setMode_update]
  -- only the move publishes the evidence, and by then it has been checked
  refine (leaves_changeFile fun _ => ?_).mono (fun _ _ hfiles => hfiles) ?_
  · rw [rename_update destination hfresh]
    refine published_update hkept ⟨fun hid => ?_, fun _ => ?_, fun hkey => ?_⟩
    · rcases h with rfl | rfl <;> exact absurd hid (by decide)
    · exact ⟨rfl, (checked_iff _).mp hchecked⟩
    · rcases h with rfl | rfl <;> exact absurd hkey (by decide)
  · intro _ files _ hafter
    rw [rename_update destination hfresh] at hafter
    exact ⟨hafter, hchecked⟩

end Evidence

end WorkerConfiguration

end ConferWorker
