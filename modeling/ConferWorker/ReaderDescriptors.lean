import ConferWorker.SessionCapacity

/-! The descriptors that the constructor of a reader needs and keeps, and what a session that is
short of them builds. -/
namespace ConferWorker

open Descriptors

variable {T : SessionTypes} {Database : Type}

/-- The descriptors that stay open behind a constructor. -/
def kept {α : Type} : Except PythonError α → ℕ
  | .ok _ => 2
  | .error _ => 0

namespace ReaderCalls

variable (calls : ReaderCalls T Database)

/-- A reader needs two descriptors and keeps them. -/
theorem readerInit_room {artifact : T.Artifact} {n : ℕ} (hroom : n+2 ≤ limitNoFile) :
    calls.readerInit artifact n = match calls.outcome artifact with
      | .ok reader => (.ok reader, n+2)
      | .error error => (.error error, n) := by
  have hfirst : n < limitNoFile := by omega
  have hsecond : n+1 < limitNoFile := by omega
  have hunpacked : during limitNoFile (Script.lift (calls.unpack artifact)) (n+1)
      = (calls.unpack artifact, n+1) := during_room hsecond
  rw [readerInit, Script.bind_ok _ (take_room hfirst), outcome]
  cases hunpack : calls.unpack artifact with
  | error error =>
    rw [hunpack] at hunpacked
    exact dropOnError_error (Script.bind_error _ hunpacked)
  | ok database =>
    rw [hunpack] at hunpacked
    rw [ok_bind]
    cases hconnect : calls.connect database with
    | error error =>
      apply dropOnError_error (m := n+1)
      rw [Script.bind_ok _ hunpacked, Script.bind_ok _ (take_room hsecond), hconnect]
      rfl
    | ok reader =>
      apply dropOnError_ok
      rw [Script.bind_ok _ hunpacked, Script.bind_ok _ (take_room hsecond), hconnect]
      rfl

/-- Without them it raises, and nothing stays open. -/
theorem readerInit_full {artifact : T.Artifact} {n : ℕ} (hfull : limitNoFile < n+2) :
    calls.readerInit artifact n = (.error tooManyFiles, n) := by
  rw [readerInit]
  by_cases hfirst : n < limitNoFile
  · have hsecond : limitNoFile ≤ n+1 := by omega
    rw [Script.bind_ok _ (take_room hfirst)]
    exact dropOnError_error (Script.bind_error _ (during_full hsecond))
  · exact Script.bind_error _ (take_full (not_lt.mp hfirst))

/-- A reader keeps two descriptors if it was built, and none otherwise. -/
theorem readerInit_keeps (artifact : T.Artifact) (n : ℕ) :
    (calls.readerInit artifact n).2 = n+kept (calls.readerInit artifact n).1 := by
  by_cases hroom : n+2 ≤ limitNoFile
  · rw [calls.readerInit_room hroom]
    cases calls.outcome artifact with
    | ok reader => rfl
    | error error => rfl
  · rw [calls.readerInit_full (not_le.mp hroom)]
    rfl

/-- Behind the writer no descriptor stays open. -/
theorem writeArtifact_keeps (content : T.Content) (n : ℕ) :
    (calls.writeArtifact content n).2 = n := by
  unfold writeArtifact
  by_cases hfile : n < limitNoFile
  · rw [during_room hfile]
    by_cases hconnection : n+1 < limitNoFile
    · rw [duringConnection, duringOr_room hconnection]
      rfl
    · rw [duringConnection, duringOr_full (not_lt.mp hconnection)]
      rfl
  · rw [during_full (not_lt.mp hfile)]

/-- A reader on the artifact of a text. -/
theorem writeReader_eq (content : T.Content) (n : ℕ) :
    (calls.writeArtifact content >>= calls.readerInit) n
      = match (calls.writeArtifact content n).1 with
        | .ok artifact => calls.readerInit artifact n
        | .error error => (.error error, n) := by
  have hkeeps := calls.writeArtifact_keeps content n
  cases hwritten : calls.writeArtifact content n with
  | mk result m =>
    rw [hwritten] at hkeeps
    obtain rfl : m = n := hkeeps
    cases result with
    | ok artifact => exact Script.bind_ok _ hwritten
    | error error => exact Script.bind_error _ hwritten

/-- The same holds of a reader on the artifact of a text, which is closed afterwards. -/
theorem build_keeps (request : SessionRequest T) (n : ℕ) :
    (calls.build request n).2 = n+kept (calls.build request n).1 := by
  cases request with
  | openDocument request => exact calls.readerInit_keeps request.artifact n
  | openText request =>
    rw [build]
    cases hextract : calls.session.extract request.source request.filename
        (ofString "text/plain") with
    | error error => rfl
    | ok content =>
      change (during limitNoFile _ n).2 = n+kept (during limitNoFile _ n).1
      by_cases hroom : n < limitNoFile
      · rw [during_room hroom, calls.writeReader_eq]
        cases (calls.writeArtifact content (n+1)).1 with
        | error error => rfl
        | ok artifact =>
          change (calls.readerInit artifact (n+1)).2-1
            = n+kept (calls.readerInit artifact (n+1)).1
          rw [calls.readerInit_keeps]
          omega
      · rw [during_full (not_lt.mp hroom)]
        rfl
  | _ => rfl

/-- No constructor goes over the limit. -/
theorem readerInit_within (artifact : T.Artifact) {n : ℕ} (hn : n ≤ limitNoFile) :
    (calls.readerInit artifact n).2 ≤ limitNoFile := by
  by_cases hroom : n+2 ≤ limitNoFile
  · rw [calls.readerInit_room hroom]
    cases calls.outcome artifact with
    | ok reader => exact hroom
    | error error => exact hn
  · rw [calls.readerInit_full (not_le.mp hroom)]
    exact hn

theorem build_within (request : SessionRequest T) {n : ℕ} (hn : n ≤ limitNoFile) :
    (calls.build request n).2 ≤ limitNoFile := by
  cases request with
  | openDocument request => exact calls.readerInit_within request.artifact hn
  | openText request =>
    rw [build]
    cases hextract : calls.session.extract request.source request.filename
        (ofString "text/plain") with
    | error error => exact hn
    | ok content =>
      change (during limitNoFile _ n).2 ≤ limitNoFile
      by_cases hroom : n < limitNoFile
      · rw [during_room hroom, calls.writeReader_eq]
        cases (calls.writeArtifact content (n+1)).1 with
        | error error => exact hn
        | ok artifact => exact (Nat.sub_le _ 1).trans (calls.readerInit_within artifact hroom)
      · rw [during_full (not_lt.mp hroom)]
        exact hn
  | _ => exact hn

/-- The collaborators of a session that has `n` descriptors open, without the descriptors. -/
def allowed (n : ℕ) : SessionRequest T → SessionCalls T
  | .openText _ => { calls.session with
      write := fun content =>
        if limitNoFile ≤ n then .error tooManyFiles else (calls.writeArtifact content (n+1)).1
      readerFactory := fun artifact => (calls.readerInit artifact (n+1)).1 }
  | _ => { calls.session with readerFactory := fun artifact => (calls.readerInit artifact n).1 }

/-- What the session builds is what the collaborators allow. -/
theorem build_allowed (request : SessionRequest T) (n : ℕ) (hopens : request.opens = true) :
    DocumentSession.buildReader (calls.allowed n request) request
      = DocumentSession.asOperationError (openMessage request) (calls.build request n).1 := by
  cases request with
  | openDocument request => rfl
  | openText request =>
    rw [DocumentSession.buildReader, build]
    cases hextract : calls.session.extract request.source request.filename
        (ofString "text/plain") with
    | error error =>
      have hallowed : (calls.allowed n (.openText request)).extract request.source request.filename
          (ofString "text/plain") = .error error := hextract
      rw [hallowed]
      rfl
    | ok content =>
      have hallowed : (calls.allowed n (.openText request)).extract request.source request.filename
          (ofString "text/plain") = .ok content := hextract
      rw [hallowed, ok_bind]
      change _ = DocumentSession.asOperationError _ (during limitNoFile _ n).1
      by_cases hroom : n < limitNoFile
      · have hwritten : (calls.allowed n (.openText request)).write content
            = (calls.writeArtifact content (n+1)).1 := if_neg (not_le.mpr hroom)
        rw [during_room hroom, hwritten, calls.writeReader_eq]
        cases (calls.writeArtifact content (n+1)).1 with
        | error error => rfl
        | ok artifact => rfl
      · have hwritten : (calls.allowed n (.openText request)).write content
            = .error tooManyFiles := if_pos (not_lt.mp hroom)
        rw [during_full (not_lt.mp hroom), hwritten]
        rfl
  | _ => cases hopens

end ReaderCalls

end ConferWorker
