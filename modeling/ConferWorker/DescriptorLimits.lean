import ConferWorker.PythonErrors
import ConferWorker.Scripts

/-! Scripts whose state is the number of open descriptors of a process that may have `limit` of
them, and how many descriptors a script needs and keeps. -/
namespace ConferWorker

namespace Descriptors

open Script

abbrev Counted := Script PythonError ℕ

/-- `EMFILE`. -/
def tooManyFiles : PythonError := .osError (ofString "Too many open files")

/-- What `sqlite3.connect` raises where the system opens no file. -/
def unableToOpen : PythonError :=
  ⟨.sqliteDatabaseError, ofString "unable to open database file"⟩

/-- A descriptor is taken, or the error raised at the limit. -/
def takeOr (error : PythonError) (limit : ℕ) : Counted Unit := fun n =>
  if limit ≤ n then (.error error, n) else (.ok (), n+1)

/-- Opening a file. -/
def take (limit : ℕ) : Counted Unit := takeOr tooManyFiles limit

/-- Closing a file. -/
def drop : Counted Unit := Script.modify (fun n => n-1)

/-- An `ExitStack` around the rest of a constructor: a file that is open is closed if it raises. -/
def dropOnError {α : Type} (x : Counted α) : Counted α := fun n =>
  match x n with
  | (.ok a, m) => (.ok a, m)
  | (.error e, m) => (.error e, m-1)

def duringOr {α : Type} (error : PythonError) (limit : ℕ) (body : Counted α) : Counted α := do
  takeOr error limit
  body.andFinally drop

/-- `with open(...):`. -/
def during {α : Type} (limit : ℕ) (body : Counted α) : Counted α :=
  duringOr tooManyFiles limit body

/-- `with closing(sqlite3.connect(...)):`. -/
def duringConnection {α : Type} (limit : ℕ) (body : Counted α) : Counted α :=
  duringOr unableToOpen limit body

theorem takeOr_room {error : PythonError} {limit n : ℕ} (h : n < limit) :
    takeOr error limit n = (.ok (), n+1) :=
  if_neg (not_le.mpr h)

theorem takeOr_full {error : PythonError} {limit n : ℕ} (h : limit ≤ n) :
    takeOr error limit n = (.error error, n) :=
  if_pos h

theorem take_room {limit n : ℕ} (h : n < limit) : take limit n = (.ok (), n+1) := takeOr_room h

theorem take_full {limit n : ℕ} (h : limit ≤ n) : take limit n = (.error tooManyFiles, n) :=
  takeOr_full h

theorem dropOnError_ok {α : Type} {x : Counted α} {a : α} {n m : ℕ} (h : x n = (.ok a, m)) :
    dropOnError x n = (.ok a, m) := by
  rw [dropOnError, h]

theorem dropOnError_error {α : Type} {x : Counted α} {e : PythonError} {n m : ℕ}
    (h : x n = (.error e, m)) : dropOnError x n = (.error e, m-1) := by
  rw [dropOnError, h]

/-- With room for its descriptor a `with` statement leaves what its body leaves, without it. -/
theorem duringOr_room {α : Type} {error : PythonError} {limit n : ℕ} {body : Counted α}
    (h : n < limit) : duringOr error limit body n = ((body (n+1)).1, (body (n+1)).2-1) := by
  rw [duringOr, bind_ok _ (takeOr_room h)]
  rfl

theorem duringOr_full {α : Type} {error : PythonError} {limit n : ℕ} {body : Counted α}
    (h : limit ≤ n) : duringOr error limit body n = (.error error, n) :=
  bind_error _ (takeOr_full h)

theorem during_room {α : Type} {limit n : ℕ} {body : Counted α} (h : n < limit) :
    during limit body n = ((body (n+1)).1, (body (n+1)).2-1) :=
  duringOr_room h

theorem during_full {α : Type} {limit n : ℕ} {body : Counted α} (h : limit ≤ n) :
    during limit body n = (.error tooManyFiles, n) :=
  duringOr_full h

end Descriptors

end ConferWorker
