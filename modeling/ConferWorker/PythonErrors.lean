import ConferWorker.Raising
import ConferWorker.PythonText

/-! Python exceptions, as far as the worker's `except` clauses tell them apart. -/
namespace ConferWorker

/-- The class of an exception. `InvalidWorkerRequestError` and the Unicode
errors are subclasses of `ValueError`; the latter count as `valueError`. -/
inductive ErrorClass
  | invalidWorkerRequest | documentOperation | valueError | osError | keyError
  | sqliteDatabaseError | zstdError
  | other (name : Str)
  deriving DecidableEq, Repr

structure PythonError where
  errorClass : ErrorClass
  message : Str
  deriving DecidableEq, Repr

namespace PythonError

/-- Caught by `except ValueError`. -/
def isValueError (error : PythonError) : Bool :=
  match error.errorClass with
  | .invalidWorkerRequest | .valueError => true
  | _ => false

/-- Caught by `except OSError`. -/
def isOsError (error : PythonError) : Bool := error.errorClass == .osError

def valueError (message : Str) : PythonError := ⟨.valueError, message⟩

def keyError (message : Str) : PythonError := ⟨.keyError, message⟩

def osError (message : Str) : PythonError := ⟨.osError, message⟩

def documentOperation (message : Str) : PythonError := ⟨.documentOperation, message⟩

def invalidWorkerRequest (message : Str) : PythonError := ⟨.invalidWorkerRequest, message⟩

def typeError (message : Str) : PythonError := ⟨.other (ofString "TypeError"), message⟩

def overflowError (message : Str) : PythonError := ⟨.other (ofString "OverflowError"), message⟩

/-- `sqlite3.IntegrityError`, a subclass of `sqlite3.DatabaseError`. -/
def integrityError (message : Str) : PythonError := ⟨.sqliteDatabaseError, message⟩

def structError (message : Str) : PythonError := ⟨.other (ofString "struct.error"), message⟩

/-- UnicodeEncodeError and UnicodeDecodeError. -/
def unicodeError (message : Str) : PythonError := ⟨.valueError, message⟩

end PythonError

/-- `s.encode("utf-8")`. -/
def encodeText (s : Str) : Except PythonError Bytes :=
  match encodeUtf8 s with
  | some bytes => .ok bytes
  | none => .error (.unicodeError (ofString "surrogates not allowed"))

/-- `bytes.decode("utf-8")`. -/
def decodeText (bytes : Bytes) : Except PythonError Str :=
  match decodeUtf8 bytes with
  | some s => .ok s
  | none => .error (.unicodeError (ofString "invalid utf-8"))

@[simp] theorem encodeText_eq_ok (s : Str) (bytes : Bytes) :
    encodeText s = .ok bytes ↔ Encodable s ∧ utf8 s = bytes := by
  rw [← encodeUtf8_eq_some]
  unfold encodeText
  cases encodeUtf8 s <;> simp

@[simp] theorem decodeText_eq_ok (bytes : Bytes) (s : Str) :
    decodeText bytes = .ok s ↔ Encodable s ∧ utf8 s = bytes := by
  rw [← decodeUtf8_eq_some_iff]
  unfold decodeText
  cases decodeUtf8 bytes <;> simp

end ConferWorker
