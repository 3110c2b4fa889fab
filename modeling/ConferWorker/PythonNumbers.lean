import Mathlib.Data.Rat.Defs
import Mathlib.Algebra.Order.Field.Rat
import ConferWorker.PythonErrors
import ConferWorker.UnicodeText

/-! `int(s)` of a text, with the errors. -/
namespace ConferWorker

/-- `int(s)`: no more than 4300 digits are read. -/
def readInt (s : Str) : Except PythonError ℤ :=
  match pythonInt 10 s with
  | none => .error (.valueError (ofString "invalid literal for int() with base 10"))
  | some n =>
    if 4300 < s.countP isDecimal then
      .error (.valueError (ofString "Exceeds the limit (4300 digits) for integer string conversion"))
    else .ok n

end ConferWorker
