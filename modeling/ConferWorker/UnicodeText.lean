import ConferWorker.PythonText

/-! Python's text methods that go by the class of each character: `strip`, `splitlines`, runs
of characters, and the tables of the Unicode database that are too long to write down. -/
namespace ConferWorker

/-- The tables of the Unicode database that the worker uses: `str.casefold`, which folds
every character on its own, and `str.isalnum`. -/
structure UnicodeTables where
  casefold : CodePoint → Str
  isAlnum : CodePoint → Bool

namespace UnicodeTables

variable (tables : UnicodeTables)

/-- `\w` of `re`. -/
def isWord (c : CodePoint) : Bool := tables.isAlnum c || c == 0x5F

/-- `[^\W_]` of `re`. -/
def isTerm (c : CodePoint) : Bool := tables.isWord c && c != 0x5F

end UnicodeTables

/-- `\d` of `re`. -/
def isDecimal (c : CodePoint) : Bool := 0x30 ≤ (asciiForm c).val && (asciiForm c).val ≤ 0x39

/-- The maximal runs of characters with a property, from left to right. `run` is the run
that is being read. -/
def runsFrom (p : CodePoint → Bool) (run : Str) : Str → List Str
  | [] => if run = [] then [] else [run]
  | c :: rest =>
    if p c then runsFrom p (run++[c]) rest
    else if run = [] then runsFrom p [] rest
    else run :: runsFrom p [] rest

def runs (p : CodePoint → Bool) (s : Str) : List Str := runsFrom p [] s

/-- `s.strip()`. -/
def strip (s : Str) : Str := ((s.dropWhile isSpace).reverse.dropWhile isSpace).reverse

/-- The characters that end a line for `str.splitlines`. -/
def isLineBreak (c : CodePoint) : Bool :=
  (10 ≤ c.val && c.val ≤ 13) || (28 ≤ c.val && c.val ≤ 30) || c.val == 0x85 || c.val == 0x2028
    || c.val == 0x2029

/-- `s.splitlines()`; `line` is the line that is being read. A line feed behind a carriage
return ends no line of its own. -/
def splitLinesFrom (line : Str) (afterReturn : Bool) : Str → List Str
  | [] => if line = [] then [] else [line]
  | c :: rest =>
    if afterReturn && c == 10 then splitLinesFrom [] false rest
    else if isLineBreak c then line :: splitLinesFrom [] (c == 13) rest
    else splitLinesFrom (line++[c]) false rest

def splitLines (s : Str) : List Str := splitLinesFrom [] false s

/-- `re.sub(r"\s+", " ", s)`; `inSpace` says that the last character was white space. -/
def collapseSpaceFrom (inSpace : Bool) : Str → Str
  | [] => []
  | c :: rest =>
    if isSpace c then
      if inSpace then collapseSpaceFrom true rest else 0x20 :: collapseSpaceFrom true rest
    else c :: collapseSpaceFrom false rest

def collapseSpace (s : Str) : Str := collapseSpaceFrom false s

end ConferWorker
