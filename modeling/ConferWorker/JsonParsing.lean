import ConferWorker.AttestationRequests
import ConferWorker.PythonNumbers
import ConferWorker.Scripts

/-! `json.loads` of the Python runtime: the text that the bytes stand for, and the value that
the text stands for. -/
namespace ConferWorker

/-- A part of a string literal: a character, or the 16 bits that a `\u` escape gives. -/
inductive JsonPiece
  | plain (c : CodePoint)
  | unit (n : ℕ)

namespace JsonParser

def isHigh (n : ℕ) : Prop := 0xD800 ≤ n ∧ n < 0xDC00

def isLow (n : ℕ) : Prop := 0xDC00 ≤ n ∧ n < 0xE000

instance (n : ℕ) : Decidable (isHigh n) := inferInstanceAs (Decidable (_ ∧ _))

instance (n : ℕ) : Decidable (isLow n) := inferInstanceAs (Decidable (_ ∧ _))

/-- A character beyond the basic plane from its two surrogates. -/
def joinPair (high low : ℕ) : CodePoint :=
  Fin.ofNat _ (0x10000+(high-0xD800)*1024+(low-0xDC00))

/-- A unit that had no partner. -/
def alone : Option ℕ → Str
  | none => []
  | some n => [Fin.ofNat _ n]

/-- The characters of the pieces behind a unit that may have been read before. -/
def joinFrom : Option ℕ → List JsonPiece → Str
  | held, [] => alone held
  | held, .plain c :: pieces => alone held++c :: joinFrom none pieces
  | none, .unit n :: pieces => joinFrom (some n) pieces
  | some high, .unit n :: pieces =>
    if isHigh high ∧ isLow n then joinPair high n :: joinFrom none pieces
    else Fin.ofNat _ high :: joinFrom (some n) pieces

/-- The characters of the pieces: a high surrogate and the low one after it are one character
if both of them were escaped. -/
def joinUnits (pieces : List JsonPiece) : Str := joinFrom none pieces

/-- What a character behind a backslash stands for. -/
def shortEscape (c : CodePoint) : Option CodePoint :=
  if c = 0x22 ∨ c = 0x5C ∨ c = 0x2F then some c
  else if c = 0x62 then some 0x08
  else if c = 0x66 then some 0x0C
  else if c = 0x6E then some 0x0A
  else if c = 0x72 then some 0x0D
  else if c = 0x74 then some 0x09
  else none

/-- Where in a string literal the scanner is: between the characters, behind a backslash, or in
front of some more digits of a `\u` escape. -/
inductive StringMode
  | plain
  | escaped
  | digits (left value : ℕ)

/-- A piece in front of those that are read after it. -/
def withPiece (piece : JsonPiece) (scanned : Option (List JsonPiece × Str)) :
    Option (List JsonPiece × Str) :=
  scanned.map (fun found => (piece :: found.1, found.2))

/-- `scanstring`, behind the opening quote: the pieces, and what follows the closing quote. -/
def scanString : StringMode → Str → Option (List JsonPiece × Str)
  | _, [] => none
  | .plain, c :: rest =>
    if c = 0x22 then some ([], rest)
    else if c = 0x5C then scanString .escaped rest
    else if c.val < 0x20 then none
    else withPiece (.plain c) (scanString .plain rest)
  | .escaped, c :: rest =>
    if c = 0x75 then scanString (.digits 4 0) rest
    else match shortEscape c with
      | some d => withPiece (.plain d) (scanString .plain rest)
      | none => none
  | .digits left value, c :: rest =>
    if isHexDigit c = false then none
    else if left ≤ 1 then withPiece (.unit (16*value+digitValue c)) (scanString .plain rest)
    else scanString (.digits (left-1) (16*value+digitValue c)) rest

/-- A string behind its opening quote. -/
def scanQuoted (text : Str) : Option (Str × Str) :=
  (scanString .plain text).map (fun found => (joinUnits found.1, found.2))

/-- A number: its text, whether it is a float, and what follows. -/
structure NumberToken where
  text : Str
  isFloat : Bool
  rest : Str

/-- The digits in front of a fraction; behind a leading zero there are no more. -/
def wholePart (text : Str) : Option (Str × Str) :=
  match text with
  | [] => none
  | c :: rest =>
    if c = 0x30 then some ([c], rest)
    else if isDecimalDigit c then
      some (c :: rest.takeWhile isDecimalDigit, rest.dropWhile isDecimalDigit)
    else none

/-- A point with digits behind it, or nothing. -/
def fractionPart (text : Str) : Str × Str :=
  match text with
  | [] => ([], [])
  | c :: rest =>
    if c = 0x2E ∧ rest.head?.any isDecimalDigit = true then
      (c :: rest.takeWhile isDecimalDigit, rest.dropWhile isDecimalDigit)
    else ([], text)

/-- The sign of an exponent, or nothing. -/
def exponentSign (text : Str) : Str × Str :=
  match text with
  | [] => ([], [])
  | c :: rest => if c = 0x2B ∨ c = 0x2D then ([c], rest) else ([], text)

/-- An exponent with digits in it, or nothing. -/
def exponentPart (text : Str) : Str × Str :=
  match text with
  | [] => ([], [])
  | c :: rest =>
    let (sign, digits) := exponentSign rest
    if (c = 0x65 ∨ c = 0x45) ∧ digits.head?.any isDecimalDigit = true then
      (c :: sign++digits.takeWhile isDecimalDigit, digits.dropWhile isDecimalDigit)
    else ([], text)

/-- A sign, and what follows. -/
def minusPart (text : Str) : Str × Str :=
  match text with
  | [] => ([], [])
  | c :: rest => if c = 0x2D then ([c], rest) else ([], text)

/-- `_match_number`. -/
def scanNumber (text : Str) : Option NumberToken := do
  let (sign, magnitude) := minusPart text
  let (whole, rest) ← wholePart magnitude
  let (fraction, rest) := fractionPart rest
  let (exponent, rest) := exponentPart rest
  some ⟨sign++whole++fraction++exponent, fraction ≠ [] ∨ exponent ≠ [], rest⟩

/-- The names that are read as values, with what `json.dumps` writes for the floats. -/
def constants : List (Str × Json) :=
  [(ofString "null", .null), (ofString "true", .bool true), (ofString "false", .bool false),
    (ofString "NaN", .float (ofString "NaN")), (ofString "Infinity", .float (ofString "Infinity")),
    (ofString "-Infinity", .float (ofString "-Infinity"))]

/-- The texts of the floats that are no numbers. -/
def floatNames : List Str := [ofString "NaN", ofString "Infinity", ofString "-Infinity"]

/-- The whole text is the number of a float. -/
def IsFloatNumber (text : Str) : Prop := scanNumber text = some ⟨text, true, []⟩

end JsonParser

/-- What of the runtime `json` depends on. -/
structure JsonRuntime where
  /-- What `json.dumps` writes for the float that a number stands for. -/
  floatText : Str → Str
  /-- A float is read back from its text. -/
  floatText_stable : ∀ text, JsonParser.IsFloatNumber text →
    floatText text ∈ JsonParser.floatNames
      ∨ JsonParser.IsFloatNumber (floatText text) ∧ floatText (floatText text) = floatText text
  /-- How many arrays and objects may be open at once. -/
  maxDepth : ℕ

/-- What the parser has in hand: the text that is left, and the pairs of the objects that are
complete. -/
structure JsonScan where
  rest : Str
  objects : List (List (Str × Json))

namespace JsonParser

abbrev JsonScript := Script JsonFailure JsonScan

def tooDeep : PythonError :=
  ⟨.other (ofString "RecursionError"), ofString "maximum recursion depth exceeded"⟩

def isWhite (c : CodePoint) : Bool := c == 0x20 || c == 0x09 || c == 0x0A || c == 0x0D

def skipWhite : JsonScript Unit :=
  Script.modify (fun scan => { scan with rest := scan.rest.dropWhile isWhite })

/-- What a function of the text finds at its front. -/
def token {α : Type} (scanner : Str → Except JsonFailure (α × Str)) : JsonScript α := fun scan =>
  match scanner scan.rest with
  | .ok (value, rest) => (.ok value, { scan with rest := rest })
  | .error failure => (.error failure, scan)

/-- Whether the character is next; it is read then. -/
def accept (c : CodePoint) : JsonScript Bool := fun scan =>
  if scan.rest.head? = some c then (.ok true, { scan with rest := scan.rest.drop 1 })
  else (.ok false, scan)

/-- The character must be next. -/
def expect (c : CodePoint) : JsonScript Unit := do
  let found ← accept c
  if found then pure () else Script.raise .notJson

/-- A number or a name. -/
def scanAtom (runtime : JsonRuntime) (text : Str) : Except JsonFailure (Json × Str) :=
  match constants.find? (fun constant => constant.1.isPrefixOf text) with
  | some constant => .ok (constant.2, text.drop constant.1.length)
  | none =>
    match scanNumber text with
    | none => .error .notJson
    | some number =>
      if number.isFloat then .ok (.float (runtime.floatText number.text), number.rest)
      else match readInt number.text with
        | .ok n => .ok (.int n, number.rest)
        | .error error => .error (.other error)

/-- A string that begins with its opening quote. -/
def scanStr : JsonScript Str := do
  expect 0x22
  token (fun text =>
    match scanQuoted text with
    | some found => .ok found
    | none => .error .notJson)

/-- The entries of an array or an object up to its bracket. Every round reads a character at
least. -/
def scanEntries {α : Type} (entry : JsonScript α) (bracket : CodePoint) :
    ℕ → JsonScript (List α)
  | 0 => Script.raise .notJson
  | fuel+1 => do
    let value ← entry
    skipWhite
    let closed ← accept bracket
    if closed then pure [value]
    else do
      expect 0x2C
      skipWhite
      let values ← scanEntries entry bracket fuel
      pure (value :: values)

/-- A name, a colon and a value. -/
def scanMember (item : JsonScript Json) : JsonScript (Str × Json) := do
  let name ← scanStr
  skipWhite
  expect 0x3A
  skipWhite
  let value ← item
  pure (name, value)

/-- As many rounds as the text that is left has characters. -/
def rounds {α : Type} (loop : ℕ → JsonScript α) : JsonScript α := fun scan =>
  loop scan.rest.length scan

/-- What is behind the opening bracket. -/
def scanBody {α : Type} (entry : JsonScript α) (bracket : CodePoint) : JsonScript (List α) := do
  skipWhite
  let closed ← accept bracket
  if closed then pure [] else rounds (scanEntries entry bracket)

/-- `_parse_array`. -/
def scanArray (item : JsonScript Json) : JsonScript Json := do
  expect 0x5B
  let items ← scanBody item 0x5D
  pure (.arr items)

/-- `_parse_object`. Where there is a hook it is called now. -/
def scanObject (item : JsonScript Json) : JsonScript Json := do
  expect 0x7B
  let members ← scanBody (scanMember item) 0x7D
  Script.modify (fun scan => { scan with objects := scan.objects++[members] })
  pure (.obj members)

/-- An array or an object, if one more may be open. -/
def nested (item : Option (JsonScript Json)) (scan : JsonScript Json → JsonScript Json) :
    JsonScript Json :=
  match item with
  | none => Script.raise (.other tooDeep)
  | some item => scan item

/-- `scan_once`, where `item` reads the values inside of arrays and objects. -/
def scanValue (runtime : JsonRuntime) (item : Option (JsonScript Json)) : JsonScript Json := do
  let front ← Script.ask (fun scan => .ok scan.rest.head?)
  if front = some 0x22 then do
    let value ← scanStr
    pure (.str value)
  else if front = some 0x7B then nested item scanObject
  else if front = some 0x5B then nested item scanArray
  else token (scanAtom runtime)

/-- `scan_once`, with so many levels left. -/
def scanOnce (runtime : JsonRuntime) : ℕ → JsonScript Json
  | 0 => scanValue runtime none
  | depth+1 => scanValue runtime (some (scanOnce runtime depth))

/-- A byte order mark is no white space. -/
def byteOrderMark : CodePoint := 0xFEFF

/-- `decode`: a value, and nothing but white space around it. -/
def decode (runtime : JsonRuntime) : JsonScript Json := do
  let front ← Script.ask (fun scan => .ok scan.rest.head?)
  if front = some byteOrderMark then Script.raise .notJson
  else do
    skipWhite
    let value ← scanOnce runtime runtime.maxDepth
    skipWhite
    let rest ← Script.ask (fun scan => .ok scan.rest)
    if rest = [] then pure value else Script.raise .notJson

/-- `json.loads` of a text. -/
def read (runtime : JsonRuntime) : JsonReads := fun text =>
  match decode runtime ⟨text, []⟩ with
  | (.ok value, _) => .ok value
  | (.error failure, scan) => .error (scan.objects, failure)

/-- An object as a `dict`: the last of the values under a name, where the name stood first. -/
def asDict (pairs : List (Str × Json)) : Except JsonFailure Json :=
  .ok (.obj (pairs.foldl (fun members pair => setItem members pair.1 pair.2) []))

end JsonParser

end ConferWorker
