import ConferWorker.PythonText

/-! The expressions of a full-text index: their tokens, their grammar, and the rows that they
match. `OR` binds weakest, then `AND`, then `NOT`; strings are in double quotes or bare words. -/
namespace ConferWorker

inductive FtsToken
  | string (isQuoted : Bool) (text : Str)
  | and | or | not
  | leftParen | rightParen | leftBrace | rightBrace
  | colon | comma | plus | star | minus | caret
  deriving DecidableEq

namespace FtsToken

/-- A character of a bare word. -/
def isBareChar (c : CodePoint) : Bool :=
  0x80 ≤ c.val || (0x30 ≤ c.val && c.val ≤ 0x39) || (0x41 ≤ c.val && c.val ≤ 0x5A)
    || (0x61 ≤ c.val && c.val ≤ 0x7A) || c.val == 0x5F || c.val == 0x1A

/-- A bare word, which three operators are as well. -/
def ofBareWord (word : Str) : FtsToken :=
  if word = ofString "AND" then .and
  else if word = ofString "OR" then .or
  else if word = ofString "NOT" then .not
  else .string false word

def ofPunctuation (c : CodePoint) : Option FtsToken :=
  [(0x28, leftParen), (0x29, rightParen), (0x7B, leftBrace), (0x7D, rightBrace), (0x3A, colon),
    (0x2C, comma), (0x2B, plus), (0x2A, star), (0x2D, minus), (0x5E, caret)].lookup c.val

/-- What the last characters belong to; behind a NUL character nothing is read. -/
inductive Mode
  | outside
  | quoted (text : Str)
  | quoteSeen (text : Str)
  | bareWord (word : Str)
  | ended
  deriving DecidableEq

/-- A character that starts a token, or white space. -/
def readOutside (c : CodePoint) : Option (List FtsToken × Mode) :=
  if c.val = 32 ∨ c.val = 9 ∨ c.val = 10 ∨ c.val = 13 then some ([], .outside)
  else if c.val = 0 then some ([], .ended)
  else if c.val = 0x22 then some ([], .quoted [])
  else if isBareChar c then some ([], .bareWord [c])
  else (ofPunctuation c).map (fun token => ([token], .outside))

/-- One character: the tokens that it ends, and what it belongs to. -/
def readChar (c : CodePoint) : Mode → Option (List FtsToken × Mode)
  | .outside => readOutside c
  | .quoted text =>
    if c.val = 0 then none
    else if c.val = 0x22 then some ([], .quoteSeen text)
    else some ([], .quoted (text++[c]))
  | .quoteSeen text =>
    -- a doubled quote stands for one inside the string
    if c.val = 0x22 then some ([], .quoted (text++[c]))
    else (readOutside c).map (fun next => (.string true text :: next.1, next.2))
  | .bareWord word =>
    if isBareChar c then some ([], .bareWord (word++[c]))
    else (readOutside c).map (fun next => (ofBareWord word :: next.1, next.2))
  | .ended => some ([], .ended)

/-- The end of the expression. -/
def readEnd : Mode → Option (List FtsToken)
  | .outside | .ended => some []
  | .quoted _ => none
  | .quoteSeen text => some [.string true text]
  | .bareWord word => some [ofBareWord word]

def readAll (mode : Mode) : Str → Option (List FtsToken)
  | [] => readEnd mode
  | c :: rest => (readChar c mode).bind fun next => (readAll next.2 rest).map (next.1++·)

end FtsToken

/-- The tokens of an expression. -/
def ftsTokens (expression : Str) : Option (List FtsToken) :=
    FtsToken.readAll .outside expression

/-- Strings with `+` between them, each with or without a star behind it; `initial` is `^`. -/
structure FtsPhrase where
  initial : Bool
  strings : List (Str × Bool)
  deriving DecidableEq

inductive FtsExpr
  | phrase (p : FtsPhrase)
  | near (phrases : List FtsPhrase) (distance : ℕ)
  | columns (excluded : Bool) (names : List Str) (e : FtsExpr)
  | not (e f : FtsExpr)
  | and (e f : FtsExpr)
  | or (e f : FtsExpr)
  deriving DecidableEq

namespace FtsExpr

abbrev Parser (α : Type) := List FtsToken → Option (α × List FtsToken)

/-- `star_opt`. -/
def starOption : List FtsToken → Bool × List FtsToken
  | .star :: tokens => (true, tokens)
  | tokens => (false, tokens)

/-- The strings behind `+`. -/
def moreStrings : (fuel : ℕ) → List (Str × Bool) → Parser (List (Str × Bool))
  | fuel+1, strings, .plus :: .string _ text :: tokens =>
    moreStrings fuel (strings++[(text, (starOption tokens).1)]) (starOption tokens).2
  | _, _, .plus :: _ => none
  | _, strings, tokens => some (strings, tokens)

/-- `phrase`. -/
def phraseStrings : Parser (List (Str × Bool))
  | .string _ text :: tokens =>
    moreStrings tokens.length [(text, (starOption tokens).1)] (starOption tokens).2
  | _ => none

/-- `nearphrases`, behind the first phrase. -/
def morePhrases : (fuel : ℕ) → List FtsPhrase → Parser (List FtsPhrase)
  | fuel+1, phrases, .string isQuoted text :: tokens =>
    (phraseStrings (.string isQuoted text :: tokens)).bind fun (strings, rest) =>
      morePhrases fuel (phrases++[⟨false, strings⟩]) rest
  | _, phrases, tokens => some (phrases, tokens)

/-- `neardist_opt RP`. -/
def nearEnd : Parser ℕ
  | .rightParen :: tokens => some (10, tokens)
  | .comma :: .string false digits :: .rightParen :: tokens =>
    if digits.all isDecimalDigit then (readDigits 10 0 false digits).map (·, tokens) else none
  | _ => none

/-- `nearset`. -/
def nearSet : Parser FtsExpr
  | .string isQuoted text :: .leftParen :: tokens =>
    if isQuoted = false ∧ text = ofString "NEAR" then do
      let (first, rest) ← phraseStrings tokens
      let (phrases, rest) ← morePhrases rest.length [⟨false, first⟩] rest
      let (distance, rest) ← nearEnd rest
      some (.near phrases distance, rest)
    else none
  | .caret :: tokens => (phraseStrings tokens).map fun (strings, rest) =>
    (.phrase ⟨true, strings⟩, rest)
  | tokens => (phraseStrings tokens).map fun (strings, rest) => (.phrase ⟨false, strings⟩, rest)

/-- The text of a string token. -/
def stringText : FtsToken → Option Str
  | .string _ text => some text
  | _ => none

/-- One column name, or some in braces. -/
def columnNames : Parser (List Str)
  | .string _ name :: tokens => some ([name], tokens)
  | .leftBrace :: tokens =>
    let names := (tokens.takeWhile (fun token => (stringText token).isSome)).filterMap stringText
    match tokens.drop names.length with
    | .rightBrace :: rest => if names = [] then none else some (names, rest)
    | _ => none
  | _ => none

/-- `colset COLON`. -/
def columnFilter (tokens : List FtsToken) : Option ((Bool × List Str) × List FtsToken) :=
  let (excluded, names) := match tokens with
    | .minus :: tokens => (true, columnNames tokens)
    | tokens => (false, columnNames tokens)
  match names with
  | some (names, .colon :: rest) => some ((excluded, names), rest)
  | _ => none

/-- `cnearset`. -/
def columnNearSet (tokens : List FtsToken) : Option (FtsExpr × List FtsToken) :=
  match columnFilter tokens with
  | some ((excluded, names), rest) =>
    (nearSet rest).map fun (e, rest) => (.columns excluded names e, rest)
  | none => nearSet tokens

/-- A token with which a `cnearset` can start. -/
def startsNearSet : FtsToken → Bool
  | .string _ _ | .caret | .leftBrace | .minus => true
  | _ => false

/-- `exprlist`, behind its first `cnearset`: without an operator they are joined by `AND`. -/
def moreNearSets : (fuel : ℕ) → FtsExpr → Parser FtsExpr
  | fuel+1, e, token :: tokens =>
    if startsNearSet token then
      (columnNearSet (token :: tokens)).bind fun (f, rest) => moreNearSets fuel (.and e f) rest
    else some (e, token :: tokens)
  | _, e, tokens => some (e, tokens)

/-- An expression in parentheses, behind the left one. -/
def parenthesized (expr : Parser FtsExpr) (tokens : List FtsToken) :
    Option (FtsExpr × List FtsToken) :=
  match expr tokens with
  | some (e, .rightParen :: rest) => some (e, rest)
  | _ => none

/-- An expression without an operator at the top. -/
def primary (expr : Parser FtsExpr) : Parser FtsExpr
  | .leftParen :: tokens => parenthesized expr tokens
  | tokens =>
    match columnFilter tokens with
    | some ((excluded, names), .leftParen :: rest) =>
      (parenthesized expr rest).map fun (e, rest) => (.columns excluded names e, rest)
    | _ => (columnNearSet tokens).bind fun (e, rest) => moreNearSets rest.length e rest

/-- The operands behind the first one, joined from the left. -/
def moreOperands (operator : FtsToken) (node : FtsExpr → FtsExpr → FtsExpr)
    (operand : Parser FtsExpr) : (fuel : ℕ) → FtsExpr → Parser FtsExpr
  | fuel+1, e, token :: tokens =>
    if token = operator then
      (operand tokens).bind fun (f, rest) => moreOperands operator node operand fuel (node e f) rest
    else some (e, token :: tokens)
  | _, e, tokens => some (e, tokens)

/-- Operands with one operator between them. -/
def operands (operator : FtsToken) (node : FtsExpr → FtsExpr → FtsExpr) (operand : Parser FtsExpr) :
    Parser FtsExpr :=
  fun tokens => (operand tokens).bind fun (e, rest) =>
    moreOperands operator node operand rest.length e rest

/-- `expr`, with parentheses up to a depth. -/
def expr : (depth : ℕ) → Parser FtsExpr
  | 0 => fun _ => none
  | depth+1 => operands .or .or (operands .and .and (operands .not .not (primary (expr depth))))

/-- The expression that a text is. -/
def read (expression : Str) : Option FtsExpr :=
  (ftsTokens expression).bind fun tokens =>
    match expr (tokens.length+1) tokens with
    | some (e, []) => some e
    | _ => none

end FtsExpr

/-- The words of a phrase; a star makes the last word of its string a beginning of words. -/
def FtsPhrase.words (tokenize : Str → List Str) (phrase : FtsPhrase) : List (Str × Bool) :=
  phrase.strings.flatMap fun (text, star) =>
    let words := tokenize text
    words.zipIdx.map (fun (word, i) => (word, star && i+1 == words.length))

/-- The phrase stands at a position of the words of a column. -/
def FtsPhrase.StandsAt (tokenize : Str → List Str) (phrase : FtsPhrase) (column : List Str)
    (i : ℕ) : Prop :=
  phrase.words tokenize ≠ [] ∧ (phrase.initial = true → i = 0)
    ∧ ∃ rest, List.Forall₂ (fun (word : Str × Bool) found =>
        if word.2 then word.1 <+: found else word.1 = found)
      (phrase.words tokenize) rest ∧ rest <+: column.drop i

/-- The rows that an expression matches; a row has the words of each column under its name. -/
def FtsExpr.Matches (tokenize : Str → List Str) : FtsExpr → List (Str × List Str) → Prop
  | .phrase p, row => ∃ column ∈ row, ∃ i, p.StandsAt tokenize column.2 i
  | .near phrases distance, row => ∃ column ∈ row, ∃ starts : List ℕ,
      List.Forall₂ (fun p i => FtsPhrase.StandsAt tokenize p column.2 i) phrases starts
      ∧ ∀ start ∈ starts, ∀ place ∈ phrases.zip starts,
        start ≤ place.2+(place.1.words tokenize).length+distance
  | .columns excluded names e, row => e.Matches tokenize (row.filter (fun column =>
      decide (lowerAscii column.1 ∈ names.map lowerAscii) != excluded))
  | .not e f, row => e.Matches tokenize row ∧ ¬f.Matches tokenize row
  | .and e f, row => e.Matches tokenize row ∧ f.Matches tokenize row
  | .or e f, row => e.Matches tokenize row ∨ f.Matches tokenize row

end ConferWorker
