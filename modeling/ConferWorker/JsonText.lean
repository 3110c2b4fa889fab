import ConferWorker.JoinedPieces
import ConferWorker.PythonErrors

/-! JSON values and the text that `json.dumps` writes for them. -/
namespace ConferWorker

/-- A value that `json` reads and writes. An object keeps the order of its members,
as a `dict` does. A float stands as the text that `float.__repr__` gives it, and
`bytes` is no JSON value: `json.dumps` refuses it. -/
inductive Json
  | null
  | bool (value : Bool)
  | int (value : ℤ)
  | float (text : Str)
  | str (value : Str)
  | bytes (value : Bytes)
  | arr (items : List Json)
  | obj (members : List (Str × Json))

/-- How `json.loads` fails: not JSON at all, or another error of the parser. -/
inductive JsonFailure
  | notJson
  | other (error : PythonError)

/-- `json.loads`. -/
abbrev JsonLoads := Bytes → Except JsonFailure Json

namespace Json

def hexDigit (n : ℕ) : CodePoint := Fin.ofNat _ (if n < 10 then 0x30+n else 0x57+n)

/-- What stands for a character inside the quotes, with `ensure_ascii=False`. -/
def escapeCharacter (c : CodePoint) : Str :=
  if c = 0x22 then ofString "\\\""
  else if c = 0x5C then ofString "\\\\"
  else if c = 0x0A then ofString "\\n"
  else if c = 0x0D then ofString "\\r"
  else if c = 0x09 then ofString "\\t"
  else if c = 0x0C then ofString "\\f"
  else if c = 0x08 then ofString "\\b"
  else if c.val < 0x20 then ofString "\\u00"++[hexDigit (c.val/16), hexDigit (c.val%16)]
  else [c]

def quote (s : Str) : Str := [0x22]++s.flatMap escapeCharacter++[0x22]

def intText (n : ℤ) : Str :=
  if n < 0 then 0x2D :: strOfNat n.natAbs else strOfNat n.natAbs

/-- The numbers of at most 4300 digits are below it. -/
@[irreducible] def intLimit : ℕ := 10^4300

/-- `str(n)` raises on a number of more than 4300 digits. -/
def dumpsInt (n : ℤ) : Except PythonError Str := do
  raiseIf (intLimit ≤ n.natAbs)
    (.valueError (ofString "Exceeds the limit (4300 digits) for integer string conversion"))
  pure (intText n)

mutual

/-- `json.dumps(value, ensure_ascii=False, separators=(",", ":"))`. -/
def dumps : Json → Except PythonError Str
  | .null => pure (ofString "null")
  | .bool value => pure (ofString (if value then "true" else "false"))
  | .int value => dumpsInt value
  | .float text => pure text
  | .str value => pure (quote value)
  | .bytes _ => .error (.typeError (ofString "Object of type bytes is not JSON serializable"))
  | .arr items => do
    let texts ← dumpsItems items
    pure ([0x5B]++[0x2C].intercalate texts++[0x5D])
  | .obj members => do
    let texts ← dumpsMembers members
    pure ([0x7B]++[0x2C].intercalate texts++[0x7D])

def dumpsItems : List Json → Except PythonError (List Str)
  | [] => pure []
  | item :: items => do
    let text ← dumps item
    let texts ← dumpsItems items
    pure (text :: texts)

def dumpsMembers : List (Str × Json) → Except PythonError (List Str)
  | [] => pure []
  | (name, value) :: members => do
    let text ← dumps value
    let texts ← dumpsMembers members
    pure ((quote name++[0x3A]++text) :: texts)

end

/-- `json.dumps(...).encode("utf-8")`. -/
def encode (value : Json) : Except PythonError Bytes := do
  let text ← dumps value
  encodeText text

/-- The text of an object has at least its two braces. -/
theorem encode_obj_length {members : List (Str × Json)} {bytes : Bytes}
    (h : (obj members).encode = .ok bytes) : 2 ≤ bytes.length := by
  simp only [encode, dumps, bind_eq_ok, pure_eq_ok, encodeText_eq_ok] at h
  obtain ⟨_, ⟨texts, _, rfl⟩, _, rfl⟩ := h
  have hopen : (utf8 [0x7B]).length = 1 := rfl
  have hclose : (utf8 [0x7D]).length = 1 := rfl
  rw [utf8_append, utf8_append, List.length_append, List.length_append, hopen, hclose]
  omega

end Json

/-- The value of a key of a `dict`. -/
def getItem (members : List (Str × Json)) (name : Str) : Option Json :=
  (members.find? (fun member => member.1 == name)).map Prod.snd

/-- `members[name] = value`. -/
def setItem (members : List (Str × Json)) (name : Str) (value : Json) : List (Str × Json) :=
  if ∃ member ∈ members, member.1 = name then
    members.map (fun member => if member.1 = name then (name, value) else member)
  else members++[(name, value)]

/-- The `dict` without a key. -/
def dropItem (members : List (Str × Json)) (name : Str) : List (Str × Json) :=
  members.filter (fun member => member.1 != name)

theorem setItem_new (members : List (Str × Json)) (name : Str) (value : Json)
    (h : ∀ member ∈ members, member.1 ≠ name) :
    setItem members name value = members++[(name, value)] := by
  rw [setItem, if_neg]
  intro hused
  obtain ⟨member, hmember, heq⟩ := hused
  exact h member hmember heq

theorem getItem_append_new (members : List (Str × Json)) (name : Str) (value : Json)
    (h : ∀ member ∈ members, member.1 ≠ name) :
    getItem (members++[(name, value)]) name = some value := by
  have hnone : members.find? (fun member => member.1 == name) = none := by
    rw [List.find?_eq_none]
    intro member hmember
    simpa using h member hmember
  simp [getItem, List.find?_append, hnone]

theorem dropItem_append_new (members : List (Str × Json)) (name : Str) (value : Json)
    (h : ∀ member ∈ members, member.1 ≠ name) :
    dropItem (members++[(name, value)]) name = members := by
  have hkept : members.filter (fun member => member.1 != name) = members := by
    rw [List.filter_eq_self]
    intro member hmember
    simpa using h member hmember
  simp [dropItem, hkept]

end ConferWorker
