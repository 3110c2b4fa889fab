import ConferWorker.JsonParsing

/-! `json.loads` of bytes: how the encoding of the text is told, and the decoders with
`surrogatepass`, which let lone surrogates through. -/
namespace ConferWorker

namespace JsonParser

/-- A surrogate that UTF-8 does not allow, in its three bytes. -/
def passedSurrogate : Bytes → Option CodePoint
  | b :: c :: d :: _ =>
    if b.toNat = 0xED ∧ isContinuation c = true ∧ 0xA0 ≤ c.toNat ∧ isContinuation d = true then
      some (Fin.ofNat _ (0xD000+(c.toNat-0x80)*64+(d.toNat-0x80)))
    else none
  | _ => none

/-- `bytes.decode("utf-8", "surrogatepass")` after `skip` bytes already consumed. -/
def decodePassingFrom : ℕ → Bytes → Option Str
  | _, [] => some []
  | k+1, _ :: bytes => decodePassingFrom k bytes
  | 0, b :: bytes =>
    match utf8Front (b :: bytes) with
    | (some c, width) => (decodePassingFrom (width-1) bytes).map (c :: ·)
    | (none, _) =>
      match passedSurrogate (b :: bytes) with
      | some c => (decodePassingFrom 2 bytes).map (c :: ·)
      | none => none

/-- `bytes.decode("utf-8", "surrogatepass")`. -/
def decodePassing (bytes : Bytes) : Option Str := decodePassingFrom 0 bytes

/-- A number of two or four bytes, in either order. -/
def fromOrder (big : Bool) (bytes : Bytes) : ℕ := if big then fromBig bytes else fromLittle bytes

/-- The 16-bit units of a UTF-16 text. -/
def units16 (big : Bool) : Bytes → Option (List ℕ)
  | [] => some []
  | [_] => none
  | b :: c :: bytes => (units16 big bytes).map (fromOrder big [b, c] :: ·)

/-- `bytes.decode("utf-16-be", "surrogatepass")`, and the little-endian one. -/
def decodeUtf16 (big : Bool) (bytes : Bytes) : Option Str :=
  (units16 big bytes).map (fun units => joinUnits (units.map JsonPiece.unit))

/-- `bytes.decode("utf-32-be", "surrogatepass")`, and the little-endian one. -/
def decodeUtf32 (big : Bool) : Bytes → Option Str
  | [] => some []
  | b :: c :: d :: e :: bytes =>
    if fromOrder big [b, c, d, e] < 0x110000 then
      (decodeUtf32 big bytes).map (Fin.ofNat _ (fromOrder big [b, c, d, e]) :: ·)
    else none
  | _ => none

/-- The encoding of bytes without a byte order mark, told by their zeros, and its decoder. -/
def decodeUnmarked : Bytes → Option Str
  | [] => some []
  | [b] => decodePassing [b]
  | [b, c] =>
    if b = 0 then decodeUtf16 true [b, c]
    else if c = 0 then decodeUtf16 false [b, c]
    else decodePassing [b, c]
  | [b, c, d] => decodePassing [b, c, d]
  | b :: c :: d :: e :: bytes =>
    if b = 0 then
      if c = 0 then decodeUtf32 true (b :: c :: d :: e :: bytes)
      else decodeUtf16 true (b :: c :: d :: e :: bytes)
    else if c = 0 then
      if d = 0 ∧ e = 0 then decodeUtf32 false (b :: c :: d :: e :: bytes)
      else decodeUtf16 false (b :: c :: d :: e :: bytes)
    else decodePassing (b :: c :: d :: e :: bytes)

/-- `detect_encoding` and the decoder that it names; `none` where that raises
UnicodeDecodeError. -/
def decodeJson (bytes : Bytes) : Option Str :=
  if [0x00, 0x00, 0xFE, 0xFF].isPrefixOf bytes then decodeUtf32 true (bytes.drop 4)
  else if [0xFF, 0xFE, 0x00, 0x00].isPrefixOf bytes then decodeUtf32 false (bytes.drop 4)
  else if [0xFE, 0xFF].isPrefixOf bytes then decodeUtf16 true (bytes.drop 2)
  else if [0xFF, 0xFE].isPrefixOf bytes then decodeUtf16 false (bytes.drop 2)
  else if [0xEF, 0xBB, 0xBF].isPrefixOf bytes then decodePassing (bytes.drop 3)
  else decodeUnmarked bytes

/-- `json.loads` of bytes. Its callers take a UnicodeDecodeError for a text that is no JSON. -/
def loads (runtime : JsonRuntime) : JsonLoads := fun bytes =>
  match decodeJson bytes with
  | none => .error .notJson
  | some text =>
    match read runtime text with
    | .ok tree => tree.hooked asDict
    | .error (_, failure) => .error failure

theorem decodePassingFrom_strict (k : ℕ) (bytes : Bytes) (s : Str)
    (h : decodeStrictFrom k bytes = some s) : decodePassingFrom k bytes = some s := by
  induction bytes generalizing k s with
  | nil => exact h
  | cons b bytes ih =>
    cases k with
    | succ k => exact ih k s h
    | zero =>
      rw [decodeStrictFrom] at h
      rw [decodePassingFrom]
      rcases hfront : utf8Front (b :: bytes) with ⟨_ | c, width⟩
      · rw [hfront] at h
        cases h
      · rw [hfront] at h
        obtain ⟨rest, hrest, rfl⟩ := Option.map_eq_some_iff.mp h
        dsimp only
        rw [ih _ rest hrest, Option.map_some]

/-- Bytes without zeros in front are read as UTF-8. -/
theorem decodeUnmarked_plain (b : UInt8) (bytes : Bytes) (hb : b ≠ 0)
    (hc : ∀ c ∈ bytes.head?, c ≠ 0) : decodeUnmarked (b :: bytes) = decodePassing (b :: bytes) := by
  cases bytes with
  | nil => rfl
  | cons c bytes =>
    have hc0 := hc c rfl
    cases bytes with
    | nil => rw [decodeUnmarked, if_neg hb, if_neg hc0]
    | cons d bytes =>
      cases bytes with
      | nil => rfl
      | cons e bytes => rw [decodeUnmarked, if_neg hb, if_neg hc0]

/-- A byte order mark begins with a zero or with a byte that is not ASCII. -/
theorem decodeJson_ascii (b : UInt8) (bytes : Bytes) (hb : b.toNat < 0x80 ∧ b ≠ 0)
    (hc : ∀ c ∈ bytes.head?, c ≠ 0) : decodeJson (b :: bytes) = decodePassing (b :: bytes) := by
  have hmark (d : UInt8) (mark : Bytes) (hd : 0x80 ≤ d.toNat ∨ d = 0) :
      ¬(d :: mark).isPrefixOf (b :: bytes) = true := by
    intro h
    rw [List.isPrefixOf_iff_prefix] at h
    obtain ⟨rest, hrest⟩ := h
    obtain rfl : d = b := (List.cons_eq_cons.mp hrest).1
    rcases hd with hhigh | hzero
    · omega
    · exact hb.2 hzero
  rw [decodeJson, if_neg (hmark 0x00 _ (Or.inr rfl)), if_neg (hmark 0xFF _ (Or.inl (by decide))),
    if_neg (hmark 0xFE _ (Or.inl (by decide))), if_neg (hmark 0xFF _ (Or.inl (by decide))),
    if_neg (hmark 0xEF _ (Or.inl (by decide)))]
  exact decodeUnmarked_plain b bytes hb.2 hc

end JsonParser

end ConferWorker
