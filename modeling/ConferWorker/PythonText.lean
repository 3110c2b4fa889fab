import ConferWorker.Utf8

/-! The text functions of the Python runtime that the worker relies on: white
space, `str(n)`, `int(s, base)` and ASCII lower case. -/
namespace ConferWorker

/-- `c.isspace()` for one character. -/
def isSpace (c : CodePoint) : Bool :=
  (9 ≤ c.val && c.val ≤ 13) || (28 ≤ c.val && c.val ≤ 32) || c.val == 0x85 || c.val == 0xA0
    || c.val == 0x1680 || (0x2000 ≤ c.val && c.val ≤ 0x200A) || c.val == 0x2028
    || c.val == 0x2029 || c.val == 0x202F || c.val == 0x205F || c.val == 0x3000

/-- `not s.strip()`, the same as `not s or s.isspace()`. -/
def isBlank (s : Str) : Bool := s.all isSpace

/-- The zero digit of every run of ten decimal digits outside ASCII. -/
def decimalZeros : List ℕ :=
  [0x660, 0x6F0, 0x7C0, 0x966, 0x9E6, 0xA66, 0xAE6, 0xB66, 0xBE6, 0xC66, 0xCE6, 0xD66, 0xDE6,
    0xE50, 0xED0, 0xF20, 0x1040, 0x1090, 0x17E0, 0x1810, 0x1946, 0x19D0, 0x1A80, 0x1A90, 0x1B50,
    0x1BB0, 0x1C40, 0x1C50, 0xA620, 0xA8D0, 0xA900, 0xA9D0, 0xA9F0, 0xAA50, 0xABF0, 0xFF10,
    0x104A0, 0x10D30, 0x11066, 0x110F0, 0x11136, 0x111D0, 0x112F0, 0x11450, 0x114D0, 0x11650,
    0x116C0, 0x11730, 0x118E0, 0x11950, 0x11C50, 0x11D50, 0x11DA0, 0x11F50, 0x16A60, 0x16AC0,
    0x16B50, 0x1D7CE, 0x1D7D8, 0x1D7E2, 0x1D7EC, 0x1D7F6, 0x1E140, 0x1E2F0, 0x1E4F0, 0x1E950,
    0x1FBF0]

/-- The ASCII form in which `int` reads a character: other white space is a
blank, other decimal digits are ASCII digits, everything else is refused. -/
def asciiForm (c : CodePoint) : CodePoint :=
  if c.val < 127 then c
  else if isSpace c then 0x20
  else match decimalZeros.find? (fun z => z ≤ c.val && c.val < z+10) with
    | some z => Fin.ofNat _ (0x30+(c.val-z))
    | none => 0x3F

/-- White space of the C locale. -/
def isAsciiSpace (c : CodePoint) : Bool := (9 ≤ c.val && c.val ≤ 13) || c.val == 32

/-- The value of a digit or letter, 37 for everything else. -/
def digitValue (c : CodePoint) : ℕ :=
  if 0x30 ≤ c.val ∧ c.val ≤ 0x39 then c.val-0x30
  else if 0x41 ≤ c.val ∧ c.val ≤ 0x5A then c.val-55
  else if 0x61 ≤ c.val ∧ c.val ≤ 0x7A then c.val-87
  else 37

/-- Digits with single underscores between them. -/
def readDigits (base : ℕ) : ℕ → Bool → Str → Option ℕ
  | acc, afterDigit, [] => if afterDigit then some acc else none
  | acc, afterDigit, c :: s =>
    if c.val = 0x5F then if afterDigit then readDigits base acc false s else none
    else if digitValue c < base then readDigits base (base*acc+digitValue c) true s
    else none

/-- The digits after an optional `0x`, which one underscore may follow. -/
def readMagnitude (base : ℕ) (s : Str) : Option ℕ :=
  if base = 16 then
    match s with
    | z :: x :: rest =>
      if z.val = 0x30 ∧ (x.val = 0x78 ∨ x.val = 0x58) then
        match rest with
        | u :: digits => if u.val = 0x5F then readDigits base 0 false digits
            else readDigits base 0 false rest
        | [] => none
      else readDigits base 0 false s
    | _ => readDigits base 0 false s
  else readDigits base 0 false s

/-- `int(s, base)` for the bases 10 and 16: `none` where Python raises ValueError. -/
def pythonInt (base : ℕ) (s : Str) : Option ℤ :=
  let t := (((s.map asciiForm).dropWhile isAsciiSpace).reverse.dropWhile isAsciiSpace).reverse
  match t with
  | [] => none
  | sign :: rest =>
    if sign.val = 0x2B then (readMagnitude base rest).map Int.ofNat
    else if sign.val = 0x2D then (readMagnitude base rest).map (fun n => -Int.ofNat n)
    else (readMagnitude base t).map Int.ofNat

/-- `str(n)` for a natural number. -/
def strOfNat (n : ℕ) : Str := (Nat.toDigits 10 n).map (fun c => Fin.ofNat 0x110000 c.toNat)

/-- `s.lower()` on ASCII letters. -/
def lowerAscii (s : Str) : Str :=
  s.map (fun c => if 0x41 ≤ c.val ∧ c.val ≤ 0x5A then Fin.ofNat _ (c.val+32) else c)

/-- A character of `0123456789abcdefABCDEF`. -/
def isHexDigit (c : CodePoint) : Bool :=
  (0x30 ≤ c.val && c.val ≤ 0x39) || (0x41 ≤ c.val && c.val ≤ 0x46)
    || (0x61 ≤ c.val && c.val ≤ 0x66)

/-- An ASCII decimal digit. -/
def isDecimalDigit (c : CodePoint) : Bool := 0x30 ≤ c.val && c.val ≤ 0x39

theorem isHexDigit_lower (c : CodePoint) (h : isHexDigit c = true) :
    isHexDigit (if 0x41 ≤ c.val ∧ c.val ≤ 0x5A then Fin.ofNat _ (c.val+32) else c) = true := by
  split_ifs with hupper
  · have hv := ofNat_val (c.val+32) (by omega)
    simp only [isHexDigit, Bool.or_eq_true, Bool.and_eq_true, decide_eq_true_eq, hv] at h ⊢
    omega
  · exact h

theorem isHexDigit_lowerAscii (s : Str) (h : s.all isHexDigit = true) :
    (lowerAscii s).all isHexDigit = true := by
  simp only [lowerAscii, List.all_map, List.all_eq_true] at h ⊢
  intro c hc
  exact isHexDigit_lower c (h c hc)

@[simp] theorem lowerAscii_length (s : Str) : (lowerAscii s).length = s.length :=
  List.length_map _

theorem lowerAscii_idempotent (s : Str) : lowerAscii (lowerAscii s) = lowerAscii s := by
  rw [lowerAscii, lowerAscii, List.map_map]
  apply List.map_congr_left
  intro c _
  rw [Function.comp_apply]
  by_cases h : 0x41 ≤ c.val ∧ c.val ≤ 0x5A
  · have hlower : (Fin.ofNat 0x110000 (c.val+32)).val = c.val+32 := ofNat_val _ (by omega)
    rw [if_pos h, if_neg (by omega)]
  · rw [if_neg h, if_neg h]

theorem lowerAscii_encodable (s : Str) (h : s.all isHexDigit = true) :
    Encodable (lowerAscii s) := by
  have hlower := isHexDigit_lowerAscii s h
  rw [List.all_eq_true] at hlower
  intro c hc
  have hdigit := hlower c hc
  simp only [isHexDigit, Bool.or_eq_true, Bool.and_eq_true, decide_eq_true_eq] at hdigit
  simp only [isSurrogate, decide_eq_false_iff_not]
  omega

theorem codePoint_val (c : Char) : (Fin.ofNat 0x110000 c.toNat).val = c.toNat := by
  apply ofNat_val
  have hvalid := c.valid
  simp only [UInt32.isValidChar, Nat.isValidChar] at hvalid
  change c.val.toNat < _
  omega

theorem toNat_of_isDigit (c : Char) (h : c.isDigit = true) : 0x30 ≤ c.toNat ∧ c.toNat ≤ 0x39 := by
  simp only [Char.isDigit, Bool.and_eq_true, decide_eq_true_eq, ge_iff_le, UInt32.le_iff_toNat_le]
    at h
  exact h

/-- Every character of `str(n)` is an ASCII digit. -/
theorem strOfNat_digits (n : ℕ) (c : CodePoint) (h : c ∈ strOfNat n) :
    0x30 ≤ c.val ∧ c.val ≤ 0x39 := by
  obtain ⟨d, hd, rfl⟩ := List.mem_map.mp h
  rw [codePoint_val]
  exact toNat_of_isDigit d (Nat.isDigit_of_mem_toDigits (by omega) (by omega) hd)

theorem strOfNat_ne_nil (n : ℕ) : strOfNat n ≠ [] := by
  simp [strOfNat, Nat.toDigits_ne_nil]

theorem strOfNat_encodable (n : ℕ) : Encodable (strOfNat n) := by
  intro c hc
  have hdigit := strOfNat_digits n c hc
  simp only [isSurrogate, decide_eq_false_iff_not]
  omega

/-- Reading decimal digits gives the number they write. -/
theorem readDigits_digits (digits : List Char) (acc : ℕ) (afterDigit : Bool)
    (hdigits : ∀ c ∈ digits, c.isDigit = true) (h : digits ≠ [] ∨ afterDigit = true) :
    readDigits 10 acc afterDigit (digits.map (fun c => Fin.ofNat 0x110000 c.toNat))
      = some (Nat.ofDigitChars 10 digits acc) := by
  induction digits generalizing acc afterDigit with
  | nil =>
    obtain rfl : afterDigit = true := by simpa using h
    simp [readDigits]
  | cons c digits ih =>
    have hc := toNat_of_isDigit c (hdigits c List.mem_cons_self)
    have hv := codePoint_val c
    have hvalue : digitValue (Fin.ofNat 0x110000 c.toNat) = c.toNat-48 := by
      rw [digitValue, if_pos (by rw [hv]; exact hc), hv]
    rw [List.map_cons, readDigits, if_neg (by rw [hv]; omega), if_pos (by rw [hvalue]; omega),
      hvalue, Nat.ofDigitChars_cons]
    exact ih _ true (fun d hd => hdigits d (List.mem_cons_of_mem c hd)) (Or.inr rfl)

theorem dropWhile_eq_self {α : Type} (p : α → Bool) (xs : List α) (h : ∀ x ∈ xs, p x = false) :
    xs.dropWhile p = xs := by
  cases xs with
  | nil => rfl
  | cons x xs => rw [List.dropWhile_cons_of_neg (by simp [h x List.mem_cons_self])]

/-- `int(str(n))` is `n`. -/
theorem pythonInt_strOfNat (n : ℕ) : pythonInt 10 (strOfNat n) = some (n : ℤ) := by
  have hdigits := strOfNat_digits n
  have hascii : (strOfNat n).map asciiForm = strOfNat n := by
    refine (List.map_congr_left fun c hc => ?_).trans (List.map_id _)
    have := hdigits c hc
    rw [asciiForm, if_pos (by omega), id]
  have hspace (c : CodePoint) (hc : c ∈ strOfNat n) : isAsciiSpace c = false := by
    have := hdigits c hc
    simp only [isAsciiSpace, Bool.or_eq_false_iff, Bool.and_eq_false_iff, decide_eq_false_iff_not,
      beq_eq_false_iff_ne]
    omega
  have hleft := dropWhile_eq_self isAsciiSpace (strOfNat n) hspace
  have hright := dropWhile_eq_self isAsciiSpace (strOfNat n).reverse
    (fun c hc => hspace c (List.mem_reverse.mp hc))
  have hread : readDigits 10 0 false (strOfNat n) = some n := by
    rw [strOfNat, readDigits_digits _ 0 false
      (fun c hc => Nat.isDigit_of_mem_toDigits (by omega) (by omega) hc)
      (Or.inl Nat.toDigits_ne_nil), Nat.ofDigitChars_ten_toDigits]
  obtain ⟨sign, rest, hcons⟩ := List.exists_cons_of_ne_nil (strOfNat_ne_nil n)
  have hsign := hdigits sign (by simp [hcons])
  simp only [pythonInt, hascii, hleft, hright, List.reverse_reverse]
  rw [hcons] at hread ⊢
  simp only [readMagnitude, if_neg (by decide : ¬(10 = 16)), hread, Option.map_some]
  rw [if_neg (by omega), if_neg (by omega)]
  rfl

end ConferWorker
