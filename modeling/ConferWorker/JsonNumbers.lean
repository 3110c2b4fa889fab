import Mathlib.Data.List.TakeWhile
import ConferWorker.JsonParsing
import ConferWorker.ResponseSizes

/-! The numbers of JSON: the scanner takes the whole text of a number and stops behind it. -/
namespace ConferWorker

/-- What stands behind a value inside of an array or an object, or nothing. -/
def Delimited (rest : Str) : Prop := ∀ c ∈ rest.head?, c = 0x2C ∨ c = 0x5D ∨ c = 0x7D

theorem delimited_nil : Delimited [] := fun _ h => by cases h

theorem delimited_cons {c : CodePoint} (rest : Str) (h : c = 0x2C ∨ c = 0x5D ∨ c = 0x7D) :
    Delimited (c :: rest) := by
  intro d hd
  obtain rfl : c = d := by simpa using hd
  exact h

theorem Delimited.not_head {rest : Str} (h : Delimited rest) (P : CodePoint → Prop)
    (hP : ¬P 0x2C ∧ ¬P 0x5D ∧ ¬P 0x7D) : ∀ c ∈ rest.head?, ¬P c := by
  intro c hc
  rcases h c hc with rfl | rfl | rfl
  · exact hP.1
  · exact hP.2.1
  · exact hP.2.2

theorem Delimited.not_digit {rest : Str} (h : Delimited rest) :
    ∀ c ∈ rest.head?, ¬isDecimalDigit c = true :=
  h.not_head (fun c => isDecimalDigit c = true) (by decide)

/-- A run of characters ends where the text ends if what follows does not continue it. -/
theorem takeWhile_append_stop {α : Type} (p : α → Bool) (xs ys : List α)
    (h : ∀ y ∈ ys.head?, ¬p y = true) :
    (xs++ys).takeWhile p = xs.takeWhile p ∧ (xs++ys).dropWhile p = xs.dropWhile p++ys := by
  induction xs with
  | nil =>
    cases ys with
    | nil => exact ⟨rfl, rfl⟩
    | cons y ys =>
      exact ⟨List.takeWhile_cons_of_neg (h y rfl), List.dropWhile_cons_of_neg (h y rfl)⟩
  | cons x xs ih =>
    rw [List.cons_append]
    by_cases hx : p x = true
    · rw [List.takeWhile_cons_of_pos hx, List.takeWhile_cons_of_pos hx,
        List.dropWhile_cons_of_pos hx, List.dropWhile_cons_of_pos hx, ih.1, ih.2]
      exact ⟨rfl, rfl⟩
    · rw [List.takeWhile_cons_of_neg hx, List.takeWhile_cons_of_neg hx,
        List.dropWhile_cons_of_neg hx, List.dropWhile_cons_of_neg hx]
      exact ⟨rfl, rfl⟩

theorem head?_append_stop {α : Type} (p : α → Bool) (xs ys : List α)
    (h : ∀ y ∈ ys.head?, ¬p y = true) : (xs++ys).head?.any p = xs.head?.any p := by
  cases xs with
  | nil =>
    cases ys with
    | nil => rfl
    | cons y ys => exact Bool.eq_false_iff.mpr (h y rfl)
  | cons x xs => rfl

namespace JsonParser

section Followed

variable {rest : Str} (hrest : Delimited rest)

include hrest

theorem wholePart_append {text whole after : Str} (h : wholePart text = some (whole, after)) :
    wholePart (text++rest) = some (whole, after++rest) := by
  cases text with
  | nil => cases h
  | cons c text =>
    rw [wholePart] at h
    rw [List.cons_append, wholePart]
    obtain ⟨htake, hdrop⟩ := takeWhile_append_stop isDecimalDigit text rest hrest.not_digit
    split_ifs at h ⊢
    · cases h
      rfl
    · cases h
      rw [htake, hdrop]

theorem fractionPart_append (text : Str) :
    fractionPart (text++rest) = ((fractionPart text).1, (fractionPart text).2++rest) := by
  have hdigit := hrest.not_digit
  cases text with
  | nil =>
    cases rest with
    | nil => rfl
    | cons c rest =>
      have hc := hrest.not_head (fun c => c = 0x2E) (by decide) c rfl
      exact if_neg (fun h => hc h.1)
  | cons c text =>
    obtain ⟨htake, hdrop⟩ := takeWhile_append_stop isDecimalDigit text rest hdigit
    rw [List.cons_append, fractionPart, fractionPart, head?_append_stop _ _ _ hdigit]
    split_ifs
    · rw [htake, hdrop]
    · rfl

theorem exponentSign_append (text : Str) :
    exponentSign (text++rest) = ((exponentSign text).1, (exponentSign text).2++rest) := by
  cases text with
  | nil =>
    cases rest with
    | nil => rfl
    | cons c rest =>
      exact if_neg (hrest.not_head (fun c => c = 0x2B ∨ c = 0x2D) (by decide) c rfl)
  | cons c text =>
    rw [List.cons_append, exponentSign, exponentSign]
    split_ifs
    · rfl
    · rfl

theorem exponentPart_append (text : Str) :
    exponentPart (text++rest) = ((exponentPart text).1, (exponentPart text).2++rest) := by
  have hdigit := hrest.not_digit
  cases text with
  | nil =>
    cases rest with
    | nil => rfl
    | cons c rest =>
      have hc := hrest.not_head (fun c => c = 0x65 ∨ c = 0x45) (by decide) c rfl
      exact if_neg (fun h => hc h.1)
  | cons c text =>
    obtain ⟨htake, hdrop⟩ :=
      takeWhile_append_stop isDecimalDigit (exponentSign text).2 rest hdigit
    rw [List.cons_append, exponentPart, exponentPart]
    dsimp only
    rw [exponentSign_append hrest, head?_append_stop _ _ _ hdigit]
    split_ifs
    · rw [htake, hdrop]
    · rfl

/-- A number is scanned the same with something behind it that does not continue it. -/
theorem scanNumber_append {text found : Str} {isFloat : Bool}
    (h : scanNumber text = some ⟨found, isFloat, []⟩) :
    scanNumber (text++rest) = some ⟨found, isFloat, rest⟩ := by
  simp only [scanNumber, Option.bind_eq_bind, Option.bind_eq_some_iff] at h ⊢
  obtain ⟨⟨whole, after⟩, hwhole, hnumber⟩ := h
  have hminus : minusPart (text++rest) = ((minusPart text).1, (minusPart text).2++rest) := by
    cases text with
    | nil => cases hwhole
    | cons c text =>
      rw [List.cons_append, minusPart, minusPart]
      split_ifs
      · rfl
      · rfl
  refine ⟨(whole, after++rest), ?_, ?_⟩
  · rw [hminus]
    exact wholePart_append hrest hwhole
  · dsimp only at hnumber ⊢
    rw [hminus, fractionPart_append hrest, exponentPart_append hrest]
    have hparts := Option.some.inj hnumber
    simp only [NumberToken.mk.injEq] at hparts
    obtain ⟨hfound, hfloat, hend⟩ := hparts
    rw [hfound, hfloat, hend]
    rfl

end Followed

/-- The first digit of a number is no zero unless it is the only one. -/
theorem toDigits_head (n : ℕ) : ∃ d digits, Nat.toDigits 10 n = d :: digits
    ∧ (d = '0' → digits = []) := by
  induction n using Nat.strong_induction_on with
  | _ n ih =>
    by_cases hn : n < 10
    · exact ⟨n.digitChar, [], Nat.toDigits_of_lt_base hn, fun _ => rfl⟩
    · obtain ⟨d, digits, hdigits, hzero⟩ := ih (n/10) (by omega)
      refine ⟨d, digits++[(n%10).digitChar], ?_, ?_⟩
      · rw [Nat.toDigits_of_base_le (by decide) (by omega), hdigits]
        rfl
      · intro hd
        -- a number of two digits or more has a quotient with a digit other than zero
        have hsingle : Nat.toDigits 10 (n/10) = ['0'] := by rw [hdigits, hd, hzero hd]
        have hquotient := Nat.ofDigitChars_ten_toDigits (n := n/10)
        rw [hsingle] at hquotient
        change 0 = n/10 at hquotient
        omega

theorem wholePart_strOfNat (n : ℕ) : wholePart (strOfNat n) = some (strOfNat n, []) := by
  obtain ⟨d, digits, hdigits, hzero⟩ := toDigits_head n
  have hrange := strOfNat_digits n
  rw [strOfNat, hdigits, List.map_cons] at hrange ⊢
  obtain ⟨hd, hrest⟩ := List.forall_mem_cons.mp hrange
  rw [wholePart]
  by_cases hfirst : Fin.ofNat 0x110000 d.toNat = 0x30
  · have hd0 : d = '0' := by
      have hval := congrArg Fin.val hfirst
      rw [codePoint_val] at hval
      exact Char.toNat_inj.mp hval
    rw [if_pos hfirst, hzero hd0]
    rfl
  · have hdigit : isDecimalDigit (Fin.ofNat 0x110000 d.toNat) = true := by
      simpa [isDecimalDigit] using hd
    have hall : ∀ c ∈ digits.map (fun c => Fin.ofNat 0x110000 c.toNat),
        isDecimalDigit c = true := by
      intro c hc
      simpa [isDecimalDigit] using hrest c hc
    rw [if_neg hfirst, if_pos hdigit, List.takeWhile_eq_self_iff.mpr hall,
      List.dropWhile_eq_nil_iff.mpr hall]

theorem intText_cases (n : ℤ) : Json.intText n = strOfNat n.natAbs ∧ 0 ≤ n
    ∨ Json.intText n = 0x2D :: strOfNat n.natAbs ∧ n < 0 := by
  unfold Json.intText
  split_ifs with hn
  · exact Or.inr ⟨rfl, hn⟩
  · exact Or.inl ⟨rfl, by omega⟩

/-- Digits up to the end are a number without a fraction and an exponent. -/
theorem scanNumber_whole {text sign magnitude whole : Str}
    (hminus : minusPart text = (sign, magnitude))
    (hwhole : wholePart magnitude = some (whole, [])) :
    scanNumber text = some ⟨sign++whole, false, []⟩ := by
  have hparts : scanNumber text = some ⟨sign++whole++[]++[], false, []⟩ := by
    rw [scanNumber, hminus]
    dsimp only
    rw [hwhole]
    rfl
  rw [hparts, List.append_nil, List.append_nil]

theorem scanNumber_intText (n : ℤ) :
    scanNumber (Json.intText n) = some ⟨Json.intText n, false, []⟩ := by
  have hwhole := wholePart_strOfNat n.natAbs
  rcases intText_cases n with ⟨hn, -⟩ | ⟨hn, -⟩
  · have hminus : minusPart (strOfNat n.natAbs) = ([], strOfNat n.natAbs) := by
      obtain ⟨c, text, htext⟩ := List.exists_cons_of_ne_nil (strOfNat_ne_nil n.natAbs)
      have hdigit := strOfNat_digits n.natAbs c (by rw [htext]; exact List.mem_cons_self)
      rw [htext]
      refine if_neg ?_
      rintro rfl
      exact absurd hdigit (by decide)
    rw [hn]
    exact scanNumber_whole hminus hwhole
  · rw [hn]
    exact scanNumber_whole rfl hwhole

end JsonParser

/-- `int(str(n))` is `n`, for a negative number. -/
theorem pythonInt_negative (n : ℕ) : pythonInt 10 (0x2D :: strOfNat n) = some (-(n : ℤ)) := by
  have hplain : ∀ c ∈ 0x2D :: strOfNat n, c.val < 127 ∧ isAsciiSpace c = false := by
    refine List.forall_mem_cons.mpr ⟨by decide, fun c hc => ?_⟩
    have hdigit := strOfNat_digits n c hc
    refine ⟨by omega, ?_⟩
    simp only [isAsciiSpace, Bool.or_eq_false_iff, Bool.and_eq_false_iff, decide_eq_false_iff_not,
      beq_eq_false_iff_ne]
    omega
  have hascii : (0x2D :: strOfNat n).map asciiForm = 0x2D :: strOfNat n := by
    refine (List.map_congr_left fun c hc => ?_).trans (List.map_id _)
    rw [asciiForm, if_pos (hplain c hc).1, id]
  have hleft := dropWhile_eq_self isAsciiSpace _ (fun c hc => (hplain c hc).2)
  have hright := dropWhile_eq_self isAsciiSpace (0x2D :: strOfNat n).reverse
    (fun c hc => (hplain c (List.mem_reverse.mp hc)).2)
  have hread : readMagnitude 10 (strOfNat n) = some n := by
    have hbase : ¬10 = 16 := by decide
    rw [readMagnitude.eq_def, if_neg hbase, strOfNat, readDigits_digits _ 0 false
      (fun c hc => Nat.isDigit_of_mem_toDigits (by omega) (by omega) hc)
      (Or.inl Nat.toDigits_ne_nil), Nat.ofDigitChars_ten_toDigits]
  rw [pythonInt, hascii, hleft, hright, List.reverse_reverse]
  dsimp only
  rw [if_neg (by decide), if_pos (by decide), hread]
  rfl

theorem readInt_intText (n : ℤ) (h : n.natAbs < Json.intLimit) :
    readInt (Json.intText n) = .ok n := by
  have hvalue : pythonInt 10 (Json.intText n) = some n := by
    rcases JsonParser.intText_cases n with ⟨htext, hn⟩ | ⟨htext, hn⟩
    · rw [htext, pythonInt_strOfNat, Int.natAbs_of_nonneg hn]
    · rw [htext, pythonInt_negative]
      congr 1
      omega
  have hdigits : (strOfNat n.natAbs).length ≤ 4300 := by
    have hpower (k : ℕ) (hk : 0 < k) (hn : n.natAbs < 10^k) :
        (strOfNat n.natAbs).length ≤ k := by
      rw [strOfNat, List.length_map, Nat.length_toDigits_le_iff (by decide) hk]
      exact hn
    unfold Json.intLimit at h
    exact hpower _ (Nat.succ_pos _) h
  have hcount : (Json.intText n).countP isDecimal ≤ 4300 := by
    rcases JsonParser.intText_cases n with ⟨htext, -⟩ | ⟨htext, -⟩
    · rw [htext]
      exact List.countP_le_length.trans hdigits
    · rw [htext, List.countP_cons_of_neg (by decide)]
      exact List.countP_le_length.trans hdigits
  rw [readInt, hvalue]
  exact if_neg (by omega)

namespace JsonParser

/-- A character of a number. -/
def isNumberCharacter (c : CodePoint) : Bool :=
  isDecimalDigit c || c == 0x2D || c == 0x2B || c == 0x2E || c == 0x65 || c == 0x45

theorem isNumberCharacter_digits {text : Str} :
    ∀ c ∈ text.takeWhile isDecimalDigit, isNumberCharacter c = true := by
  intro c hc
  have hdigit : isDecimalDigit c = true := List.mem_takeWhile_imp hc
  rw [isNumberCharacter, hdigit]
  rfl

theorem minusPart_characters (text : Str) : ∀ c ∈ (minusPart text).1, isNumberCharacter c = true := by
  cases text with
  | nil => exact List.forall_mem_nil _
  | cons c text =>
    rw [minusPart]
    split_ifs with hc
    · rw [hc]
      exact List.forall_mem_singleton.mpr (by decide)
    · exact List.forall_mem_nil _

theorem wholePart_characters {text whole after : Str} (h : wholePart text = some (whole, after)) :
    (∀ c ∈ whole, isNumberCharacter c = true) ∧ ∃ c rest, text = c :: rest ∧ isDecimalDigit c := by
  cases text with
  | nil => cases h
  | cons c text =>
    rw [wholePart] at h
    split_ifs at h with hzero hdigit
    · cases h
      rw [hzero]
      exact ⟨List.forall_mem_singleton.mpr (by decide), 0x30, _, rfl, by decide⟩
    · cases h
      refine ⟨List.forall_mem_cons.mpr ⟨?_, isNumberCharacter_digits⟩, c, text, rfl, hdigit⟩
      rw [isNumberCharacter, hdigit]
      rfl

theorem fractionPart_characters (text : Str) :
    ∀ c ∈ (fractionPart text).1, isNumberCharacter c = true := by
  cases text with
  | nil => exact List.forall_mem_nil _
  | cons c text =>
    rw [fractionPart]
    split_ifs with hc
    · rw [hc.1]
      exact List.forall_mem_cons.mpr ⟨by decide, isNumberCharacter_digits⟩
    · exact List.forall_mem_nil _

theorem exponentPart_characters (text : Str) :
    ∀ c ∈ (exponentPart text).1, isNumberCharacter c = true := by
  have hsign (text : Str) : ∀ c ∈ (exponentSign text).1, isNumberCharacter c = true := by
    cases text with
    | nil => exact List.forall_mem_nil _
    | cons c text =>
      rw [exponentSign]
      split_ifs with hc
      · rcases hc with rfl | rfl
        · exact List.forall_mem_singleton.mpr (by decide)
        · exact List.forall_mem_singleton.mpr (by decide)
      · exact List.forall_mem_nil _
  cases text with
  | nil => exact List.forall_mem_nil _
  | cons c text =>
    rw [exponentPart]
    dsimp only
    split_ifs with hc
    · refine List.forall_mem_cons.mpr ⟨?_, List.forall_mem_append.mpr
        ⟨hsign text, isNumberCharacter_digits⟩⟩
      rcases hc.1 with rfl | rfl
      · decide
      · decide
    · exact List.forall_mem_nil _

/-- A number begins with a digit, or with a sign and a digit. -/
def BeginsNumber (text : Str) : Prop :=
  (∃ c rest, text = c :: rest ∧ isDecimalDigit c = true)
    ∨ ∃ c rest, text = 0x2D :: c :: rest ∧ isDecimalDigit c = true

theorem scanNumber_characters {text : Str} {number : NumberToken}
    (h : scanNumber text = some number) :
    (∀ c ∈ number.text, isNumberCharacter c = true) ∧ BeginsNumber text := by
  simp only [scanNumber, Option.bind_eq_bind, Option.bind_eq_some_iff] at h
  obtain ⟨⟨whole, after⟩, hwhole, hnumber⟩ := h
  obtain ⟨hcharacters, c, rest, hhead, hdigit⟩ := wholePart_characters hwhole
  have hminus := minusPart_characters text
  cases hnumber
  refine ⟨?_, ?_⟩
  · simp only [List.forall_mem_append]
    exact ⟨⟨⟨hminus, hcharacters⟩, fractionPart_characters _⟩, exponentPart_characters _⟩
  · cases text with
    | nil => cases hhead
    | cons d text =>
      rw [minusPart] at hhead
      split_ifs at hhead with hd
      · dsimp only at hhead
        rw [hd, hhead]
        exact Or.inr ⟨c, rest, rfl, hdigit⟩
      · exact Or.inl ⟨c, rest, hhead, hdigit⟩

/-- The first two characters of a name are no digits. -/
theorem constants_names : ∀ constant ∈ constants, ∃ c d name, constant.1 = c :: d :: name
    ∧ isDecimalDigit c = false ∧ isDecimalDigit d = false := by
  intro constant hconstant
  simp only [constants, List.mem_cons, List.not_mem_nil, or_false] at hconstant
  rcases hconstant with rfl | rfl | rfl | rfl | rfl | rfl
  all_goals exact ⟨_, _, _, rfl, by decide, by decide⟩

/-- No name is in front of a number. -/
theorem constants_number {text : Str} (h : BeginsNumber text) (rest : Str) :
    constants.find? (fun constant => constant.1.isPrefixOf (text++rest)) = none := by
  rw [List.find?_eq_none]
  intro constant hconstant
  obtain ⟨c, d, name, hname, hc, hd⟩ := constants_names constant hconstant
  rw [List.isPrefixOf_iff_prefix, hname]
  rintro ⟨behind, hbehind⟩
  rcases h with ⟨e, more, rfl, he⟩ | ⟨e, more, rfl, he⟩
  · obtain rfl : c = e := (List.cons_eq_cons.mp hbehind).1
    rw [hc] at he
    cases he
  · obtain rfl : d = e := (List.cons_eq_cons.mp (List.cons_eq_cons.mp hbehind).2).1
    rw [hd] at he
    cases he

end JsonParser

end ConferWorker
