import ConferWorker.AsciiJson
import ConferWorker.JsonParsing

/-! String literals of JSON: a character may be spelled in more than one way, and the scanner
reads the same pieces from all of them. -/
namespace ConferWorker

/-- How the characters of a JSON text are spelled, and the pieces that the scanner of a string
literal finds for each. -/
structure JsonSpelling where
  spell : CodePoint → Str
  pieces : CodePoint → List JsonPiece
  not_nil : ∀ c, spell c ≠ []
  printable : ∀ c, 0x20 ≤ c.val → c.val ≤ 0x7E → spell c = [c] ∧ pieces c = [.plain c]
  scanned : ∀ c rest, 0x7E < c.val →
    JsonParser.scanString .plain (spell c++rest)
      = (JsonParser.scanString .plain rest).map (fun found => (pieces c++found.1, found.2))

namespace JsonParser

/-- Some pieces in front of those that are read after them. -/
def withPieces (pieces : List JsonPiece) (scanned : Option (List JsonPiece × Str)) :
    Option (List JsonPiece × Str) :=
  scanned.map (fun found => (pieces++found.1, found.2))

theorem withPieces_nil (scanned : Option (List JsonPiece × Str)) :
    withPieces [] scanned = scanned := by
  cases scanned with
  | none => rfl
  | some found => rfl

theorem withPieces_append (front pieces : List JsonPiece)
    (scanned : Option (List JsonPiece × Str)) :
    withPieces (front++pieces) scanned = withPieces front (withPieces pieces scanned) := by
  cases scanned with
  | none => rfl
  | some found =>
    change some (front++pieces++found.1, found.2) = some (front++(pieces++found.1), found.2)
    rw [List.append_assoc]

theorem digitValue_hexDigit (n : ℕ) (h : n < 16) :
    Json.hexDigit n ≠ 0x75 ∧ isHexDigit (Json.hexDigit n) = true
      ∧ digitValue (Json.hexDigit n) = n := by
  have hall : ∀ n : Fin 16, Json.hexDigit n.val ≠ 0x75 ∧ isHexDigit (Json.hexDigit n.val) = true
      ∧ digitValue (Json.hexDigit n.val) = n.val := by decide
  exact hall ⟨n, h⟩

/-- A `\u` escape with the digits of a number is read as this number. -/
theorem scanString_unit (n : ℕ) (h : n < 0x10000) (rest : Str) :
    scanString .plain (ofString "\\u"++[Json.hexDigit (n/4096%16), Json.hexDigit (n/256%16),
        Json.hexDigit (n/16%16), Json.hexDigit (n%16)]++rest)
      = withPieces [.unit n] (scanString .plain rest) := by
  obtain ⟨-, hhex1, hvalue1⟩ := digitValue_hexDigit (n/4096%16) (Nat.mod_lt _ (by decide))
  obtain ⟨-, hhex2, hvalue2⟩ := digitValue_hexDigit (n/256%16) (Nat.mod_lt _ (by decide))
  obtain ⟨-, hhex3, hvalue3⟩ := digitValue_hexDigit (n/16%16) (Nat.mod_lt _ (by decide))
  obtain ⟨-, hhex4, hvalue4⟩ := digitValue_hexDigit (n%16) (Nat.mod_lt _ (by decide))
  have htext : ofString "\\u"++[Json.hexDigit (n/4096%16), Json.hexDigit (n/256%16),
        Json.hexDigit (n/16%16), Json.hexDigit (n%16)]++rest
      = 0x5C :: 0x75 :: Json.hexDigit (n/4096%16) :: Json.hexDigit (n/256%16)
        :: Json.hexDigit (n/16%16) :: Json.hexDigit (n%16) :: rest := rfl
  have hquote : ¬(0x5C : CodePoint) = 0x22 := by decide
  rw [htext, scanString, if_neg hquote, if_pos rfl, scanString, if_pos rfl, scanString,
    if_neg (by rw [hhex1]; decide), if_neg (by decide), scanString, if_neg (by rw [hhex2]; decide),
    if_neg (by decide), scanString, if_neg (by rw [hhex3]; decide), if_neg (by decide), scanString,
    if_neg (by rw [hhex4]; decide), if_pos (by decide), hvalue1, hvalue2, hvalue3, hvalue4]
  have hn : 16*(16*(16*(16*0+n/4096%16)+n/256%16)+n/16%16)+n%16 = n := by omega
  rw [hn]
  rfl

/-- A character that is no quote, no backslash and no control character stands for itself. -/
theorem scanString_plain (c : CodePoint) (hquote : c ≠ 0x22) (hslash : c ≠ 0x5C)
    (hcontrol : 0x20 ≤ c.val) (rest : Str) :
    scanString .plain (c :: rest) = withPieces [.plain c] (scanString .plain rest) := by
  rw [scanString, if_neg hquote, if_neg hslash, if_neg (by omega)]
  rfl

theorem scanString_short (c d : CodePoint) (hc : c ≠ 0x75) (h : shortEscape c = some d)
    (rest : Str) :
    scanString .plain (0x5C :: c :: rest) = withPieces [.plain d] (scanString .plain rest) := by
  have hquote : ¬(0x5C : CodePoint) = 0x22 := by decide
  rw [scanString, if_neg hquote, if_pos rfl, scanString, if_neg hc, h]
  rfl

end JsonParser

namespace JsonSpelling

open JsonParser

/-- Every character as it is: `ensure_ascii=False`. -/
def raw : JsonSpelling where
  spell c := [c]
  pieces c := [.plain c]
  not_nil c := List.cons_ne_nil c []
  printable c _ _ := ⟨rfl, rfl⟩
  scanned := by
    intro c rest hc
    apply scanString_plain
    · rintro rfl
      exact absurd hc (by decide)
    · rintro rfl
      exact absurd hc (by decide)
    · omega

/-- The pieces of a character that `json.dumps` writes in ASCII. -/
def asciiPieces (c : CodePoint) : List JsonPiece :=
  if 0x20 ≤ c.val ∧ c.val ≤ 0x7E then [.plain c]
  else if c.val < 0x10000 then [.unit c.val]
  else [.unit (0xD800+(c.val-0x10000)/1024), .unit (0xDC00+(c.val-0x10000)%1024)]

theorem scanned_ascii (c : CodePoint) (rest : Str) (hc : 0x7E < c.val) :
    scanString .plain (Json.asciiEscape c++rest)
      = withPieces (asciiPieces c) (scanString .plain rest) := by
  have hlt := c.isLt
  have hplain : ¬(0x20 ≤ c.val ∧ c.val ≤ 0x7E) := by omega
  unfold Json.asciiEscape asciiPieces
  dsimp only
  rw [if_neg hplain, if_neg hplain]
  by_cases hsmall : c.val < 0x10000
  · rw [if_pos hsmall, if_pos hsmall]
    exact scanString_unit c.val hsmall rest
  · rw [if_neg hsmall, if_neg hsmall, List.append_assoc, scanString_unit _ (by omega),
      scanString_unit _ (by omega), ← withPieces_append]
    rfl

theorem asciiEscape_ne_nil (c : CodePoint) : Json.asciiEscape c ≠ [] := by
  unfold Json.asciiEscape
  dsimp only
  split_ifs
  · exact List.cons_ne_nil _ _
  · exact List.cons_ne_nil _ _
  · exact List.cons_ne_nil _ _

/-- ASCII only: `ensure_ascii=True`. -/
def ascii : JsonSpelling where
  spell := Json.asciiEscape
  pieces := asciiPieces
  not_nil := asciiEscape_ne_nil
  printable := by
    intro c hlow hhigh
    have hplain : 0x20 ≤ c.val ∧ c.val ≤ 0x7E := ⟨hlow, hhigh⟩
    unfold Json.asciiEscape asciiPieces
    dsimp only
    rw [if_pos hplain, if_pos hplain]
    exact ⟨rfl, rfl⟩
  scanned := scanned_ascii

variable (spelling : JsonSpelling)

/-- The pieces of a character in a string literal, where some characters are escaped first. -/
def escapedPieces (c : CodePoint) : List JsonPiece :=
  if c.val < 0x20 ∧ c ≠ 0x0A ∧ c ≠ 0x0D ∧ c ≠ 0x09 ∧ c ≠ 0x0C ∧ c ≠ 0x08 then [.unit c.val]
  else if c.val ≤ 0x7E then [.plain c]
  else spelling.pieces c

/-- A text of printable ASCII is spelled as it is. -/
theorem spell_printable {s : Str} (h : ∀ c ∈ s, 0x20 ≤ c.val ∧ c.val ≤ 0x7E) :
    s.flatMap spelling.spell = s := by
  induction s with
  | nil => rfl
  | cons c s ih =>
    obtain ⟨⟨hlow, hhigh⟩, hs⟩ := List.forall_mem_cons.mp h
    rw [List.flatMap_cons, (spelling.printable c hlow hhigh).1, ih hs]
    rfl

/-- Nothing is spelled with a control character in front. -/
theorem spell_head (c : CodePoint) (hc : 0x20 ≤ c.val) :
    ∃ d rest, spelling.spell c = d :: rest ∧ 0x20 ≤ d.val := by
  rcases Nat.lt_or_ge 0x7E c.val with hother | hprintable
  · obtain ⟨d, rest, hspell⟩ := List.exists_cons_of_ne_nil (spelling.not_nil c)
    refine ⟨d, rest, hspell, not_lt.mp fun hcontrol => ?_⟩
    have hscanned := spelling.scanned c [0x22] hother
    rw [hspell, List.cons_append, scanString, if_neg, if_neg, if_pos hcontrol] at hscanned
    · cases hscanned
    · rintro rfl
      exact absurd hcontrol (by decide)
    · rintro rfl
      exact absurd hcontrol (by decide)
  · exact ⟨c, [], (spelling.printable c hc hprintable).1, hc⟩

theorem length_le_spell (s : Str) : s.length ≤ (s.flatMap spelling.spell).length := by
  induction s with
  | nil => exact Nat.zero_le _
  | cons c s ih =>
    have hpos := List.length_pos_iff.mpr (spelling.not_nil c)
    rw [List.flatMap_cons, List.length_append, List.length_cons]
    omega

theorem hexDigit_printable (n : ℕ) (h : n < 16) :
    0x20 ≤ (Json.hexDigit n).val ∧ (Json.hexDigit n).val ≤ 0x7E := by
  have hall : ∀ n : Fin 16, 0x20 ≤ (Json.hexDigit n.val).val ∧ (Json.hexDigit n.val).val ≤ 0x7E := by
    decide
  exact hall ⟨n, h⟩

theorem scanString_escape (c : CodePoint) (rest : Str) :
    scanString .plain ((Json.escapeCharacter c).flatMap spelling.spell++rest)
      = withPieces (spelling.escapedPieces c) (scanString .plain rest) := by
  have hshort (c d : CodePoint) (hprintable : 0x20 ≤ c.val ∧ c.val ≤ 0x7E)
      (hd : shortEscape c = some d) (hc : c ≠ 0x75)
      (hpieces : spelling.escapedPieces d = [.plain d]) :
      scanString .plain (([0x5C, c] : Str).flatMap spelling.spell++rest)
        = withPieces (spelling.escapedPieces d) (scanString .plain rest) := by
    rw [spelling.spell_printable (by simp [hprintable]), hpieces]
    exact scanString_short c d hc hd rest
  unfold Json.escapeCharacter
  split_ifs with h1 h2 h3 h4 h5 h6 h7 h8
  · obtain rfl := h1
    exact hshort 0x22 0x22 (by decide) (by decide) (by decide) rfl
  · obtain rfl := h2
    exact hshort 0x5C 0x5C (by decide) (by decide) (by decide) rfl
  · obtain rfl := h3
    exact hshort 0x6E 0x0A (by decide) (by decide) (by decide) rfl
  · obtain rfl := h4
    exact hshort 0x72 0x0D (by decide) (by decide) (by decide) rfl
  · obtain rfl := h5
    exact hshort 0x74 0x09 (by decide) (by decide) (by decide) rfl
  · obtain rfl := h6
    exact hshort 0x66 0x0C (by decide) (by decide) (by decide) rfl
  · obtain rfl := h7
    exact hshort 0x62 0x08 (by decide) (by decide) (by decide) rfl
  · -- the two leading zeros are digits of the escape as well
    have hfront : ofString "\\u00"++[Json.hexDigit (c.val/16), Json.hexDigit (c.val%16)]
        = ofString "\\u"++[Json.hexDigit (c.val/4096%16), Json.hexDigit (c.val/256%16),
          Json.hexDigit (c.val/16%16), Json.hexDigit (c.val%16)] := by
      rw [show c.val/4096%16 = 0 by omega, show c.val/256%16 = 0 by omega,
        show c.val/16%16 = c.val/16 by omega]
      rfl
    have hprintable : ∀ d ∈ ofString "\\u00"++[Json.hexDigit (c.val/16), Json.hexDigit (c.val%16)],
        0x20 ≤ d.val ∧ d.val ≤ 0x7E := by
      have hzeros : (ofString "\\u00").all (fun d => 0x20 ≤ d.val && d.val ≤ 0x7E) = true := by
        decide
      rw [List.forall_mem_append]
      refine ⟨by simpa using hzeros, ?_⟩
      simp only [List.forall_mem_cons, List.not_mem_nil, false_imp_iff, implies_true, and_true]
      exact ⟨hexDigit_printable _ (by omega), hexDigit_printable _ (by omega)⟩
    rw [spelling.spell_printable hprintable, hfront, scanString_unit c.val (by omega),
      escapedPieces, if_pos ⟨h8, h3, h4, h5, h6, h7⟩]
  · rw [escapedPieces, if_neg (fun h => h8 h.1), List.flatMap_singleton]
    by_cases hascii : c.val ≤ 0x7E
    · rw [if_pos hascii, (spelling.printable c (by omega) hascii).1]
      exact scanString_plain c h1 h2 (by omega) rest
    · rw [if_neg hascii]
      exact spelling.scanned c rest (by omega)

/-- What is read from the literal of a string is the string. -/
def Keeps (s : Str) : Prop := joinUnits (s.flatMap spelling.escapedPieces) = s

theorem scanQuoted_quote {s : Str} (h : spelling.Keeps s) (rest : Str) :
    scanQuoted ((s.flatMap Json.escapeCharacter).flatMap spelling.spell++0x22 :: rest)
      = some (s, rest) := by
  have hpieces (s : Str) :
      scanString .plain ((s.flatMap Json.escapeCharacter).flatMap spelling.spell++0x22 :: rest)
        = some (s.flatMap spelling.escapedPieces, rest) := by
    induction s with
    | nil => rw [List.flatMap_nil, List.flatMap_nil, List.nil_append, scanString, if_pos rfl]; rfl
    | cons c s ih =>
      rw [List.flatMap_cons, List.flatMap_append, List.append_assoc, scanString_escape, ih]
      rfl
  rw [scanQuoted, hpieces, Option.map_some, h]

theorem joinFrom_plain (held : Option ℕ) (c : CodePoint) (pieces : List JsonPiece) :
    joinFrom held (.plain c :: pieces) = alone held++c :: joinFrom none pieces := by
  cases held <;> rfl

/-- A unit stays alone unless it is a high surrogate in front of a low one. -/
theorem joinFrom_alone (n : ℕ) (pieces : List JsonPiece)
    (h : ∀ m rest, pieces = .unit m :: rest → ¬(isHigh n ∧ isLow m)) :
    joinFrom (some n) pieces = Fin.ofNat _ n :: joinFrom none pieces := by
  cases pieces with
  | nil => rfl
  | cons piece pieces =>
    cases piece with
    | plain c => rfl
    | unit m =>
      rw [joinFrom]
      exact if_neg (h m pieces rfl)

theorem raw_keeps (s : Str) : raw.Keeps s := by
  have hpiece (c : CodePoint) : raw.escapedPieces c = [.plain c]
      ∨ c.val < 0x20 ∧ raw.escapedPieces c = [.unit c.val] := by
    unfold escapedPieces
    split_ifs with hunit hascii
    · exact Or.inr ⟨hunit.1, rfl⟩
    · exact Or.inl rfl
    · exact Or.inl rfl
  rw [Keeps, joinUnits]
  induction s with
  | nil => rfl
  | cons c s ih =>
    rw [List.flatMap_cons]
    rcases hpiece c with hplain | ⟨hsmall, hunit⟩
    · rw [hplain, List.singleton_append, joinFrom_plain, ih]
      rfl
    · have hlow : ¬isHigh c.val := by
        intro h
        have := h.1
        omega
      rw [hunit, List.singleton_append, joinFrom,
        joinFrom_alone _ _ (fun _ _ _ hpair => hlow hpair.1), ih, fin_ofNat_eq c _ rfl]

/-- No high surrogate with a low one behind it. -/
def NoSplitPairs (s : Str) : Prop := s.IsChain (fun c d => ¬(isHigh c.val ∧ isLow d.val))

theorem noSplitPairs_of_encodable {s : Str} (h : Encodable s) : NoSplitPairs s := by
  induction s with
  | nil => exact List.isChain_nil
  | cons c s ih =>
    obtain ⟨hc, hs⟩ := (encodable_cons c s).mp h
    cases s with
    | nil => exact List.isChain_singleton c
    | cons d s =>
      refine List.isChain_cons_cons.mpr ⟨?_, ih hs⟩
      rintro ⟨⟨hlow, hhigh⟩, -⟩
      rw [isSurrogate, decide_eq_false_iff_not] at hc
      omega

/-- The pieces of a character in ASCII: itself, its one unit, or its two surrogates. -/
theorem ascii_pieces_cases (c : CodePoint) : ascii.escapedPieces c = [.plain c]
    ∨ ascii.escapedPieces c = [.unit c.val]
    ∨ ∃ high low, ascii.escapedPieces c = [.unit high, .unit low] ∧ isHigh high ∧ isLow low
      ∧ joinPair high low = c := by
  have hlt := c.isLt
  unfold escapedPieces
  split_ifs with hunit hascii
  · exact Or.inr (Or.inl rfl)
  · exact Or.inl rfl
  · have hplain : ¬(0x20 ≤ c.val ∧ c.val ≤ 0x7E) := by omega
    change asciiPieces c = _ ∨ asciiPieces c = _ ∨ ∃ high low, asciiPieces c = _ ∧ _
    unfold asciiPieces
    rw [if_neg hplain]
    split_ifs with hsmall
    · exact Or.inr (Or.inl rfl)
    · refine Or.inr (Or.inr ⟨_, _, rfl, ⟨by omega, by omega⟩, ⟨by omega, by omega⟩, ?_⟩)
      exact fin_ofNat_eq c _ (by omega)

/-- The first piece of a text is no low surrogate unless its first character is one. -/
theorem ascii_head_unit {s : Str} {m : ℕ} {rest : List JsonPiece}
    (h : s.flatMap ascii.escapedPieces = .unit m :: rest) (hlow : isLow m) :
    ∃ d ∈ s.head?, isLow d.val := by
  cases s with
  | nil => cases h
  | cons d s =>
    rw [List.flatMap_cons] at h
    refine ⟨d, rfl, ?_⟩
    rcases ascii_pieces_cases d with hplain | hunit | ⟨high, low, hpair, hhigh, -⟩
    · rw [hplain] at h
      cases h
    · rw [hunit] at h
      cases h
      exact hlow
    · rw [hpair] at h
      cases h
      exact absurd hlow.1 (Nat.not_le.mpr hhigh.2)

theorem ascii_keeps {s : Str} (h : NoSplitPairs s) : ascii.Keeps s := by
  rw [Keeps, joinUnits]
  induction s with
  | nil => rfl
  | cons c s ih =>
    have hs : joinFrom none (s.flatMap ascii.escapedPieces) = s := ih h.tail
    rw [List.flatMap_cons]
    rcases ascii_pieces_cases c with hplain | hunit | ⟨high, low, hpair, hhigh, hlow, hjoin⟩
    · rw [hplain, List.singleton_append, joinFrom_plain, hs]
      rfl
    · have hnext : ∀ m rest, s.flatMap ascii.escapedPieces = .unit m :: rest →
          ¬(isHigh c.val ∧ isLow m) := by
        rintro m rest hrest ⟨hhigh, hlow⟩
        obtain ⟨d, hd, hdlow⟩ := ascii_head_unit hrest hlow
        exact List.IsChain.rel_head? h hd ⟨hhigh, hdlow⟩
      rw [hunit, List.singleton_append, joinFrom, joinFrom_alone _ _ hnext, hs,
        fin_ofNat_eq c _ rfl]
    · rw [hpair, List.cons_append, List.singleton_append, joinFrom, joinFrom,
        if_pos ⟨hhigh, hlow⟩, hjoin, hs]

end JsonSpelling

end ConferWorker
