import ConferWorker.JsonEncodings
import ConferWorker.JsonNumbers
import ConferWorker.JsonSpellings

/-! `json.loads` undoes `json.dumps`: what is written for a value is read as this value,
whatever is behind it, in both spellings of the characters. -/
namespace ConferWorker

namespace JsonParser

mutual

/-- A value that the parser can return with so many levels left, where `keeps` holds of its
strings and names. -/
def ReadsAt (runtime : JsonRuntime) (keeps : Str → Prop) : ℕ → Json → Prop
  | _, .null => True
  | _, .bool _ => True
  | _, .int n => n.natAbs < Json.intLimit
  | _, .float text => text ∈ floatNames ∨ IsFloatNumber text ∧ runtime.floatText text = text
  | _, .str value => keeps value
  | _, .bytes _ => False
  | 0, .arr _ => False
  | depth+1, .arr items => ItemsReadAt runtime keeps depth items
  | 0, .obj _ => False
  | depth+1, .obj members => MembersReadAt runtime keeps depth members

def ItemsReadAt (runtime : JsonRuntime) (keeps : Str → Prop) : ℕ → List Json → Prop
  | _, [] => True
  | depth, item :: items => ReadsAt runtime keeps depth item ∧ ItemsReadAt runtime keeps depth items

def MembersReadAt (runtime : JsonRuntime) (keeps : Str → Prop) : ℕ → List (Str × Json) → Prop
  | _, [] => True
  | depth, (name, value) :: members =>
    keeps name ∧ ReadsAt runtime keeps depth value ∧ MembersReadAt runtime keeps depth members

end

section Steps

variable (rest : Str) (objects : List (List (Str × Json)))

theorem skipWhite_none (h : ∀ c ∈ rest.head?, isWhite c = false) :
    skipWhite ⟨rest, objects⟩ = (.ok (), ⟨rest, objects⟩) := by
  have hdrop : rest.dropWhile isWhite = rest := by
    cases rest with
    | nil => rfl
    | cons c rest => exact List.dropWhile_cons_of_neg (by simp [h c rfl])
  rw [skipWhite, Script.modify_run, hdrop]

theorem accept_found (c : CodePoint) :
    accept c ⟨c :: rest, objects⟩ = (.ok true, ⟨rest, objects⟩) :=
  if_pos rfl

theorem accept_other (c : CodePoint) (h : rest.head? ≠ some c) :
    accept c ⟨rest, objects⟩ = (.ok false, ⟨rest, objects⟩) :=
  if_neg h

theorem expect_found (c : CodePoint) :
    expect c ⟨c :: rest, objects⟩ = (.ok (), ⟨rest, objects⟩) := by
  rw [expect, Script.bind_ok _ (accept_found rest objects c)]
  rfl

end Steps

variable (runtime : JsonRuntime) (spelling : JsonSpelling)

/-- The text is read as the value, whatever stands behind it. -/
def Takes {α : Type} (script : JsonScript α) (text : Str) (value : α) : Prop :=
  ∀ rest objects, Delimited rest →
    ∃ more, script ⟨text++rest, objects⟩ = (.ok value, ⟨rest, more⟩)

theorem scanStr_quote {s : Str} (h : spelling.Keeps s) (rest : Str)
    (objects : List (List (Str × Json))) :
    scanStr ⟨(Json.quote s).flatMap spelling.spell++rest, objects⟩ = (.ok s, ⟨rest, objects⟩) := by
  have hquote : spelling.spell 0x22 = [0x22] := (spelling.printable 0x22 (by decide) (by decide)).1
  have htext : (Json.quote s).flatMap spelling.spell++rest
      = 0x22 :: ((s.flatMap Json.escapeCharacter).flatMap spelling.spell++0x22 :: rest) := by
    rw [Json.quote, List.flatMap_append, List.flatMap_append, List.flatMap_singleton, hquote,
      List.append_assoc, List.append_assoc]
    rfl
  rw [htext, scanStr, Script.bind_ok _ (expect_found _ objects 0x22), token]
  dsimp only
  rw [spelling.scanQuoted_quote h]

/-- The first character of the text of a value. -/
def Opening (c : CodePoint) : Prop :=
  isWhite c = false ∧ c ≠ 0x5D ∧ c ≠ 0x7D ∧ 0x20 ≤ c.val ∧ c.val ≤ 0x7E

instance (c : CodePoint) : Decidable (Opening c) := inferInstanceAs (Decidable (_ ∧ _))

theorem opening_digit {c : CodePoint} (h : isDecimalDigit c = true) : Opening c := by
  rw [isDecimalDigit, Bool.and_eq_true, decide_eq_true_eq, decide_eq_true_eq] at h
  have hne (n : ℕ) (hn : n < 0x30 ∨ 0x39 < n) (hlt : n < 0x110000) : c ≠ ⟨n, hlt⟩ := by
    rintro rfl
    dsimp only at h
    omega
  refine ⟨?_, hne 0x5D (by decide) (by decide), hne 0x7D (by decide) (by decide), by omega,
    by omega⟩
  have hblank := hne 0x20 (by decide) (by decide)
  have htab := hne 0x09 (by decide) (by decide)
  have hline := hne 0x0A (by decide) (by decide)
  have hreturn := hne 0x0D (by decide) (by decide)
  simp only [isWhite, Bool.or_eq_false_iff, beq_eq_false_iff_ne]
  exact ⟨⟨⟨hblank, htab⟩, hline⟩, hreturn⟩

theorem opening_number {text : Str} (h : BeginsNumber text) :
    ∃ c rest, text = c :: rest ∧ Opening c ∧ c ≠ 0x22 ∧ c ≠ 0x7B ∧ c ≠ 0x5B := by
  rcases h with ⟨c, rest, rfl, hc⟩ | ⟨c, rest, rfl, hc⟩
  · refine ⟨c, rest, rfl, opening_digit hc, ?_, ?_, ?_⟩
    all_goals
      rintro rfl
      exact absurd hc (by decide)
  · exact ⟨0x2D, c :: rest, rfl, by decide, by decide, by decide, by decide⟩

variable {runtime spelling}

theorem floatNames_constant {text : Str} (h : text ∈ floatNames) :
    (text, Json.float text) ∈ constants := by
  simp only [floatNames, List.mem_cons, List.not_mem_nil, or_false] at h
  rcases h with rfl | rfl | rfl
  all_goals simp [constants]

theorem constants_opening : ∀ constant ∈ constants,
    ∃ c rest, constant.1 = c :: rest ∧ Opening c ∧ c ≠ 0x22 ∧ c ≠ 0x7B ∧ c ≠ 0x5B := by
  intro constant hconstant
  simp only [constants, List.mem_cons, List.not_mem_nil, or_false] at hconstant
  rcases hconstant with rfl | rfl | rfl | rfl | rfl | rfl
  all_goals exact ⟨_, _, rfl, by decide, by decide, by decide, by decide⟩

/-- A value that is no string, array or object, and its text. -/
def IsAtom (runtime : JsonRuntime) (text : Str) (value : Json) : Prop :=
  (text, value) ∈ constants
    ∨ (∃ n : ℤ, n.natAbs < Json.intLimit ∧ text = Json.intText n ∧ value = .int n)
    ∨ IsFloatNumber text ∧ runtime.floatText text = text ∧ value = .float text

theorem IsAtom.opening {text : Str} {value : Json} (h : IsAtom runtime text value) :
    ∃ c rest, text = c :: rest ∧ Opening c ∧ c ≠ 0x22 ∧ c ≠ 0x7B ∧ c ≠ 0x5B := by
  rcases h with hconstant | ⟨n, -, rfl, -⟩ | ⟨hfloat, -, -⟩
  · exact constants_opening _ hconstant
  · exact opening_number (scanNumber_characters (scanNumber_intText n)).2
  · exact opening_number (scanNumber_characters hfloat).2

theorem IsAtom.printable {text : Str} {value : Json} (h : IsAtom runtime text value) :
    ∀ c ∈ text, 0x20 ≤ c.val ∧ c.val ≤ 0x7E := by
  have hnumber {text : Str} (h : ∀ c ∈ text, isNumberCharacter c = true) :
      ∀ c ∈ text, 0x20 ≤ c.val ∧ c.val ≤ 0x7E := by
    intro c hc
    have hcharacter := h c hc
    simp only [isNumberCharacter, isDecimalDigit, Bool.or_eq_true, Bool.and_eq_true,
      decide_eq_true_eq, beq_iff_eq] at hcharacter
    rcases hcharacter with (((((h | rfl) | rfl) | rfl) | rfl) | rfl)
    · omega
    all_goals decide
  have hnames : ∀ constant ∈ constants,
      constant.1.all (fun c => 0x20 ≤ c.val && c.val ≤ 0x7E) = true := by
    intro constant hconstant
    simp only [constants, List.mem_cons, List.not_mem_nil, or_false] at hconstant
    rcases hconstant with rfl | rfl | rfl | rfl | rfl | rfl
    all_goals decide
  rcases h with hconstant | ⟨n, -, rfl, -⟩ | ⟨hfloat, -, -⟩
  · simpa using hnames _ hconstant
  · exact hnumber (scanNumber_characters (scanNumber_intText n)).1
  · exact hnumber (scanNumber_characters hfloat).1

theorem scanAtom_atom {text : Str} {value : Json} (h : IsAtom runtime text value) {rest : Str}
    (hrest : Delimited rest) : scanAtom runtime (text++rest) = .ok (value, rest) := by
  rcases h with hconstant | ⟨n, hn, rfl, rfl⟩ | ⟨hfloat, hstable, rfl⟩
  · simp only [constants, List.mem_cons, List.not_mem_nil, or_false, Prod.mk.injEq] at hconstant
    rcases hconstant with ⟨rfl, rfl⟩ | ⟨rfl, rfl⟩ | ⟨rfl, rfl⟩ | ⟨rfl, rfl⟩ | ⟨rfl, rfl⟩ | ⟨rfl, rfl⟩
    all_goals rfl
  · have hscan := scanNumber_intText n
    rw [scanAtom, constants_number (scanNumber_characters hscan).2, scanNumber_append hrest hscan]
    dsimp only
    rw [if_neg Bool.false_ne_true, readInt_intText n hn]
  · rw [scanAtom, constants_number (scanNumber_characters hfloat).2,
      scanNumber_append hrest hfloat]
    dsimp only
    rw [if_pos rfl, hstable]

/-- A value is an atom, or its text begins like a string, an array or an object. -/
theorem dumps_atom {keeps : Str → Prop} {depth : ℕ} {value : Json} {text : Str}
    (hdumps : value.dumps = .ok text) (hreads : ReadsAt runtime keeps depth value) :
    IsAtom runtime text value ∨ (∃ s rest, value = .str s ∧ text = 0x22 :: rest)
      ∨ (∃ items rest, value = .arr items ∧ text = 0x5B :: rest)
      ∨ ∃ members rest, value = .obj members ∧ text = 0x7B :: rest := by
  cases value with
  | null =>
    obtain rfl := (pure_eq_ok _ _).mp hdumps
    exact Or.inl (Or.inl (by simp [constants]))
  | bool value =>
    obtain rfl := (pure_eq_ok _ _).mp hdumps
    refine Or.inl (Or.inl ?_)
    cases value
    · simp [constants]
    · simp [constants]
  | int n =>
    have hn : n.natAbs < Json.intLimit := by simpa only [ReadsAt] using hreads
    have htext : Json.dumpsInt n = .ok text := hdumps
    rw [Json.dumpsInt, raiseIf_of_not _ (Nat.not_le.mpr hn), ok_bind] at htext
    obtain rfl := (pure_eq_ok _ _).mp htext
    exact Or.inl (Or.inr (Or.inl ⟨n, hn, rfl, rfl⟩))
  | float t =>
    obtain rfl := (pure_eq_ok _ _).mp hdumps
    have hfloat : t ∈ floatNames ∨ IsFloatNumber t ∧ runtime.floatText t = t := by
      simpa only [ReadsAt] using hreads
    rcases hfloat with hname | ⟨hnumber, hstable⟩
    · exact Or.inl (Or.inl (floatNames_constant hname))
    · exact Or.inl (Or.inr (Or.inr ⟨hnumber, hstable, rfl⟩))
  | str value =>
    obtain rfl := (pure_eq_ok _ _).mp hdumps
    exact Or.inr (Or.inl ⟨value, _, rfl, rfl⟩)
  | bytes value => cases hdumps
  | arr items =>
    rw [Json.dumps, bind_eq_ok] at hdumps
    obtain ⟨texts, -, htext⟩ := hdumps
    obtain rfl := (pure_eq_ok _ _).mp htext
    exact Or.inr (Or.inr (Or.inl ⟨items, _, rfl, rfl⟩))
  | obj members =>
    rw [Json.dumps, bind_eq_ok] at hdumps
    obtain ⟨texts, -, htext⟩ := hdumps
    obtain rfl := (pure_eq_ok _ _).mp htext
    exact Or.inr (Or.inr (Or.inr ⟨members, _, rfl, rfl⟩))

/-- The text of a value begins so that no white space is skipped in front of it and no bracket
is seen. -/
theorem dumps_opening {keeps : Str → Prop} {depth : ℕ} {value : Json} {text : Str}
    (hdumps : value.dumps = .ok text) (hreads : ReadsAt runtime keeps depth value) :
    ∃ c rest, text = c :: rest ∧ Opening c := by
  rcases dumps_atom hdumps hreads with
    hatom | ⟨_, rest, -, rfl⟩ | ⟨_, rest, -, rfl⟩ | ⟨_, rest, -, rfl⟩
  · obtain ⟨c, rest, htext, hc, -⟩ := hatom.opening
    exact ⟨c, rest, htext, hc⟩
  · exact ⟨0x22, rest, rfl, by decide⟩
  · exact ⟨0x5B, rest, rfl, by decide⟩
  · exact ⟨0x7B, rest, rfl, by decide⟩

/-- What may stand in front of the next value or name of an array or an object. -/
def Begins (text : Str) : Prop := ∃ c rest, text = c :: rest ∧ Opening c

theorem Begins.spelled (spelling : JsonSpelling) {text : Str} (h : Begins text) (rest : Str) :
    Begins (text.flatMap spelling.spell++rest) := by
  obtain ⟨c, behind, rfl, hc⟩ := h
  refine ⟨c, behind.flatMap spelling.spell++rest, ?_, hc⟩
  rw [List.flatMap_cons, (spelling.printable c hc.2.2.2.1 hc.2.2.2.2).1]
  rfl

theorem Begins.skipWhite {text : Str} (h : Begins text) (objects : List (List (Str × Json))) :
    skipWhite ⟨text, objects⟩ = (.ok (), ⟨text, objects⟩) := by
  obtain ⟨c, rest, rfl, hc⟩ := h
  exact skipWhite_none _ objects (by simp [hc.1])

theorem Begins.accept_false {text : Str} (h : Begins text) {bracket : CodePoint}
    (hbracket : bracket = 0x5D ∨ bracket = 0x7D) (objects : List (List (Str × Json))) :
    accept bracket ⟨text, objects⟩ = (.ok false, ⟨text, objects⟩) := by
  obtain ⟨c, rest, rfl, -, hsquare, hcurly, -⟩ := h
  apply accept_other
  intro hhead
  obtain rfl : c = bracket := by simpa using hhead
  rcases hbracket with rfl | rfl
  · exact hsquare rfl
  · exact hcurly rfl

/-- The texts of some values with commas between them, spelled, and a bracket behind them. -/
theorem spelled_cons (text : Str) {texts : List Str} (htexts : texts ≠ []) (rest : Str) :
    ([0x2C].intercalate (text :: texts)).flatMap spelling.spell++rest
      = text.flatMap spelling.spell++0x2C :: (([0x2C].intercalate texts).flatMap spelling.spell
        ++rest) := by
  have hcomma : spelling.spell 0x2C = [0x2C] := (spelling.printable 0x2C (by decide) (by decide)).1
  rw [intercalate_cons _ _ _ htexts, List.flatMap_append, List.flatMap_append,
    List.flatMap_singleton, hcomma, List.append_assoc, List.append_assoc]
  rfl

theorem spelled_bracketed (left right : CodePoint) (hleft : 0x20 ≤ left.val ∧ left.val ≤ 0x7E)
    (hright : 0x20 ≤ right.val ∧ right.val ≤ 0x7E) (inner rest : Str) :
    ([left]++inner++[right]).flatMap spelling.spell++rest
      = left :: (inner.flatMap spelling.spell++right :: rest) := by
  rw [List.flatMap_append, List.flatMap_append, List.flatMap_singleton, List.flatMap_singleton,
    (spelling.printable left hleft.1 hleft.2).1, (spelling.printable right hright.1 hright.2).1,
    List.append_assoc, List.append_assoc]
  rfl

theorem delimited_comma (rest : Str) : Delimited (0x2C :: rest) :=
  delimited_cons rest (Or.inl rfl)

theorem scanOnce_eq (runtime : JsonRuntime) (depth : ℕ) :
    ∃ item, scanOnce runtime depth = scanValue runtime item := by
  cases depth with
  | zero => exact ⟨none, rfl⟩
  | succ depth => exact ⟨some (scanOnce runtime depth), rfl⟩

section Front

variable (item : Option (JsonScript Json)) (rest : Str) (objects : List (List (Str × Json)))

theorem scanValue_string :
    scanValue runtime item ⟨0x22 :: rest, objects⟩
      = (scanStr >>= fun value => pure (.str value) : JsonScript Json)
        ⟨0x22 :: rest, objects⟩ := rfl

theorem scanValue_object :
    scanValue runtime item ⟨0x7B :: rest, objects⟩
      = nested item scanObject ⟨0x7B :: rest, objects⟩ := rfl

theorem scanValue_array :
    scanValue runtime item ⟨0x5B :: rest, objects⟩
      = nested item scanArray ⟨0x5B :: rest, objects⟩ := rfl

theorem scanValue_atom (c : CodePoint) (h : c ≠ 0x22 ∧ c ≠ 0x7B ∧ c ≠ 0x5B) :
    scanValue runtime item ⟨c :: rest, objects⟩
      = token (scanAtom runtime) ⟨c :: rest, objects⟩ := by
  have hfront (script string object array : JsonScript Json) (hscript : script =
      if some c = some 0x22 then string else if some c = some 0x7B then object
      else if some c = some 0x5B then array else token (scanAtom runtime)) :
      script = token (scanAtom runtime) := by
    rw [hscript, if_neg (by simpa using h.1), if_neg (by simpa using h.2.1),
      if_neg (by simpa using h.2.2)]
  exact congrFun (hfront _ _ _ _ rfl) _

end Front

theorem scanOnce_atom {text : Str} {value : Json} (h : IsAtom runtime text value) (depth : ℕ) :
    Takes (scanOnce runtime depth) (text.flatMap spelling.spell) value := by
  intro rest objects hrest
  obtain ⟨item, hitem⟩ := scanOnce_eq runtime depth
  obtain ⟨c, behind, htext, -, hfront⟩ := h.opening
  have hscan := scanAtom_atom h hrest
  refine ⟨objects, ?_⟩
  rw [spelling.spell_printable h.printable, hitem, htext, List.cons_append,
    scanValue_atom item _ objects c hfront, token]
  dsimp only
  rw [← List.cons_append, ← htext, hscan]

theorem scanOnce_string {s : Str} (h : spelling.Keeps s) (depth : ℕ) :
    Takes (scanOnce runtime depth) ((Json.quote s).flatMap spelling.spell) (.str s) := by
  intro rest objects _
  obtain ⟨item, hitem⟩ := scanOnce_eq runtime depth
  have hscan := scanStr_quote spelling h rest objects
  have hquote : (Json.quote s).flatMap spelling.spell++rest = 0x22 ::
      ((s.flatMap Json.escapeCharacter++[0x22]).flatMap spelling.spell++rest) := by
    rw [Json.quote, List.append_assoc, List.singleton_append, List.flatMap_cons,
      (spelling.printable 0x22 (by decide) (by decide)).1]
    rfl
  refine ⟨objects, ?_⟩
  rw [hquote] at hscan ⊢
  rw [hitem, scanValue_string, Script.bind_ok _ hscan]
  rfl

/-- An entry is read from its text, which begins like a value or a name. -/
structure EntryText {α : Type} (spelling : JsonSpelling) (entry : JsonScript α) (text : Str)
    (value : α) : Prop where
  begins : Begins text
  takes : Takes entry (text.flatMap spelling.spell) value

theorem begins_entries {α : Type} {entry : JsonScript α} {texts : List Str} {entries : List α}
    (h : List.Forall₂ (EntryText spelling entry) texts entries) (hne : texts ≠ []) :
    Begins ([0x2C].intercalate texts) := by
  cases h with
  | nil => exact absurd rfl hne
  | cons hentry hothers =>
    rename_i text value texts values
    obtain ⟨c, behind, rfl, hc⟩ := hentry.begins
    rcases eq_or_ne texts [] with rfl | htexts
    · exact ⟨c, behind, List.intercalate_singleton, hc⟩
    · refine ⟨c, behind++[0x2C]++[0x2C].intercalate texts, ?_, hc⟩
      rw [intercalate_cons _ _ _ htexts]
      rfl

/-- There are at least as many characters as entries. -/
theorem entries_length {α : Type} {entry : JsonScript α} {texts : List Str} {entries : List α}
    (h : List.Forall₂ (EntryText spelling entry) texts entries) :
    texts.length ≤ ([0x2C].intercalate texts).length := by
  induction h with
  | nil => exact Nat.zero_le _
  | cons hentry hothers ih =>
    rename_i text value texts values
    obtain ⟨c, behind, rfl, -⟩ := hentry.begins
    rcases eq_or_ne texts [] with rfl | htexts
    · rw [List.intercalate_singleton]
      exact Nat.succ_le_succ (Nat.zero_le _)
    · rw [intercalate_cons _ _ _ htexts, List.length_append, List.length_append, List.length_cons,
        List.length_cons]
      omega

/-- A text with the bracket of the entries behind it. -/
theorem delimited_bracket {bracket : CodePoint} (hbracket : bracket = 0x5D ∨ bracket = 0x7D)
    (rest : Str) : Delimited (bracket :: rest) :=
  delimited_cons rest (Or.inr hbracket)

theorem skipWhite_bracket {c : CodePoint} (hc : c = 0x2C ∨ c = 0x3A ∨ c = 0x5D ∨ c = 0x7D)
    (rest : Str) (objects : List (List (Str × Json))) :
    skipWhite ⟨c :: rest, objects⟩ = (.ok (), ⟨c :: rest, objects⟩) := by
  apply skipWhite_none
  intro d hd
  obtain rfl : c = d := by simpa using hd
  rcases hc with rfl | rfl | rfl | rfl
  all_goals decide

theorem scanEntries_takes {α : Type} {entry : JsonScript α} {bracket : CodePoint}
    (hbracket : bracket = 0x5D ∨ bracket = 0x7D) {texts : List Str} {entries : List α}
    (h : List.Forall₂ (EntryText spelling entry) texts entries) (hne : texts ≠ []) (fuel : ℕ)
    (hfuel : texts.length ≤ fuel) (rest : Str) (objects : List (List (Str × Json))) :
    ∃ more, scanEntries entry bracket fuel
        ⟨([0x2C].intercalate texts).flatMap spelling.spell++bracket :: rest, objects⟩
      = (.ok entries, ⟨rest, more⟩) := by
  induction h generalizing fuel objects with
  | nil => exact absurd rfl hne
  | cons hentry hothers ih =>
    rename_i text value texts values
    cases fuel with
    | zero => exact absurd hfuel (Nat.not_succ_le_zero _)
    | succ fuel =>
      rcases eq_or_ne texts [] with rfl | htexts
      · obtain rfl : values = [] := List.forall₂_nil_left_iff.mp hothers
        obtain ⟨more, hscan⟩ := hentry.takes (bracket :: rest) objects
          (delimited_bracket hbracket rest)
        refine ⟨more, ?_⟩
        rw [List.intercalate_singleton, scanEntries, Script.bind_ok _ hscan,
          Script.bind_ok _ (skipWhite_bracket (by tauto) rest more),
          Script.bind_ok _ (accept_found rest more bracket)]
        rfl
      · have hbegins := (begins_entries hothers htexts).spelled spelling (bracket :: rest)
        rw [spelled_cons text htexts]
        obtain ⟨more, hscan⟩ := hentry.takes (0x2C :: (([0x2C].intercalate texts).flatMap
          spelling.spell++bracket :: rest)) objects (delimited_comma _)
        obtain ⟨last, hlast⟩ := ih htexts fuel (Nat.le_of_succ_le_succ hfuel) more
        have hother : (0x2C :: (([0x2C].intercalate texts).flatMap spelling.spell
            ++bracket :: rest)).head? ≠ some bracket := by
          intro hhead
          obtain rfl : 0x2C = bracket := Option.some.inj hhead
          exact absurd hbracket (by decide)
        refine ⟨last, ?_⟩
        rw [scanEntries, Script.bind_ok _ hscan,
          Script.bind_ok _ (skipWhite_bracket (Or.inl rfl) _ more),
          Script.bind_ok _ (accept_other _ more bracket hother)]
        rw [if_neg Bool.false_ne_true, Script.bind_ok _ (expect_found _ more 0x2C),
          Script.bind_ok _ (hbegins.skipWhite more), Script.bind_ok _ hlast]
        rfl

theorem scanBody_takes {α : Type} {entry : JsonScript α} {bracket : CodePoint}
    (hbracket : bracket = 0x5D ∨ bracket = 0x7D) {texts : List Str} {entries : List α}
    (h : List.Forall₂ (EntryText spelling entry) texts entries) (rest : Str)
    (objects : List (List (Str × Json))) :
    ∃ more, scanBody entry bracket
        ⟨([0x2C].intercalate texts).flatMap spelling.spell++bracket :: rest, objects⟩
      = (.ok entries, ⟨rest, more⟩) := by
  rcases eq_or_ne texts [] with rfl | hne
  · obtain rfl : entries = [] := List.forall₂_nil_left_iff.mp h
    refine ⟨objects, ?_⟩
    change scanBody entry bracket ⟨bracket :: rest, objects⟩ = _
    rw [scanBody, Script.bind_ok _ (skipWhite_bracket (by tauto) rest objects),
      Script.bind_ok _ (accept_found rest objects bracket)]
    rfl
  · have hbegins := (begins_entries h hne).spelled spelling (bracket :: rest)
    have hlength := entries_length h
    have hspelled := spelling.length_le_spell ([0x2C].intercalate texts)
    obtain ⟨more, hscan⟩ := scanEntries_takes hbracket h hne
      (([0x2C].intercalate texts).flatMap spelling.spell++bracket :: rest).length
      (by rw [List.length_append]; omega) rest objects
    refine ⟨more, ?_⟩
    rw [scanBody, Script.bind_ok _ (hbegins.skipWhite objects),
      Script.bind_ok _ (hbegins.accept_false hbracket objects)]
    exact hscan

theorem scanMember_takes {depth : ℕ} {name text : Str} {value : Json}
    (hname : spelling.Keeps name) (h : EntryText spelling (scanOnce runtime depth) text value) :
    EntryText spelling (scanMember (scanOnce runtime depth)) (Json.quote name++[0x3A]++text)
      (name, value) where
  begins := ⟨0x22, _, rfl, by decide⟩
  takes := by
    intro rest objects hrest
    have hcolon : spelling.spell 0x3A = [0x3A] :=
      (spelling.printable 0x3A (by decide) (by decide)).1
    have htext : (Json.quote name++[0x3A]++text).flatMap spelling.spell++rest
        = (Json.quote name).flatMap spelling.spell
          ++0x3A :: (text.flatMap spelling.spell++rest) := by
      rw [List.flatMap_append, List.flatMap_append, List.flatMap_singleton, hcolon,
        List.append_assoc, List.append_assoc]
      rfl
    obtain ⟨more, hscan⟩ := h.takes rest objects hrest
    refine ⟨more, ?_⟩
    rw [htext, scanMember, Script.bind_ok _ (scanStr_quote spelling hname _ objects),
      Script.bind_ok _ (skipWhite_bracket (Or.inr (Or.inl rfl)) _ objects),
      Script.bind_ok _ (expect_found _ objects 0x3A),
      Script.bind_ok _ ((h.begins.spelled spelling rest).skipWhite objects),
      Script.bind_ok _ hscan]
    rfl

theorem scanOnce_array {depth : ℕ} {items : List Json} {texts : List Str}
    (h : List.Forall₂ (EntryText spelling (scanOnce runtime depth)) texts items) :
    Takes (scanOnce runtime (depth+1))
      (([0x5B]++[0x2C].intercalate texts++[0x5D]).flatMap spelling.spell) (.arr items) := by
  intro rest objects _
  obtain ⟨more, hscan⟩ := scanBody_takes (Or.inl rfl) h rest objects
  refine ⟨more, ?_⟩
  rw [spelled_bracketed 0x5B 0x5D (by decide) (by decide), scanOnce, scanValue_array, nested,
    scanArray, Script.bind_ok _ (expect_found _ objects 0x5B), Script.bind_ok _ hscan]
  rfl

theorem scanOnce_object {depth : ℕ} {members : List (Str × Json)} {texts : List Str}
    (h : List.Forall₂ (EntryText spelling (scanMember (scanOnce runtime depth))) texts members) :
    Takes (scanOnce runtime (depth+1))
      (([0x7B]++[0x2C].intercalate texts++[0x7D]).flatMap spelling.spell) (.obj members) := by
  intro rest objects _
  obtain ⟨more, hscan⟩ := scanBody_takes (Or.inr rfl) h rest objects
  refine ⟨more++[members], ?_⟩
  rw [spelled_bracketed 0x7B 0x7D (by decide) (by decide), scanOnce, scanValue_object, nested,
    scanObject, Script.bind_ok _ (expect_found _ objects 0x7B), Script.bind_ok _ hscan]
  rfl

mutual

/-- Every value is read from its text. -/
theorem scanOnce_takes (value : Json) (depth : ℕ) (text : Str) (hdumps : value.dumps = .ok text)
    (hreads : ReadsAt runtime spelling.Keeps depth value) :
    EntryText spelling (scanOnce runtime depth) text value := by
  refine ⟨dumps_opening hdumps hreads, ?_⟩
  rcases dumps_atom hdumps hreads with hatom | hcompound
  · exact scanOnce_atom hatom depth
  cases value with
  | str value =>
    obtain rfl := (pure_eq_ok _ _).mp hdumps
    exact scanOnce_string (by simpa only [ReadsAt] using hreads) depth
  | arr items =>
    rw [Json.dumps, bind_eq_ok] at hdumps
    obtain ⟨texts, htexts, htext⟩ := hdumps
    obtain rfl := (pure_eq_ok _ _).mp htext
    cases depth with
    | zero => exact absurd hreads (by simp only [ReadsAt, not_false_iff])
    | succ depth =>
      rw [ReadsAt] at hreads
      exact scanOnce_array (scanItems_takes items depth texts htexts hreads)
  | obj members =>
    rw [Json.dumps, bind_eq_ok] at hdumps
    obtain ⟨texts, htexts, htext⟩ := hdumps
    obtain rfl := (pure_eq_ok _ _).mp htext
    cases depth with
    | zero => exact absurd hreads (by simp only [ReadsAt, not_false_iff])
    | succ depth =>
      rw [ReadsAt] at hreads
      exact scanOnce_object (scanMembers_takes members depth texts htexts hreads)
  | null => simp at hcompound
  | bool value => simp at hcompound
  | int n => simp at hcompound
  | float t => simp at hcompound
  | bytes value => simp at hcompound

theorem scanItems_takes (items : List Json) (depth : ℕ) (texts : List Str)
    (hdumps : Json.dumpsItems items = .ok texts)
    (hreads : ItemsReadAt runtime spelling.Keeps depth items) :
    List.Forall₂ (EntryText spelling (scanOnce runtime depth)) texts items := by
  cases items with
  | nil =>
    obtain rfl := (pure_eq_ok _ _).mp hdumps
    exact List.Forall₂.nil
  | cons item items =>
    rw [Json.dumpsItems, bind_eq_ok] at hdumps
    obtain ⟨text, htext, hrest⟩ := hdumps
    rw [bind_eq_ok] at hrest
    obtain ⟨others, hothers, htexts⟩ := hrest
    obtain rfl := (pure_eq_ok _ _).mp htexts
    rw [ItemsReadAt] at hreads
    exact List.Forall₂.cons (scanOnce_takes item depth text htext hreads.1)
      (scanItems_takes items depth others hothers hreads.2)

theorem scanMembers_takes (members : List (Str × Json)) (depth : ℕ) (texts : List Str)
    (hdumps : Json.dumpsMembers members = .ok texts)
    (hreads : MembersReadAt runtime spelling.Keeps depth members) :
    List.Forall₂ (EntryText spelling (scanMember (scanOnce runtime depth))) texts members := by
  cases members with
  | nil =>
    obtain rfl := (pure_eq_ok _ _).mp hdumps
    exact List.Forall₂.nil
  | cons member members =>
    obtain ⟨name, value⟩ := member
    rw [Json.dumpsMembers, bind_eq_ok] at hdumps
    obtain ⟨text, htext, hrest⟩ := hdumps
    rw [bind_eq_ok] at hrest
    obtain ⟨others, hothers, htexts⟩ := hrest
    obtain rfl := (pure_eq_ok _ _).mp htexts
    rw [MembersReadAt] at hreads
    exact List.Forall₂.cons
      (scanMember_takes hreads.1 (scanOnce_takes value depth text htext hreads.2.1))
      (scanMembers_takes members depth others hothers hreads.2.2)

end

/-- `json.loads(json.dumps(value))`, in both spellings. -/
theorem read_dumps {value : Json} {text : Str} (hdumps : value.dumps = .ok text)
    (hreads : ReadsAt runtime spelling.Keeps runtime.maxDepth value) :
    read runtime (text.flatMap spelling.spell) = .ok value := by
  have hentry := scanOnce_takes value runtime.maxDepth text hdumps hreads
  obtain ⟨more, hscan⟩ := hentry.takes [] [] delimited_nil
  have hbegins := hentry.begins.spelled spelling []
  rw [List.append_nil] at hscan hbegins
  have hmark : (text.flatMap spelling.spell).head? ≠ some byteOrderMark := by
    obtain ⟨c, rest, htext, hc⟩ := hbegins
    rw [htext]
    intro hhead
    obtain rfl : c = byteOrderMark := Option.some.inj hhead
    exact absurd hc.2.2.2.2 (by decide)
  have hdecode : decode runtime ⟨text.flatMap spelling.spell, []⟩ = (.ok value, ⟨[], more⟩) := by
    change (if (text.flatMap spelling.spell).head? = some byteOrderMark then
        Script.raise .notJson else _ : JsonScript Json) ⟨text.flatMap spelling.spell, []⟩ = _
    rw [if_neg hmark, Script.bind_ok _ (hbegins.skipWhite []), Script.bind_ok _ hscan,
      Script.bind_ok _ (skipWhite_none [] more (fun _ hc => by cases hc))]
    rfl
  rw [read, hdecode]

theorem escapeCharacter_head (c : CodePoint) :
    ∃ d rest, Json.escapeCharacter c = d :: rest ∧ 0x20 ≤ d.val := by
  unfold Json.escapeCharacter
  split_ifs with h1 h2 h3 h4 h5 h6 h7 h8
  · exact ⟨0x5C, [0x22], rfl, by decide⟩
  · exact ⟨0x5C, [0x5C], rfl, by decide⟩
  · exact ⟨0x5C, [0x6E], rfl, by decide⟩
  · exact ⟨0x5C, [0x72], rfl, by decide⟩
  · exact ⟨0x5C, [0x74], rfl, by decide⟩
  · exact ⟨0x5C, [0x66], rfl, by decide⟩
  · exact ⟨0x5C, [0x62], rfl, by decide⟩
  · exact ⟨0x5C, _, rfl, by decide⟩
  · exact ⟨c, [], rfl, by omega⟩

/-- The second character of the text of a value is no control character. -/
theorem dumps_second {depth : ℕ} {value : Json} {text : Str} (hdumps : value.dumps = .ok text)
    (hreads : ReadsAt runtime spelling.Keeps depth value) :
    ∃ c rest, text = c :: rest ∧ Opening c ∧ ∀ d ∈ rest.head?, 0x20 ≤ d.val := by
  -- behind its bracket a compound value has its first entry or the closing bracket
  have hbody {α : Type} {entry : JsonScript α} {texts : List Str} {entries : List α}
      (h : List.Forall₂ (EntryText spelling entry) texts entries) (bracket : CodePoint)
      (hbracket : 0x20 ≤ bracket.val) :
      ∀ d ∈ ([0x2C].intercalate texts++[bracket]).head?, 0x20 ≤ d.val := by
    intro d hd
    rcases eq_or_ne texts [] with rfl | hne
    · obtain rfl : bracket = d := by simpa using hd
      exact hbracket
    · obtain ⟨c, rest, htext, hc⟩ := begins_entries h hne
      rw [htext] at hd
      obtain rfl : c = d := by simpa using hd
      exact hc.2.2.2.1
  rcases dumps_atom hdumps hreads with hatom | hcompound
  · obtain ⟨c, rest, htext, hc, -⟩ := hatom.opening
    refine ⟨c, rest, htext, hc, fun d hd => ?_⟩
    have hmem : d ∈ text := by
      rw [htext]
      exact List.mem_cons_of_mem c (List.mem_of_mem_head? hd)
    exact (hatom.printable d hmem).1
  -- atoms are done; what is left begins with a quotation mark or a bracket
  cases value with
  | str s =>
    obtain rfl := (pure_eq_ok _ _).mp hdumps
    refine ⟨0x22, s.flatMap Json.escapeCharacter++[0x22], rfl, by decide, fun d hd => ?_⟩
    cases s with
    | nil =>
      obtain rfl : 0x22 = d := by simpa using hd
      decide
    | cons c s =>
      obtain ⟨e, rest, hescape, he⟩ := escapeCharacter_head c
      rw [List.flatMap_cons, hescape] at hd
      obtain rfl : e = d := by simpa using hd
      exact he
  | arr items =>
    rw [Json.dumps, bind_eq_ok] at hdumps
    obtain ⟨texts, htexts, htext⟩ := hdumps
    obtain rfl := (pure_eq_ok _ _).mp htext
    cases depth with
    | zero => exact absurd hreads (by simp only [ReadsAt, not_false_iff])
    | succ depth =>
      rw [ReadsAt] at hreads
      exact ⟨0x5B, _, rfl, by decide,
        hbody (scanItems_takes items depth texts htexts hreads) 0x5D (by decide)⟩
  | obj members =>
    rw [Json.dumps, bind_eq_ok] at hdumps
    obtain ⟨texts, htexts, htext⟩ := hdumps
    obtain rfl := (pure_eq_ok _ _).mp htext
    cases depth with
    | zero => exact absurd hreads (by simp only [ReadsAt, not_false_iff])
    | succ depth =>
      rw [ReadsAt] at hreads
      exact ⟨0x7B, _, rfl, by decide,
        hbody (scanMembers_takes members depth texts htexts hreads) 0x7D (by decide)⟩
  | null => simp at hcompound
  | bool value => simp at hcompound
  | int n => simp at hcompound
  | float t => simp at hcompound
  | bytes value => simp at hcompound

theorem utf8Bytes_head_ne_zero {d : CodePoint} (hd : 0x20 ≤ d.val) :
    ∀ b ∈ (utf8Bytes d).head?, b ≠ 0 := by
  have hlt := d.isLt
  have hne (n : ℕ) (hpos : 0 < n) (hn : n < 256) : UInt8.ofNat n ≠ 0 := by
    rw [ne_eq, ← UInt8.toNat_inj, ofNat_toNat n hn]
    exact hpos.ne'
  intro b hb
  unfold utf8Bytes at hb
  dsimp only at hb
  split_ifs at hb
  · obtain rfl := Option.some.inj hb
    exact hne _ (by omega) (by omega)
  · obtain rfl := Option.some.inj hb
    exact hne _ (by omega) (by omega)
  · obtain rfl := Option.some.inj hb
    exact hne _ (by omega) (by omega)
  · obtain rfl := Option.some.inj hb
    exact hne _ (by omega) (by omega)

/-- The text of a value is read as UTF-8, whatever the value is and however it is spelled. -/
theorem decodeJson_dumps {depth : ℕ} {value : Json} {text : Str} (hdumps : value.dumps = .ok text)
    (hreads : ReadsAt runtime spelling.Keeps depth value)
    (hencodable : Encodable (text.flatMap spelling.spell)) :
    decodeJson (utf8 (text.flatMap spelling.spell)) = some (text.flatMap spelling.spell) := by
  obtain ⟨c, rest, rfl, hc, hsecond⟩ := dumps_second hdumps hreads
  have hspell : spelling.spell c = [c] := (spelling.printable c hc.2.2.2.1 hc.2.2.2.2).1
  rw [List.flatMap_cons, hspell, List.singleton_append] at hencodable ⊢
  have hpassing : decodePassing (utf8 (c :: rest.flatMap spelling.spell))
      = some (c :: rest.flatMap spelling.spell) :=
    decodePassingFrom_strict 0 _ _ (decodeUtf8_utf8 _ hencodable)
  have hbytes : utf8Bytes c = [UInt8.ofNat c.val] := by
    rw [utf8Bytes]
    exact if_pos (by have := hc.2.2.2.2; omega)
  have hvalue : (UInt8.ofNat c.val).toNat = c.val := by
    apply ofNat_toNat
    have := hc.2.2.2.2
    omega
  rw [utf8_cons, hbytes] at hpassing ⊢
  rw [List.singleton_append, decodeJson_ascii, ← List.singleton_append]
  · exact hpassing
  · rw [ne_eq, ← UInt8.toNat_inj, hvalue]
    have hlow := hc.2.2.2.1
    have hhigh := hc.2.2.2.2
    exact ⟨by omega, fun hzero => by rw [hzero] at hlow; exact absurd hlow (by decide)⟩
  · intro b hb
    cases rest with
    | nil => cases hb
    | cons d rest =>
      obtain ⟨e, more, hspelled, he⟩ := spelling.spell_head d (hsecond d rfl)
      rw [List.flatMap_cons, hspelled, List.cons_append, utf8_cons,
        List.head?_append_of_ne_nil _ (utf8Bytes_ne_nil e)] at hb
      exact utf8Bytes_head_ne_zero he b hb

theorem asDict_distinct {pairs : List (Str × Json)} (h : (pairs.map Prod.fst).Nodup) :
    asDict pairs = .ok (.obj pairs) := by
  have hfold (front pairs : List (Str × Json)) (h : ((front++pairs).map Prod.fst).Nodup) :
      pairs.foldl (fun members pair => setItem members pair.1 pair.2) front = front++pairs := by
    induction pairs generalizing front with
    | nil => rw [List.foldl_nil, List.append_nil]
    | cons pair pairs ih =>
      have hnew : ∀ member ∈ front, member.1 ≠ pair.1 := by
        intro member hmember heq
        rw [List.map_append, List.nodup_append] at h
        exact h.2.2 _ (List.mem_map_of_mem hmember) _ (by simp) heq
      rw [List.foldl_cons, setItem_new _ _ _ hnew, ih (front++[(pair.1, pair.2)])]
      · rw [List.append_assoc]
        rfl
      · rw [List.append_assoc]
        exact h
  exact congrArg (fun members => Except.ok (Json.obj members)) (hfold [] pairs h)

mutual

/-- A value in which no name is repeated is the same with its objects as `dict`s. -/
theorem hooked_asDict (tree : Json) (h : tree.NoRepeats) : tree.hooked asDict = .ok tree := by
  cases tree with
  | arr items =>
    rw [Json.NoRepeats] at h
    rw [Json.hooked, hookedItems_asDict items h]
    rfl
  | obj members =>
    rw [Json.NoRepeats] at h
    rw [Json.hooked, hookedMembers_asDict members h.1]
    exact asDict_distinct h.2
  | null => rfl
  | bool value => rfl
  | int n => rfl
  | float text => rfl
  | str s => rfl
  | bytes value => rfl

theorem hookedItems_asDict (items : List Json) (h : Json.NoRepeatsItems items) :
    Json.hookedItems asDict items = .ok items := by
  cases items with
  | nil => rfl
  | cons item items =>
    rw [Json.NoRepeatsItems] at h
    rw [Json.hookedItems, hooked_asDict item h.1, ok_bind, hookedItems_asDict items h.2]
    rfl

theorem hookedMembers_asDict (members : List (Str × Json)) (h : Json.NoRepeatsMembers members) :
    Json.hookedMembers asDict members = .ok members := by
  cases members with
  | nil => rfl
  | cons member members =>
    obtain ⟨name, value⟩ := member
    rw [Json.NoRepeatsMembers] at h
    rw [Json.hookedMembers, hooked_asDict value h.1, ok_bind, hookedMembers_asDict members h.2]
    rfl

end

/-- `json.loads(json.dumps(value).encode("utf-8"))`, in both spellings. -/
theorem loads_spelled {value : Json} {text : Str} (hdumps : value.dumps = .ok text)
    (hencodable : Encodable (text.flatMap spelling.spell))
    (hreads : ReadsAt runtime spelling.Keeps runtime.maxDepth value)
    (hdistinct : value.NoRepeats) :
    loads runtime (utf8 (text.flatMap spelling.spell)) = .ok value := by
  rw [loads, decodeJson_dumps hdumps hreads hencodable]
  dsimp only
  rw [read_dumps hdumps hreads]
  exact hooked_asDict value hdistinct

/-- `json.loads(json.dumps(value, ensure_ascii=False).encode("utf-8"))`. -/
theorem loads_encode {value : Json} {bytes : Bytes} (hencode : value.encode = .ok bytes)
    (hreads : ReadsAt runtime JsonSpelling.raw.Keeps runtime.maxDepth value)
    (hdistinct : value.NoRepeats) : loads runtime bytes = .ok value := by
  rw [Json.encode, bind_eq_ok] at hencode
  obtain ⟨text, hdumps, htext⟩ := hencode
  obtain ⟨hencodable, rfl⟩ := (encodeText_eq_ok text bytes).mp htext
  have hraw : text.flatMap JsonSpelling.raw.spell = text := List.flatMap_singleton' text
  have hloads := loads_spelled hdumps (by rw [hraw]; exact hencodable) hreads hdistinct
  rwa [hraw] at hloads

end JsonParser

end ConferWorker
