import ConferWorker.FtsExpressions
import ConferWorker.JoinedPieces

/-! The text that writes conjunctions of quoted phrases in parentheses, with `OR` between them,
and the expression that it is read as. -/
namespace ConferWorker

/-- A text that a quoted string can hold as it is. -/
def IsPlainText (text : Str) : Prop := ∀ c ∈ text, c.val ≠ 0 ∧ c.val ≠ 0x22

/-- A text in double quotes. -/
def inQuotes (text : Str) : Str := 0x22 :: (text++[0x22])

/-- The phrases of a conjunction in quotes. -/
def conjunctionText (phrases : List Str) : Str :=
  ofString "("++(ofString " AND ").intercalate (phrases.map inQuotes)++ofString ")"

def conjunctionTokens (phrases : List Str) : List FtsToken :=
  .leftParen :: ([FtsToken.and].intercalate (phrases.map (fun text => [FtsToken.string true text]))
    ++[.rightParen])

namespace FtsToken

/-- A character that ends tokens. -/
theorem readAll_ending {c : CodePoint} {mode next : Mode} {tokens : List FtsToken} (rest : Str)
    (h : readChar c mode = some (tokens, next)) :
    readAll mode (c :: rest) = (readAll next rest).map (tokens++·) := by
  rw [readAll, h]
  rfl

/-- A character that ends no token. -/
theorem readAll_silent {c : CodePoint} {mode next : Mode} (rest : Str)
    (h : readChar c mode = some ([], next)) : readAll mode (c :: rest) = readAll next rest := by
  rw [readAll_ending rest h]
  exact Option.map_id'

theorem readAll_plain (text rest read : Str) (hplain : IsPlainText text) :
    readAll (.quoted read) (text++rest) = readAll (.quoted (read++text)) rest := by
  induction text generalizing read with
  | nil => rw [List.append_nil, List.nil_append]
  | cons c text ih =>
    have hc := hplain c List.mem_cons_self
    have hread : readChar c (.quoted read) = some ([], .quoted (read++[c])) := by
      rw [readChar.eq_2, if_neg hc.1, if_neg hc.2]
    rw [List.cons_append, readAll_silent _ hread,
      ih _ (fun d hd => hplain d (List.mem_cons_of_mem _ hd)), List.append_assoc,
      List.singleton_append]

/-- Behind its last quote a string ends with the next character. -/
theorem readAll_quoteSeen (text rest : Str) (hrest : ∀ c ∈ rest.head?, c.val ≠ 0x22) :
    readAll (.quoteSeen text) rest = (readAll .outside rest).map (.string true text :: ·) := by
  cases rest with
  | nil => rfl
  | cons c rest =>
    have hc := hrest c rfl
    rw [readAll, readAll, readChar.eq_3, if_neg hc, readChar.eq_1]
    cases readOutside c with
    | none => rfl
    | some next =>
      dsimp only [Option.map_some, Option.bind_some]
      cases readAll next.2 rest with
      | none => rfl
      | some tokens => rfl

theorem readAll_inQuotes (text rest : Str) (hplain : IsPlainText text)
    (hrest : ∀ c ∈ rest.head?, c.val ≠ 0x22) :
    readAll .outside (inQuotes text++rest)
      = (readAll .outside rest).map (.string true text :: ·) := by
  have hopen : readChar 0x22 .outside = some ([], .quoted []) := by decide
  have hclose : readChar 0x22 (.quoted text) = some ([], .quoteSeen text) := by
    rw [readChar.eq_2, if_neg (by decide), if_pos (by decide)]
  calc readAll .outside (inQuotes text++rest)
      = readAll (.quoted []) (text++(0x22 :: rest)) := by
        rw [inQuotes, List.cons_append, readAll_silent _ hopen, List.append_assoc]
        rfl
    _ = readAll (.quoteSeen text) rest := by
        rw [readAll_plain text _ _ hplain, List.nil_append, readAll_silent _ hclose]
    _ = (readAll .outside rest).map (.string true text :: ·) :=
        readAll_quoteSeen text rest hrest

/-- A bare word between two blanks. -/
theorem readAll_word (c : CodePoint) (word rest : Str)
    (hc : readChar c .outside = some ([], .bareWord [c])) (hword : word.all isBareChar = true) :
    readAll .outside (0x20 :: c :: (word++(0x20 :: rest)))
      = (readAll .outside rest).map (ofBareWord (c :: word) :: ·) := by
  have hread : ∀ (word read : Str), (∀ d ∈ word, isBareChar d = true) →
      readAll (.bareWord read) (word++(0x20 :: rest))
        = (readAll .outside rest).map (ofBareWord (read++word) :: ·) := by
    intro word
    induction word with
    | nil =>
      intro read _
      have hend : readChar 0x20 (.bareWord read) = some ([ofBareWord read], .outside) := by
        rw [readChar.eq_4, if_neg (by decide)]
        rfl
      rw [List.nil_append, List.append_nil, readAll_ending _ hend]
      rfl
    | cons d word ih =>
      intro read hword
      have hd : readChar d (.bareWord read) = some ([], .bareWord (read++[d])) := by
        rw [readChar.eq_4, if_pos (hword d List.mem_cons_self)]
      rw [List.cons_append, readAll_silent _ hd,
        ih _ (fun e he => hword e (List.mem_cons_of_mem _ he)), List.append_assoc,
        List.singleton_append]
  rw [readAll_silent _ (show readChar 0x20 .outside = some ([], .outside) by decide),
    readAll_silent _ hc, hread word [c] (List.all_eq_true.mp hword)]
  rfl

theorem readAll_and (rest : Str) :
    readAll .outside (ofString " AND "++rest) = (readAll .outside rest).map (.and :: ·) :=
  readAll_word 0x41 [0x4E, 0x44] rest (by decide) (by decide)

theorem readAll_or (rest : Str) :
    readAll .outside (ofString " OR "++rest) = (readAll .outside rest).map (.or :: ·) :=
  readAll_word 0x4F [0x52] rest (by decide) (by decide)

theorem readAll_leftParen (rest : Str) :
    readAll .outside (ofString "("++rest) = (readAll .outside rest).map (.leftParen :: ·) :=
  readAll_ending rest (show readChar 0x28 .outside = some ([.leftParen], .outside) by decide)

theorem readAll_rightParen (rest : Str) :
    readAll .outside (ofString ")"++rest) = (readAll .outside rest).map (.rightParen :: ·) :=
  readAll_ending rest (show readChar 0x29 .outside = some ([.rightParen], .outside) by decide)

/-- The texts of some parts with a separator between them, each part and the separator read as
tokens of its own. `rest` does not begin with a quote. -/
theorem readAll_intercalate {α : Type} (text : α → Str) (tokens : α → List FtsToken)
    (separator : Str) (operator : FtsToken) (parts : List α) (rest : Str) (hne : parts ≠ [])
    (hoperator : ∀ rest, readAll .outside (separator++rest)
      = (readAll .outside rest).map (operator :: ·))
    (hseparator : separator.head? = some 0x20)
    (hrest : ∀ c ∈ rest.head?, c.val ≠ 0x22)
    (hparts : ∀ part ∈ parts, ∀ rest, (∀ c ∈ rest.head?, c.val ≠ 0x22) →
      readAll .outside (text part++rest) = (readAll .outside rest).map (tokens part++·)) :
    readAll .outside (separator.intercalate (parts.map text)++rest)
      = (readAll .outside rest).map ([operator].intercalate (parts.map tokens)++·) := by
  induction parts with
  | nil => exact absurd rfl hne
  | cons part parts ih =>
    cases parts with
    | nil =>
      rw [List.map_singleton, List.map_singleton, List.intercalate_singleton,
        List.intercalate_singleton]
      exact hparts part List.mem_cons_self rest hrest
    | cons next parts =>
      have hlater := ih (List.cons_ne_nil _ _)
        (fun other hother => hparts other (List.mem_cons_of_mem _ hother))
      have hblank : ∀ c ∈ (separator++(separator.intercalate (text next :: parts.map text)++rest)).head?,
          c.val ≠ 0x22 := by
        intro c hc
        rw [List.head?_append, hseparator] at hc
        cases hc
        decide
      rw [List.map_cons] at hlater
      rw [List.map_cons, List.map_cons, List.map_cons, List.map_cons, List.intercalate_cons_cons,
        List.append_assoc, List.append_assoc, hparts part List.mem_cons_self _ hblank,
        hoperator, hlater, List.intercalate_cons_cons, Option.map_map, Option.map_map]
      congr 1
      funext read
      simp only [Function.comp_apply, List.map_cons, List.append_assoc,
        List.cons_append, List.nil_append]

end FtsToken

/-- Conjunctions in parentheses have the tokens of their phrases, the operators and the
parentheses. -/
theorem readAll_conjunction (phrases : List Str) (rest : Str) (hne : phrases ≠ [])
    (hplain : ∀ phrase ∈ phrases, IsPlainText phrase) :
    FtsToken.readAll .outside (conjunctionText phrases++rest)
      = (FtsToken.readAll .outside rest).map (conjunctionTokens phrases++·) := by
  have hparen : ∀ c ∈ (ofString ")"++rest).head?, c.val ≠ 0x22 := by
    intro c hc
    cases hc
    decide
  rw [conjunctionText, List.append_assoc, List.append_assoc, FtsToken.readAll_leftParen,
    FtsToken.readAll_intercalate inQuotes (fun text => [.string true text]) _ .and phrases _ hne
      FtsToken.readAll_and (by decide) hparen
      (fun phrase hphrase rest hrest => FtsToken.readAll_inQuotes phrase rest
        (hplain phrase hphrase) hrest),
    FtsToken.readAll_rightParen, Option.map_map, Option.map_map]
  congr 1
  funext read
  simp only [Function.comp_apply, conjunctionTokens, List.append_assoc, List.cons_append,
    List.nil_append]

theorem ftsTokens_disjunction (alternatives : List (List Str)) (hne : alternatives ≠ [])
    (hall : ∀ phrases ∈ alternatives,
      phrases ≠ [] ∧ ∀ phrase ∈ phrases, IsPlainText phrase) :
    ftsTokens ((ofString " OR ").intercalate (alternatives.map conjunctionText))
      = some ([FtsToken.or].intercalate (alternatives.map conjunctionTokens)) := by
  have hread := FtsToken.readAll_intercalate conjunctionText conjunctionTokens _ .or alternatives []
    hne FtsToken.readAll_or (by decide) (fun c hc => nomatch hc)
    (fun phrases hphrases rest _ => readAll_conjunction phrases rest (hall phrases hphrases).1
      (hall phrases hphrases).2)
  rw [List.append_nil] at hread
  rw [ftsTokens, hread]
  exact congrArg some (List.append_nil _)

end ConferWorker
