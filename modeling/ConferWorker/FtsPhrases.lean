import ConferWorker.FtsParsing

/-! The grammar on the tokens of phrases, `AND`, `OR` and parentheses, and what such an expression
matches. -/
namespace ConferWorker

/-- A quoted string alone. -/
def plainPhrase (text : Str) : FtsExpr := .phrase ⟨false, [(text, false)]⟩

namespace FtsExpr

/-- Operands joined from the left. -/
def joined (node : FtsExpr → FtsExpr → FtsExpr) : List FtsExpr → FtsExpr
  | [] => .phrase ⟨false, []⟩
  | e :: more => more.foldl node e

end FtsExpr

/-- The conjunction of plain phrases. -/
def conjunction (phrases : List Str) : FtsExpr := .joined .and (phrases.map plainPhrase)

/-- The disjunction of conjunctions of plain phrases. -/
def disjunction (alternatives : List (List Str)) : FtsExpr :=
  .joined .or (alternatives.map conjunction)

namespace FtsExpr

/-- The parser reads the tokens as the expression, and leaves what follows if a token of `stop`
is next. -/
def Reads (parser : Parser FtsExpr) (stop : List FtsToken) (tokens : List FtsToken)
    (e : FtsExpr) : Prop :=
  ∀ rest, (∀ token ∈ rest.head?, token ∈ stop) → parser (tokens++rest) = some (e, rest)

section Operands

variable {operator : FtsToken} {node : FtsExpr → FtsExpr → FtsExpr} {operand : Parser FtsExpr}
  {stop : List FtsToken}

/-- Behind the last operand another one begins only with the operator. -/
theorem moreOperands_stop (hstop : operator ∉ stop) (fuel : ℕ) (e : FtsExpr)
    (rest : List FtsToken) (hrest : ∀ token ∈ rest.head?, token ∈ stop) :
    moreOperands operator node operand fuel e rest = some (e, rest) := by
  cases fuel with
  | zero => rfl
  | succ fuel =>
    cases rest with
    | nil => rfl
    | cons token rest =>
      have htoken : token ≠ operator := fun heq => hstop (heq ▸ hrest token rfl)
      rw [moreOperands, if_neg htoken]

/-- The loop over the operands; every one of them needs one step. -/
theorem moreOperands_reads (hstop : operator ∉ stop) (more : List (List FtsToken × FtsExpr))
    (hmore : ∀ m ∈ more, Reads operand (operator :: stop) m.1 m.2) (fuel : ℕ)
    (hfuel : more.length ≤ fuel) (e : FtsExpr) (rest : List FtsToken)
    (hrest : ∀ token ∈ rest.head?, token ∈ stop) :
    moreOperands operator node operand fuel e (more.flatMap (fun m => operator :: m.1)++rest)
      = some ((more.map Prod.snd).foldl node e, rest) := by
  induction more generalizing fuel e with
  | nil => exact moreOperands_stop hstop fuel e rest hrest
  | cons m more ih =>
    cases fuel with
    | zero => exact absurd hfuel (Nat.not_succ_le_zero _)
    | succ fuel =>
      have hnext : ∀ token ∈ (more.flatMap (fun m => operator :: m.1)++rest).head?,
          token ∈ operator :: stop := by
        intro token htoken
        cases more with
        | nil => exact List.mem_cons_of_mem _ (hrest token htoken)
        | cons _ _ =>
          cases htoken
          exact List.mem_cons_self
      have hread := hmore m List.mem_cons_self _ hnext
      rw [List.flatMap_cons, List.cons_append, List.cons_append, List.append_assoc, moreOperands,
        if_pos rfl, hread]
      exact ih (fun other hother => hmore other (List.mem_cons_of_mem _ hother)) fuel
        (Nat.le_of_succ_le_succ hfuel) _

/-- Operands with the operator between them. -/
theorem operands_reads (hstop : operator ∉ stop) (parts : List (List FtsToken × FtsExpr))
    (hne : parts ≠ []) (hparts : ∀ part ∈ parts, Reads operand (operator :: stop) part.1 part.2) :
    Reads (operands operator node operand) stop ([operator].intercalate (parts.map Prod.fst))
      (joined node (parts.map Prod.snd)) := by
  intro rest hrest
  obtain ⟨first, more, rfl⟩ := List.exists_cons_of_ne_nil hne
  have htokens : [operator].intercalate ((first :: more).map Prod.fst)++rest
      = first.1++(more.flatMap (fun m => operator :: m.1)++rest) := by
    have hjoin := intercalate_append_right [operator] [first.1] (more.map Prod.fst)
      (List.cons_ne_nil _ _)
    rw [List.singleton_append, List.intercalate_singleton, List.flatMap_map] at hjoin
    rw [List.map_cons, hjoin, List.append_assoc]
    rfl
  have hnext : ∀ token ∈ (more.flatMap (fun m => operator :: m.1)++rest).head?,
      token ∈ operator :: stop := by
    intro token htoken
    cases more with
    | nil => exact List.mem_cons_of_mem _ (hrest token htoken)
    | cons _ _ =>
      cases htoken
      exact List.mem_cons_self
  have hfuel : more.length ≤ (more.flatMap (fun m => operator :: m.1)++rest).length := by
    calc more.length = (more.map (fun _ => 1)).sum := by
          rw [List.map_const', List.sum_replicate, smul_eq_mul, mul_one]
      _ ≤ (more.map (fun m => (operator :: m.1).length)).sum :=
          List.sum_le_sum (fun m _ => Nat.succ_le_succ (Nat.zero_le _))
      _ = (more.flatMap (fun m => operator :: m.1)).length := (List.length_flatMap).symm
      _ ≤ _ := by
          rw [List.length_append]
          exact Nat.le_add_right _ _
  rw [operands, htokens, hparts first List.mem_cons_self _ hnext]
  exact moreOperands_reads hstop more
    (fun other hother => hparts other (List.mem_cons_of_mem _ hother)) _ hfuel _ rest hrest

/-- One operand alone. -/
theorem operands_reads_single (hstop : operator ∉ stop) {tokens : List FtsToken} {e : FtsExpr}
    (h : Reads operand (operator :: stop) tokens e) :
    Reads (operands operator node operand) stop tokens e := by
  have hread : Reads (operands operator node operand) stop _ _ :=
    operands_reads hstop [(tokens, e)] (List.cons_ne_nil _ _) (fun part hpart => by
      rw [List.mem_singleton.mp hpart]
      exact h)
  rwa [List.map_singleton, List.map_singleton, List.intercalate_singleton] at hread

end Operands

/-- The tokens that stand behind a phrase here. -/
def behindPhrase : List FtsToken := [.not, .and, .or, .rightParen]

theorem primary_string (parser : Parser FtsExpr) (text : Str) :
    Reads (primary parser) behindPhrase [.string true text] (plainPhrase text) := by
  intro rest hrest
  cases rest with
  | nil => rfl
  | cons token rest =>
    have htoken := hrest token rfl
    simp only [behindPhrase, List.mem_cons, List.not_mem_nil, or_false] at htoken
    rcases htoken with rfl | rfl | rfl | rfl
    · rfl
    · rfl
    · rfl
    · rfl

/-- An expression in parentheses. -/
theorem primary_parenthesized (parser : Parser FtsExpr) {stop tokens : List FtsToken} {e : FtsExpr}
    (h : Reads parser [.rightParen] tokens e) :
    Reads (primary parser) stop (.leftParen :: (tokens++[.rightParen])) e := by
  intro rest _
  have hread := h (.rightParen :: rest) (fun token htoken => by
    cases htoken
    exact List.mem_cons_self)
  rw [List.cons_append, List.append_assoc, List.singleton_append, primary, parenthesized]
  rw [hread]

theorem conjunction_reads (parser : Parser FtsExpr) (phrases : List Str) (hne : phrases ≠ []) :
    Reads (operands .and .and (operands .not .not (primary parser))) [.or, .rightParen]
      ([FtsToken.and].intercalate (phrases.map (fun text => [FtsToken.string true text])))
      (conjunction phrases) := by
  have hread : Reads (operands .and .and (operands .not .not (primary parser)))
      [.or, .rightParen] _ _ := operands_reads (by decide)
    (phrases.map (fun text => ([FtsToken.string true text], plainPhrase text)))
    (fun h => hne (List.map_eq_nil_iff.mp h))
    (fun part hpart => by
      obtain ⟨text, -, rfl⟩ := List.mem_map.mp hpart
      exact operands_reads_single (by decide) (primary_string parser text))
  rw [List.map_map, List.map_map] at hread
  exact hread

/-- A conjunction in parentheses, or some with `OR` between them. -/
theorem disjunction_reads (depth : ℕ) (alternatives : List (List Str)) (hne : alternatives ≠ [])
    (hall : ∀ phrases ∈ alternatives, phrases ≠ []) :
    Reads (expr (depth+2)) []
      ([FtsToken.or].intercalate (alternatives.map conjunctionTokens))
      (disjunction alternatives) := by
  have hread : Reads (expr (depth+2)) [] _ _ := operands_reads List.not_mem_nil
    (alternatives.map (fun phrases => (conjunctionTokens phrases, conjunction phrases)))
    (fun h => hne (List.map_eq_nil_iff.mp h))
    (fun part hpart => by
      obtain ⟨phrases, hphrases, rfl⟩ := List.mem_map.mp hpart
      have hinner : Reads (expr (depth+1)) [.rightParen]
          ([FtsToken.and].intercalate (phrases.map (fun text => [FtsToken.string true text])))
          (conjunction phrases) :=
        operands_reads_single (by decide) (conjunction_reads _ phrases (hall phrases hphrases))
      exact operands_reads_single (by decide)
        (operands_reads_single (by decide) (primary_parenthesized _ hinner)))
  rw [List.map_map, List.map_map] at hread
  exact hread

/-- What the text of a disjunction is read as. -/
theorem read_disjunction (alternatives : List (List Str)) (hne : alternatives ≠ [])
    (hall : ∀ phrases ∈ alternatives,
      phrases ≠ [] ∧ ∀ phrase ∈ phrases, IsPlainText phrase) :
    read ((ofString " OR ").intercalate (alternatives.map conjunctionText))
      = some (disjunction alternatives) := by
  have htokens := ftsTokens_disjunction alternatives hne hall
  generalize htext : [FtsToken.or].intercalate (alternatives.map conjunctionTokens) = tokens
    at htokens
  have htoken : tokens ≠ [] := by
    obtain ⟨phrases, hphrases⟩ := List.exists_mem_of_ne_nil _ hne
    rw [← htext]
    exact List.ne_nil_of_mem (mem_intercalate_of_mem .leftParen _ _
      (List.mem_map_of_mem hphrases) List.mem_cons_self)
  obtain ⟨depth, hdepth⟩ := Nat.exists_eq_add_of_le' (List.length_pos_of_ne_nil htoken)
  have hread := disjunction_reads depth alternatives hne (fun phrases h => (hall phrases h).1) []
    (fun token htoken => nomatch htoken)
  rw [List.append_nil, htext] at hread
  rw [read, htokens, Option.bind_some, hdepth, hread]

section Matching

variable (tokenize : Str → List Str) (row : List (Str × List Str))

theorem matches_foldl_and (e : FtsExpr) (more : List FtsExpr) :
    (more.foldl .and e).Matches tokenize row
      ↔ e.Matches tokenize row ∧ ∀ f ∈ more, f.Matches tokenize row := by
  induction more generalizing e with
  | nil => simp only [List.foldl_nil, List.not_mem_nil, false_implies, implies_true, and_true]
  | cons f more ih =>
    rw [List.foldl_cons, ih, List.forall_mem_cons, ← and_assoc]
    exact Iff.rfl

theorem matches_foldl_or (e : FtsExpr) (more : List FtsExpr) :
    (more.foldl .or e).Matches tokenize row
      ↔ e.Matches tokenize row ∨ ∃ f ∈ more, f.Matches tokenize row := by
  induction more generalizing e with
  | nil => simp only [List.foldl_nil, List.not_mem_nil, false_and, exists_false, or_false]
  | cons f more ih =>
    rw [List.foldl_cons, ih]
    simp only [List.mem_cons, exists_eq_or_imp, ← or_assoc]
    exact Iff.rfl

theorem matches_conjunction (phrases : List Str) (hne : phrases ≠ []) :
    (conjunction phrases).Matches tokenize row
      ↔ ∀ phrase ∈ phrases, (plainPhrase phrase).Matches tokenize row := by
  obtain ⟨first, more, rfl⟩ := List.exists_cons_of_ne_nil hne
  rw [conjunction, List.map_cons, joined, matches_foldl_and, List.forall_mem_cons,
    List.forall_mem_map]

theorem matches_disjunction (alternatives : List (List Str)) (hne : alternatives ≠ []) :
    (disjunction alternatives).Matches tokenize row
      ↔ ∃ phrases ∈ alternatives, (conjunction phrases).Matches tokenize row := by
  obtain ⟨first, more, rfl⟩ := List.exists_cons_of_ne_nil hne
  rw [disjunction, List.map_cons, joined, matches_foldl_or]
  simp only [List.mem_cons, exists_eq_or_imp, List.mem_map, exists_exists_and_eq_and]

/-- A plain phrase matches a column in which its words stand one behind the other. -/
theorem matches_plainPhrase (text name : Str) (column : List Str) :
    (plainPhrase text).Matches tokenize [(name, column)]
      ↔ tokenize text ≠ [] ∧ tokenize text <:+: column := by
  have hwords : FtsPhrase.words tokenize ⟨false, [(text, false)]⟩
      = (tokenize text).map (fun word => (word, false)) := by
    simp only [FtsPhrase.words, List.flatMap_cons, List.flatMap_nil, List.append_nil,
      Bool.false_and]
    calc (tokenize text).zipIdx.map (fun word => (word.1, false))
        = ((tokenize text).zipIdx.map Prod.fst).map (fun word => (word, false)) := by
          rw [List.map_map]
          rfl
      _ = (tokenize text).map (fun word => (word, false)) := by
          rw [List.zipIdx_map_fst]
  have hsame : ∀ found, List.Forall₂ (fun (word : Str × Bool) found =>
      if word.2 then word.1 <+: found else word.1 = found)
      ((tokenize text).map (fun word => (word, false))) found ↔ tokenize text = found := by
    intro found
    rw [List.forall₂_map_left_iff]
    simp only [Bool.false_eq_true, if_false, List.forall₂_eq_eq_eq]
  calc (plainPhrase text).Matches tokenize [(name, column)]
      ↔ ∃ i, FtsPhrase.StandsAt tokenize ⟨false, [(text, false)]⟩ column i := by
        simp only [plainPhrase, Matches, List.mem_singleton, exists_eq_left]
    _ ↔ ∃ i, tokenize text ≠ [] ∧ tokenize text <+: column.drop i := by
        simp only [FtsPhrase.StandsAt, hwords, hsame, exists_eq_left', ne_eq, List.map_eq_nil_iff,
          Bool.false_eq_true, false_implies, true_and]
    _ ↔ tokenize text ≠ [] ∧ tokenize text <:+: column := by
        rw [exists_and_left, List.infix_iff_prefix_suffix]
        refine and_congr_right (fun _ => ⟨?_, ?_⟩)
        · rintro ⟨i, hprefix⟩
          exact ⟨column.drop i, hprefix, List.drop_suffix i column⟩
        · rintro ⟨found, hprefix, hsuffix⟩
          refine ⟨column.length-found.length, ?_⟩
          rwa [← List.suffix_iff_eq_drop.mp hsuffix]

end Matching

end FtsExpr

end ConferWorker
