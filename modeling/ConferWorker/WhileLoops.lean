import Mathlib.Tactic

/-! Loops without a condition of their own: every round returns a result or goes on. Their
invariants, and when they return. -/
namespace ConferWorker

variable {σ α : Type*}

/-- `while True:` for some rounds; `none` if it has not returned in them. -/
def whileTrue (round : σ → α ⊕ σ) : ℕ → σ → Option α
  | 0, _ => none
  | fuel+1, s =>
    match round s with
    | .inl a => some a
    | .inr next => whileTrue round fuel next

variable {round : σ → α ⊕ σ}

theorem whileTrue_return {s : σ} {a : α} (h : round s = .inl a) (fuel : ℕ) :
    whileTrue round (fuel+1) s = some a := by
  rw [whileTrue, h]

theorem whileTrue_continue {s next : σ} (h : round s = .inr next) (fuel : ℕ) :
    whileTrue round (fuel+1) s = whileTrue round fuel next := by
  rw [whileTrue, h]

/-- A loop that has returned returns the same in any more rounds. -/
theorem whileTrue_mono {s : σ} {a : α} {fuel more : ℕ} (h : whileTrue round fuel s = some a)
    (hmore : fuel ≤ more) : whileTrue round more s = some a := by
  induction fuel generalizing s more with
  | zero => cases h
  | succ fuel ih =>
    obtain ⟨rest, rfl⟩ : ∃ rest, more = rest+1 := ⟨more-1, by omega⟩
    cases hround : round s with
    | inl result =>
      rw [whileTrue_return hround] at h ⊢
      exact h
    | inr next =>
      rw [whileTrue_continue hround] at h ⊢
      exact ih h (by omega)

/-- What every round keeps, the round that returns may use. -/
theorem whileTrue_invariant {I : σ → Prop} {Q : α → Prop}
    (hkeep : ∀ s next, I s → round s = .inr next → I next)
    (hreturn : ∀ s a, I s → round s = .inl a → Q a) {s : σ} (hs : I s) {fuel : ℕ} {a : α}
    (h : whileTrue round fuel s = some a) : Q a := by
  induction fuel generalizing s with
  | zero => cases h
  | succ fuel ih =>
    cases hround : round s with
    | inl result =>
      rw [whileTrue_return hround] at h
      obtain rfl := Option.some.inj h
      exact hreturn s result hs hround
    | inr next =>
      rw [whileTrue_continue hround] at h
      exact ih (hkeep s next hs hround) h

section Shrinking

variable {K : Type*} [Field K] [LinearOrder K] [IsStrictOrderedRing K]

/-- After some rounds that shrink a measure by a factor, it is small. -/
theorem whileTrue_returns_after {I : σ → Prop} {measure : σ → K} {factor bound : K}
    (hfactor : 0 ≤ factor) (hkeep : ∀ s next, I s → round s = .inr next → I next)
    (hshrink : ∀ s next, I s → round s = .inr next → measure next ≤ factor*measure s)
    (hsmall : ∀ s, I s → measure s ≤ bound → ∃ a, round s = .inl a) (n : ℕ) {s : σ} (hs : I s)
    (hn : factor^n*measure s ≤ bound) : ∃ fuel a, whileTrue round fuel s = some a := by
  induction n generalizing s with
  | zero =>
    rw [pow_zero, one_mul] at hn
    obtain ⟨a, ha⟩ := hsmall s hs hn
    exact ⟨1, a, whileTrue_return ha 0⟩
  | succ n ih =>
    cases hround : round s with
    | inl a => exact ⟨1, a, whileTrue_return hround 0⟩
    | inr next =>
      have hnext : factor^n*measure next ≤ bound :=
        calc
          factor^n*measure next ≤ factor^n*(factor*measure s) :=
            mul_le_mul_of_nonneg_left (hshrink s next hs hround) (pow_nonneg hfactor n)
          _ = factor^(n+1)*measure s := by ring
          _ ≤ bound := hn
      obtain ⟨fuel, a, ha⟩ := ih (hkeep s next hs hround) hnext
      exact ⟨fuel+1, a, (whileTrue_continue hround fuel).trans ha⟩

/-- A loop returns if every other round shrinks a measure by a factor below one, and no round goes
on where the measure is small. -/
theorem whileTrue_returns [Archimedean K] {I : σ → Prop} {measure : σ → K} {factor bound : K}
    (hfactor : 0 ≤ factor) (hone : factor < 1) (hbound : 0 < bound)
    (hkeep : ∀ s next, I s → round s = .inr next → I next)
    (hshrink : ∀ s next, I s → round s = .inr next → measure next ≤ factor*measure s)
    (hsmall : ∀ s, I s → measure s ≤ bound → ∃ a, round s = .inl a) {s : σ} (hs : I s) :
    ∃ fuel a, whileTrue round fuel s = some a := by
  rcases le_or_gt (measure s) bound with hle | hgt
  · obtain ⟨a, ha⟩ := hsmall s hs hle
    exact ⟨1, a, whileTrue_return ha 0⟩
  · have hpositive : 0 < measure s := hbound.trans hgt
    obtain ⟨n, hn⟩ := exists_pow_lt_of_lt_one (div_pos hbound hpositive) hone
    exact whileTrue_returns_after hfactor hkeep hshrink hsmall n hs
      ((lt_div_iff₀ hpositive).mp hn).le

end Shrinking

end ConferWorker
