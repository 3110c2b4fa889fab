import Mathlib.Tactic

/-! Runs of a machine that takes one event after another, and the rule that
carries an invariant from one step to a whole run. -/
namespace ConferWorker

variable {σ ε : Type*}

/-- The state after a list of events. -/
def runEvents (step : σ → ε → σ) (s : σ) (events : List ε) : σ := events.foldl step s

@[simp] theorem runEvents_nil (step : σ → ε → σ) (s : σ) : runEvents step s [] = s := rfl

@[simp] theorem runEvents_cons (step : σ → ε → σ) (s : σ) (e : ε) (events : List ε) :
    runEvents step s (e :: events) = runEvents step (step s e) events := rfl

theorem runEvents_append (step : σ → ε → σ) (s : σ) (before after : List ε) :
    runEvents step s (before ++ after) = runEvents step (runEvents step s before) after :=
  List.foldl_append

/-- What every step preserves holds in every state a run reaches. -/
theorem runEvents_invariant {step : σ → ε → σ} (I : σ → Prop)
    (hstep : ∀ s e, I s → I (step s e)) {s : σ} (hs : I s) (events : List ε) :
    I (runEvents step s events) := by
  induction events generalizing s with
  | nil => exact hs
  | cons e events ih => exact ih (hstep s e hs)

end ConferWorker
