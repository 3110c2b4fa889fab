import ConferWorker.Scripts

/-! Scripts that others watch while they run. Every version of the state is kept, so that an
invariant is about what anyone can have seen at any moment, also of a run that was cut short. -/
namespace ConferWorker

/-- A state with its earlier versions, from the oldest on. -/
structure Watched (σ : Type) where
  current : σ
  past : List σ

abbrev WatchedScript (ε σ α : Type) := Script ε (Watched σ) α

namespace Watched

variable {ε σ α β : Type} {I P : σ → Prop}

/-- A change that others see at once. -/
def change (f : σ → σ) : WatchedScript ε σ Unit :=
  Script.modify (fun watched =>
    { current := f watched.current, past := watched.past++[watched.current] })

/-- What a look at the state says. -/
def look (answer : σ → Except ε α) : WatchedScript ε σ α :=
  Script.ask (fun watched => answer watched.current)

/-- `if ! x; then handler; fi`, with a handler that does not return. -/
def orElse (x : WatchedScript ε σ α) (handler : WatchedScript ε σ α) : WatchedScript ε σ α :=
  fun watched =>
    match x watched with
    | (.ok a, watched) => (.ok a, watched)
    | (.error _, watched) => handler watched

/-- Every version satisfies the invariant. -/
def Always (I : σ → Prop) (watched : Watched σ) : Prop :=
  I watched.current ∧ ∀ version ∈ watched.past, I version

/-- From a state with `P`, the script keeps the invariant in every version, and where it returns
it returns with `Q`. -/
def Triple (I P : σ → Prop) (x : WatchedScript ε σ α) (Q : α → σ → Prop) : Prop :=
  ∀ watched, Always I watched → P watched.current →
    Always I (x watched).2 ∧ ∀ a, (x watched).1 = .ok a → Q a (x watched).2.current

section Rules

variable {x : WatchedScript ε σ α} {Q R : α → σ → Prop}

theorem Triple.mono {S : σ → Prop} (h : Triple I P x Q) (hP : ∀ s, I s → S s → P s)
    (hQ : ∀ a s, I s → Q a s → R a s) : Triple I S x R := by
  intro watched halways hbefore
  obtain ⟨hafter, hreturns⟩ := h watched halways (hP _ halways.1 hbefore)
  exact ⟨hafter, fun a ha => hQ a _ hafter.1 (hreturns a ha)⟩

/-- It is enough to start from each state on its own. -/
theorem triple_exact (h : ∀ s, I s → P s → Triple I (fun t => t = s) x Q) : Triple I P x Q :=
  fun watched halways hbefore => h _ halways.1 hbefore watched halways rfl

theorem triple_pure {a : α} (h : ∀ s, I s → P s → Q a s) :
    Triple I P (pure a : WatchedScript ε σ α) Q := by
  intro watched halways hbefore
  refine ⟨halways, fun b hb => ?_⟩
  cases hb
  exact h _ halways.1 hbefore

theorem triple_raise {e : ε} : Triple I P (Script.raise e : WatchedScript ε σ α) Q := by
  intro watched halways _
  exact ⟨halways, fun a ha => by cases ha⟩

theorem triple_look {answer : σ → Except ε α} (h : ∀ a s, I s → P s → answer s = .ok a → Q a s) :
    Triple I P (look answer) Q :=
  fun _ halways hbefore => ⟨halways, fun a ha => h a _ halways.1 hbefore ha⟩

theorem triple_lift {result : Except ε α} (h : ∀ a s, I s → P s → result = .ok a → Q a s) :
    Triple I P (Script.lift result : WatchedScript ε σ α) Q :=
  fun _ halways hbefore => ⟨halways, fun a ha => h a _ halways.1 hbefore ha⟩

/-- The version before a change was watched already, and the one after it is watched too. -/
theorem triple_change {f : σ → σ} {Q : Unit → σ → Prop}
    (h : ∀ s, I s → P s → I (f s) ∧ Q () (f s)) :
    Triple I P (change f : WatchedScript ε σ Unit) Q := by
  intro watched halways hbefore
  obtain ⟨hkept, hafter⟩ := h _ halways.1 hbefore
  refine ⟨⟨hkept, ?_⟩, fun _ _ => hafter⟩
  intro version hversion
  rcases List.mem_append.mp hversion with hversion | hversion
  · exact halways.2 version hversion
  · rw [List.mem_singleton.mp hversion]
    exact halways.1

theorem triple_bind {f : α → WatchedScript ε σ β} {S : β → σ → Prop} (hx : Triple I P x Q)
    (hf : ∀ a, Triple I (Q a) (f a) S) : Triple I P (x >>= f) S := by
  intro watched halways hbefore
  obtain ⟨hbetween, hreturns⟩ := hx watched halways hbefore
  rcases hrun : x watched with ⟨e | a, between⟩
  · rw [hrun] at hbetween
    rw [Script.bind_error f hrun]
    exact ⟨hbetween, fun a ha => by cases ha⟩
  · rw [hrun] at hbetween hreturns
    rw [Script.bind_ok f hrun]
    exact hf a between hbetween (hreturns a rfl)

theorem triple_orElse {handler : WatchedScript ε σ α} (hx : Triple I P x Q)
    (hhandler : Triple I (fun _ => True) handler Q) : Triple I P (orElse x handler) Q := by
  intro watched halways hbefore
  obtain ⟨hbetween, hreturns⟩ := hx watched halways hbefore
  rw [orElse]
  rcases hrun : x watched with ⟨e | a, between⟩
  · rw [hrun] at hbetween
    exact hhandler between hbetween trivial
  · rw [hrun] at hbetween hreturns
    refine ⟨hbetween, fun b hb => ?_⟩
    cases hb
    exact hreturns a rfl

/-- The last block runs in the state with `Q` where the body returned, and wherever the body was
cut short. -/
theorem triple_finally {last : WatchedScript ε σ Unit} (hx : Triple I P x Q)
    (hlast : ∀ a, Triple I (Q a) last (fun _ => R a))
    (hraised : Triple I (fun _ => True) last (fun _ _ => True)) :
    Triple I P (x.andFinally last) R := by
  intro watched halways hbefore
  obtain ⟨hbetween, hreturns⟩ := hx watched halways hbefore
  rcases hrun : x watched with ⟨e | a, between⟩
  · rw [hrun] at hbetween
    rw [Script.andFinally, hrun]
    refine ⟨(hraised between hbetween trivial).1, fun b hb => ?_⟩
    change Script.finallyResult (.error e) (last between).1 = .ok b at hb
    cases hcleanup : (last between).1 <;> rw [hcleanup] at hb <;> cases hb
  · rw [hrun] at hbetween hreturns
    obtain ⟨hafter, hdone⟩ := hlast a between hbetween (hreturns a rfl)
    rw [Script.andFinally, hrun]
    refine ⟨hafter, fun b hb => ?_⟩
    change Script.finallyResult (.ok a) (last between).1 = .ok b at hb
    cases hcleanup : (last between).1 <;> rw [hcleanup] at hb <;> cases hb
    exact hdone () hcleanup

end Rules

end Watched

end ConferWorker
