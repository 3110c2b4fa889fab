import Mathlib.Tactic

/-! Machines whose events are not always enabled: what holds in every state they reach, and what
happens in every run in which some groups of events are scheduled fairly. -/
namespace ConferWorker

variable {σ ε ι : Type*}

/-- Which events can happen in a state, and the state after an event. -/
structure EventSystem (σ ε : Type*) where
  enabled : σ → ε → Prop
  next : σ → ε → σ

namespace EventSystem

variable (m : EventSystem σ ε)

/-- The events lead from the start to a state. -/
inductive Reaches (start : σ) : List ε → σ → Prop
  | refl : Reaches start [] start
  | step {events : List ε} {s : σ} (e : ε) (h : Reaches start events s) (henabled : m.enabled s e) :
    Reaches start (events++[e]) (m.next s e)

/-- At every time one event happens, or none. -/
structure Run (start : σ) where
  state : ℕ → σ
  event : ℕ → Option ε
  begins : state 0 = start
  idles : ∀ t, event t = none → state (t+1) = state t
  steps : ∀ t e, event t = some e → m.enabled (state t) e ∧ state (t+1) = m.next (state t) e

variable {m} {start : σ}

/-- What the events in use preserve holds wherever they lead. -/
theorem Reaches.invariant (allowed : ε → Prop) {I : σ → Prop} (hstart : I start)
    (hstep : ∀ s e, allowed e → m.enabled s e → I s → I (m.next s e)) {events : List ε} {s : σ}
    (h : m.Reaches start events s) (hevents : ∀ e ∈ events, allowed e) : I s := by
  induction h with
  | refl => exact hstart
  | step e h henabled ih =>
    rw [List.forall_mem_append, List.forall_mem_singleton] at hevents
    exact hstep _ e hevents.2 henabled (ih hevents.1)

/-- What every event preserves holds in every state. -/
theorem Reaches.always {I : σ → Prop} (hstart : I start)
    (hstep : ∀ s e, m.enabled s e → I s → I (m.next s e)) {events : List ε} {s : σ}
    (h : m.Reaches start events s) : I s :=
  h.invariant (fun _ => True) hstart (fun s e _ => hstep s e) (fun _ _ => trivial)

namespace Run

variable (run : m.Run start)

/-- The events before a time. -/
def before (t : ℕ) : List ε := (List.range t).filterMap run.event

theorem before_succ (t : ℕ) : run.before (t+1) = run.before t++(run.event t).toList := by
  rw [before, before, List.range_succ, List.filterMap_append]
  rfl

theorem reaches (t : ℕ) : m.Reaches start (run.before t) (run.state t) := by
  induction t with
  | zero =>
    rw [run.begins]
    exact .refl
  | succ t ih =>
    rw [before_succ]
    cases hevent : run.event t with
    | none =>
      rw [run.idles t hevent, Option.toList_none, List.append_nil]
      exact ih
    | some e =>
      obtain ⟨henabled, hnext⟩ := run.steps t e hevent
      rw [hnext]
      exact ih.step e henabled

theorem mem_before {t : ℕ} {e : ε} : e ∈ run.before t ↔ ∃ u < t, run.event u = some e := by
  simp only [before, List.mem_filterMap, List.mem_range]

/-- What every event preserves stays true. -/
theorem persists (P : σ → Prop) (hstep : ∀ s e, m.enabled s e → P s → P (m.next s e)) {t u : ℕ}
    (htu : t ≤ u) (h : P (run.state t)) : P (run.state u) := by
  induction u, htu using Nat.le_induction with
  | base => exact h
  | succ u _ ih =>
    rcases hevent : run.event u with _ | e
    · rw [run.idles u hevent]
      exact ih
    · obtain ⟨henabled, hnext⟩ := run.steps u e hevent
      rw [hnext]
      exact hstep _ e henabled ih

/-- A group that can go on from some time on goes on. -/
def Fair (group : ε → Prop) : Prop :=
  ∀ t, (∀ u ≥ t, ∃ e, group e ∧ m.enabled (run.state u) e) → ∃ u ≥ t, ∃ e, group e ∧
    run.event u = some e

/-- An event that does not reach the goal brings it nearer, or it leaves both the distance and the
helpful group as they are and is none of that group. -/
def Approaches (goal : σ → Prop) (rank : σ → ℕ) (group : ι → ε → Prop) (helpful : σ → ι) (s : σ)
    (e : ε) : Prop :=
  goal (m.next s e) ∨ rank (m.next s e) < rank s ∨
    (¬group (helpful s) e ∧ rank (m.next s e) = rank s ∧ helpful (m.next s e) = helpful s)

variable {run} {goal : σ → Prop} {rank : σ → ℕ} {group : ι → ε → Prop} {helpful : σ → ι}

/-- As long as neither the goal is reached nor the distance falls, the helpful group is the same. -/
theorem stays {t : ℕ} (happroaches : ∀ u ≥ t, ∀ e, run.event u = some e → ¬goal (run.state u) →
      Approaches (m := m) goal rank group helpful (run.state u) e)
    (hnever : ∀ u ≥ t, ¬goal (run.state u))
    (hfloor : ∀ u ≥ t, rank (run.state t) ≤ rank (run.state u)) {u : ℕ} (htu : t ≤ u) :
    rank (run.state u) = rank (run.state t) ∧ helpful (run.state u) = helpful (run.state t) := by
  induction u, htu using Nat.le_induction with
  | base => exact ⟨rfl, rfl⟩
  | succ u htu ih =>
    rcases hevent : run.event u with _ | e
    · rw [run.idles u hevent]
      exact ih
    · have hnext := (run.steps u e hevent).2
      have hgoal := hnever (u+1) (by omega)
      have hrank := hfloor (u+1) (by omega)
      rw [hnext] at hgoal hrank ⊢
      rcases happroaches u htu e hevent (hnever u htu) with hreached | hlt | ⟨-, heq, hhelpful⟩
      · exact absurd hreached hgoal
      · omega
      · exact ⟨heq.trans ih.1, hhelpful.trans ih.2⟩

/-- If some group can always go on and each of its events brings the goal nearer, then the goal is
reached. -/
theorem eventually (goal : σ → Prop) (rank : σ → ℕ) (group : ι → ε → Prop) (helpful : σ → ι)
    (first : ℕ) (fair : ∀ i, run.Fair (group i))
    (henabled : ∀ t ≥ first, ¬goal (run.state t) →
      ∃ e, group (helpful (run.state t)) e ∧ m.enabled (run.state t) e)
    (happroaches : ∀ t ≥ first, ∀ e, run.event t = some e → ¬goal (run.state t) →
      Approaches (m := m) goal rank group helpful (run.state t) e) :
    ∃ t ≥ first, goal (run.state t) := by
  suffices hfrom : ∀ r, ∀ t ≥ first, rank (run.state t) = r → ∃ u ≥ t, goal (run.state u) from
    hfrom _ first le_rfl rfl
  intro r
  -- the distance to the goal cannot fall for ever
  induction r using Nat.strong_induction_on with
  | _ r ih =>
    intro t ht hrank
    by_contra hnone
    push Not at hnone
    have hfloor : ∀ u ≥ t, rank (run.state t) ≤ rank (run.state u) := by
      intro u hu
      by_contra hlt
      obtain ⟨v, hv, hgoal⟩ := ih _ (by omega) u (by omega) rfl
      exact hnone v (by omega) hgoal
    have hlater : ∀ u ≥ t, ∀ e, run.event u = some e → ¬goal (run.state u) →
        Approaches (m := m) goal rank group helpful (run.state u) e :=
      fun u hu => happroaches u (by omega)
    have hstays {u : ℕ} (hu : t ≤ u) := stays hlater hnone hfloor hu
    obtain ⟨u, hu, e, hgroup, hevent⟩ := fair (helpful (run.state t)) t (by
      intro u hu
      rw [← (hstays hu).2]
      exact henabled u (by omega) (hnone u hu))
    have hnext := (run.steps u e hevent).2
    have hgoal := hnone (u+1) (by omega)
    have hrank' := (hstays (show t ≤ u+1 by omega)).1
    rw [hnext] at hgoal hrank'
    rcases hlater u hu e hevent (hnone u hu) with hreached | hlt | ⟨hother, -, -⟩
    · exact hgoal hreached
    · have hsame := (hstays hu).1
      omega
    · rw [(hstays hu).2] at hother
      exact hother hgroup

/-- The same with one group. -/
theorem eventually_of_fair (goal : σ → Prop) (rank : σ → ℕ) {group : ε → Prop} (first : ℕ)
    (fair : run.Fair group)
    (henabled : ∀ t ≥ first, ¬goal (run.state t) → ∃ e, group e ∧ m.enabled (run.state t) e)
    (hnearer : ∀ t ≥ first, ∀ e, run.event t = some e → ¬goal (run.state t) → group e →
      rank (m.next (run.state t) e) < rank (run.state t))
    (hsame : ∀ t ≥ first, ∀ e, run.event t = some e → ¬goal (run.state t) → ¬group e →
      rank (m.next (run.state t) e) = rank (run.state t)) :
    ∃ t ≥ first, goal (run.state t) := by
  refine eventually goal rank (fun (_ : Unit) => group) (fun _ => ()) first (fun _ => fair)
    henabled ?_
  intro t ht e hevent hgoal
  by_cases hgroup : group e
  · exact Or.inr (Or.inl (hnearer t ht e hevent hgoal hgroup))
  · exact Or.inr (Or.inr ⟨hgroup, hsame t ht e hevent hgoal hgroup, rfl⟩)

end Run

section Listed

variable (m)

/-- The events can happen one after another. -/
def Follows : σ → List ε → Prop
  | _, [] => True
  | s, e :: events => m.enabled s e ∧ Follows (m.next s e) events

instance Follows.decidable [∀ s, DecidablePred (m.enabled s)] :
    (s : σ) → (events : List ε) → Decidable (m.Follows s events)
  | _, [] => .isTrue trivial
  | s, e :: events =>
    have := Follows.decidable (m.next s e) events
    inferInstanceAs (Decidable (_ ∧ _))

variable {m}

theorem Follows.enabled {events : List ε} (h : m.Follows start events) {t : ℕ} {e : ε}
    (hevent : events[t]? = some e) : m.enabled ((events.take t).foldl m.next start) e := by
  induction events generalizing start t with
  | nil => cases hevent
  | cons event events ih =>
    cases t with
    | zero =>
      obtain rfl := Option.some.inj hevent
      exact h.1
    | succ t => exact ih h.2 hevent

/-- The events of a list, and then nothing more. -/
def Run.ofEvents {events : List ε} (h : m.Follows start events) : m.Run start where
  state t := (events.take t).foldl m.next start
  event t := events[t]?
  begins := rfl
  idles t hnone := by
    have hlength := List.getElem?_eq_none_iff.mp hnone
    rw [List.take_of_length_le hlength, List.take_of_length_le (by omega)]
  steps t e hevent := by
    refine ⟨h.enabled hevent, ?_⟩
    rw [List.take_add_one, hevent, List.foldl_append]
    rfl

/-- It is fair to a group that cannot go on at its end. -/
theorem Run.ofEvents_fair {events : List ε} (h : m.Follows start events) {group : ε → Prop}
    (hquiet : ∀ e, group e → ¬m.enabled (events.foldl m.next start) e) :
    (Run.ofEvents h).Fair group := by
  intro t hready
  obtain ⟨e, hgroup, henabled⟩ := hready (max t events.length) (le_max_left _ _)
  refine absurd ?_ (hquiet e hgroup)
  have hend : events.take (max t events.length) = events :=
    List.take_of_length_le (le_max_right _ _)
  show m.enabled (events.foldl m.next start) e
  rw [← hend]
  exact henabled

end Listed

end EventSystem

end ConferWorker
