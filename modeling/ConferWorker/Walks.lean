import Mathlib.Tactic
import Mathlib.Data.Set.Card

/-! Walks along links of which each leads on or ends: what a walk visits, and a loop that stops
where a walk ends, comes back to what it visited or has visited enough. -/
namespace ConferWorker

variable {α : Type*}

/-- Where a walk is after some links, if it has not ended. -/
def walk (next : α → Option α) (a : α) : ℕ → Option α
  | 0 => some a
  | k+1 => walk next a k >>= next

variable {next : α → Option α} {a : α}

/-- From the same place two walks go on in the same way. -/
theorem walk_add {i j : ℕ} (h : walk next a i = walk next a j) (m : ℕ) :
    walk next a (i+m) = walk next a (j+m) := by
  induction m with
  | zero => exact h
  | succ m ih =>
    show walk next a (i+m) >>= next = walk next a (j+m) >>= next
    rw [ih]

/-- A walk that has ended does not go on. -/
theorem walk_ended {i k : ℕ} (h : walk next a i = none) (hk : i ≤ k) : walk next a k = none := by
  obtain ⟨m, rfl⟩ := Nat.exists_eq_add_of_le hk
  induction m with
  | zero => exact h
  | succ m ih =>
    show walk next a (i+m) >>= next = none
    rw [ih (Nat.le_add_right i m)]
    rfl

/-- Everything that a walk visits. -/
def walkSet (next : α → Option α) (a : α) : Set α := {b | ∃ k, walk next a k = some b}

/-- The walk comes back to something. -/
def WalkCyclic (next : α → Option α) (a : α) : Prop :=
  ∃ i j b, i < j ∧ walk next a i = some b ∧ walk next a j = some b

/-- A list of the first visits, which are to different places. -/
structure FirstVisits (next : α → Option α) (a : α) (visited : List α) : Prop where
  visit : ∀ k (hk : k < visited.length), walk next a k = some (visited.get ⟨k, hk⟩)
  distinct : visited.Nodup

theorem firstVisits_nil : FirstVisits next a [] :=
  ⟨fun _ hk => absurd hk (Nat.not_lt_zero _), List.nodup_nil⟩

namespace FirstVisits

variable {visited : List α} {b : α}

theorem mem_iff (h : FirstVisits next a visited) :
    b ∈ visited ↔ ∃ k < visited.length, walk next a k = some b := by
  rw [List.mem_iff_get]
  constructor
  · intro hmem
    obtain ⟨k, rfl⟩ := hmem
    exact ⟨k, k.isLt, h.visit k k.isLt⟩
  · intro hvisit
    obtain ⟨k, hk, hwalk⟩ := hvisit
    exact ⟨⟨k, hk⟩, Option.some.inj ((h.visit k hk).symm.trans hwalk)⟩

/-- The next visit, to a new place. -/
theorem append (h : FirstVisits next a visited) (hvisit : walk next a visited.length = some b)
    (hnew : b ∉ visited) : FirstVisits next a (visited++[b]) := by
  constructor
  · intro k hk
    rw [List.get_eq_getElem]
    rcases Nat.lt_or_ge k visited.length with hold | hlast
    · rw [List.getElem_append_left hold]
      exact h.visit k hold
    · have hlength : (visited++[b]).length = visited.length+1 := List.length_append
      obtain rfl : k = visited.length := by omega
      rw [List.getElem_concat_length rfl]
      exact hvisit
  · rw [List.nodup_append]
    refine ⟨h.distinct, List.nodup_singleton b, ?_⟩
    intro x hx y hy heq
    rw [heq, List.mem_singleton.mp hy] at hx
    exact hnew hx

theorem encard_visited (h : FirstVisits next a visited) :
    Set.encard {b | b ∈ visited} = visited.length := by
  classical
  rw [← List.coe_toFinset, Set.encard_coe_eq_coe_finsetCard, List.toFinset_card_of_nodup h.distinct]

theorem visited_subset (h : FirstVisits next a visited) : {b | b ∈ visited} ⊆ walkSet next a := by
  intro b hmem
  obtain ⟨k, -, hwalk⟩ := h.mem_iff.mp hmem
  exact ⟨k, hwalk⟩

/-- The walk that ends after these visits makes no others. -/
theorem ended (h : FirstVisits next a visited) (hend : walk next a visited.length = none) :
    Set.encard (walkSet next a) = visited.length ∧ ¬ WalkCyclic next a := by
  have hbefore {k : ℕ} {b : α} (hwalk : walk next a k = some b) : k < visited.length := by
    by_contra hge
    rw [walk_ended hend (not_lt.mp hge)] at hwalk
    cases hwalk
  constructor
  · rw [← h.encard_visited]
    congr 1
    apply Set.Subset.antisymm _ h.visited_subset
    intro b hvisit
    obtain ⟨k, hwalk⟩ := hvisit
    exact h.mem_iff.mpr ⟨k, hbefore hwalk, hwalk⟩
  · rintro ⟨i, j, b, hij, hi, hj⟩
    have heq : visited.get ⟨i, hbefore hi⟩ = visited.get ⟨j, hbefore hj⟩ :=
      Option.some.inj ((h.visit i _).symm.trans (hi.trans (hj.symm.trans (h.visit j _))))
    have hindex := Fin.mk.inj_iff.mp (h.distinct.injective_get heq)
    omega

/-- Nor does the walk that comes back to one of them. -/
theorem returned (h : FirstVisits next a visited) (hvisit : walk next a visited.length = some b)
    (hold : b ∈ visited) :
    Set.encard (walkSet next a) = visited.length ∧ WalkCyclic next a := by
  obtain ⟨i, hi, hwalk⟩ := h.mem_iff.mp hold
  constructor
  · rw [← h.encard_visited]
    congr 1
    apply Set.Subset.antisymm _ h.visited_subset
    intro c hc
    obtain ⟨k, hk⟩ := hc
    -- a later visit repeats one that is as much earlier as the cycle is long
    induction k using Nat.strong_induction_on with
    | _ k ih =>
      rcases Nat.lt_or_ge k visited.length with hlt | hge
      · exact h.mem_iff.mpr ⟨k, hlt, hk⟩
      · obtain ⟨m, rfl⟩ := Nat.exists_eq_add_of_le hge
        have hsame := walk_add (hvisit.trans hwalk.symm) m
        exact ih (i+m) (by omega) (hsame.symm.trans hk)
  · exact ⟨i, visited.length, b, hi, hwalk, hvisit⟩

/-- One that goes on to a new place visits more. -/
theorem continued (h : FirstVisits next a visited)
    (hvisit : walk next a visited.length = some b) (hnew : b ∉ visited) :
    ((visited.length+1 : ℕ) : ℕ∞) ≤ Set.encard (walkSet next a) := by
  have hmore := h.append hvisit hnew
  calc
    ((visited.length+1 : ℕ) : ℕ∞) = ((visited++[b]).length : ℕ∞) := by
      rw [List.length_append, List.length_singleton]
    _ = Set.encard {c | c ∈ visited++[b]} := hmore.encard_visited.symm
    _ ≤ Set.encard (walkSet next a) := Set.encard_le_encard hmore.visited_subset

end FirstVisits

/-- The first different places of a walk, at most `bound` of them, and whether it has more or comes
back. -/
structure WalkListed (next : α → Option α) (a : α) (bound : ℕ) (result : List α × Bool) : Prop where
  visits : FirstVisits next a result.1
  length : (result.1.length : ℕ∞) = min (bound : ℕ∞) (Set.encard (walkSet next a))
  more : result.2 = true ↔ (bound : ℕ∞) < Set.encard (walkSet next a) ∨ WalkCyclic next a

namespace FirstVisits

variable {visited : List α} {b : α} {bound : ℕ}

theorem listed_ended (h : FirstVisits next a visited) (hend : walk next a visited.length = none)
    (hbound : visited.length ≤ bound) : WalkListed next a bound (visited, false) := by
  obtain ⟨hcard, hacyclic⟩ := h.ended hend
  have hle : Set.encard (walkSet next a) ≤ bound := hcard.trans_le (Nat.cast_le.mpr hbound)
  refine ⟨h, ?_, ?_⟩
  · rw [min_eq_right hle, hcard]
  · exact iff_of_false Bool.false_ne_true (not_or.mpr ⟨not_lt.mpr hle, hacyclic⟩)

theorem listed_returned (h : FirstVisits next a visited)
    (hvisit : walk next a visited.length = some b) (hold : b ∈ visited)
    (hbound : visited.length ≤ bound) : WalkListed next a bound (visited, true) := by
  obtain ⟨hcard, hcyclic⟩ := h.returned hvisit hold
  refine ⟨h, ?_, iff_of_true rfl (Or.inr hcyclic)⟩
  rw [hcard]
  exact (min_eq_right (Nat.cast_le.mpr hbound)).symm

theorem listed_full (h : FirstVisits next a visited)
    (hvisit : walk next a visited.length = some b) (hnew : b ∉ visited) :
    WalkListed next a visited.length (visited, true) := by
  have hlt : (visited.length : ℕ∞) < Set.encard (walkSet next a) :=
    (Nat.cast_lt.mpr (Nat.lt_succ_self visited.length)).trans_le (h.continued hvisit hnew)
  exact ⟨h, (min_eq_left hlt.le).symm, iff_of_true rfl (Or.inl hlt)⟩

end FirstVisits

section BoundedWalk

variable [DecidableEq α]

/-- The visits of a walk until it ends, comes back or has made `room` more, and whether there were
more to make. -/
def boundedWalk (next : α → Option α) : (room : ℕ) → List α → Option α → List α × Bool
  | _, visited, none => (visited, false)
  | 0, visited, some _ => (visited, true)
  | room+1, visited, some b =>
    if b ∈ visited then (visited, true) else boundedWalk next room (visited++[b]) (next b)

/-- Wherever a bounded walk stops, it has listed what there is and room is for. -/
theorem boundedWalk_listed (room : ℕ) {visited : List α} (h : FirstVisits next a visited) :
    WalkListed next a (visited.length+room)
      (boundedWalk next room visited (walk next a visited.length)) := by
  induction room generalizing visited with
  | zero =>
    cases hvisit : walk next a visited.length with
    | none => exact h.listed_ended hvisit (Nat.le_add_right _ _)
    | some b =>
      by_cases hold : b ∈ visited
      · exact h.listed_returned hvisit hold (Nat.le_add_right _ _)
      · exact h.listed_full hvisit hold
  | succ room ih =>
    cases hvisit : walk next a visited.length with
    | none => exact h.listed_ended hvisit (Nat.le_add_right _ _)
    | some b =>
      rw [boundedWalk]
      by_cases hold : b ∈ visited
      · rw [if_pos hold]
        exact h.listed_returned hvisit hold (Nat.le_add_right _ _)
      · have hlength : (visited++[b]).length = visited.length+1 := List.length_append
        have hnext : walk next a (visited.length+1) = next b := by
          show walk next a visited.length >>= next = next b
          rw [hvisit]
          rfl
        have hbound : visited.length+1+room = visited.length+(room+1) := by omega
        have hrest := ih (h.append hvisit hold)
        rw [hlength, hnext, hbound] at hrest
        rwa [if_neg hold]

/-- A walk in a copy of the places visits the copies. -/
theorem boundedWalk_map {β : Type*} [DecidableEq β] {next' : β → Option β} {f : α → β}
    (hf : Function.Injective f) (hnext : ∀ a, next' (f a) = (next a).map f) (room : ℕ)
    (visited : List α) (current : Option α) :
    boundedWalk next' room (visited.map f) (current.map f)
      = ((boundedWalk next room visited current).1.map f,
          (boundedWalk next room visited current).2) := by
  induction room generalizing visited current with
  | zero =>
    cases current with
    | none => rfl
    | some b => rfl
  | succ room ih =>
    cases current with
    | none => rfl
    | some b =>
      have hmem : f b ∈ visited.map f ↔ b ∈ visited := List.mem_map_of_injective hf
      rw [Option.map_some, boundedWalk, boundedWalk]
      by_cases hold : b ∈ visited
      · rw [if_pos (hmem.mpr hold), if_pos hold]
      · have happend : visited.map f++[f b] = (visited++[b]).map f := by
          rw [List.map_append, List.map_singleton]
        rw [if_neg (mt hmem.mp hold), if_neg hold, hnext, happend, ih]

end BoundedWalk

end ConferWorker
