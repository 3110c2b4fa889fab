import Mathlib.Tactic

/-! Taking items from the front of a list while their costs fit a budget. -/
namespace ConferWorker

variable {α : Type*}

def totalCost (cost : α → ℕ) (items : List α) : ℕ := (items.map cost).sum

/-- The items that fit, after some of the budget was spent. -/
def takeWithin (cost : α → ℕ) (budget : ℕ) : ℕ → List α → List α
  | _, [] => []
  | spent, item :: items =>
    if budget < spent+cost item then [] else item :: takeWithin cost budget (spent+cost item) items

variable {cost : α → ℕ} {budget : ℕ}

@[simp] theorem totalCost_cons (item : α) (items : List α) :
    totalCost cost (item :: items) = cost item+totalCost cost items := List.sum_cons

theorem totalCost_append (items more : List α) :
    totalCost cost (items++more) = totalCost cost items+totalCost cost more := by
  rw [totalCost, List.map_append, List.sum_append]
  rfl

theorem totalCost_initial {items more : List α} (h : items <+: more) :
    totalCost cost items ≤ totalCost cost more := by
  obtain ⟨rest, rfl⟩ := h
  rw [totalCost_append]
  exact Nat.le_add_right _ _

theorem takeWithin_initial (spent : ℕ) (items : List α) :
    takeWithin cost budget spent items <+: items := by
  induction items generalizing spent with
  | nil => exact List.prefix_rfl
  | cons item items ih =>
    rw [takeWithin]
    split_ifs with hexceeds
    · exact List.nil_prefix
    · exact (List.prefix_cons_inj item).mpr (ih _)

theorem takeWithin_fits {spent : ℕ} (hspent : spent ≤ budget) (items : List α) :
    spent+totalCost cost (takeWithin cost budget spent items) ≤ budget := by
  induction items generalizing spent with
  | nil => exact hspent
  | cons item items ih =>
    rw [takeWithin]
    split_ifs with hexceeds
    · exact hspent
    · have hrest := ih (not_lt.mp hexceeds)
      rw [totalCost_cons]
      omega

/-- No longer prefix fits. -/
theorem takeWithin_longest {spent : ℕ} {items front : List α} (hfront : front <+: items)
    (hfits : spent+totalCost cost front ≤ budget) :
    front.length ≤ (takeWithin cost budget spent items).length := by
  induction items generalizing spent front with
  | nil =>
    obtain rfl := List.prefix_nil.mp hfront
    exact le_rfl
  | cons item items ih =>
    cases front with
    | nil => exact Nat.zero_le _
    | cons other front =>
      obtain ⟨rfl, hrest⟩ := List.cons_prefix_cons.mp hfront
      rw [totalCost_cons] at hfits
      have hroom : ¬ budget < spent+cost other := by omega
      rw [takeWithin, if_neg hroom, List.length_cons, List.length_cons]
      exact Nat.succ_le_succ (ih hrest (by omega))

/-- The budget is spent to the end if and only if a prefix costs as much. -/
theorem takeWithin_exhausts (items : List α) :
    totalCost cost (takeWithin cost budget 0 items) = budget ↔
      ∃ front, front <+: items ∧ totalCost cost front = budget := by
  constructor
  · intro hspent
    exact ⟨_, takeWithin_initial 0 items, hspent⟩
  · intro hexact
    obtain ⟨front, hfront, htotal⟩ := hexact
    have hfits : 0+totalCost cost (takeWithin cost budget 0 items) ≤ budget :=
      takeWithin_fits (Nat.zero_le budget) items
    have hlength : front.length ≤ (takeWithin cost budget 0 items).length :=
      takeWithin_longest hfront (by omega)
    have hwithin : front <+: takeWithin cost budget 0 items :=
      List.prefix_of_prefix_length_le hfront (takeWithin_initial 0 items) hlength
    have hmore : totalCost cost front ≤ totalCost cost (takeWithin cost budget 0 items) :=
      totalCost_initial hwithin
    omega

/-- Items with names are taken as the items themselves. -/
theorem takeWithin_map {β : Type*} (f : β → α) (spent : ℕ) (items : List β) :
    takeWithin cost budget spent (items.map f)
      = (takeWithin (fun item => cost (f item)) budget spent items).map f := by
  induction items generalizing spent with
  | nil => rfl
  | cons item items ih =>
    rw [List.map_cons, takeWithin, takeWithin]
    by_cases hexceeds : budget < spent+cost (f item)
    · rw [if_pos hexceeds, if_pos hexceeds]
      rfl
    · rw [if_neg hexceeds, if_neg hexceeds, ih]
      rfl

end ConferWorker
