import ConferWorker.Raising

/-! A row of slots that are filled out of order: each number has a job, and the job's value
goes into the slot of its number. -/
namespace ConferWorker

variable {ε α : Type}

/-- `slots[i] = value`. -/
def setSlot (outOfRange : ε) (slots : List (Option α)) (i : ℕ) (value : α) :
    Except ε (List (Option α)) :=
  if i < slots.length then .ok (slots.set i (some value)) else .error outOfRange

/-- Does the jobs of some numbers, one after the other. -/
def fillSlots (outOfRange : ε) (job : ℕ → Except ε α) :
    List (Option α) → List ℕ → Except ε (List (Option α))
  | slots, [] => .ok slots
  | slots, i :: numbers => do
    let value ← job i
    let slots ← setSlot outOfRange slots i value
    fillSlots outOfRange job slots numbers

/-- The values of the slots, an error where one of them is empty. -/
def filledSlots (incomplete : ε) (slots : List (Option α)) : Except ε (List α) :=
  if slots.any Option.isNone then .error incomplete else .ok (slots.filterMap id)

/-- The slots after the jobs of `numbers`. -/
def slotsAfter (job : ℕ → Except ε α) (slots : List (Option α)) (numbers : List ℕ) :
    List (Option α) :=
  slots.mapIdx (fun i slot => if i ∈ numbers then (job i).toOption else slot)

variable {outOfRange incomplete : ε} {job : ℕ → Except ε α}

theorem fillSlots_append (slots : List (Option α)) (before after : List ℕ) :
    fillSlots outOfRange job slots (before++after)
      = fillSlots outOfRange job slots before
        >>= fun slots => fillSlots outOfRange job slots after := by
  induction before generalizing slots with
  | nil => rfl
  | cons i before ih =>
    rw [List.cons_append, fillSlots, fillSlots, bind_assoc]
    congr 1
    funext value
    rw [bind_assoc]
    congr 1
    funext slots
    exact ih slots

theorem slotsAfter_length (slots : List (Option α)) (numbers : List ℕ) :
    (slotsAfter job slots numbers).length = slots.length :=
  List.length_mapIdx

/-- One more job. -/
theorem slotsAfter_cons {slots : List (Option α)} {i : ℕ} {value : α} (numbers : List ℕ)
    (hvalue : job i = .ok value) :
    slotsAfter job (slots.set i (some value)) numbers = slotsAfter job slots (i :: numbers) := by
  apply List.ext_getElem?
  intro j
  unfold slotsAfter
  rw [List.getElem?_mapIdx, List.getElem?_mapIdx, List.getElem?_set]
  rcases eq_or_ne i j with rfl | hne
  · by_cases hin : i < slots.length
    · rw [if_pos rfl, if_pos hin, List.getElem?_eq_getElem hin]
      simp only [Option.map_some, List.mem_cons, true_or, if_true, hvalue, Except.toOption,
        ite_self]
    · rw [if_pos rfl, if_neg hin, List.getElem?_eq_none (not_lt.mp hin)]
      rfl
  · have hmem : j ∈ i :: numbers ↔ j ∈ numbers := by
      rw [List.mem_cons, or_iff_right hne.symm]
    simp only [if_neg hne, hmem]

/-- The jobs can be done when each gives a value and has a slot, and then every slot holds the
value of its own job. -/
theorem fillSlots_ok_iff {slots filled : List (Option α)} {numbers : List ℕ} :
    fillSlots outOfRange job slots numbers = .ok filled
      ↔ (∀ i ∈ numbers, i < slots.length ∧ ∃ value, job i = .ok value)
        ∧ slotsAfter job slots numbers = filled := by
  induction numbers generalizing slots with
  | nil =>
    have hsame : slotsAfter job slots [] = slots := by
      simp only [slotsAfter, List.not_mem_nil, if_false]
      exact List.mapIdx_eq_iff.mpr fun i => by simp
    rw [fillSlots, hsame, Except.ok.injEq]
    simp only [List.not_mem_nil, false_implies, implies_true, true_and]
  | cons i numbers ih =>
    simp only [fillSlots, bind_eq_ok, List.forall_mem_cons]
    constructor
    · rintro ⟨value, hvalue, next, hnext, hrest⟩
      unfold setSlot at hnext
      split_ifs at hnext with hin
      obtain rfl := Except.ok.inj hnext
      obtain ⟨hall, hfilled⟩ := ih.mp hrest
      rw [List.length_set] at hall
      exact ⟨⟨⟨hin, value, hvalue⟩, hall⟩, by rw [← slotsAfter_cons numbers hvalue, hfilled]⟩
    · rintro ⟨⟨⟨hin, value, hvalue⟩, hall⟩, hfilled⟩
      refine ⟨value, hvalue, slots.set i (some value), if_pos hin, ih.mpr ⟨?_, ?_⟩⟩
      · rw [List.length_set]
        exact hall
      · rw [slotsAfter_cons numbers hvalue, hfilled]

theorem filledSlots_ok_iff {slots : List (Option α)} {values : List α} :
    filledSlots incomplete slots = .ok values ↔ slots = values.map some := by
  unfold filledSlots
  constructor
  · intro h
    split_ifs at h with hany
    rw [← Except.ok.inj h]
    clear h
    induction slots with
    | nil => rfl
    | cons slot slots ih =>
      rw [List.any_cons, Bool.or_eq_true, not_or] at hany
      cases slot with
      | none => exact absurd rfl hany.1
      | some value =>
        exact congrArg (some value :: ·) (ih hany.2)
  · rintro rfl
    rw [if_neg (by simp), List.filterMap_map]
    simp

/-- Doing every job of `0 … n-1`, in any order and as often as one likes, is doing them one after
the other. -/
theorem fillSlots_all {n : ℕ} {numbers : List ℕ} (hall : ∀ i, i ∈ numbers ↔ i < n)
    {values : List α} :
    (fillSlots outOfRange job (List.replicate n none) numbers >>= filledSlots incomplete)
        = .ok values
      ↔ (List.range n).mapM job = .ok values := by
  have hslots : slotsAfter job (List.replicate n none) numbers
      = (List.range n).map (fun i => (job i).toOption) := by
    apply List.ext_getElem
    · rw [slotsAfter_length, List.length_replicate, List.length_map, List.length_range]
    · intro i hleft hright
      rw [slotsAfter_length, List.length_replicate] at hleft
      simp only [slotsAfter, List.getElem_mapIdx, List.getElem_map, List.getElem_range,
        (hall i).mpr hleft, if_true]
  -- a sequential run returns exactly when no job failed
  have hjobs (numbers : List ℕ) (values : List α) : numbers.mapM job = .ok values
      ↔ numbers.map (fun i => (job i).toOption) = values.map some := by
    induction numbers generalizing values with
    | nil => cases values <;> simp [pure, Except.pure]
    | cons i numbers ih =>
      rw [List.mapM_cons]
      cases values with
      | nil => cases job i <;> simp
      | cons value values =>
        simp only [bind_eq_ok, pure_eq_ok, List.map_cons, List.cons.injEq, ih]
        cases job i <;> simp [Except.toOption]
  simp only [bind_eq_ok, fillSlots_ok_iff, filledSlots_ok_iff]
  rw [hjobs, ← hslots]
  constructor
  · rintro ⟨_, ⟨_, rfl⟩, hvalues⟩
    exact hvalues
  · intro hvalues
    refine ⟨_, ⟨fun i hi => ⟨?_, ?_⟩, rfl⟩, hvalues⟩
    · rw [List.length_replicate]
      exact (hall i).mp hi
    · -- an empty slot would show in the values
      rw [hslots] at hvalues
      have hmem : (job i).toOption ∈ values.map some := by
        rw [← hvalues]
        exact List.mem_map.mpr ⟨i, List.mem_range.mpr ((hall i).mp hi), rfl⟩
      obtain ⟨value, _, hvalue⟩ := List.mem_map.mp hmem
      cases hjob : job i with
      | ok value => exact ⟨value, rfl⟩
      | error e =>
        rw [hjob] at hvalue
        cases hvalue

end ConferWorker
