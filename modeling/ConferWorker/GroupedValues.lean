import ConferWorker.PythonDict

/-! Grouping by key, as a loop over a `defaultdict(list)` does it: the groups stand in the order
in which their keys came first, and each holds its values in the order of the items. -/
namespace ConferWorker

variable {κ α β : Type} [DecidableEq κ]

/-- The distinct keys in the order of their first appearance. -/
def firstKeys (keys : List κ) : List κ := keys.eraseDups

/-- The values of one key in their order. -/
def valuesOf (key : κ) (items : List (κ × α)) : List α :=
  (items.filter (fun item => item.1 = key)).map Prod.snd

theorem firstKeys_append_single (keys : List κ) (key : κ) :
    firstKeys (keys++[key])
      = if key ∈ firstKeys keys then firstKeys keys else firstKeys keys++[key] := by
  simp only [firstKeys, List.eraseDups_append, List.mem_eraseDups]
  split_ifs with hmem
  · rw [show [key].removeAll keys = [] by simp [List.removeAll, hmem], List.eraseDups_nil,
      List.append_nil]
  · rw [show [key].removeAll keys = [key] by simp [List.removeAll, hmem], List.eraseDups_cons]
    rfl

@[simp] theorem mem_firstKeys (keys : List κ) (key : κ) : key ∈ firstKeys keys ↔ key ∈ keys :=
  List.mem_eraseDups

theorem valuesOf_append_single (items : List (κ × α)) (item : κ × α) (key : κ) :
    valuesOf key (items++[item])
      = if item.1 = key then valuesOf key items++[item.2] else valuesOf key items := by
  unfold valuesOf
  rw [List.filter_append, List.map_append]
  split_ifs with hkey
  · rw [List.filter_singleton, decide_eq_true hkey, cond_true, List.map_singleton]
  · rw [List.filter_singleton, decide_eq_false hkey, cond_false, List.map_nil, List.append_nil]

theorem valuesOf_eq_nil (items : List (κ × α)) (key : κ) (h : key ∉ items.map Prod.fst) :
    valuesOf key items = [] := by
  rw [valuesOf, List.map_eq_nil_iff, List.filter_eq_nil_iff]
  intro item hitem hkey
  exact h (List.mem_map.mpr ⟨item, hitem, of_decide_eq_true hkey⟩)

namespace PythonDict

/-- `d[key].append(value)` on a `defaultdict(list)`. -/
def add (d : PythonDict κ (List α)) (key : κ) (value : α) : PythonDict κ (List α) :=
  d.set key ((d.get? key).getD []++[value])

/-- The loop that adds the items one after the other. -/
def group (items : List (κ × α)) : PythonDict κ (List α) :=
  items.foldl (fun d item => d.add item.1 item.2) .empty

theorem group_append_single (items : List (κ × α)) (item : κ × α) :
    group (items++[item]) = (group items).add item.1 item.2 := by
  rw [group, List.foldl_append]
  rfl

theorem group_keys (items : List (κ × α)) :
    (group items).keys = firstKeys (items.map Prod.fst) := by
  induction items using List.reverseRecOn with
  | nil => rfl
  | append_singleton items item ih =>
    rw [group_append_single, add, keys_set, ih, List.map_append, List.map_singleton,
      firstKeys_append_single]

theorem group_get? (items : List (κ × α)) (key : κ) :
    (group items).get? key
      = if key ∈ items.map Prod.fst then some (valuesOf key items) else none := by
  induction items using List.reverseRecOn with
  | nil => rfl
  | append_singleton items item ih =>
    rw [group_append_single, add, get?_set, valuesOf_append_single]
    simp only [List.map_append, List.map_singleton, List.mem_append, List.mem_singleton]
    by_cases hkey : item.1 = key
    · have hold : ((group items).get? item.1).getD [] = valuesOf key items := by
        rw [hkey, ih]
        split_ifs with hmem
        · rfl
        · exact (valuesOf_eq_nil items key hmem).symm
      rw [if_pos hkey, if_pos hkey, if_pos (Or.inr hkey.symm), hold]
    · rw [if_neg hkey, if_neg hkey, ih]
      simp only [Ne.symm hkey, or_false]

theorem values_eq_map (d : PythonDict κ β) (f : κ → β)
    (hf : ∀ key ∈ d.keys, d.get? key = some (f key)) : d.values = d.keys.map f := by
  rw [values, keys, List.map_map]
  apply List.map_congr_left
  intro entry hentry
  have hget := (d.get?_eq_some entry.1 entry.2).mpr hentry
  rw [hf entry.1 (List.mem_map.mpr ⟨entry, hentry, rfl⟩)] at hget
  exact (Option.some.inj hget).symm

/-- The loop groups the items. -/
theorem group_values (items : List (κ × α)) :
    (group items).values
      = (firstKeys (items.map Prod.fst)).map (fun key => valuesOf key items) := by
  rw [← group_keys]
  apply values_eq_map
  intro key hkey
  rw [group_keys, mem_firstKeys] at hkey
  rw [group_get?, if_pos hkey]

/-- Every value stands in one of the groups. -/
theorem mem_group_values (items : List (κ × α)) (item : κ × α) (hitem : item ∈ items) :
    ∃ values ∈ (group items).values, item.2 ∈ values := by
  rw [group_values]
  refine ⟨valuesOf item.1 items, List.mem_map.mpr ⟨item.1, ?_, rfl⟩, ?_⟩
  · rw [mem_firstKeys]
    exact List.mem_map.mpr ⟨item, hitem, rfl⟩
  · exact List.mem_map.mpr ⟨item, List.mem_filter.mpr ⟨hitem, decide_eq_true rfl⟩, rfl⟩

theorem sum_replace (weight : β → ℕ) (key : κ) (value : β) (entries : List (κ × β)) :
    ((replace key value entries).map (fun entry => weight entry.2)).sum
        +((lookup key entries).map weight).getD 0
      = (entries.map (fun entry => weight entry.2)).sum+weight value := by
  induction entries with
  | nil => simp [replace, lookup]
  | cons entry entries ih =>
    rw [replace, lookup]
    split_ifs with hkey
    · simp only [List.map_cons, List.sum_cons, Option.map_some, Option.getD_some]
      omega
    · simp only [List.map_cons, List.sum_cons]
      omega

/-- The groups weigh together what the items weigh. -/
theorem sum_group_values (weight : α → ℕ) (items : List (κ × α)) :
    ((group items).values.map (fun values => (values.map weight).sum)).sum
      = (items.map (fun item => weight item.2)).sum := by
  induction items using List.reverseRecOn with
  | nil => rfl
  | append_singleton items item ih =>
    have hadd := sum_replace (fun values : List α => (values.map weight).sum) item.1
      (((group items).get? item.1).getD []++[item.2]) (group items).entries
    have hold : ((lookup item.1 (group items).entries).map
        (fun values : List α => (values.map weight).sum)).getD 0
          = ((((group items).get? item.1).getD []).map weight).sum := by
      show (((group items).get? item.1).map _).getD 0 = _
      cases (group items).get? item.1 with
      | none => rfl
      | some values => rfl
    rw [group_append_single, List.map_append, List.sum_append, ← ih]
    rw [hold, List.map_append, List.sum_append] at hadd
    simp only [values, List.map_map, Function.comp_def, List.map_singleton,
      List.sum_singleton] at hadd ⊢
    show ((replace item.1 _ (group items).entries).map _).sum = _
    omega

end PythonDict

end ConferWorker
